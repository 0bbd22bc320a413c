import TreeLint.Number.Double
import TreeLint.Text.Utf8

/-!
# Text That Arrives in Blocks

The bytes of a long file are decoded block by block, and its characters are handed out as they
are asked for. What cannot be decoded yet is kept for the next block: the bytes of a character
that is not complete, and a carriage return, which may be the first half of a line ending.

Two things depend on where the blocks end. The **position of a fault** is counted within the bytes
that were decoded together, and a fault is met only when its block is. A block has `blockSize`
bytes, or more where the characters that are asked for are likely to need more, judged by the
block before it.
-/

namespace TreeLint.Text

/-- How many bytes are decoded together at least. -/
def blockSize : Nat := 8192

/-- A text of which a part has arrived. -/
structure Arrival where
  /-- The bytes that have not arrived. -/
  bytes : List UInt8
  /-- The first bytes of a character that is not complete. -/
  kept : List UInt8 := []
  /-- Whether a carriage return is kept. -/
  keepsReturn : Bool := false
  /-- The characters that have arrived and have not been handed out. -/
  ready : List Char := []
  /-- How many bytes a character of the last block took. -/
  density : Double := .zero false

/-- The characters that bytes encode, and the bytes at their end that more bytes may complete. At
the end of a text there are none to come. -/
def decodeBlock (isEnd : Bool) (bytes : List UInt8) :
    Except Undecodable (List Char × List UInt8) :=
  match decode bytes with
  | .ok cs => .ok (cs, [])
  | .error fault =>
    if fault.cause = .unexpectedEnd && !isEnd then do
      return (← decode (bytes.take fault.position), bytes.drop fault.position)
    else .error fault

namespace Arrival

/-- How many bytes the next block has when `wanted` characters are asked for. -/
def nextBlockSize (a : Arrival) (wanted : Nat) : Nat :=
  match (a.density.mul (.ofInt wanted)).toRatio? with
  | some (num, den) => max blockSize (num.toNat / den)
  | none => blockSize

/-- The text after its next block has arrived, or nothing if there is none. -/
def receive (a : Arrival) (wanted : Nat) : Except Undecodable (Option Arrival) := do
  let block := a.bytes.take (a.nextBlockSize wanted)
  let isEnd := block.isEmpty
  let (decoded, kept) ← decodeBlock isEnd (a.kept ++ block)
  let isReleased := a.keepsReturn && (isEnd || !decoded.isEmpty)
  let cs := if isReleased then '\r' :: decoded else decoded
  let isHeld := !isEnd && cs.getLast? == some '\r'
  let cs := normalizeNewlines (if isHeld then cs.dropLast else cs)
  if isEnd && cs.isEmpty then return none
  return some {
    bytes := a.bytes.drop block.length
    kept
    keepsReturn := isHeld || (a.keepsReturn && !isReleased)
    ready := a.ready ++ cs
    density := if cs.isEmpty then .zero false else .ofRatio false block.length cs.length }

/-- The text after as many blocks as bring `n` characters, or all that are left. -/
def receiveUpTo (fuel n : Nat) (a : Arrival) : Except Undecodable Arrival := do
  match fuel with
  | 0 => return a
  | fuel + 1 =>
    if n ≤ a.ready.length then return a
    match ← a.receive (n - a.ready.length) with
    | some a => receiveUpTo fuel n a
    | none => return a

/-- The next `n` characters, fewer only at the end of the text, and the text after them. -/
def take (n : Nat) (a : Arrival) : Except Undecodable (List Char × Arrival) := do
  let a ← a.receiveUpTo (a.bytes.length + 2) n
  return (a.ready.take n, { a with ready := a.ready.drop n })

end Arrival

end TreeLint.Text
