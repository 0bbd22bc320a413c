import TreeLint.Text.Quoted

/-!
# Strict UTF-8

Decoding refuses every sequence of bytes that is not the one encoding of some character.
A refusal names the bytes of the sequence that were good so far and why it cannot go on.
-/

namespace TreeLint.Text

/-- Why a sequence of bytes is no character. -/
inductive UndecodableCause where
  | invalidStart
  | invalidContinuation
  | unexpectedEnd
  deriving DecidableEq, Repr

/-- The text of a cause. -/
def UndecodableCause.message : UndecodableCause → String
  | .invalidStart => "invalid start byte"
  | .invalidContinuation => "invalid continuation byte"
  | .unexpectedEnd => "unexpected end of data"

/-- A place at which bytes are no text: `count` bytes from `position` on, the first of them
`byte`. -/
structure Undecodable where
  position : Nat
  count : Nat
  byte : UInt8
  cause : UndecodableCause
  deriving DecidableEq, Repr

/-- The text of the fault. -/
def Undecodable.message (e : Undecodable) : String :=
  let place :=
    if e.count = 1 then
      s!"byte 0x{String.ofList (hexPadded 2 e.byte.toNat)} in position {e.position}"
    else s!"bytes in position {e.position}-{e.position + e.count - 1}"
  s!"'utf-8' codec can't decode {place}: {e.cause.message}"

/-- Whether a byte continues a sequence. -/
def isContinuation (b : UInt8) : Bool := 0x80 ≤ b && b ≤ 0xbf

/-- What the first byte of a sequence announces. For longer sequences the second byte is
bounded so that every character has one encoding. -/
inductive Lead where
  | single
  | two
  | three (low high : UInt8)
  | four (low high : UInt8)
  | invalid

/-- The announcement of a first byte. -/
def Lead.ofByte (b : UInt8) : Lead :=
  if b < 0x80 then .single
  else if b < 0xc2 then .invalid
  else if b < 0xe0 then .two
  else if b = 0xe0 then .three 0xa0 0xbf
  else if b = 0xed then .three 0x80 0x9f
  else if b < 0xf0 then .three 0x80 0xbf
  else if b = 0xf0 then .four 0x90 0xbf
  else if b < 0xf4 then .four 0x80 0xbf
  else if b = 0xf4 then .four 0x80 0x8f
  else .invalid

/-- The character whose bits are in these bytes, the first of which has `lead` bits of
payload. -/
def charOfBytes (lead : Nat) (first : UInt8) (others : List UInt8) : Char :=
  Char.ofNat (others.foldl (fun n b => n * 64 + b.toNat % 64) (first.toNat % Nat.pow 2 lead))

/-- The characters of the bytes from `position` on, after those in `acc`, which are in
reverse. -/
def decodeFrom (position : Nat) (acc : List Char) : List UInt8 → Except Undecodable (List Char)
  | [] => .ok acc.reverse
  | b :: rest =>
    let fault (count : Nat) (cause : UndecodableCause) : Except Undecodable (List Char) :=
      .error ⟨position, count, b, cause⟩
    match Lead.ofByte b, rest with
    | .invalid, _ => fault 1 .invalidStart
    | .single, rest => decodeFrom (position + 1) (Char.ofNat b.toNat :: acc) rest
    | .two, [] => fault 1 .unexpectedEnd
    | .two, c :: rest =>
      if isContinuation c then decodeFrom (position + 2) (charOfBytes 5 b [c] :: acc) rest
      else fault 1 .invalidContinuation
    | .three .., [] => fault 1 .unexpectedEnd
    | .three low high, c :: rest =>
      if low ≤ c && c ≤ high then
        match rest with
        | [] => fault 2 .unexpectedEnd
        | d :: rest =>
          if isContinuation d then decodeFrom (position + 3) (charOfBytes 4 b [c, d] :: acc) rest
          else fault 2 .invalidContinuation
      else fault 1 .invalidContinuation
    | .four .., [] => fault 1 .unexpectedEnd
    | .four low high, c :: rest =>
      if low ≤ c && c ≤ high then
        match rest with
        | [] => fault 2 .unexpectedEnd
        | d :: rest =>
          if isContinuation d then
            match rest with
            | [] => fault 3 .unexpectedEnd
            | e :: rest =>
              if isContinuation e then
                decodeFrom (position + 4) (charOfBytes 3 b [c, d, e] :: acc) rest
              else fault 3 .invalidContinuation
          else fault 2 .invalidContinuation
      else fault 1 .invalidContinuation

/-- The characters that the bytes encode. -/
def decode (bytes : List UInt8) : Except Undecodable (List Char) := decodeFrom 0 [] bytes

/-- The text with every line ending as a single line feed, after the characters in `acc`,
which are in reverse. -/
def normalizeNewlinesFrom (acc : List Char) : List Char → List Char
  | [] => acc.reverse
  | '\r' :: '\n' :: rest => normalizeNewlinesFrom ('\n' :: acc) rest
  | c :: rest => normalizeNewlinesFrom ((if c = '\r' then '\n' else c) :: acc) rest

/-- The text with every line ending as a single line feed. -/
def normalizeNewlines (cs : List Char) : List Char := normalizeNewlinesFrom [] cs

end TreeLint.Text
