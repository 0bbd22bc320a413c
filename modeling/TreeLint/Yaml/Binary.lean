/-!
# Bytes in Base 64

Four characters stand for three bytes. Characters outside the alphabet do not count, and an equals
sign ends the text once it completes a group.
-/

namespace TreeLint.Yaml

/-- The value of a character of the alphabet. -/
def sextet? (c : Char) : Option Nat :=
  if 'A' ≤ c && c ≤ 'Z' then some (c.toNat - 65)
  else if 'a' ≤ c && c ≤ 'z' then some (c.toNat - 71)
  else if '0' ≤ c && c ≤ '9' then some (c.toNat + 4)
  else if c = '+' then some 62
  else if c = '/' then some 63
  else none

/-- The bytes from here on, after those in `bytes`, which are in reverse. `filled` says how many
characters of the group have been seen, `bits` holds what they leave over, and `pads` counts the
equals signs since the last of them. -/
def decodeBase64From (bytes : List UInt8) (filled bits pads : Nat) :
    List Char → Option (List UInt8)
  | [] => if filled = 0 then some bytes.reverse else none
  | c :: rest =>
    if c = '=' then
      if 2 ≤ filled then
        if 4 ≤ filled + (pads + 1) then some bytes.reverse
        else decodeBase64From bytes filled bits (pads + 1) rest
      else decodeBase64From bytes filled bits pads rest
    else
      match sextet? c with
      | none => decodeBase64From bytes filled bits pads rest
      | some v =>
        match filled with
        | 0 => decodeBase64From bytes 1 v 0 rest
        | 1 => decodeBase64From (UInt8.ofNat (bits * 4 + v / 16) :: bytes) 2 (v % 16) 0 rest
        | 2 => decodeBase64From (UInt8.ofNat (bits * 16 + v / 4) :: bytes) 3 (v % 4) 0 rest
        | _ => decodeBase64From (UInt8.ofNat (bits * 64 + v) :: bytes) 0 0 0 rest

/-- The bytes that a text of ASCII characters encodes. -/
def decodeBase64 (cs : List Char) : Option (List UInt8) :=
  if cs.all fun c => c.toNat < 128 then decodeBase64From [] 0 0 0 cs else none

end TreeLint.Yaml
