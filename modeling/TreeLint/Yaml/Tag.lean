import TreeLint.Text.Utf8
import TreeLint.Yaml.Scalar

/-!
# Tags and Directives in a YAML Text

The pieces of a text that are neither scalars nor structure: the names of anchors, tags with
their handles, and directives.
-/

namespace TreeLint.Yaml

/-- The name of an anchor or an alias, from the character after its indicator on. -/
def scanAnchorName (c : Cursor) : Except Fault (String × Cursor) := do
  let (name, c) ← c.span isNameChar
  let ch ← c.peek
  let ends := isGapOrEnd ch || ['?', ':', ',', ']', '\x7d', '%', '@', '\x60'].contains ch
  if name.isEmpty || !ends then .error .malformed else return (String.ofList name, c)

/-! ### Tags -/

/-- Whether a character can stand in the suffix of a tag. -/
def isTagChar (c : Char) : Bool :=
  c.isAlphanum || ['-', ';', '/', '?', ':', '@', '&', '=', '+', '$', ',', '_', '.', '!', '~', '*',
    '\'', '(', ')', '[', ']', '%'].contains c

/-- The bytes of a run of percent codes. -/
def scanTagBytes (fuel : Nat) (bytes : List UInt8) (c : Cursor) :
    Except Fault (List UInt8 × Cursor) := do
  match fuel with
  | 0 => return (bytes, c)
  | fuel + 1 =>
    if (← c.peek) = '%' then
      let (byte, c) ← scanHex 2 0 (← c.next)
      scanTagBytes fuel (bytes ++ [UInt8.ofNat byte]) (← c.skip 0)
    else return (bytes, c)

/-- The suffix of a tag, after the characters in `text`, which are in reverse. -/
def scanTagSuffixFrom (fuel : Nat) (text : List Char) (c : Cursor) :
    Except Fault (List Char × Cursor) := do
  match fuel with
  | 0 => return (text.reverse, c)
  | fuel + 1 =>
    let (run, c) ← c.span fun ch => isTagChar ch && ch != '%'
    let text := run.reverse ++ text
    if (← c.peek) = '%' then
      let (bytes, c) ← scanTagBytes c.bound [] c
      match Text.decode bytes with
      | .ok chars => scanTagSuffixFrom fuel (chars.reverse ++ text) c
      | .error _ => .error .malformed
    else return (text.reverse, c)

/-- The suffix of a tag, which is not empty. -/
def scanTagSuffix (c : Cursor) : Except Fault (String × Cursor) := do
  if isTagChar (← c.peek) then
    let (text, c) ← scanTagSuffixFrom c.bound [] c
    return (String.ofList text, c)
  else .error .malformed

/-- The handle of a tag: an exclamation mark, or a name between two of them. -/
def scanTagHandle (c : Cursor) : Except Fault (String × Cursor) := do
  if (← c.peek) != '!' then .error .malformed
  let c ← c.next
  if (← c.peek) = ' ' then return ("!", c)
  let (name, c) ← c.span isNameChar
  if (← c.peek) = '!' then return (String.ofList ('!' :: (name ++ ['!'])), ← c.next)
  else .error .malformed

/-- Whether a tag has a handle of its own: another exclamation mark before a space. -/
def hasHandle (c : Cursor) : Except Fault Bool := do
  let c ← c.next
  return (← (← c.skipWhile fun ch => !(isSpaceOrEnd ch || ch = '!')).peek) = '!'

/-- A tag: its handle, unless it is written out, and its suffix. -/
def scanTag (c : Cursor) : Except Fault (Option String × String × Cursor) := do
  let second ← c.peekAt 1
  let (handle, suffix, c) ←
    if second = '<' then do
      let (suffix, c) ← scanTagSuffix (← c.skip 2)
      if (← c.peek) = '>' then pure (none, suffix, ← c.next) else .error .malformed
    else if isGapOrEnd second then pure (none, "!", ← c.next)
    else do
      let (handle, c) ← if ← hasHandle c then scanTagHandle c else pure ("!", ← c.next)
      let (suffix, c) ← scanTagSuffix c
      pure (some handle, suffix, c)
  if isSpaceOrEnd (← c.peek) then return (handle, suffix, c) else .error .malformed

/-! ### Directives -/

/-- A number of a version. -/
def scanVersionNumber (c : Cursor) : Except Fault (Nat × Cursor) := do
  let (digits, c) ← c.span Char.isDigit
  if digits.isEmpty then .error .malformed
  else if digitLimit < digits.length then
    .error (.scalar (.tooManyDigits (.reading digits.length)))
  else return (digits.foldl (fun n ch => 10 * n + (ch.toNat - 48)) 0, c)

/-- What a directive says. -/
inductive Directive where
  | version (major : Nat)
  | tag (handle expansion : String)
  | other

/-- The value of a directive with a given name. -/
def scanDirectiveValue (name : String) (c : Cursor) : Except Fault (Directive × Cursor) := do
  if name = "YAML" then
    let (major, c) ← scanVersionNumber (← c.skipWhile (· == ' '))
    if (← c.peek) != '.' then .error .malformed
    let (_, c) ← scanVersionNumber (← c.next)
    if isSpaceOrEnd (← c.peek) then return (.version major, c) else .error .malformed
  else if name = "TAG" then
    let (handle, c) ← scanTagHandle (← c.skipWhile (· == ' '))
    if (← c.peek) != ' ' then .error .malformed
    let (expansion, c) ← scanTagSuffix (← c.skipWhile (· == ' '))
    if isSpaceOrEnd (← c.peek) then return (.tag handle expansion, c) else .error .malformed
  else return (.other, ← c.skipWhile fun ch => !isBreak ch)

/-- The directive whose percent sign is here, up to the line after it. -/
def scanDirective (c : Cursor) : Except Fault (Directive × Cursor) := do
  let (name, c) ← (← c.next).span isNameChar
  if name.isEmpty || !isSpaceOrEnd (← c.peek) then .error .malformed
  let (directive, c) ← scanDirectiveValue (String.ofList name) c
  return (directive, ← c.skipLineEnd)

end TreeLint.Yaml
