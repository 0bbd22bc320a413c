import TreeLint.Console.Display
import TreeLint.Console.Style
import TreeLint.Console.StyledText
import TreeLint.Literal.Read
import TreeLint.Text.Alphanumeric

/-!
# Markup

Text for the console can carry tags in square brackets, which style what they enclose. What
remains when the tags are gone is a styled text (`ofMarkup`). What matters is what counts as a
tag, how a bracket is written that does not start one, and that **every closing tag closes
something**.

A tag can ask for an action. Its parameters are the name of a handler, with arguments in brackets
or without, or only a value. The arguments are read as one literal; so is the value.

## What is assumed

What a tag is, and that pictures are drawn in the text between tags but not in the tags, is fixed
here; which names have a picture is up to the display (`Pictures`). A tag counts as one whether or
not its name is that of a style.
-/

namespace TreeLint.Console

/-! ### Actions -/

namespace Action

/-- The arguments of a handler, if the text is one with its arguments or without. All of them
stand on one line. -/
def arguments? (cs : List Char) : Option (List Char) :=
  match cs.dropWhile fun c => Text.isWordChar c || c = '.' with
  | [] => some ['(', ')']
  | '(' :: rest =>
    if rest.getLast? = some ')' && !rest.contains '\n' then some ('(' :: rest) else none
  | _ => none

/-- Whether the parameters of an action can be read. -/
def check (parameters : List Char) : Except MarkupFault Unit :=
  if parameters.isEmpty then .ok ()
  else
    let text := Text.trim parameters
    let literal := (arguments? text).getD text
    match Literal.read literal with
    | .ok () => .ok ()
    | .error f =>
      .error <| .action (String.ofList parameters) <|
        if f.isOfWriting then .malformed (String.ofList literal) f.message
        else .valueless f.message

end Action

/-! ### Tags -/

/-- A tag: its name, what stands after an equals sign, and where it starts. -/
structure Tag where
  name : List Char
  parameters : Option (List Char)
  position : Nat

/-- The tag as it is written. -/
def Tag.text (t : Tag) : String :=
  let parameters := match t.parameters with
    | some p => '=' :: p
    | none => []
  String.ofList ('[' :: (t.name ++ parameters ++ [']']))

/-- A piece of a text with markup. -/
inductive Piece where
  | text (cs : List Char)
  | tag (t : Tag)

/-- Whether a character can start the inside of a tag. -/
def isTagStart (c : Char) : Bool := ('a' ≤ c && c ≤ 'z') || c = '#' || c = '/' || c = '@'

/-- The inside of the tag whose opening bracket stands before the text, and what follows the
tag. -/
def tagBody? : List Char → Option (List Char × List Char)
  | [] => none
  | c :: rest =>
    if isTagStart c then
      match rest.dropWhile fun d => d != ']' && d != '[' with
      | ']' :: after => some (c :: rest.takeWhile fun d => d != ']' && d != '[', after)
      | _ => none
    else none

/-- After a tag **less is left** of the text. -/
theorem length_of_tagBody? {cs body after : List Char} (h : tagBody? cs = some (body, after)) :
    after.length < cs.length := by
  unfold tagBody? at h
  split at h
  · simp at h
  · rename_i c rest
    split at h
    · split at h
      · rename_i rest' heq
        have hlen := congrArg List.length heq
        have hle := (List.dropWhile_suffix (l := rest) fun d => d != ']' && d != '[').length_le
        simp only [Option.some.injEq, Prod.mk.injEq] at h
        obtain ⟨-, rfl⟩ := h
        simp only [List.length_cons] at hlen ⊢
        omega
      · simp at h
    · simp at h

/-- The tag with a given inside. -/
def Tag.ofBody (position : Nat) (body : List Char) : Tag :=
  let name := body.takeWhile (· != '=')
  match body.drop name.length with
  | _ :: parameters => ⟨name, some parameters, position⟩
  | [] => ⟨name, none, position⟩

/-- The text piece of the characters `run`, which are in reverse, unless there are none. -/
def pending (run : List Char) : List Piece := if run.isEmpty then [] else [.text run.reverse]

/-- The pieces of a text after those in `done`, which are in reverse. `run` holds, in reverse,
the characters since the last piece, `slashes` says how many backslashes stand right before the
text, which `run` does not hold, and `position` is where the text starts. Before a tag two
backslashes are one, and one that is left over takes the tag literally. -/
def piecesFrom (done : List Piece) (run : List Char) (slashes position : Nat)
    (cs : List Char) : List Piece :=
  let lead := List.replicate slashes '\\'
  match cs with
  | [] => (pending (lead ++ run) ++ done).reverse
  | c :: rest =>
    if c = '\\' then piecesFrom done run (slashes + 1) (position + 1) rest
    else if c = '[' then
      match h : tagBody? rest with
      | none => piecesFrom done ('[' :: (lead ++ run)) 0 (position + 1) rest
      | some (body, after) =>
        have := length_of_tagBody? h
        let halves := pending (List.replicate (slashes / 2) '\\')
        let done := halves ++ (pending run ++ done)
        let next := position + body.length + 2
        if slashes % 2 = 1 then
          piecesFrom (.text ('[' :: (body ++ [']'])) :: done) [] 0 next after
        else piecesFrom (.tag (.ofBody position body) :: done) [] 0 next after
    else piecesFrom done (c :: (lead ++ run)) 0 (position + 1) rest
termination_by cs.length
decreasing_by all_goals simp only [List.length_cons]; omega

/-- The pieces of a text. -/
def pieces (cs : List Char) : List Piece := piecesFrom [] [] 0 0 cs

/-- The text with every escaped bracket as a bracket. -/
def unescapeBrackets : List Char → List Char
  | [] => []
  | '\\' :: '[' :: rest => '[' :: unescapeBrackets rest
  | c :: rest => c :: unescapeBrackets rest

/-! ### The text -/

/-- A tag that is open: where it starts in the text, the normal form of its name, and what stands
after an equals sign. -/
structure OpenTag where
  start : Nat
  name : String
  parameters : Option (List Char)

namespace OpenTag

/-- The style that the tag names. -/
def style (t : OpenTag) : String :=
  match t.parameters with
  | some p => t.name ++ " " ++ String.ofList p
  | none => t.name

/-- The span of the tag when it is closed. A tag that starts with an at sign asks for an action,
which has to be one. -/
def close (t : OpenTag) (stop : Nat) : Except MarkupFault Span :=
  if t.name.startsWith "@" then do
    Action.check (t.parameters.getD [])
    return ⟨t.start, stop, none⟩
  else .ok ⟨t.start, stop, some t.style⟩

end OpenTag

/-- A text whose markup has been read up to some place: its characters and its spans, both in
reverse, how long it is, and what is open, from the last tag on. -/
structure Reading where
  chars : List (List Char) := []
  length : Nat := 0
  opened : List OpenTag := []
  spans : List Span := []

/-- The tags that are open, from the last on, without the last one named `name`, and that one. -/
def closeName? (name : String) : List OpenTag → Option (OpenTag × List OpenTag)
  | [] => none
  | t :: rest =>
    if t.name = name then some (t, rest) else (closeName? name rest).map fun (u, r) => (u, t :: r)

namespace Reading

/-- Characters without markup, in which names can stand for pictures. -/
def addText (r : Reading) (pictures : Pictures) (cs : List Char) : Reading :=
  let cs := printable (pictures.replace (unescapeBrackets cs))
  { r with chars := cs :: r.chars, length := r.length + cs.length }

/-- The tag that a closing tag closes, and what is still open. -/
def closedBy (r : Reading) (t : Tag) (name : List Char) :
    Except Fault (OpenTag × List OpenTag) :=
  if name.isEmpty then
    match r.opened with
    | [] => .error (.markup (.nothingOpen t.position))
    | last :: rest => .ok (last, rest)
  else do
    let name ← (styleNormalForm (String.ofList name)).mapError .level
    match closeName? name r.opened with
    | some closed => return closed
    | none => .error (.markup (.unmatched t.text t.position))

/-- A tag. -/
def addTag (r : Reading) (t : Tag) : Except Fault Reading :=
  match t.name with
  | '/' :: name => do
    let (closed, opened) ← r.closedBy t (Text.trim name)
    let span ← (closed.close r.length).mapError .markup
    return { r with opened, spans := span :: r.spans }
  | name => do
    let name ← (styleNormalForm (String.ofList name)).mapError .level
    return { r with opened := ⟨r.length, name, t.parameters⟩ :: r.opened }

/-- One piece after another. -/
def addAll (pictures : Pictures) (r : Reading) : List Piece → Except Fault Reading
  | [] => .ok r
  | .text cs :: rest => (r.addText pictures cs).addAll pictures rest
  | .tag t :: rest => do (← r.addTag t).addAll pictures rest

/-- The text, with what is still open closed at its end. -/
def finish (r : Reading) : StyledText :=
  let spans := r.opened.foldl (fun spans t => ⟨t.start, r.length, some t.style⟩ :: spans) r.spans
  { chars := r.chars.reverse.flatten, spans := spans.mergeSort fun a b => a.start ≤ b.start }

end Reading

/-- The **text of markup**, in which names can stand for pictures. -/
def ofMarkup (pictures : Pictures) (markup : List Char) : Except Fault StyledText := do
  return (← Reading.addAll pictures {} (pieces markup)).finish

end TreeLint.Console
