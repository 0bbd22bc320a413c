import TreeLint.Yaml.Implicit
import TreeLint.Yaml.Token

/-!
# Nodes from Tokens

`Graph.ofText` reads the one document of a text as a graph of nodes. A node without content, like
the value of a key with nothing after its colon, is an empty plain scalar.

Every round of a loop and every step into a node takes a token, and a text has no more tokens than
a few times its characters, which bounds the depth of the recursion.

## What is assumed

How deep nodes may stand one inside the other is set by the room that the reader has
(`depthLimit`). A text that goes deeper is refused, although it is good YAML.
-/

namespace TreeLint.Yaml

/-- Where the search for tokens is, and what was made of those before. -/
structure GraphState where
  search : TokenSearch
  graph : Graph := {}
  /-- The nodes with an anchor. -/
  anchors : List (String × Nat) := []
  /-- What the handles of tags stand for. -/
  handles : List (String × String) := [("!", "!"), ("!!", coreTagNames)]
  /-- How many collections are around. -/
  depth : Nat := 0

/-- How many collections can stand one inside the other. -/
def depthLimit : Nat := 488

/-- A step of reading tokens into a graph. -/
abbrev GraphM := StateT GraphState (Except Fault)

namespace GraphM

/-- The text is not YAML. -/
def malformed {α : Type} : GraphM α := throw .malformed

/-- The next token. -/
def peek : GraphM Token := do
  let s ← get
  let (t, search) ← s.search.next
  set { s with search }
  return t

/-- Pass the next token, which was looked at. -/
def advance : GraphM Unit := modify fun s => { s with search := s.search.drop }

/-- Whether the next token is one of these. -/
def sees (ts : List Token) : GraphM Bool := return ts.contains (← peek)

/-- Add a node. -/
def add (node : Node) : GraphM Nat :=
  modifyGet fun s => (s.graph.nodes.size, { s with graph := ⟨s.graph.nodes.push node⟩ })

/-- Give a node its content. -/
def fill (id : Nat) (node : Node) : GraphM Unit :=
  modify fun s => { s with graph := ⟨s.graph.nodes.setIfInBounds id node⟩ }

/-- What is inside of a collection. -/
def inside {α : Type} (content : GraphM α) : GraphM α := do
  if depthLimit ≤ (← get).depth then throw .tooDeep
  modify fun s => { s with depth := s.depth + 1 }
  let a ← content
  modify fun s => { s with depth := s.depth - 1 }
  return a

/-- An empty plain scalar. -/
def empty : GraphM Nat := add ⟨implicitTag "", .scalar ""⟩

/-! ### Anchors and tags -/

/-- Give a node an anchor, which no other node has. -/
def name (anchor : Option String) (id : Nat) : GraphM Unit := do
  match anchor with
  | none => return
  | some anchor =>
    if ((← get).anchors.lookup anchor).isSome then malformed
    modify fun s => { s with anchors := (anchor, id) :: s.anchors }

/-- The node with an anchor. -/
def named (anchor : String) : GraphM Nat := do
  match (← get).anchors.lookup anchor with
  | some id => return id
  | none => malformed

/-- The anchor that may stand here. -/
def anchor? : GraphM (Option String) := do
  match ← peek with
  | .anchor name => advance; return some name
  | _ => return none

/-- The tag that may stand here: its handle and its suffix. -/
def tag? : GraphM (Option (Option String × String)) := do
  match ← peek with
  | .tag handle suffix => advance; return some (handle, suffix)
  | _ => return none

/-- The name of a tag. -/
def tagName : Option String × String → GraphM String
  | (none, suffix) => return suffix
  | (some handle, suffix) => do
    match (← get).handles.lookup handle with
    | some expansion => return expansion ++ suffix
    | none => malformed

/-- The anchor and the name of the tag that may stand here, in either order. -/
def properties : GraphM (Option String × Option String) := do
  match ← anchor? with
  | some anchor => return (some anchor, ← (← tag?).mapM tagName)
  | none =>
    match ← tag? with
    | some tag =>
      let anchor ← anchor?
      return (anchor, some (← tagName tag))
    | none => return (none, none)

/-- The tag that a name gives; without a name, or with the one that says nothing, the one that
the content gives. -/
def tagOr (name : Option String) (byContent : Tag) : Tag :=
  match name with
  | none | some "!" => byContent
  | some name => .ofName name

/-- The tag of a scalar. The name that says nothing makes a quoted scalar count as plain. -/
def scalarTag (name : Option String) (text : String) (isPlain : Bool) : Tag :=
  match name with
  | none => if isPlain then implicitTag text else .str
  | some "!" => implicitTag text
  | some name => .ofName name

/-! ### Nodes -/

mutual

/-- A node. `inBlock` says whether it may be a block collection, and `indentless` whether dashes
in the column of the key before it start one. -/
def node (fuel : Nat) (inBlock indentless : Bool) : GraphM Nat := do
  match fuel with
  | 0 => malformed
  | fuel + 1 =>
    match ← peek with
    | .alias name => advance; named name
    | _ =>
      let (anchor, tag) ← properties
      match ← peek with
      | .scalar text isPlain =>
        advance
        let id ← add ⟨scalarTag tag text isPlain, .scalar text⟩
        name anchor id
        return id
      | t =>
        let isSequence := t = .flowSequenceStart || (inBlock && t = .blockSequenceStart) ||
          (indentless && t = .blockEntry)
        let isMapping := t = .flowMappingStart || (inBlock && t = .blockMappingStart)
        if isSequence then
          let id ← add ⟨tagOr tag .seq, .sequence []⟩
          name anchor id
          if t != .blockEntry then advance
          let items ← inside <|
            if t = .flowSequenceStart then flowItems fuel true
            else if t = .blockSequenceStart then blockItems fuel
            else indentlessItems fuel
          fill id ⟨tagOr tag .seq, .sequence items⟩
          return id
        else if isMapping then
          let id ← add ⟨tagOr tag .map, .mapping []⟩
          name anchor id
          advance
          let entries ← inside <|
            if t = .flowMappingStart then flowEntries fuel true else blockEntries fuel
          fill id ⟨tagOr tag .map, .mapping entries⟩
          return id
        else if anchor.isSome || tag.isSome then
          let id ← add ⟨scalarTag tag "" true, .scalar ""⟩
          name anchor id
          return id
        else malformed

/-- A node, or an empty one if one of some tokens stands here instead. -/
def nodeUnless (fuel : Nat) (ends : List Token) (inBlock indentless : Bool) : GraphM Nat := do
  match fuel with
  | 0 => malformed
  | fuel + 1 => if ← sees ends then empty else node fuel inBlock indentless

/-- The items of a block sequence, and its end. -/
def blockItems (fuel : Nat) : GraphM (List Nat) := do
  match fuel with
  | 0 => malformed
  | fuel + 1 =>
    match ← peek with
    | .blockEntry =>
      advance
      let item ← nodeUnless fuel [.blockEntry, .blockEnd] true false
      return item :: (← blockItems fuel)
    | .blockEnd => advance; return []
    | _ => malformed

/-- The items of a sequence whose dashes are in the column of the key before it. -/
def indentlessItems (fuel : Nat) : GraphM (List Nat) := do
  match fuel with
  | 0 => malformed
  | fuel + 1 =>
    match ← peek with
    | .blockEntry =>
      advance
      let item ← nodeUnless fuel [.blockEntry, .key, .value, .blockEnd] true false
      return item :: (← indentlessItems fuel)
    | _ => return []

/-- The value of an entry, or an empty node if there is no colon here. -/
def valueUnless (fuel : Nat) (ends : List Token) (inBlock : Bool) : GraphM Nat := do
  match fuel with
  | 0 => malformed
  | fuel + 1 =>
    match ← peek with
    | .value => advance; nodeUnless fuel ends inBlock inBlock
    | _ => empty

/-- The entries of a block mapping, and its end. -/
def blockEntries (fuel : Nat) : GraphM (List (Nat × Nat)) := do
  match fuel with
  | 0 => malformed
  | fuel + 1 =>
    match ← peek with
    | .key =>
      advance
      let key ← nodeUnless fuel [.key, .value, .blockEnd] true true
      let value ← valueUnless fuel [.key, .value, .blockEnd] true
      return (key, value) :: (← blockEntries fuel)
    | .blockEnd => advance; return []
    | _ => malformed

/-- The items of a sequence between brackets, and its end. An item may be a single entry, which is
then a mapping. -/
def flowItems (fuel : Nat) (isFirst : Bool) : GraphM (List Nat) := do
  match fuel with
  | 0 => malformed
  | fuel + 1 =>
    if ← sees [.flowSequenceEnd] then advance; return []
    if !isFirst then
      if ← sees [.flowEntry] then advance else malformed
    match ← peek with
    | .flowSequenceEnd => advance; return []
    | .key =>
      advance
      let entry ← inside do
        let key ← nodeUnless fuel [.value, .flowEntry, .flowSequenceEnd] false false
        return (key, ← valueUnless fuel [.flowEntry, .flowSequenceEnd] false)
      let item ← add ⟨.map, .mapping [entry]⟩
      return item :: (← flowItems fuel false)
    | _ =>
      let item ← node fuel false false
      return item :: (← flowItems fuel false)

/-- The entries of a mapping between brackets, and its end. -/
def flowEntries (fuel : Nat) (isFirst : Bool) : GraphM (List (Nat × Nat)) := do
  match fuel with
  | 0 => malformed
  | fuel + 1 =>
    if ← sees [.flowMappingEnd] then advance; return []
    if !isFirst then
      if ← sees [.flowEntry] then advance else malformed
    match ← peek with
    | .flowMappingEnd => advance; return []
    | .key =>
      advance
      let key ← nodeUnless fuel [.value, .flowEntry, .flowMappingEnd] false false
      let value ← valueUnless fuel [.flowEntry, .flowMappingEnd] false
      return (key, value) :: (← flowEntries fuel false)
    | _ =>
      let key ← node fuel false false
      let value ← empty
      return (key, value) :: (← flowEntries fuel false)

end

/-! ### Documents -/

/-- Pass the markers at the end of a document. -/
def skipDocumentEnds (fuel : Nat) : GraphM Unit := do
  match fuel with
  | 0 => return
  | fuel + 1 => if ← sees [.documentEnd] then advance; skipDocumentEnds fuel

/-- Read the directives before a document. There is one version at most, which is of the first
kind, and one meaning for a handle. Gives the handles. -/
def directives (fuel versions : Nat) (handles : List (String × String)) :
    GraphM (List (String × String)) := do
  match fuel with
  | 0 => return handles
  | fuel + 1 =>
    match ← peek with
    | .versionDirective major =>
      advance
      if versions = 0 && major = 1 then directives fuel 1 handles else malformed
    | .tagDirective handle expansion =>
      advance
      if (handles.lookup handle).isSome then malformed
      else directives fuel versions ((handle, expansion) :: handles)
    | .otherDirective => advance; directives fuel versions handles
    | _ => return handles

/-- The only document from here on: its root, unless there is no document. What may come after it
is looked at as far as the start of another document. -/
def document (fuel : Nat) : GraphM (Option Nat) := do
  let root ←
    match ← peek with
    | .streamEnd => return none
    | .versionDirective _ | .tagDirective .. | .otherDirective | .documentStart =>
      let handles ← directives fuel 0 []
      modify fun s => { s with handles := handles ++ s.handles }
      if ← sees [.documentStart] then advance else malformed
      match ← peek with
      | .versionDirective _ | .tagDirective .. | .otherDirective | .documentStart | .documentEnd
      | .streamEnd => empty
      | _ => node fuel true false
    | _ => node fuel true false
  skipDocumentEnds fuel
  if ← sees [.streamEnd] then return some root
  let _ ← directives fuel 0 []
  malformed

end GraphM

/-- The **nodes of a text** and the number of the root, unless the text has no document. -/
def Graph.ofSource (source : Source) : Except Fault (Graph × Option Nat) := do
  let search ← TokenSearch.start source
  let (root, s) ← (GraphM.document (8 * source.text.length + 16)).run { search }
  return (s.graph, root)

end TreeLint.Yaml
