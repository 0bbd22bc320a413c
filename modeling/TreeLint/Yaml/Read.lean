import TreeLint.Settings.Data
import TreeLint.Yaml.Binary
import TreeLint.Yaml.Date
import TreeLint.Yaml.Graph
import TreeLint.Yaml.Number

/-!
# Values of YAML Texts

`read` gives the value of a text. A document that contains itself has an endless value, of which
only so much is unfolded as a configuration can have (`valueDepth`); but **every node is looked
at**, level by level from the root, and the first one that stands for nothing is the fault of the
text.

A node is looked at once, however often it occurs. Looking into a mapping changes it: it takes the
entries of other mappings over (`ReadM.takeOver`), and the keys of its default values become
texts. A node that is looked at later meets the changed ones.

## What is assumed

There are many readers of YAML. The modules on it fix one, for version 1.1 of the language with
its merge keys and default values, and with every fault that it finds. `readBytes` is that reader
as a function of bytes, and **nothing else of it is used**: a run takes a reader as a parameter
(`Sources.yaml`), and what is proved of settings from files holds for any.
-/

namespace TreeLint.Yaml

/-! ### Scalars -/

/-- The truth value that a word stands for, in any case. -/
def truthOf (text : String) : Except ScalarFault Bool :=
  let word := String.ofList (Text.lower text.toList)
  if trueWords.contains word then .ok true
  else if falseWords.contains word then .ok false
  else .error (.notATruthValue word)

/-- The date that a text stands for. -/
def dateOf (text : String) : Except ScalarFault Data := do
  match timestamp? (dropLineEnd text.toList) with
  | none => .error .notATimestamp
  | some t =>
    let moment ← (Moment.ofTimestamp t).mapError .noSuchDate
    return if moment.time.isSome then .dateTime moment.text moment.instant? else .date moment.text

/-- The value of a text with a tag that only scalars have; nothing for other tags. -/
def scalarValue? (tag : Tag) (text : String) : Option (Except Fault Data) :=
  match tag with
  | .str => some (.ok (.str text))
  | .null => some (.ok .null)
  | .bool => some (((truthOf text).mapError .scalar).map .bool)
  | .int => some (((integerOf text).mapError .scalar).map .int)
  | .float => some (((decimalOf text).mapError .scalar).map .float)
  | .timestamp => some ((dateOf text).mapError .scalar)
  | .binary =>
    match decodeBase64 text.toList with
    | some bytes => some (.ok (.bytes bytes))
    | none => some (.error .malformed)
  | _ => none

/-- Whether the values of a tag are scalars. -/
def Tag.isScalar (tag : Tag) : Bool := (scalarValue? tag "").isSome

/-- Whether the values of a tag are collections. -/
def Tag.isCollection (tag : Tag) : Bool := [.seq, .map, .set, .omap, .pairs].contains tag

/-! ### Keys -/

/-- The value of a scalar as a key of a mapping. What is no number equals nothing, so of such keys
it counts where they come from: the one that has a name is always the same. -/
structure Key where
  value : Data
  origin : Option Nat

/-- Whether two keys of a mapping are one: equal numbers are, whatever their type, and equal
instants, however they are written. -/
def Key.isSame (k l : Key) : Bool :=
  match k.value, l.value with
  | .null, .null => true
  | .str a, .str b => a == b
  | .bytes a, .bytes b => a == b
  | .date a, .date b => a == b
  | .dateTime _ (some a), .dateTime _ (some b) => a == b
  | .dateTime a none, .dateTime b none => a == b
  | a, b =>
    match magnitude? a, magnitude? b with
    | some .nan, some .nan => k.origin == l.origin
    | some x, some y => x.eq y
    | _, _ => false
where
  /-- How great the number is that a value counts as. -/
  magnitude? : Data → Option Magnitude
    | .bool b => some (.ofInt (if b then 1 else 0))
    | .int n => some (.ofInt n)
    | .float x => some x.magnitude
    | _ => none

/-- The entries with one more: the last value of a key at its first place. -/
def setEntry (key : Key) (value : Data) : List (Key × Data) → List (Key × Data)
  | [] => [(key, value)]
  | (k, v) :: rest =>
    if k.isSame key then (k, value) :: rest else (k, v) :: setEntry key value rest

/-- Entries of which those with one key are one. -/
def mergeEntries (entries : List (Key × Data)) : List (Data × Data) :=
  (entries.foldl (fun acc (key, value) => setEntry key value acc) []).map fun (key, value) =>
    (key.value, value)

/-! ### Looking at every node -/

/-- What a node stands for, with its parts by their numbers. -/
inductive Meaning where
  | scalar (key : Key)
  /-- A collection that was not looked into yet. -/
  | collection
  | list (items : List Nat)
  | mapping (entries : List (Nat × Nat))
  | set (keys : List Nat)
  | pairs (items : List (Nat × Nat))
  deriving Inhabited

/-- The nodes of a text, and what those stand for that were looked at. -/
structure ReadState where
  graph : Graph
  meanings : Array (Option Meaning)
  /-- The collections to look into, the next one first. -/
  queue : List Nat := []

/-- A step of looking at nodes. -/
abbrev ReadM := StateT ReadState (Except Fault)

namespace ReadM

/-- The text has no value. -/
def malformed {α : Type} : ReadM α := throw .malformed

/-- The node with a number. -/
def node (id : Nat) : ReadM Node := do
  match (← get).graph.node? id with
  | some node => return node
  | none => malformed

/-- Put a node in the place of another. -/
def setNode (id : Nat) (node : Node) : ReadM Unit :=
  modify fun s => { s with graph := ⟨s.graph.nodes.setIfInBounds id node⟩ }

/-- What a node stands for, if it was looked at. -/
def meaning? (id : Nat) : ReadM (Option Meaning) := return ((← get).meanings[id]?).join

/-- Let a node stand for something. -/
def setMeaning (id : Nat) (meaning : Meaning) : ReadM Unit :=
  modify fun s => { s with meanings := s.meanings.setIfInBounds id (some meaning) }

/-- The entries of a mapping. -/
def entries (id : Nat) : ReadM (List (Nat × Nat)) := do
  match (← node id).content with
  | .mapping entries => return entries
  | _ => malformed

/-- Give a mapping other entries. -/
def setEntries (id : Nat) (entries : List (Nat × Nat)) : ReadM Unit := do
  setNode id { ← node id with content := .mapping entries }

/-- Whether the key of an entry has a tag. -/
def hasTag (tag : Tag) (entry : Nat × Nat) : ReadM Bool := return (← node entry.1).tag = tag

/-- The first entry whose key has a tag, with those before and after it. -/
def splitAt? (tag : Tag) : List (Nat × Nat) →
    ReadM (Option (List (Nat × Nat) × Nat × List (Nat × Nat)))
  | [] => return none
  | entry :: rest => do
    if ← hasTag tag entry then return some ([], entry.2, rest)
    return (← splitAt? tag rest).map fun (before, value, after) => (entry :: before, value, after)

/-! ### Scalars -/

/-- The text of a node that has to be a scalar. A mapping with a default value counts as it, unless
it is its own. -/
def scalarText (fuel : Nat) (content : Content) : ReadM String := do
  match fuel, content with
  | _, .scalar text => return text
  | _, .sequence _ => malformed
  | 0, .mapping _ => throw .tooDeep
  | fuel + 1, .mapping entries =>
    match ← splitAt? .value entries with
    | some (_, value, _) => scalarText fuel (← node value).content
    | none => malformed

/-- The key that a node is whose tag is one of scalars. -/
def scalarKey (id : Nat) : ReadM Key := do
  let node ← node id
  let text ← scalarText ((← get).graph.nodes.size + 1) node.content
  match node with
  | ⟨.timestamp, .mapping _⟩ => throw (.scalar .timestampOfMapping)
  | _ =>
    let value ← (scalarValue? node.tag text).getD (.error .malformed)
    return ⟨value, if namesNan text then none else some id⟩

/-- Look at a node. If it is a collection, it is looked into later. -/
def visit (id : Nat) : ReadM Unit := do
  if (← meaning? id).isSome then return
  let tag := (← node id).tag
  if tag.isScalar then setMeaning id (.scalar (← scalarKey id))
  else if tag.isCollection then
    setMeaning id .collection
    modify fun s => { s with queue := s.queue ++ [id] }
  else malformed

/-- Look at a key, which cannot be a collection. -/
def visitKey (id : Nat) : ReadM Unit := do
  visit id
  match ← meaning? id with
  | some (.scalar _) => return
  | _ => malformed

/-! ### Collections -/

/-- **Take the entries over** that a mapping takes from others, and those take from others before
that. They come before its own, so that its own win. A request for entries is gone before it is
fulfilled, so a mapping can take entries from itself, and `fuel` need only be more than the
requests. -/
def takeOver (fuel : Nat) (id : Nat) : ReadM Unit := do
  match fuel with
  | 0 => return
  | fuel + 1 =>
    match ← splitAt? .merge (← entries id) with
    | none =>
      for entry in ← entries id do
        if ← hasTag .value entry then setNode entry.1 { ← node entry.1 with tag := .str }
    | some (before, source, after) =>
      setEntries id (before ++ after)
      let takenFrom (source : Nat) : ReadM (List (Nat × Nat)) := do
        let _ ← entries source
        takeOver fuel source
        entries source
      let taken ←
        match (← node source).content with
        | .mapping _ => takenFrom source
        | .sequence sources => do pure (← sources.mapM takenFrom).reverse.flatten
        | .scalar _ => malformed
      takeOver fuel id
      setEntries id (taken ++ (← entries id))

/-- How many entries there are. -/
def entryCount : ReadM Nat := do
  let count (node : Node) : Nat :=
    match node.content with
    | .mapping entries => entries.length
    | _ => 0
  return (← get).graph.nodes.foldl (fun n node => n + count node) 0

/-- Look into a mapping: its keys and values. -/
def visitEntries (id : Nat) : ReadM (List (Nat × Nat)) := do
  let _ ← entries id
  takeOver ((← entryCount) + 1) id
  let found ← entries id
  for (key, value) in found do
    visitKey key
    visit value
  return found

/-- Look at an item of a list of pairs, which is a mapping with one entry. -/
def visitPair (id : Nat) : ReadM (Nat × Nat) := do
  match ← entries id with
  | [(key, value)] =>
    visit key
    visit value
    return (key, value)
  | _ => malformed

/-- Look into a collection. -/
def visitInside (id : Nat) : ReadM Unit := do
  match ← node id with
  | ⟨.seq, .sequence items⟩ =>
    items.forM visit
    setMeaning id (.list items)
  | ⟨.map, _⟩ => setMeaning id (.mapping (← visitEntries id))
  | ⟨.set, _⟩ => setMeaning id (.set ((← visitEntries id).map Prod.fst))
  | ⟨.omap, .sequence items⟩ | ⟨.pairs, .sequence items⟩ =>
    setMeaning id (.pairs (← items.mapM visitPair))
  | _ => malformed

/-- Look into all collections that were met, and then into those in them. Each one is met once. -/
def visitAll (fuel : Nat) : ReadM Unit := do
  match fuel, (← get).queue with
  | 0, _ | _, [] => return
  | fuel + 1, id :: queue =>
    modify fun s => { s with queue }
    visitInside id
    visitAll fuel

/-! ### Unfolding -/

/-- The key that a node is. -/
def key (id : Nat) : ReadM Key := do
  match ← meaning? id with
  | some (.scalar key) => return key
  | _ => malformed

/-- The value of a node down to a depth; deeper collections are empty. -/
def unfold (depth : Nat) (id : Nat) : ReadM Data := do
  match depth, ← meaning? id with
  | _, none | _, some .collection => malformed
  | _, some (.scalar key) => return key.value
  | 0, some (.mapping _) => return .mapping []
  | 0, some (.set _) => return .set []
  | 0, some (.list _) | 0, some (.pairs _) => return .list []
  | depth + 1, some (.list items) => return .list (← items.mapM (unfold depth))
  | depth + 1, some (.mapping entries) =>
    return .mapping (mergeEntries (← entries.mapM fun (k, value) => do
      return (← key k, ← unfold depth value)))
  | _ + 1, some (.set keys) =>
    return .set ((mergeEntries (← keys.mapM fun k => do
      return (← key k, Data.null))).map Prod.fst)
  | depth + 1, some (.pairs items) =>
    return .list (← items.mapM fun (k, value) => do
      return .tuple [← unfold depth k, ← unfold depth value])

end ReadM

/-- How deep the value of a text is unfolded: a configuration has no parts further down. -/
def valueDepth : Nat := 6

/-- The value of a graph from a root on. -/
def ReadM.value (root : Nat) : ReadM Data := do
  visit root
  visitAll ((← get).graph.nodes.size + 1)
  unfold valueDepth root

/-- The **value of a text**, which is nothing if the text has no document. -/
def read (source : Source) : Except Fault Data := do
  let (graph, root) ← Graph.ofSource source
  match root with
  | none => return .null
  | some root =>
    (ReadM.value root).run' { graph, meanings := .replicate graph.nodes.size none }

/-- The **value of the bytes of a file**. -/
def readBytes (content : List UInt8) : Except Fault Data := read (.ofBytes content)

end TreeLint.Yaml
