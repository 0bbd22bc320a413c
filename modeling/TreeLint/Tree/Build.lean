import TreeLint.Json.Order
import TreeLint.Number.Total
import TreeLint.Sorting
import TreeLint.Tree.Document
import TreeLint.Tree.Node

/-!
# From Documents to Trees

`Node.ofDocument` makes the syntax tree of a document. Nodes are made bottom up, so that a
node finds its children ready, and an object that stands in several places is made once
and shared (`Built`).

The order in which nodes are made shows in the answer: of several malformed nodes the first
one that is made is reported. An agenda of tasks fixes it (`runAgenda`). Opening a node
document puts its children and then its own closing on the agenda, with the **last child
uppermost**; closing it makes the node. So later children come before earlier ones, and a
node after all of its children.

At one node the faults are looked for in the order name, arguments, callee, member, order of
the children.
-/

namespace TreeLint

/-- Why a document has no tree. -/
inductive BuildFault where
  | malformed (fault : Malformed)
  /-- The children of some node have start offsets without a common order. -/
  | unordered (fault : Incomparable)
  deriving DecidableEq, Repr

/-- The text of the fault. -/
def BuildFault.message : BuildFault → String
  | .malformed fault => fault.message
  | .unordered fault => fault.message

/-! ### One node from its document and its made children -/

/-- The parts of a node, made, each under its key. -/
abbrev Parts := List (String × Part Node)

namespace Parts

/-- The node under a key, if the part is a single one. -/
def single? (parts : Parts) (key : String) : Option Node :=
  match lookup? key parts with
  | some (.one n) => some n
  | _ => none

/-- The nodes under a key. -/
def many (parts : Parts) (key : String) : List Node :=
  match lookup? key parts with
  | some part => part.toList
  | none => []

end Parts

/-- The name of an identifier node, and no name for any other node. -/
def Node.identifierName? (n : Node) : Option String := if n.isIdentifier then n.name else none

namespace NodeDocument

/-- The kind of the node that is described. -/
def kind (d : NodeDocument) : Kind := Kind.ofType d.type

/-- The name of the node: an identifier's own, a class's from its `id`, a class member's
from its `key`. -/
def nameWith (d : NodeDocument) (parts : Parts) : Except Malformed (Option String) :=
  match d.kind with
  | .identifier =>
    match d.getD "name" with
    | .str name => .ok (some name)
    | _ => .error .unnamedIdentifier
  | .classDeclaration => .ok ((parts.single? "id").bind Node.identifierName?)
  | .methodDefinition | .propertyDefinition => .ok ((parts.single? "key").bind Node.identifierName?)
  | _ => .ok none

/-- The members of a class, or the statements of any other node with a body. -/
def bodyWith (d : NodeDocument) (parts : Parts) : List Node :=
  match d.kind with
  | .classDeclaration =>
    match parts.single? "body" with
    | some classBody => classBody.body
    | none => []
  | _ => parts.many "body"

/-- The arguments. Those of a call or `new` expression may be left out, but are a list
otherwise. -/
def argumentsWith (d : NodeDocument) (parts : Parts) : Except Malformed (List Node) :=
  match d.kind.isInvocation, d.get? "arguments" with
  | true, some (.arr _) => .ok (parts.many "arguments")
  | true, some _ => .error (.argumentsNotAList d.type)
  | _, _ => .ok (parts.many "arguments")

/-- The callee, which a call or `new` expression must have. -/
def calleeWith (d : NodeDocument) (parts : Parts) : Except Malformed (Option Node) :=
  match d.kind.isInvocation, parts.single? "callee" with
  | true, none => .error (.noCallee d.kind)
  | _, callee => .ok callee

/-- The property of a member expression, which must have one, and an object too. -/
def memberWith (d : NodeDocument) (parts : Parts) : Except Malformed (Option Node) :=
  let member := parts.single? "property"
  if d.kind == .memberExpression && (member.isNone || (parts.single? "object").isNone) then
    .error .noMember
  else .ok member

/-- The modifiers: a flag is set only by the value `true` itself. -/
def modifiers (d : NodeDocument) : Modifiers where
  isAbstract := (d.getD "abstract").isTrue
  isStatic := (d.getD "static").isTrue
  isReadonly := (d.getD "readonly").isTrue
  accessibility := (d.getD "accessibility").str?
  isComputed := (d.getD "computed").isTrue

/-- The value of an offset: whole numbers and the truth values, which count as such. -/
def offset : Document → Json
  | .int n => .int n
  | .bool b => .bool b
  | _ => .null

/-- The place of the node: offsets from a `range` of two values, or else from `start` and
`end`; line and column from `loc`. -/
def span (d : NodeDocument) : Span :=
  let (start, stop) := match d.getD "range" with
    | .arr [start, stop] => (start.erase, stop.erase)
    | _ => (offset (d.getD "start"), offset (d.getD "end"))
  match (d.getD "loc").getD "start" with
  | .obj label members =>
    let place : Document := .obj label members
    ⟨start, stop, (place.getD "line").erase, (place.getD "column").erase⟩
  | _ => ⟨start, stop, .null, .null⟩

/-- Children in source order: by start offset when every child has one, and as they are
written otherwise. -/
def sourceOrder (children : List Node) : Except Incomparable (List Node) :=
  if children.all fun child => !child.span.start.isNull then
    sortBy? (fun a b => a.span.start.before b.span.start) children
  else .ok children

/-- **One node** from its document and its made parts. -/
def makeNode (d : NodeDocument) (parts : Parts) : Except BuildFault Node := do
  let name ← (d.nameWith parts).mapError .malformed
  let arguments ← (d.argumentsWith parts).mapError .malformed
  let callee ← (d.calleeWith parts).mapError .malformed
  let member ← (d.memberWith parts).mapError .malformed
  let children ← (sourceOrder (parts.flatMap fun part => part.2.toList)).mapError .unordered
  return {
    label := d.label
    kind := d.kind
    name
    methodKind := if d.kind == .methodDefinition then (d.getD "kind").erase else .null
    modifiers := d.modifiers
    span := d.span
    id := parts.single? "id"
    body := d.bodyWith parts
    params := parts.many "params"
    arguments
    callee
    receiver := parts.single? "object"
    member
    value := (parts.single? "value").or (parts.single? "initializer")
    children := .sequence (children.map .node)
  }

end NodeDocument

/-! ### The agenda -/

/-- The nodes made so far, by the labels of their objects. -/
abbrev Built := List (Nat × Node)

namespace Built

/-- The node made of the object with a label. -/
def get? (built : Built) (label : Nat) : Option Node :=
  match built with
  | [] => none
  | (l, n) :: rest => if l = label then some n else get? rest label

/-- The made parts of a node document. -/
def partsOf (built : Built) (d : NodeDocument) : Parts :=
  d.parts.filterMap fun (key, part) =>
    (part.filterMap fun child => built.get? child.label).map fun part => (key, part)

end Built

/-- A task of the agenda. -/
inductive Task where
  /-- Look at the children of an object. -/
  | openUp (d : NodeDocument)
  /-- Make the node of an object whose children are made. -/
  | close (d : NodeDocument)

/-- What a task can cost: it bounds the number of tasks that it brings about. -/
def Task.weight : Task → Nat
  | .openUp d => 2 * d.weight
  | .close _ => 1

/-- The cost of an agenda. -/
def agendaWeight (agenda : List Task) : Nat := total (agenda.map Task.weight)

/-- Opening an object up leaves **less to do**. -/
theorem agendaWeight_openUp_lt (d : NodeDocument) (rest : List Task) :
    agendaWeight (d.children.reverse.map .openUp ++ .close d :: rest) <
      agendaWeight (.openUp d :: rest) := by
  have key : ∀ ds : List NodeDocument,
      total (List.map (Task.weight ∘ Task.openUp) ds) = 2 * total (ds.map NodeDocument.weight) := by
    intro ds
    induction ds with
    | nil => rfl
    | cons d ds ih =>
      simp only [List.map_cons, total_cons, ih, Function.comp, Task.weight]
      omega
  have := d.total_weight_children_lt
  simp only [agendaWeight, List.map_append, List.map_map, total_append, List.map_cons,
    total_cons, Task.weight, List.map_reverse, total_reverse, key]
  omega

/-- Work off an agenda. An object that is made already is passed over. -/
def runAgenda (agenda : List Task) (built : Built) : Except BuildFault Built :=
  match agenda with
  | [] => .ok built
  | .openUp d :: rest =>
    if (built.get? d.label).isSome then runAgenda rest built
    else runAgenda (d.children.reverse.map .openUp ++ .close d :: rest) built
  | .close d :: rest =>
    if (built.get? d.label).isSome then runAgenda rest built
    else
      match d.makeNode (built.partsOf d) with
      | .error fault => .error fault
      | .ok n => runAgenda rest ((d.label, n) :: built)
termination_by agendaWeight agenda
decreasing_by
  · simp only [agendaWeight, List.map_cons, total_cons, Task.weight, NodeDocument.weight]; omega
  · exact agendaWeight_openUp_lt d rest
  · simp only [agendaWeight, List.map_cons, total_cons, Task.weight]; omega
  · simp only [agendaWeight, List.map_cons, total_cons, Task.weight]; omega

/-- The **tree of a document**. -/
def Node.ofDocument (document : Document) : Except BuildFault Node :=
  match document.node? with
  | none => .error (.malformed .notANode)
  | some root =>
    match runAgenda [.openUp root] [] with
    | .error fault => .error fault
    | .ok built =>
      match built.get? root.label with
      | some n => .ok n
      | none => .error (.malformed .notANode)

end TreeLint
