import TreeLint.Proofs.Build.Labels
import TreeLint.Proofs.Build.Recursion

/-!
# Which Documents Have a Tree

A document has a tree if it describes a node and if every object that describes a node, at whatever
depth, has what nodes of its type must have (`NodeDocument.isAcceptable`). Nothing else is asked: an
object of a type that no rule knows is accepted, and so is whatever stands under a key that is not
looked at.

Where some object lacks something, the document is **malformed**, and the fault says so. There is
one other way to fail, a list of children whose start offsets have no order. It is closed here by
the condition that the offsets in a `range` are whole numbers or missing; those that are written
otherwise always are.

## Main results

* `supplied_iff`: a node can be made of an object and its made children if and only if the object is
  acceptable.
* `exists_sourceOrder`: whole offsets can be put in order.
* `exists_ofDocument_iff`: the documents that have a tree.
-/

namespace TreeLint

namespace NodeDocument

/-! ### Acceptable objects -/

/-- Whether there are no `arguments`, or a list of them. -/
def hasArgumentList (d : NodeDocument) : Bool :=
  match d.get? "arguments" with
  | none | some (.arr _) => true
  | some _ => false

/-- Whether an object **has what its type asks for**: a name, a callee and a list of arguments, or
an object and a property. -/
def isAcceptable (d : NodeDocument) : Bool :=
  match d.type with
  | "Identifier" => (d.getD "name").str?.isSome
  | "CallExpression" | "NewExpression" => (d.nodeAt? "callee").isSome && d.hasArgumentList
  | "MemberExpression" => (d.nodeAt? "object").isSome && (d.nodeAt? "property").isSome
  | _ => true

/-- Whether a `range` of two offsets, if there is one, holds whole numbers or nothing. -/
def hasWholeRange (d : NodeDocument) : Bool :=
  match d.getD "range" with
  | .arr [start, stop] => start.isWhole && stop.isWhole
  | _ => true

/-- A document has a kind of its own exactly if its type is **the name of the kind**. -/
theorem kind_eq_iff {d : NodeDocument} {k : Kind} (hk : k ≠ .other)
    (hk' : k ≠ .propertyDefinition) : d.kind = k ↔ d.type = k.name := by
  rw [kind, Kind.ofType_eq_iff hk, or_iff_left fun h => hk' h.1]

/-- What an object needs to be acceptable depends on **its kind**: a name, a callee and a list of
arguments, or both sides of a member expression. -/
theorem isAcceptable_iff {d : NodeDocument} :
    d.isAcceptable ↔
      (d.kind = .identifier → (d.getD "name").str?.isSome) ∧
      (d.kind.isInvocation → (d.nodeAt? "callee").isSome ∧ d.hasArgumentList) ∧
      (d.kind = .memberExpression →
        (d.nodeAt? "object").isSome ∧ (d.nodeAt? "property").isSome) := by
  have hidentifier : d.kind = .identifier ↔ d.type = "Identifier" :=
    kind_eq_iff (by decide) (by decide)
  have hmember : d.kind = .memberExpression ↔ d.type = "MemberExpression" :=
    kind_eq_iff (by decide) (by decide)
  have hcall : d.kind = .callExpression ↔ d.type = "CallExpression" :=
    kind_eq_iff (by decide) (by decide)
  have hnew : d.kind = .newExpression ↔ d.type = "NewExpression" :=
    kind_eq_iff (by decide) (by decide)
  have hinvocation :
      d.kind.isInvocation ↔ d.type = "CallExpression" ∨ d.type = "NewExpression" := by
    rw [← hcall, ← hnew]
    cases d.kind <;> simp [Kind.isInvocation]
  rw [hinvocation, hidentifier, hmember, isAcceptable]
  split <;> simp_all

/-! ### What a node needs -/

/-- An object and its parts **supply** what the node needs. -/
structure Supplied (d : NodeDocument) (parts : Parts) : Prop where
  name : ∃ name, d.nameWith parts = .ok name
  arguments : ∃ arguments, d.argumentsWith parts = .ok arguments
  callee : ∃ callee, d.calleeWith parts = .ok callee
  member : ∃ member, d.memberWith parts = .ok member

section Supplied

variable {d : NodeDocument} {parts : Parts}

/-- A node that is supplied with all it needs can be made if its children can be put in order. -/
theorem Supplied.exists_makeNode (h : d.Supplied parts)
    (horder : ∃ children, sourceOrder parts.nodes = .ok children) :
    ∃ n, d.makeNode parts = .ok n := by
  obtain ⟨name, hname⟩ := h.name
  obtain ⟨arguments, harguments⟩ := h.arguments
  obtain ⟨callee, hcallee⟩ := h.callee
  obtain ⟨member, hmember⟩ := h.member
  obtain ⟨children, hchildren⟩ := horder
  rw [Parts.nodes] at hchildren
  simp only [makeNode, hname, harguments, hcallee, hmember, hchildren, mapError_ok]
  exact ⟨_, rfl⟩

/-- A node that lacks what it needs is **malformed**. -/
theorem exists_fault_of_not_supplied (h : ¬ d.Supplied parts) :
    ∃ fault, d.makeNode parts = .error (.malformed fault) := by
  cases hname : d.nameWith parts with
  | error fault => exact ⟨fault, by simp only [makeNode, hname, mapError_error]; rfl⟩
  | ok name =>
    cases harguments : d.argumentsWith parts with
    | error fault =>
        exact ⟨fault, by simp only [makeNode, hname, harguments, mapError_ok, mapError_error]; rfl⟩
    | ok arguments =>
      cases hcallee : d.calleeWith parts with
      | error fault =>
          exact ⟨fault, by
            simp only [makeNode, hname, harguments, hcallee, mapError_ok, mapError_error]; rfl⟩
      | ok callee =>
        cases hmember : d.memberWith parts with
        | error fault =>
            exact ⟨fault, by
              simp only [makeNode, hname, harguments, hcallee, hmember, mapError_ok, mapError_error]
              rfl⟩
        | ok member =>
            exact absurd ⟨⟨name, hname⟩, ⟨arguments, harguments⟩, ⟨callee, hcallee⟩,
              ⟨member, hmember⟩⟩ h

/-- A name is found unless an identifier **lacks it**. -/
theorem exists_nameWith_iff :
    (∃ name, d.nameWith parts = .ok name) ↔
      (d.kind = .identifier → (d.getD "name").str?.isSome) := by
  cases hkind : d.kind with
  | identifier =>
      cases hname : d.getD "name" <;> simp [nameWith, hkind, hname, Value.str?]
  | _ => simp [nameWith, hkind]

/-- Arguments are found unless a call has something else than **a list** for them. -/
theorem exists_argumentsWith_iff :
    (∃ arguments, d.argumentsWith parts = .ok arguments) ↔
      (d.kind.isInvocation → d.hasArgumentList) := by
  rw [argumentsWith, hasArgumentList]
  cases d.kind.isInvocation with
  | false => simp
  | true =>
      cases d.get? "arguments" with
      | none => simp
      | some v => cases v <;> simp

/-- A callee is found unless a call **lacks it**. -/
theorem exists_calleeWith_iff :
    (∃ callee, d.calleeWith parts = .ok callee) ↔
      (d.kind.isInvocation → (parts.single? "callee").isSome) := by
  rw [calleeWith]
  cases d.kind.isInvocation <;> cases parts.single? "callee" <;> simp

/-- A member is found unless a member expression **lacks a side**. -/
theorem exists_memberWith_iff :
    (∃ member, d.memberWith parts = .ok member) ↔
      (d.kind = .memberExpression →
        (parts.single? "object").isSome ∧ (parts.single? "property").isSome) := by
  simp only [memberWith]
  cases parts.single? "object" <;> cases parts.single? "property" <;>
    by_cases hkind : d.kind = .memberExpression <;> simp [hkind]

/-- Where the children are made, a node is supplied with what it needs **if and only if** its object
is acceptable. -/
theorem supplied_iff {built : Built} (hkeys : (d.members.map Prod.fst).Nodup)
    (hchildren : ∀ c ∈ d.children, (built.get? c.label).isSome) :
    d.Supplied (built.partsOf d) ↔ d.isAcceptable := by
  have hsingle : ∀ key, isSkipped key = false →
      (((built.partsOf d).single? key).isSome ↔ (d.nodeAt? key).isSome) := by
    intro key hkey
    rw [single?_partsOf hkeys hkey]
    cases hnode : d.nodeAt? key with
    | none => rfl
    | some c => simp [hchildren c (mem_children_of_nodeAt? hkey hnode)]
  rw [isAcceptable_iff, ← hsingle "callee" rfl, ← hsingle "object" rfl, ← hsingle "property" rfl]
  constructor
  · intro h
    exact ⟨exists_nameWith_iff.mp h.name,
      fun hkind =>
        ⟨exists_calleeWith_iff.mp h.callee hkind, exists_argumentsWith_iff.mp h.arguments hkind⟩,
      exists_memberWith_iff.mp h.member⟩
  · rintro ⟨hname, hinvocation, hmember⟩
    exact ⟨exists_nameWith_iff.mpr hname,
      exists_argumentsWith_iff.mpr fun hkind => (hinvocation hkind).2,
      exists_calleeWith_iff.mpr fun hkind => (hinvocation hkind).1,
      exists_memberWith_iff.mpr hmember⟩

end Supplied

/-! ### The order of children -/

/-- The start of a node is that of a `range` of two offsets or, without one, its own. -/
theorem span_start (d : NodeDocument) :
    (∃ start stop, d.getD "range" = .arr [start, stop] ∧ d.span.start = start.erase) ∨
      d.span.start = offset (d.getD "start") := by
  by_cases hrange : ∃ start stop, d.getD "range" = .arr [start, stop]
  · obtain ⟨start, stop, hrange⟩ := hrange
    refine .inl ⟨start, stop, hrange, ?_⟩
    simp only [span, hrange]
    split <;> rfl
  · right
    rw [span]
    split
    next start stop hoffsets =>
    split at hoffsets
    · next start stop h => exact absurd ⟨start, stop, h⟩ hrange
    · obtain ⟨rfl, rfl⟩ := Prod.mk.inj hoffsets
      split <;> rfl

/-- Where a `range` is whole, a start that is not missing **counts as a number**. -/
theorem exists_magnitude?_start {d : NodeDocument} (h : d.hasWholeRange)
    (hnull : d.span.start.isNull = false) : ∃ x, d.span.start.magnitude? = some x := by
  rcases d.span_start with ⟨start, stop, hrange, hstart⟩ | hstart
  · rw [hasWholeRange, hrange] at h
    rw [hstart] at hnull ⊢
    rcases Value.isWhole_iff.mp (Bool.and_eq_true_iff.mp h).1 with rfl | ⟨n, rfl⟩
    · cases hnull
    · exact ⟨_, rfl⟩
  · rw [hstart] at hnull ⊢
    cases hoffset : d.getD "start" with
    | int n => exact ⟨_, rfl⟩
    | bool b => exact ⟨_, rfl⟩
    | _ =>
        rw [hoffset] at hnull
        cases hnull

/-- Values that count as numbers **can be compared**. -/
theorem exists_before_of_magnitude? {v w : Json} (hv : ∃ x, v.magnitude? = some x)
    (hw : ∃ y, w.magnitude? = some y) : ∃ comes, v.before w = .ok comes := by
  obtain ⟨x, hv⟩ := hv
  obtain ⟨y, hw⟩ := hw
  cases v <;> simp only [Value.magnitude?, reduceCtorEq] at hv <;>
    cases w <;> simp only [Value.magnitude?, reduceCtorEq] at hw <;> exact ⟨_, rfl⟩

/-- Children whose starts are numbers or missing **can be put in order**. -/
theorem exists_sourceOrder {children : List Node}
    (h : ∀ n ∈ children, n.span.start.isNull = false → ∃ x, n.span.start.magnitude? = some x) :
    ∃ ordered, sourceOrder children = .ok ordered := by
  rw [sourceOrder]
  split
  · next hall =>
    have hnumber : ∀ n ∈ children, ∃ x, n.span.start.magnitude? = some x := by
      intro n hn
      exact h n hn (by simpa using List.all_eq_true.mp hall n hn)
    exact exists_sortBy?_eq_ok fun a ha b hb =>
      exists_before_of_magnitude? (hnumber a ha) (hnumber b hb)
  · exact ⟨children, rfl⟩

end NodeDocument

/-! ### Documents with a tree -/

section Language

variable {document : Document} {root : NodeDocument}

/-- If the recursion succeeds, the node of the root is the tree. -/
theorem exists_ofDocument_of_build_ok (h : root.Coherent) (hroot : document.node? = some root)
    {built : Built} (hbuild : root.build [] = .ok built) :
    ∃ n, built.get? root.label = some n ∧ Node.ofDocument document = .ok n := by
  obtain ⟨n, hn, -⟩ := exists_node_of_build_ok h hbuild (.refl root)
  exact ⟨n, hn, by simp only [Node.ofDocument, hroot, runAgenda_root h, hbuild, hn]⟩

/-- A document has the fault with which its **root** cannot be built. -/
theorem ofDocument_of_build_error (h : root.Coherent) (hroot : document.node? = some root)
    {fault : BuildFault} (hbuild : root.build [] = .error fault) :
    Node.ofDocument document = .error fault := by
  simp only [Node.ofDocument, hroot, runAgenda_root h, hbuild]

/-- At an object whose children are made, the node **can be made or is malformed**, as the object is
acceptable or not. -/
theorem makeNode_of_progress (hwf : root.WellFormed) {d : NodeDocument} (hd : root.Reaches d)
    (hstart : ∀ c ∈ d.children, c.span.start.isNull = false →
      ∃ x, c.span.start.magnitude? = some x)
    {built : Built} (hchildren : ∀ c ∈ d.children, (built.get? c.label).isSome)
    (hmade : ∀ d n, root.Reaches d → built.get? d.label = some n →
      d.makeNode (built.partsOf d) = .ok n) :
    (d.isAcceptable → ∃ n, d.makeNode (built.partsOf d) = .ok n) ∧
      (¬ d.isAcceptable → ∃ fault, d.makeNode (built.partsOf d) = .error (.malformed fault)) := by
  rw [← NodeDocument.supplied_iff (hwf.keys d hd) hchildren]
  refine ⟨fun hsupplied => hsupplied.exists_makeNode ?_, NodeDocument.exists_fault_of_not_supplied⟩
  refine NodeDocument.exists_sourceOrder fun n hn hnull => ?_
  rw [NodeDocument.nodes_partsOf] at hn
  obtain ⟨c, hc, hget⟩ := List.mem_filterMap.mp hn
  rw [(NodeDocument.made_of_makeNode (hmade c n (hd.child hc) hget)).span] at hnull ⊢
  exact hstart c hc hnull

/-- If the recursion succeeds, every object is acceptable. -/
theorem isAcceptable_of_build_ok (hwf : root.WellFormed)
    (hrange : ∀ d, root.Reaches d → d.hasWholeRange) {built : Built}
    (hbuild : root.build [] = .ok built) {d : NodeDocument} (hd : root.Reaches d) :
    d.isAcceptable := by
  have hmade := fun d => exists_node_of_build_ok (d := d) hwf.coherent hbuild
  have hchildren : ∀ c ∈ d.children, (built.get? c.label).isSome := by
    intro c hc
    obtain ⟨k, hk, -⟩ := hmade c (hd.child hc)
    rw [hk, Option.isSome_some]
  have hnodes : ∀ d n, root.Reaches d → built.get? d.label = some n →
      d.makeNode (built.partsOf d) = .ok n := by
    intro d n hd hget
    obtain ⟨k, hk, hmake⟩ := hmade d hd
    rwa [Option.some.inj (hget.symm.trans hk)]
  by_contra hnot
  obtain ⟨m, -, hm⟩ := hmade d hd
  obtain ⟨fault, hfault⟩ := (makeNode_of_progress hwf hd
    (fun c hc => NodeDocument.exists_magnitude?_start (hrange c (hd.child hc))) hchildren
    hnodes).2 hnot
  cases hm.symm.trans hfault

/-- If the recursion fails where starts of children can be compared, some object **is not
acceptable**, and the fault says so. -/
theorem exists_not_acceptable_of_starts (hwf : root.WellFormed)
    (hstart : ∀ d, root.Reaches d → ∀ c ∈ d.children, c.span.start.isNull = false →
      ∃ x, c.span.start.magnitude? = some x) {fault : BuildFault}
    (hbuild : root.build [] = .error fault) :
    (∃ d, root.Reaches d ∧ ¬ d.isAcceptable) ∧ ∃ malformed, fault = .malformed malformed := by
  obtain ⟨before, d, after, rest, built, -, hturns, hfault⟩ :=
    turns_of_build_error hwf.coherent hbuild
  have hprogress := progress_of_turns hwf.coherent hturns
  have hd : root.Reaches d := hprogress.reachable _ List.mem_cons_self
  obtain ⟨hok, hmalformed⟩ := makeNode_of_progress hwf hd (hstart d hd)
    hprogress.isSome_get?_children hprogress.node
  have hnot : ¬ d.isAcceptable := by
    intro hacceptable
    obtain ⟨n, hn⟩ := hok hacceptable
    cases hn.symm.trans hfault
  obtain ⟨malformed, hmalformed⟩ := hmalformed hnot
  exact ⟨⟨d, hd, hnot⟩, malformed, Except.error.inj (hfault.symm.trans hmalformed)⟩

/-- If the recursion fails where ranges are whole, some object is not acceptable. -/
theorem exists_not_acceptable_of_build_error (hwf : root.WellFormed)
    (hrange : ∀ d, root.Reaches d → d.hasWholeRange) {fault : BuildFault}
    (hbuild : root.build [] = .error fault) :
    (∃ d, root.Reaches d ∧ ¬ d.isAcceptable) ∧ ∃ malformed, fault = .malformed malformed :=
  exists_not_acceptable_of_starts hwf
    (fun _ hd c hc => NodeDocument.exists_magnitude?_start (hrange c (hd.child hc))) hbuild

/-- **Which documents have a tree.** Let a document be well-formed, and let every `range` of two
offsets hold whole numbers or nothing. It has a tree if and only if it describes a node, and every
object that it holds at any depth is acceptable. Otherwise it is malformed. -/
theorem exists_ofDocument_iff (hwf : ∀ root, document.node? = some root → root.WellFormed)
    (hrange : ∀ root d, document.node? = some root →
      Relation.ReflTransGen NodeDocument.Holds root d → d.hasWholeRange) :
    ((∃ n, Node.ofDocument document = .ok n) ↔
      ∃ root, document.node? = some root ∧
        ∀ d, Relation.ReflTransGen NodeDocument.Holds root d → d.isAcceptable) ∧
    ((∃ n, Node.ofDocument document = .ok n) ∨
      ∃ fault, Node.ofDocument document = .error (.malformed fault)) := by
  cases hroot : document.node? with
  | none =>
      have hfault : Node.ofDocument document = .error (.malformed .notANode) := by
        rw [Node.ofDocument, hroot]
      rw [hfault]
      exact ⟨⟨by rintro ⟨_, ⟨⟩⟩, by rintro ⟨_, ⟨⟩, -⟩⟩, .inr ⟨_, rfl⟩⟩
  | some root =>
      have hwf := hwf root hroot
      have hrange : ∀ d, root.Reaches d → d.hasWholeRange :=
        fun d hd => hrange root d hroot (NodeDocument.reaches_iff_holds.mp hd)
      simp only [Option.some.injEq, exists_eq_left', ← NodeDocument.reaches_iff_holds]
      cases hbuild : root.build [] with
      | ok built =>
          obtain ⟨n, -, hn⟩ := exists_ofDocument_of_build_ok hwf.coherent hroot hbuild
          exact ⟨⟨fun _ d hd => isAcceptable_of_build_ok hwf hrange hbuild hd, fun _ => ⟨n, hn⟩⟩,
            .inl ⟨n, hn⟩⟩
      | error fault =>
          obtain ⟨⟨d, hd, hnot⟩, malformed, rfl⟩ :=
            exists_not_acceptable_of_build_error hwf hrange hbuild
          rw [ofDocument_of_build_error hwf.coherent hroot hbuild]
          exact ⟨⟨by rintro ⟨_, ⟨⟩⟩, fun hall => absurd (hall d hd) hnot⟩, .inr ⟨malformed, rfl⟩⟩

end Language

/-- A call with a callback, and with other values that are no nodes among its arguments. Under
`parent` is an identifier without a name, which is not looked at. -/
def callbackCall : Json :=
  .obj () [("type", .str "CallExpression"), ("range", .arr [.int 0, .null]),
    ("callee", .obj () [("type", .str "Identifier"), ("name", .str "before"),
      ("range", .arr [.int 0, .int 6])]),
    ("arguments", .arr [.obj () [("type", .str "ArrowFunctionExpression")], .null, .int 7]),
    ("parent", .obj () [("type", .str "Identifier")])]

/-- The call has a tree. -/
theorem exists_ofDocument_callbackCall :
    (∀ root, callbackCall.toDocument.node? = some root → root.WellFormed) ∧
    (∀ root d, callbackCall.toDocument.node? = some root →
      Relation.ReflTransGen NodeDocument.Holds root d → d.hasWholeRange ∧ d.isAcceptable) ∧
    ∃ n, Node.ofDocument callbackCall.toDocument = .ok n := by
  have hwf : ∀ root, callbackCall.toDocument.node? = some root → root.WellFormed :=
    fun root hroot => wellFormed_of_toDocument (by decide) hroot
  have hall : ∀ root ∈ callbackCall.toDocument.node?, ∀ d ∈ root.postOrder,
      d.hasWholeRange ∧ d.isAcceptable := by decide +kernel
  have hobjects : ∀ root d, callbackCall.toDocument.node? = some root →
      Relation.ReflTransGen NodeDocument.Holds root d → d.hasWholeRange ∧ d.isAcceptable :=
    fun root d hroot hd => hall root hroot d
      (NodeDocument.mem_postOrder.mpr (NodeDocument.reaches_iff_holds.mpr hd))
  refine ⟨hwf, hobjects, ?_⟩
  rw [(exists_ofDocument_iff hwf fun root d hroot hd => (hobjects root d hroot hd).1).1]
  exact ⟨_, rfl, fun d hd => (hobjects _ d rfl hd).2⟩

end TreeLint
