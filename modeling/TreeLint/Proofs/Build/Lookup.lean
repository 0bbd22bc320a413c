import TreeLint.Proofs.Build.Contract
import TreeLint.Proofs.Json.Keys

/-!
# Looking Up Parts

A node is made from the parts that the table of made nodes gives for its document
(`Built.partsOf`). This module says what is found there under a key, in terms of the document alone:
the node made of the object under the key (`single?_partsOf`), or the nodes made of the objects in
the list there (`many_partsOf`).

The members of an object have different keys, and a label stands for one object. Documents that keep
to this are **well-formed** (`NodeDocument.WellFormed`).

## Main results

* `Kind.ofType_eq_iff`: the type words of a kind.
* `mem_children_iff`: the children of an object are the objects that its members hold.
* `single?_partsOf`, `many_partsOf`: the parts of a node under a key.
-/

namespace TreeLint

/-! ### Type words -/

namespace Kind

/-- No two kinds have **the same name**. -/
theorem name_injective {k k' : Kind} (h : k.name = k'.name) : k = k' := by
  have hall : ∀ k ∈ all, ∀ k' ∈ all, k.name = k'.name → k = k' := by decide
  exact hall k k.mem_all k' k'.mem_all h

/-- A kind that rules know has **one type word**, its name, and properties have an older one
beside it. -/
theorem ofType_eq_iff {type : String} {k : Kind} (hk : k ≠ .other) :
    ofType type = k ↔ type = k.name ∨ k = .propertyDefinition ∧ type = "ClassProperty" := by
  by_cases hold : type = "ClassProperty"
  · subst hold
    have hname : ∀ k ∈ all, "ClassProperty" ≠ k.name := by decide
    rw [or_iff_right (hname k k.mem_all), and_iff_left rfl]
    exact eq_comm
  · have hfind : ofType type = (ofName? type).getD .other := if_neg (by simpa using hold)
    rw [hfind, or_iff_left fun h => hold h.2]
    cases hcase : ofName? type with
    | none =>
        refine ⟨fun h => absurd h.symm hk, fun h => ?_⟩
        have hnone := List.find?_eq_none.mp hcase k k.mem_all
        exact absurd (beq_iff_eq.mpr h.symm) hnone
    | some k' =>
        rw [ofName?] at hcase
        have hname : k'.name = type := by simpa using List.find?_some hcase
        rw [Option.getD_some, ← hname]
        exact ⟨fun h => h ▸ rfl, fun h => name_injective h⟩

end Kind

/-! ### Whole numbers -/

/-- Whether a value is a whole number or missing. -/
def Value.isWhole {ι : Type} : Value ι → Bool
  | .null | .int _ => true
  | _ => false

/-- Labels make no difference to whether a value is **whole**. -/
theorem Value.isWhole_erase {ι : Type} (v : Value ι) : v.erase.isWhole = v.isWhole := by
  cases v <;> rfl

/-- What counts as whole is a whole number, or **nothing**. -/
theorem Value.isWhole_iff {ι : Type} {v : Value ι} : v.isWhole ↔ v = .null ∨ ∃ n, v = .int n := by
  cases v <;> simp [isWhole]

/-! ### Well-formed documents -/

namespace NodeDocument

/-- A document is **well-formed** if a label stands for one object, and no object that describes a
node has a key twice. -/
structure WellFormed (root : NodeDocument) : Prop where
  coherent : root.Coherent
  keys : ∀ d, root.Reaches d → (d.members.map Prod.fst).Nodup

/-- A document in which no label comes twice is coherent. -/
theorem Coherent.of_nodup_labels {root : NodeDocument} (h : (root.postOrder.map label).Nodup) :
    root.Coherent :=
  fun _ _ hd he => List.inj_on_of_nodup_map h (mem_postOrder.mpr hd) (mem_postOrder.mpr he)

/-- The object under a key, if it describes a node. -/
def nodeAt? (d : NodeDocument) (key : String) : Option NodeDocument := (d.getD key).node?

/-- The objects under a key that describe nodes: those in the list there, or the one that is
there. -/
def nodesAt (d : NodeDocument) (key : String) : List NodeDocument :=
  match d.getD key with
  | .arr items => items.filterMap Value.node?
  | v => v.node?.toList

/-- An object **holds** another one that describes a node, as the value of a member or in a list
there. Some keys are not looked at. -/
def Holds (d c : NodeDocument) : Prop :=
  ∃ key v, (key, v) ∈ d.members ∧
    key ∉ ["type", "loc", "range", "start", "end", "parent", "tokens", "comments"] ∧
    (v.node? = some c ∨ ∃ items item, v = .arr items ∧ item ∈ items ∧ item.node? = some c)

/-- The parts of an object are the values that describe nodes, under the keys that are **not
skipped**. -/
theorem partsOf_eq (members : List (String × Document)) :
    partsOf members =
      filterValues (fun key v => if isSkipped key then none else Part.ofValue? v) members := by
  induction members with
  | nil => rfl
  | cons entry rest ih =>
      rw [filterValues_cons, partsOf, ← ih]
      split
      · rfl
      · cases Part.ofValue? entry.2 <;> rfl

/-- A value is an object that describes a node, or a list, or contributes nothing. -/
theorem ofValue?_cases (v : Document) :
    (∃ c, v.node? = some c ∧ Part.ofValue? v = some (.one c) ∧ ∀ items, v ≠ .arr items) ∨
    (∃ items, v = .arr items ∧ Part.ofValue? v = some (.many (items.filterMap Value.node?))) ∨
    (v.node? = none ∧ Part.ofValue? v = none ∧ ∀ items, v ≠ .arr items) := by
  cases hnode : v.node? with
  | some c =>
      refine .inl ⟨c, rfl, by simp only [Part.ofValue?, hnode], ?_⟩
      rintro items rfl
      cases hnode
  | none =>
      cases v with
      | arr items => exact .inr (.inl ⟨items, rfl, rfl⟩)
      | obj label members =>
          exact .inr (.inr ⟨rfl, by simp only [Part.ofValue?, hnode], by rintro _ ⟨⟩⟩)
      | _ => exact .inr (.inr ⟨rfl, rfl, by rintro _ ⟨⟩⟩)

/-- A value holds a node in one of two ways: **as the value itself**, or as an item of a list. -/
theorem mem_toList_ofValue? {v : Document} {c : NodeDocument} :
    (∃ part, Part.ofValue? v = some part ∧ c ∈ part.toList) ↔
      v.node? = some c ∨ ∃ items item, v = .arr items ∧ item ∈ items ∧ item.node? = some c := by
  rcases ofValue?_cases v with
    ⟨d, hnode, hpart, hlist⟩ | ⟨items, rfl, hpart⟩ | ⟨hnode, hpart, hlist⟩
  · simp [hnode, hpart, hlist, Part.toList, eq_comm]
  · have hnode : (Value.arr items : Document).node? = none := rfl
    simp [hnode, hpart, Part.toList]
  · simp [hnode, hpart, hlist]

/-- The children of an object are **the objects that it holds**. -/
theorem mem_children_iff {d c : NodeDocument} : c ∈ d.children ↔ d.Holds c := by
  have hskip : ∀ key, isSkipped key = false ↔
      key ∉ ["type", "loc", "range", "start", "end", "parent", "tokens", "comments"] := by
    intro key
    rw [isSkipped, ← Bool.not_eq_true, List.contains_iff_mem]
  rw [children, parts, partsOf_eq, filterValues, List.mem_flatMap]
  constructor
  · rintro ⟨⟨key, part⟩, hentry, hc⟩
    obtain ⟨⟨k, v⟩, hmember, hvalue⟩ := List.mem_filterMap.mp hentry
    obtain ⟨part', hpart, heq⟩ := Option.map_eq_some_iff.mp hvalue
    obtain ⟨rfl, rfl⟩ := Prod.mk.inj heq
    clear hvalue
    by_cases hk : isSkipped k = true
    · simp [hk] at hpart
    · rw [if_neg hk] at hpart
      exact ⟨k, v, hmember, (hskip k).mp (by simpa using hk),
        mem_toList_ofValue?.mp ⟨_, hpart, hc⟩⟩
  · rintro ⟨key, v, hmember, hkey, hv⟩
    obtain ⟨part, hpart, hc⟩ := mem_toList_ofValue?.mpr hv
    refine ⟨(key, part), List.mem_filterMap.mpr ⟨(key, v), hmember, ?_⟩, hc⟩
    simp [(hskip key).mpr hkey, hpart]

/-- One object is reachable from another exactly if it is **held** by it, at any number of removes.
-/
theorem reaches_iff_holds {d e : NodeDocument} : d.Reaches e ↔ Relation.ReflTransGen Holds d e := by
  have hholds : (fun d c : NodeDocument => c ∈ d.children) = Holds :=
    funext fun d => funext fun c => propext mem_children_iff
  rw [Reaches, hholds]

/-! ### Parts under a key -/

section Parts

variable {d c : NodeDocument} {key : String}

/-- The part under a key is **the value** there, as far as it describes nodes. -/
theorem lookup?_parts (hkeys : (d.members.map Prod.fst).Nodup) (hkey : isSkipped key = false) :
    lookup? key d.parts = Part.ofValue? (d.getD key) := by
  rw [parts, partsOf_eq, lookup?_filterValues _ hkeys, getD, get?]
  cases lookup? key d.members with
  | none => rfl
  | some v => simp [hkey]

/-- The part under a key in the table has the nodes that are **made** for the value there. -/
theorem lookup?_partsOf (hkeys : (d.members.map Prod.fst).Nodup) (hkey : isSkipped key = false)
    (built : Built) :
    lookup? key (built.partsOf d) = (Part.ofValue? (d.getD key)).bind
      (Part.filterMap fun child => built.get? child.label) := by
  have hparts : (d.parts.map Prod.fst).Nodup := by
    rw [parts, partsOf_eq]
    exact nodup_keys_filterValues _ hkeys
  rw [← lookup?_parts hkeys hkey]
  exact lookup?_filterValues
    (fun _ part => part.filterMap fun child => built.get? child.label) hparts key

/-- The single part of a node under a key is the node of **the object there**. -/
theorem single?_partsOf (hkeys : (d.members.map Prod.fst).Nodup) (hkey : isSkipped key = false)
    (built : Built) :
    (built.partsOf d).single? key = (d.nodeAt? key).bind fun c => built.get? c.label := by
  rw [Parts.single?, lookup?_partsOf hkeys hkey, nodeAt?]
  rcases ofValue?_cases (d.getD key) with ⟨c, hnode, hpart, -⟩ | ⟨items, hlist, hpart⟩ |
    ⟨hnode, hpart, -⟩
  · rw [hnode, hpart, Option.bind_some, Option.bind_some, Part.filterMap]
    cases built.get? c.label <;> rfl
  · rw [hpart, hlist]
    rfl
  · rw [hnode, hpart]
    rfl

/-- The parts of a node under a key are the nodes of **the objects in the list there**. -/
theorem many_partsOf (hkeys : (d.members.map Prod.fst).Nodup) (hkey : isSkipped key = false)
    (built : Built) :
    (built.partsOf d).many key = (d.nodesAt key).filterMap fun c => built.get? c.label := by
  rw [Parts.many, lookup?_partsOf hkeys hkey]
  rcases ofValue?_cases (d.getD key) with ⟨c, hnode, hpart, hlist⟩ | ⟨items, hlist, hpart⟩ |
    ⟨hnode, hpart, hlist⟩
  · have hnodes : d.nodesAt key = [c] := by
      rw [nodesAt]
      split
      · next items h => exact absurd h (hlist items)
      · rw [hnode, Option.toList_some]
    rw [hnodes, hpart, Option.bind_some, Part.filterMap, List.filterMap_cons]
    cases built.get? c.label <;> rfl
  · rw [nodesAt, hpart, hlist]
    rfl
  · have hnodes : d.nodesAt key = [] := by
      rw [nodesAt]
      split
      · next items h => exact absurd h (hlist items)
      · rw [hnode, Option.toList_none]
    rw [hnodes, hpart]
    rfl

/-- A key whose value is not null is **there**. -/
theorem get?_of_getD {v : Document} (h : d.getD key = v) (hv : v ≠ .null) :
    d.get? key = some v := by
  rw [getD] at h
  cases hget : d.get? key with
  | none =>
      rw [hget] at h
      exact absurd h.symm hv
  | some w =>
      rw [hget] at h
      exact congrArg some h

/-- The object under a key is a child. -/
theorem mem_children_of_nodeAt? (hkey : isSkipped key = false) (h : d.nodeAt? key = some c) :
    c ∈ d.children := by
  have hnull : d.getD key ≠ .null := by
    intro hnull
    rw [nodeAt?, hnull] at h
    cases h
  refine mem_children_iff.mpr ⟨key, d.getD key, mem_of_lookup? (get?_of_getD rfl hnull), ?_, .inl h⟩
  exact fun hmem => by simp [isSkipped, hmem] at hkey

/-- The objects in the list under a key are children. -/
theorem mem_children_of_nodesAt (hkey : isSkipped key = false) (h : c ∈ d.nodesAt key) :
    c ∈ d.children := by
  rw [nodesAt] at h
  split at h
  · next items hlist =>
    obtain ⟨item, hitem, hc⟩ := List.mem_filterMap.mp h
    have hget := get?_of_getD hlist (by rintro ⟨⟩)
    refine mem_children_iff.mpr
      ⟨key, .arr items, mem_of_lookup? hget, ?_, .inr ⟨items, item, rfl, hitem, hc⟩⟩
    exact fun hmem => by simp [isSkipped, hmem] at hkey
  · exact mem_children_of_nodeAt? hkey (Option.mem_toList.mp h)

end Parts

/-- All the parts of a node are the nodes of its **children**, in the order of the document. -/
theorem nodes_partsOf (built : Built) (d : NodeDocument) :
    (built.partsOf d).nodes = d.children.filterMap fun c => built.get? c.label := by
  rw [Built.partsOf, children]
  induction d.parts with
  | nil => rfl
  | cons entry rest ih =>
      rw [List.flatMap_cons, List.filterMap_append, ← ih, List.filterMap_cons]
      obtain ⟨key, part⟩ := entry
      cases part with
      | many cs => rfl
      | one c =>
          simp only [Part.filterMap, Part.toList, List.filterMap_cons]
          cases built.get? c.label <;> rfl

end NodeDocument

end TreeLint
