import TreeLint.Proofs.Build.SourceOrder
import TreeLint.Proofs.Json.Rearrangement
import TreeLint.Proofs.Sorting.Naturality

/-!
# Rearranged Objects

Two objects that describe nodes are **rearranged** (`NodeDocument.Rearranges`) if their members are
the same but for their order, at any depth. Such objects agree on all that is asked about them, and
hold rearranged objects under each key. Their children are written in different orders: those under
one key together, and the keys in any order. Where children under different keys start at different
places, putting them in order of where they start **makes up for that** (`Rearranges.sorted`).

## Main results

* `Rearranges.nodeAt?`, `Rearranges.nodesAt`: the objects under a key.
* `Rearranges.sorted`: the children, in order of where they start.
* `Rearranges.exists_reaches`: the objects further down.
-/

namespace TreeLint

open Sorting

/-- Places with rearranged values. -/
structure Span.Rearranges (s t : Span) : Prop where
  start : s.start.Rearranges t.start
  stop : s.stop.Rearranges t.stop
  line : s.line.Rearranges t.line
  column : s.column.Rearranges t.column

/-- Parts of the same form, with related nodes. -/
inductive Part.Related {α β : Type} (R : α → β → Prop) : Part α → Part β → Prop
  | one {a : α} {b : β} (h : R a b) : Related R (.one a) (.one b)
  | many {as : List α} {bs : List β} (h : List.Forall₂ R as bs) : Related R (.many as) (.many bs)

/-- Related parts have related nodes, **one by one**. -/
theorem Part.Related.toList {α β : Type} {R : α → β → Prop} {p : Part α} {q : Part β}
    (h : Part.Related R p q) : List.Forall₂ R p.toList q.toList := by
  cases h with
  | one h => exact .cons h .nil
  | many h => exact h

/-- Objects of one type whose members are **rearranged**. -/
structure NodeDocument.Rearranges (d e : NodeDocument) : Prop where
  type : e.type = d.type
  members : SameKeys Value.Rearranges d.members e.members

/-- Rearranged values describe **rearranged nodes**, or none. -/
theorem Value.Rearranges.node? {v w : Document} (h : v.Rearranges w) :
    Option.Rel NodeDocument.Rearranges v.node? w.node? := by
  rcases h.cases with ⟨hatom, rfl⟩ | ⟨xs, ys, rfl, rfl, -⟩ | ⟨l, ms, l', ns, rfl, rfl, hms⟩
  · cases w <;> first | exact .none | cases hatom
  · exact .none
  · have htype := hms.lookup? "type"
    rw [Value.node?, Value.node?]
    generalize lookup? "type" ms = a, lookup? "type" ns = b at htype
    cases htype with
    | none => exact .none
    | @some u u' huu' =>
        rcases huu'.cases with ⟨-, rfl⟩ | ⟨xs, ys, rfl, rfl, -⟩ | ⟨l, ms, l', ns, rfl, rfl, -⟩
        · cases u' with
          | str type => exact .some ⟨rfl, hms⟩
          | _ => exact .none
        · exact .none
        · exact .none

namespace NodeDocument

/-- Items that are rearranged describe rearranged nodes, **one by one**. -/
theorem forall₂_filterMap_node? {xs ys : List Document} (h : List.Forall₂ Value.Rearranges xs ys) :
    List.Forall₂ Rearranges (xs.filterMap Value.node?) (ys.filterMap Value.node?) :=
  List.rel_filterMap (fun {_ _} hvw => hvw.node?) h

/-- Values that are rearranged have **related parts**. -/
theorem related_ofValue? {v w : Document} (h : v.Rearranges w) :
    Option.Rel (Part.Related Rearranges) (Part.ofValue? v) (Part.ofValue? w) := by
  have hnode := h.node?
  rcases h.cases with ⟨hatom, rfl⟩ | ⟨xs, ys, rfl, rfl, hxs⟩ | ⟨l, ms, l', ns, rfl, rfl, -⟩
  · cases w <;> first | exact .none | cases hatom
  · exact .some (.many (forall₂_filterMap_node? hxs))
  · simp only [Part.ofValue?]
    generalize (Value.obj l ms : Document).node? = a, (Value.obj l' ns : Document).node? = b
      at hnode
    cases hnode with
    | none => exact .none
    | some hde => exact .some (.one hde)

/-- The offsets of an object: those of its `range` or, without one, its own. -/
def offsets (d : NodeDocument) : Json × Json :=
  match d.getD "range" with
  | .arr [start, stop] => (start.erase, stop.erase)
  | _ => (offset (d.getD "start"), offset (d.getD "end"))

/-- The place of a node is read from **four values** of its object. -/
theorem span_eq (d : NodeDocument) :
    d.span = ⟨d.offsets.1, d.offsets.2, (((d.getD "loc").getD "start").getD "line").erase,
      (((d.getD "loc").getD "start").getD "column").erase⟩ := by
  rw [span]
  cases (d.getD "loc").getD "start" <;> rfl

namespace Rearranges

variable {d e : NodeDocument}

/-! ### What is asked about an object -/

/-- Rearranged objects have **the same kind**. -/
theorem kind (h : d.Rearranges e) : e.kind = d.kind := by rw [NodeDocument.kind, h.type]; rfl

/-- Rearranged objects have rearranged values **under each key**. -/
theorem getD (h : d.Rearranges e) (key : String) : (d.getD key).Rearranges (e.getD key) := by
  have hrel := h.members.lookup? key
  rw [NodeDocument.getD, NodeDocument.getD, NodeDocument.get?, NodeDocument.get?]
  generalize lookup? key d.members = a, lookup? key e.members = b at hrel
  cases hrel with
  | none => exact .null
  | some hab => exact hab

/-- The object under a key is **rearranged**. -/
theorem nodeAt? (h : d.Rearranges e) (key : String) :
    Option.Rel Rearranges (d.nodeAt? key) (e.nodeAt? key) := (h.getD key).node?

/-- The objects in the list under a key are **rearranged one by one**. -/
theorem nodesAt (h : d.Rearranges e) (key : String) :
    List.Forall₂ Rearranges (d.nodesAt key) (e.nodesAt key) := by
  have hvalue := h.getD key
  have hnode := hvalue.node?
  have htoList : List.Forall₂ Rearranges (d.getD key).node?.toList (e.getD key).node?.toList := by
    generalize (d.getD key).node? = a, (e.getD key).node? = b at hnode
    cases hnode with
    | none => exact .nil
    | some hde => exact .cons hde .nil
  rw [NodeDocument.nodesAt, NodeDocument.nodesAt]
  rcases hvalue.cases with ⟨hatom, heq⟩ | ⟨xs, ys, hx, hy, hxs⟩ | ⟨l, ms, l', ns, hx, hy, -⟩
  · rw [heq] at htoList ⊢
    cases hcase : d.getD key with
    | arr items =>
        rw [hcase] at hatom
        cases hatom
    | _ =>
        rw [hcase] at htoList
        exact htoList
  · rw [hx, hy]
    exact forall₂_filterMap_node? hxs
  · rw [hx, hy] at htoList ⊢
    exact htoList

/-- Rearranged objects have **the same modifiers**. -/
theorem modifiers (h : d.Rearranges e) : e.modifiers = d.modifiers := by
  simp only [NodeDocument.modifiers, (h.getD _).isTrue, (h.getD _).str?]

/-- Rearranged objects both have **a list of arguments**, or neither has. -/
theorem hasArgumentList (h : d.Rearranges e) : e.hasArgumentList = d.hasArgumentList := by
  have hrel := h.members.lookup? "arguments"
  rw [NodeDocument.hasArgumentList, NodeDocument.hasArgumentList, NodeDocument.get?,
    NodeDocument.get?]
  generalize lookup? "arguments" d.members = a, lookup? "arguments" e.members = b at hrel
  cases hrel with
  | none => rfl
  | some hab =>
      rcases hab.cases with ⟨-, rfl⟩ | ⟨xs, ys, rfl, rfl, -⟩ | ⟨l, ms, l', ns, rfl, rfl, -⟩ <;> rfl

/-- Rearranged objects are **acceptable together**. -/
theorem isAcceptable_iff (h : d.Rearranges e) : e.isAcceptable ↔ d.isAcceptable := by
  have hsome : ∀ key, (e.nodeAt? key).isSome = (d.nodeAt? key).isSome := by
    intro key
    have hrel := h.nodeAt? key
    generalize d.nodeAt? key = a, e.nodeAt? key = b at hrel
    cases hrel <;> rfl
  rw [NodeDocument.isAcceptable_iff, NodeDocument.isAcceptable_iff, h.kind, (h.getD _).str?,
    h.hasArgumentList, hsome, hsome, hsome]

/-- Rearranged values give rearranged **offsets**. -/
theorem offset {v w : Document} (h : v.Rearranges w) : (offset v).Rearranges (offset w) := by
  rcases h.cases with ⟨-, rfl⟩ | ⟨xs, ys, rfl, rfl, -⟩ | ⟨l, ms, l', ns, rfl, rfl, -⟩
  · cases w <;> simp [NodeDocument.offset, Value.Rearranges, Value.isRearranged]
  · exact .null
  · exact .null

/-- The two offsets of rearranged objects are rearranged. -/
theorem offsets (h : d.Rearranges e) :
    d.offsets.1.Rearranges e.offsets.1 ∧ d.offsets.2.Rearranges e.offsets.2 := by
  have hown := And.intro (offset (h.getD "start")) (offset (h.getD "end"))
  rw [NodeDocument.offsets, NodeDocument.offsets]
  rcases (h.getD "range").cases with ⟨hatom, heq⟩ | ⟨xs, ys, hx, hy, hxs⟩ |
    ⟨l, ms, l', ns, hx, hy, -⟩
  · rw [heq]
    cases hcase : d.getD "range" with
    | arr items =>
        rw [hcase] at hatom
        cases hatom
    | _ => exact hown
  · rw [hx, hy]
    match xs, ys, hxs with
    | _, _, .nil => exact hown
    | _, _, .cons _ .nil => exact hown
    | _, _, .cons hx (.cons hy .nil) => exact ⟨hx.erase, hy.erase⟩
    | _, _, .cons _ (.cons _ (.cons _ _)) => exact hown
  · rw [hx, hy]
    exact hown

/-- Rearranged objects are at **rearranged places**. -/
theorem span (h : d.Rearranges e) : d.span.Rearranges e.span := by
  have hplace := (h.getD "loc").getD "start"
  rw [span_eq, span_eq]
  exact ⟨h.offsets.1, h.offsets.2, (hplace.getD "line").erase, (hplace.getD "column").erase⟩

/-- Rearranged objects start at **the same offset**. -/
theorem startOffset (h : d.Rearranges e) : e.startOffset = d.startOffset := by
  rw [NodeDocument.startOffset, NodeDocument.startOffset]
  rcases h.span.start.cases with ⟨-, heq⟩ | ⟨xs, ys, hx, hy, -⟩ | ⟨l, ms, l', ns, hx, hy, -⟩
  · rw [heq]
  · rw [hx, hy]
    rfl
  · rw [hx, hy]
    rfl

/-! ### Children -/

/-- Rearranged objects have **the same keys** with nodes under them, and related parts. -/
theorem parts (h : d.Rearranges e) : SameKeys (Part.Related Rearranges) d.parts e.parts := by
  rw [NodeDocument.parts, NodeDocument.parts, partsOf_eq, partsOf_eq]
  refine h.members.filterValues fun key v w _ hvw => ?_
  split
  · exact .none
  · exact related_ofValue? hvw

/-- The children are **the children in groups**, one for each key, and the groups are in some other
order. -/
theorem exists_children (h : d.Rearranges e) :
    ∃ groups : List (String × Part NodeDocument), groups.Perm d.parts ∧
      List.Forall₂ Rearranges (groups.flatMap fun part => part.2.toList) e.children := by
  obtain ⟨groups, hperm, hgroups⟩ := h.parts.exists_perm
  exact ⟨groups, hperm, List.rel_flatMap hgroups fun {_ _} hpart => hpart.2.toList⟩

/-- Each child has a **rearranged partner**. -/
theorem exists_child (h : d.Rearranges e) :
    (∀ c ∈ d.children, ∃ c' ∈ e.children, c.Rearranges c') ∧
      ∀ c' ∈ e.children, ∃ c ∈ d.children, c.Rearranges c' := by
  obtain ⟨groups, hperm, hgroups⟩ := h.exists_children
  have hmem : ∀ c, c ∈ groups.flatMap (fun part => part.2.toList) ↔ c ∈ d.children :=
    fun c => (hperm.flatMap_right _).mem_iff
  have hgroups' : List.Forall₂ (flip Rearranges) e.children
      (groups.flatMap fun part => part.2.toList) := hgroups.flip
  constructor
  · exact fun c hc => exists_of_mem_forall₂ hgroups ((hmem c).mpr hc)
  · intro c' hc'
    obtain ⟨c, hc, hcc'⟩ := exists_of_mem_forall₂ hgroups' hc'
    exact ⟨c, (hmem c).mp hc, hcc'⟩

/-- Whatever one of two rearranged objects reaches has a rearranged partner that **the other
reaches**. -/
theorem exists_reaches (h : d.Rearranges e) :
    (∀ c, d.Reaches c → ∃ c', e.Reaches c' ∧ c.Rearranges c') ∧
      ∀ c', e.Reaches c' → ∃ c, d.Reaches c ∧ c.Rearranges c' := by
  constructor
  · intro c hc
    induction hc with
    | refl => exact ⟨e, .refl e, h⟩
    | tail _ hc ih =>
        obtain ⟨b', hb', hbb'⟩ := ih
        obtain ⟨c', hc', hcc'⟩ := hbb'.exists_child.1 _ hc
        exact ⟨c', hb'.child hc', hcc'⟩
  · intro c' hc'
    induction hc' with
    | refl => exact ⟨d, .refl d, h⟩
    | tail _ hc' ih =>
        obtain ⟨b, hb, hbb'⟩ := ih
        obtain ⟨c, hc, hcc'⟩ := hbb'.exists_child.2 _ hc'
        exact ⟨c, hb.child hc, hcc'⟩

/-- **In order of where they start**, the children of rearranged objects are rearranged one by one,
if children under different keys start at different places. -/
theorem sorted (h : d.Rearranges e)
    (hapart : ∀ p ∈ d.parts, ∀ q ∈ d.parts, p.1 ≠ q.1 →
      ∀ a ∈ p.2.toList, ∀ b ∈ q.2.toList, a.startOffset ≠ b.startOffset) :
    List.Forall₂ Rearranges (stableSort NodeDocument.startOffset d.children)
      (stableSort NodeDocument.startOffset e.children) := by
  obtain ⟨groups, hperm, hgroups⟩ := h.exists_children
  have hkeys : d.parts.Pairwise fun p q => p.1 ≠ q.1 := List.pairwise_map.mp h.parts.nodup
  have hpairwise : d.parts.Pairwise fun p q =>
      ∀ a ∈ p.2.toList, ∀ b ∈ q.2.toList, a.startOffset ≠ b.startOffset :=
    hkeys.imp_of_mem fun hp hq hne => hapart _ hp _ hq hne
  rw [NodeDocument.children, stableSort_flatMap_of_perm hperm.symm hpairwise]
  exact stableSort_forall₂ (fun _ _ hde => hde.startOffset.symm) hgroups

end Rearranges

end NodeDocument

end TreeLint
