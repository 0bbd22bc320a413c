import Mathlib.Data.List.Nodup
import Mathlib.Logic.Relation
import TreeLint.Tree.Document

/-!
# The Objects of a Document

A document is a value in which one object may stand in several places, told by its label. This
module speaks about the node documents **reachable** from a root through children, and about
documents in which a label stands for one object only (`Coherent`); every document that has been
read or put together is coherent, since a label is the identity of an object there.

The order in which objects are made is the last-child-first **post-order** (`postOrder`), in which
an object that stands in several places comes several times; `schedule` keeps the first time only.

## Main results

* `Coherent.label_ne`: no object stands below itself.
* `mem_schedule`: the schedule of a coherent document holds exactly the reachable objects.
* `nodup_schedule`: it holds none of them twice.
-/

namespace TreeLint

namespace NodeDocument

/-! ### Reachable objects -/

/-- A child weighs less than its parent. -/
theorem weight_lt_of_mem_children {d c : NodeDocument} (hc : c ∈ d.children) :
    c.weight < d.weight := by
  have hle := le_total_of_mem (List.mem_map_of_mem hc : c.weight ∈ d.children.map weight)
  exact Nat.lt_of_le_of_lt hle d.total_weight_children_lt

/-- An object is **reachable** from itself and from everything whose child it is below. -/
def Reaches : NodeDocument → NodeDocument → Prop :=
  Relation.ReflTransGen fun d c => c ∈ d.children

/-- An object is reachable **from itself**. -/
theorem Reaches.refl (d : NodeDocument) : d.Reaches d := Relation.ReflTransGen.refl

/-- The children of a reachable object are **reachable**. -/
theorem Reaches.child {root d c : NodeDocument} (h : root.Reaches d) (hc : c ∈ d.children) :
    root.Reaches c :=
  Relation.ReflTransGen.tail h hc

/-- What is reachable from a child is reachable **from its object**. -/
theorem reaches_of_mem_children {d c e : NodeDocument} (hc : c ∈ d.children) (h : c.Reaches e) :
    d.Reaches e :=
  Relation.ReflTransGen.head hc h

/-- An object is reachable if it is the root itself or reachable from a child of the root. -/
theorem reaches_iff {d e : NodeDocument} :
    d.Reaches e ↔ e = d ∨ ∃ c ∈ d.children, c.Reaches e := by
  constructor
  · intro h
    rcases Relation.ReflTransGen.cases_head h with rfl | ⟨c, hc, hce⟩
    · exact .inl rfl
    · exact .inr ⟨c, hc, hce⟩
  · rintro (rfl | ⟨c, hc, h⟩)
    · exact .refl _
    · exact reaches_of_mem_children hc h

/-- Nothing that is reachable weighs more. -/
theorem Reaches.weight_le {d e : NodeDocument} (h : d.Reaches e) : e.weight ≤ d.weight := by
  induction h with
  | refl => exact Nat.le_refl _
  | tail _ hc ih => exact Nat.le_trans (Nat.le_of_lt (weight_lt_of_mem_children hc)) ih

/-- What holds of an object whenever it holds of its children holds of every object. -/
@[elab_as_elim]
theorem induction_children {P : NodeDocument → Prop}
    (h : ∀ d : NodeDocument, (∀ c ∈ d.children, P c) → P d) (d : NodeDocument) : P d :=
  h d fun c _ => induction_children h c
termination_by d.weight
decreasing_by exact weight_lt_of_mem_children ‹_›

/-! ### Labels that stand for one object -/

/-- A document is **coherent** if a label stands for one object only. -/
def Coherent (root : NodeDocument) : Prop :=
  ∀ d e, root.Reaches d → root.Reaches e → d.label = e.label → d = e

/-- What is reachable from a coherent object is **coherent**. -/
theorem Coherent.of_reaches {root d : NodeDocument} (h : root.Coherent) (hd : root.Reaches d) :
    d.Coherent :=
  fun a b ha hb => h a b (hd.trans ha) (hd.trans hb)

/-- **No object stands below itself.** -/
theorem Coherent.label_ne {d c e : NodeDocument} (h : d.Coherent) (hc : c ∈ d.children)
    (he : c.Reaches e) : e.label ≠ d.label := by
  intro heq
  obtain rfl := h e d (reaches_of_mem_children hc he) (.refl d) heq
  have := he.weight_le
  have := weight_lt_of_mem_children hc
  omega

/-! ### The order of making -/

/-- The objects at and below a node document in **last-child-first post-order**: those of its
children, from the last child to the first, and then itself. -/
def postOrder (d : NodeDocument) : List NodeDocument :=
  (d.children.reverse.attach.flatMap fun c => c.1.postOrder) ++ [d]
termination_by d.weight
decreasing_by exact weight_lt_of_mem_children (List.mem_reverse.mp c.2)

/-- An object comes after everything **below its children**, of which the last one comes first. -/
theorem postOrder_eq (d : NodeDocument) :
    d.postOrder = d.children.reverse.flatMap postOrder ++ [d] := by
  rw [postOrder, List.flatMap_subtype (fun _ _ => rfl), List.unattach_attach]

/-- The order lists exactly **what is reachable**. -/
theorem mem_postOrder {d e : NodeDocument} : e ∈ d.postOrder ↔ d.Reaches e := by
  induction d using induction_children with
  | h d ih =>
      rw [postOrder_eq, reaches_iff, List.mem_append, List.mem_flatMap, List.mem_singleton,
        or_comm]
      refine or_congr_right ⟨?_, ?_⟩
      · rintro ⟨c, hc, hce⟩
        exact ⟨c, List.mem_reverse.mp hc, (ih c (List.mem_reverse.mp hc)).mp hce⟩
      · rintro ⟨c, hc, hce⟩
        exact ⟨c, List.mem_reverse.mpr hc, (ih c hc).mpr hce⟩

end NodeDocument

/-- The objects of a list whose labels are not `seen`, each at its first place only. -/
def firstUses (seen : List ℕ) : List NodeDocument → List NodeDocument
  | [] => []
  | d :: rest =>
    if d.label ∈ seen then firstUses seen rest else d :: firstUses (d.label :: seen) rest

/-- Objects with a seen label are passed over. -/
theorem firstUses_append_of_seen {seen : List ℕ} {ds : List NodeDocument}
    (h : ∀ d ∈ ds, d.label ∈ seen) (rest : List NodeDocument) :
    firstUses seen (ds ++ rest) = firstUses seen rest := by
  induction ds with
  | nil => rfl
  | cons d ds ih =>
      rw [List.cons_append, firstUses, if_pos (h d List.mem_cons_self)]
      exact ih fun e he => h e (List.mem_cons_of_mem d he)

/-- What is used for the first time is used, and **was not seen** before. -/
theorem mem_of_mem_firstUses {seen : List ℕ} {ds : List NodeDocument} {d : NodeDocument}
    (h : d ∈ firstUses seen ds) : d ∈ ds ∧ d.label ∉ seen := by
  induction ds generalizing seen with
  | nil => exact nomatch h
  | cons e ds ih =>
      rw [firstUses] at h
      split at h
      · exact ⟨List.mem_cons_of_mem e (ih h).1, (ih h).2⟩
      · next hseen =>
        rcases List.mem_cons.mp h with rfl | h
        · exact ⟨List.mem_cons_self, hseen⟩
        · obtain ⟨hmem, hlabel⟩ := ih h
          exact ⟨List.mem_cons_of_mem e hmem, fun hs => hlabel (List.mem_cons_of_mem _ hs)⟩

/-- Every label of the list is seen or kept. -/
theorem exists_mem_firstUses {seen : List ℕ} {ds : List NodeDocument} {d : NodeDocument}
    (h : d ∈ ds) (hseen : d.label ∉ seen) : ∃ e ∈ firstUses seen ds, e.label = d.label := by
  induction ds generalizing seen with
  | nil => exact nomatch h
  | cons e ds ih =>
      rw [firstUses]
      by_cases heq : e.label = d.label
      · rw [if_neg (heq ▸ hseen)]
        exact ⟨e, List.mem_cons_self, heq⟩
      · have hds : d ∈ ds := (List.mem_cons.mp h).resolve_left fun hd => heq (by rw [hd])
        split
        · exact ih hds hseen
        · have hseen' : d.label ∉ e.label :: seen := by
            simp [hseen, Ne.symm heq]
          obtain ⟨f, hf, hlabel⟩ := ih hds hseen'
          exact ⟨f, List.mem_cons_of_mem e hf, hlabel⟩

/-- No label is kept twice. -/
theorem nodup_labels_firstUses (seen : List ℕ) (ds : List NodeDocument) :
    ((firstUses seen ds).map NodeDocument.label).Nodup := by
  induction ds generalizing seen with
  | nil => exact List.nodup_nil
  | cons d ds ih =>
      rw [firstUses]
      split
      · exact ih seen
      · rw [List.map_cons, List.nodup_cons]
        refine ⟨fun h => ?_, ih _⟩
        obtain ⟨e, he, hlabel⟩ := List.mem_map.mp h
        exact (mem_of_mem_firstUses he).2 (hlabel ▸ List.mem_cons_self)

namespace NodeDocument

/-- The **schedule** of a document: its objects in last-child-first post-order, each once. -/
def schedule (root : NodeDocument) : List NodeDocument := firstUses [] root.postOrder

/-- The schedule of a coherent document holds exactly the **reachable** objects. -/
theorem mem_schedule {root d : NodeDocument} (h : root.Coherent) :
    d ∈ root.schedule ↔ root.Reaches d := by
  constructor
  · intro hd
    exact mem_postOrder.mp (mem_of_mem_firstUses hd).1
  · intro hd
    obtain ⟨e, he, hlabel⟩ := exists_mem_firstUses (mem_postOrder.mpr hd) List.not_mem_nil
    obtain rfl := h e d (mem_postOrder.mp (mem_of_mem_firstUses he).1) hd hlabel
    exact he

/-- The schedule holds no object **twice**. -/
theorem nodup_schedule (root : NodeDocument) : root.schedule.Nodup :=
  List.Nodup.of_map label (nodup_labels_firstUses [] root.postOrder)

end NodeDocument

end TreeLint
