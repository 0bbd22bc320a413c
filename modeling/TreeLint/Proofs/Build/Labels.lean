import Mathlib.Data.List.Perm.Subperm
import TreeLint.Proofs.Build.Lookup

/-!
# The Documents of Data

A document that has been read is data whose objects get labels one by one (`Value.toDocument`).
Labels count up (`labels_labelFrom`), so none is given twice; and the keys of the objects stay what
they are. So the document of any data in which no object has a key twice is well-formed
(`wellFormed_of_toDocument`). In such a document no object is shared; well-formed documents with
shared objects come from elsewhere.

## Main results

* `labels_labelFrom`: the labels of a document of data are the numbers from zero on.
* `subperm_labels`: the objects that describe nodes, at all their places, are among all objects.
* `wellFormed_of_nodup_labels`: a document without shared objects, with different keys, is
  well-formed.
* `wellFormed_of_toDocument`: the document of data with different keys is well-formed.
-/

namespace TreeLint

namespace Value

variable {ι κ : Type}

/-! ### Labels and keys -/

mutual

/-- The **labels** of all objects in a value, outer objects first. -/
def labels : Value ι → List ι
  | .arr items => labelsItems items
  | .obj label members => label :: labelsMembers members
  | _ => []

/-- The labels in the items of an array. -/
def labelsItems : List (Value ι) → List ι
  | [] => []
  | v :: rest => v.labels ++ labelsItems rest

/-- The labels in the members of an object. -/
def labelsMembers : List (String × Value ι) → List ι
  | [] => []
  | (_, v) :: rest => v.labels ++ labelsMembers rest

end

mutual

/-- Whether no object in a value has **a key twice**. -/
def hasUniqueKeys : Value ι → Bool
  | .arr items => hasUniqueKeysItems items
  | .obj _ members => decide (members.map Prod.fst).Nodup && hasUniqueKeysMembers members
  | _ => true

/-- Whether no object in the items of an array has a key twice. -/
def hasUniqueKeysItems : List (Value ι) → Bool
  | [] => true
  | v :: rest => v.hasUniqueKeys && hasUniqueKeysItems rest

/-- Whether no object in the members of an object has a key twice. -/
def hasUniqueKeysMembers : List (String × Value ι) → Bool
  | [] => true
  | (_, v) :: rest => v.hasUniqueKeys && hasUniqueKeysMembers rest

end

/-- The items of a list with unique keys **have unique keys**. -/
theorem hasUniqueKeys_of_mem_items {items : List (Value ι)} (h : hasUniqueKeysItems items)
    {v : Value ι} (hv : v ∈ items) : v.hasUniqueKeys := by
  induction items with
  | nil => cases hv
  | cons w rest ih =>
      obtain ⟨hw, hrest⟩ := Bool.and_eq_true_iff.mp h
      rcases List.mem_cons.mp hv with rfl | hv
      · exact hw
      · exact ih hrest hv

/-- The members of an object with unique keys **have unique keys**. -/
theorem hasUniqueKeys_of_mem_members {members : List (String × Value ι)}
    (h : hasUniqueKeysMembers members) {key : String} {v : Value ι} (hv : (key, v) ∈ members) :
    v.hasUniqueKeys := by
  induction members with
  | nil => cases hv
  | cons entry rest ih =>
      obtain ⟨hw, hrest⟩ := Bool.and_eq_true_iff.mp h
      rcases List.mem_cons.mp hv with rfl | hv
      · exact hw
      · exact ih hrest hv

/-! ### Labelling -/

/-- Two stretches of labels, one after the other. -/
theorem range'_append_range' {start middle stop : Nat} (h : start ≤ middle) (h' : middle ≤ stop) :
    List.range' start (middle - start) ++ List.range' middle (stop - middle) =
      List.range' start (stop - start) := by
  obtain ⟨m, rfl⟩ := Nat.exists_eq_add_of_le h
  obtain ⟨n, rfl⟩ := Nat.exists_eq_add_of_le h'
  rw [Nat.add_sub_cancel_left, Nat.add_sub_cancel_left, List.range'_append_1, Nat.add_assoc,
    Nat.add_sub_cancel_left]

mutual

/-- Labels **count up**: a value that is labelled from a number on gets the numbers from there to
the next free one. -/
theorem labels_labelFrom (v : Value ι) (next : Nat) :
    next ≤ (v.labelFrom next).2 ∧
      (v.labelFrom next).1.labels = List.range' next ((v.labelFrom next).2 - next) :=
  match v with
  | .null | .bool _ | .int _ | .float _ | .str _ => by simp [labelFrom, labels]
  | .arr items => labels_labelItemsFrom items next
  | .obj _ members => by
      obtain ⟨hle, hlabels⟩ := labels_labelMembersFrom members (next + 1)
      refine ⟨Nat.le_of_succ_le hle, ?_⟩
      change next :: labelsMembers (labelMembersFrom (next + 1) members).1 =
        List.range' next ((labelMembersFrom (next + 1) members).2 - next)
      rw [hlabels, ← range'_append_range' (Nat.le_succ next) hle, Nat.succ_sub (Nat.le_refl next),
        Nat.sub_self]
      rfl

/-- The labels of the items of an array count up. -/
theorem labels_labelItemsFrom (items : List (Value ι)) (next : Nat) :
    next ≤ (labelItemsFrom next items).2 ∧
      labelsItems (labelItemsFrom next items).1 =
        List.range' next ((labelItemsFrom next items).2 - next) :=
  match items with
  | [] => by simp [labelItemsFrom, labelsItems]
  | v :: rest => by
      obtain ⟨hle, hlabels⟩ := labels_labelFrom v next
      obtain ⟨hle', hlabels'⟩ := labels_labelItemsFrom rest (v.labelFrom next).2
      refine ⟨Nat.le_trans hle hle', ?_⟩
      change (v.labelFrom next).1.labels ++
        labelsItems (labelItemsFrom (v.labelFrom next).2 rest).1 = _
      rw [hlabels, hlabels', range'_append_range' hle hle']
      rfl

/-- The labels of the members of an object count up. -/
theorem labels_labelMembersFrom (members : List (String × Value ι)) (next : Nat) :
    next ≤ (labelMembersFrom next members).2 ∧
      labelsMembers (labelMembersFrom next members).1 =
        List.range' next ((labelMembersFrom next members).2 - next) :=
  match members with
  | [] => by simp [labelMembersFrom, labelsMembers]
  | (key, v) :: rest => by
      obtain ⟨hle, hlabels⟩ := labels_labelFrom v next
      obtain ⟨hle', hlabels'⟩ := labels_labelMembersFrom rest (v.labelFrom next).2
      refine ⟨Nat.le_trans hle hle', ?_⟩
      change (v.labelFrom next).1.labels ++
        labelsMembers (labelMembersFrom (v.labelFrom next).2 rest).1 = _
      rw [hlabels, hlabels', range'_append_range' hle hle']
      rfl

end

/-- No two objects of a labelled document have **the same label**. -/
theorem nodup_labels_toDocument (v : Value ι) : v.toDocument.labels.Nodup := by
  rw [toDocument, (labels_labelFrom v 0).2]
  exact List.nodup_range'

/-- Labelling the members of an object does **not change its keys**. -/
theorem keys_labelMembersFrom (members : List (String × Value ι)) (next : Nat) :
    (labelMembersFrom next members).1.map Prod.fst = members.map Prod.fst := by
  induction members generalizing next with
  | nil => rfl
  | cons entry rest ih => exact congrArg (entry.1 :: ·) (ih _)

mutual

/-- Labelling leaves the **keys** as they are. -/
theorem hasUniqueKeys_labelFrom (v : Value ι) (next : Nat) :
    (v.labelFrom next).1.hasUniqueKeys = v.hasUniqueKeys :=
  match v with
  | .null | .bool _ | .int _ | .float _ | .str _ => rfl
  | .arr items => hasUniqueKeysItems_labelItemsFrom items next
  | .obj _ members => by
      change (decide ((labelMembersFrom (next + 1) members).1.map Prod.fst).Nodup &&
        hasUniqueKeysMembers (labelMembersFrom (next + 1) members).1) = _
      rw [keys_labelMembersFrom, hasUniqueKeysMembers_labelMembersFrom members (next + 1)]
      rfl

/-- Labelling items does not change whether **keys are unique**. -/
theorem hasUniqueKeysItems_labelItemsFrom (items : List (Value ι)) (next : Nat) :
    hasUniqueKeysItems (labelItemsFrom next items).1 = hasUniqueKeysItems items :=
  match items with
  | [] => rfl
  | v :: rest =>
      congrArg₂ (· && ·) (hasUniqueKeys_labelFrom v next)
        (hasUniqueKeysItems_labelItemsFrom rest (v.labelFrom next).2)

/-- Labelling members does not change whether **keys are unique**. -/
theorem hasUniqueKeysMembers_labelMembersFrom (members : List (String × Value ι)) (next : Nat) :
    hasUniqueKeysMembers (labelMembersFrom next members).1 = hasUniqueKeysMembers members :=
  match members with
  | [] => rfl
  | (_, v) :: rest =>
      congrArg₂ (· && ·) (hasUniqueKeys_labelFrom v next)
        (hasUniqueKeysMembers_labelMembersFrom rest (v.labelFrom next).2)

end

end Value

/-! ### Objects that describe nodes -/

namespace NodeDocument

/-- The object as a value. -/
def toValue (d : NodeDocument) : Document := .obj d.label d.members

/-- A value that describes a node **is** that description. -/
theorem eq_toValue_of_node? {v : Document} {d : NodeDocument} (h : v.node? = some d) :
    v = d.toValue := by
  cases v with
  | obj label members =>
      rw [Value.node?] at h
      split at h
      · rw [← Option.some.inj h]
        rfl
      · cases h
  | _ => cases h

/-- The labels of the objects in a list come **in the order** of the labels of the list. -/
theorem sublist_labelsItems (items : List Document) :
    ((items.filterMap Value.node?).flatMap fun c => c.toValue.labels).Sublist
      (Value.labelsItems items) := by
  induction items with
  | nil => exact List.Sublist.slnil
  | cons v rest ih =>
      rw [List.filterMap_cons, Value.labelsItems]
      cases hnode : v.node? with
      | none => exact ih.trans (List.sublist_append_right _ _)
      | some c =>
          rw [List.flatMap_cons, ← eq_toValue_of_node? hnode]
          exact (List.Sublist.refl _).append ih

/-- The labels in the children of an object are among those in its members, **each as often**. -/
theorem sublist_labelsMembers (members : List (String × Document)) :
    (((partsOf members).flatMap fun part => part.2.toList).flatMap
      fun c => c.toValue.labels).Sublist (Value.labelsMembers members) := by
  induction members with
  | nil => exact List.Sublist.slnil
  | cons entry rest ih =>
      obtain ⟨key, v⟩ := entry
      have hskip := ih.trans (List.sublist_append_right v.labels _)
      rw [partsOf, Value.labelsMembers]
      split
      · exact hskip
      · rcases ofValue?_cases v with ⟨c, hnode, hpart, -⟩ | ⟨items, rfl, hpart⟩ | ⟨-, hpart, -⟩
        · rw [hpart, eq_toValue_of_node? hnode]
          simpa [Part.toList] using ih
        · simp only [hpart, List.flatMap_cons, List.flatMap_append, Part.toList]
          exact (sublist_labelsItems items).append ih
        · rw [hpart]
          exact hskip

/-- The objects that describe nodes, at all their places, are **among all objects**. -/
theorem subperm_labels (d : NodeDocument) : (d.postOrder.map label).Subperm d.toValue.labels := by
  induction d using induction_children with
  | h d ih =>
      have hbelow : ∀ cs : List NodeDocument, (∀ c ∈ cs, c ∈ d.children) →
          ((cs.flatMap postOrder).map label).Subperm (cs.flatMap fun c => c.toValue.labels) := by
        intro cs
        induction cs with
        | nil => exact fun _ => .refl _
        | cons c cs ihcs =>
            intro hcs
            obtain ⟨hc, hcs⟩ := List.forall_mem_cons.mp hcs
            rw [List.flatMap_cons, List.map_append, List.flatMap_cons]
            exact (ih c hc).append (ihcs hcs)
      have hperm : (d.postOrder.map label).Perm
          (d.label :: (d.children.flatMap postOrder).map label) := by
        rw [postOrder_eq, List.map_append]
        refine List.perm_append_comm.trans (.cons d.label ?_)
        exact ((List.reverse_perm d.children).flatMap_right postOrder).map label
      refine hperm.subperm.trans ((List.subperm_cons d.label).mpr ?_)
      exact (hbelow d.children fun c hc => hc).trans (sublist_labelsMembers d.members).subperm

/-- Keys that are different in a value are different in every object that it holds. -/
theorem Reaches.hasUniqueKeys {root d : NodeDocument} (h : root.Reaches d)
    (hkeys : root.toValue.hasUniqueKeys) : d.toValue.hasUniqueKeys := by
  induction h with
  | refl => exact hkeys
  | tail _ hc ih =>
      obtain ⟨key, v, hmember, -, hv⟩ := mem_children_iff.mp hc
      have hvalue := Value.hasUniqueKeys_of_mem_members (Bool.and_eq_true_iff.mp ih).2 hmember
      rcases hv with hnode | ⟨items, item, rfl, hitem, hnode⟩
      · rwa [← eq_toValue_of_node? hnode]
      · rw [← eq_toValue_of_node? hnode]
        exact Value.hasUniqueKeys_of_mem_items hvalue hitem

/-- In a value without shared objects, no object that describes a node is met **twice**. -/
theorem nodup_labels_postOrder {d : NodeDocument} (h : d.toValue.labels.Nodup) :
    (d.postOrder.map label).Nodup := by
  obtain ⟨labels, hperm, hsublist⟩ := d.subperm_labels
  exact hperm.nodup_iff.mp (h.sublist hsublist)

/-- A document without shared objects is **well-formed** if no object has a key twice. -/
theorem wellFormed_of_nodup_labels {document : Document} (hlabels : document.labels.Nodup)
    (hkeys : document.hasUniqueKeys) {root : NodeDocument} (hroot : document.node? = some root) :
    root.WellFormed := by
  rw [eq_toValue_of_node? hroot] at hlabels hkeys
  refine ⟨.of_nodup_labels (nodup_labels_postOrder hlabels), fun d hd => ?_⟩
  exact of_decide_eq_true (Bool.and_eq_true_iff.mp (hd.hasUniqueKeys hkeys)).1

end NodeDocument

/-- **The document of data is well-formed** if no object has a key twice. -/
theorem wellFormed_of_toDocument {ι : Type} {v : Value ι} (h : v.hasUniqueKeys)
    {root : NodeDocument} (hroot : v.toDocument.node? = some root) : root.WellFormed := by
  refine NodeDocument.wellFormed_of_nodup_labels v.nodup_labels_toDocument ?_ hroot
  rw [Value.toDocument, Value.hasUniqueKeys_labelFrom]
  exact h

end TreeLint
