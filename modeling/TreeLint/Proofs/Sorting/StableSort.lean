import Mathlib.Data.List.Sort

/-!
# The Stable Sort by Keys

The **stable sort** of a list by keys (`stableSort`) puts lesser keys first and leaves items with
one key in their order. It goes well with merging (`mergeBy`), where always the lesser key comes
next and of equal keys the item of the first list: the sort of a list is the merge of the sorts of
its two parts, wherever it is cut.

A merge can be made smaller at both ends. Items of one list that come before, or after, everything
in the other list have their place already (`append_mergeBy`, `mergeBy_append`,
`append_mergeBy_back`, `mergeBy_append_back`).

## Main results

* `stableSort_append`: the sort of a list is the merge of the sorts of its parts.
* `stableSort_flatMap_of_perm`: groups without a common key may be written in any order.
* `filter_stableSort`: taking items out of a list and sorting it commute.
-/

namespace TreeLint.Sorting

variable {α κ : Type} [LinearOrder κ] {key : α → κ}

/-! ### Merging lists -/

/-- Two lists **merged by keys**: of equal keys those of the first list come first. -/
def mergeBy (key : α → κ) (xs ys : List α) : List α := xs.merge ys fun a b => key a ≤ key b

@[simp] theorem nil_mergeBy (ys : List α) : mergeBy key [] ys = ys := List.nil_merge ys

@[simp] theorem mergeBy_nil (xs : List α) : mergeBy key xs [] = xs := List.merge_right xs

/-- Of items with equal keys the one **on the left** comes first. -/
theorem cons_mergeBy_cons_of_le {x y : α} (h : key x ≤ key y) (xs ys : List α) :
    mergeBy key (x :: xs) (y :: ys) = x :: mergeBy key xs (y :: ys) :=
  List.cons_merge_cons_pos _ xs ys (decide_eq_true h)

/-- An item with a smaller key comes first, though **on the right**. -/
theorem cons_mergeBy_cons_of_lt {x y : α} (h : key y < key x) (xs ys : List α) :
    mergeBy key (x :: xs) (y :: ys) = y :: mergeBy key (x :: xs) ys :=
  List.cons_merge_cons_neg _ xs ys (by simpa using h)

/-- Items at the front of the first list that come after no item of the second stay in front. -/
theorem append_mergeBy {front xs ys : List α} (h : ∀ x ∈ front, ∀ y ∈ ys, key x ≤ key y) :
    mergeBy key (front ++ xs) ys = front ++ mergeBy key xs ys := by
  cases ys with
  | nil => simp
  | cons y ys =>
      induction front with
      | nil => rfl
      | cons x front ih =>
          have hx := h x List.mem_cons_self y List.mem_cons_self
          rw [List.cons_append, cons_mergeBy_cons_of_le hx, List.cons_append,
            ih fun z hz => h z (List.mem_cons_of_mem x hz)]

/-- Items at the front of the second list that come before all items of the first stay in front. -/
theorem mergeBy_append {xs front ys : List α} (h : ∀ x ∈ xs, ∀ y ∈ front, key y < key x) :
    mergeBy key xs (front ++ ys) = front ++ mergeBy key xs ys := by
  cases xs with
  | nil => simp
  | cons x xs =>
      induction front with
      | nil => rfl
      | cons y front ih =>
          have hy := h x List.mem_cons_self y List.mem_cons_self
          rw [List.cons_append, cons_mergeBy_cons_of_lt hy, List.cons_append,
            ih fun z hz w hw => h z hz w (List.mem_cons_of_mem y hw)]

/-- An item no greater than any on the right comes **first of all**. -/
theorem cons_mergeBy {x : α} {xs ys : List α} (h : ∀ y ∈ ys, key x ≤ key y) :
    mergeBy key (x :: xs) ys = x :: mergeBy key xs ys := by
  rw [← List.singleton_append, append_mergeBy (by simpa using h), List.singleton_append]

/-- An item less than any on the left comes **first of all**. -/
theorem mergeBy_cons {xs ys : List α} {y : α} (h : ∀ x ∈ xs, key y < key x) :
    mergeBy key xs (y :: ys) = y :: mergeBy key xs ys := by
  rw [← List.singleton_append, mergeBy_append (by simpa using h), List.singleton_append]

/-- Lists of which the second comes before the first are put one after the other. -/
theorem mergeBy_of_lt {xs ys : List α} (h : ∀ x ∈ xs, ∀ y ∈ ys, key y < key x) :
    mergeBy key xs ys = ys ++ xs := by
  rw [← List.append_nil ys, mergeBy_append h, mergeBy_nil, List.append_nil]

/-- Lists of which the first does not come after the second are put one after the other. -/
theorem mergeBy_of_le {xs ys : List α} (h : ∀ x ∈ xs, ∀ y ∈ ys, key x ≤ key y) :
    mergeBy key xs ys = xs ++ ys := by
  rw [← List.append_nil xs, append_mergeBy h, nil_mergeBy, List.append_nil]

/-- Items at the back of the first list that come after all items of the second stay at the back. -/
theorem append_mergeBy_back {xs back ys : List α} (h : ∀ x ∈ back, ∀ y ∈ ys, key y < key x) :
    mergeBy key (xs ++ back) ys = mergeBy key xs ys ++ back := by
  induction xs generalizing ys with
  | nil => rw [List.nil_append, mergeBy_of_lt h, nil_mergeBy]
  | cons x xs ih =>
      induction ys with
      | nil => simp
      | cons y ys ihy =>
          rcases le_or_gt (key x) (key y) with hle | hlt
          · rw [List.cons_append, cons_mergeBy_cons_of_le hle, cons_mergeBy_cons_of_le hle, ih h,
              List.cons_append]
          · rw [List.cons_append, cons_mergeBy_cons_of_lt hlt, cons_mergeBy_cons_of_lt hlt,
              List.cons_append, ← ihy fun z hz w hw => h z hz w (List.mem_cons_of_mem y hw),
              List.cons_append]

/-- Items at the back of the second list that come before no item of the first stay at the back. -/
theorem mergeBy_append_back {xs ys back : List α} (h : ∀ x ∈ xs, ∀ y ∈ back, key x ≤ key y) :
    mergeBy key xs (ys ++ back) = mergeBy key xs ys ++ back := by
  induction xs generalizing ys with
  | nil => simp
  | cons x xs ih =>
      have hxs : ∀ z ∈ xs, ∀ y ∈ back, key z ≤ key y := fun z hz => h z (List.mem_cons_of_mem x hz)
      induction ys with
      | nil => rw [List.nil_append, mergeBy_of_le h, mergeBy_nil]
      | cons y ys ihy =>
          rcases le_or_gt (key x) (key y) with hle | hlt
          · rw [List.cons_append, cons_mergeBy_cons_of_le hle, cons_mergeBy_cons_of_le hle,
              ← List.cons_append, ih hxs, List.cons_append]
          · rw [List.cons_append, cons_mergeBy_cons_of_lt hlt, cons_mergeBy_cons_of_lt hlt, ihy,
              List.cons_append]

/-- Lists without a common key are merged the same **either way**. -/
theorem mergeBy_comm {xs ys : List α} (h : ∀ x ∈ xs, ∀ y ∈ ys, key x ≠ key y) :
    mergeBy key xs ys = mergeBy key ys xs := by
  induction xs generalizing ys with
  | nil => simp
  | cons x xs ih =>
      have hxs : ∀ z ∈ xs, ∀ y ∈ ys, key z ≠ key y := fun z hz => h z (List.mem_cons_of_mem x hz)
      induction ys with
      | nil => simp
      | cons y ys ihy =>
          rcases (h x List.mem_cons_self y List.mem_cons_self).lt_or_gt with hlt | hlt
          · rw [cons_mergeBy_cons_of_le hlt.le, cons_mergeBy_cons_of_lt hlt, ih hxs]
          · rw [cons_mergeBy_cons_of_lt hlt, cons_mergeBy_cons_of_le hlt.le,
              ihy (fun z hz w hw => h z hz w (List.mem_cons_of_mem y hw))
                fun z hz w hw => hxs z hz w (List.mem_cons_of_mem y hw)]

/-! ### Sorting lists -/

/-- The **stable sort** of a list by keys. -/
def stableSort (key : α → κ) (xs : List α) : List α := xs.insertionSort fun a b => key a ≤ key b

@[simp] theorem mem_stableSort {xs : List α} {x : α} : x ∈ stableSort key xs ↔ x ∈ xs :=
  List.mem_insertionSort _

/-- What is sorted is **in order**. -/
theorem pairwise_stableSort (xs : List α) :
    (stableSort key xs).Pairwise fun a b => key a ≤ key b := by
  have : Std.Total fun a b : α => key a ≤ key b := ⟨fun a b => le_total (key a) (key b)⟩
  have : IsTrans α fun a b => key a ≤ key b := ⟨fun a b c => le_trans⟩
  exact List.pairwise_insertionSort _ xs

/-- What is in order is **not changed** by sorting. -/
theorem stableSort_of_pairwise {xs : List α} (h : xs.Pairwise fun a b => key a ≤ key b) :
    stableSort key xs = xs :=
  h.insertionSort_eq

/-- Sorting images by keys is sorting by **the keys of the images**. -/
theorem stableSort_map {β : Type} {key' : β → κ} {f : β → α} {xs : List β}
    (h : ∀ x ∈ xs, key (f x) = key' x) :
    stableSort key (xs.map f) = (stableSort key' xs).map f :=
  (List.map_insertionSort _ _ f xs fun a ha b hb => by rw [h a ha, h b hb]).symm

/-- Putting an item into a merged list is putting it into the first of the two lists. -/
theorem orderedInsert_mergeBy (x : α) (xs ys : List α) :
    (mergeBy key xs ys).orderedInsert (fun a b => key a ≤ key b) x =
      mergeBy key (xs.orderedInsert (fun a b => key a ≤ key b) x) ys := by
  induction xs generalizing ys with
  | nil =>
      induction ys with
      | nil => simp
      | cons y ys ih =>
          rcases le_or_gt (key x) (key y) with hle | hlt
          · simp [hle, cons_mergeBy_cons_of_le]
          · simpa [not_le.mpr hlt, cons_mergeBy_cons_of_lt hlt] using ih
  | cons a xs ih =>
      induction ys with
      | nil => simp
      | cons b ys ihy =>
          rcases le_or_gt (key a) (key b) with hle | hlt
          · rw [cons_mergeBy_cons_of_le hle]
            rcases le_or_gt (key x) (key a) with hx | hx
            · simp [hx, cons_mergeBy_cons_of_le hle, cons_mergeBy_cons_of_le (hx.trans hle)]
            · simp [not_le.mpr hx, cons_mergeBy_cons_of_le hle, ih]
          · rw [cons_mergeBy_cons_of_lt hlt]
            rcases le_or_gt (key x) (key a) with hx | hx
            · rw [List.orderedInsert_cons, List.orderedInsert_cons, if_pos hx]
              rw [List.orderedInsert_cons, if_pos hx] at ihy
              rcases le_or_gt (key x) (key b) with hxb | hxb
              · rw [if_pos hxb, cons_mergeBy_cons_of_le hxb, cons_mergeBy_cons_of_lt hlt]
              · rw [if_neg (not_le.mpr hxb), cons_mergeBy_cons_of_lt hxb, ihy]
            · have hxb := hlt.trans hx
              rw [List.orderedInsert_cons, List.orderedInsert_cons, if_neg (not_le.mpr hx),
                if_neg (not_le.mpr hxb), cons_mergeBy_cons_of_lt hlt, ihy, List.orderedInsert_cons,
                if_neg (not_le.mpr hx)]

/-- **Merging sorts**: the sort of a list is that of its two parts, merged. -/
theorem stableSort_append (xs ys : List α) :
    stableSort key (xs ++ ys) = mergeBy key (stableSort key xs) (stableSort key ys) := by
  induction xs with
  | nil => simp [stableSort]
  | cons x xs ih =>
      simp only [stableSort, List.cons_append, List.insertionSort_cons] at ih ⊢
      rw [ih, orderedInsert_mergeBy]

/-- The order of groups **without a common key** does not matter to the sort. -/
theorem stableSort_flatMap_of_perm {γ : Type} {items : γ → List α} {xs ys : List γ}
    (h : xs.Perm ys)
    (hapart : xs.Pairwise fun a b => ∀ x ∈ items a, ∀ y ∈ items b, key x ≠ key y) :
    stableSort key (xs.flatMap items) = stableSort key (ys.flatMap items) := by
  induction h with
  | nil => rfl
  | cons a _ ih =>
      rw [List.flatMap_cons, List.flatMap_cons, stableSort_append, stableSort_append,
        ih (List.pairwise_cons.mp hapart).2]
  | swap a b xs =>
      have hba := (List.pairwise_cons.mp hapart).1 a List.mem_cons_self
      have hcomm : mergeBy key (stableSort key (items b)) (stableSort key (items a)) =
          mergeBy key (stableSort key (items a)) (stableSort key (items b)) :=
        mergeBy_comm fun x hx y hy => hba x (mem_stableSort.mp hx) y (mem_stableSort.mp hy)
      simp only [List.flatMap_cons, ← List.append_assoc]
      rw [stableSort_append, stableSort_append (items b), hcomm, ← stableSort_append,
        ← stableSort_append]
  | trans hxy _ ih ih' =>
      have hapart' := (hxy.pairwise_iff fun hab x hx y hy => (hab y hy x hx).symm).mp hapart
      exact (ih hapart).trans (ih' hapart')

/-- The sort of a list that goes strictly down is the list turned round. -/
theorem stableSort_of_descending {xs : List α} (h : xs.Pairwise fun a b => key b < key a) :
    stableSort key xs = xs.reverse := by
  induction xs with
  | nil => rfl
  | cons x xs ih =>
      obtain ⟨hx, hxs⟩ := List.pairwise_cons.mp h
      have hsingle : stableSort key [x] = [x] := rfl
      rw [← List.singleton_append, stableSort_append, ih hxs, hsingle, List.reverse_append]
      exact mergeBy_of_lt (by simpa using hx)

/-- **Sorting is stable**: what is left of a sorted list after some items are taken out is the sort
of what is left of the list. -/
theorem filter_stableSort (p : α → Bool) (xs : List α) :
    (stableSort key xs).filter p = stableSort key (xs.filter p) := by
  have hinsert : ∀ (x : α) (ys : List α), (ys.Pairwise fun a b => key a ≤ key b) →
      (ys.orderedInsert (fun a b => key a ≤ key b) x).filter p =
        if p x then (ys.filter p).orderedInsert (fun a b => key a ≤ key b) x else ys.filter p := by
    intro x ys hys
    induction ys with
    | nil => simp [List.filter_cons]
    | cons y ys ih =>
        obtain ⟨hy, hys⟩ := List.pairwise_cons.mp hys
        rw [List.orderedInsert_cons]
        split
        · next hle =>
          -- the item comes before all that are left
          have hall : ∀ z ∈ (y :: ys).filter p, key x ≤ key z := by
            intro z hz
            rcases List.mem_cons.mp (List.mem_filter.mp hz).1 with rfl | hmem
            · exact hle
            · exact hle.trans (hy z hmem)
          rw [List.filter_cons]
          split
          · cases hrest : (y :: ys).filter p with
            | nil => rfl
            | cons z zs =>
                rw [List.orderedInsert_cons_of_le]
                exact hall z (hrest ▸ List.mem_cons_self)
          · rfl
        · next hle =>
          rw [List.filter_cons, ih hys, List.filter_cons]
          by_cases hpx : p x = true <;> by_cases hpy : p y = true <;> simp [hpx, hpy, hle]
  induction xs with
  | nil => rfl
  | cons x xs ih =>
      have hstep : stableSort key (x :: xs) =
          (stableSort key xs).orderedInsert (fun a b => key a ≤ key b) x := rfl
      rw [hstep, hinsert x _ (pairwise_stableSort xs), ih, List.filter_cons]
      split <;> rfl

end TreeLint.Sorting
