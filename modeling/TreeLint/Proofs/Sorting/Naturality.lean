import Mathlib.Data.List.Forall2
import TreeLint.Proofs.Fallible
import TreeLint.Proofs.Sorting.Stability

/-!
# Sorting Sees Comparisons Only

Whether the comparison of two items is an order or fails now and then, `sortBy?` learns of the items
nothing but the outcomes of comparisons. So sorting the images of items is sorting the items and
taking the images (`sortBy?_map`), fault for fault. This goes through all parts of the sort, one by
one: searching, merging, cutting a list into runs, and the stack of runs.

Two lists whose items are related, such that related items compare alike, are both images of one
list of related pairs. They are **sorted alike** (`sortBy?_forall₂`).

## Main results

* `mergeUp_map`, `mergeDown_map`, `merge_map`: merging images.
* `sortBy?_map`: sorting images.
* `sortBy?_forall₂`, `stableSort_forall₂`: sorting two lists whose items compare alike.
-/

namespace TreeLint

namespace Sorting

variable {α β ε : Type} {f : α → β}

/-! ### Searching -/

section Searching

variable {p : α → Except ε Bool} {q : β → Except ε Bool} (h : ∀ a, q (f a) = p a)

include h

/-- A test at an index commutes with **renaming**. -/
theorem testAt_map (xs : Array α) (i : ℕ) : testAt q (xs.map f) i = testAt p xs i := by
  rw [testAt, testAt, Array.getElem?_map]
  cases xs[i]? with
  | none => rfl
  | some x => exact h x

/-- Bisecting commutes with **renaming**. -/
theorem bisect_map (xs : Array α) (lo hi : ℕ) :
    bisect q (xs.map f) lo hi = bisect p xs lo hi := by
  fun_induction bisect p xs lo hi with
  | case1 lo hi hlt mid e htest =>
      rw [bisect, dif_pos hlt]
      simp only [testAt_map h, mid, htest]
  | case2 lo hi hlt mid htest ih =>
      rw [bisect, dif_pos hlt]
      simp only [testAt_map h, mid, htest]
      exact ih
  | case3 lo hi hlt mid htest ih =>
      rw [bisect, dif_pos hlt]
      simp only [testAt_map h, mid, htest]
      exact ih
  | case4 lo hi hlt => rw [bisect, dif_neg hlt]

/-- Strides up are **the same** on renamed items. -/
theorem strideUp_map (xs : Array α) (start limit last stride : ℕ) :
    strideUp q (xs.map f) start limit last stride = strideUp p xs start limit last stride := by
  fun_induction strideUp p xs start limit last stride with
  | case1 last stride hlt e htest =>
      rw [strideUp, dif_pos hlt]
      simp only [testAt_map h, htest]
  | case2 last stride hlt htest ih =>
      rw [strideUp, dif_pos hlt]
      simp only [testAt_map h, htest]
      exact ih
  | case3 last stride hlt htest =>
      rw [strideUp, dif_pos hlt]
      simp only [testAt_map h, htest]
  | case4 last stride hlt => rw [strideUp, dif_neg hlt]

/-- Strides down are **the same** on renamed items. -/
theorem strideDown_map (xs : Array α) (start limit last stride : ℕ) :
    strideDown q (xs.map f) start limit last stride = strideDown p xs start limit last stride := by
  fun_induction strideDown p xs start limit last stride with
  | case1 last stride hlt e htest =>
      rw [strideDown, dif_pos hlt]
      simp only [testAt_map h, htest]
  | case2 last stride hlt htest =>
      rw [strideDown, dif_pos hlt]
      simp only [testAt_map h, htest]
  | case3 last stride hlt htest ih =>
      rw [strideDown, dif_pos hlt]
      simp only [testAt_map h, htest]
      exact ih
  | case4 last stride hlt => rw [strideDown, dif_neg hlt]

/-- Galloping commutes with **renaming**. -/
theorem gallop_map (xs : Array α) (lo n hint : ℕ) :
    gallop q (xs.map f) lo n hint = gallop p xs lo n hint := by
  simp only [gallop, testAt_map h, strideUp_map h, strideDown_map h, bisect_map h]

end Searching

variable {before : α → α → Except ε Bool} {before' : β → β → Except ε Bool}

/-! ### Merging -/

/-- The last of renamed items are the last items **renamed**. -/
theorem lastItems_map (f : α → β) (xs : Array α) (n : ℕ) :
    lastItems (xs.map f) n = (lastItems xs n).map f := by
  simp [lastItems]

section Comparing

variable (h : ∀ a b, before' (f a) (f b) = before a b)

include h

/-- Galloping past the items not after one commutes with **renaming**. -/
theorem gallop_not_before_map (y : α) (xs : Array α) (lo n hint : ℕ) :
    gallop (fun z => (before' (f y) z).map (!·)) (xs.map f) lo n hint =
      gallop (fun z => (before y z).map (!·)) xs lo n hint :=
  gallop_map (fun z => by rw [h]) xs lo n hint

/-- Galloping past the items before one commutes with **renaming**. -/
theorem gallop_before_map (x : α) (xs : Array α) (lo n hint : ℕ) :
    gallop (before' · (f x)) (xs.map f) lo n hint = gallop (before · x) xs lo n hint :=
  gallop_map (fun z => h z x) xs lo n hint

/-- Merging images **from the front**. -/
theorem mergeUp_map (a b : Array α) (pace : Pace) (patience na nb : ℕ) (out : Array α) :
    mergeUp before' (a.map f) (b.map f) pace patience na nb (out.map f) =
      (fun r => (r.1.map f, r.2)) <$> mergeUp before a b pace patience na nb out := by
  fun_induction mergeUp before a b pace patience na nb out with
  | case1 pace patience na nb out hend =>
      rw [mergeUp, dif_pos hend]
      simp [lastItems_map]
  | case2 patience na nb out hmore x y hy hx leftWins rightWins e he =>
      rw [mergeUp, dif_neg hmore]
      simp [hx, hy, h, he]
  | case3 patience na nb out hmore x y hy hx leftWins rightWins he ih =>
      rw [mergeUp, dif_neg hmore]
      simpa [hx, hy, h, he] using ih
  | case4 patience na nb out hmore x y hy hx leftWins rightWins he ih =>
      rw [mergeUp, dif_neg hmore]
      simpa [hx, hy, h, he] using ih
  | case5 patience na nb out hmore x y hy hx e he =>
      rw [mergeUp, dif_neg hmore]
      simp [hx, hy, gallop_not_before_map h, he]
  | case6 patience na nb out hmore x y hy hx left hleft out' hend =>
      rw [mergeUp, dif_neg hmore]
      simp [hx, hy, gallop_not_before_map h, hleft, hend, lastItems_map, out']
  | case7 patience na nb out hmore x y hy hx left hleft out' hend out'' hnone =>
      rw [mergeUp, dif_neg hmore]
      simp [hx, hy, gallop_not_before_map h, hleft, hend, lastItems_map, out', out'', hnone]
  | case8 patience na nb out hmore x y hy hx left hleft hend z hz e he =>
      rw [mergeUp, dif_neg hmore]
      simp [hx, hy, gallop_not_before_map h, gallop_before_map h, hleft, hend, hz, he]
  | case9 patience na nb out hmore x y hy hx left hleft out' hend out'' z hz right hright out3
      hend' =>
      rw [mergeUp, dif_neg hmore]
      simp [hx, hy, gallop_not_before_map h, gallop_before_map h, hleft, hend, hz, hright, hend',
        out', out'', out3, lastItems_map]
  | case10 patience na nb out hmore x y hy hx left hleft out' hend out'' z hz right hright out3
      hend' pace next hpace next' ih =>
      rw [mergeUp, dif_neg hmore]
      simpa [hx, hy, gallop_not_before_map h, gallop_before_map h, hleft, hend, hz, hright, hend',
        out', out'', out3, lastItems_map, hpace, next'] using ih
  | case11 pace patience na nb out hmore hnone =>
      rw [mergeUp, dif_neg hmore]
      split
      · next x' y' hx' hy' =>
        simp only [Array.size_map, Array.getElem?_map, Option.map_eq_some_iff] at hx' hy'
        obtain ⟨x, hx, -⟩ := hx'
        obtain ⟨y, hy, -⟩ := hy'
        exact (hnone x y hx hy).elim
      · rfl

/-- Merging images **from the back**. -/
theorem mergeDown_map (a b : Array α) (pace : Pace) (patience na nb : ℕ) (out : List α) :
    mergeDown before' (a.map f) (b.map f) pace patience na nb (out.map f) =
      (fun r => (r.1.map f, r.2)) <$> mergeDown before a b pace patience na nb out := by
  fun_induction mergeDown before a b pace patience na nb out with
  | case1 pace patience na nb out hend =>
      rw [mergeDown, dif_pos hend]
      simp
  | case2 patience na nb out hmore x y hy hx leftWins rightWins e he =>
      rw [mergeDown, dif_neg hmore]
      simp [hx, hy, h, he]
  | case3 patience na nb out hmore x y hy hx leftWins rightWins he ih =>
      rw [mergeDown, dif_neg hmore]
      simpa [hx, hy, h, he] using ih
  | case4 patience na nb out hmore x y hy hx leftWins rightWins he ih =>
      rw [mergeDown, dif_neg hmore]
      simpa [hx, hy, h, he] using ih
  | case5 patience na nb out hmore x y hy hx e he =>
      rw [mergeDown, dif_neg hmore]
      simp [hx, hy, gallop_not_before_map h, he]
  | case6 patience na nb out hmore x y hy hx hleft out' =>
      rw [mergeDown, dif_neg hmore]
      simp [hx, hy, gallop_not_before_map h, hleft, out']
  | case7 patience na nb out hmore x y hy hx left hleft out' hne out'' hone =>
      rw [mergeDown, dif_neg hmore]
      rw [hone] at hy
      simp [hx, hy, gallop_not_before_map h, hleft, hne, out', out'', hone]
  | case8 patience na nb out hmore x y hy hx left hleft out' hne out'' hzero => omega
  | case9 patience na nb out hmore x y hy hx left hleft out' hne out'' hnone hone hzero =>
      rw [mergeDown, dif_neg hmore]
      simp [hx, hy, gallop_not_before_map h, hleft, hne, out', out'', hnone]
  | case10 patience na nb out hmore x y hy hx left hleft hne z hz e he hone hzero =>
      rw [mergeDown, dif_neg hmore]
      simp [hx, hy, gallop_not_before_map h, gallop_before_map h, hleft, hne, hz, he]
  | case11 patience na nb out hmore x y hy hx left hleft out' hne out'' z hz right hright out3 hend
      hone hzero =>
      rw [mergeDown, dif_neg hmore]
      simp [hx, hy, gallop_not_before_map h, gallop_before_map h, hleft, hne, hz, hright, hend,
        out', out'', out3]
  | case12 patience na nb out hmore x y hy hx left hleft out' hne out'' z hz right hright out3 hend
      pace next hpace next' hone hzero ih =>
      rw [mergeDown, dif_neg hmore]
      simpa [hx, hy, gallop_not_before_map h, gallop_before_map h, hleft, hne, hz, hright, hend,
        out', out'', out3, hpace, next'] using ih
  | case13 pace patience na nb out hmore hnone =>
      rw [mergeDown, dif_neg hmore]
      split
      · next x' y' hx' hy' =>
        simp only [Array.getElem?_map, Option.map_eq_some_iff] at hx' hy'
        obtain ⟨x, hx, -⟩ := hx'
        obtain ⟨y, hy, -⟩ := hy'
        exact (hnone x y hx hy).elim
      · rfl

/-- Merging images is **merging and taking the images**. -/
theorem merge_map (patience : ℕ) (a b : Array α) :
    merge before' patience (a.map f) (b.map f) =
      (fun r => (r.1.map f, r.2)) <$> merge before patience a b := by
  rw [merge, merge, Array.getElem?_map, Array.getElem?_map, Array.size_map]
  cases hfirst : b[0]? with
  | none => simp
  | some first =>
      cases hlast : a[a.size - 1]? with
      | none => simp
      | some last =>
          simp only [Option.map_some, gallop_not_before_map h, gallop_before_map h, Array.size_map,
            map_bind]
          refine bind_congr fun placed => ?_
          split
          · simp
          · simp only [map_bind]
            refine bind_congr fun nb => ?_
            split
            · simp
            · split
              · have hup := mergeUp_map h (a.extract placed a.size) (b.extract 0 nb)
                  (.stepping 0 0) patience (a.size - placed) (nb - 1) #[first]
                simp only [Array.map_extract, List.map_toArray, List.map_cons, List.map_nil] at hup
                simp [hup]
              · have hdown := mergeDown_map h (a.extract placed a.size) (b.extract 0 nb)
                  (.stepping 0 0) patience (a.size - placed - 1) nb [last]
                simp only [Array.map_extract, List.map_cons, List.map_nil] at hdown
                simp [hdown]

/-! ### Runs -/

/-- Runs are **as long** on renamed items. -/
theorem countRun_map (descending : Bool) (previous : α) (xs : List α) :
    countRun before' descending (f previous) (xs.map f) =
      countRun before descending previous xs := by
  induction xs generalizing previous with
  | nil => rfl
  | cons x xs ih => simp only [List.map_cons, countRun, h, ih]

/-- The first run of renamed items is the first run **renamed**. -/
theorem frontRun_map (xs : List α) :
    frontRun before' (xs.map f) = List.map f <$> frontRun before xs := by
  match xs with
  | [] => rfl
  | [x] => rfl
  | x :: y :: rest =>
      simp only [List.map_cons, frontRun, h, countRun_map h, map_bind]
      refine bind_congr fun descending => bind_congr fun count => ?_
      cases descending <;> simp

/-- Inserting commutes with **renaming**. -/
theorem insertSorted_map (sorted : Array α) (x : α) :
    insertSorted before' (sorted.map f) (f x) = Array.map f <$> insertSorted before sorted x := by
  have hbisect : bisect (fun y => (before' (f x) y).map (!·)) (sorted.map f) 0 sorted.size =
      bisect (fun y => (before x y).map (!·)) sorted 0 sorted.size :=
    bisect_map (fun y => by rw [h]) sorted 0 sorted.size
  simp [insertSorted, hbisect]

/-- Inserting one item after another commutes with **renaming**. -/
theorem foldlM_insertSorted_map (xs : List α) (sorted : Array α) :
    (xs.map f).foldlM (insertSorted before') (sorted.map f) =
      Array.map f <$> xs.foldlM (insertSorted before) sorted := by
  induction xs generalizing sorted with
  | nil => simp
  | cons x xs ih => simp [insertSorted_map h, ih]

/-- The next run of renamed items is the next run **renamed**. -/
theorem nextRun_map (least : ℕ) (xs : List α) :
    nextRun before' least (xs.map f) = Array.map f <$> nextRun before least xs := by
  simp only [nextRun, frontRun_map h, map_bind, bind_map_left]
  refine bind_congr fun run => ?_
  simpa using foldlM_insertSorted_map h ((xs.take least).drop run.length) run.toArray

end Comparing

/-! ### The stack of runs -/

/-- The image of a run that waits to be merged. -/
def Pending.map (f : α → β) (run : Pending α) : Pending β := { run with items := run.items.map f }

/-- The image of a stack of runs. -/
def Stack.map (f : α → β) (s : Stack α) : Stack β := { s with runs := s.runs.map (Pending.map f) }

section Comparing

variable (h : ∀ a b, before' (f a) (f b) = before a b)

include h

/-- Settling pending runs commutes with **renaming**. -/
theorem settle_map (power patience : ℕ) (runs : List (Pending α)) :
    settle before' power patience (runs.map (Pending.map f)) =
      Stack.map f <$> settle before power patience runs := by
  fun_induction settle before power patience runs with
  | case1 patience last previous rest hpower e he =>
      rw [List.map_cons, List.map_cons, settle]
      simp [Pending.map, hpower, merge_map h, he]
  | case2 patience last previous rest hpower items patience' hitems ih =>
      rw [List.map_cons, List.map_cons, settle]
      simpa [Pending.map, hpower, merge_map h, hitems] using ih
  | case3 patience last previous rest hpower =>
      rw [List.map_cons, List.map_cons, settle]
      simp [Pending.map, hpower, Stack.map]
  | case4 => simp [settle, Pending.map, Stack.map]
  | case5 => simp [settle, Stack.map]

/-- Pushing a run commutes with **renaming**. -/
theorem push_map (n start : ℕ) (items : Array α) (s : Stack α) :
    (s.map f).push before' n start (items.map f) = Stack.map f <$> s.push before n start items := by
  obtain ⟨runs, patience⟩ := s
  cases runs with
  | nil => simp [Stack.push, Stack.map, Pending.map, settle]
  | cons last rest =>
      have hsettle := fun power => settle_map h power patience (last :: rest)
      rw [List.map_cons] at hsettle
      simp only [Stack.push, Stack.map, List.map_cons, hsettle, map_bind, bind_map_left]
      simp [Stack.map, Pending.boundary, Pending.map]

/-- Merging all pending runs commutes with **renaming**. -/
theorem mergeAll_map (patience : ℕ) (runs : List (Pending α)) :
    mergeAll before' patience (runs.map (Pending.map f)) =
      List.map f <$> mergeAll before patience runs := by
  fun_induction mergeAll before patience runs with
  | case1 => simp [mergeAll]
  | case2 => simp [mergeAll, Pending.map]
  | case3 => simp [mergeAll, Pending.map, merge_map h]
  | case4 patience last middle first rest hlt e he =>
      rw [List.map_cons, List.map_cons, List.map_cons, mergeAll]
      simp [Pending.map, hlt, merge_map h, he]
  | case5 patience last middle first rest hlt items patience' hitems ih =>
      rw [List.map_cons, List.map_cons, List.map_cons, mergeAll]
      simpa [Pending.map, hlt, merge_map h, hitems] using ih
  | case6 patience last middle first rest hlt e he =>
      rw [List.map_cons, List.map_cons, List.map_cons, mergeAll]
      simp [Pending.map, hlt, merge_map h, he]
  | case7 patience last middle first rest hlt items patience' hitems ih =>
      rw [List.map_cons, List.map_cons, List.map_cons, mergeAll]
      simpa [Pending.map, hlt, merge_map h, hitems] using ih

/-- Sorting from some runs on commutes with **renaming**. -/
theorem sortFrom_map (n start : ℕ) (s : Stack α) (xs : List α) :
    sortFrom before' n start (s.map f) (xs.map f) =
      List.map f <$> sortFrom before n start s xs := by
  fun_induction sortFrom before n start s xs with
  | case1 start s =>
      rw [List.map_nil, sortFrom]
      exact mergeAll_map h s.patience s.runs
  | case2 start s x rest e he =>
      have hrun := nextRun_map h (leastRun false n) (x :: rest)
      rw [List.map_cons] at hrun ⊢
      rw [sortFrom]
      simp [hrun, he]
  | case3 start s x rest run he e he' =>
      have hrun := nextRun_map h (leastRun false n) (x :: rest)
      rw [List.map_cons] at hrun ⊢
      rw [sortFrom]
      simp [hrun, he, push_map h, he']
  | case4 start s x rest run he s' he' ih =>
      have hrun := nextRun_map h (leastRun false n) (x :: rest)
      rw [List.map_cons] at hrun ⊢
      rw [sortFrom]
      simpa [hrun, he, push_map h, he'] using ih

end Comparing

end Sorting

section Sorting

variable {α β ε : Type} {before : α → α → Except ε Bool} {before' : β → β → Except ε Bool}

/-- Sorting images is **sorting and taking the images**. -/
theorem sortBy?_map {f : α → β} (h : ∀ a b, before' (f a) (f b) = before a b) (xs : List α) :
    sortBy? before' (xs.map f) = List.map f <$> sortBy? before xs := by
  simpa [sortBy?, Sorting.Stack.map] using Sorting.sortFrom_map h xs.length 0 {} xs

/-- Related lists are the two sides of one list of related pairs. -/
theorem exists_pairs {R : α → β → Prop} {xs : List α} {ys : List β} (h : List.Forall₂ R xs ys) :
    ∃ ps : List { p : α × β // R p.1 p.2 },
      xs = ps.map (fun p => p.1.1) ∧ ys = ps.map (fun p => p.1.2) := by
  induction h with
  | nil => exact ⟨[], rfl, rfl⟩
  | @cons x y xs ys hxy _ ih =>
      obtain ⟨ps, rfl, rfl⟩ := ih
      exact ⟨⟨(x, y), hxy⟩ :: ps, rfl, rfl⟩

/-- Pairs of related items make **related lists**. -/
theorem forall₂_of_pairs {R : α → β → Prop} (ps : List { p : α × β // R p.1 p.2 }) :
    List.Forall₂ R (ps.map fun p => p.1.1) (ps.map fun p => p.1.2) := by
  rw [List.forall₂_map_left_iff, List.forall₂_map_right_iff, List.forall₂_same]
  exact fun p _ => p.2

/-- Lists of related items, where related items **compare alike**, are sorted alike. -/
theorem sortBy?_forall₂ {R : α → β → Prop}
    (h : ∀ a a' b b', R a a' → R b b' → before a b = before' a' b') {xs : List α} {ys : List β}
    (hxs : List.Forall₂ R xs ys) :
    Agrees (List.Forall₂ R) (sortBy? before xs) (sortBy? before' ys) := by
  obtain ⟨ps, rfl, rfl⟩ := exists_pairs hxs
  let compare (p q : { p : α × β // R p.1 p.2 }) : Except ε Bool := before p.1.1 q.1.1
  have hleft : sortBy? before (ps.map fun p => p.1.1) =
      List.map (fun p => p.1.1) <$> sortBy? compare ps := sortBy?_map (fun _ _ => rfl) ps
  have hright : sortBy? before' (ps.map fun p => p.1.2) =
      List.map (fun p => p.1.2) <$> sortBy? compare ps :=
    sortBy?_map (fun p q => (h _ _ _ _ p.2 q.2).symm) ps
  rw [hleft, hright]
  cases sortBy? compare ps with
  | error e => exact .error e
  | ok qs => exact .ok (forall₂_of_pairs qs)

/-- Lists of related items, where related items have **one key**, have related stable sorts. -/
theorem stableSort_forall₂ {κ : Type} [LinearOrder κ] {R : α → β → Prop} {key : α → κ}
    {key' : β → κ} (hkey : ∀ a b, R a b → key a = key' b) {xs : List α} {ys : List β}
    (hxs : List.Forall₂ R xs ys) :
    List.Forall₂ R (Sorting.stableSort key xs) (Sorting.stableSort key' ys) := by
  obtain ⟨ps, rfl, rfl⟩ := exists_pairs hxs
  let pairKey (p : { p : α × β // R p.1 p.2 }) : κ := key p.1.1
  have hleft : Sorting.stableSort key (ps.map fun p => p.1.1) =
      (Sorting.stableSort pairKey ps).map fun p => p.1.1 := Sorting.stableSort_map fun _ _ => rfl
  have hright : Sorting.stableSort key' (ps.map fun p => p.1.2) =
      (Sorting.stableSort pairKey ps).map fun p => p.1.2 :=
    Sorting.stableSort_map fun p _ => (hkey _ _ p.2).symm
  rw [hleft, hright]
  exact forall₂_of_pairs _

end Sorting

end TreeLint
