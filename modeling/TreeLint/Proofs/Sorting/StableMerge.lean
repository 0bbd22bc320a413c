import TreeLint.Proofs.Sorting.Merging
import TreeLint.Proofs.Sorting.Searching
import TreeLint.Proofs.Sorting.StableSort

/-!
# Runs Are Merged by Keys

Where the comparison of items follows the order of their **keys** (`Follows`), merging two
ascending runs has one outcome, `mergeBy`: always the item with the lesser key next, and of equal
keys the item of the earlier run. Stepping, galloping and the end at which the merge works show
only in the number of comparisons.

Each step of the method takes items out of the merge that have their place already: one item when it
steps, a stretch when it gallops. What it still has to do is the merge by keys of what is left.

## Main results

* `exists_mergeUp`, `exists_mergeDown`: merging from either end merges by keys what is left of the
  runs.
* `exists_merge`: two runs merged are merged by keys.
-/

namespace TreeLint

namespace Sorting

variable {α κ ε : Type} [LinearOrder κ] {key : α → κ}

/-! ### Comparing by keys -/

/-- Comparisons of items **follow their keys**. -/
def Follows (before : α → α → Except ε Bool) (key : α → κ) (items : List α) : Prop :=
  ∀ x ∈ items, ∀ y ∈ items, before x y = .ok (decide (key x < key y))

/-- An array whose keys never go down. -/
def Ascending (key : α → κ) (xs : Array α) : Prop := xs.toList.Pairwise fun a b => key a ≤ key b

/-- A **run**: some of the items, in ascending order. -/
structure Run (key : α → κ) (items : List α) (xs : Array α) : Prop where
  mem : ∀ z ∈ xs, z ∈ items
  ascending : Ascending key xs

variable {before : α → α → Except ε Bool} {items : List α} {a b : Array α}

/-- Items of two runs are compared **by their keys**. -/
theorem Follows.of_getElem? (h : Follows before key items) (ha : Run key items a)
    (hb : Run key items b) {i j : ℕ} {x y : α} (hx : a[i]? = some x) (hy : b[j]? = some y) :
    before y x = .ok (decide (key y < key x)) :=
  h y (hb.mem y (Array.mem_of_getElem? hy)) x (ha.mem x (Array.mem_of_getElem? hx))

/-- A stretch of an ascending array is **ascending**. -/
theorem Ascending.stretch {xs : Array α} (h : Ascending key xs) (lo n : ℕ) :
    (stretch xs lo n).Pairwise fun a b => key a ≤ key b :=
  List.Pairwise.sublist ((List.take_sublist _ _).trans (List.drop_sublist _ _)) h

section Search

variable {xs : Array α} {y : α}

/-- That an item is not after another is told **by their keys**. -/
theorem Follows.not_before (h : Follows before key items) (hxs : ∀ z ∈ xs, z ∈ items)
    (hy : y ∈ items) : ∀ z ∈ xs, (before y z).map (!·) = .ok (decide (key z ≤ key y)) := by
  intro z hz
  simp [h y hy z (hxs z hz), Except.map, ← not_lt]

/-- Among ascending keys, those up to a given one stand in front. -/
theorem pairwise_decide_le {zs : List α} (h : zs.Pairwise fun a b => key a ≤ key b) (y : α) :
    zs.Pairwise fun a b => decide (key b ≤ key y) = true → decide (key a ≤ key y) = true :=
  h.imp fun hab hb => decide_eq_true (hab.trans (of_decide_eq_true hb))

/-- Galloping for the place of an item of a later run: what is before that place does not come after
the item. -/
theorem exists_gallop_not_before (h : Follows before key items) (hxs : Run key items xs)
    (hy : y ∈ items) {lo n hint : ℕ} (hsize : lo + n ≤ xs.size)
    (hhint : hint < n ∨ n = 0 ∧ hint = 0 ∧ xs.size ≤ lo) :
    ∃ front rest, stretch xs lo n = front ++ rest ∧ (∀ z ∈ front, key z ≤ key y) ∧
      (∀ z ∈ rest, key y < key z) ∧
      gallop (fun z => (before y z).map (!·)) xs lo n hint = .ok front.length := by
  obtain ⟨front, rest, hsplit, hfront, hrest, hgallop⟩ := exists_split_of_gallop
    (h.not_before hxs.mem hy) hsize (pairwise_decide_le (hxs.ascending.stretch lo n) y) hhint
  exact ⟨front, rest, hsplit, fun z hz => of_decide_eq_true (hfront z hz),
    fun z hz => not_le.mp (of_decide_eq_false (hrest z hz)), hgallop⟩

/-- Galloping for the place of an item of an earlier run: the items up to there come before it. -/
theorem exists_gallop_before (h : Follows before key items) (hxs : Run key items xs) {x : α}
    (hx : x ∈ items) {lo n hint : ℕ} (hsize : lo + n ≤ xs.size)
    (hhint : hint < n ∨ n = 0 ∧ hint = 0 ∧ xs.size ≤ lo) :
    ∃ front rest, stretch xs lo n = front ++ rest ∧ (∀ z ∈ front, key z < key x) ∧
      (∀ z ∈ rest, key x ≤ key z) ∧ gallop (before · x) xs lo n hint = .ok front.length := by
  have hmono : (stretch xs lo n).Pairwise fun a b =>
      decide (key b < key x) = true → decide (key a < key x) = true :=
    (hxs.ascending.stretch lo n).imp fun hab hb =>
      decide_eq_true (hab.trans_lt (of_decide_eq_true hb))
  obtain ⟨front, rest, hsplit, hfront, hrest, hgallop⟩ :=
    exists_split_of_gallop (fun z hz => h z (hxs.mem z hz) x hx) hsize hmono hhint
  exact ⟨front, rest, hsplit, fun z hz => of_decide_eq_true (hfront z hz),
    fun z hz => not_lt.mp (of_decide_eq_false (hrest z hz)), hgallop⟩

end Search

/-! ### Merging from the front -/

/-- The last items of an array are **what is left** when the others are dropped. -/
theorem toList_lastItems (xs : Array α) (n : ℕ) :
    (lastItems xs n).toList = xs.toList.drop (xs.size - n) := by
  rw [lastItems, Array.toList_extract, List.extract_eq_take_drop]
  exact List.take_of_length_le (by simp)

@[simp] theorem toList_lastItems_zero (xs : Array α) : (lastItems xs 0).toList = [] := by
  simp [toList_lastItems]

/-- The items from an index on are **the last ones**. -/
theorem stretch_last {xs : Array α} {n k : ℕ} (hn : n + k = xs.size) :
    stretch xs k n = (lastItems xs n).toList := by
  rw [stretch, toList_lastItems, show xs.size - n = k by omega]
  exact List.take_of_length_le (by simp; omega)

/-- The last items start with **the one at their index**. -/
theorem lastItems_eq_cons {xs : Array α} {n : ℕ} {x : α} (hpos : 0 < n) (hn : n ≤ xs.size)
    (hx : xs[xs.size - n]? = some x) :
    (lastItems xs n).toList = x :: (lastItems xs (n - 1)).toList := by
  obtain ⟨hi, rfl⟩ := Array.getElem?_eq_some_iff.mp hx
  rw [toList_lastItems, toList_lastItems, List.drop_eq_getElem_cons (by simpa using hi),
    show xs.size - (n - 1) = xs.size - n + 1 by omega, Array.getElem_toList]

/-- When the first of the last items are taken, **the rest** are the last ones. -/
theorem lastItems_of_eq_append {xs : Array α} {n : ℕ} {front rest : List α} (hn : n ≤ xs.size)
    (h : (lastItems xs n).toList = front ++ rest) :
    (lastItems xs (n - front.length)).toList = rest := by
  have hlength : front.length + rest.length = n := by
    rw [← List.length_append, ← h, toList_lastItems]
    simp
    omega
  rw [toList_lastItems, show xs.size - (n - front.length) = xs.size - n + front.length by omega,
    ← List.drop_drop, ← toList_lastItems, h, List.drop_left]

/-- The last items are **items of the array**. -/
theorem mem_of_mem_lastItems {xs : Array α} {n : ℕ} {x : α} (h : x ∈ (lastItems xs n).toList) :
    x ∈ xs := by
  rw [toList_lastItems] at h
  exact Array.mem_toList_iff.mp (List.mem_of_mem_drop h)

/-- The first of the last items has the least key among them. -/
theorem Ascending.le_of_mem_lastItems {xs : Array α} (h : Ascending key xs) {n : ℕ} (hpos : 0 < n)
    (hn : n ≤ xs.size) {x : α} (hx : xs[xs.size - n]? = some x) :
    ∀ z ∈ (lastItems xs n).toList, key x ≤ key z := by
  have hsorted : (lastItems xs n).toList.Pairwise fun a b => key a ≤ key b := by
    rw [toList_lastItems]
    exact List.Pairwise.sublist (List.drop_sublist _ _) h
  rw [lastItems_eq_cons hpos hn hx] at hsorted ⊢
  intro z hz
  rcases List.mem_cons.mp hz with rfl | hz
  · exact le_refl _
  · exact List.rel_of_pairwise_cons hsorted hz

/-- Galloping among the last items of an earlier run. -/
theorem exists_gallop_last {xs : Array α} (h : Follows before key items)
    (hxs : Run key items xs) {y : α} (hy : y ∈ items) {n : ℕ} (hpos : 0 < n) (hn : n ≤ xs.size) :
    ∃ front rest, (lastItems xs n).toList = front ++ rest ∧ (∀ z ∈ front, key z ≤ key y) ∧
      (∀ z ∈ rest, key y < key z) ∧
      gallop (fun z => (before y z).map (!·)) xs (xs.size - n) n 0 = .ok front.length := by
  rw [← stretch_last (show n + (xs.size - n) = xs.size by omega)]
  exact exists_gallop_not_before h hxs hy (by omega) (.inl hpos)

/-- Galloping among the last items of a later run, after the first of them. -/
theorem exists_gallop_next {xs : Array α} (h : Follows before key items)
    (hxs : Run key items xs) {x : α} (hx : x ∈ items) {n : ℕ} (hpos : 0 < n) (hn : n ≤ xs.size) :
    ∃ front rest, (lastItems xs (n - 1)).toList = front ++ rest ∧ (∀ z ∈ front, key z < key x) ∧
      (∀ z ∈ rest, key x ≤ key z) ∧
      gallop (before · x) xs (xs.size - n + 1) (n - 1) 0 = .ok front.length := by
  rw [← stretch_last (show n - 1 + (xs.size - n + 1) = xs.size by omega)]
  exact exists_gallop_before h hxs hx (by omega) (by omega)

/-- **One round of galloping from the front.** First come the items of the earlier run that do not
come after the next item `y` of the later one, then `y`, then the items of the later run that come
before the next item `z` of the earlier one; what is left is still to be merged, and `z` comes
next. -/
theorem mergeBy_round (h : Follows before key items) (ha : Run key items a)
    (hb : Run key items b) {na nb : ℕ} (hna : na ≤ a.size) (hnb : nb ≤ b.size) (hpos : 0 < nb)
    {y z : α} (hy : b[b.size - nb]? = some y) {left right : ℕ} (hmore : left < na)
    (hleft : gallop (fun z => (before y z).map (!·)) a (a.size - na) na 0 = .ok left)
    (hz : a[a.size - na + left]? = some z)
    (hright : gallop (before · z) b (b.size - nb + 1) (nb - 1) 0 = .ok right) :
    mergeBy key (lastItems a na).toList (lastItems b nb).toList =
        (lastItems a na).toList.take left ++ y :: ((lastItems b (nb - 1)).toList.take right ++
          mergeBy key (lastItems a (na - left)).toList (lastItems b (nb - 1 - right)).toList) ∧
      (lastItems a (na - left)).toList = z :: (lastItems a (na - left - 1)).toList ∧
      ∀ w ∈ (lastItems b (nb - 1 - right)).toList, key z ≤ key w := by
  obtain ⟨front, rest, hsplit, hfront, hrest, hgallop⟩ :=
    exists_gallop_last h ha (hb.mem y (Array.mem_of_getElem? hy)) (by omega) hna
  obtain rfl := Except.ok.inj (hleft.symm.trans hgallop)
  obtain ⟨front', rest', hsplit', hfront', hrest', hgallop'⟩ :=
    exists_gallop_next h hb (ha.mem z (Array.mem_of_getElem? hz)) hpos hnb
  obtain rfl := Except.ok.inj (hright.symm.trans hgallop')
  have hz' : a[a.size - (na - front.length)]? = some z := by
    rw [← hz]
    congr 1
    omega
  have hy_le := hb.ascending.le_of_mem_lastItems hpos hnb hy
  have hz_le := ha.ascending.le_of_mem_lastItems (by omega) (by omega) hz'
  rw [lastItems_of_eq_append (by omega) hsplit'] at *
  refine ⟨?_, lastItems_eq_cons (by omega) (by omega) hz', hrest'⟩
  rw [lastItems_of_eq_append hna hsplit] at hz_le ⊢
  have hbefore : ∀ x ∈ rest, ∀ w ∈ y :: front', key w < key x := by
    intro x hx w hw
    rcases List.mem_cons.mp hw with rfl | hw
    · exact hrest x hx
    · exact (hfront' w hw).trans_le (hz_le x hx)
  rw [hsplit, append_mergeBy fun x hx w hw => (hfront x hx).trans (hy_le w hw),
    lastItems_eq_cons hpos hnb hy, hsplit', ← List.cons_append, mergeBy_append hbefore,
    List.take_left, List.take_left, List.cons_append]

/-- **Merging from the front** gives the merge by keys of what is left of both runs. The last item
of the earlier run comes after all of the later run. -/
theorem exists_mergeUp (h : Follows before key items) (ha : Run key items a)
    (hb : Run key items b) (hlast : ∀ x ∈ (lastItems a 1).toList, ∀ y ∈ b, key y < key x)
    (pace : Pace) (patience : ℕ) {na nb : ℕ} (out : Array α)
    (hna : na ≤ a.size) (hnb : nb ≤ b.size) :
    ∃ merged patience', mergeUp before a b pace patience na nb out = .ok (merged, patience') ∧
      merged.toList =
        out.toList ++ mergeBy key (lastItems a na).toList (lastItems b nb).toList := by
  have hone : ∀ n ≤ 1, ∀ n', mergeBy key (lastItems a n).toList (lastItems b n').toList =
      (lastItems b n').toList ++ (lastItems a n).toList := by
    intro n hn n'
    have hsub : (lastItems a n).toList ⊆ (lastItems a 1).toList := by
      rw [toList_lastItems, toList_lastItems]
      exact (List.drop_sublist_drop_left _ (by omega)).subset
    exact mergeBy_of_lt fun x hx y hy => hlast x (hsub hx) y (mem_of_mem_lastItems hy)
  fun_induction mergeUp before a b pace patience na nb out with
  | case1 pace patience na nb out hend =>
      refine ⟨_, _, rfl, ?_⟩
      rw [Array.toList_append, Array.toList_append, List.append_assoc]
      rcases hend with rfl | hna'
      · simp
      · rw [hone na hna']
  | case2 patience na nb out hmore x y hy hx leftWins rightWins e he =>
      -- two items of the runs can always be compared
      rw [h.of_getElem? ha hb hx hy] at he
      cases he
  | case3 patience na nb out hmore x y hy hx leftWins rightWins hbefore ih =>
      rw [h.of_getElem? ha hb hx hy] at hbefore
      have hlt := of_decide_eq_true (Except.ok.inj hbefore)
      obtain ⟨merged, patience', hmerge, hmerged⟩ := ih hna (by omega)
      refine ⟨merged, patience', hmerge, ?_⟩
      rw [hmerged, lastItems_eq_cons (by omega) hna hx, lastItems_eq_cons (by omega) hnb hy,
        cons_mergeBy_cons_of_lt hlt]
      simp
  | case4 patience na nb out hmore x y hy hx leftWins rightWins hbefore ih =>
      rw [h.of_getElem? ha hb hx hy] at hbefore
      have hle := not_lt.mp (of_decide_eq_false (Except.ok.inj hbefore))
      obtain ⟨merged, patience', hmerge, hmerged⟩ := ih (by omega) hnb
      refine ⟨merged, patience', hmerge, ?_⟩
      rw [hmerged, lastItems_eq_cons (by omega) hna hx, lastItems_eq_cons (by omega) hnb hy,
        cons_mergeBy_cons_of_le hle]
      simp
  | case5 patience na nb out hmore x y hy hx e he =>
      obtain ⟨front, rest, -, -, -, hgallop⟩ :=
        exists_gallop_last h ha (hb.mem y (Array.mem_of_getElem? hy)) (by omega) hna
      cases he.symm.trans hgallop
  | case6 patience na nb out hmore x y hy hx left hleft out' hend =>
      obtain ⟨front, rest, hsplit, hfront, -, hgallop⟩ :=
        exists_gallop_last h ha (hb.mem y (Array.mem_of_getElem? hy)) (by omega) hna
      obtain rfl := Except.ok.inj (hleft.symm.trans hgallop)
      have hy_le := hb.ascending.le_of_mem_lastItems (by omega) hnb hy
      -- at most one item of the earlier run is left, which comes last of all
      refine ⟨_, _, rfl, ?_⟩
      rw [hsplit, append_mergeBy fun x hx w hw => (hfront x hx).trans (hy_le w hw),
        ← lastItems_of_eq_append hna hsplit, hone _ (by omega)]
      simp [out', hsplit]
  | case7 patience na nb out hmore x y hy hx left hleft out' hend out'' hnone =>
      have := le_of_gallop (by omega) (by omega) hleft
      rw [Array.getElem?_eq_none_iff] at hnone
      omega
  | case8 patience na nb out hmore x y hy hx left hleft hend z hz e he =>
      obtain ⟨front', rest', -, -, -, hgallop⟩ :=
        exists_gallop_next h hb (ha.mem z (Array.mem_of_getElem? hz)) (by omega) hnb
      cases he.symm.trans hgallop
  | case9 patience na nb out hmore x y hy hx left hleft out' hend out'' z hz right hright out3
      hend' =>
      -- the later run is used up, so the rest of the earlier one follows as it is
      obtain ⟨hround, -, -⟩ :=
        mergeBy_round h ha hb hna hnb (by omega) hy (by omega) hleft hz hright
      refine ⟨_, _, rfl, ?_⟩
      rw [hround, show nb - 1 - right = 0 by omega]
      simp [out3, out'', out']
  | case10 patience na nb out hmore x y hy hx left hleft out' hend out'' z hz right hright out3
      hend' pace next hpace next' ih =>
      -- one round of galloping on either side, and then the merge goes on
      obtain ⟨hround, hcons, hz_le⟩ :=
        mergeBy_round h ha hb hna hnb (by omega) hy (by omega) hleft hz hright
      obtain ⟨merged, patience', hmerge, hmerged⟩ := ih (by omega) (by omega)
      refine ⟨merged, patience', hmerge, ?_⟩
      rw [hmerged, hround, hcons, cons_mergeBy hz_le]
      simp [out3, out'', out']
  | case11 pace patience na nb out hmore hnone =>
      have hx : a.size - na < a.size := by omega
      have hy : b.size - nb < b.size := by omega
      exact (hnone _ _ (Array.getElem?_eq_getElem hx) (Array.getElem?_eq_getElem hy)).elim

/-! ### Merging from the back -/

/-- The items up to an index end with **the one before it**. -/
theorem take_eq_concat {xs : Array α} {n : ℕ} {x : α} (hpos : 0 < n) (hx : xs[n - 1]? = some x) :
    xs.toList.take n = xs.toList.take (n - 1) ++ [x] := by
  obtain ⟨k, rfl⟩ : ∃ k, n = k + 1 := ⟨n - 1, by omega⟩
  rw [Nat.add_sub_cancel] at hx ⊢
  rw [List.take_add_one, Array.getElem?_toList, hx]
  rfl

/-- The last of the first items has the greatest key among them. -/
theorem Ascending.le_of_mem_take {xs : Array α} (h : Ascending key xs) {n : ℕ} (hpos : 0 < n)
    {x : α} (hx : xs[n - 1]? = some x) : ∀ z ∈ xs.toList.take n, key z ≤ key x := by
  have hsorted : (xs.toList.take n).Pairwise fun a b => key a ≤ key b :=
    List.Pairwise.sublist (List.take_sublist _ _) h
  rw [take_eq_concat hpos hx] at hsorted ⊢
  intro z hz
  rcases List.mem_append.mp hz with hz | hz
  · exact (List.pairwise_append.mp hsorted).2.2 z hz x (List.mem_singleton.mpr rfl)
  · rw [List.mem_singleton.mp hz]

/-- Galloping among the first items of an earlier run. -/
theorem exists_gallop_first_earlier {xs : Array α} (h : Follows before key items)
    (hxs : Run key items xs) {y : α} (hy : y ∈ items) {n hint : ℕ} (hhint : hint < n)
    (hn : n ≤ xs.size) :
    ∃ front rest, xs.toList.take n = front ++ rest ∧ (∀ z ∈ front, key z ≤ key y) ∧
      (∀ z ∈ rest, key y < key z) ∧
      gallop (fun z => (before y z).map (!·)) xs 0 n hint = .ok front.length :=
  exists_gallop_not_before h hxs hy (show 0 + n ≤ xs.size by omega) (.inl hhint)

/-- Galloping among the first items of a later run. -/
theorem exists_gallop_first_later {xs : Array α} (h : Follows before key items)
    (hxs : Run key items xs) {x : α} (hx : x ∈ items) {n hint : ℕ} (hhint : hint < n)
    (hn : n ≤ xs.size) :
    ∃ front rest, xs.toList.take n = front ++ rest ∧ (∀ z ∈ front, key z < key x) ∧
      (∀ z ∈ rest, key x ≤ key z) ∧ gallop (before · x) xs 0 n hint = .ok front.length :=
  exists_gallop_before h hxs hx (show 0 + n ≤ xs.size by omega) (.inl hhint)

/-- An array is cut where the list of its first items is. -/
theorem extract_of_take_eq_append {xs : Array α} {n : ℕ} {front rest : List α}
    (h : xs.toList.take n = front ++ rest) :
    front.length ≤ n ∧ xs.toList.take front.length = front ∧
      (xs.extract front.length n).toList = rest := by
  have hle : front.length ≤ n := by
    have := congrArg List.length h
    simp at this
    omega
  refine ⟨hle, ?_, ?_⟩
  · have := congrArg (List.take front.length) h
    rwa [List.take_take, min_eq_left hle, List.take_left] at this
  · have := congrArg (List.drop front.length) h
    rw [List.drop_take, List.drop_left] at this
    rw [← this, Array.toList_extract, List.extract_eq_take_drop]

/-- **Half a round of galloping from the back**: the items of the earlier run that come after the
next item `y` of the later one are put in place, and `y` before them. -/
theorem mergeBy_back_left (h : Follows before key items) (ha : Run key items a)
    (hb : Run key items b) {na nb : ℕ} (hna : na ≤ a.size) (hpos : 0 < na) (hpos' : 0 < nb)
    {y : α} (hy : b[nb - 1]? = some y)
    {left : ℕ} (hleft : gallop (fun z => (before y z).map (!·)) a 0 na (na - 1) = .ok left) :
    left ≤ na ∧ mergeBy key (a.toList.take na) (b.toList.take nb) =
      mergeBy key (a.toList.take left) (b.toList.take (nb - 1)) ++
        y :: (a.extract left na).toList := by
  obtain ⟨front, rest, hsplit, hfront, hrest, hgallop⟩ := exists_gallop_first_earlier h ha
    (hb.mem y (Array.mem_of_getElem? hy)) (Nat.sub_one_lt_of_lt hpos) hna
  obtain rfl := Except.ok.inj (hleft.symm.trans hgallop)
  obtain ⟨hle, hfront_eq, hrest_eq⟩ := extract_of_take_eq_append hsplit
  refine ⟨hle, ?_⟩
  have hle_y := hb.ascending.le_of_mem_take hpos' hy
  have hafter : ∀ x ∈ rest, ∀ w ∈ b.toList.take nb, key w < key x := fun x hx w hw =>
    (hle_y w hw).trans_lt (hrest x hx)
  rw [hsplit, append_mergeBy_back hafter, take_eq_concat hpos' hy,
    mergeBy_append_back (by simpa using hfront), hfront_eq, hrest_eq, List.append_assoc,
    List.singleton_append]

/-- The other half of a round: the items of the later run that do not come before the next item `x`
of the earlier one are put in place. -/
theorem mergeBy_back_right (h : Follows before key items) (ha : Run key items a)
    (hb : Run key items b) {na nb : ℕ} (hnb : nb ≤ b.size) (hpos : 0 < na) (hpos' : 0 < nb)
    {x : α} (hx : a[na - 1]? = some x)
    {right : ℕ} (hright : gallop (before · x) b 0 nb (nb - 1) = .ok right) :
    right ≤ nb ∧ (∀ w ∈ b.toList.take right, key w < key x) ∧
      mergeBy key (a.toList.take na) (b.toList.take nb) =
        mergeBy key (a.toList.take na) (b.toList.take right) ++ (b.extract right nb).toList := by
  obtain ⟨front, rest, hsplit, hfront, hrest, hgallop⟩ := exists_gallop_first_later h hb
    (ha.mem x (Array.mem_of_getElem? hx)) (Nat.sub_one_lt_of_lt hpos') hnb
  obtain rfl := Except.ok.inj (hright.symm.trans hgallop)
  obtain ⟨hle, hfront_eq, hrest_eq⟩ := extract_of_take_eq_append hsplit
  have hle_x := ha.ascending.le_of_mem_take hpos hx
  have hbefore : ∀ z ∈ a.toList.take na, ∀ w ∈ rest, key z ≤ key w := fun z hz w hw =>
    (hle_x z hz).trans (hrest w hw)
  refine ⟨hle, by rwa [hfront_eq], ?_⟩
  rw [hsplit, mergeBy_append_back hbefore, hfront_eq, hrest_eq]

/-- **Merging from the back** gives the merge by keys of what is left of both runs. The first item
of the later run comes before all of the earlier run. -/
theorem exists_mergeDown (h : Follows before key items) (ha : Run key items a)
    (hb : Run key items b) (hfirst : ∀ y ∈ b.toList.take 1, ∀ x ∈ a, key y < key x)
    (pace : Pace) (patience : ℕ) {na nb : ℕ} (out : List α)
    (hna : na ≤ a.size) (hnb : nb ≤ b.size) :
    ∃ merged patience', mergeDown before a b pace patience na nb out = .ok (merged, patience') ∧
      merged = mergeBy key (a.toList.take na) (b.toList.take nb) ++ out := by
  have hone : ∀ n ≤ 1, ∀ n', mergeBy key (a.toList.take n') (b.toList.take n) =
      b.toList.take n ++ a.toList.take n' := by
    intro n hn n'
    have hsub : b.toList.take n ⊆ b.toList.take 1 := (List.take_sublist_take_left hn).subset
    exact mergeBy_of_lt fun x hx y hy =>
      hfirst y (hsub hy) x (Array.mem_toList_iff.mp (List.mem_of_mem_take hx))
  fun_induction mergeDown before a b pace patience na nb out with
  | case1 pace patience na nb out hend =>
      refine ⟨_, _, rfl, ?_⟩
      rcases hend with rfl | hnb'
      · simp
      · simp [hone nb hnb']
  | case2 patience na nb out hmore x y hy hx leftWins rightWins e he =>
      -- two items of the runs can always be compared
      rw [h.of_getElem? ha hb hx hy] at he
      cases he
  | case3 patience na nb out hmore x y hy hx leftWins rightWins hbefore ih =>
      rw [h.of_getElem? ha hb hx hy] at hbefore
      have hlt := of_decide_eq_true (Except.ok.inj hbefore)
      have hle_y := hb.ascending.le_of_mem_take (by omega) hy
      obtain ⟨merged, patience', hmerge, rfl⟩ := ih (by omega) hnb
      refine ⟨_, patience', hmerge, ?_⟩
      rw [take_eq_concat (by omega) hx, append_mergeBy_back (by
        simpa using fun w hw => (hle_y w hw).trans_lt hlt)]
      simp
  | case4 patience na nb out hmore x y hy hx leftWins rightWins hbefore ih =>
      rw [h.of_getElem? ha hb hx hy] at hbefore
      have hle := not_lt.mp (of_decide_eq_false (Except.ok.inj hbefore))
      have hle_x := ha.ascending.le_of_mem_take (by omega) hx
      obtain ⟨merged, patience', hmerge, rfl⟩ := ih hna (by omega)
      refine ⟨_, patience', hmerge, ?_⟩
      rw [take_eq_concat (by omega) hy, mergeBy_append_back (by
        simpa using fun z hz => (hle_x z hz).trans hle)]
      simp
  | case5 patience na nb out hmore x y hy hx e he =>
      obtain ⟨front, rest, -, -, -, hgallop⟩ := exists_gallop_first_earlier h ha
        (hb.mem y (Array.mem_of_getElem? hy)) (show na - 1 < na by omega) hna
      cases he.symm.trans hgallop
  | case6 patience na nb out hmore x y hy hx hleft out' =>
      -- the earlier run is used up, so the rest of the later one comes before
      obtain ⟨-, hround⟩ :=
        mergeBy_back_left h ha hb hna (by omega) (by omega) hy hleft
      refine ⟨_, _, rfl, ?_⟩
      rw [hround, Array.toList_extract, List.extract_eq_take_drop, Nat.sub_zero, List.drop_zero,
        take_eq_concat (by omega) hy]
      simp [out']
  | case7 patience na nb out hmore x y hy hx left hleft out' hpos out'' hnb'
  | case8 patience na nb out hmore x y hy hx left hleft out' hpos out'' hnb' =>
      obtain ⟨-, hround⟩ :=
        mergeBy_back_left h ha hb hna (by omega) (by omega) hy hleft
      refine ⟨_, _, rfl, ?_⟩
      rw [hround, hone (nb - 1) (by omega)]
      simp [out'', out']
  | case9 patience na nb out hmore x y hy hx left hleft out' hpos out'' hnone =>
      obtain ⟨hle, -⟩ := mergeBy_back_left h ha hb hna (by omega) (by omega) hy hleft
      rw [Array.getElem?_eq_none_iff] at hnone
      omega
  | case10 patience na nb out hmore x y hy hx left hleft hpos z hz e he =>
      obtain ⟨front, rest, -, -, -, hgallop⟩ := exists_gallop_first_later h hb
        (ha.mem z (Array.mem_of_getElem? hz)) (show nb - 1 - 1 < nb - 1 by omega) (by omega)
      cases he.symm.trans hgallop
  | case11 patience na nb out hmore x y hy hx left hleft out' hpos out'' z hz right hright out3
      hright' =>
      obtain ⟨-, hround⟩ :=
        mergeBy_back_left h ha hb hna (by omega) (by omega) hy hleft
      obtain ⟨-, -, hround'⟩ :=
        mergeBy_back_right h ha hb (by omega) (by omega) (by omega) hz hright
      refine ⟨_, _, rfl, ?_⟩
      rw [hround, hround', hone right hright']
      simp [out3, out'', out']
  | case12 patience na nb out hmore x y hy hx left hleft out' hpos out'' z hz right hright out3
      hright' pace next hpace next' _ _ ih =>
      -- one round of galloping on either side, and then the merge goes on
      obtain ⟨hle, hround⟩ :=
        mergeBy_back_left h ha hb hna (by omega) (by omega) hy hleft
      obtain ⟨hle', hfront, hround'⟩ :=
        mergeBy_back_right h ha hb (by omega) (by omega) (by omega) hz hright
      rw [min_eq_left hle, min_eq_left (show right ≤ nb by omega)] at ih ⊢
      obtain ⟨merged, patience', hmerge, rfl⟩ := ih (by omega) (by omega)
      refine ⟨_, patience', hmerge, ?_⟩
      rw [hround, hround', take_eq_concat (by omega) hz,
        append_mergeBy_back (by simpa using hfront)]
      simp [out3, out'', out']
  | case13 pace patience na nb out hmore hnone =>
      have hx : na - 1 < a.size := by omega
      have hy : nb - 1 < b.size := by omega
      exact (hnone _ _ (Array.getElem?_eq_getElem hx) (Array.getElem?_eq_getElem hy)).elim

/-! ### Merging two runs -/

/-- All items are **the last ones**. -/
theorem toList_lastItems_size (xs : Array α) : (lastItems xs xs.size).toList = xs.toList := by
  rw [toList_lastItems, Nat.sub_self, List.drop_zero]

/-- All items are **the first ones**. -/
theorem take_size (xs : Array α) : xs.toList.take xs.size = xs.toList :=
  List.take_of_length_le (by simp)

/-- A part of a run is a run. -/
theorem Run.extract {xs : Array α} (h : Run key items xs) (i j : ℕ) :
    Run key items (xs.extract i j) where
  mem z hz := h.mem z (mem_of_mem_extract hz)
  ascending := by
    rw [Ascending, Array.toList_extract, List.extract_eq_take_drop]
    exact List.Pairwise.sublist ((List.take_sublist _ _).trans (List.drop_sublist _ _)) h.ascending

/-- Merging from the front, once the first item of the later run is taken. -/
theorem exists_mergeUp_front (h : Follows before key items) (ha : Run key items a)
    (hb : Run key items b) {first last : α} (hfirst : b[0]? = some first)
    (hlast : a[a.size - 1]? = some last)
    (hfirst_lt : ∀ x ∈ a, key first < key x) (hlt_last : ∀ y ∈ b, key y < key last)
    (pace : Pace) (patience : ℕ) :
    ∃ merged patience',
      mergeUp before a b pace patience a.size (b.size - 1) #[first] = .ok (merged, patience') ∧
        merged.toList = mergeBy key a.toList b.toList := by
  obtain ⟨hbpos, -⟩ := Array.getElem?_eq_some_iff.mp hfirst
  obtain ⟨hapos, -⟩ := Array.getElem?_eq_some_iff.mp hlast
  have hone : (lastItems a 1).toList = [last] := by
    rw [lastItems_eq_cons Nat.one_pos (by omega) hlast, toList_lastItems_zero]
  obtain ⟨merged, patience', hmerge, hmerged⟩ := exists_mergeUp h ha hb
    (by simpa [hone] using hlt_last) pace patience #[first] (le_refl a.size) (Nat.sub_le b.size 1)
  have hb' := lastItems_eq_cons hbpos (le_refl b.size) (by rwa [Nat.sub_self])
  refine ⟨merged, patience', hmerge, ?_⟩
  rw [hmerged, toList_lastItems_size, ← toList_lastItems_size b, hb',
    mergeBy_cons (by simpa using hfirst_lt)]
  rfl

/-- Merging from the back, once the last item of the earlier run is taken. -/
theorem exists_mergeDown_back (h : Follows before key items) (ha : Run key items a)
    (hb : Run key items b) {first last : α} (hfirst : b[0]? = some first)
    (hlast : a[a.size - 1]? = some last)
    (hfirst_lt : ∀ x ∈ a, key first < key x) (hlt_last : ∀ y ∈ b, key y < key last)
    (pace : Pace) (patience : ℕ) :
    ∃ merged patience',
      mergeDown before a b pace patience (a.size - 1) b.size [last] = .ok (merged, patience') ∧
        merged = mergeBy key a.toList b.toList := by
  obtain ⟨hapos, -⟩ := Array.getElem?_eq_some_iff.mp hlast
  have hone : b.toList.take 1 = [first] := by
    rw [take_eq_concat Nat.one_pos hfirst]
    simp
  obtain ⟨merged, patience', hmerge, rfl⟩ := exists_mergeDown h ha hb
    (by simpa [hone] using hfirst_lt) pace patience [last] (Nat.sub_le a.size 1) (le_refl b.size)
  refine ⟨_, patience', hmerge, ?_⟩
  rw [take_size, ← append_mergeBy_back (by simpa using hlt_last),
    ← take_eq_concat (by omega) hlast, take_size]

/-- An array is cut where its list is. -/
theorem extract_of_eq_append {xs : Array α} {front rest : List α} (h : xs.toList = front ++ rest) :
    front.length + rest.length = xs.size ∧ (xs.extract 0 front.length).toList = front ∧
      (xs.extract front.length xs.size).toList = rest := by
  obtain ⟨-, hfront, hrest⟩ := extract_of_take_eq_append (n := xs.size) (by rw [take_size, h])
  refine ⟨by rw [← List.length_append, ← h, Array.length_toList], ?_, hrest⟩
  rw [Array.toList_extract, List.extract_eq_take_drop, List.drop_zero, Nat.sub_zero, hfront]

/-- **Both runs are cut** before they are merged: what the earlier one begins with and what the
later one ends with is in place already. -/
theorem exists_cut (h : Follows before key items) (ha : Run key items a)
    (hb : Run key items b) {first last : α} (hfirst : b[0]? = some first)
    (hlast : a[a.size - 1]? = some last) :
    ∃ front rest front' rest', a.toList = front ++ rest ∧ b.toList = front' ++ rest' ∧
      gallop (fun z => (before first z).map (!·)) a 0 a.size 0 = .ok front.length ∧
      gallop (before · last) b 0 b.size (b.size - 1) = .ok front'.length ∧
      (∀ x ∈ rest, key first < key x) ∧ (∀ y ∈ front', key y < key last) ∧
      mergeBy key a.toList b.toList = front ++ (mergeBy key rest front' ++ rest') := by
  obtain ⟨hbpos, -⟩ := Array.getElem?_eq_some_iff.mp hfirst
  obtain ⟨hapos, -⟩ := Array.getElem?_eq_some_iff.mp hlast
  have hfirst_le : ∀ y ∈ b.toList, key first ≤ key y := by
    have := hb.ascending.le_of_mem_lastItems hbpos (le_refl b.size) (by rwa [Nat.sub_self])
    rwa [toList_lastItems_size] at this
  have hle_last : ∀ x ∈ a.toList, key x ≤ key last := by
    have := ha.ascending.le_of_mem_take (by omega) hlast
    rwa [take_size] at this
  obtain ⟨front, rest, hsplit, hfront, hrest, hgallop⟩ := exists_gallop_first_earlier h ha
    (hb.mem first (Array.mem_of_getElem? hfirst)) (show 0 < a.size by omega) (le_refl a.size)
  obtain ⟨front', rest', hsplit', hfront', hrest', hgallop'⟩ := exists_gallop_first_later h hb
    (ha.mem last (Array.mem_of_getElem? hlast)) (show b.size - 1 < b.size by omega) (le_refl b.size)
  rw [take_size] at hsplit hsplit'
  refine ⟨front, rest, front', rest', hsplit, hsplit', hgallop, hgallop', hrest, hfront', ?_⟩
  rw [hsplit, append_mergeBy fun x hx y hy => (hfront x hx).trans (hfirst_le y hy), hsplit',
    mergeBy_append_back fun x hx y hy =>
      (hle_last x (hsplit ▸ List.mem_append_right front hx)).trans (hrest' y hy)]

/-- **Two runs merged** are merged by keys. -/
theorem exists_merge (h : Follows before key items) (ha : Run key items a)
    (hb : Run key items b) (patience : ℕ) :
    ∃ merged patience', merge before patience a b = .ok (merged, patience') ∧
      merged.toList = mergeBy key a.toList b.toList := by
  rw [merge]
  split
  · next first last hfirst hlast =>
    obtain ⟨hbpos, -⟩ := Array.getElem?_eq_some_iff.mp hfirst
    obtain ⟨front, rest, front', rest', hsplit, hsplit', hgallop, hgallop', hrest, hfront',
      hmain⟩ := exists_cut h ha hb hfirst hlast
    obtain ⟨hsize, hhead, hleft⟩ := extract_of_eq_append hsplit
    obtain ⟨hsize', hright, htail⟩ := extract_of_eq_append hsplit'
    -- what comes before the first item of the later run stays, and what comes after the last too
    simp only [hgallop, hgallop', bind, Except.bind]
    split
    · next hna =>
      refine ⟨_, _, rfl, ?_⟩
      obtain rfl : rest = [] := List.length_eq_zero_iff.mp (by omega)
      rw [Array.toList_append, hmain, hsplit, hsplit']
      simp
    split
    · next hnb =>
      refine ⟨_, _, rfl, ?_⟩
      obtain rfl : front' = [] := List.length_eq_zero_iff.mp hnb
      rw [Array.toList_append, hmain, hsplit, hsplit']
      simp
    have hsizeLeft : (a.extract front.length a.size).size = a.size - front.length := by simp
    have hsizeRight : (b.extract 0 front'.length).size = front'.length := by simp; omega
    have hupper : ∀ x ∈ a.extract front.length a.size, key first < key x := by
      intro x hx
      exact hrest x (hleft ▸ Array.mem_toList_iff.mpr hx)
    have hlower : ∀ y ∈ b.extract 0 front'.length, key y < key last := by
      intro y hy
      exact hfront' y (hright ▸ Array.mem_toList_iff.mpr hy)
    have hfirst' : (b.extract 0 front'.length)[0]? = some first := by
      rw [Array.getElem?_extract, if_pos (by omega), Nat.add_zero, hfirst]
    have hlast' : (a.extract front.length a.size)[(a.extract front.length a.size).size - 1]? =
        some last := by
      rw [hsizeLeft, Array.getElem?_extract, if_pos (by omega), ← hlast]
      congr 1
      omega
    -- the shorter of the two runs is set aside, and the merge starts at its end
    split
    · obtain ⟨merged, patience', hmerge, hmerged⟩ := exists_mergeUp_front h
        (ha.extract _ _) (hb.extract _ _) hfirst' hlast' hupper hlower (.stepping 0 0) patience
      rw [hsizeLeft, hsizeRight] at hmerge
      simp only [hmerge]
      refine ⟨_, _, rfl, ?_⟩
      rw [hmain, Array.toList_append, Array.toList_append, hhead, hmerged, hleft, hright, htail,
        List.append_assoc]
    · obtain ⟨merged, patience', hmerge, hmerged⟩ := exists_mergeDown_back h
        (ha.extract _ _) (hb.extract _ _) hfirst' hlast' hupper hlower (.stepping 0 0) patience
      rw [hsizeLeft, hsizeRight] at hmerge
      simp only [hmerge]
      refine ⟨_, _, rfl, ?_⟩
      rw [hmain, Array.toList_append, Array.toList_append, hhead, hmerged, hleft, hright, htail,
        List.append_assoc]
  · next hnone =>
    refine ⟨_, _, rfl, ?_⟩
    rw [Array.toList_append]
    cases hfirst : b[0]? with
    | none =>
        have hb' : b.toList = [] := by simpa using hfirst
        simp [hb']
    | some first =>
        cases hlast : a[a.size - 1]? with
        | none =>
            have ha' : a.toList = [] := by
              rw [Array.getElem?_eq_none_iff] at hlast
              exact List.length_eq_zero_iff.mp (by rw [Array.length_toList]; omega)
            simp [ha']
        | some last => exact (hnone first last hfirst hlast).elim

end Sorting

end TreeLint
