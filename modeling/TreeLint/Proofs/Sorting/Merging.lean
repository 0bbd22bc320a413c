import Mathlib.Algebra.Order.Group.Multiset
import Mathlib.Tactic.Abel
import TreeLint.Sorting

/-!
# Merging Keeps the Content

Two runs are merged item by item and, where one of them wins often enough, by galloping. Whatever
the comparison is, an order or not, the merged run has the **content** of the two, that is, their
items without their order, or a comparison of two items failed.

Every function of the method gets one statement of this form (`Yields`): the searches first, then
merging from the front and from the back, and last `merge`, which trims the runs and chooses
between the two.

## Main results

* `gallop_yields`: a gallop ends among the items that it searches.
* `mergeUp_yields`, `mergeDown_yields`: merging from either end loses and invents nothing.
* `merge_yields`: a merged run has the content of its two runs.
-/

namespace TreeLint

namespace Sorting

variable {α β γ ε : Type} {before : α → α → Except ε Bool} {items : List α}

/-- An **outcome of comparing** `items`: a value with the property `Q`, or the fault of a
comparison of two of the items. -/
def Yields (before : α → α → Except ε Bool) (items : List α) (Q : β → Prop) :
    Except ε β → Prop
  | .ok b => Q b
  | .error e => ∃ x ∈ items, ∃ y ∈ items, before x y = .error e

/-- A property of the value may be weakened. -/
theorem Yields.imp {P Q : β → Prop} {r : Except ε β} (h : Yields before items P r)
    (hPQ : ∀ b, P b → Q b) : Yields before items Q r := by
  cases r with
  | ok b => exact hPQ b h
  | error e => exact h

/-- Work that goes on with the value yields what the rest of it yields. -/
theorem Yields.bind {P : β → Prop} {Q : γ → Prop} {r : Except ε β} {f : β → Except ε γ}
    (h : Yields before items P r) (hf : ∀ b, P b → Yields before items Q (f b)) :
    Yields before items Q (r >>= f) := by
  cases r with
  | ok b => exact hf b h
  | error e => exact h

/-- The value of a successful outcome. -/
theorem Yields.of_ok {P : β → Prop} {r : Except ε β} {b : β} (hr : r = .ok b)
    (h : Yields before items P r) : P b := by
  subst hr
  exact h

/-- A fault is passed on as it is. -/
theorem Yields.of_error {P : β → Prop} {Q : γ → Prop} {r : Except ε β} {e : ε}
    (hr : r = .error e) (h : Yields before items P r) : Yields before items Q (.error e) := by
  subst hr
  exact h

/-- One comparison of two items. -/
theorem yields_before {x y : α} (hx : x ∈ items) (hy : y ∈ items) :
    Yields before items (fun _ => True) (before x y) := by
  cases h : before x y with
  | ok b => trivial
  | error e => exact ⟨x, hx, y, hy, h⟩

/-- One comparison of two items, turned round. -/
theorem yields_not_before {x y : α} (hx : x ∈ items) (hy : y ∈ items) :
    Yields before items (fun _ => True) ((before x y).map (!·)) := by
  cases h : before x y with
  | ok b => trivial
  | error e => exact ⟨x, hx, y, hy, h⟩

/-! ### Searching -/

section Search

variable {p : α → Except ε Bool} {xs : Array α}

/-- A test at an index compares items, and passes only **at an item**. -/
theorem testAt_yields (hp : ∀ z ∈ xs, Yields before items (fun _ => True) (p z)) (i : ℕ) :
    Yields before items (fun passed => passed = true → i < xs.size) (testAt p xs i) := by
  rw [testAt]
  split
  · next x hx =>
    obtain ⟨hi, -⟩ := Array.getElem?_eq_some_iff.mp hx
    exact (hp x (Array.mem_of_getElem? hx)).imp fun _ _ _ => hi
  · exact fun h => nomatch h

/-- Halving ends between its bounds. -/
theorem bisect_yields (hp : ∀ z ∈ xs, Yields before items (fun _ => True) (p z)) {lo hi : ℕ}
    (h : lo ≤ hi) :
    Yields before items (fun place => lo ≤ place ∧ place ≤ hi) (bisect p xs lo hi) := by
  fun_induction bisect p xs lo hi with
  | case1 lo hi hlt mid e he =>
      exact (testAt_yields hp mid).of_error he
  | case2 lo hi hlt mid _ ih =>
      exact (ih (by omega)).imp fun place hplace => ⟨by omega, hplace.2⟩
  | case3 lo hi hlt mid _ ih =>
      exact (ih (by omega)).imp fun place hplace => ⟨hplace.1, by omega⟩
  | case4 lo hi hlt => exact ⟨le_refl lo, h⟩

/-- Strides up stay below their limit. -/
theorem strideUp_yields (hp : ∀ z ∈ xs, Yields before items (fun _ => True) (p z))
    {start limit last stride : ℕ} (hlimit : last < limit) (hstride : last < stride) :
    Yields before items (fun r => r.1 < r.2 ∧ r.2 ≤ limit)
      (strideUp p xs start limit last stride) := by
  fun_induction strideUp p xs start limit last stride with
  | case1 last stride hlt e he =>
      exact (testAt_yields hp (start + stride)).of_error he
  | case2 last stride hlt _ ih => exact ih hlt (by omega)
  | case3 last stride hlt _ => exact ⟨hstride, hlt.le⟩
  | case4 last stride hlt => exact ⟨hlimit, le_refl limit⟩

/-- Strides down stay below their limit. -/
theorem strideDown_yields (hp : ∀ z ∈ xs, Yields before items (fun _ => True) (p z))
    {start limit last stride : ℕ} (hlimit : last < limit) (hstride : last < stride) :
    Yields before items (fun r => r.1 < r.2 ∧ r.2 ≤ limit)
      (strideDown p xs start limit last stride) := by
  fun_induction strideDown p xs start limit last stride with
  | case1 last stride hlt e he =>
      exact (testAt_yields hp (start - stride)).of_error he
  | case2 last stride hlt _ => exact ⟨hstride, hlt.le⟩
  | case3 last stride hlt _ ih => exact ih hlt (by omega)
  | case4 last stride hlt => exact ⟨hlimit, le_refl limit⟩

/-- Galloping over `n` items finds a place among them. The hint is one of them, or the place
after all of them at the end of the array. -/
theorem gallop_yields (hp : ∀ z ∈ xs, Yields before items (fun _ => True) (p z))
    {lo n hint : ℕ} (hle : hint ≤ n) (hhint : lo + hint < xs.size → hint < n) :
    Yields before items (fun k => k ≤ n) (gallop p xs lo n hint) := by
  rw [gallop]
  refine (testAt_yields hp (lo + hint)).bind fun up hup => ?_
  cases up with
  | true =>
      have := hhint (hup rfl)
      refine (strideUp_yields hp (by omega) (by omega)).bind fun r hr => ?_
      refine (bisect_yields hp (by omega)).bind fun place hplace => ?_
      exact Nat.sub_le_iff_le_add'.mpr (by omega)
  | false =>
      refine (strideDown_yields hp (by omega) (by omega)).bind fun r hr => ?_
      refine (bisect_yields hp (by omega)).bind fun place hplace => ?_
      exact Nat.sub_le_iff_le_add'.mpr (by omega)

/-- Whatever is searched for, a place that galloping finds is among the `n` items. -/
theorem le_of_gallop {lo n hint k : ℕ} (hle : hint ≤ n) (hhint : lo + hint < xs.size → hint < n)
    (h : gallop p xs lo n hint = .ok k) : k ≤ n := by
  have hp : ∀ z ∈ xs, Yields (fun x _ => p x) xs.toList (fun _ => True) (p z) := by
    intro z hz
    exact yields_before (Array.mem_toList_iff.mpr hz) (Array.mem_toList_iff.mpr hz)
  have hplace := gallop_yields hp hle hhint
  rw [h] at hplace
  exact hplace

/-- Galloping for the place of an item of a later run. -/
theorem gallop_not_before_yields {y : α} (hxs : ∀ z ∈ xs, z ∈ items) (hy : y ∈ items)
    {lo n hint : ℕ} (hle : hint ≤ n) (hhint : lo + hint < xs.size → hint < n) :
    Yields before items (fun k => k ≤ n)
      (gallop (fun z => (before y z).map (!·)) xs lo n hint) :=
  gallop_yields (fun z hz => yields_not_before hy (hxs z hz)) hle hhint

/-- Galloping for the place of an item of an earlier run. -/
theorem gallop_before_yields {x : α} (hxs : ∀ z ∈ xs, z ∈ items) (hx : x ∈ items)
    {lo n hint : ℕ} (hle : hint ≤ n) (hhint : lo + hint < xs.size → hint < n) :
    Yields before items (fun k => k ≤ n) (gallop (before · x) xs lo n hint) :=
  gallop_yields (fun z hz => yields_before (hxs z hz) hx) hle hhint

end Search

/-! ### Merging -/

/-- The **content** of an array: its items without their order. -/
def content (xs : Array α) : Multiset α := (xs.toList : Multiset α)

@[simp] theorem mem_content {x : α} {xs : Array α} : x ∈ content xs ↔ x ∈ xs := by
  simp [content]

@[simp] theorem content_append (xs ys : Array α) :
    content (xs ++ ys) = content xs + content ys := by
  simp [content]

@[simp] theorem content_push (xs : Array α) (x : α) : content (xs.push x) = content xs + {x} := by
  rw [content, Array.toList_push, ← Multiset.coe_add]
  rfl

@[simp] theorem content_toArray (xs : List α) : content xs.toArray = (xs : Multiset α) := rfl

/-- An array is made of what stands before an index and what stands from there on. -/
theorem content_extract_add {xs : Array α} {i j k : ℕ} (hij : i ≤ j) (hjk : j ≤ k) :
    content (xs.extract i j) + content (xs.extract j k) = content (xs.extract i k) := by
  rw [← content_append, Array.extract_append_extract, min_eq_left hij, max_eq_right hjk]

/-- One item between two indices. -/
theorem content_extract_succ {xs : Array α} {i : ℕ} {x : α} (h : xs[i]? = some x) :
    content (xs.extract i (i + 1)) = {x} := by
  obtain ⟨hi, rfl⟩ := Array.getElem?_eq_some_iff.mp h
  rw [content, Array.toList_extract, List.extract_eq_take_drop]
  simp [List.take_one, hi]

/-- The last items are the first of them and **those after**. -/
theorem content_lastItems_split {xs : Array α} {n k : ℕ} (hk : k ≤ n) (hn : n ≤ xs.size) :
    content (lastItems xs n) =
      content ((lastItems xs n).extract 0 k) + content (lastItems xs (n - k)) := by
  have hextract : (lastItems xs n).extract 0 k = xs.extract (xs.size - n) (xs.size - n + k) := by
    rw [lastItems, Array.extract_extract]
    congr 1
    omega
  have hrest : xs.size - (n - k) = xs.size - n + k := by omega
  rw [hextract, lastItems, lastItems, hrest, content_extract_add] <;> omega

/-- The last items are the first of them and **one less**. -/
theorem content_lastItems_cons {xs : Array α} {n : ℕ} {x : α} (hpos : 0 < n) (hn : n ≤ xs.size)
    (hx : xs[xs.size - n]? = some x) :
    content (lastItems xs n) = {x} + content (lastItems xs (n - 1)) := by
  have hrest : xs.size - (n - 1) = xs.size - n + 1 := by omega
  rw [lastItems, lastItems, hrest, ← content_extract_succ hx, content_extract_add] <;> omega

@[simp] theorem content_lastItems_zero (xs : Array α) : content (lastItems xs 0) = 0 := by
  simp [lastItems, content]

/-- Merging from the front keeps the content of what is left of both runs. -/
theorem mergeUp_yields {a b : Array α} (ha : ∀ z ∈ a, z ∈ items) (hb : ∀ z ∈ b, z ∈ items)
    {pace : Pace} {patience na nb : ℕ} {out : Array α} (hna : na ≤ a.size) (hnb : nb ≤ b.size) :
    Yields before items
      (fun r => content r.1 = content out + content (lastItems a na) + content (lastItems b nb))
      (mergeUp before a b pace patience na nb out) := by
  fun_induction mergeUp before a b pace patience na nb out with
  | case1 =>
      simp only [Yields, content_append]
      abel
  | case2 patience na nb out hmore x y hy hx leftWins rightWins e he =>
      -- the fault is that of comparing two items
      exact ⟨y, hb y (Array.mem_of_getElem? hy), x, ha x (Array.mem_of_getElem? hx), he⟩
  | case3 patience na nb out hmore x y hy hx leftWins rightWins _ ih =>
      refine (ih hna (by omega)).imp fun r hr => ?_
      rw [hr, content_push, content_lastItems_cons (by omega) hnb hy]
      abel
  | case4 patience na nb out hmore x y hy hx leftWins rightWins _ ih =>
      refine (ih (by omega) hnb).imp fun r hr => ?_
      rw [hr, content_push, content_lastItems_cons (by omega) hna hx]
      abel
  | case5 patience na nb out hmore x y hy hx e he =>
      exact .of_error he
        (gallop_not_before_yields ha (hb y (Array.mem_of_getElem? hy)) (by omega) (by omega))
  | case6 patience na nb out hmore x y hy hx left hleft out' hend =>
      have hle := le_of_gallop (by omega) (by omega) hleft
      simp only [Yields, out', content_append]
      rw [content_lastItems_split hle hna]
      abel
  | case7 patience na nb out hmore x y hy hx left hleft out' hend out'' hnone =>
      -- galloping stops within the run, so there is an item
      have hle := le_of_gallop (by omega) (by omega) hleft
      rw [Array.getElem?_eq_none_iff] at hnone
      omega
  | case8 patience na nb out hmore x y hy hx left hleft hend z hz e he =>
      exact .of_error he
        (gallop_before_yields hb (ha z (Array.mem_of_getElem? hz)) (by omega) (by omega))
  | case9 patience na nb out hmore x y hy hx left hleft out' hend out'' z hz right hright out3
      hend' =>
      have hle := le_of_gallop (by omega) (by omega) hleft
      have hle' := le_of_gallop (by omega) (by omega) hright
      simp only [Yields, out3, out'', out', content_append, content_push]
      rw [content_lastItems_split hle hna, content_lastItems_cons (by omega) hnb hy,
        content_lastItems_split hle' (by omega), show nb - 1 - right = 0 by omega,
        content_lastItems_zero]
      abel
  | case10 patience na nb out hmore x y hy hx left hleft out' hend out'' z hz right hright out3
      hend' pace next hpace next' ih =>
      have hle := le_of_gallop (by omega) (by omega) hleft
      have hle' := le_of_gallop (by omega) (by omega) hright
      have hz' : a[a.size - (na - left)]? = some z := by
        rw [← hz]
        congr 1
        omega
      refine (ih (by omega) (by omega)).imp fun r hr => ?_
      rw [hr, content_push, content_append, content_push, content_append,
        content_lastItems_split hle hna, content_lastItems_cons (by omega) (by omega) hz',
        content_lastItems_cons (by omega) hnb hy, content_lastItems_split hle' (by omega)]
      abel
  | case11 pace patience na nb out hmore hnone =>
      have hx : a.size - na < a.size := by omega
      have hy : b.size - nb < b.size := by omega
      exact (hnone _ _ (Array.getElem?_eq_getElem hx) (Array.getElem?_eq_getElem hy)).elim

/-- The items up to an index are those before it and **the one there**. -/
theorem content_front_concat {xs : Array α} {n : ℕ} {x : α} (hpos : 0 < n)
    (hx : xs[n - 1]? = some x) :
    content (xs.extract 0 n) = content (xs.extract 0 (n - 1)) + {x} := by
  rw [← content_extract_succ hx, content_extract_add] <;> grind

@[simp] theorem coe_toList (xs : Array α) : (xs.toList : Multiset α) = content xs := rfl

/-- Merging from the back keeps the content of what is left of both runs. -/
theorem mergeDown_yields {a b : Array α} (ha : ∀ z ∈ a, z ∈ items) (hb : ∀ z ∈ b, z ∈ items)
    {pace : Pace} {patience na nb : ℕ} {out : List α} (hna : na ≤ a.size) (hnb : nb ≤ b.size) :
    Yields before items
      (fun r => (r.1 : Multiset α) =
        content (a.extract 0 na) + content (b.extract 0 nb) + (out : Multiset α))
      (mergeDown before a b pace patience na nb out) := by
  fun_induction mergeDown before a b pace patience na nb out with
  | case1 =>
      simp only [Yields, ← Multiset.coe_add, coe_toList]
      abel
  | case2 patience na nb out hmore x y hy hx leftWins rightWins e he =>
      -- the fault is that of comparing two items
      exact ⟨y, hb y (Array.mem_of_getElem? hy), x, ha x (Array.mem_of_getElem? hx), he⟩
  | case3 patience na nb out hmore x y hy hx leftWins rightWins _ ih =>
      refine (ih (by omega) hnb).imp fun r hr => ?_
      rw [hr, content_front_concat (by omega) hx, ← Multiset.cons_coe, ← Multiset.singleton_add]
      abel
  | case4 patience na nb out hmore x y hy hx leftWins rightWins _ ih =>
      refine (ih hna (by omega)).imp fun r hr => ?_
      rw [hr, content_front_concat (by omega) hy, ← Multiset.cons_coe, ← Multiset.singleton_add]
      abel
  | case5 patience na nb out hmore x y hy hx e he =>
      exact .of_error he
        (gallop_not_before_yields ha (hb y (Array.mem_of_getElem? hy)) (by omega) (by omega))
  | case6 patience na nb out hmore x y hy hx hleft out' =>
      simp only [Yields, out', ← Multiset.coe_add, coe_toList]
      abel
  | case7 patience na nb out hmore x y hy hx left hleft out' hpos out''
  | case8 patience na nb out hmore x y hy hx left hleft out' hpos out''
  | case9 patience na nb out hmore x y hy hx left hleft out' hpos out'' =>
      have hle := le_of_gallop (by omega) (by omega) hleft
      simp only [Yields, out'', out', ← Multiset.coe_add, coe_toList, ← Multiset.cons_coe,
        ← Multiset.singleton_add]
      rw [content_front_concat (by omega) hy, ← content_extract_add (Nat.zero_le left) hle]
      abel
  | case10 patience na nb out hmore x y hy hx left hleft hpos z hz e he =>
      exact .of_error he
        (gallop_before_yields hb (ha z (Array.mem_of_getElem? hz)) (by omega) (by omega))
  | case11 patience na nb out hmore x y hy hx left hleft out' hpos out'' z hz right hright out3 =>
      have hle := le_of_gallop (by omega) (by omega) hleft
      have hle' := le_of_gallop (by omega) (by omega) hright
      simp only [Yields, out3, out'', out', ← Multiset.coe_add, coe_toList, ← Multiset.cons_coe,
        ← Multiset.singleton_add]
      rw [content_front_concat (by omega) hy, ← content_extract_add (Nat.zero_le left) hle,
        ← content_extract_add (Nat.zero_le right) hle']
      abel
  | case12 patience na nb out hmore x y hy hx left hleft out' hpos out'' z hz right hright out3
      hmore' pace next hpace next' _ _ ih =>
      have hle := le_of_gallop (by omega) (by omega) hleft
      have hle' := le_of_gallop (by omega) (by omega) hright
      rw [min_eq_left hle, min_eq_left (show right ≤ nb by omega)] at ih ⊢
      refine (ih (by omega) (by omega)).imp fun r hr => ?_
      rw [hr]
      simp only [out3, out'', out', ← Multiset.coe_add, coe_toList, ← Multiset.cons_coe,
        ← Multiset.singleton_add]
      rw [content_front_concat (by omega) hy,
        ← content_extract_add (Nat.zero_le left) hle,
        content_front_concat (by omega) hz,
        ← content_extract_add (Nat.zero_le right) hle']
      abel
  | case13 pace patience na nb out hmore hnone =>
      have hx : na - 1 < a.size := by omega
      have hy : nb - 1 < b.size := by omega
      exact (hnone _ _ (Array.getElem?_eq_getElem hx) (Array.getElem?_eq_getElem hy)).elim

/-- The items of a part of an array are **items of the array**. -/
theorem mem_of_mem_extract {x : α} {xs : Array α} {i j : ℕ} (h : x ∈ xs.extract i j) :
    x ∈ xs := by
  obtain ⟨k, hk, rfl⟩ := Array.mem_extract_iff_getElem.mp h
  exact Array.getElem_mem _

/-- Merging from the front, once the first item of the later run is taken. -/
theorem mergeUp_front_yields {a b : Array α} (ha : ∀ z ∈ a, z ∈ items) (hb : ∀ z ∈ b, z ∈ items)
    {pace : Pace} {patience na nb : ℕ} {first : α} (hna : a.size = na) (hnb : b.size = nb)
    (hfirst : b[0]? = some first) :
    Yields before items (fun r => content r.1 = content a + content b)
      (mergeUp before a b pace patience na (nb - 1) #[first]) := by
  subst hna hnb
  refine (mergeUp_yields ha hb (le_refl _) (Nat.sub_le _ _)).imp fun r hr => ?_
  obtain ⟨hpos, -⟩ := Array.getElem?_eq_some_iff.mp hfirst
  have hb' := content_lastItems_cons hpos (le_refl b.size) (by rwa [Nat.sub_self])
  have ha' : lastItems a a.size = a := by simp [lastItems]
  have hb'' : lastItems b b.size = b := by simp [lastItems]
  rw [hb''] at hb'
  rw [hr, hb', ha', show content #[first] = {first} from rfl]
  abel

/-- Merging from the back, once the last item of the earlier run is taken. -/
theorem mergeDown_back_yields {a b : Array α} (ha : ∀ z ∈ a, z ∈ items)
    (hb : ∀ z ∈ b, z ∈ items) {pace : Pace} {patience na nb : ℕ} {last : α} (hna : a.size = na)
    (hnb : b.size = nb) (hlast : a[a.size - 1]? = some last) :
    Yields before items (fun r => (r.1 : Multiset α) = content a + content b)
      (mergeDown before a b pace patience (na - 1) nb [last]) := by
  subst hna hnb
  refine (mergeDown_yields ha hb (Nat.sub_le _ _) (le_refl _)).imp fun r hr => ?_
  obtain ⟨hpos, -⟩ := Array.getElem?_eq_some_iff.mp hlast
  have ha' := content_front_concat (by omega) hlast
  rw [Array.extract_size] at ha'
  rw [hr, ha', Array.extract_size, Multiset.coe_singleton]
  abel

/-- Two merged runs have the content of both. -/
theorem merge_yields {a b : Array α} (ha : ∀ z ∈ a, z ∈ items) (hb : ∀ z ∈ b, z ∈ items)
    (patience : ℕ) :
    Yields before items (fun r => content r.1 = content a + content b)
      (merge before patience a b) := by
  rw [merge]
  split
  · next first last hfirst hlast =>
    obtain ⟨hbpos, -⟩ := Array.getElem?_eq_some_iff.mp hfirst
    obtain ⟨hapos, -⟩ := Array.getElem?_eq_some_iff.mp hlast
    have hfirst' := hb first (Array.mem_of_getElem? hfirst)
    have hlast' := ha last (Array.mem_of_getElem? hlast)
    refine (gallop_not_before_yields ha hfirst' (by omega) (by omega)).bind fun placed hplaced => ?_
    dsimp only
    split
    · exact content_append a b
    refine (gallop_before_yields hb hlast' (by omega) (by omega)).bind fun nb hnb => ?_
    split
    · exact content_append a b
    have hleft : (a.extract placed a.size).size = a.size - placed := by simp
    have hright : (b.extract 0 nb).size = nb := by simp [hnb]
    have hleftItems : ∀ z ∈ a.extract placed a.size, z ∈ items := fun z hz =>
      ha z (mem_of_mem_extract hz)
    have hrightItems : ∀ z ∈ b.extract 0 nb, z ∈ items := fun z hz => hb z (mem_of_mem_extract hz)
    -- what is in place already stays outside of the merge
    have hcontent : content (a.extract 0 placed) + (content (a.extract placed a.size) +
        content (b.extract 0 nb)) + content (b.extract nb b.size) = content a + content b := by
      rw [← add_assoc, content_extract_add (Nat.zero_le placed) hplaced, add_assoc,
        content_extract_add (Nat.zero_le nb) hnb, Array.extract_size, Array.extract_size]
    split
    · refine (mergeUp_front_yields hleftItems hrightItems hleft hright (by grind)).bind
        fun r hr => ?_
      rw [← hcontent, ← hr]
      exact (content_append _ _).trans (by rw [content_append])
    · refine (mergeDown_back_yields hleftItems hrightItems hleft hright (by grind)).bind
        fun r hr => ?_
      rw [← hcontent, ← hr]
      exact (content_append _ _).trans (by simp only [content_append, content_toArray])
  · exact content_append a b

end Sorting

end TreeLint
