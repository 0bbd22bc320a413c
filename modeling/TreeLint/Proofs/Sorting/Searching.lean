import Mathlib.Data.List.Basic
import TreeLint.Sorting

/-!
# Searching Finds the Dividing Place

A test **divides** a stretch of an array at a place if it holds at every index before the place and
fails at every index from there on (`Divides`). Halving and galloping then find that place, wherever
the gallop starts and however its strides fall: each of them only narrows the stretch down, and the
place stays inside.

Where the items of the stretch are such that the test, once it fails, goes on failing, there is such
a place, and a gallop tells how the stretch is made of a front that passes and a rest that does not
(`exists_split_of_gallop`). This is all that merging needs to know about a gallop.

## Main results

* `bisect_of_divides`, `gallop_of_divides`: the searches end at the dividing place.
* `exists_split_of_gallop`: a gallop counts the front of a stretch that passes.
-/

namespace TreeLint.Sorting

variable {α ε : Type} {p : α → Except ε Bool} {xs : Array α}

/-- A test **divides** the indices from `lo` to `hi` at a place. -/
structure Divides (p : α → Except ε Bool) (xs : Array α) (lo hi place : ℕ) : Prop where
  lo_le : lo ≤ place
  le_hi : place ≤ hi
  passes : ∀ i, lo ≤ i → i < place → testAt p xs i = .ok true
  fails : ∀ i, place ≤ i → i < hi → testAt p xs i = .ok false

namespace Divides

variable {lo hi place : ℕ}

/-- The stretch may be narrowed down as long as the place stays inside. -/
theorem narrow (h : Divides p xs lo hi place) (lo' hi' : ℕ) (hlo : lo ≤ lo') (hlo' : lo' ≤ place)
    (hhi : place ≤ hi') (hhi' : hi' ≤ hi) : Divides p xs lo' hi' place where
  lo_le := hlo'
  le_hi := hhi
  passes i hi := h.passes i (by omega)
  fails i hi hi' := h.fails i hi (by omega)

/-- An index at which the test holds is before the place. -/
theorem lt_place (h : Divides p xs lo hi place) {i : ℕ} (hi' : i < hi)
    (htest : testAt p xs i = .ok true) : i < place := by
  by_contra hle
  rw [h.fails i (by omega) hi'] at htest
  exact nomatch htest

/-- An index at which the test fails is not before the place. -/
theorem place_le (h : Divides p xs lo hi place) {i : ℕ} (hlo : lo ≤ i)
    (htest : testAt p xs i = .ok false) : place ≤ i := by
  by_contra hlt
  rw [h.passes i hlo (by omega)] at htest
  exact nomatch htest

/-- No test of the stretch is a fault. -/
theorem testAt_ne_error (h : Divides p xs lo hi place) {i : ℕ} (hlo : lo ≤ i) (hi' : i < hi)
    {e : ε} : testAt p xs i ≠ .error e := by
  intro htest
  rcases Nat.lt_or_ge i place with hlt | hge
  · exact nomatch (h.passes i hlo hlt).symm.trans htest
  · exact nomatch (h.fails i hge hi').symm.trans htest

end Divides

/-- Halving ends at the dividing place. -/
theorem bisect_of_divides {lo hi place : ℕ} (h : Divides p xs lo hi place) :
    bisect p xs lo hi = .ok place := by
  fun_induction bisect p xs lo hi with
  | case1 lo hi hlt mid e he => exact absurd he (h.testAt_ne_error (by omega) (by omega))
  | case2 lo hi hlt mid htest ih =>
      have := h.lt_place (by omega) htest
      exact ih (h.narrow _ _ (by omega) (by omega) h.le_hi (Nat.le_refl hi))
  | case3 lo hi hlt mid htest ih =>
      have := h.place_le (by omega) htest
      exact ih (h.narrow _ _ (Nat.le_refl lo) h.lo_le (by omega) (by omega))
  | case4 lo hi hlt =>
      have := h.lo_le
      have := h.le_hi
      rw [show lo = place by omega]

/-- Strides up end with the place between the last two of them. -/
theorem exists_strideUp {lo start limit place last : ℕ} (stride : ℕ)
    (h : Divides p xs lo (start + limit) place) (hlo : lo ≤ start) (hlast : start + last < place) :
    ∃ last' stride', strideUp p xs start limit last stride = .ok (last', stride') ∧
      start + last' < place ∧ place ≤ start + stride' ∧ stride' ≤ limit := by
  fun_induction strideUp p xs start limit last stride with
  | case1 last stride hlt e he => exact absurd he (h.testAt_ne_error (by omega) (by omega))
  | case2 last stride hlt htest ih => exact ih (h.lt_place (by omega) htest)
  | case3 last stride hlt htest =>
      exact ⟨last, stride, rfl, hlast, h.place_le (by omega) htest, Nat.le_of_lt hlt⟩
  | case4 last stride hlt => exact ⟨last, limit, rfl, hlast, h.le_hi, Nat.le_refl limit⟩

/-- Strides down end with the place between the last two of them. -/
theorem exists_strideDown {lo hi start limit place last : ℕ} (stride : ℕ)
    (h : Divides p xs lo hi place) (hlo : lo + limit = start + 1) (hstart : start < hi)
    (hlast : place ≤ start - last) :
    ∃ last' stride', strideDown p xs start limit last stride = .ok (last', stride') ∧
      place ≤ start - last' ∧ start + 1 - stride' ≤ place ∧ lo ≤ start + 1 - stride' := by
  fun_induction strideDown p xs start limit last stride with
  | case1 last stride hlt e he => exact absurd he (h.testAt_ne_error (by omega) (by omega))
  | case2 last stride hlt htest =>
      have := h.lt_place (by omega) htest
      exact ⟨last, stride, rfl, hlast, by omega, by omega⟩
  | case3 last stride hlt htest ih => exact ih (h.place_le (by omega) htest)
  | case4 last stride hlt =>
      have := h.lo_le
      exact ⟨last, limit, rfl, hlast, by omega, by omega⟩

/-- Galloping ends at the dividing place, **wherever it starts**: at one of the items, or at the end
of the array when there are none. -/
theorem gallop_of_divides {lo n hint place : ℕ} (h : Divides p xs lo (lo + n) place)
    (hhint : hint < n ∨ n = 0 ∧ hint = 0 ∧ xs.size ≤ lo) :
    gallop p xs lo n hint = .ok (place - lo) := by
  have hlo := h.lo_le
  have hhi := h.le_hi
  rcases hhint with hlt | ⟨rfl, rfl, hsize⟩
  · cases htest : testAt p xs (lo + hint) with
    | error e => exact absurd htest (h.testAt_ne_error (by omega) (by omega))
    | ok passes =>
        cases passes with
        | true =>
            have hstart := h.lt_place (by omega) htest
            have h' : Divides p xs lo (lo + hint + (n - hint)) place := by
              rwa [show lo + hint + (n - hint) = lo + n by omega]
            obtain ⟨last, stride, hstride, hlast, hplace, hlimit⟩ :=
              exists_strideUp 1 h' (by omega) (show lo + hint + 0 < place by omega)
            have hbisect := bisect_of_divides (h.narrow (lo + hint + last + 1)
              (lo + hint + stride) (by omega) (by omega) hplace (by omega))
            simp [gallop, htest, hstride, hbisect, bind, Except.bind, pure, Except.pure]
        | false =>
            have hstart := h.place_le (by omega) htest
            have hlimit : lo + (hint + 1) = lo + hint + 1 := by omega
            obtain ⟨last, stride, hstride, hlast, hplace, hlo'⟩ :=
              exists_strideDown 1 h hlimit (by omega) (show place ≤ lo + hint - 0 by omega)
            have hbisect := bisect_of_divides (h.narrow (lo + hint + 1 - stride)
              (lo + hint - last) hlo' hplace hlast (by omega))
            simp [gallop, htest, hstride, hbisect, bind, Except.bind, pure, Except.pure]
  · have hnone : testAt p xs lo = .ok false := by simp [testAt, hsize]
    obtain rfl : place = lo := by omega
    simp [gallop, hnone, strideDown, bisect, bind, Except.bind, pure, Except.pure]

/-! ### Stretches of items -/

/-- The `n` items of an array from `lo` on. -/
def stretch (xs : Array α) (lo n : ℕ) : List α := (xs.toList.drop lo).take n

/-- If the items of a stretch pass a test up to some place and then no longer, the test divides it
there. -/
theorem divides_of_stretch {lo n : ℕ} {front rest : List α} {passes : α → Bool}
    (hp : ∀ z ∈ xs, p z = .ok (passes z)) (hsize : lo + n ≤ xs.size)
    (hsplit : stretch xs lo n = front ++ rest) (hfront : ∀ z ∈ front, passes z = true)
    (hrest : ∀ z ∈ rest, passes z = false) :
    Divides p xs lo (lo + n) (lo + front.length) := by
  have hlength : front.length + rest.length = n := by
    rw [← List.length_append, ← hsplit]
    simp [stretch]
    omega
  have hitem : ∀ i, i < n → ∃ z ∈ xs, (front ++ rest)[i]? = some z ∧
      testAt p xs (lo + i) = .ok (passes z) := by
    intro i hi
    have hget : xs[lo + i]? = some xs[lo + i] := Array.getElem?_eq_getElem (by omega)
    refine ⟨xs[lo + i], Array.getElem_mem _, ?_, ?_⟩
    · rw [← hsplit, stretch, List.getElem?_take_of_lt hi, List.getElem?_drop,
        Array.getElem?_toList, hget]
    · rw [testAt, hget]
      exact hp _ (Array.getElem_mem _)
  refine ⟨by omega, by omega, fun i hlo hlt => ?_, fun i hge hi => ?_⟩
  · obtain ⟨z, -, hz, htest⟩ := hitem (i - lo) (by omega)
    rw [List.getElem?_append_left (by omega)] at hz
    rw [show lo + (i - lo) = i by omega, hfront z (List.mem_of_getElem? hz)] at htest
    exact htest
  · obtain ⟨z, -, hz, htest⟩ := hitem (i - lo) (by omega)
    rw [List.getElem?_append_right (by omega)] at hz
    rw [show lo + (i - lo) = i by omega, hrest z (List.mem_of_getElem? hz)] at htest
    exact htest

/-- A list in which a test, once it fails, goes on failing is a **front that passes** and a rest
that does not. -/
theorem exists_split {passes : α → Bool} {zs : List α}
    (h : zs.Pairwise fun a b => passes b = true → passes a = true) :
    ∃ front rest, zs = front ++ rest ∧ (∀ z ∈ front, passes z = true) ∧
      ∀ z ∈ rest, passes z = false := by
  induction zs with
  | nil => exact ⟨[], [], rfl, by simp, by simp⟩
  | cons z zs ih =>
      obtain ⟨hz, hzs⟩ := List.pairwise_cons.mp h
      by_cases hpass : passes z = true
      · obtain ⟨front, rest, rfl, hfront, hrest⟩ := ih hzs
        exact ⟨z :: front, rest, rfl, by simpa [hpass] using hfront, hrest⟩
      · refine ⟨[], z :: zs, rfl, by simp, fun y hy => ?_⟩
        rw [Bool.not_eq_true] at hpass
        rcases List.mem_cons.mp hy with rfl | hy
        · exact hpass
        · exact Bool.eq_false_iff.mpr fun hpass' => by simp [hz y hy hpass'] at hpass

/-- A **gallop** counts the front of a stretch that passes the test. -/
theorem exists_split_of_gallop {lo n hint : ℕ} {passes : α → Bool}
    (hp : ∀ z ∈ xs, p z = .ok (passes z)) (hsize : lo + n ≤ xs.size)
    (hstretch : (stretch xs lo n).Pairwise fun a b => passes b = true → passes a = true)
    (hhint : hint < n ∨ n = 0 ∧ hint = 0 ∧ xs.size ≤ lo) :
    ∃ front rest, stretch xs lo n = front ++ rest ∧ (∀ z ∈ front, passes z = true) ∧
      (∀ z ∈ rest, passes z = false) ∧ gallop p xs lo n hint = .ok front.length := by
  obtain ⟨front, rest, hsplit, hfront, hrest⟩ := exists_split hstretch
  refine ⟨front, rest, hsplit, hfront, hrest, ?_⟩
  rw [gallop_of_divides (divides_of_stretch hp hsize hsplit hfront hrest) hhint,
    Nat.add_sub_cancel_left]

/-- **Halving** a whole array counts the front that passes the test. -/
theorem exists_split_of_bisect {passes : α → Bool} (hp : ∀ z ∈ xs, p z = .ok (passes z))
    (h : xs.toList.Pairwise fun a b => passes b = true → passes a = true) :
    ∃ front rest, xs.toList = front ++ rest ∧ (∀ z ∈ front, passes z = true) ∧
      (∀ z ∈ rest, passes z = false) ∧ bisect p xs 0 xs.size = .ok front.length := by
  have hall : stretch xs 0 xs.size = xs.toList := List.take_of_length_le (by simp)
  obtain ⟨front, rest, hsplit, hfront, hrest⟩ := exists_split h
  refine ⟨front, rest, hsplit, hfront, hrest, ?_⟩
  have hdivides := divides_of_stretch hp (Nat.le_of_eq (Nat.zero_add xs.size))
    (hall.trans hsplit) hfront hrest
  rw [Nat.zero_add, Nat.zero_add] at hdivides
  exact bisect_of_divides hdivides

end TreeLint.Sorting
