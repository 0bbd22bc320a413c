/-!
# Steps That Can Fail

How the outcome of a step in `Except` is taken apart: when a chain of steps succeeds, what a change
of the fault's words leaves as it is, which fault (`fault?`) ends steps over a list, and when two
steps **agree** (`Agrees`).
-/

namespace TreeLint

variable {ε δ α β : Type}

/-- A step and what follows it succeed if the step does and what follows does with its result. -/
theorem bind_eq_ok {x : Except ε α} {f : α → Except ε β} {b : β} :
    x >>= f = .ok b ↔ ∃ a, x = .ok a ∧ f a = .ok b := by
  cases x with
  | error e => exact ⟨nofun, nofun⟩
  | ok a => exact ⟨fun h => ⟨a, rfl, h⟩, fun ⟨_, ha, h⟩ => Except.ok.inj ha ▸ h⟩

@[simp] theorem mapError_ok (f : ε → δ) (a : α) :
    (Except.ok a : Except ε α).mapError f = .ok a := rfl

@[simp] theorem mapError_error (f : ε → δ) (e : ε) :
    (Except.error e : Except ε α).mapError f = .error (f e) := rfl

/-- Renaming faults changes **nothing else**: a result is there exactly if it was there before. -/
theorem mapError_eq_ok {x : Except ε α} {f : ε → δ} {a : α} : x.mapError f = .ok a ↔ x = .ok a := by
  cases x with
  | error e => exact ⟨nofun, nofun⟩
  | ok b => rw [mapError_ok, Except.ok.injEq, Except.ok.injEq]

/-- A mapped result comes from **a result**. -/
theorem map_eq_ok {x : Except ε α} {f : α → β} {b : β} :
    x.map f = .ok b ↔ ∃ a, x = .ok a ∧ f a = b := by
  cases x with
  | error e => exact ⟨nofun, nofun⟩
  | ok a => exact ⟨fun h => ⟨a, rfl, Except.ok.inj h⟩, fun ⟨_, ha, h⟩ => Except.ok.inj ha ▸ h ▸ rfl⟩

/-- A computation whose result is known as an option **has that result**. -/
theorem eq_ok_of_toOption {x : Except ε α} {a : α} (h : x.toOption = some a) : x = .ok a := by
  cases x with
  | error e => cases h
  | ok b => rw [Option.some.inj h]

/-- What has a list without elements has the empty list. -/
theorem eq_ok_nil_of_length {x : Except ε (List α)} (h : x.toOption.map List.length = some 0) :
    x = .ok [] := by
  obtain ⟨xs, hxs, hlength⟩ := Option.map_eq_some_iff.mp h
  rw [eq_ok_of_toOption hxs, List.length_eq_zero_iff.mp hlength]

/-- A test of several images that has its result for each of them has it for all. -/
theorem anyM_map_of_ok {p : β → Except ε Bool} {f : α → β} {q : α → Bool} {xs : List α}
    (h : ∀ x ∈ xs, p (f x) = .ok (q x)) : (xs.map f).anyM p = .ok (xs.any q) := by
  induction xs with
  | nil => rfl
  | cons x xs ih =>
      rw [List.map_cons, List.anyM, h x List.mem_cons_self, List.any_cons]
      cases q x with
      | true => rfl
      | false => exact ih fun y hy => h y (List.mem_cons_of_mem x hy)

/-- A test of several things has a result if the test of each of them does. -/
theorem exists_anyM {p : α → Except ε Bool} {xs : List α}
    (h : ∀ x ∈ xs, ∃ b, p x = .ok b) : ∃ b, xs.anyM p = .ok b := by
  induction xs with
  | nil => exact ⟨false, rfl⟩
  | cons x xs ih =>
      obtain ⟨b, hb⟩ := h x List.mem_cons_self
      rw [List.anyM, hb]
      cases b with
      | true => exact ⟨true, rfl⟩
      | false => exact ih fun y hy => h y (List.mem_cons_of_mem x hy)

/-! ### Faults -/

/-- The **fault** that a step ends with. -/
def fault? : Except ε α → Option ε
  | .error e => some e
  | .ok _ => none

@[simp] theorem fault?_ok (a : α) : fault? (.ok a : Except ε α) = none := rfl

@[simp] theorem fault?_error (e : ε) : fault? (.error e : Except ε α) = some e := rfl

/-- The fault of a computation is the one it **ends with**. -/
theorem fault?_eq_some_iff {x : Except ε α} {e : ε} : fault? x = some e ↔ x = .error e := by
  cases x with
  | error e' => simp [fault?]
  | ok a => simp [fault?]

/-- A computation without a fault **has a result**. -/
theorem fault?_eq_none_iff {x : Except ε α} : fault? x = none ↔ ∃ a, x = .ok a := by
  cases x <;> simp

/-- The fault of two computations in a row is that of **the first which fails**. -/
theorem fault?_bind (x : Except ε α) (f : α → Except ε β) :
    fault? (x >>= f) = match x with
      | .error e => some e
      | .ok a => fault? (f a) := by
  cases x <;> rfl

/-- Steps over a list end with the **first** fault. -/
theorem fault?_mapM (f : α → Except ε β) (xs : List α) :
    fault? (xs.mapM f) = xs.findSome? fun x => fault? (f x) := by
  induction xs with
  | nil => rfl
  | cons x xs ih =>
      rw [List.mapM_cons, fault?_bind, List.findSome?_cons]
      cases f x with
      | error e => rfl
      | ok b =>
          rw [fault?_ok, ← ih]
          cases xs.mapM f <;> rfl

/-- Steps over a list succeed if **each of them** does. -/
theorem exists_mapM_iff {f : α → Except ε β} {xs : List α} :
    (∃ ys, xs.mapM f = .ok ys) ↔ ∀ x ∈ xs, ∃ y, f x = .ok y := by
  simp only [← fault?_eq_none_iff, fault?_mapM, List.findSome?_eq_none_iff]

/-- What steps over a list give is what they give **one by one**. -/
theorem map_of_mapM {f : α → Except ε β} {xs : List α} {ys : List β} (h : xs.mapM f = .ok ys) :
    xs.map f = ys.map .ok := by
  induction xs generalizing ys with
  | nil =>
      obtain rfl := Except.ok.inj h
      rfl
  | cons x xs ih =>
      rw [List.mapM_cons] at h
      obtain ⟨y, hy, h⟩ := bind_eq_ok.mp h
      obtain ⟨rest, hrest, h⟩ := bind_eq_ok.mp h
      obtain rfl := Except.ok.inj h
      rw [List.map_cons, List.map_cons, hy, ih hrest]

/-- What steps over a list give is what **one of them** gives. -/
theorem mem_of_mapM_iff {f : α → Except ε β} {xs : List α} {ys : List β}
    (h : xs.mapM f = .ok ys) {y : β} : y ∈ ys ↔ ∃ x ∈ xs, f x = .ok y := by
  have hmem : .ok y ∈ ys.map (Except.ok : β → Except ε β) ↔ .ok y ∈ xs.map f := by
    rw [map_of_mapM h]
  simpa using hmem

/-- A test of several things fails where the test of one of them does, **unless** an earlier one
passes the test. -/
theorem fault?_anyM {p : α → Except ε Bool} {q : α → Bool} (h : ∀ x, p x = .ok true ↔ q x)
    (xs : List α) :
    fault? (xs.anyM p) = (xs.takeWhile fun x => !q x).findSome? fun x => fault? (p x) := by
  induction xs with
  | nil => rfl
  | cons x xs ih =>
      have hx := h x
      rw [List.anyM, List.takeWhile_cons]
      cases hp : p x with
      | error e =>
          have hq : q x = false := by simpa [hp] using hx
          simp only [hq, Bool.not_false, if_true, List.findSome?_cons, hp, fault?_error]
          rfl
      | ok b =>
          obtain rfl : q x = b := by cases b <;> simpa [hp] using hx
          cases hq : q x with
          | true => rfl
          | false =>
              simp only [Bool.not_false, if_true, List.findSome?_cons, hp, hq, fault?_ok, ← ih]
              rfl

/-! ### Agreement -/

/-- Two steps **agree** if both fail with one fault, or both succeed with related results. -/
inductive Agrees (R : α → β → Prop) : Except ε α → Except ε β → Prop
  | error (e : ε) : Agrees R (.error e) (.error e)
  | ok {a : α} {b : β} (h : R a b) : Agrees R (.ok a) (.ok b)

namespace Agrees

variable {γ ζ : Type} {R : α → β → Prop} {x : Except ε α} {y : Except ε β}

/-- Computations in a row agree if **each of them** does, on related results. -/
theorem bind {S : γ → ζ → Prop} {f : α → Except ε γ} {g : β → Except ε ζ} (h : Agrees R x y)
    (hfg : ∀ a b, R a b → Agrees S (f a) (g b)) : Agrees S (x >>= f) (y >>= g) := by
  cases h with
  | error e => exact .error e
  | ok h => exact hfg _ _ h

/-- Agreement is kept when faults are **renamed alike**. -/
theorem mapError (h : Agrees R x y) (f : ε → δ) : Agrees R (x.mapError f) (y.mapError f) := by
  cases h with
  | error e => exact .error (f e)
  | ok h => exact .ok h

/-- Computations that agree have **the same fault**, or none. -/
theorem fault?_eq (h : Agrees R x y) : fault? x = fault? y := by cases h <;> rfl

/-- Computations that agree on equal results are **equal**. -/
theorem eq {x y : Except ε α} (h : Agrees (· = ·) x y) : x = y := by
  cases h with
  | error e => rfl
  | ok h => rw [h]

end Agrees

end TreeLint
