/-!
# Totals

The total of a list of numbers: widths of the columns of a table, weights of the parts of a tree.
-/

namespace TreeLint

/-- The total of a list of numbers. -/
def total : List Nat → Nat
  | [] => 0
  | n :: rest => n + total rest

@[simp] theorem total_nil : total [] = 0 := rfl

@[simp] theorem total_cons (n : Nat) (rest : List Nat) : total (n :: rest) = n + total rest := rfl

@[simp] theorem total_append (xs ys : List Nat) : total (xs ++ ys) = total xs + total ys := by
  induction xs with
  | nil => simp
  | cons x xs ih =>
    simp only [List.cons_append, total_cons, ih]
    omega

@[simp] theorem total_reverse (xs : List Nat) : total xs.reverse = total xs := by
  induction xs with
  | nil => rfl
  | cons x xs ih =>
    simp only [List.reverse_cons, total_append, total_cons, total_nil, ih]
    omega

/-- No number of a list is greater than the total. -/
theorem le_total_of_mem {n : Nat} {ns : List Nat} (h : n ∈ ns) : n ≤ total ns := by
  induction ns with
  | nil => exact nomatch h
  | cons m ns ih =>
    rcases List.mem_cons.mp h with rfl | h
    · exact Nat.le_add_right n (total ns)
    · have := ih h
      simp only [total_cons]
      omega

end TreeLint
