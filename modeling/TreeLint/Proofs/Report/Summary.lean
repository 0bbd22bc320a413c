import Mathlib.Data.List.Basic
import TreeLint.Report.Basic

/-!
# What a Summary Tells

A summary is a line of text: counts with their nouns, of which those that are zero are mostly
left out. A reader takes the counts back from it as the numbers in the text, each with the word
after it. They are the counts of the result that the summary belongs to, and two lists of reports
with the same summary have the same counts, unless neither has anything to tell.

The summary is first split into a `Tally` of the reports and the text of the tally. The numbers of
that text are found phrase by phrase (`Tally.counts_text`), and since the phrases tell each count
(`Tally.phrases_injective`), the text does too.

## Main results

* `Tally.counts_text`: the numbers in a summary are those of its phrases.
* `summarize_faithful`: which reports have the same summary, and what numbers a summary has.
-/

namespace TreeLint

/-! ### Numbers in a text -/

namespace Text

/-- The **words** of a text: its runs of letters and digits. -/
def alphanumericRuns (cs : List Char) : List (List Char) :=
  (cs.splitOnP fun c => !c.isAlphanum).filter fun word => !word.isEmpty

/-- A character that is no letter or digit **separates** words. -/
theorem alphanumericRuns_append {c : Char} (hc : c.isAlphanum = false) (cs ds : List Char) :
    alphanumericRuns (cs ++ c :: ds) = alphanumericRuns cs ++ alphanumericRuns ds := by
  rw [alphanumericRuns, List.splitOnP_append_cons _ _ (by simp [hc]), List.filter_append]
  rfl

/-- Before the first word such a character makes **no difference**. -/
theorem alphanumericRuns_cons {c : Char} (hc : c.isAlphanum = false) (cs : List Char) :
    alphanumericRuns (c :: cs) = alphanumericRuns cs := alphanumericRuns_append hc [] cs

/-- Letters and digits alone are **one word**. -/
theorem alphanumericRuns_word {word : List Char} (hne : word ≠ [])
    (h : ∀ c ∈ word, c.isAlphanum) : alphanumericRuns word = [word] := by
  rw [alphanumericRuns, List.splitOnP_eq_singleton fun c hc => by simp [h c hc]]
  simp [hne]

/-- The **numbers** among words, each with the word after it. -/
def countsAmong : List (List Char) → List (Nat × String)
  | number :: noun :: rest =>
    if number.all Char.isDigit then
      (Nat.ofDigitChars 10 number 0, String.ofList noun) :: countsAmong (noun :: rest)
    else countsAmong (noun :: rest)
  | _ => []

/-- The **numbers of a text**, each with the word after it. -/
def counts (text : String) : List (Nat × String) := countsAmong (alphanumericRuns text.toList)

/-- A word that is no number makes **no count**. -/
theorem countsAmong_word {word : List Char} (h : word.all Char.isDigit = false)
    (rest : List (List Char)) : countsAmong (word :: rest) = countsAmong rest := by
  cases rest with
  | nil => rfl
  | cons next rest => simp [countsAmong, h]

/-- A number makes a count with **the word after it**. -/
theorem countsAmong_number {noun : List Char} (h : noun.all Char.isDigit = false) (n : ℕ)
    (rest : List (List Char)) :
    countsAmong (Nat.toDigits 10 n :: noun :: rest) =
      (n, String.ofList noun) :: countsAmong rest := by
  have hdigits : (Nat.toDigits 10 n).all Char.isDigit = true := List.all_eq_true.mpr fun c hc =>
    Nat.isDigit_of_mem_toDigits (by decide) (by decide) hc
  rw [countsAmong, if_pos hdigits, countsAmong_word h,
    Nat.ofDigitChars_toDigits (by decide) (by decide)]

end Text

/-! ### Counted nouns -/

/-- A noun in the **plural**, unless there is one of it. -/
def nounFor (n : ℕ) (noun : String) : String := if n = 1 then noun else noun ++ "s"

/-- A counted noun is **its number**, a blank, and the noun. -/
theorem toList_counted (n : ℕ) (noun : String) :
    (counted n noun).toList = Nat.toDigits 10 n ++ ' ' :: (nounFor n noun).toList := by
  unfold counted nounFor
  split <;> simp [toString, Nat.repr_eq_ofList_toDigits]

/-- A **word** of letters only. -/
def IsWord (word : String) : Prop := word ≠ "" ∧ word.toList.all Char.isAlpha

instance : DecidablePred IsWord := fun _ => inferInstanceAs (Decidable (_ ∧ _))

/-- A letter is **no digit**. -/
theorem isDigit_of_isAlpha {c : Char} (h : c.isAlpha) : c.isDigit = false := by
  have hletter : 'A'.val ≤ c.val := by
    rcases Bool.or_eq_true_iff.mp h with hupper | hlower
    · exact (of_decide_eq_true hupper).1
    · have hle : 'a'.val ≤ c.val := of_decide_eq_true (Bool.and_eq_true_iff.mp hlower).1
      exact UInt32.le_trans (by decide) hle
  have hdigit : ¬ c.val ≤ '9'.val := fun hc => absurd (UInt32.le_trans hletter hc) (by decide)
  exact Bool.and_eq_false_iff.mpr (.inr (decide_eq_false hdigit))

namespace IsWord

variable {word : String} (h : IsWord word)

include h

/-- A word has **letters** only. -/
theorem isAlpha_of_mem {c : Char} (hc : c ∈ word.toList) : c.isAlpha :=
  List.all_eq_true.mp h.2 c hc

/-- A word is **no number**. -/
theorem all_isDigit_toList : word.toList.all Char.isDigit = false := by
  obtain ⟨c, rest, hword⟩ := List.exists_cons_of_ne_nil (l := word.toList) (by simpa using h.1)
  rw [hword, List.all_cons, isDigit_of_isAlpha (h.isAlpha_of_mem (by simp [hword])), Bool.false_and]

/-- A word is **one word** of its own text. -/
theorem alphanumericRuns_toList : Text.alphanumericRuns word.toList = [word.toList] :=
  Text.alphanumericRuns_word (by simpa using h.1) fun c hc => by
    simp [Char.isAlphanum, h.isAlpha_of_mem hc]

/-- The plural of a word is **a word**. -/
theorem nounFor (n : ℕ) : IsWord (nounFor n word) := by
  unfold TreeLint.nounFor
  split
  · exact h
  · refine ⟨by simp, ?_⟩
    rw [String.toList_append, List.all_append, h.2, Bool.true_and]
    rfl

/-- A word before a text adds **no number** to it. -/
theorem countsAmong_append (rest : List (List Char)) :
    Text.countsAmong (Text.alphanumericRuns word.toList ++ rest) = Text.countsAmong rest := by
  rw [h.alphanumericRuns_toList, List.singleton_append, Text.countsAmong_word h.all_isDigit_toList]

/-- A counted noun is **read back**. -/
theorem countsAmong_counted (n : ℕ) (rest : List (List Char)) :
    Text.countsAmong (Text.alphanumericRuns (counted n word).toList ++ rest) =
      (n, TreeLint.nounFor n word) :: Text.countsAmong rest := by
  have hnoun := h.nounFor n
  have hdigits : ∀ c ∈ Nat.toDigits 10 n, c.isAlphanum := fun c hc => by
    simp [Char.isAlphanum, Nat.isDigit_of_mem_toDigits (by decide) (by decide) hc]
  rw [toList_counted, Text.alphanumericRuns_append (by decide),
    Text.alphanumericRuns_word Nat.toDigits_ne_nil hdigits, hnoun.alphanumericRuns_toList,
    List.singleton_append, List.cons_append, List.singleton_append,
    Text.countsAmong_number hnoun.all_isDigit_toList, String.ofList_toList]

end IsWord

/-! ### What a summary says -/

/-- What a summary **counts**. -/
structure Tally where
  errors : ℕ
  warnings : ℕ
  failed : ℕ
  files : ℕ

namespace Tally

/-- The counts of a list of reports. -/
def ofReports (reports : List FileReport) : Tally where
  errors := ((reports.flatMap FileReport.diagnostics).filter fun d => d.severity = .error).length
  warnings :=
    ((reports.flatMap FileReport.diagnostics).filter fun d => d.severity = .warning).length
  failed := (reports.filter fun r => r.error ≠ none).length
  files := reports.length

/-- A count with its noun, **unless it is zero**. -/
def mention (n : ℕ) (noun : String) : List (ℕ × String) := if n = 0 then [] else [(n, noun)]

/-- The diagnostics of each severity. -/
def severities (t : Tally) : List (ℕ × String) :=
  mention t.errors "error" ++ mention t.warnings "warning"

/-- The **phrases** of a summary, in their order: counts with their nouns in the singular. -/
def phrases (t : Tally) : List (ℕ × String) :=
  (t.errors + t.warnings, "problem") :: (t.severities ++ (t.files, "file") ::
    mention t.failed "file")

/-- Counts are told apart by **what is mentioned**. -/
theorem mention_inj {m n : ℕ} {noun : String} (h : mention m noun = mention n noun) : m = n := by
  unfold mention at h
  split_ifs at h <;> simp_all

/-- What is mentioned is kept **whole or not at all**. -/
theorem filter_mention {p : ℕ × String → Bool} {n : ℕ} {noun : String} :
    (mention n noun).filter p = if p (n, noun) then mention n noun else [] := by
  unfold mention
  split_ifs <;> simp_all

/-- The phrases of a summary tell **each count**. -/
theorem phrases_injective : Function.Injective phrases := by
  intro t u h
  have herrors := congrArg (List.filter fun p => p.2 = "error") h
  have hwarnings := congrArg (List.filter fun p => p.2 = "warning") h
  have hfiles := congrArg (List.filter fun p => p.2 = "file") h
  simp only [phrases, severities, List.append_assoc, String.reduceEq, decide_false,
    Bool.false_eq_true, not_false_eq_true, List.filter_cons_of_neg, List.filter_append,
    filter_mention, decide_true, if_true, if_false, List.append_nil, List.nil_append,
    List.filter_cons_of_pos, List.cons.injEq, Prod.mk.injEq, and_true] at herrors hwarnings hfiles
  obtain ⟨hfiles, hfailed⟩ := hfiles
  cases t
  cases u
  simp only [mk.injEq]
  exact ⟨mention_inj herrors, mention_inj hwarnings, mention_inj hfailed, hfiles⟩

/-- How the diagnostics **split** into severities. -/
def split (t : Tally) : String :=
  let parts := t.severities.map fun p => counted p.1 p.2
  if parts.isEmpty then "" else " (" ++ ", ".intercalate parts ++ ")"

/-- The sentence about the files that could not be analysed. -/
def unread (t : Tally) : String :=
  if t.failed = 0 then "" else " " ++ counted t.failed "file" ++ " could not be analysed."

/-- The text of a summary. -/
def text (t : Tally) : String :=
  "Found " ++ counted (t.errors + t.warnings) "problem" ++ t.split ++ " in " ++
    counted t.files "file" ++ "." ++ t.unread

end Tally

/-- Reports with **nothing to tell**: no diagnostics, and no file that could not be analysed. -/
def AreClean (reports : List FileReport) : Prop :=
  ∀ r ∈ reports, r.diagnostics = [] ∧ r.error = none

/-- Every diagnostic is an error or a warning. -/
theorem length_eq_countOf_add (ds : List Diagnostic) :
    ds.length = LintResult.countOf .error ds + LintResult.countOf .warning ds := by
  rw [LintResult.countOf, LintResult.countOf,
    List.length_eq_countP_add_countP fun d : Diagnostic => d.severity == .error]
  congr 2
  funext d
  cases d.severity <;> rfl

/-- Reports are clean exactly if **nothing is counted** in them. -/
theorem areClean_iff {reports : List FileReport} :
    AreClean reports ↔ ((reports.flatMap FileReport.diagnostics).isEmpty &&
      reports.countP FileReport.failed = 0) = true := by
  simp only [AreClean, Bool.and_eq_true, List.isEmpty_iff, List.flatMap_eq_nil_iff,
    decide_eq_true_eq, List.countP_eq_zero, FileReport.failed, Bool.not_eq_true,
    Option.isSome_eq_false_iff, Option.isNone_iff_eq_none, ← forall_and]

/-- Clean reports have **one summary**. -/
theorem summarize_of_clean {reports : List FileReport} (h : AreClean reports) :
    summarize reports = "No problems found." := by
  unfold summarize
  rw [if_pos (areClean_iff.mp h)]

/-- The diagnostics of a severity are **counted one by one**. -/
theorem countOf_eq_length_filter (severity : Severity) (ds : List Diagnostic) :
    LintResult.countOf severity ds = (ds.filter fun d => d.severity = severity).length :=
  List.countP_eq_length_filter

/-- The diagnostics of reports are **the errors and the warnings** in their tally. -/
theorem length_diagnostics (reports : List FileReport) :
    (reports.flatMap FileReport.diagnostics).length =
      (Tally.ofReports reports).errors + (Tally.ofReports reports).warnings := by
  rw [length_eq_countOf_add, countOf_eq_length_filter, countOf_eq_length_filter]
  rfl

/-- The files that could not be analysed are **those in the tally**. -/
theorem length_failed (reports : List FileReport) :
    (reports.filter FileReport.failed).length = (Tally.ofReports reports).failed := by
  have herror (r : FileReport) : r.failed = decide (r.error ≠ none) := by
    cases h : r.error <;> simp [FileReport.failed, h]
  rw [funext herror]
  rfl

/-- What is mentioned is **written as it is counted**. -/
theorem map_counted_mention (n : ℕ) (noun : String) :
    (Tally.mention n noun).map (fun p => counted p.1 p.2) =
      if n = 0 then [] else [counted n noun] := by
  unfold Tally.mention
  split <;> rfl

/-- Other reports have **the text of their tally** for a summary. -/
theorem summarize_of_not_clean {reports : List FileReport} (h : ¬ AreClean reports) :
    summarize reports = (Tally.ofReports reports).text := by
  unfold summarize Tally.text Tally.split Tally.unread Tally.severities
  rw [if_neg (mt areClean_iff.mpr h)]
  simp only [List.countP_eq_length_filter, length_failed, countOf_eq_length_filter,
    length_diagnostics, List.map_append, map_counted_mention]
  rfl

/-! ### The words of a summary -/

namespace Tally

variable (t : Tally)

/-- A phrase as it is **spoken**, with its noun in the plural unless there is one. -/
def spoken (p : ℕ × String) : ℕ × String := (p.1, nounFor p.1 p.2)

/-- Phrases are told apart by **how they are spoken**. -/
theorem spoken_injective : Function.Injective spoken := by
  rintro ⟨m, noun⟩ ⟨n, other⟩ h
  simp only [spoken, nounFor, Prod.mk.injEq] at h ⊢
  obtain ⟨rfl, hnoun⟩ := h
  refine ⟨rfl, ?_⟩
  split_ifs at hnoun
  · exact hnoun
  · simpa using hnoun

/-- The nouns for severities are **words**. -/
theorem isWord_of_mem_severities {p : ℕ × String} (h : p ∈ t.severities) : IsWord p.2 := by
  have hmention {n : ℕ} {noun : String} (hp : p ∈ mention n noun) : p.2 = noun := by
    unfold mention at hp
    split_ifs at hp <;> simp_all
  rcases List.mem_append.mp h with hp | hp
  · rw [hmention hp]
    decide
  · rw [hmention hp]
    decide

/-- The words of parts **with commas between them** are the words of the parts. -/
theorem alphanumericRuns_intercalate (parts : List String) {c : Char} (hc : c.isAlphanum = false)
    (rest : List Char) :
    Text.alphanumericRuns ((", ".intercalate parts).toList ++ c :: rest) =
      parts.flatMap (fun part => Text.alphanumericRuns part.toList) ++
        Text.alphanumericRuns rest := by
  induction parts with
  | nil => exact Text.alphanumericRuns_cons hc rest
  | cons part parts ih =>
      cases parts with
      | nil => simpa using Text.alphanumericRuns_append hc part.toList rest
      | cons next parts =>
          have hcomma : ", ".toList = [',', ' '] := rfl
          rw [String.intercalate_cons_cons, String.toList_append, String.toList_append, hcomma,
            List.append_assoc, List.append_assoc, List.cons_append, List.singleton_append,
            Text.alphanumericRuns_append (by decide), Text.alphanumericRuns_cons (by decide), ih,
            List.flatMap_cons (x := part), List.append_assoc]

/-- The counts of severities are **read back** from their phrases. -/
theorem countsAmong_severities (ps : List (ℕ × String)) (h : ∀ p ∈ ps, IsWord p.2)
    (rest : List (List Char)) :
    Text.countsAmong
        ((ps.flatMap fun p => Text.alphanumericRuns (counted p.1 p.2).toList) ++ rest) =
      ps.map spoken ++ Text.countsAmong rest := by
  induction ps with
  | nil => rfl
  | cons p ps ih =>
      obtain ⟨hp, hps⟩ := List.forall_mem_cons.mp h
      rw [List.flatMap_cons, List.append_assoc, hp.countsAmong_counted, ih hps]
      rfl

/-- After a text, the severities in brackets have the **words of their phrases**. -/
theorem alphanumericRuns_split (head rest : List Char) :
    Text.alphanumericRuns (head ++ (t.split.toList ++ ' ' :: rest)) =
      Text.alphanumericRuns head ++
        ((t.severities.flatMap fun p => Text.alphanumericRuns (counted p.1 p.2).toList) ++
          Text.alphanumericRuns rest) := by
  have hopen : " (".toList = [' ', '('] := rfl
  have hclose : ")".toList = [')'] := rfl
  unfold split
  cases h : t.severities with
  | nil => exact Text.alphanumericRuns_append (by decide) head rest
  | cons p ps =>
      simp only [List.map_cons, List.isEmpty_cons, Bool.false_eq_true, if_false,
        String.toList_append, hopen, hclose, List.append_assoc, List.cons_append, List.nil_append]
      rw [Text.alphanumericRuns_append (by decide), Text.alphanumericRuns_cons (by decide),
        alphanumericRuns_intercalate _ (by decide), Text.alphanumericRuns_cons (by decide),
        ← List.map_cons (f := fun p : ℕ × String => counted p.1 p.2), List.flatMap_map]

/-- The words of a summary **after its number of files** have the number of failed files. -/
theorem countsAmong_unread :
    Text.countsAmong (Text.alphanumericRuns t.unread.toList) =
      (mention t.failed "file").map spoken := by
  have hspace : " ".toList = [' '] := rfl
  have hrest : " could not be analysed.".toList = ' ' :: "could not be analysed.".toList := rfl
  have hnoun : IsWord "file" := by decide
  unfold unread mention
  split
  · rfl
  · rw [String.toList_append, String.toList_append, hspace, hrest, List.append_assoc,
      List.singleton_append, Text.alphanumericRuns_cons (by decide),
      Text.alphanumericRuns_append (by decide), hnoun.countsAmong_counted]
    rfl

/-- A summary has the **numbers of its phrases**, and no other. -/
theorem counts_text : Text.counts t.text = t.phrases.map spoken := by
  have hfound : "Found ".toList = "Found".toList ++ [' '] := rfl
  have hin : " in ".toList = ' ' :: ("in".toList ++ [' ']) := rfl
  have hdot : ".".toList = ['.'] := rfl
  have hword : IsWord "Found" ∧ IsWord "problem" ∧ IsWord "in" ∧ IsWord "file" := by decide
  unfold Text.counts text
  simp only [String.toList_append, hfound, hin, hdot, List.append_assoc, List.cons_append,
    List.nil_append]
  rw [Text.alphanumericRuns_append (by decide) "Found".toList, alphanumericRuns_split,
    Text.alphanumericRuns_append (by decide) "in".toList,
    Text.alphanumericRuns_append (by decide) (counted t.files "file").toList,
    hword.1.countsAmong_append, hword.2.1.countsAmong_counted,
    countsAmong_severities _ fun p => t.isWord_of_mem_severities,
    hword.2.2.1.countsAmong_append, hword.2.2.2.countsAmong_counted, countsAmong_unread]
  simp only [phrases, List.map_cons, List.map_append, spoken]

example : Text.counts (text ⟨2, 1, 1, 10⟩) =
    [(3, "problems"), (2, "errors"), (1, "warning"), (10, "files"), (1, "file")] := by
  decide

/-- Summaries of **different counts** differ. -/
theorem text_injective : Function.Injective text := fun t u h =>
  phrases_injective (spoken_injective.list_map (by rw [← counts_text, ← counts_text, h]))

end Tally

/-- Reports are clean exactly if their tally has **three zeros**. -/
theorem areClean_iff_ofReports {reports : List FileReport} :
    AreClean reports ↔ (Tally.ofReports reports).errors = 0 ∧
      (Tally.ofReports reports).warnings = 0 ∧ (Tally.ofReports reports).failed = 0 := by
  rw [areClean_iff, Bool.and_eq_true, decide_eq_true_eq, List.isEmpty_iff,
    ← List.length_eq_zero_iff, length_diagnostics, List.countP_eq_length_filter, length_failed,
    Nat.add_eq_zero_iff, and_assoc]

/-- The summary of clean reports has **no counts**. -/
theorem counts_of_clean {reports : List FileReport} (h : AreClean reports) :
    Text.counts (summarize reports) = [] := by
  rw [summarize_of_clean h]
  decide

/-- The summary of other reports has the counts **of their phrases**. -/
theorem counts_of_not_clean {reports : List FileReport} (h : ¬ AreClean reports) :
    Text.counts (summarize reports) = (Tally.ofReports reports).phrases.map Tally.spoken := by
  rw [summarize_of_not_clean h, Tally.counts_text]

/-- Clean reports are **told apart** from others by their summary. -/
theorem summarize_ne {first second : List FileReport} (hfirst : AreClean first)
    (hsecond : ¬ AreClean second) : summarize first ≠ summarize second := fun h =>
  List.cons_ne_nil _ _ ((counts_of_not_clean hsecond).symm.trans (h ▸ counts_of_clean hfirst))

/-- Reports have one summary exactly if all are clean, or **the tallies agree**. -/
theorem summarize_eq_iff (first second : List FileReport) :
    summarize first = summarize second ↔ AreClean first ∧ AreClean second ∨
      Tally.ofReports first = Tally.ofReports second := by
  have hclean (h : Tally.ofReports first = Tally.ofReports second) :
      AreClean first ↔ AreClean second := by
    rw [areClean_iff_ofReports, areClean_iff_ofReports, h]
  by_cases hfirst : AreClean first <;> by_cases hsecond : AreClean second
  · simp only [summarize_of_clean hfirst, summarize_of_clean hsecond, hfirst, hsecond, true_and,
      true_or]
  · refine iff_of_false (summarize_ne hfirst hsecond) ?_
    rintro (h | h)
    · exact hsecond h.2
    · exact hsecond ((hclean h).mp hfirst)
  · refine iff_of_false (summarize_ne hsecond hfirst).symm ?_
    rintro (h | h)
    · exact hfirst h.1
    · exact hfirst ((hclean h).mpr hsecond)
  · rw [summarize_of_not_clean hfirst, summarize_of_not_clean hsecond,
      Tally.text_injective.eq_iff, or_iff_right fun h => hfirst h.1]

/-- The counts that a result **gives of itself**. -/
def LintResult.tally (r : LintResult) : Tally where
  errors := r.errorCount
  warnings := r.warningCount
  failed := r.failedFiles.length
  files := r.files.length

/-- The tally of a result is that **of its reports**. -/
theorem tally_ofReports (reports : List FileReport) :
    (LintResult.ofReports reports).tally = Tally.ofReports reports := by
  simp only [LintResult.tally, LintResult.ofReports, LintResult.errorCount,
    LintResult.warningCount, LintResult.diagnostics, LintResult.failedFiles,
    countOf_eq_length_filter, length_failed]
  rfl

/-- The summary is **faithful**. Two lists of reports have the same summary just if both are
clean, or they have the same numbers of errors, of warnings, of failed files and of files. And
the numbers in the summary of a result are those that the result gives of itself, the errors and
the warnings making up its diagnostics; a summary without numbers has nothing to tell. -/
theorem summarize_faithful :
    (∀ first second : List FileReport, summarize first = summarize second ↔
      AreClean first ∧ AreClean second ∨ Tally.ofReports first = Tally.ofReports second) ∧
    ∀ reports : List FileReport,
      let r := LintResult.ofReports reports
      r.errorCount + r.warningCount = r.diagnostics.length ∧
      (AreClean reports →
        Text.counts r.summary = [] ∧ r.diagnostics = [] ∧ r.failedFiles = []) ∧
      (¬ AreClean reports → Text.counts r.summary = r.tally.phrases.map Tally.spoken) := by
  refine ⟨summarize_eq_iff, fun reports => ?_⟩
  refine ⟨(length_eq_countOf_add _).symm, fun h => ?_, fun h => ?_⟩
  · have hzero := areClean_iff_ofReports.mp h
    refine ⟨counts_of_clean h, List.length_eq_zero_iff.mp ?_, List.length_eq_zero_iff.mp ?_⟩
    · exact (length_diagnostics reports).trans (by rw [hzero.1, hzero.2.1])
    · exact (length_failed reports).trans hzero.2.2
  · rw [tally_ofReports]
    exact counts_of_not_clean h

/-- A file that could not be analysed, and one with nothing to tell. -/
def oneUnread : List FileReport := [{ path := "a.json", error := some "bad" }, { path := "b.json" }]

/-- A file that could not be analysed is **counted twice**: among the files, and by itself. -/
theorem summarize_faithful_oneUnread :
    ¬ AreClean oneUnread ∧ Text.counts (LintResult.ofReports oneUnread).summary =
      [(0, "problems"), (2, "files"), (1, "file")] := by
  have h : ¬ AreClean oneUnread := fun h => absurd (h _ List.mem_cons_self).2 (by decide)
  exact ⟨h, ((summarize_faithful.2 oneUnread).2.2 h).trans (by decide)⟩

end TreeLint
