import TreeLint.Proofs.Json.RoundTrip
import TreeLint.Report.Basic
import TreeLint.Tree.Load

/-!
# Reports Read Back

A report in JSON loses nothing. Whatever names, messages and errors a result holds, and whatever
stands in a tree for a position, other programs that read the report find exactly what was written.
A report puts five levels around a position, so a position may go that much less deep than the
reader does. How deep values can be written depends on the machine; it is assumed to write at least
as deep as it reads.

## Main results

* `LintResult.plain_data`: a result as data is plain if its positions are.
* `read_json`: a JSON report is in ASCII and reads back.
-/

namespace TreeLint

/-- A place whose fields all **can be written and read back**, `depth` levels deep. -/
structure Span.IsPlain (depth : ℕ) (s : Span) : Prop where
  start : Json.Plain depth s.start
  stop : Json.Plain depth s.stop
  line : Json.Plain depth s.line
  column : Json.Plain depth s.column

variable {depth : ℕ}

/-- The data of a diagnostic is plain, **one level** above its place. -/
theorem Diagnostic.plain_data {d : Diagnostic} (h : d.node.span.IsPlain depth) :
    Json.Plain (depth + 1) d.data := by
  refine .obj (by simp) fun m hm => ?_
  simp only [List.mem_cons, List.not_mem_nil, or_false] at hm
  rcases hm with rfl | rfl | rfl | rfl | rfl | rfl | rfl | rfl | rfl
  · exact .str _
  · exact .str _
  · exact .str _
  · exact .str _
  · exact h.line
  · exact h.column
  · exact h.start
  · exact h.stop
  · exact .str _

/-- The data of a report is plain, **three levels** above the places in it. -/
theorem FileReport.plain_data {r : FileReport}
    (h : ∀ d ∈ r.diagnostics, d.node.span.IsPlain depth) : Json.Plain (depth + 3) r.data := by
  refine .obj (by simp) fun m hm => ?_
  simp only [List.mem_cons, List.not_mem_nil, or_false] at hm
  rcases hm with rfl | rfl | rfl
  · exact .str _
  · cases r.error with
    | none => exact .null
    | some error => exact .str error
  · refine .arr fun v hv => ?_
    obtain ⟨d, hd, rfl⟩ := List.mem_map.mp hv
    exact Diagnostic.plain_data (h d hd)

/-- A result as data is **plain** if its positions are, and if the diagnostics can be counted in
numbers that are not too long. -/
theorem LintResult.plain_data {r : LintResult}
    (h : ∀ d ∈ r.diagnostics, d.node.span.IsPlain depth)
    (hcount : r.diagnostics.length < 10 ^ digitLimit) : Json.Plain (depth + 5) r.data := by
  have hcountOf (severity : Severity) : countOf severity r.diagnostics < 10 ^ digitLimit :=
    lt_of_le_of_lt List.countP_le_length hcount
  refine .obj (by simp) fun m hm => ?_
  simp only [List.mem_cons, List.not_mem_nil, or_false] at hm
  rcases hm with rfl | rfl | rfl | rfl
  · exact .str _
  · exact .int (hcountOf .error)
  · exact .int (hcountOf .warning)
  · refine .arr fun v hv => ?_
    obtain ⟨report, hreport, rfl⟩ := List.mem_map.mp hv
    exact FileReport.plain_data fun d hd => h d (List.mem_flatMap.mpr ⟨report, hreport, hd⟩)

/-- **A JSON report reads back.** Let the positions of a result be built up from nothing, truth
values, whole numbers of at most `digitLimit` digits and texts, nested at most `depthLimit - 5`
levels deep: as deep as a tree file may be, less the five levels that a report puts around a
position. Let the machine write at least as deep as it reads (`hreaches`). Then the result has a
JSON report (no memory holds so many diagnostics that they could not be counted), all characters of
the report are ASCII, and reading it as a tree file is read gives the summary, the counts, and for
each file in order its path, its error and its diagnostics, as they were. -/
theorem read_json (r : LintResult) (h : ∀ d ∈ r.diagnostics, d.node.span.IsPlain (depthLimit - 5))
    (hcount : r.diagnostics.length < 10 ^ digitLimit) {reaches : Json → Bool}
    (hreaches : ∀ v, Json.Plain depthLimit v → reaches v) (lone : ℕ → Char) :
    ∃ text, r.json reaches = .ok text ∧ (∀ c ∈ text.toList, c.toNat < 128) ∧
      Json.read lone depthLimit text.toList = .ok (.obj () [
        ("summary", .str r.summary), ("errorCount", .int r.errorCount),
        ("warningCount", .int r.warningCount),
        ("files", .arr (r.files.map fun file => .obj () [
          ("path", .str file.path), ("error", (file.error.map .str).getD .null),
          ("diagnostics", .arr (file.diagnostics.map fun d => .obj () [
            ("ruleId", .str d.ruleId), ("rule", .str d.ruleName),
            ("kind", .str d.violation.word), ("severity", .str d.severity.word),
            ("line", d.node.span.line), ("column", d.node.span.column),
            ("start", d.node.span.start), ("end", d.node.span.stop),
            ("message", .str d.message)]))]))]) := by
  have hplain := LintResult.plain_data h hcount
  obtain ⟨text, hprint, hwritten, hread⟩ := hplain.read_print (hreaches _ hplain) lone
  refine ⟨text, hprint, fun c hc => ?_, hread⟩
  rcases hwritten c hc with hvisible | rfl
  · exact lt_trans hvisible.2 (by decide)
  · decide

/-- A result with texts that need every sort of escape, and with a diagnostic whose place is known
by half and partly nonsense. -/
def oddResult : LintResult where
  files := [
    { path := "a\"b\\c\x7f.json", error := some "line\nbreak\tü💯" },
    { path := ""
      diagnostics := [
        { node := { kind := .other, span := {
            start := .arr [.bool true, .arr [], .str "퟿"]
            stop := .obj () [("", .obj () []), ("x", .int (-12))]
            line := .int 100 } }
          violation := .missingTeardown, message := "", ruleId := "CY001", ruleName := "r" }] }]
  summary := "No \x00 problems"

/-- The report on the odd result reads back, on a machine that writes everything. -/
theorem read_json_oddResult : (∀ d ∈ oddResult.diagnostics, d.node.span.IsPlain (depthLimit - 5)) ∧
    oddResult.diagnostics.length < 10 ^ digitLimit ∧
    ∃ text, oddResult.json (fun _ => true) = .ok text ∧ (∀ c ∈ text.toList, c.toNat < 128) ∧
      Json.read (fun _ => '?') depthLimit text.toList = .ok oddResult.data := by
  have hsmall (n : ℕ) (h : n < 10 ^ 3) : n < 10 ^ digitLimit :=
    lt_of_lt_of_le h (Nat.pow_le_pow_right (by decide) (by decide))
  have hspans : ∀ d ∈ oddResult.diagnostics, d.node.span.IsPlain (depthLimit - 5) := by
    intro d hd
    obtain rfl := List.mem_singleton.mp hd
    refine ⟨.arr fun v hv => ?_, .obj (by decide) fun m hm => ?_,
      .int (hsmall _ (by decide)), .null⟩
    · simp only [List.mem_cons, List.not_mem_nil, or_false] at hv
      rcases hv with rfl | rfl | rfl
      · exact .bool true
      · exact .arr nofun
      · exact .str _
    · simp only [List.mem_cons, List.not_mem_nil, or_false] at hm
      rcases hm with rfl | rfl
      · exact .obj List.nodup_nil nofun
      · exact .int (hsmall _ (by decide))
  have hcount : oddResult.diagnostics.length < 10 ^ digitLimit := hsmall _ (by decide)
  exact ⟨hspans, hcount, read_json oddResult hspans hcount (fun _ _ => rfl) fun _ => '?'⟩

end TreeLint
