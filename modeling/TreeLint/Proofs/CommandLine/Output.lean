import TreeLint.CommandLine.Run
import TreeLint.Proofs.Check.FirstFault
import TreeLint.Proofs.Console.Verbatim
import TreeLint.Proofs.Lint.Isolation
import TreeLint.Proofs.Report.Annotations
import TreeLint.Yaml.Read

/-!
# What a Run Prints

A run with a result prints the report on it. A report that is a text is printed **as it stands**,
with a line feed after it, exactly if the console finds nothing in it to change and can encode it
(`printed_eq_text_iff`); a text without characters is not printed. This is so whatever names stand
for pictures, and in any encoding.

The console does find something in good reports. In Markdown a place is written as a path, a line
and a column with colons between them, and the name of a picture can be a number: where it is,
line 100 is printed as a picture (`printed_ne_text_line100`).

## Main results

* `printed_run_of_result`, `status_run_of_result`: the outcome of a run with a result.
* `printed_eq_text_iff`: when the text of a report is printed as it stands.
* `printed_ne_text_line100`: a report on line 100 is not.
-/

namespace TreeLint.CommandLine

open Console (Display IsVerbatim Pictures Printout)

/-! ### Outcomes -/

/-- The **result** of a run with the given options. -/
def Environment.result (env : Environment) (options : LintOptions) : Except RunFault LintResult :=
  (env.files.lint .builtin (options.config.map .ofText) env.base options.rules options.files).2

/-- What is printed does **not depend** on the status or the log. -/
theorem Outcome.printed_ofPrintout (status : ℕ) (log : List LogEntry)
    (p : Printout TerminalFault) : (Outcome.ofPrintout status log p).printed = p.text := by
  rw [Outcome.ofPrintout]
  split <;> rfl

section Run

variable {env : Environment} {arguments : List String} {options : LintOptions} {format : Format}
  {result : LintResult}

/-- A run with a result ends as **printing its report** does. -/
theorem run_of_result (hcommand : Command.ofArguments arguments = .ok (.lint options))
    (hformat : Format.ofName options.format = .ok format)
    (hresult : env.result options = .ok result) :
    ∃ log, run env arguments = .ofPrintout (if result.hasErrors then 1 else 0) log
      (result.print env.reaches env.display env.files.current format) := by
  rw [Environment.result] at hresult
  rw [run, hcommand]
  simp only [Command.run, runLint, hformat]
  generalize env.files.lint .builtin (options.config.map .ofText) env.base options.rules
    options.files = outcome at hresult ⊢
  obtain ⟨log, found⟩ := outcome
  obtain rfl : found = .ok result := hresult
  exact ⟨log, rfl⟩

/-- If there is a result, the run prints **what is printed for it**. -/
theorem printed_run_of_result (hcommand : Command.ofArguments arguments = .ok (.lint options))
    (hformat : Format.ofName options.format = .ok format)
    (hresult : env.result options = .ok result) :
    (run env arguments).printed =
      (result.print env.reaches env.display env.files.current format).text := by
  obtain ⟨log, hrun⟩ := run_of_result hcommand hformat hresult
  rw [hrun, Outcome.printed_ofPrintout]

/-- What is printed for a text that is not empty. -/
theorem printed_run_of_write {format : TextFormat} {text : String}
    (hcommand : Command.ofArguments arguments = .ok (.lint options))
    (hformat : Format.ofName options.format = .ok (.text format))
    (hresult : env.result options = .ok result) (htext : result.write env.reaches format = .ok text)
    (hne : text ≠ "") :
    (run env arguments).printed = (Printout.ofText env.display text).text := by
  rw [printed_run_of_result hcommand hformat hresult, LintResult.print, htext]
  simp only [String.isEmpty_iff, if_neg hne]
  rfl

end Run

/-- The text of a report is printed **as it stands**, with a line feed after it, exactly if there is
nothing in it for the console to change (no tab, none of the characters that move the cursor, and
no name of a picture between colons) and it can be encoded. If the text is empty, nothing is
printed. -/
theorem printed_eq_text_iff {env : Environment} {arguments : List String} {options : LintOptions}
    {format : TextFormat} {result : LintResult} {text : String}
    (hcommand : Command.ofArguments arguments = .ok (.lint options))
    (hformat : Format.ofName options.format = .ok (.text format))
    (hresult : env.result options = .ok result)
    (htext : result.write env.reaches format = .ok text) :
    (text = "" → (run env arguments).printed = []) ∧
      (text ≠ "" →
        ((run env arguments).printed = text.toList ++ ['\n'] ↔
          IsVerbatim env.display.pictures text.toList ∧
            env.display.refusal? (text.toList ++ ['\n']) = none)) := by
  constructor
  · rintro rfl
    rw [printed_run_of_result hcommand hformat hresult, LintResult.print, htext]
    rfl
  · intro hne
    rw [printed_run_of_write hcommand hformat hresult htext hne]
    exact Printout.ofText_text_eq_iff

/-! ### A file by itself -/

/-- The current directory holds a file, and more after it. -/
def folderWith (content : List UInt8) (more : List (String × Entry)) : FileSystem where
  root := .directory (("p", .file content) :: more)
  current := []

/-- The file is found, whatever else is there. -/
theorem finds_folderWith (content : List UInt8) (more : List (String × Entry)) :
    (folderWith content more).resolve (.ofText ".") ["p"] = .ok [⟨"", ["p"]⟩] ∧
    (folderWith content more).isFile? ⟨"", ["p"]⟩ = .ok true ∧
    (folderWith content more).read ⟨"", ["p"]⟩ = .ok content := by
  have hfind : (folderWith content more).find? ⟨"", ["p"]⟩ = .ok (some (.file content)) :=
    FileSystem.find?_eq_some_iff.mpr ⟨FileSystem.isNameable_iff.mpr (by simp), rfl⟩
  have hfile : (folderWith content more).isFile? ⟨"", ["p"]⟩ = .ok true :=
    FileSystem.isFile?_eq_true_iff.mpr ⟨content, hfind⟩
  have hdirectory : (folderWith content more).isDirectory? ⟨"", ["p"]⟩ = .ok false := by
    rw [FileSystem.isDirectory?, hfind]
    rfl
  have hmagic : NamePattern.hasMagic "p" = false := by
    rw [NamePattern.hasMagic_eq_any]
    decide
  have hjoin : Path.join (.ofText ".") (.ofText "p") = ⟨"", ["p"]⟩ := by
    rw [Path.ofText_dot, Path.ofText_component (by decide)]
    rfl
  refine ⟨?_, hfile, rfl⟩
  simp [FileSystem.resolve, FileSystem.resolveFrom, FileSystem.expand, hjoin, hdirectory, hmagic,
    FileSystem.addFiles, hfile]

/-- A directory with one file. -/
def oneFile (content : List UInt8) : Sources where
  toFileSystem := folderWith content []
  yaml := Yaml.readBytes
  lone _ := '?'

/-- A table of pictures with a single name, which is **a number**. -/
def hundred : Pictures where
  find? name := if name = ['1', '0', '0'] then some ['💯'] else none
  isPicture_of_find? h := by
    split at h
    · next hname =>
      obtain rfl := Option.some.inj h
      rw [hname]
      decide
    · cases h

/-- The current directory holds one file, everything can be written, and everything can be
encoded. -/
def envOf (content : List UInt8) : Environment where
  files := oneFile content
  base := .ofText "."
  display := { width := 80, pictures := hundred, refusal? := fun _ => none }
  reaches _ := true

/-- A file of settings is looked for among **what else is there**. -/
theorem findConfig?_folderWith (content : List UInt8) (more : List (String × Entry)) :
    (folderWith content more).findConfig? =
      (configNames.find? fun name => (Entry.find? name more).isSome).map fun name =>
        ⟨"/", [name]⟩ := by
  have hexists : ∀ name ∈ configNames,
      (folderWith content more).exists? ⟨"/", [name]⟩ = .ok (Entry.find? name more).isSome := by
    have hnames : ∀ name ∈ configNames, Entry.IsName name ∧ "p" ≠ name := by decide
    intro name hname
    obtain ⟨hisName, hp⟩ := hnames name hname
    rw [FileSystem.exists?, folderWith, FileSystem.find?_name _ (by decide) hisName, Entry.find?,
      if_neg hp]
    rfl
  rw [FileSystem.findConfig?, List.find?_map, ← List.head?_filter, ← List.head?_filter]
  refine congrArg (fun names => (List.head? names).map _) (List.filter_congr fun name hname => ?_)
  exact congrArg (fun found => (Except.toOption found).getD false) (hexists name hname)

/-- Where there is one file only, the settings are **the defaults**. -/
theorem loadSettings_oneFile (content : List UInt8) :
    (oneFile content).loadSettings none = .ok {} := by
  have hconfig : (oneFile content).findConfig? = none := findConfig?_folderWith content []
  rw [Sources.loadSettings, Option.none_or, hconfig]

/-- The rules of the library, by id, with nothing set. -/
def builtinLinter : Linter where
  settings := {}
  specs := [Registry.builtin[1], Registry.builtin[2], Registry.builtin[0]]

/-- With nothing set, **all rules** are enabled, in the order of their ids. -/
theorem ofSettings_builtin :
    Linter.ofSettings Registry.builtin {} [] = .ok builtinLinter := by
  rw [Linter.ofSettings, Registry.enabled, Registry.sorted_builtin]
  rfl

/-- The result for one file is the report on its content. -/
theorem result_oneFile {rules : List String} {l : Linter}
    (hl : Linter.ofSettings Registry.builtin {} rules = .ok l) {content : List UInt8}
    {report : FileReport} (h : l.Reports (fun _ => '?') "p" "p" content report) (format : String) :
    (envOf content).result { files := ["p"], rules, format } = .ok (.ofReports [report]) := by
  obtain ⟨hresolve, hfile, hread⟩ := finds_folderWith content []
  have hshown : reportPath (.ofText ".") ⟨"", ["p"]⟩ = "p" := by
    rw [Path.ofText_dot]
    decide
  have htext : Path.text ⟨"", ["p"]⟩ = "p" := by decide
  have hreport : (l.lintFile (oneFile content) (.ofText ".") ⟨"", ["p"]⟩).2 = .ok report :=
    Linter.lintFile_of_reports hfile hread (hshown.symm ▸ htext.symm ▸ h)
  rw [Environment.result, envOf, Sources.lint]
  simp only [Option.map_none, loadSettings_oneFile, hl]
  exact Linter.lintFiles_alone hreport hresolve

/-- What is wrong with a file that is no JSON. -/
def brokenError : String :=
  "Invalid JSON in p: Expecting property name enclosed in double quotes (line 1)"

/-- What is written on such a file. -/
def brokenReport : String := "::error file=p::" ++ brokenError

/-- A text whose characters have been listed is verbatim **by two tests** on the list. -/
theorem isVerbatim_of_tests {text : String} {cs : List Char} (hcs : text.toList = cs)
    (hplain : (cs.all fun c => c != '\t' && !Console.isDropped c) = true)
    (hpictures : ((Console.pictureNames none cs).all fun name => name != ['1', '0', '0']) = true) :
    IsVerbatim hundred text.toList := by
  simp only [List.all_eq_true, Bool.and_eq_true, bne_iff_ne, Bool.not_eq_true'] at hplain
  rw [hcs]
  exact ⟨fun htab => (hplain _ htab).1 rfl, fun c hc => (hplain c hc).2,
    by simpa [hundred] using hpictures⟩

/-- There is nothing in the report that the console would **change**. -/
theorem isVerbatim_brokenReport : IsVerbatim hundred brokenReport.toList := by
  obtain ⟨cs, hcs, hplain, hpictures⟩ : ∃ cs, brokenReport.toList = cs ∧
      (cs.all fun c => c != '\t' && !Console.isDropped c) = true ∧
      ((Console.pictureNames none cs).all fun name => name != ['1', '0', '0']) = true := by
    unfold brokenReport brokenError
    rw [String.toList_append]
    exact ⟨_, congrArg₂ _ String.toList_ofList String.toList_ofList, by cbv, by cbv⟩
  exact isVerbatim_of_tests hcs hplain hpictures

/-- The error is written on a line **by itself**. -/
theorem write_brokenError :
    (LintResult.ofReports [{ path := "p", error := some brokenError }]).write (fun _ => true)
      .annotations = .ok brokenReport := by
  have hescape : Annotations.escape brokenError = brokenError := by
    obtain ⟨cs, hcs, hplain⟩ : ∃ cs, brokenError.toList = cs ∧
        (cs.all fun c => c != '%' && c != '\r' && c != '\n') = true := by
      unfold brokenError
      exact ⟨_, String.toList_ofList, by cbv⟩
    exact Annotations.escape_eq_self (by simpa [hcs, and_assoc] using hplain)
  have hlines : Annotations.fileLines { path := "p", error := some brokenError } =
      .ok [brokenReport] := by
    rw [Annotations.fileLines]
    simp only [Annotations.failureLines, hescape]
    rfl
  change LintResult.annotations _ = _
  simp [LintResult.annotations, LintResult.ofReports, hlines]

/-- The report on a file that is no JSON is printed **as it stands**. -/
theorem printed_brokenFile : IsVerbatim hundred brokenReport.toList ∧
    (run (envOf [0x7b]) ["lint", "p", "--format", "github"]).printed =
      brokenReport.toList ++ ['\n'] := by
  have hreads : Reads (fun _ => '?') [0x7b] ['\x7b'] (.error (.invalid .expectingName [])) :=
    ⟨['\x7b'], rfl, rfl, rfl⟩
  have hcommand : Command.ofArguments ["lint", "p", "--format", "github"] =
      .ok (.lint { files := ["p"], format := "github" }) := rfl
  have herror : (LoadFault.invalidJson "p" .expectingName (Json.lineOf ['\x7b'] [])).message =
      brokenError := by decide
  have hresult := result_oneFile ofSettings_builtin (.invalidJson hreads) "github"
  rw [herror] at hresult
  have hne : brokenReport ≠ "" := fun h =>
    absurd (String.append_eq_empty_iff.mp h).1 (by decide)
  exact ⟨isVerbatim_brokenReport, ((printed_eq_text_iff hcommand rfl hresult
    write_brokenError).2 hne).mpr ⟨isVerbatim_brokenReport, rfl⟩⟩

/-! ### Line 100 -/

/-- A class without its singleton, on line 100. -/
def lateClass : Json :=
  .obj () [("type", .str "ClassDeclaration"),
    ("id", .obj () [("type", .str "Identifier"), ("name", .str "Page")]),
    ("loc", .obj () [("start", .obj () [("line", .int 100), ("column", .int 4)])])]

/-- The text of the class. -/
def lateClassText : String :=
  "\x7b\"type\":\"ClassDeclaration\",\"id\":\x7b\"type\":\"Identifier\",\"name\":\"Page\"\x7d," ++
    "\"loc\":\x7b\"start\":\x7b\"line\":100,\"column\":4\x7d\x7d\x7d"

/-- What is written on the class. -/
def lateClassReport : String :=
  "# Lint Report\n\n## Summary\n\nFound 1 problem (1 error) in 1 file.\n\n## Problems\n\n" ++
    "### [ERROR] p:100:5\n\nClass 'Page' must declare: public static readonly INSTANCE = " ++
    "new Page(); (\x60enforce-page-singleton\x60)\n"

/-- The text is read as **the class**. -/
theorem reads_lateClassText :
    Reads (fun _ => '?') lateClassText.toUTF8.toList lateClassText.toList (.ok lateClass) := by
  obtain ⟨cs, hcs, hlines, hread⟩ : ∃ cs, lateClassText.toList = cs ∧ cs.contains '\r' = false ∧
      Json.read (fun _ => '?') depthLimit cs = .ok lateClass := by
    unfold lateClassText
    rw [String.toList_append]
    exact ⟨_, congrArg₂ _ String.toList_ofList String.toList_ofList, by cbv, by cbv⟩
  refine reads_toUTF8 ?_ (hcs ▸ hread)
  rw [hcs, ← List.contains_iff_mem, hlines]
  exact Bool.false_ne_true

/-- The tree of the class has short places. With all rules there is one error in it, by the rule on
singletons, and there is nothing in it by the rule on hooks. -/
theorem exists_root_lateClass : ∃ root ds, Node.ofDocument lateClass.toDocument = .ok root ∧
    root.HasShortPlaces ∧ checkTree {} builtinLinter.specs (.node root) = .ok ds ∧
    LintResult.countOf .warning ds = 0 ∧
    (LintResult.ofReports [{ path := "p", diagnostics := ds }]).write (fun _ => true) .markdown =
      .ok lateClassReport ∧
    checkTree {} [Registry.builtin[0]] (.node root) ≠ .ok [] ∧
    checkTree {} [Registry.builtin[1]] (.node root) = .ok [] := by
  have hfacts : ((Node.ofDocument lateClass.toDocument).toOption.bind fun root =>
      (checkTree {} builtinLinter.specs (.node root)).toOption.bind fun ds =>
        some (root.preorder.all fun n => decide (n.span.line.IsShort ∧ n.span.column.IsShort),
          LintResult.countOf .warning ds,
          ((LintResult.ofReports [{ path := "p", diagnostics := ds }]).write (fun _ => true)
            .markdown).toOption,
          (checkTree {} [Registry.builtin[0]] (.node root)).toOption.map List.length,
          (checkTree {} [Registry.builtin[1]] (.node root)).toOption.map List.length)) =
      some (true, 0, some lateClassReport, some 1, some 0) := by decide +kernel
  obtain ⟨root, hroot, hfacts⟩ := Option.bind_eq_some_iff.mp hfacts
  obtain ⟨ds, hds, hfacts⟩ := Option.bind_eq_some_iff.mp hfacts
  simp only [Option.some.injEq, Prod.mk.injEq, List.all_eq_true, decide_eq_true_eq] at hfacts
  obtain ⟨hplaces, hwarnings, hwritten, hfirst, hsecond⟩ := hfacts
  refine ⟨root, ds, eq_ok_of_toOption hroot, hplaces, eq_ok_of_toOption hds, hwarnings,
    eq_ok_of_toOption hwritten, fun hempty => ?_, eq_ok_nil_of_length hsecond⟩
  rw [hempty] at hfirst
  cases hfirst

/-- The report on **line 100** is not printed as it stands where the line, between the colons of its
place, is the name of a picture. -/
theorem printed_ne_text_line100 : ∃ options result,
    Command.ofArguments ["lint", "p", "--format", "markdown"] = .ok (.lint options) ∧
    Format.ofName options.format = .ok (.text .markdown) ∧
    (envOf lateClassText.toUTF8.toList).result options = .ok result ∧
    result.write (fun _ => true) .markdown = .ok lateClassReport ∧
    (run (envOf lateClassText.toUTF8.toList) ["lint", "p", "--format", "markdown"]).printed ≠
      lateClassReport.toList ++ ['\n'] := by
  obtain ⟨root, ds, hroot, -, hcheck, -, hwritten, -⟩ := exists_root_lateClass
  have hcommand : Command.ofArguments ["lint", "p", "--format", "markdown"] =
      .ok (.lint { files := ["p"], format := "markdown" }) := rfl
  have hresult := result_oneFile ofSettings_builtin
    (.checked reads_lateClassText hroot hcheck) "markdown"
  refine ⟨_, _, hcommand, rfl, hresult, hwritten, ?_⟩
  have hne : lateClassReport ≠ "" := fun h =>
    absurd (String.append_eq_empty_iff.mp h).2 (by decide)
  rw [printed_run_of_write hcommand rfl hresult hwritten hne]
  have hpicture : ['1', '0', '0'] ∈ Console.pictureNames none lateClassReport.toList := by
    obtain ⟨cs, hcs, hpicture⟩ : ∃ cs, lateClassReport.toList = cs ∧
        ['1', '0', '0'] ∈ Console.pictureNames none cs := by
      unfold lateClassReport
      rw [String.toList_append, String.toList_append]
      exact ⟨_, congrArg₂ _ (congrArg₂ _ String.toList_ofList String.toList_ofList)
        String.toList_ofList, by decide_cbv⟩
    rwa [hcs]
  intro hprinted
  obtain ⟨hverbatim, -⟩ := Printout.ofText_text_eq_iff.mp hprinted
  exact absurd (hverbatim.pictures _ hpicture) (by simp [envOf, hundred])

end TreeLint.CommandLine
