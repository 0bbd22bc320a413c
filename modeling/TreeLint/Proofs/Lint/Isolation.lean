import TreeLint.Proofs.File.Expansion
import TreeLint.Proofs.Lint.Content
import TreeLint.Yaml.Read

/-!
# One Bad File

A run over files gives every file its own report, whatever the other files hold, unless the content
of some file ends the run. So the run has a result exactly if no file holds such content, and
otherwise it ends with the fault of the first file that does.

## Main results

* `Linter.exists_lintFiles_iff`: when a run has a result.
* `lintFiles_isolates`: the reports of a run, and when there are none.
* `not_isolates_undecodable`: a file of one byte that is no text ends the run for a good file too.
-/

namespace TreeLint

namespace Linter

variable {l : Linter} {fs : Sources} {base path : Path} {content : List UInt8}

/-- Files are reported **one after the other**, and the first fault ends the run. -/
theorem lintPaths_cons (l : Linter) (fs : Sources) (base path : Path) (rest : List Path) :
    (l.lintPaths fs base (path :: rest)).2 =
      (l.lintFile fs base path).2 >>= fun report =>
        (l.lintPaths fs base rest).2.map (report :: ·) := by
  rw [lintPaths]
  rcases l.lintFile fs base path with ⟨log, fault | report⟩ <;> rfl

/-- Files have reports if each of them has **its own**, in order. -/
theorem forall₂_of_lintPaths {paths : List Path} {reports : List FileReport}
    (h : (l.lintPaths fs base paths).2 = .ok reports) :
    List.Forall₂ (fun path report => (l.lintFile fs base path).2 = .ok report) paths reports := by
  induction paths generalizing reports with
  | nil =>
      obtain rfl := Except.ok.inj h
      exact .nil
  | cons path rest ih =>
      rw [lintPaths_cons] at h
      obtain ⟨report, hreport, h⟩ := bind_eq_ok.mp h
      cases hrest : (l.lintPaths fs base rest).2 with
      | error fault =>
          rw [hrest] at h
          exact nomatch h
      | ok others =>
          rw [hrest] at h
          obtain rfl := Except.ok.inj h
          exact .cons hreport (ih hrest)

/-- Files without reports have a **first file that ends the run**. -/
theorem exists_first_of_lintPaths {paths : List Path} {fault : RunFault}
    (h : (l.lintPaths fs base paths).2 = .error fault) :
    ∃ before path after, paths = before ++ path :: after ∧
      (∀ p ∈ before, ∃ report, (l.lintFile fs base p).2 = .ok report) ∧
      (l.lintFile fs base path).2 = .error fault := by
  induction paths with
  | nil => exact nomatch h
  | cons path rest ih =>
      rw [lintPaths_cons] at h
      cases hreport : (l.lintFile fs base path).2 with
      | error fault' =>
          rw [hreport] at h
          obtain rfl := Except.error.inj h
          exact ⟨[], path, rest, rfl, by simp, hreport⟩
      | ok report =>
          rw [hreport] at h
          cases hrest : (l.lintPaths fs base rest).2 with
          | error fault' =>
              simp only [hrest, bind, Except.bind, Except.map] at h
              obtain rfl := Except.error.inj h
              obtain ⟨before, path', after, rfl, hbefore, hpath'⟩ := ih hrest
              refine ⟨path :: before, path', after, rfl, fun p hp => ?_, hpath'⟩
              rcases List.mem_cons.mp hp with rfl | hp
              · exact ⟨report, hreport⟩
              · exact hbefore p hp
          | ok others =>
              rw [hrest] at h
              exact nomatch h

/-- The result of a run holds the reports on the files that the arguments resolve to. -/
theorem lintFiles_eq_of_resolve {arguments : List String} {paths : List Path}
    (h : fs.resolve base arguments = .ok paths) :
    (l.lintFiles fs base arguments).2 =
      (l.lintPaths fs base paths).2.map LintResult.ofReports := by
  rw [lintFiles, h]

/-- A file that is **linted alone** gets the report that it gets among others. -/
theorem lintFiles_alone {report : FileReport} (hreport : (l.lintFile fs base path).2 = .ok report)
    {alone : List String} (h : fs.resolve base alone = .ok [path]) :
    (l.lintFiles fs base alone).2 = .ok (LintResult.ofReports [report]) := by
  rw [lintFiles_eq_of_resolve h, lintPaths_cons, hreport]
  rfl

section Run

variable {arguments : List String} {paths : List Path}

/-- A run without a result ends with the fault of the **first file** whose content ends it. -/
theorem exists_endsRun_of_lintFiles (hl : l.IsStandard)
    (hpaths : fs.resolve base arguments = .ok paths) {fault : RunFault}
    (h : (l.lintFiles fs base arguments).2 = .error fault) :
    ∃ before path after content, paths = before ++ path :: after ∧
      (∀ p ∈ before, ∀ c, fs.read p = .ok c → ∀ f, ¬ l.EndsRun fs.lone c f) ∧
      fs.read path = .ok content ∧ l.EndsRun fs.lone content fault := by
  have hfile := FileSystem.isFile?_of_mem_resolve hpaths
  rw [lintFiles_eq_of_resolve hpaths] at h
  cases hlint : (l.lintPaths fs base paths).2 with
  | ok reports =>
      rw [hlint] at h
      exact nomatch h
  | error fault' =>
      rw [hlint] at h
      obtain rfl := Except.error.inj h
      obtain ⟨before, path, after, rfl, hbefore, hpath⟩ := exists_first_of_lintPaths hlint
      have hpathFile := hfile path (by simp)
      obtain ⟨-, content, hread⟩ := FileSystem.exists_read_of_isFile? hpathFile
      refine ⟨before, path, after, content, rfl, fun p hp c hc f hf => ?_, hread,
        (lintFile_eq_error_iff hl hpathFile hread).mp hpath⟩
      obtain ⟨report, hreport⟩ := hbefore p hp
      rw [lintFile_of_endsRun (hfile p (List.mem_append_left _ hp)) hc hf] at hreport
      exact nomatch hreport

/-- The files of a run with a result have their reports, **each its own and in order**. -/
theorem forall₂_of_lintFiles (hpaths : fs.resolve base arguments = .ok paths) {result : LintResult}
    (h : (l.lintFiles fs base arguments).2 = .ok result) :
    List.Forall₂ (fun path report => fs.isFile? path = .ok true ∧
      (l.lintFile fs base path).2 = .ok report) paths result.files := by
  rw [lintFiles_eq_of_resolve hpaths] at h
  cases hlint : (l.lintPaths fs base paths).2 with
  | error fault =>
      rw [hlint] at h
      exact nomatch h
  | ok reports =>
      rw [hlint] at h
      obtain rfl := Except.ok.inj h
      exact (List.forall₂_and_left _ _).mpr
        ⟨FileSystem.isFile?_of_mem_resolve hpaths, forall₂_of_lintPaths hlint⟩

/-- A run has a **result** exactly if no file's content ends it. -/
theorem exists_lintFiles_iff (hl : l.IsStandard) (hpaths : fs.resolve base arguments = .ok paths) :
    (∃ result, (l.lintFiles fs base arguments).2 = .ok result) ↔
      ∀ path ∈ paths, ∀ content, fs.read path = .ok content →
        ∀ fault, ¬ l.EndsRun fs.lone content fault := by
  constructor
  · rintro ⟨result, h⟩
    refine ((List.forall₂_and_left _ _).mp ((forall₂_of_lintFiles hpaths h).imp
      fun path report ⟨hfile, hreport⟩ => And.intro ?_ hreport)).1
    intro content hread fault hfault
    rw [lintFile_of_endsRun hfile hread hfault] at hreport
    exact nomatch hreport
  · intro h
    cases hlint : (l.lintFiles fs base arguments).2 with
    | ok result => exact ⟨result, rfl⟩
    | error fault =>
        obtain ⟨before, path, after, content, rfl, -, hread, hfault⟩ :=
          exists_endsRun_of_lintFiles hl hpaths hlint
        exact absurd hfault (h path (by simp) content hread fault)

end Run

end Linter

/-- The rules that are enabled are registered and not switched off. -/
theorem Registry.mem_of_enabled {registry : Registry} {settings : Settings} {only : List String}
    {specs : List RuleSpec} (h : registry.enabled settings only = .ok specs) :
    ∀ spec ∈ specs, spec ∈ registry ∧ settings.levelFor spec.id spec.name ≠ .off := by
  obtain ⟨_, -, h⟩ := bind_eq_ok.mp h
  obtain ⟨wanted, -, h⟩ := bind_eq_ok.mp h
  obtain rfl := Except.ok.inj h
  intro spec hspec
  simp only [List.mem_filter, sorted, List.mem_mergeSort, bne_iff_ne] at hspec
  exact ⟨hspec.1.1, hspec.2⟩

/-- A linter from settings runs rules of the library that are **not switched off**. -/
theorem Linter.isStandard_of_ofSettings {settings : Settings} {only : List String} {l : Linter}
    (h : Linter.ofSettings Registry.builtin settings only = .ok l) : l.IsStandard := by
  obtain ⟨specs, henabled, h⟩ := bind_eq_ok.mp h
  obtain rfl := Except.ok.inj h
  exact Registry.mem_of_enabled henabled

/-- **A bad file fails only itself**, unless it ends the run. In a run with the rules of the library
over the files that arguments resolve to, every file can be read, and there is a result exactly if
no file's content ends the run. The result has one report for each file, in order: the report on its
own content, with an error and no diagnostics if the file has no tree, and the same that the file
gets when it is linted alone. If there is no result, the fault is that of the first file whose
content ends the run. -/
theorem lintFiles_isolates {settings : Settings} {only : List String} {l : Linter}
    (hl : Linter.ofSettings Registry.builtin settings only = .ok l) {fs : Sources} {base : Path}
    {arguments : List String} {paths : List Path} (hpaths : fs.resolve base arguments = .ok paths) :
    (paths ≠ [] ∧ ∀ path ∈ paths, ∃ content, fs.read path = .ok content) ∧
    ((∃ result, (l.lintFiles fs base arguments).2 = .ok result) ↔
      ∀ path ∈ paths, ∀ content, fs.read path = .ok content →
        ∀ fault, ¬ l.EndsRun fs.lone content fault) ∧
    (∀ result, (l.lintFiles fs base arguments).2 = .ok result →
      List.Forall₂ (fun path report =>
        (∃ content, fs.read path = .ok content ∧
          l.Reports fs.lone path.text (reportPath base path) content report) ∧
        (report.failed ↔ ∀ root, fs.loadTree path ≠ .ok root) ∧
        (report.failed → report.diagnostics = []) ∧
        ∀ alone, fs.resolve base alone = .ok [path] →
          (l.lintFiles fs base alone).2 = .ok (LintResult.ofReports [report])) paths result.files) ∧
    ∀ fault, (l.lintFiles fs base arguments).2 = .error fault →
      ∃ before path after content, paths = before ++ path :: after ∧
        (∀ p ∈ before, ∀ c, fs.read p = .ok c → ∀ f, ¬ l.EndsRun fs.lone c f) ∧
        fs.read path = .ok content ∧ l.EndsRun fs.lone content fault := by
  have hl := Linter.isStandard_of_ofSettings hl
  have hfile := FileSystem.isFile?_of_mem_resolve hpaths
  refine ⟨⟨FileSystem.ne_nil_of_resolve hpaths, fun path hpath =>
      (FileSystem.exists_read_of_isFile? (hfile path hpath)).2⟩,
    Linter.exists_lintFiles_iff hl hpaths, fun result h => ?_,
    fun fault h => Linter.exists_endsRun_of_lintFiles hl hpaths h⟩
  refine (Linter.forall₂_of_lintFiles hpaths h).imp fun path report ⟨hfile, hreport⟩ => ?_
  obtain ⟨-, content, hread⟩ := FileSystem.exists_read_of_isFile? hfile
  have hreports := (Linter.lintFile_eq_ok_iff hl hfile hread).mp hreport
  obtain ⟨hfailed, hempty⟩ := hreports.failed
  rw [Linter.loadTree_eq_ofBytes hfile hread]
  exact ⟨⟨content, hread, hreports⟩, hfailed, hempty, fun _ halone =>
    Linter.lintFiles_alone hreport halone⟩

/-- The current directory, as a base path. -/
def here : Path := ⟨"", []⟩

/-- The text of an empty program. -/
def programText : String := "\x7b\"type\":\"Program\"\x7d"

/-- A directory with two files: the first with any content, the second with an empty program. -/
def twoFiles (content : List UInt8) : Sources where
  root := .directory [("a.json", .file content), ("b.json", .file programText.toUTF8.toList)]
  current := []
  yaml := Yaml.readBytes
  lone _ := '?'

/-- Both files are found under their names. -/
theorem isFile?_twoFiles (content : List UInt8) {name : String}
    (h : name = "a.json" ∨ name = "b.json") :
    (twoFiles content).isFile? ⟨"", [name]⟩ = .ok true := by
  rw [FileSystem.isFile?_eq_true_iff]
  rcases h with rfl | rfl
  all_goals exact ⟨_, FileSystem.find?_name _ (by decide) (by decide)⟩

/-- The current directory is **found**. -/
theorem find?_here_twoFiles (content : List UInt8) :
    (twoFiles content).find? here = .ok (some (twoFiles content).root) :=
  FileSystem.find?_eq_some_iff.mpr ⟨FileSystem.isNameable_iff.mpr (by simp [here]), rfl⟩

/-- Both files are listed for the directory, in their order. -/
theorem filesBelow_twoFiles (content : List UInt8) :
    (twoFiles content).filesBelow here treeSuffix = [⟨"", ["a.json"]⟩, ⟨"", ["b.json"]⟩] := by
  have hsuffix : "a.json".endsWith treeSuffix ∧ "b.json".endsWith treeSuffix := by
    simp only [NamePattern.endsWith_iff_suffix]
    decide
  have hsorted : [(⟨"", ["a.json"]⟩ : Path), ⟨"", ["b.json"]⟩].Pairwise fun p q => p.le q := by
    decide
  rw [FileSystem.filesBelow, FileSystem.entries, find?_here_twoFiles]
  simp [twoFiles, here, Entry.contents, Entry.contentsAll, hsuffix,
    List.mergeSort_of_pairwise hsorted]

/-- The directory stands for **both files**. -/
theorem resolve_twoFiles (content : List UInt8) :
    (twoFiles content).resolve here ["."] = .ok [⟨"", ["a.json"]⟩, ⟨"", ["b.json"]⟩] := by
  have hfind := find?_here_twoFiles content
  have hdirectory : (twoFiles content).isDirectory? here = .ok true := by
    rw [FileSystem.isDirectory?, hfind]
    rfl
  have hsearchable : (twoFiles content).unsearchable? here = none := by
    rw [FileSystem.unsearchable?, FileSystem.entries, hfind]
    rfl
  have hjoin : here.join (.ofText ".") = here := by
    rw [Path.ofText_dot]
    rfl
  simp [FileSystem.resolve, FileSystem.resolveFrom, FileSystem.expand, hjoin, hdirectory,
    hsearchable, filesBelow_twoFiles, FileSystem.addFiles, isFile?_twoFiles]

/-- The second file gets a report of its own, whatever the first one holds. -/
theorem exists_lintFile_twoFiles {l : Linter} (hl : l.IsStandard) (content : List UInt8) :
    ∃ report, (l.lintFile (twoFiles content) here ⟨"", ["b.json"]⟩).2 = .ok report := by
  let program : Json := .obj () [("type", .str "Program")]
  have hfile := isFile?_twoFiles content (.inr (Eq.refl "b.json"))
  have hread : (twoFiles content).read ⟨"", ["b.json"]⟩ = .ok programText.toUTF8.toList := rfl
  have hreads : Reads (fun _ => '?') programText.toUTF8.toList programText.toList (.ok program) :=
    reads_toUTF8 (by simp [programText]) (by cbv)
  have hisOk : (Node.ofDocument program.toDocument).isOk := by with_unfolding_all decide
  have hwhole : (program.toDocument.node?.all fun top =>
      top.postOrder.all NodeDocument.hasWholePlace) = true := by cbv
  cases hbuild : Node.ofDocument program.toDocument with
  | error fault =>
      rw [hbuild] at hisOk
      exact absurd hisOk Bool.false_ne_true
  | ok root =>
      obtain ⟨diagnostics, hcheck⟩ := exists_checkTree hbuild hl fun top d htop hd => by
        rw [htop, Option.all_some, List.all_eq_true] at hwhole
        exact hwhole d (NodeDocument.mem_postOrder.mpr hd)
      exact ⟨_, Linter.lintFile_of_reports hfile hread (.checked hreads hbuild hcheck)⟩

/-- A first file that is no JSON fails alone. -/
theorem lintFiles_brokenFile : ∃ l paths result,
    Linter.ofSettings Registry.builtin {} [] = .ok l ∧
    (twoFiles [0x7b]).resolve here ["."] = .ok paths ∧ paths.length = 2 ∧
    (l.lintFiles (twoFiles [0x7b]) here ["."]).2 = .ok result ∧
    List.Forall₂ (fun path report => report.failed ↔
      ∀ root, (twoFiles [0x7b]).loadTree path ≠ .ok root) paths result.files := by
  obtain ⟨l, hsettings⟩ : ∃ l, Linter.ofSettings Registry.builtin {} [] = .ok l := ⟨_, rfl⟩
  obtain ⟨second, hsecond⟩ :=
    exists_lintFile_twoFiles (Linter.isStandard_of_ofSettings hsettings) [0x7b]
  have hfile := isFile?_twoFiles [0x7b] (.inl (Eq.refl "a.json"))
  have hread : (twoFiles [0x7b]).read ⟨"", ["a.json"]⟩ = .ok [0x7b] := rfl
  have hreads : Reads (fun _ => '?') [0x7b] ['\x7b'] (.error (.invalid .expectingName [])) :=
    ⟨['\x7b'], rfl, rfl, rfl⟩
  obtain ⟨first, hfirst⟩ :
      ∃ report, (l.lintFile (twoFiles [0x7b]) here ⟨"", ["a.json"]⟩).2 = .ok report :=
    ⟨_, Linter.lintFile_of_reports hfile hread (.invalidJson hreads)⟩
  have hpaths := resolve_twoFiles [0x7b]
  have hresult : (l.lintFiles (twoFiles [0x7b]) here ["."]).2 =
      .ok (LintResult.ofReports [first, second]) := by
    rw [Linter.lintFiles_eq_of_resolve hpaths, Linter.lintPaths_cons, hfirst,
      Linter.lintPaths_cons, hsecond]
    rfl
  obtain ⟨-, -, hreports, -⟩ := lintFiles_isolates hsettings hpaths
  exact ⟨l, _, _, hsettings, hpaths, rfl, hresult, (hreports _ hresult).imp fun _ _ h => h.2.1⟩

/-- A first file of one byte that is no text **ends the run**, although the second file alone gets
its report. -/
theorem not_isolates_undecodable : ∃ l paths,
    Linter.ofSettings Registry.builtin {} [] = .ok l ∧
    (twoFiles [0xff]).resolve here ["."] = .ok paths ∧ paths.length = 2 ∧
    (l.lintFiles (twoFiles [0xff]) here ["."]).2 =
      .error (.load (.undecodable ⟨0, 1, 0xff, .invalidStart⟩)) ∧
    ∃ report, (l.lintFile (twoFiles [0xff]) here ⟨"", ["b.json"]⟩).2 = .ok report := by
  obtain ⟨l, hsettings⟩ : ∃ l, Linter.ofSettings Registry.builtin {} [] = .ok l := ⟨_, rfl⟩
  have hfile := isFile?_twoFiles [0xff] (.inl (Eq.refl "a.json"))
  have hread : (twoFiles [0xff]).read ⟨"", ["a.json"]⟩ = .ok [0xff] := rfl
  have hends : l.EndsRun (fun _ => '?') [0xff] (.load (.undecodable ⟨0, 1, 0xff, .invalidStart⟩)) :=
    .undecodable (rfl)
  have hpaths := resolve_twoFiles [0xff]
  refine ⟨l, _, hsettings, hpaths, rfl, ?_,
    exists_lintFile_twoFiles (Linter.isStandard_of_ofSettings hsettings) [0xff]⟩
  rw [Linter.lintFiles_eq_of_resolve hpaths, Linter.lintPaths_cons,
    Linter.lintFile_of_endsRun hfile hread hends]
  rfl

end TreeLint
