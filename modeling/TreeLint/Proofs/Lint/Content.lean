import TreeLint.Lint.Files
import TreeLint.Proofs.Check.BuiltTree
import TreeLint.Proofs.Text.Encoding

/-!
# What Becomes of a File

A file that arguments resolve to can be read, and what follows depends on its content alone: the
content gives a report (`Linter.Reports`) or **ends the run** (`Linter.EndsRun`). A file that is no
JSON, nested too deeply or malformed has an error in its report and no diagnostics.

Four sorts of content end the run: bytes that are no text, whole numbers with too many digits,
children whose offsets have no order, and diagnostics whose positions have none. There is no fifth,
since the rules refuse no tree that was built.

## Main results

* `FileSystem.isFile?_of_mem_resolve`: arguments resolve to files that can be read.
* `Linter.reports_or_endsRun`: every content gives a report or ends the run.
* `Linter.lintFile_eq_ok_iff`, `Linter.lintFile_eq_error_iff`: linting a file gives just the report,
  or just the fault, of its content.
-/

namespace TreeLint

/-! ### Resolved files -/

namespace FileSystem

variable {fs : FileSystem}

/-- A file can be named and read. -/
theorem exists_read_of_isFile? {path : Path} (h : fs.isFile? path = .ok true) :
    isNameable path ∧ ∃ content, fs.read path = .ok content := by
  rw [isFile?, find?] at h
  split at h
  · next hnameable =>
    refine ⟨hnameable, ?_⟩
    split at h
    · next e he =>
      cases e with
      | file content => exact ⟨content, by rw [read, he]⟩
      | directory entries => exact nomatch h
    · exact nomatch h
    · exact nomatch h
  · exact nomatch h

/-- Among paths only files are added. -/
theorem isFile?_of_mem_addFiles {found paths found' : List Path}
    (hfound : ∀ path ∈ found, fs.isFile? path = .ok true)
    (h : fs.addFiles found paths = .ok found') : ∀ path ∈ found', fs.isFile? path = .ok true := by
  induction paths generalizing found with
  | nil => exact Except.ok.inj h ▸ hfound
  | cons path rest ih =>
      rw [addFiles] at h
      split at h
      · exact ih hfound h
      · split at h
        · exact nomatch h
        · next hfile =>
          refine ih (fun p hp => ?_) h
          rcases List.mem_append.mp hp with hp | hp
          · exact hfound p hp
          · rwa [List.mem_singleton.mp hp]
        · exact ih hfound h

/-- Whatever has been resolved **is a file**, if what was found before is. -/
theorem isFile?_of_mem_resolveFrom {base : Path} {found : List Path} {arguments : List String}
    {found' : List Path} (hfound : ∀ path ∈ found, fs.isFile? path = .ok true)
    (h : fs.resolveFrom base found arguments = .ok found') :
    ∀ path ∈ found', fs.isFile? path = .ok true := by
  induction arguments generalizing found with
  | nil => exact Except.ok.inj h ▸ hfound
  | cons argument rest ih =>
      rw [resolveFrom] at h
      split at h
      · exact nomatch h
      · split at h
        · exact nomatch h
        · next hadd => exact ih (isFile?_of_mem_addFiles hfound hadd) h

/-- Arguments resolve to **at least one path**. -/
theorem ne_nil_of_resolve {base : Path} {arguments : List String} {paths : List Path}
    (h : fs.resolve base arguments = .ok paths) : paths ≠ [] := by
  rw [resolve] at h
  split at h
  · exact nomatch h
  · exact nomatch h
  · next hne _ =>
    obtain rfl := Except.ok.inj h
    exact hne

/-- Arguments resolve to **files**. -/
theorem isFile?_of_mem_resolve {base : Path} {arguments : List String} {paths : List Path}
    (h : fs.resolve base arguments = .ok paths) : ∀ path ∈ paths, fs.isFile? path = .ok true := by
  rw [resolve] at h
  split at h
  · exact nomatch h
  · exact nomatch h
  · next hfound =>
    obtain rfl := Except.ok.inj h
    exact isFile?_of_mem_resolveFrom (by simp) hfound

end FileSystem

/-! ### What becomes of a content -/

/-- What **reading** the text of a content gives, where `lone` stands for half of a pair of code
units on its own. -/
def Reads (lone : ℕ → Char) (content : List UInt8) (text : List Char)
    (outcome : Except Json.ReadFault Json) : Prop :=
  ∃ decoded, Text.decode content = .ok decoded ∧ text = Text.normalizeNewlines decoded ∧
    Json.read lone depthLimit text = outcome

/-- A text whose lines end in line feeds is read from its bytes **as it stands**. -/
theorem reads_toUTF8 {lone : ℕ → Char} {text : String} {outcome : Except Json.ReadFault Json}
    (hlines : '\r' ∉ text.toList) (hread : Json.read lone depthLimit text.toList = outcome) :
    Reads lone text.toUTF8.toList text.toList outcome :=
  ⟨text.toList, Text.decode_toUTF8 text, (Text.normalizeNewlines_eq_self hlines).symm, hread⟩

namespace Linter

/-- The **report** on the file at `path`, shown under another path, that holds a content. -/
inductive Reports (l : Linter) (lone : ℕ → Char) (path shown : String) (content : List UInt8) :
    FileReport → Prop
  | invalidJson {text : List Char} {cause : Json.ReadCause} {rest : List Char}
      (h : Reads lone content text (.error (.invalid cause rest))) :
      Reports l lone path shown content
        { path := shown
          error := some (LoadFault.invalidJson path cause (Json.lineOf text rest)).message }
  | tooDeep {text : List Char} (h : Reads lone content text (.error .tooDeep)) :
      Reports l lone path shown content
        { path := shown, error := some (LoadFault.tooDeep path).message }
  | malformed {text : List Char} {v : Json} {fault : Malformed}
      (h : Reads lone content text (.ok v))
      (hbuild : Node.ofDocument v.toDocument = .error (.malformed fault)) :
      Reports l lone path shown content { path := shown, error := some fault.message }
  | checked {text : List Char} {v : Json} {root : Node} {diagnostics : List Diagnostic}
      (h : Reads lone content text (.ok v)) (hbuild : Node.ofDocument v.toDocument = .ok root)
      (hcheck : checkTree l.settings l.specs (.node root) = .ok diagnostics) :
      Reports l lone path shown content { path := shown, diagnostics }

/-- The content of a file that **ends the run** with a fault. -/
inductive EndsRun (l : Linter) (lone : ℕ → Char) (content : List UInt8) : RunFault → Prop
  /-- The bytes are no text. -/
  | undecodable {fault : Text.Undecodable} (h : Text.decode content = .error fault) :
      EndsRun l lone content (.load (.undecodable fault))
  /-- A whole number is too long to be read. -/
  | tooManyDigits {text : List Char} {found : ℕ}
      (h : Reads lone content text (.error (.tooManyDigits found))) :
      EndsRun l lone content (.load (.tooManyDigits found))
  /-- The children of some node have offsets without an order. -/
  | unorderedChildren {text : List Char} {v : Json} {fault : Incomparable}
      (h : Reads lone content text (.ok v))
      (hbuild : Node.ofDocument v.toDocument = .error (.unordered fault)) :
      EndsRun l lone content (.load (.build (.unordered fault)))
  /-- Two diagnostics are at positions without an order. -/
  | unorderedDiagnostics {text : List Char} {v : Json} {root : Node} {fault : Incomparable}
      (h : Reads lone content text (.ok v)) (hbuild : Node.ofDocument v.toDocument = .ok root)
      (hcheck : checkTree l.settings l.specs (.node root) = .error (.unordered fault)) :
      EndsRun l lone content (.check (.unordered fault))

end Linter

section Content

variable {lone : ℕ → Char} {path shown : String} {content : List UInt8} {text : List Char}

/-- The fault of a file whose text is not read. -/
def LoadFault.ofRead (path : String) (text : List Char) : Json.ReadFault → LoadFault
  | .invalid cause rest => .invalidJson path cause (Json.lineOf text rest)
  | .tooManyDigits found => .tooManyDigits found
  | .tooDeep => .tooDeep path

/-- Where a value is read, the tree is built **from it**. -/
theorem ofBytes_of_reads_ok {v : Json} (h : Reads lone content text (.ok v)) :
    Node.ofBytes lone path content = (Node.ofDocument v.toDocument).mapError .build := by
  obtain ⟨decoded, hdecode, rfl, hread⟩ := h
  rw [Node.ofBytes, hdecode]
  simp only [mapError_ok, bind, Except.bind, readDocument, hread]

/-- Where no value is read, there is **no tree**, for that reason. -/
theorem ofBytes_of_reads_error {fault : Json.ReadFault}
    (h : Reads lone content text (.error fault)) :
    Node.ofBytes lone path content = .error (.ofRead path text fault) := by
  obtain ⟨decoded, hdecode, rfl, hread⟩ := h
  rw [Node.ofBytes, hdecode]
  cases fault <;> simp only [mapError_ok, bind, Except.bind, readDocument, hread] <;> rfl

end Content

namespace Linter

variable {l : Linter} {fs : Sources} {base path : Path} {content : List UInt8}

/-- The report on a file with a tree is that of the tree. -/
theorem lintFile_of_ok {root : Node} (h : fs.loadTree path = .ok root) :
    (l.lintFile fs base path).2 =
      (l.lintTree (reportPath base path) (.node root)).2.mapError .check := by
  simp only [lintFile, h]

/-- A file without a tree has the text of its fault in its report, or the fault **ends the run**. -/
theorem lintFile_of_error {fault : LoadFault} (h : fs.loadTree path = .error fault) :
    (l.lintFile fs base path).2 =
      if fault.isContained then
        .ok { path := reportPath base path, error := some fault.message }
      else .error (.load fault) := by
  simp only [lintFile, h]
  split <;> rfl

/-- A file is loaded from its content. -/
theorem loadTree_eq_ofBytes (hfile : fs.isFile? path = .ok true)
    (hread : fs.read path = .ok content) :
    fs.loadTree path = Node.ofBytes fs.lone path.text content := by
  obtain ⟨hnameable, -⟩ := FileSystem.exists_read_of_isFile? hfile
  simp only [Sources.loadTree, if_pos hnameable, hread]

/-- A file has the tree that is built from **the value in its content**. -/
theorem loadTree_of_reads (hfile : fs.isFile? path = .ok true)
    (hread : fs.read path = .ok content) {text : List Char} {v : Json}
    (h : Reads fs.lone content text (.ok v)) {root : Node}
    (hbuild : Node.ofDocument v.toDocument = .ok root) : fs.loadTree path = .ok root := by
  rw [loadTree_eq_ofBytes hfile hread, ofBytes_of_reads_ok h, hbuild, mapError_ok]

/-- The file **gets the report** on its content. -/
theorem lintFile_of_reports (hfile : fs.isFile? path = .ok true)
    (hread : fs.read path = .ok content) {report : FileReport}
    (h : l.Reports fs.lone path.text (reportPath base path) content report) :
    (l.lintFile fs base path).2 = .ok report := by
  have hload := loadTree_eq_ofBytes hfile hread
  cases h with
  | invalidJson h =>
      rw [lintFile_of_error (hload.trans (ofBytes_of_reads_error h))]
      rfl
  | tooDeep h =>
      rw [lintFile_of_error (hload.trans (ofBytes_of_reads_error h))]
      rfl
  | malformed h hbuild =>
      rw [ofBytes_of_reads_ok h, hbuild] at hload
      rw [lintFile_of_error hload]
      rfl
  | checked h hbuild hcheck =>
      rw [lintFile_of_ok (loadTree_of_reads hfile hread h hbuild), lintTree, hcheck]
      rfl

/-- The file **ends the run** if its content does. -/
theorem lintFile_of_endsRun (hfile : fs.isFile? path = .ok true)
    (hread : fs.read path = .ok content) {fault : RunFault} (h : l.EndsRun fs.lone content fault) :
    (l.lintFile fs base path).2 = .error fault := by
  have hload := loadTree_eq_ofBytes hfile hread
  cases h with
  | undecodable h =>
      rw [Node.ofBytes, h] at hload
      rw [lintFile_of_error hload]
      rfl
  | tooManyDigits h =>
      rw [lintFile_of_error (hload.trans (ofBytes_of_reads_error h))]
      rfl
  | unorderedChildren h hbuild =>
      rw [ofBytes_of_reads_ok h, hbuild] at hload
      rw [lintFile_of_error hload]
      rfl
  | unorderedDiagnostics h hbuild hcheck =>
      rw [lintFile_of_ok (loadTree_of_reads hfile hread h hbuild), lintTree, hcheck]
      rfl

/-- A **standard** linter: its rules come with the library and are switched on. -/
def IsStandard (l : Linter) : Prop :=
  ∀ spec ∈ l.specs, spec ∈ Registry.builtin ∧ l.settings.levelFor spec.id spec.name ≠ .off

/-- Every content **gives a report or ends the run**: with the rules of the library nothing else can
happen to a built tree but that its diagnostics have no order. -/
theorem reports_or_endsRun (hl : l.IsStandard) (lone : ℕ → Char) (path shown : String)
    (content : List UInt8) :
    (∃ report, l.Reports lone path shown content report) ∨
      ∃ fault, l.EndsRun lone content fault := by
  cases hdecode : Text.decode content with
  | error fault => exact .inr ⟨_, .undecodable hdecode⟩
  | ok decoded =>
      cases hread : Json.read lone depthLimit (Text.normalizeNewlines decoded) with
      | error fault =>
          have h : Reads lone content _ (.error fault) := ⟨decoded, hdecode, rfl, hread⟩
          cases fault with
          | invalid cause rest => exact .inl ⟨_, .invalidJson h⟩
          | tooManyDigits found => exact .inr ⟨_, .tooManyDigits h⟩
          | tooDeep => exact .inl ⟨_, .tooDeep h⟩
      | ok v =>
          have h : Reads lone content _ (.ok v) := ⟨decoded, hdecode, rfl, hread⟩
          cases hbuild : Node.ofDocument v.toDocument with
          | error fault =>
              cases fault with
              | malformed fault => exact .inl ⟨_, .malformed h hbuild⟩
              | unordered fault => exact .inr ⟨_, .unorderedChildren h hbuild⟩
          | ok root =>
              obtain ⟨runs, runs', hruns, hwalk, -⟩ := exists_walkAll_of_ofDocument hbuild hl
              have hcheck := checkTree_of_walkAll hruns hwalk
              cases hsort : sortDiagnostics (runs'.flatMap RuleRun.reported) with
              | ok diagnostics =>
                  rw [hsort] at hcheck
                  exact .inl ⟨_, .checked h hbuild hcheck⟩
              | error fault =>
                  rw [hsort] at hcheck
                  exact .inr ⟨_, .unorderedDiagnostics h hbuild hcheck⟩

/-- The report on a file is that on its content. -/
theorem lintFile_eq_ok_iff (hl : l.IsStandard) (hfile : fs.isFile? path = .ok true)
    (hread : fs.read path = .ok content) {report : FileReport} :
    (l.lintFile fs base path).2 = .ok report ↔
      l.Reports fs.lone path.text (reportPath base path) content report := by
  refine ⟨fun h => ?_, lintFile_of_reports hfile hread⟩
  rcases reports_or_endsRun hl fs.lone path.text (reportPath base path) content with
    ⟨report', hreport'⟩ | ⟨fault, hfault⟩
  · rw [lintFile_of_reports hfile hread hreport'] at h
    exact Except.ok.inj h ▸ hreport'
  · rw [lintFile_of_endsRun hfile hread hfault] at h
    exact nomatch h

/-- The fault with which a file ends the run is that of its content. -/
theorem lintFile_eq_error_iff (hl : l.IsStandard) (hfile : fs.isFile? path = .ok true)
    (hread : fs.read path = .ok content) {fault : RunFault} :
    (l.lintFile fs base path).2 = .error fault ↔ l.EndsRun fs.lone content fault := by
  refine ⟨fun h => ?_, lintFile_of_endsRun hfile hread⟩
  rcases reports_or_endsRun hl fs.lone path.text (reportPath base path) content with
    ⟨report, hreport⟩ | ⟨fault', hfault'⟩
  · rw [lintFile_of_reports hfile hread hreport] at h
    exact nomatch h
  · rw [lintFile_of_endsRun hfile hread hfault'] at h
    exact Except.error.inj h ▸ hfault'

/-- A report has an error exactly if the content has **no tree**, and then no diagnostics. -/
theorem Reports.failed {lone : ℕ → Char} {path shown : String} {report : FileReport}
    (h : l.Reports lone path shown content report) :
    (report.failed ↔ ∀ root, Node.ofBytes lone path content ≠ .ok root) ∧
      (report.failed → report.diagnostics = []) := by
  cases h with
  | invalidJson h =>
      rw [ofBytes_of_reads_error h]
      simp [FileReport.failed]
  | tooDeep h =>
      rw [ofBytes_of_reads_error h]
      simp [FileReport.failed]
  | malformed h hbuild =>
      rw [ofBytes_of_reads_ok h, hbuild]
      simp [FileReport.failed]
  | checked h hbuild hcheck =>
      rw [ofBytes_of_reads_ok h, hbuild]
      simp [FileReport.failed]

end Linter

end TreeLint
