import TreeLint.Proofs.Fallible
import TreeLint.Proofs.File.Entries
import TreeLint.Settings.Load
import TreeLint.Yaml.Read

/-!
# Settings of Files and of Data

The value of a file is validated like data, once it has been read. Only before that it is asked
whether it is **blank**, and a blank value gives the defaults. Apart from null, which is the value
of an empty file, and from the empty mapping, whose settings are the defaults in any case, the blank
values are no mappings (`Data.IsHollow`): as data they are refused, in a file they pass.

## Main results

* `Data.isBlank_iff`: the blank values.
* `Settings.ofFileData_eq_ofData_iff`: which values mean the same in a file and as data.
* `Sources.loadSettings_eq_ofData_iff`: the same for files that are there.
-/

namespace TreeLint

/-! ### Blank values -/

namespace Data

/-- A value, other than null, with **nothing in it** that is no mapping. -/
inductive IsHollow : Data → Prop
  | no : IsHollow (.bool false)
  | zero : IsHollow (.int 0)
  | zeroFloat (x : Double) (h : x.isZero) : IsHollow (.float x)
  | text : IsHollow (.str "")
  | bytes : IsHollow (.bytes [])
  | list : IsHollow (.list [])
  | tuple : IsHollow (.tuple [])
  | set : IsHollow (.set [])

/-- The **blank** values are null, the empty mapping and the hollow ones. -/
theorem isBlank_iff {data : Data} :
    data.isBlank ↔ data = .null ∨ data = .mapping [] ∨ data.IsHollow := by
  constructor
  · intro h
    cases data with
    | null => exact .inl rfl
    | mapping entries => exact .inr (.inl (by rw [List.isEmpty_iff.mp h]))
    | bool b =>
        cases b with
        | true => cases h
        | false => exact .inr (.inr .no)
    | int n =>
        obtain rfl := beq_iff_eq.mp h
        exact .inr (.inr .zero)
    | float x => exact .inr (.inr (.zeroFloat x h))
    | str s =>
        obtain rfl := String.isEmpty_iff.mp h
        exact .inr (.inr .text)
    | bytes bs =>
        obtain rfl := List.isEmpty_iff.mp h
        exact .inr (.inr .bytes)
    | date | dateTime => cases h
    | list items =>
        obtain rfl := List.isEmpty_iff.mp h
        exact .inr (.inr .list)
    | tuple items =>
        obtain rfl := List.isEmpty_iff.mp h
        exact .inr (.inr .tuple)
    | set items =>
        obtain rfl := List.isEmpty_iff.mp h
        exact .inr (.inr .set)
  · rintro (rfl | rfl | h)
    · rfl
    · rfl
    · cases h with
      | zeroFloat x h => exact h
      | _ => rfl

/-- What is hollow is **no mapping**. -/
theorem IsHollow.ne_mapping {data : Data} (h : data.IsHollow) (entries : List (Data × Data)) :
    data ≠ .mapping entries := by
  rintro rfl
  cases h

end Data

/-! ### Settings of a value -/

namespace Settings

variable {data : Data}

/-- What is no mapping is **refused**, by its type. -/
theorem ofData_of_ne_mapping (h : ∀ entries, data ≠ .mapping entries) :
    ofData data = .error (.notAMapping data.typeName) := by
  cases data with
  | mapping entries => exact absurd rfl (h entries)
  | _ => rfl

theorem ofData_mapping_nil : ofData (.mapping []) = .ok {} := rfl

/-- A hollow file gives **the defaults**. -/
theorem ofFileData_of_isHollow (h : data.IsHollow) : ofFileData data = .ok {} := by
  rw [ofFileData, if_pos (Data.isBlank_iff.mpr (.inr (.inr h)))]

/-- A value other than null means the same **in a file and as data**, unless it is hollow. -/
theorem ofFileData_eq_ofData_iff (hnull : data ≠ .null) :
    ofFileData data = ofData data ↔ ¬ data.IsHollow := by
  constructor
  · intro heq h
    rw [ofFileData_of_isHollow h, ofData_of_ne_mapping h.ne_mapping] at heq
    cases heq
  · intro h
    rw [ofFileData]
    split
    · next hblank =>
      obtain rfl : data = .mapping [] := by
        rcases Data.isBlank_iff.mp hblank with hdata | hdata | hdata
        · exact absurd hdata hnull
        · exact hdata
        · exact absurd hdata h
      exact ofData_mapping_nil.symm
    · rfl

end Settings

/-! ### Settings of a file -/

namespace Sources

variable {fs : Sources} {named : Option Path} {path : Path} {content : List UInt8} {data : Data}

/-- The settings of a file **that is there**, named or found, are those of its value. -/
theorem loadSettings_of_find? (hpath : named.or fs.findConfig? = some path)
    (hfile : fs.find? path = .ok (some (.file content)))
    (hdata : fs.yaml content = .ok data) :
    fs.loadSettings named = (Settings.ofFileData data).mapError .config := by
  have hexists : fs.exists? path = .ok true := by
    rw [FileSystem.exists?, hfile]
    rfl
  have hread : fs.read path = .ok content := by
    rw [FileSystem.read, (FileSystem.find?_eq_some_iff.mp hfile).2]
  simp only [loadSettings, hpath, loadSettingsFrom, hexists, hread, hdata, Settings.ofReading]

/-- **Settings of files and of data**, with any reader of YAML. Take a file that is there, whose
value is not null. Its settings are those of the value as data, or there are none for the same
fault, exactly if the value is not hollow. A hollow value, which is refused as data, gives the
defaults. Any other value that is no mapping is refused. -/
theorem loadSettings_eq_ofData_iff (hpath : named.or fs.findConfig? = some path)
    (hfile : fs.find? path = .ok (some (.file content)))
    (hdata : fs.yaml content = .ok data) (hnull : data ≠ .null) :
    (fs.loadSettings named = (Settings.ofData data).mapError .config ↔ ¬ data.IsHollow) ∧
    (data.IsHollow → fs.loadSettings named = .ok {} ∧
      Settings.ofData data = .error (.notAMapping data.typeName)) ∧
    (¬ data.IsHollow → (∀ entries, data ≠ .mapping entries) →
      fs.loadSettings named = .error (.config (.notAMapping data.typeName))) := by
  have hload := loadSettings_of_find? hpath hfile hdata
  have hsame := Settings.ofFileData_eq_ofData_iff hnull
  refine ⟨⟨fun heq h => ?_, fun h => ?_⟩, fun h => ⟨?_, ?_⟩, fun h hmapping => ?_⟩
  · rw [hload, Settings.ofFileData_of_isHollow h, Settings.ofData_of_ne_mapping h.ne_mapping] at heq
    cases heq
  · rw [hload, hsame.mpr h]
  · rw [hload, Settings.ofFileData_of_isHollow h]
    rfl
  · exact Settings.ofData_of_ne_mapping h.ne_mapping
  · rw [hload, hsame.mpr h, Settings.ofData_of_ne_mapping hmapping]
    rfl

/-- A directory with a file of settings. -/
def settingsFile (content : List UInt8) : Sources where
  root := .directory [("cylint.yaml", .file content)]
  current := []
  yaml := Yaml.readBytes
  lone _ := '?'

/-- The file is **found** under its name. -/
theorem find?_settingsFile (content : List UInt8) :
    (settingsFile content).find? ⟨"", ["cylint.yaml"]⟩ = .ok (some (.file content)) :=
  FileSystem.find?_eq_some_iff.mpr ⟨FileSystem.isNameable_iff.mpr (by simp), rfl⟩

/-- The text `rules: [a]`. -/
def listedRules : List UInt8 := [0x72, 0x75, 0x6c, 0x65, 0x73, 0x3a, 0x20, 0x5b, 0x61, 0x5d]

/-- The text `[]`. -/
def emptyList : List UInt8 := [0x5b, 0x5d]

/-- What the two texts **stand for**, as a test. -/
theorem read_texts :
    (match Yaml.readBytes listedRules with
      | .ok (.mapping [(.str key, .list [.str item])]) => key == "rules" && item == "a"
      | _ => false) = true ∧
    (match Yaml.readBytes emptyList with
      | .ok (.list []) => true
      | _ => false) = true := by
  decide +kernel

/-- The first text is a mapping with **a list**. -/
theorem read_listedRules : Yaml.readBytes listedRules =
    .ok (.mapping [(.str "rules", .list [.str "a"])]) := by
  have h := read_texts.1
  split at h
  · next key item hread =>
    simp only [Bool.and_eq_true, beq_iff_eq] at h
    rw [hread, h.1, h.2]
  · cases h

/-- The second text is a list **without items**. -/
theorem read_emptyList : Yaml.readBytes emptyList = .ok (.list []) := by
  have h := read_texts.2
  split at h
  · next hread => exact hread
  · cases h

/-- A list where levels should stand is refused in a file **as in data**. -/
theorem loadSettings_eq_ofData_listedRules :
    (settingsFile listedRules).loadSettings (some ⟨"", ["cylint.yaml"]⟩) =
      (Settings.ofData (.mapping [(.str "rules", .list [.str "a"])])).mapError .config ∧
    (fault? (Settings.ofData (.mapping [(.str "rules", .list [.str "a"])]))).map
      ConfigFault.message =
        some "Invalid configuration: rules: Input should be a valid dictionary" := by
  have hhollow : ¬ (Data.mapping [(.str "rules", .list [.str "a"])]).IsHollow := fun h =>
    h.ne_mapping _ rfl
  exact ⟨(loadSettings_eq_ofData_iff rfl (find?_settingsFile listedRules) read_listedRules
    (by rintro ⟨⟩)).1.mpr hhollow, by decide⟩

/-- An empty list is **refused as data, and accepted in a file**. -/
theorem loadSettings_ne_ofData_emptyList :
    Yaml.readBytes emptyList = .ok (.list []) ∧
    (settingsFile emptyList).loadSettings (some ⟨"", ["cylint.yaml"]⟩) = .ok {} ∧
    Settings.ofData (.list []) = .error (.notAMapping "list") := by
  have hpath : (some (Path.mk "" ["cylint.yaml"])).or (settingsFile emptyList).findConfig? =
      some ⟨"", ["cylint.yaml"]⟩ := rfl
  have hload := loadSettings_of_find? hpath (find?_settingsFile emptyList) read_emptyList
  refine ⟨read_emptyList, ?_, rfl⟩
  rw [hload, Settings.ofFileData_of_isHollow .list]
  rfl

end Sources

end TreeLint
