import TreeLint.Proofs.Build.Labels
import TreeLint.Proofs.Fallible
import TreeLint.Proofs.Json.Keys
import TreeLint.Settings.Validate

/-!
# Fields of Settings

What the value of a field has to be for the settings to have it, said without the readers of the
fields: `Tells settings name v` is **what an entry tells** of settings, with one rule for each
field. Each reader takes from a value exactly what the value tells, and every problem that it
reports stands in its field.

## Main results

* `Checked.all_eq_ok_iff`, `Checked.isAbout_all`: outcomes in a list.
* `readsField_hookPairs`, `readsField_pageSuffix`, `readsField_requiredFieldName`,
  `readsField_rules`: the reader of each field.
-/

namespace TreeLint

variable {α β : Type}

/-! ### Outcomes -/

namespace Checked

/-- An outcome whose problems **are all about one field**, and that fails only with a problem. -/
def IsAbout (name : String) (c : Checked α) : Prop :=
  ∀ ps, c = .error ps → ps ≠ [] ∧ ∀ p ∈ ps, p.path.head? = some name

variable {name : String} {path : List String}

/-- Where there is no problem, there is **none about anything else**. -/
theorem isAbout_ok (a : α) : IsAbout name (.ok a : Checked α) := nofun

/-- A problem is about the field **its path starts with**. -/
theorem isAbout_problem (hpath : path.head? = some name) (reason : String) :
    IsAbout name (problem path reason : Checked α) := by
  rintro _ ⟨⟩
  exact ⟨List.cons_ne_nil _ _, List.forall_mem_singleton.mpr hpath⟩

/-- A problem with what a value says is about the field **its path starts with**. -/
theorem isAbout_valueProblem (hpath : path.head? = some name) (reason : String) :
    IsAbout name (valueProblem path reason : Checked α) :=
  isAbout_problem hpath _

/-- Problems in a row are about a field if **each of them** is. -/
theorem IsAbout.bind {c : Checked α} {f : α → Checked β} (hc : c.IsAbout name)
    (hf : ∀ a, (f a).IsAbout name) : (c >>= f).IsAbout name := by
  cases c with
  | error ps =>
      rintro _ ⟨⟩
      exact hc ps rfl
  | ok a => exact hf a

/-- Two outcomes of which one fails have the problems of both. -/
theorem IsAbout.append {c : Checked α} {d : Checked β} (hc : c.IsAbout name)
    (hd : d.IsAbout name) (hfail : ∀ a b, c = .ok a → d ≠ .ok b) :
    c.problems ++ d.problems ≠ [] ∧ ∀ p ∈ c.problems ++ d.problems, p.path.head? = some name := by
  cases c with
  | error ps =>
      obtain ⟨hne, hps⟩ := hc ps rfl
      refine ⟨fun h => hne (List.append_eq_nil_iff.mp h).1, fun p hp => ?_⟩
      rcases List.mem_append.mp hp with hp | hp
      · exact hps p hp
      · cases d with
        | error qs => exact (hd qs rfl).2 p hp
        | ok b => cases hp
  | ok a =>
      cases d with
      | error qs => exact hd qs rfl
      | ok b => exact absurd rfl (hfail a b rfl)

/-- All the problems of a list are about a field if **each of them** is. -/
theorem isAbout_all {cs : List (Checked α)} (h : ∀ c ∈ cs, c.IsAbout name) :
    (all cs).IsAbout name := by
  induction cs with
  | nil => exact isAbout_ok []
  | cons c cs ih =>
      have hc := h c List.mem_cons_self
      have hcs := ih fun d hd => h d (List.mem_cons_of_mem c hd)
      intro ps hps
      cases c with
      | ok a =>
          cases hall : all cs with
          | ok as => simp [all, hall] at hps
          | error qs =>
              obtain rfl : qs = ps := by simpa [all, hall] using hps
              exact hcs qs hall
      | error qs =>
          have happend := hc.append hcs nofun
          cases hall : all cs with
          | ok as =>
              obtain rfl : qs = ps := by simpa [all, hall] using hps
              exact hc qs rfl
          | error rs =>
              obtain rfl : qs ++ rs = ps := by simpa [all, hall] using hps
              simpa only [hall, problems] using happend

/-- The first problem of a list is about a field if **each of them** is. -/
theorem isAbout_mapM {f : α → Checked β} (h : ∀ a, (f a).IsAbout name) (xs : List α) :
    (xs.mapM f).IsAbout name := by
  induction xs with
  | nil => exact isAbout_ok []
  | cons x xs ih =>
      rw [List.mapM_cons]
      exact (h x).bind fun b => ih.bind fun bs => isAbout_ok _

/-- Outcomes have their meanings **together** if each of them has one. -/
theorem all_eq_ok_iff {cs : List (Checked α)} {as : List α} :
    all cs = .ok as ↔ cs = as.map .ok := by
  constructor
  · intro h
    induction cs generalizing as with
    | nil =>
        obtain rfl : [] = as := Except.ok.inj h
        rfl
    | cons c cs ih =>
        cases c with
        | error ps => cases hall : all cs <;> simp [all, hall] at h
        | ok a =>
            cases hall : all cs with
            | error ps => simp [all, hall] at h
            | ok bs =>
                obtain rfl : a :: bs = as := by simpa [all, hall] using h
                rw [ih hall, List.map_cons]
  · rintro rfl
    induction as with
    | nil => rfl
    | cons a as ih => rw [List.map_cons, all, ih]

end Checked

/-! ### What entries tell -/

/-- A text that is an **identifier**: an ASCII letter, `_` or `$`, and then word characters and
`$`. -/
def IsIdentifier (s : String) : Prop :=
  ∃ c rest, s.toList = c :: rest ∧ (c.isAlpha ∨ c = '_' ∨ c = '$') ∧
    ∀ d ∈ rest, Text.isWordChar d ∨ d = '$'

/-- The test for identifiers finds **the identifiers**. -/
theorem isIdentifier_iff {s : String} : Text.isIdentifier s = true ↔ IsIdentifier s := by
  cases hs : s.toList with
  | nil => simp [Text.isIdentifier, IsIdentifier, hs]
  | cons c rest => simp [Text.isIdentifier, IsIdentifier, hs, or_assoc]

/-- A pair of **different identifiers**. -/
structure HookPair.IsValid (p : HookPair) : Prop where
  setup : IsIdentifier p.setup
  teardown : IsIdentifier p.teardown
  differ : p.setup ≠ p.teardown

namespace Settings

/-- What an entry **tells of settings**: its key is the name of a field, and its value is the value
of that field, spelled out and acceptable. -/
inductive Tells (settings : Settings) : String → Json → Prop
  | hookPairs (h : ∀ p ∈ settings.hookPairs, p.IsValid) :
      Tells settings "hook_pairs"
        (.arr (settings.hookPairs.map fun p => .arr [.str p.setup, .str p.teardown]))
  | pageSuffix (h : settings.pageSuffix ≠ "") :
      Tells settings "page_suffix" (.str settings.pageSuffix)
  | requiredFieldName (h : IsIdentifier settings.requiredFieldName) :
      Tells settings "required_field_name" (.str settings.requiredFieldName)
  | rules : Tells settings "rules"
      (.obj () (settings.rules.map fun entry => (entry.1, .str entry.2.word)))

section Tells

variable {settings : Settings} {v : Json}

/-- An entry tells the pairs of hooks by **listing them**, and they are valid. -/
theorem tells_hookPairs_iff : Tells settings "hook_pairs" v ↔
    v = .arr (settings.hookPairs.map fun p => .arr [.str p.setup, .str p.teardown]) ∧
      ∀ p ∈ settings.hookPairs, p.IsValid := by
  refine ⟨?_, fun ⟨hv, h⟩ => hv ▸ .hookPairs h⟩
  generalize hname : "hook_pairs" = name
  rintro (h | _ | _ | _)
  · exact ⟨rfl, h⟩
  all_goals simp at hname

/-- An entry tells the suffix by **its text**, which is not empty. -/
theorem tells_pageSuffix_iff : Tells settings "page_suffix" v ↔
    v = .str settings.pageSuffix ∧ settings.pageSuffix ≠ "" := by
  refine ⟨?_, fun ⟨hv, h⟩ => hv ▸ .pageSuffix h⟩
  generalize hname : "page_suffix" = name
  rintro (_ | h | _ | _)
  · simp at hname
  · exact ⟨rfl, h⟩
  all_goals simp at hname

/-- An entry tells the name of the field by **its text**, which is an identifier. -/
theorem tells_requiredFieldName_iff : Tells settings "required_field_name" v ↔
    v = .str settings.requiredFieldName ∧ IsIdentifier settings.requiredFieldName := by
  refine ⟨?_, fun ⟨hv, h⟩ => hv ▸ .requiredFieldName h⟩
  generalize hname : "required_field_name" = name
  rintro (_ | _ | h | _)
  · simp at hname
  · simp at hname
  · exact ⟨rfl, h⟩
  · simp at hname

/-- An entry tells the levels by **their words**. -/
theorem tells_rules_iff : Tells settings "rules" v ↔
    v = .obj () (settings.rules.map fun entry => (entry.1, .str entry.2.word)) := by
  refine ⟨?_, fun hv => hv ▸ .rules⟩
  generalize hname : "rules" = name
  rintro (_ | _ | _ | _)
  · simp at hname
  · simp at hname
  · simp at hname
  · rfl

/-- Only the **names of fields** tell something. -/
theorem mem_fieldNames_of_tells {name : String} (h : Tells settings name v) :
    name ∈ fieldNames := by
  cases h <;> simp [fieldNames]

end Tells

/-- The reader of the field `name` takes from a value **what the value tells** of the field, and
all its problems are about the field. -/
structure ReadsField (name : String) (field : Settings → α) (read : Data → Checked α) : Prop where
  onto : ∀ a, ∃ settings, field settings = a
  eq_ok_iff : ∀ (v : Json), v.hasUniqueKeys → ∀ settings : Settings,
    read (.ofJson v) = .ok (field settings) ↔ Tells settings name v
  isAbout : ∀ d, (read d).IsAbout name

end Settings

/-! ### Texts and pairs -/

namespace Data

/-- The problems with a text are about **its field**. -/
theorem isAbout_text {path : List String} {name : String} (hpath : path.head? = some name)
    (d : Data) : (d.text path).IsAbout name := by
  cases d with
  | str s => exact Checked.isAbout_ok s
  | bytes bs =>
      rw [text]
      split
      · exact Checked.isAbout_ok _
      · exact Checked.isAbout_problem hpath _
  | _ => exact Checked.isAbout_problem hpath _

/-- A value is read as a text exactly if **it is one**. -/
theorem text_ofJson_eq_ok_iff {path : List String} {v : Json} {s : String} :
    (ofJson v).text path = .ok s ↔ v = .str s := by
  cases v <;> simp [ofJson, text, Checked.problem]

/-- The problems with a pair are about **its field**. -/
theorem isAbout_textPair {path : List String} {name : String} (hpath : path.head? = some name)
    (d : Data) : (d.textPair path).IsAbout name := by
  have happend (i : ℕ) : (path ++ [toString i]).head? = some name := by simp [hpath]
  rw [textPair]
  split
  · exact Checked.isAbout_problem hpath _
  · next items _ =>
    split
    · exact Checked.isAbout_problem hpath _
    · dsimp only
      split
      · exact Checked.isAbout_ok _
      · next hfail =>
        rintro _ ⟨⟩
        refine Checked.IsAbout.append ?_ ?_ hfail <;> split
        · exact isAbout_text (happend 0) _
        · exact Checked.isAbout_problem (happend 0) _
        · exact isAbout_text (happend 1) _
        · exact Checked.isAbout_problem (happend 1) _

/-- A value is read as a pair exactly if it is **a list of two texts**. -/
theorem textPair_ofJson_eq_ok_iff {path : List String} {v : Json} {names : String × String} :
    (ofJson v).textPair path = .ok names ↔ v = .arr [.str names.1, .str names.2] := by
  constructor
  · intro h
    cases v with
    | arr items =>
        match items with
        | [] | [_] => simp [ofJson, ofItems, textPair, items?, Checked.problem] at h
        | [a, b] =>
            unfold textPair at h
            simp only [ofJson, ofItems, items?, List.length_cons, List.length_nil, lt_irrefl,
              if_false, List.getElem?_cons_zero, List.getElem?_cons_succ] at h
            split at h
            · next ha hb =>
              obtain rfl := Except.ok.inj h
              rw [text_ofJson_eq_ok_iff.mp ha, text_ofJson_eq_ok_iff.mp hb]
            · cases h
        | _ :: _ :: _ :: _ => simp [ofJson, ofItems, textPair, items?, Checked.problem] at h
    | _ => simp [ofJson, textPair, items?, Checked.problem] at h
  · rintro rfl
    rfl

/-- The problems with a level are about **its field**. -/
theorem isAbout_level {path : List String} {name : String} (hpath : path.head? = some name)
    (d : Data) : (d.level path).IsAbout name := by
  cases d with
  | str s =>
      rw [level]
      split
      · exact Checked.isAbout_ok _
      · exact Checked.isAbout_problem hpath _
  | _ => exact Checked.isAbout_problem hpath _

/-- Levels are told by **their words**. -/
theorem ofWord?_eq_some_iff {s : String} {l : Level} : Level.ofWord? s = some l ↔ s = l.word := by
  constructor
  · intro h
    unfold Level.ofWord? at h
    split at h
    all_goals cases h
    all_goals rfl
  · rintro rfl
    cases l <;> rfl

/-- A value is read as a level exactly if it is **the word** for it. -/
theorem level_ofJson_eq_ok_iff {path : List String} {v : Json} {l : Level} :
    (ofJson v).level path = .ok l ↔ v = .str l.word := by
  cases v with
  | str s =>
      rw [ofJson, level, Value.str.injEq, ← ofWord?_eq_some_iff]
      cases Level.ofWord? s <;> simp [Checked.problem]
  | _ => simp [ofJson, level, Checked.problem]

end Data

/-! ### The fields -/

/-- The problems with names of hooks are about **the pairs**. -/
theorem HookPair.isAbout_ofNames (setup teardown : String) :
    (HookPair.ofNames setup teardown).IsAbout "hook_pairs" := by
  rw [HookPair.ofNames]
  split
  · exact Checked.isAbout_valueProblem rfl _
  · split
    · exact Checked.isAbout_valueProblem rfl _
    · exact Checked.isAbout_ok _

/-- Two names make a pair exactly if it is **valid**. -/
theorem HookPair.ofNames_eq_ok_iff {setup teardown : String} {p : HookPair} :
    HookPair.ofNames setup teardown = .ok p ↔
      (setup, teardown) = (p.setup, p.teardown) ∧ p.IsValid := by
  constructor
  · intro h
    rw [HookPair.ofNames] at h
    split at h
    · cases h
    · next hfind =>
      split at h
      · cases h
      · next hne =>
        obtain rfl := Except.ok.inj h
        have hnames := List.find?_eq_none.mp hfind
        have hidentifier (name : String) (hname : name ∈ [setup, teardown]) : IsIdentifier name :=
          isIdentifier_iff.mp (by simpa using hnames name hname)
        exact ⟨rfl, hidentifier setup (by simp), hidentifier teardown (by simp), hne⟩
  · rintro ⟨hnames, hsetup, hteardown, hne⟩
    obtain ⟨rfl, rfl⟩ := Prod.mk.inj hnames
    have hfind : [p.setup, p.teardown].find? (fun name => !Text.isIdentifier name) = none := by
      simp [isIdentifier_iff.mpr hsetup, isIdentifier_iff.mpr hteardown]
    rw [HookPair.ofNames, hfind]
    exact if_neg hne

namespace Settings

/-- The names of pairs will do **together** if those of each pair do. -/
theorem mapM_ofNames_eq_ok_iff {names : List (String × String)} {pairs : List HookPair} :
    (names.mapM fun (setup, teardown) => HookPair.ofNames setup teardown) = .ok pairs ↔
      names = pairs.map (fun p => (p.setup, p.teardown)) ∧ ∀ p ∈ pairs, p.IsValid := by
  constructor
  · intro h
    induction names generalizing pairs with
    | nil =>
        obtain rfl : [] = pairs := Except.ok.inj h
        exact ⟨rfl, nofun⟩
    | cons n names ih =>
        rw [List.mapM_cons] at h
        obtain ⟨p, hp, h⟩ := bind_eq_ok.mp h
        obtain ⟨ps, hps, h⟩ := bind_eq_ok.mp h
        obtain rfl : p :: ps = pairs := Except.ok.inj h
        obtain ⟨hn, hvalid⟩ := HookPair.ofNames_eq_ok_iff.mp hp
        obtain ⟨hnames, hall⟩ := ih hps
        exact ⟨congrArg₂ List.cons hn hnames, List.forall_mem_cons.mpr ⟨hvalid, hall⟩⟩
  · rintro ⟨rfl, hvalid⟩
    induction pairs with
    | nil => rfl
    | cons p pairs ih =>
        obtain ⟨hp, hpairs⟩ := List.forall_mem_cons.mp hvalid
        rw [List.map_cons, List.mapM_cons, ih hpairs]
        exact bind_eq_ok.mpr ⟨p, HookPair.ofNames_eq_ok_iff.mpr ⟨rfl, hp⟩, rfl⟩

/-- Values are read as pairs exactly if **each of them** is one. -/
theorem textPairs_eq_iff {items : List Json} {names : List (String × String)} (k : ℕ) :
    ((Data.ofItems items).zipIdx k).map (fun (d, i) => d.textPair ["hook_pairs", toString i]) =
        names.map .ok ↔ items = names.map fun n => .arr [.str n.1, .str n.2] := by
  induction items generalizing names k with
  | nil => cases names <;> simp [Data.ofItems]
  | cons v items ih =>
      cases names with
      | nil => simp [Data.ofItems]
      | cons n names =>
          simp only [Data.ofItems, List.zipIdx_cons, List.map_cons, List.cons.injEq, ih,
            Data.textPair_ofJson_eq_ok_iff]

/-- The pairs of hooks are read **as they are told**. -/
theorem readsField_hookPairs : ReadsField "hook_pairs" Settings.hookPairs hookPairsOf where
  onto pairs := ⟨{ hookPairs := pairs }, rfl⟩
  eq_ok_iff v _ settings := by
    rw [tells_hookPairs_iff]
    cases v with
    | arr items =>
        have hlist : hookPairsOf (.ofJson (.arr items)) = (do
            let names ← Checked.all
              ((Data.ofItems items).zipIdx.map fun (d, i) => d.textPair ["hook_pairs", toString i])
            names.mapM fun (setup, teardown) => HookPair.ofNames setup teardown) := rfl
        rw [hlist, bind_eq_ok]
        simp only [Checked.all_eq_ok_iff, textPairs_eq_iff, mapM_ofNames_eq_ok_iff,
          Value.arr.injEq]
        constructor
        · rintro ⟨names, rfl, rfl, hvalid⟩
          exact ⟨List.map_map, hvalid⟩
        · rintro ⟨rfl, hvalid⟩
          exact ⟨_, by rw [List.map_map]; rfl, rfl, hvalid⟩
    | _ => simp [hookPairsOf, Data.ofJson, Data.items?, Checked.problem]
  isAbout d := by
    rw [hookPairsOf]
    split
    · exact Checked.isAbout_problem rfl _
    · refine .bind (Checked.isAbout_all fun c hc => ?_) fun names => ?_
      · obtain ⟨⟨d, i⟩, -, rfl⟩ := List.mem_map.mp hc
        exact Data.isAbout_textPair rfl d
      · refine Checked.isAbout_mapM (fun n => ?_) names
        obtain ⟨setup, teardown⟩ := n
        exact HookPair.isAbout_ofNames setup teardown

/-- The suffix is read **as it is told**. -/
theorem readsField_pageSuffix : ReadsField "page_suffix" Settings.pageSuffix pageSuffixOf where
  onto suffix := ⟨{ pageSuffix := suffix }, rfl⟩
  eq_ok_iff v _ settings := by
    rw [pageSuffixOf, bind_eq_ok, tells_pageSuffix_iff]
    simp only [Data.text_ofJson_eq_ok_iff]
    constructor
    · rintro ⟨s, rfl, h⟩
      split at h
      · cases h
      · next hempty =>
        obtain rfl := Except.ok.inj h
        exact ⟨rfl, by simpa using hempty⟩
    · rintro ⟨rfl, h⟩
      exact ⟨_, rfl, if_neg (by simpa using h)⟩
  isAbout d := by
    refine (Data.isAbout_text rfl d).bind fun s => ?_
    split
    · exact Checked.isAbout_valueProblem rfl _
    · exact Checked.isAbout_ok s

/-- The name of the field is read **as it is told**. -/
theorem readsField_requiredFieldName :
    ReadsField "required_field_name" Settings.requiredFieldName requiredFieldNameOf where
  onto name := ⟨{ requiredFieldName := name }, rfl⟩
  eq_ok_iff v _ settings := by
    rw [requiredFieldNameOf, bind_eq_ok, tells_requiredFieldName_iff]
    simp only [Data.text_ofJson_eq_ok_iff]
    constructor
    · rintro ⟨s, rfl, h⟩
      split at h
      · next hidentifier =>
        obtain rfl := Except.ok.inj h
        exact ⟨rfl, isIdentifier_iff.mp hidentifier⟩
      · cases h
    · rintro ⟨rfl, h⟩
      exact ⟨_, rfl, if_pos (isIdentifier_iff.mpr h)⟩
  isAbout d := by
    refine (Data.isAbout_text rfl d).bind fun s => ?_
    split
    · exact Checked.isAbout_ok s
    · exact Checked.isAbout_valueProblem rfl _

/-- The problems with an entry of the levels are about **the levels**. -/
theorem isAbout_ruleEntryOf (key value : Data) : (ruleEntryOf key value).IsAbout "rules" := by
  rw [ruleEntryOf]
  split
  · exact Checked.isAbout_ok _
  · next hfail =>
    rintro _ ⟨⟩
    exact (Data.isAbout_text rfl key).append (Data.isAbout_level rfl value) hfail

/-- An entry of the levels is read exactly if it is **a key with a word**. -/
theorem ruleEntryOf_eq_ok_iff {key : String} {v : Json} {entry : String × Level} :
    ruleEntryOf (.str key) (.ofJson v) = .ok entry ↔ (key, v) = (entry.1, .str entry.2.word) := by
  rw [Prod.mk.injEq]
  constructor
  · intro h
    rw [ruleEntryOf] at h
    split at h
    · next hkey hlevel =>
      obtain rfl := Except.ok.inj h
      exact ⟨Except.ok.inj hkey, Data.level_ofJson_eq_ok_iff.mp hlevel⟩
    · cases h
  · rintro ⟨rfl, rfl⟩
    rw [ruleEntryOf, Data.text, Data.level_ofJson_eq_ok_iff.mpr rfl]

/-- Entries are read as levels exactly if **each of them** is. -/
theorem ruleEntries_eq_iff {members : List (String × Json)} {levels : List (String × Level)} :
    (Data.ofMembers members).map (fun entry => ruleEntryOf entry.1 entry.2) = levels.map .ok ↔
      members = levels.map fun entry => (entry.1, .str entry.2.word) := by
  induction members generalizing levels with
  | nil => cases levels <;> simp [Data.ofMembers]
  | cons m members ih =>
      cases levels with
      | nil => simp [Data.ofMembers]
      | cons entry levels =>
          simp only [Data.ofMembers, List.map_cons, List.cons.injEq, ih, ruleEntryOf_eq_ok_iff]

/-- The levels are read **as they are told**. -/
theorem readsField_rules : ReadsField "rules" Settings.rules rulesOf where
  onto rules := ⟨{ rules := rules }, rfl⟩
  eq_ok_iff v hv settings := by
    rw [tells_rules_iff]
    cases v with
    | obj label members =>
        have hmapping : rulesOf (.ofJson (.obj label members)) = (do
            let levels ← Checked.all
              ((Data.ofMembers members).map fun entry => ruleEntryOf entry.1 entry.2)
            return levels.foldl (fun acc entry => setMember entry.1 entry.2 acc) []) := rfl
        have hnodup : (members.map Prod.fst).Nodup :=
          of_decide_eq_true (Bool.and_eq_true_iff.mp hv).1
        rw [hmapping, bind_eq_ok]
        simp only [Checked.all_eq_ok_iff, ruleEntries_eq_iff, Value.obj.injEq, true_and]
        have hlevels {levels : List (String × Level)}
            (h : members = levels.map fun entry => (entry.1, .str entry.2.word)) :
            levels.foldl (fun acc entry => setMember entry.1 entry.2 acc) [] = levels := by
          refine @foldl_setMember _ [] levels ?_
          rw [h, List.map_map] at hnodup
          exact hnodup
        constructor
        · rintro ⟨levels, hmembers, h⟩
          rw [hlevels hmembers] at h
          rw [← Except.ok.inj h]
          exact hmembers
        · intro hmembers
          exact ⟨_, hmembers, congrArg Except.ok (hlevels hmembers)⟩
    | _ => simp [rulesOf, Data.ofJson, Checked.problem]
  isAbout d := by
    cases d with
    | mapping entries =>
        refine .bind (Checked.isAbout_all fun c hc => ?_) fun levels => Checked.isAbout_ok _
        obtain ⟨⟨key, value⟩, -, rfl⟩ := List.mem_map.mp hc
        exact isAbout_ruleEntryOf key value
    | _ => exact Checked.isAbout_problem rfl _

end Settings

end TreeLint
