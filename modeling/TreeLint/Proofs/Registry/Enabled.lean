import Mathlib.Data.String.Basic
import TreeLint.Proofs.Registry.Registration

/-!
# The Rules to Run

Which rules are run is decided by three parties: the registrations, the settings, which may switch
rules off, and a selection by keys. A key that nobody knows is a fault, in the settings as well as
in the selection, and the **first** such key is reported (`fault?_enabled`). Otherwise the rules to
run are told by what they are and not by how they were found: they are the latest of their ids,
switched on and selected (`mem_enabled_after_iff`), and they come **by id**. So the order in which
levels or keys are written makes no difference.

## Main results

* `RuleSpec.hasLevel_iff`: the level of a rule.
* `Registry.fault?_enabled`: the fault of an unknown key.
* `Registry.pairwise_enabled`, `Registry.mem_enabled_after_iff`: the rules to run.
* `Registry.enabled_after`: all that is said here, for any history of registrations.
-/

namespace TreeLint

/-! ### Levels -/

/-- In a list with **distinct keys** what is found under a key is what stands beside it. -/
theorem lookup_eq_some_iff_mem {α : Type} {entries : List (String × α)}
    (h : (entries.map Prod.fst).Nodup) {key : String} {a : α} :
    entries.lookup key = some a ↔ (key, a) ∈ entries := by
  rw [List.lookup_eq_some_iff]
  constructor
  · rintro ⟨front, back, rfl, -⟩
    simp
  · intro hmem
    obtain ⟨front, back, rfl⟩ := List.append_of_mem hmem
    refine ⟨front, back, rfl, fun entry hentry => ?_⟩
    rw [List.map_append, List.nodup_append] at h
    have hne := h.2.2 entry.1 (List.mem_map_of_mem hentry) key (by simp)
    simpa using hne.symm

/-- The order in which levels are written **makes no difference**. -/
theorem Settings.levelFor_of_perm {settings : Settings} {rules : List (String × Level)}
    (hkeys : (settings.rules.map Prod.fst).Nodup) (h : rules.Perm settings.rules)
    (id name : String) :
    Settings.levelFor { settings with rules } id name = settings.levelFor id name := by
  have hkeys' : (rules.map Prod.fst).Nodup := (h.map Prod.fst).nodup_iff.mpr hkeys
  have hlookup : ∀ key, rules.lookup key = settings.rules.lookup key := by
    intro key
    ext level
    rw [lookup_eq_some_iff_mem hkeys', lookup_eq_some_iff_mem hkeys, h.mem_iff]
  simp only [levelFor, hlookup]

/-- The **entry** of a key in settings: the first that is written for it. -/
def Settings.HasEntry (settings : Settings) (key : String) (level : Level) : Prop :=
  ∃ before after, settings.rules = before ++ (key, level) :: after ∧ key ∉ before.map Prod.fst

/-- The **level** that settings give to a rule: by the entry for its id, else by the entry for its
name, and else the level of errors. -/
inductive RuleSpec.HasLevel (spec : RuleSpec) (settings : Settings) : Level → Prop
  | ofId {level : Level} (h : settings.HasEntry spec.id level) : spec.HasLevel settings level
  | ofName {level : Level} (hid : spec.id ∉ settings.rules.map Prod.fst)
      (h : settings.HasEntry spec.name level) : spec.HasLevel settings level
  | unset (hid : spec.id ∉ settings.rules.map Prod.fst)
      (hname : spec.name ∉ settings.rules.map Prod.fst) : spec.HasLevel settings .error

/-- A key has an entry with a level exactly if the level is **found** for it. -/
theorem Settings.hasEntry_iff {settings : Settings} {key : String} {level : Level} :
    settings.HasEntry key level ↔ settings.rules.lookup key = some level := by
  rw [List.lookup_eq_some_iff, HasEntry]
  simp only [bne_iff_ne, List.mem_map, not_exists, not_and]
  exact exists₂_congr fun before after => and_congr_right fun _ =>
    forall₂_congr fun entry _ => ne_comm

/-- A key without an entry is **not found**. -/
theorem Settings.notMem_keys_iff {settings : Settings} {key : String} :
    key ∉ settings.rules.map Prod.fst ↔ settings.rules.lookup key = none := by
  rw [List.lookup_eq_none_iff, List.mem_map, not_exists]
  simp only [bne_iff_ne, not_and]
  exact forall₂_congr fun entry _ => ne_comm

/-- A rule has **the level that is looked up** for it, and no other. -/
theorem RuleSpec.hasLevel_iff {spec : RuleSpec} {settings : Settings} {level : Level} :
    spec.HasLevel settings level ↔ settings.levelFor spec.id spec.name = level := by
  rw [Settings.levelFor]
  constructor
  · intro h
    cases h with
    | ofId h => rw [Settings.hasEntry_iff.mp h]
    | ofName hid h => rw [Settings.notMem_keys_iff.mp hid, Settings.hasEntry_iff.mp h, Option.getD]
    | unset hid hname =>
        rw [Settings.notMem_keys_iff.mp hid, Settings.notMem_keys_iff.mp hname, Option.getD]
  · rintro rfl
    cases hid : settings.rules.lookup spec.id with
    | some level => exact .ofId (Settings.hasEntry_iff.mpr hid)
    | none =>
        cases hname : settings.rules.lookup spec.name with
        | some level =>
            exact .ofName (Settings.notMem_keys_iff.mpr hid) (Settings.hasEntry_iff.mpr hname)
        | none =>
            exact .unset (Settings.notMem_keys_iff.mpr hid) (Settings.notMem_keys_iff.mpr hname)

namespace Registry

variable {registry : Registry} {settings : Settings} {only : List String} {specs : List RuleSpec}
  {spec : RuleSpec} {history : List RuleSpec}

/-! ### Unknown keys -/

/-- A key cannot be resolved exactly if it is **unknown**. -/
theorem fault?_resolve_eq_some_iff {key : String} {fault : ConfigFault} :
    fault? (registry.resolve key) = some fault ↔
      ¬ registry.Knows key ∧ fault = .unknownRule key registry.ids := by
  rw [← exists_resolve_iff, resolve]
  cases registry.find? key with
  | none => simp [eq_comm]
  | some found => simp

/-- The fault of the rules to run is that of the **first unknown key**, in the settings or else in
the selection. -/
theorem fault?_enabled (registry : Registry) (settings : Settings) (only : List String) :
    fault? (registry.enabled settings only) =
      (settings.rules.map Prod.fst ++ only).findSome? fun key => fault? (registry.resolve key) := by
  have hrules := fault?_mapM (fun entry : String × Level => registry.resolve entry.1) settings.rules
  have honly := fault?_mapM registry.resolve only
  rw [List.findSome?_append, List.findSome?_map, enabled, fault?_bind]
  simp only [Function.comp_def]
  rw [← hrules, ← honly]
  cases settings.rules.mapM (fun entry => registry.resolve entry.1) with
  | error fault => rfl
  | ok found =>
      rw [fault?_ok, Option.none_or]
      cases only.mapM registry.resolve <;> rfl

/-! ### Rules in order -/

/-- Registered rules **by id**: no id comes twice, so the ids go strictly up. -/
theorem pairwise_sorted (h : registry.ids.Nodup) :
    registry.sorted.Pairwise fun a b => a.id < b.id := by
  have hsorted : registry.sorted.Pairwise fun a b => a.id ≤ b.id := by
    have hmerge : registry.sorted.Pairwise fun a b => decide (a.id ≤ b.id) = true := by
      refine List.pairwise_mergeSort (fun a b c hab hbc => ?_) (fun a b => ?_) registry
      · rw [decide_eq_true_eq] at hab hbc ⊢
        exact le_trans hab hbc
      · simpa using le_total a.id b.id
    exact hmerge.imp of_decide_eq_true
  have hids : (registry.sorted.map RuleSpec.id).Nodup :=
    ((List.mergeSort_perm registry _).map RuleSpec.id).nodup_iff.mpr h
  exact (hsorted.and (List.pairwise_map.mp hids)).imp fun hab => lt_of_le_of_ne hab.1 hab.2

/-- What is enabled are the rules by id, without those that are **not selected** and those that are
**off**. -/
theorem enabled_eq_ok (h : registry.enabled settings only = .ok specs) :
    ∃ wanted, only.mapM registry.resolve = .ok wanted ∧
      specs = (registry.sorted.filter fun spec =>
        only.isEmpty || wanted.any fun w => w.id == spec.id).filter fun spec =>
          settings.levelFor spec.id spec.name != .off := by
  obtain ⟨-, -, h⟩ := bind_eq_ok.mp h
  obtain ⟨wanted, hwanted, h⟩ := bind_eq_ok.mp h
  exact ⟨wanted, hwanted, (Except.ok.inj h).symm⟩

/-- With default settings and without a selection **all rules** run. -/
theorem enabled_default (registry : Registry) : registry.enabled {} [] = .ok registry.sorted := by
  have hlevel (spec : RuleSpec) : Settings.levelFor {} spec.id spec.name = .error := rfl
  simp only [enabled, List.mapM_nil, List.isEmpty_nil, Bool.true_or, List.filter_true, hlevel]
  exact congrArg Except.ok (List.filter_true _)

/-- What is enabled comes **by id**, if ids are unique. -/
theorem pairwise_enabled (hids : registry.ids.Nodup)
    (h : registry.enabled settings only = .ok specs) : specs.Pairwise fun a b => a.id < b.id := by
  obtain ⟨wanted, -, rfl⟩ := enabled_eq_ok h
  exact ((pairwise_sorted hids).filter _).filter _

/-- Lists of rules by id that hold the same rules **are the same**. -/
theorem eq_of_mem_iff {specs' : List RuleSpec} (h : specs.Pairwise fun a b => a.id < b.id)
    (h' : specs'.Pairwise fun a b => a.id < b.id) (hmem : ∀ spec, spec ∈ specs ↔ spec ∈ specs') :
    specs = specs' := by
  have hnodup : ∀ {specs : List RuleSpec}, (specs.Pairwise fun a b => a.id < b.id) →
      specs.Nodup := fun h => h.imp fun {a b} hlt heq => by
    rw [heq] at hlt
    exact lt_irrefl _ hlt
  have hperm := (List.perm_ext_iff_of_nodup (hnodup h) (hnodup h')).mpr hmem
  exact hperm.eq_of_pairwise (fun a b _ _ hab hba => absurd hba hab.asymm) h h'

/-! ### The rules to run -/

/-- The rules to run are **the latest of their ids**, switched on, and meant by some key if there
are keys. -/
theorem mem_enabled_after_iff (h : (after history).enabled settings only = .ok specs) :
    spec ∈ specs ↔ spec.IsLatest history ∧ settings.levelFor spec.id spec.name ≠ .off ∧
      (only ≠ [] → ∃ key ∈ only, spec.IsMeantBy key history) := by
  have hreflects := reflects_after history
  obtain ⟨wanted, hwanted, rfl⟩ := enabled_eq_ok h
  have hany : spec ∈ after history → ((∃ w ∈ wanted, w.id = spec.id) ↔
      ∃ key ∈ only, spec.IsMeantBy key history) := by
    intro hspec
    constructor
    · rintro ⟨w, hw, hid⟩
      obtain ⟨key, hkey, hresolve⟩ := (mem_of_mapM_iff hwanted).mp hw
      obtain rfl := hreflects.eq_of_id_eq (mem_of_resolve hresolve).1 hspec hid
      exact ⟨key, hkey, resolve_after_iff.mp hresolve⟩
    · rintro ⟨key, hkey, hmeant⟩
      exact ⟨spec, (mem_of_mapM_iff hwanted).mpr ⟨key, hkey, resolve_after_iff.mpr hmeant⟩, rfl⟩
  simp only [List.mem_filter, sorted, List.mem_mergeSort, bne_iff_ne, Bool.or_eq_true,
    List.isEmpty_iff, List.any_eq_true, beq_iff_eq, ← hreflects.mem spec]
  constructor
  · rintro ⟨⟨hspec, hselected⟩, hlevel⟩
    exact ⟨hspec, hlevel, fun hne => (hany hspec).mp (hselected.resolve_left hne)⟩
  · rintro ⟨hspec, hlevel, hselected⟩
    refine ⟨⟨hspec, ?_⟩, hlevel⟩
    by_cases hempty : only = []
    · exact .inl hempty
    · exact .inr ((hany hspec).mpr (hselected hempty))

/-- Levels and keys may be written in **any order**, and keys more than once. -/
theorem enabled_after_of_perm (h : (after history).enabled settings only = .ok specs)
    {rules : List (String × Level)} (hkeys : (settings.rules.map Prod.fst).Nodup)
    (hrules : rules.Perm settings.rules) {only' : List String}
    (honly : ∀ key, key ∈ only' ↔ key ∈ only) :
    (after history).enabled { settings with rules } only' = .ok specs := by
  have hempty : only' = [] ↔ only = [] := by
    simp only [List.eq_nil_iff_forall_not_mem, honly]
  obtain ⟨hknown, hknown'⟩ := exists_enabled_iff.mp ⟨specs, h⟩
  obtain ⟨specs', h'⟩ : ∃ specs', (after history).enabled { settings with rules } only' =
      .ok specs' := by
    refine exists_enabled_iff.mpr ⟨fun key hkey => ?_, fun key hkey => ?_⟩
    · exact hknown key ((hrules.map Prod.fst).mem_iff.mp hkey)
    · exact hknown' key ((honly key).mp hkey)
  have hids := (reflects_after history).nodup_ids
  rw [h']
  refine congrArg _ (eq_of_mem_iff (pairwise_enabled hids h') (pairwise_enabled hids h) ?_)
  intro spec
  rw [mem_enabled_after_iff h', mem_enabled_after_iff h, Settings.levelFor_of_perm hkeys hrules]
  simp only [honly, hempty, ne_eq]

/-- **The rules to run**, whatever rules have been registered. There are none exactly if some key of
the settings or of the selection is unknown, and the fault names the first such key. Otherwise they
come by id, and are the latest rules of their ids that have a level other than off and, if there is
a selection, are meant by one of its keys. Neither the order of the levels nor the order or number
of the keys makes a difference, and all these rules can be started. -/
theorem enabled_after (history : List RuleSpec) (settings : Settings) (only : List String) :
    ((∃ fault, (after history).enabled settings only = .error fault) ↔
      ∃ key ∈ settings.rules.map Prod.fst ++ only, ¬ RuleSpec.IsKnown history key) ∧
    (∀ fault, (after history).enabled settings only = .error fault →
      ∃ known key rest, settings.rules.map Prod.fst ++ only = known ++ key :: rest ∧
        (∀ k ∈ known, RuleSpec.IsKnown history k) ∧ ¬ RuleSpec.IsKnown history key ∧
        fault = .unknownRule key (history.map RuleSpec.id).eraseDups) ∧
    ∀ specs, (after history).enabled settings only = .ok specs →
      (specs.Pairwise fun a b => a.id < b.id) ∧
      (∀ spec, spec ∈ specs ↔ spec.IsLatest history ∧
        (∃ level, spec.HasLevel settings level ∧ level ≠ .off) ∧
        (only ≠ [] → ∃ key ∈ only, spec.IsMeantBy key history)) ∧
      (∀ rules only', (settings.rules.map Prod.fst).Nodup → rules.Perm settings.rules →
        (∀ key, key ∈ only' ↔ key ∈ only) →
          (after history).enabled { settings with rules } only' = .ok specs) ∧
      ∃ runs, specs.mapM (RuleSpec.start settings) = .ok runs ∧
        runs.map RuleRun.rule = specs.map (·.build settings) := by
  have hreflects := reflects_after history
  have hunknown : ∀ {key : String} {fault : ConfigFault},
      fault? ((after history).resolve key) = some fault ↔ ¬ RuleSpec.IsKnown history key ∧
        fault = .unknownRule key (history.map RuleSpec.id).eraseDups := by
    intro key fault
    rw [fault?_resolve_eq_some_iff, knows_after_iff, hreflects.ids]
  have hfirst : ∀ fault, (after history).enabled settings only = .error fault →
      ∃ known key rest, settings.rules.map Prod.fst ++ only = known ++ key :: rest ∧
        (∀ k ∈ known, RuleSpec.IsKnown history k) ∧ ¬ RuleSpec.IsKnown history key ∧
        fault = .unknownRule key (history.map RuleSpec.id).eraseDups := by
    intro fault h
    have hfault := fault?_enabled (after history) settings only
    rw [h, fault?_error, eq_comm, List.findSome?_eq_some_iff] at hfault
    obtain ⟨known, key, rest, hsplit, hkey, hknown⟩ := hfault
    refine ⟨known, key, rest, hsplit, fun k hk => ?_, hunknown.mp hkey⟩
    -- an unknown key before the first fault would be a fault itself
    by_contra hk'
    have hk'' := hunknown.mpr ⟨hk', rfl⟩
    rw [hknown k hk] at hk''
    cases hk''
  have hlevel (spec : RuleSpec) : (∃ level, spec.HasLevel settings level ∧ level ≠ .off) ↔
      settings.levelFor spec.id spec.name ≠ .off := by
    simp only [RuleSpec.hasLevel_iff, exists_eq_left']
  refine ⟨⟨?_, ?_⟩, hfirst, fun specs h => ⟨pairwise_enabled hreflects.nodup_ids h,
    fun spec => by rw [hlevel, mem_enabled_after_iff h],
    fun rules only' hkeys hrules honly => enabled_after_of_perm h hkeys hrules honly, ?_⟩⟩
  · rintro ⟨fault, h⟩
    obtain ⟨known, key, rest, hsplit, -, hkey, -⟩ := hfirst fault h
    exact ⟨key, by simp [hsplit], hkey⟩
  · rintro ⟨key, hkey, hnot⟩
    cases h : (after history).enabled settings only with
    | error fault => exact ⟨fault, rfl⟩
    | ok specs =>
        obtain ⟨hknown, hknown'⟩ := exists_enabled_iff.mp ⟨specs, h⟩
        rcases List.mem_append.mp hkey with hkey | hkey
        · exact absurd (knows_after_iff.mp (hknown key hkey)) hnot
        · exact absurd (knows_after_iff.mp (hknown' key hkey)) hnot
  · obtain ⟨runs, hruns, -⟩ := exists_start fun spec hspec =>
      ((mem_enabled_after_iff h).mp hspec).2.1
    exact ⟨runs, hruns, (RuleSpec.of_mapM_start default hruns).1⟩

/-- Two rules, of which the first is registered again under the name of the second. -/
def renamedRule : List RuleSpec :=
  [⟨"B", "old", fun _ => ClearBeforeType.rule⟩, ⟨"A", "new", fun s => HookPairing.rule s.hookPairs⟩,
    ⟨"B", "new", fun s => PageSingleton.rule s.pageSuffix s.requiredFieldName⟩]

/-- The old name is not known any more. The new name means the rule whose id came first, which runs
although the name is switched off, since its id is not. -/
theorem enabled_renamedRule :
    (∃ fault, (after renamedRule).enabled {} ["new", "old", "older"] = .error fault ∧
      fault.message = "Unknown rule 'old'. Available: B, A") ∧
    ∃ specs, (after renamedRule).enabled { rules := [("new", .off), ("B", .warn)] } ["new"] =
        .ok specs ∧
      specs.map RuleSpec.id = ["B"] ∧ specs.Pairwise (fun a b => a.id < b.id) ∧
      (after renamedRule).enabled { rules := [("B", .warn), ("new", .off)] } ["new", "new"] =
        .ok specs ∧
      ∃ runs, specs.mapM (RuleSpec.start { rules := [("new", .off), ("B", .warn)] }) =
        .ok runs := by
  have hunknown : fault? ((after renamedRule).enabled {} ["new", "old", "older"]) =
      some (.unknownRule "old" ["B", "A"]) := by cbv
  have hsorted : (after renamedRule).sorted =
      [⟨"A", "new", fun s => HookPairing.rule s.hookPairs⟩,
       ⟨"B", "new", fun s => PageSingleton.rule s.pageSuffix s.requiredFieldName⟩] := by
    simp [sorted, after, register, renamedRule, List.mergeSort, List.MergeSort.Internal.splitInTwo]
  have hids : ((after renamedRule).enabled { rules := [("new", .off), ("B", .warn)] } ["new"]).map
      (List.map RuleSpec.id) = .ok ["B"] := by
    rw [enabled, hsorted]
    rfl
  obtain ⟨specs, hspecs, hids⟩ := map_eq_ok.mp hids
  obtain ⟨hsorted, -, hperm, runs, hruns, -⟩ := (enabled_after renamedRule _ _).2.2 specs hspecs
  refine ⟨?_, specs, hspecs, hids, hsorted,
    hperm _ _ (by decide) (List.Perm.swap _ _ []) (by simp), runs, hruns⟩
  cases h : (after renamedRule).enabled {} ["new", "old", "older"] with
  | ok specs =>
      rw [h] at hunknown
      cases hunknown
  | error fault =>
      rw [h] at hunknown
      obtain rfl := Option.some.inj hunknown
      exact ⟨_, rfl, by decide⟩

end Registry

end TreeLint
