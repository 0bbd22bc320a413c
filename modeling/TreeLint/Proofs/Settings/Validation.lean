import TreeLint.Proofs.Settings.Fields

/-!
# Validation of Settings

Settings are read from a JSON value **exactly if** the value is an object each of whose entries
tells something acceptable of a field; the settings then have what the entries tell, and the
defaults where there is no entry (`IsGivenBy`). Otherwise the message lists what is refused: the
fields with an unacceptable value, in their order, and then the keys that are no fields, as they are
written.

An entry without a key is the exception: the message calls it `config`, the word for a problem
with the whole, and so does not tell it from an entry that has this key.

## Main results

* `ofEntries_eq_ok_iff`, `problems_of_ofEntries`: the outcomes of the fields together.
* `ofData_ofJson`: what is accepted, what it gives, and what is refused.
* `not_lists_emptyKey`: an empty key is not named.
-/

namespace TreeLint

namespace Settings

variable {α : Type}

/-! ### Fields among entries -/

/-- Settings that **entries give**: what each entry tells, and the defaults for the rest. -/
structure IsGivenBy (settings : Settings) (members : List (String × Json)) : Prop where
  tells : ∀ m ∈ members, Tells settings m.1 m.2
  hookPairs : "hook_pairs" ∉ members.map Prod.fst → settings.hookPairs = [⟨"before", "after"⟩]
  pageSuffix : "page_suffix" ∉ members.map Prod.fst → settings.pageSuffix = "Page"
  requiredFieldName :
    "required_field_name" ∉ members.map Prod.fst → settings.requiredFieldName = "INSTANCE"
  rules : "rules" ∉ members.map Prod.fst → settings.rules = []

/-- A key has the value **that is written** for it. -/
theorem get?_ofMembers (key : String) (members : List (String × Json)) :
    Data.get? key (Data.ofMembers members) = (lookup? key members).map Data.ofJson := by
  induction members with
  | nil => rfl
  | cons m members ih =>
      rw [Data.ofMembers, Data.get?, lookup?]
      split
      · rfl
      · exact ih

section Fields

variable {name : String} {field : Settings → α} {read : Data → Checked α}
  {members : List (String × Json)}

/-- A field is read as in some settings exactly if every entry for it **tells so**, or there is none
and it has its default. -/
theorem ReadsField.fieldOr_eq_ok_iff (h : ReadsField name field read)
    (hunique : (Value.obj () members).hasUniqueKeys) {default : α} {settings : Settings} :
    fieldOr (Data.ofMembers members) name default read = .ok (field settings) ↔
      (∀ v, (name, v) ∈ members → Tells settings name v) ∧
        (name ∉ members.map Prod.fst → field settings = default) := by
  obtain ⟨hnodup, hmembers⟩ := Bool.and_eq_true_iff.mp hunique
  rw [fieldOr, get?_ofMembers]
  cases hlookup : lookup? name members with
  | none =>
      have hnot (v : Json) : (name, v) ∉ members := by
        rw [← lookup?_eq_some_iff (of_decide_eq_true hnodup), hlookup]
        exact nofun
      have hkey : name ∉ members.map Prod.fst := by
        rintro hkey
        obtain ⟨⟨_, v⟩, hv, rfl⟩ := List.mem_map.mp hkey
        exact hnot v hv
      simp only [Option.map_none, Except.ok.injEq]
      exact ⟨fun hdefault => ⟨fun v hv => absurd hv (hnot v), fun _ => hdefault.symm⟩,
        fun hall => (hall.2 hkey).symm⟩
  | some v =>
      have hv := mem_of_lookup? hlookup
      have huniquev := Value.hasUniqueKeys_of_mem_members hmembers hv
      simp only [Option.map_some, h.eq_ok_iff v huniquev]
      refine ⟨fun htells => ⟨fun w hw => ?_, fun hkey => ?_⟩, fun hall => hall.1 v hv⟩
      · rw [← lookup?_eq_some_iff (of_decide_eq_true hnodup), hlookup] at hw
        exact Option.some.inj hw ▸ htells
      · exact absurd (List.mem_map_of_mem hv) hkey

/-- A field has **a meaning** if what stands in it tells something. -/
theorem ReadsField.exists_fieldOr_iff (h : ReadsField name field read)
    (hunique : (Value.obj () members).hasUniqueKeys) (default : α) :
    (∃ a, fieldOr (Data.ofMembers members) name default read = .ok a) ↔
      ∀ v, (name, v) ∈ members → ∃ settings, Tells settings name v := by
  obtain ⟨hnodup, hmembers⟩ := Bool.and_eq_true_iff.mp hunique
  constructor
  · rintro ⟨a, ha⟩ v hv
    obtain ⟨settings, rfl⟩ := h.onto a
    exact ⟨settings, ((h.fieldOr_eq_ok_iff hunique).mp ha).1 v hv⟩
  · intro hall
    rw [fieldOr, get?_ofMembers]
    cases hlookup : lookup? name members with
    | none => exact ⟨default, rfl⟩
    | some v =>
        have hv := mem_of_lookup? hlookup
        obtain ⟨settings, htells⟩ := hall v hv
        exact ⟨field settings, (h.eq_ok_iff v
          (Value.hasUniqueKeys_of_mem_members hmembers hv) settings).mpr htells⟩

end Fields

/-! ### All entries together -/

section Entries

variable {entries : List (Data × Data)}

/-- Settings are read exactly if **each field** is, and no entry is left. -/
theorem ofEntries_eq_ok_iff {settings : Settings} :
    ofEntries entries = .ok settings ↔
      fieldOr entries "hook_pairs" [⟨"before", "after"⟩] hookPairsOf = .ok settings.hookPairs ∧
      fieldOr entries "page_suffix" "Page" pageSuffixOf = .ok settings.pageSuffix ∧
      fieldOr entries "required_field_name" "INSTANCE" requiredFieldNameOf =
        .ok settings.requiredFieldName ∧
      fieldOr entries "rules" [] rulesOf = .ok settings.rules ∧
      strayProblems entries = [] := by
  unfold ofEntries
  dsimp only
  constructor
  · intro h
    split at h
    · next hpairs hsuffix hfield hrules hstray =>
      obtain rfl := Except.ok.inj h
      exact ⟨hpairs, hsuffix, hfield, hrules, hstray⟩
    · cases h
  · rintro ⟨hpairs, hsuffix, hfield, hrules, hstray⟩
    rw [hpairs, hsuffix, hfield, hrules, hstray]

/-- The problems of entries are those of **the four fields**, in order, and of the stray entries. -/
theorem problems_of_ofEntries {ps : List Problem} (h : ofEntries entries = .error ps) :
    ps = (fieldOr entries "hook_pairs" [⟨"before", "after"⟩] hookPairsOf).problems ++
      (fieldOr entries "page_suffix" "Page" pageSuffixOf).problems ++
      (fieldOr entries "required_field_name" "INSTANCE" requiredFieldNameOf).problems ++
      (fieldOr entries "rules" [] rulesOf).problems ++ strayProblems entries := by
  unfold ofEntries at h
  dsimp only at h
  split at h
  · cases h
  · exact (Except.error.inj h).symm

end Entries

/-- The keys of entries that belong to **no field**, as they are written. -/
def unknownKeys (members : List (String × Json)) : List String :=
  (members.map Prod.fst).filter (· ∉ fieldNames)

/-- Every key that belongs to no field is **a problem**, in the order of the keys. -/
theorem strayProblems_ofMembers (members : List (String × Json)) :
    strayProblems (Data.ofMembers members) =
      (unknownKeys members).map fun key => ⟨[key], "Extra inputs are not permitted"⟩ := by
  induction members with
  | nil => rfl
  | cons m members ih =>
      rw [Data.ofMembers, strayProblems, List.filterMap_cons, unknownKeys, List.map_cons]
      by_cases hkey : m.1 ∈ fieldNames
      · rw [List.filter_cons_of_neg (by simpa using hkey)]
        simp only [List.contains_iff_mem.mpr hkey, if_true]
        exact ih
      · rw [List.filter_cons_of_pos (by simpa using hkey), List.map_cons]
        have hcontains : fieldNames.contains m.1 = false := by simpa using hkey
        simp only [hcontains, Bool.false_eq_true, if_false]
        exact congrArg _ ih

/-- There are no stray entries exactly if every key is **the name of a field**. -/
theorem strayProblems_eq_nil_iff {members : List (String × Json)} :
    strayProblems (Data.ofMembers members) = [] ↔ ∀ m ∈ members, m.1 ∈ fieldNames := by
  rw [strayProblems_ofMembers, List.map_eq_nil_iff, unknownKeys, List.filter_eq_nil_iff]
  simp

section Members

variable {members : List (String × Json)}

/-- What holds of each field in turn holds of every entry that **has a field's name**. -/
theorem forall_mem_iff {P : String → Json → Prop} :
    (∀ m ∈ members, m.1 ∈ fieldNames ∧ P m.1 m.2) ↔
      (∀ v, ("hook_pairs", v) ∈ members → P "hook_pairs" v) ∧
      (∀ v, ("page_suffix", v) ∈ members → P "page_suffix" v) ∧
      (∀ v, ("required_field_name", v) ∈ members → P "required_field_name" v) ∧
      (∀ v, ("rules", v) ∈ members → P "rules" v) ∧ ∀ m ∈ members, m.1 ∈ fieldNames := by
  constructor
  · intro h
    exact ⟨fun v hv => (h _ hv).2, fun v hv => (h _ hv).2, fun v hv => (h _ hv).2,
      fun v hv => (h _ hv).2, fun m hm => (h m hm).1⟩
  · rintro ⟨hpairs, hsuffix, hfield, hrules, hnames⟩ ⟨key, v⟩ hm
    refine ⟨hnames _ hm, ?_⟩
    have hkey : key ∈ fieldNames := hnames _ hm
    simp only [fieldNames, List.mem_cons, List.not_mem_nil, or_false] at hkey
    rcases hkey with rfl | rfl | rfl | rfl
    · exact hpairs v hm
    · exact hsuffix v hm
    · exact hfield v hm
    · exact hrules v hm

/-- What tells something of settings does so under **the name of a field**. -/
theorem tells_iff_mem_fieldNames {settings : Settings} :
    (∀ m ∈ members, Tells settings m.1 m.2) ↔
      ∀ m ∈ members, m.1 ∈ fieldNames ∧ Tells settings m.1 m.2 :=
  forall₂_congr fun _ _ => ⟨fun h => ⟨mem_fieldNames_of_tells h, h⟩, And.right⟩

/-- Entries are read as the settings that they **give**. -/
theorem ofEntries_ofMembers_eq_ok_iff (hunique : (Value.obj () members).hasUniqueKeys)
    {settings : Settings} :
    ofEntries (Data.ofMembers members) = .ok settings ↔ IsGivenBy settings members := by
  rw [ofEntries_eq_ok_iff, readsField_hookPairs.fieldOr_eq_ok_iff hunique,
    readsField_pageSuffix.fieldOr_eq_ok_iff hunique,
    readsField_requiredFieldName.fieldOr_eq_ok_iff hunique,
    readsField_rules.fieldOr_eq_ok_iff hunique, strayProblems_eq_nil_iff]
  constructor
  · rintro ⟨⟨hpairs, hpairs'⟩, ⟨hsuffix, hsuffix'⟩, ⟨hfield, hfield'⟩, ⟨hrules, hrules'⟩, hnames⟩
    exact ⟨tells_iff_mem_fieldNames.mpr
      (forall_mem_iff.mpr ⟨hpairs, hsuffix, hfield, hrules, hnames⟩), hpairs', hsuffix', hfield',
      hrules'⟩
  · rintro ⟨htells, hpairs', hsuffix', hfield', hrules'⟩
    obtain ⟨hpairs, hsuffix, hfield, hrules, hnames⟩ :=
      forall_mem_iff.mp (tells_iff_mem_fieldNames.mp htells)
    exact ⟨⟨hpairs, hpairs'⟩, ⟨hsuffix, hsuffix'⟩, ⟨hfield, hfield'⟩, ⟨hrules, hrules'⟩, hnames⟩

/-- Entries give settings if **each of them** tells something. -/
theorem exists_ofEntries_iff (hunique : (Value.obj () members).hasUniqueKeys) :
    (∃ settings, ofEntries (Data.ofMembers members) = .ok settings) ↔
      ∀ m ∈ members, ∃ settings, Tells settings m.1 m.2 := by
  have hnames : (∀ m ∈ members, ∃ settings, Tells settings m.1 m.2) ↔
      ∀ m ∈ members, m.1 ∈ fieldNames ∧ ∃ settings, Tells settings m.1 m.2 :=
    forall₂_congr fun _ _ => ⟨fun ⟨s, h⟩ => ⟨mem_fieldNames_of_tells h, s, h⟩, And.right⟩
  rw [hnames, forall_mem_iff (P := fun key v => ∃ settings, Tells settings key v),
    ← readsField_hookPairs.exists_fieldOr_iff hunique [⟨"before", "after"⟩],
    ← readsField_pageSuffix.exists_fieldOr_iff hunique "Page",
    ← readsField_requiredFieldName.exists_fieldOr_iff hunique "INSTANCE",
    ← readsField_rules.exists_fieldOr_iff hunique [], ← strayProblems_eq_nil_iff]
  simp only [ofEntries_eq_ok_iff]
  constructor
  · rintro ⟨settings, hpairs, hsuffix, hfield, hrules, hstray⟩
    exact ⟨⟨_, hpairs⟩, ⟨_, hsuffix⟩, ⟨_, hfield⟩, ⟨_, hrules⟩, hstray⟩
  · rintro ⟨⟨pairs, hpairs⟩, ⟨suffix, hsuffix⟩, ⟨field, hfield⟩, ⟨rules, hrules⟩, hstray⟩
    exact ⟨⟨pairs, suffix, field, rules⟩, hpairs, hsuffix, hfield, hrules, hstray⟩

end Members

/-! ### What is refused -/

/-- A text that **names** a key: it starts with the key, and a dot or a colon follows. -/
def Names (key text : String) : Prop :=
  ∃ rest, text = key ++ "." ++ rest ∨ text = key ++ ": " ++ rest

/-- Texts that **list** keys, one key after the other: some texts for each key, which all name
it. -/
def Lists (keys texts : List String) : Prop :=
  ∃ blocks : List (List String), texts = blocks.flatten ∧
    List.Forall₂ (fun key block => block ≠ [] ∧ ∀ text ∈ block, Names key text) keys blocks

/-- No texts list **no keys**. -/
theorem lists_nil : Lists [] [] := ⟨[], rfl, .nil⟩

/-- Lists of texts are joined **with their keys**. -/
theorem Lists.append {keys keys' texts texts' : List String} (h : Lists keys texts)
    (h' : Lists keys' texts') : Lists (keys ++ keys') (texts ++ texts') := by
  obtain ⟨blocks, rfl, hblocks⟩ := h
  obtain ⟨blocks', rfl, hblocks'⟩ := h'
  exact ⟨blocks ++ blocks', List.flatten_append.symm, List.rel_append hblocks hblocks'⟩

/-- Some texts that name one key **list it**. -/
theorem lists_singleton {key : String} {texts : List String} (hne : texts ≠ [])
    (h : ∀ text ∈ texts, Names key text) : Lists [key] texts :=
  ⟨[texts], (List.append_nil texts).symm, .cons ⟨hne, h⟩ .nil⟩

/-- The word for a key in a message: the key itself, and `config` if it is empty. -/
def shownKey (key : String) : String := if key = "" then "config" else key

/-- The text of a problem **names** the field that the problem is in. -/
theorem names_message {p : Problem} {name : String} (hname : name ≠ "")
    (hp : p.path.head? = some name) : Names name p.message := by
  obtain ⟨path, reason⟩ := p
  cases path with
  | nil => cases hp
  | cons key rest =>
      obtain rfl : key = name := Option.some.inj hp
      cases rest with
      | nil =>
          refine ⟨reason, .inr ?_⟩
          simp [Problem.message, String.intercalate_singleton, hname, toString]
      | cons next rest =>
          refine ⟨".".intercalate (next :: rest) ++ ": " ++ reason, .inl ?_⟩
          simp [Problem.message, String.intercalate_cons_cons, String.append_assoc, toString]

/-- The message on an unknown key **names it**. -/
theorem names_message_unknown (key : String) :
    Names (shownKey key) (Problem.message ⟨[key], "Extra inputs are not permitted"⟩) := by
  refine ⟨"Extra inputs are not permitted", .inr ?_⟩
  simp [Problem.message, String.intercalate_singleton, shownKey, toString]

section Members

variable {members : List (String × Json)}

/-- The messages on unknown keys **list them**. -/
theorem lists_unknownKeys (members : List (String × Json)) :
    Lists ((unknownKeys members).map shownKey)
      ((strayProblems (Data.ofMembers members)).map Problem.message) := by
  rw [strayProblems_ofMembers]
  generalize unknownKeys members = keys
  induction keys with
  | nil => exact lists_nil
  | cons key keys ih =>
      exact (lists_singleton (List.cons_ne_nil _ _)
        (List.forall_mem_singleton.mpr (names_message_unknown key))).append ih

/-- The key of an entry whose value **tells nothing**. -/
def IsRefused (members : List (String × Json)) (key : String) : Prop :=
  ∃ v, (key, v) ∈ members ∧ ∀ settings, ¬Tells settings key v

/-- A field is **listed** if what stands in it is refused, and only then. -/
theorem ReadsField.exists_lists {name : String} {field : Settings → α} {read : Data → Checked α}
    (h : ReadsField name field read) (hname : name ≠ "")
    (hunique : (Value.obj () members).hasUniqueKeys) (default : α) :
    ∃ refused, refused.Sublist [name] ∧
      (∀ key, key ∈ refused ↔ key = name ∧ IsRefused members key) ∧
      Lists refused
        ((fieldOr (Data.ofMembers members) name default read).problems.map Problem.message) := by
  have hiff := h.exists_fieldOr_iff hunique default
  cases hfield : fieldOr (Data.ofMembers members) name default read with
  | ok a =>
      have hall := hiff.mp ⟨a, hfield⟩
      refine ⟨[], List.nil_sublist _, fun key => ⟨nofun, ?_⟩, lists_nil⟩
      rintro ⟨rfl, v, hv, hrefused⟩
      obtain ⟨settings, htells⟩ := hall v hv
      exact absurd htells (hrefused settings)
  | error ps =>
      have hrefused : IsRefused members name := by
        by_contra hnot
        obtain ⟨a, ha⟩ := hiff.mpr fun v hv => by
          by_contra hnone
          exact hnot ⟨v, hv, not_exists.mp hnone⟩
        rw [hfield] at ha
        cases ha
      have habout : Checked.IsAbout name (fieldOr (Data.ofMembers members) name default read) := by
        rw [fieldOr]
        split
        · exact h.isAbout _
        · exact Checked.isAbout_ok default
      obtain ⟨hne, hps⟩ := habout ps hfield
      refine ⟨[name], .refl _, fun key => ?_, lists_singleton (by simpa [Checked.problems]) ?_⟩
      · rw [List.mem_singleton]
        exact ⟨fun hkey => ⟨hkey, hkey ▸ hrefused⟩, And.left⟩
      · intro text htext
        obtain ⟨p, hp, rfl⟩ := List.mem_map.mp htext
        exact names_message hname (hps p hp)

/-- Entries that give no settings are refused **with a list** of the fields whose values tell
nothing and of the keys that are no fields. -/
theorem exists_lists_of_ofEntries (hunique : (Value.obj () members).hasUniqueKeys)
    {ps : List Problem} (h : ofEntries (Data.ofMembers members) = .error ps) :
    ∃ refused, refused.Sublist fieldNames ∧
      (∀ key, key ∈ refused ↔ key ∈ fieldNames ∧ IsRefused members key) ∧
      Lists (refused ++ (unknownKeys members).map shownKey) (ps.map Problem.message) := by
  obtain ⟨pairs, hpairs, hpairs', hpairsText⟩ :=
    readsField_hookPairs.exists_lists (by decide) hunique [⟨"before", "after"⟩]
  obtain ⟨suffix, hsuffix, hsuffix', hsuffixText⟩ :=
    readsField_pageSuffix.exists_lists (by decide) hunique "Page"
  obtain ⟨field, hfield, hfield', hfieldText⟩ :=
    readsField_requiredFieldName.exists_lists (by decide) hunique "INSTANCE"
  obtain ⟨rules, hrules, hrules', hrulesText⟩ :=
    readsField_rules.exists_lists (by decide) hunique []
  refine ⟨pairs ++ suffix ++ field ++ rules,
    ((hpairs.append hsuffix).append hfield).append hrules, fun key => ?_, ?_⟩
  · simp only [List.mem_append, hpairs', hsuffix', hfield', hrules', fieldNames, List.mem_cons,
      List.not_mem_nil, or_false, ← or_and_right, or_assoc]
  · rw [problems_of_ofEntries h]
    simp only [List.map_append]
    exact (((hpairsText.append hsuffixText).append hfieldText).append hrulesText).append
      (lists_unknownKeys members)

end Members

/-! ### Settings from JSON -/

/-- A JSON value gives settings **exactly if** it is an object each of whose entries tells
something of settings, and the settings are then what the entries give. An object that gives none
is refused with a message that lists, each by its name, the fields whose values tell nothing, in
the order of the fields, and then the keys that are no fields, in the order in which they are
written; only an empty key goes by the name of `config`. -/
theorem ofData_ofJson (v : Json) (hunique : v.hasUniqueKeys) :
    (∀ settings, ofData (.ofJson v) = .ok settings ↔
      ∃ members, v = .obj () members ∧ IsGivenBy settings members) ∧
    ((∃ settings, ofData (.ofJson v) = .ok settings) ↔
      ∃ members, v = .obj () members ∧ ∀ m ∈ members, ∃ settings, Tells settings m.1 m.2) ∧
    ∀ members fault, v = .obj () members → ofData (.ofJson v) = .error fault →
      ∃ refused texts, refused.Sublist fieldNames ∧
        (∀ key, key ∈ refused ↔ key ∈ fieldNames ∧ IsRefused members key) ∧
        Lists (refused ++ (unknownKeys members).map shownKey) texts ∧
        fault.message = "Invalid configuration: " ++ "; ".intercalate texts := by
  cases v with
  | obj label members =>
      have hdata : ofData (.ofJson (.obj label members)) =
        (ofEntries (Data.ofMembers members)).mapError .invalid := rfl
      simp only [hdata, mapError_eq_ok, Value.obj.injEq, true_and, exists_eq_left']
      refine ⟨fun settings => ofEntries_ofMembers_eq_ok_iff hunique,
        exists_ofEntries_iff hunique, ?_⟩
      rintro _ fault rfl hfault
      cases hentries : ofEntries (Data.ofMembers members) with
      | ok settings =>
          rw [hentries] at hfault
          cases hfault
      | error ps =>
          rw [hentries] at hfault
          obtain rfl : ConfigFault.invalid ps = fault := Except.error.inj hfault
          obtain ⟨refused, hsublist, hmem, hlists⟩ := exists_lists_of_ofEntries hunique hentries
          exact ⟨refused, _, hsublist, hmem, hlists, rfl⟩
  | _ => simp [ofData, Data.ofJson]

/-- Two fields that are refused, one that is not, a key that is no field, and an empty key. -/
def mixedFaults : Json :=
  .obj () [("colour", .null), ("rules", .obj () [("a", .str "loud")]), ("page_suffix", .str "View"),
    ("", .int 1), ("hook_pairs", .arr [.arr [.str "open", .str "open"]])]

/-- Two fields are refused and one is not, and **both unknown keys** are listed after them. -/
theorem ofData_mixedFaults :
    mixedFaults.hasUniqueKeys = true ∧ (∀ settings, ofData (.ofJson mixedFaults) ≠ .ok settings) ∧
      ∀ fault, ofData (.ofJson mixedFaults) = .error fault →
        ∃ refused texts, refused.Sublist fieldNames ∧ "hook_pairs" ∈ refused ∧
          "page_suffix" ∉ refused ∧ Lists (refused ++ ["colour", "config"]) texts ∧
          fault.message = "Invalid configuration: " ++ "; ".intercalate texts := by
  have hunique : mixedFaults.hasUniqueKeys = true := by decide
  obtain ⟨-, hexists, hrefused⟩ := ofData_ofJson mixedFaults hunique
  refine ⟨hunique, fun settings hsettings => ?_, fun fault hfault => ?_⟩
  · obtain ⟨members, hmembers, hall⟩ := hexists.mp ⟨settings, hsettings⟩
    obtain ⟨-, rfl⟩ := Value.obj.inj hmembers
    obtain ⟨settings, htells⟩ := hall ("colour", .null) (by simp)
    exact absurd (mem_fieldNames_of_tells htells) (by decide)
  · obtain ⟨refused, texts, hsublist, hmem, hlists, hmessage⟩ := hrefused _ fault rfl hfault
    refine ⟨refused, texts, hsublist, ?_, fun hsuffix => ?_, hlists, hmessage⟩
    · refine (hmem "hook_pairs").mpr ⟨by simp [fieldNames], .arr [.arr [.str "open", .str "open"]],
        by simp, fun settings htells => ?_⟩
      obtain ⟨hpairs, hvalid⟩ := tells_hookPairs_iff.mp htells
      obtain ⟨p, hp, hnames⟩ := List.mem_map.mp (Value.arr.inj hpairs ▸ List.mem_singleton_self _)
      obtain ⟨hsetup, hteardown⟩ : p.setup = "open" ∧ p.teardown = "open" := by simpa using hnames
      exact (hvalid p hp).differ (hsetup.trans hteardown.symm)
    · obtain ⟨-, v, hv, hnone⟩ := (hmem "page_suffix").mp hsuffix
      obtain rfl : v = .str "View" := by simpa using hv
      exact hnone { pageSuffix := "View" } (.pageSuffix (by decide))

/-- An **empty key is not named**: the message calls it `config`, and a key can have that name. -/
theorem not_lists_emptyKey :
    ∃ fault, ofData (.ofJson (.obj () [("", .int 1)])) = .error fault ∧
      fault.message = "Invalid configuration: config: Extra inputs are not permitted" ∧
      ¬∃ refused texts, (∀ key, key ∈ refused ↔ key ∈ fieldNames ∧ IsRefused [("", .int 1)] key) ∧
        Lists (refused ++ unknownKeys [("", .int 1)]) texts ∧
        fault.message = "Invalid configuration: " ++ "; ".intercalate texts := by
  have hmessage : (ConfigFault.invalid [⟨[""], "Extra inputs are not permitted"⟩]).message =
      "Invalid configuration: config: Extra inputs are not permitted" := by decide
  refine ⟨.invalid [⟨[""], "Extra inputs are not permitted"⟩], rfl, hmessage, ?_⟩
  rintro ⟨refused, texts, hmem, ⟨blocks, rfl, hblocks⟩, htexts⟩
  obtain rfl : refused = [] := by
    refine List.eq_nil_iff_forall_not_mem.mpr fun key hkey => ?_
    obtain ⟨hname, v, hv, -⟩ := (hmem key).mp hkey
    obtain ⟨rfl, rfl⟩ : key = "" ∧ v = .int 1 := by simpa using hv
    exact absurd hname (by decide)
  have hunknown : unknownKeys [("", .int 1)] = [""] := by decide
  rw [List.nil_append, hunknown] at hblocks
  obtain ⟨block, hblock, rfl⟩ : ∃ block, (block ≠ [] ∧ ∀ text ∈ block, Names "" text) ∧
      blocks = [block] := by
    cases hblocks with
    | cons hblock hrest =>
        cases hrest
        exact ⟨_, hblock, rfl⟩
  obtain ⟨text, more, rfl⟩ := List.exists_cons_of_ne_nil hblock.1
  obtain ⟨after, hafter⟩ : ∃ after, "; ".intercalate (text :: more) = text ++ after := by
    cases more with
    | nil => exact ⟨"", by simp⟩
    | cons next more => exact ⟨_, by rw [String.intercalate_cons_cons, String.append_assoc]⟩
  have hsplit : "Invalid configuration: config: Extra inputs are not permitted" =
      "Invalid configuration: " ++ "config: Extra inputs are not permitted" := by decide
  rw [List.flatten_singleton, hmessage, hsplit, hafter, String.append_right_inj] at htexts
  have hhead := congrArg (fun s => s.toList.head?) htexts
  obtain ⟨rest, rfl | rfl⟩ := hblock.2 text List.mem_cons_self
  · simp at hhead
  · simp at hhead

end Settings

end TreeLint
