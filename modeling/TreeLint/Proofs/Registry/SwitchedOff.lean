import TreeLint.Proofs.Registry.Enabled

/-!
# Switching Off and Selecting by One Key

A key of the settings and a key of the selection are looked up in opposite directions. The settings
ask of each rule whether its id or else its name has a level, so that one key switches off **every
rule that it names**. The selection asks which rule a key means, and that is **one rule**: the one
with this id, or else the first with this name. What is switched off by a key and what is selected
by it are the same rules exactly if no other rule has the key for its name.

## Main results

* `Registry.enabled_off`: the rules that are left when a key is switched off.
* `Registry.enabled_only`: the rule that a key selects.
* `Registry.removed_iff_selected`: when these two complement each other.
-/

namespace TreeLint

/-- A single level for a key holds for **every rule that the key names**. -/
theorem Settings.levelFor_off_iff (key id name : String) :
    Settings.levelFor { rules := [(key, .off)] } id name = .off ↔ id = key ∨ name = key := by
  rw [levelFor, List.lookup_cons, List.lookup_cons]
  by_cases hid : id = key
  · simp [hid]
  · have hid' : (id == key) = false := beq_eq_false_iff_ne.mpr hid
    by_cases hname : name = key
    · simp [hid', hname]
    · have hname' : (name == key) = false := beq_eq_false_iff_ne.mpr hname
      simp [hid, hname, hid', hname']

namespace Registry

variable {registry : Registry} {key : String} {spec : RuleSpec} {history : List RuleSpec}

/-- When a key is switched off, the rules that it **does not name** are left. -/
theorem enabled_off (h : registry.resolve key = .ok spec) :
    registry.enabled { rules := [(key, .off)] } [] =
      .ok (registry.sorted.filter fun s => !(s.id == key || s.name == key)) := by
  have hlevel (s : RuleSpec) :
      (Settings.levelFor { rules := [(key, .off)] } s.id s.name != .off) =
        !(s.id == key || s.name == key) := by
    rw [Bool.eq_iff_iff]
    simp [Settings.levelFor_off_iff]
  simp only [enabled, List.mapM_cons, List.mapM_nil, h, List.isEmpty_nil, Bool.true_or,
    List.filter_true, hlevel]
  rfl

/-- A key selects **the rule that it means**. -/
theorem enabled_only (h : (after history).resolve key = .ok spec) :
    (after history).enabled {} [key] = .ok [spec] := by
  have hknown : (after history).Knows key := exists_resolve_iff.mp ⟨spec, h⟩
  obtain ⟨selected, hselected⟩ : ∃ selected, (after history).enabled {} [key] = .ok selected :=
    exists_enabled_iff.mpr ⟨by simp, List.forall_mem_singleton.mpr hknown⟩
  have hmeant := resolve_after_iff.mp h
  have hordered := pairwise_enabled (reflects_after history).nodup_ids hselected
  rw [hselected]
  refine congrArg _ (eq_of_mem_iff hordered (List.pairwise_singleton _ _) ?_)
  intro other
  rw [mem_enabled_after_iff hselected, List.mem_singleton]
  constructor
  · rintro ⟨-, -, honly⟩
    obtain ⟨k, hk, hother⟩ := honly (by simp)
    obtain rfl := List.mem_singleton.mp hk
    exact eq_of_isMeantBy hother hmeant
  · rintro rfl
    exact ⟨hmeant.1, by simp [Settings.levelFor], fun _ => ⟨key, by simp, hmeant⟩⟩

/-- **Switching off and selecting by one key**, whatever rules have been registered. The key selects
the one rule that it means. Switched off, it removes all rules that it names by their id or their
name, among them this one. So it removes what it selects exactly if no other rule has the key for
its name. -/
theorem removed_iff_selected (h : (after history).resolve key = .ok spec) :
    ∃ all kept, (after history).enabled {} [] = .ok all ∧
      (after history).enabled { rules := [(key, .off)] } [] = .ok kept ∧
      (after history).enabled {} [key] = .ok [spec] ∧
      (∀ other, other ∈ all ∧ other ∉ kept ↔ other.IsLatest history ∧ other.IsNamed key) ∧
      (spec ∈ all ∧ spec ∉ kept) ∧
      ((∀ other, other ∈ all ∧ other ∉ kept ↔ other ∈ [spec]) ↔
        ∀ other : RuleSpec, other.IsLatest history → other.name = key → other = spec) := by
  have hreflects := reflects_after history
  have hremoved (other : RuleSpec) : (other ∈ (after history).sorted ∧ other ∉
      (after history).sorted.filter fun s => !(s.id == key || s.name == key)) ↔
        other.IsLatest history ∧ other.IsNamed key := by
    rw [List.mem_filter, sorted, List.mem_mergeSort, hreflects.mem]
    by_cases hother : other.IsLatest history
    · simp [hother, RuleSpec.IsNamed, or_iff_not_imp_left]
    · simp [hother]
  obtain ⟨hspec, hnamed⟩ := mem_of_resolve h
  refine ⟨_, _, enabled_default _, enabled_off h, enabled_only h, hremoved,
    (hremoved spec).mpr ⟨(hreflects.mem spec).mp hspec, hnamed⟩, ?_⟩
  simp only [hremoved, List.mem_singleton]
  constructor
  · intro hsame other hother hname
    exact (hsame other).mp ⟨hother, .inr hname⟩
  · intro hunique other
    constructor
    · rintro ⟨hother, hid | hname⟩
      · exact eq_of_isMeantBy ⟨hother, .inl hid⟩ (resolve_after_iff.mp h)
      · exact hunique other hother hname
    · rintro rfl
      exact ⟨(hreflects.mem other).mp hspec, hnamed⟩

/-- Three rules, of which the second has the id of the first for its name, and the third a name of
its own. -/
def borrowedName : List RuleSpec :=
  [⟨"A", "first", fun _ => ClearBeforeType.rule⟩, ⟨"B", "A", fun s => HookPairing.rule s.hookPairs⟩,
    ⟨"C", "third", fun s => PageSingleton.rule s.pageSuffix s.requiredFieldName⟩]

/-- These rules are in the order of **their ids**. -/
theorem sorted_borrowedName : (after borrowedName).sorted = borrowedName := by
  simp [sorted, after, register, borrowedName, List.mergeSort,
    List.MergeSort.Internal.splitInTwo]

/-- The name of the third rule is its own, so that it **removes what it selects**. -/
theorem removed_iff_selected_third : ∃ third all kept,
    (after borrowedName).resolve "third" = .ok third ∧ third.id = "C" ∧
    (after borrowedName).enabled {} [] = .ok all ∧
    (after borrowedName).enabled { rules := [("third", .off)] } [] = .ok kept ∧
    (after borrowedName).enabled {} ["third"] = .ok [third] ∧
    ∀ other, other ∈ all ∧ other ∉ kept ↔ other ∈ [third] := by
  have hresolve : (after borrowedName).resolve "third" =
      .ok ⟨"C", "third", fun s => PageSingleton.rule s.pageSuffix s.requiredFieldName⟩ := rfl
  obtain ⟨all, kept, hall, hkept, hselected, -, -, hiff⟩ := removed_iff_selected hresolve
  refine ⟨_, all, kept, hresolve, rfl, hall, hkept, hselected, hiff.mpr ?_⟩
  intro other hother hname
  have hmem := hother.mem
  simp only [borrowedName, List.mem_cons, List.not_mem_nil, or_false] at hmem
  rcases hmem with rfl | rfl | rfl
  · exact absurd hname (by decide)
  · exact absurd hname (by decide)
  · rfl

/-- The id of the first rule **removes two rules**, and selects one. -/
theorem not_removed_iff_selected_borrowedName : ∃ all kept selected,
    (after borrowedName).enabled {} [] = .ok all ∧
    (after borrowedName).enabled { rules := [("A", .off)] } [] = .ok kept ∧
    (after borrowedName).enabled {} ["A"] = .ok selected ∧
    all.map RuleSpec.id = ["A", "B", "C"] ∧ kept.map RuleSpec.id = ["C"] ∧
    selected.map RuleSpec.id = ["A"] ∧
    ¬ ∀ other, other ∈ all ∧ other ∉ kept ↔ other ∈ selected := by
  have hresolve : (after borrowedName).resolve "A" =
      .ok ⟨"A", "first", fun _ => ClearBeforeType.rule⟩ := rfl
  have hkept := enabled_off hresolve
  have hall := enabled_default (after borrowedName)
  rw [sorted_borrowedName] at hkept hall
  refine ⟨_, _, _, hall, hkept, enabled_only hresolve, rfl, rfl, rfl, fun hsame => ?_⟩
  have hsecond := (hsame ⟨"B", "A", fun s => HookPairing.rule s.hookPairs⟩).mp
    ⟨by simp [borrowedName], by simp⟩
  exact absurd (congrArg RuleSpec.id (List.mem_singleton.mp hsecond)) (by decide)

end Registry

end TreeLint
