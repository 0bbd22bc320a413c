import Mathlib.Data.List.Induction
import TreeLint.Proofs.Check.Violations

/-!
# Histories of Registrations

A registry is what is left of a **history** of registrations, in which an id may come again and a
name may be that of several rules. What one registration does to a registry (`mem_register`,
`ids_register`) is kept up over a whole history (`reflects_after`): of each id the registry holds
the latest rule, and the ids stand in the order in which they were first registered.

A key means the rule with this id or, if there is none, the rule with this name whose id was
registered first (`RuleSpec.IsMeantBy`); this is said here of the history alone.

## Main results

* `Registry.reflects_after`: what a registry holds after a history of registrations.
* `Registry.resolve_after_iff`: what a key means after a history of registrations.
-/

namespace TreeLint

/-! ### Histories -/

namespace RuleSpec

/-- The **latest** registration of an id: no rule that is registered after it has the id. -/
def IsLatest (spec : RuleSpec) (history : List RuleSpec) : Prop :=
  ∃ earlier later, history = earlier ++ spec :: later ∧ ∀ other ∈ later, other.id ≠ spec.id

variable {spec new : RuleSpec} {history : List RuleSpec}

/-- The latest rule of its id **was registered**. -/
theorem IsLatest.mem (h : spec.IsLatest history) : spec ∈ history := by
  obtain ⟨earlier, later, rfl, -⟩ := h
  simp

/-- One more registration is the latest of its id, and leaves the latest of the others. -/
theorem isLatest_concat :
    spec.IsLatest (history ++ [new]) ↔ spec = new ∨ spec.IsLatest history ∧ spec.id ≠ new.id := by
  constructor
  · rintro ⟨earlier, later, hsplit, hlater⟩
    rcases List.eq_nil_or_concat later with rfl | ⟨before, last, rfl⟩
    · exact .inl (List.append_inj_right' hsplit rfl |> List.singleton_inj.mp).symm
    · rw [List.concat_eq_append] at hsplit hlater
      rw [← List.cons_append, ← List.append_assoc] at hsplit
      obtain ⟨rfl, hlast⟩ := List.append_inj' hsplit rfl
      obtain rfl := List.singleton_inj.mp hlast
      refine .inr ⟨⟨earlier, before, rfl, fun other hother => ?_⟩, ?_⟩
      · exact hlater other (List.mem_append_left _ hother)
      · exact (hlater new (by simp)).symm
  · rintro (rfl | ⟨⟨earlier, later, rfl, hlater⟩, hne⟩)
    · exact ⟨history, [], rfl, List.forall_mem_nil _⟩
    · refine ⟨earlier, later ++ [new], by simp, fun other hother => ?_⟩
      rcases List.mem_append.mp hother with hother | hother
      · exact hlater other hother
      · rw [List.mem_singleton.mp hother]
        exact hne.symm

/-- Every registered id has a latest registration. -/
theorem exists_isLatest (h : spec ∈ history) :
    ∃ latest : RuleSpec, latest.IsLatest history ∧ latest.id = spec.id := by
  induction history using List.reverseRecOn with
  | nil => cases h
  | append_singleton history new ih =>
      by_cases hid : new.id = spec.id
      · exact ⟨new, isLatest_concat.mpr (.inl rfl), hid⟩
      · rcases List.mem_append.mp h with hold | hnew
        · obtain ⟨latest, hlatest, heq⟩ := ih hold
          exact ⟨latest, isLatest_concat.mpr (.inr ⟨hlatest, fun h => hid (h ▸ heq)⟩), heq⟩
        · exact absurd (congrArg id (List.mem_singleton.mp hnew)).symm hid

/-- A key **means** a rule after a history of registrations. The rule is the latest of its id. The
key is this id or, if no rule has been registered with the key for its id, the name of the rule; of
several rules with the name the one is meant whose id was registered first. -/
def IsMeantBy (spec : RuleSpec) (key : String) (history : List RuleSpec) : Prop :=
  spec.IsLatest history ∧
    (spec.id = key ∨ (∀ other ∈ history, other.id ≠ key) ∧ spec.name = key ∧
      ∀ other : RuleSpec, other.IsLatest history → other.name = key →
        (history.map RuleSpec.id).idxOf spec.id ≤ (history.map RuleSpec.id).idxOf other.id)

/-- A key is **known** after a history of registrations if it is a registered id or the name of a
rule that is the latest of its id. -/
def IsKnown (history : List RuleSpec) (key : String) : Prop :=
  (∃ spec ∈ history, spec.id = key) ∨ ∃ spec : RuleSpec, spec.IsLatest history ∧ spec.name = key

end RuleSpec

/-! ### One registration -/

namespace Registry

variable {registry : Registry} {spec new : RuleSpec} {history : List RuleSpec} {key : String}

/-- A registration takes **the place of the old rule** with its id. -/
theorem mem_register (h : registry.ids.Nodup) :
    spec ∈ registry.register new ↔ spec = new ∨ spec ∈ registry ∧ spec.id ≠ new.id := by
  induction registry with
  | nil => simp [register]
  | cons first rest ih =>
      obtain ⟨hfirst, hrest⟩ := List.nodup_cons.mp h
      rw [register]
      split
      · next hid =>
        have hne : ∀ other ∈ rest, other.id ≠ new.id := by
          intro other hother heq
          exact hfirst (hid.trans heq.symm ▸ List.mem_map_of_mem hother)
        rw [List.mem_cons, List.mem_cons]
        constructor
        · rintro (rfl | hspec)
          · exact .inl rfl
          · exact .inr ⟨.inr hspec, hne spec hspec⟩
        · rintro (rfl | ⟨rfl | hspec, hspecId⟩)
          · exact .inl rfl
          · exact absurd hid hspecId
          · exact .inr hspec
      · next hid =>
        rw [List.mem_cons, ih hrest, List.mem_cons]
        constructor
        · rintro (rfl | rfl | ⟨hspec, hne⟩)
          · exact .inr ⟨.inl rfl, hid⟩
          · exact .inl rfl
          · exact .inr ⟨.inr hspec, hne⟩
        · rintro (rfl | ⟨rfl | hspec, hne⟩)
          · exact .inr (.inl rfl)
          · exact .inl rfl
          · exact .inr (.inr ⟨hspec, hne⟩)

/-- A new id comes **at the end**, and an old one stays where it is. -/
theorem ids_register (registry : Registry) (new : RuleSpec) :
    (registry.register new).ids =
      if new.id ∈ registry.ids then registry.ids else registry.ids ++ [new.id] := by
  induction registry with
  | nil => rfl
  | cons first rest ih =>
      have hcons : ∀ registry : Registry, ids (first :: registry) = first.id :: registry.ids :=
        fun _ => rfl
      rw [register, hcons]
      by_cases hid : first.id = new.id
      · rw [if_pos hid, if_pos (List.mem_cons.mpr (.inl hid.symm)), hid]
        rfl
      · rw [if_neg hid, hcons, ih]
        by_cases hrest : new.id ∈ ids rest
        · rw [if_pos hrest, if_pos (List.mem_cons_of_mem _ hrest)]
        · have hnew : new.id ∉ first.id :: ids rest := fun hmem =>
            (List.mem_cons.mp hmem).elim (fun heq => hid heq.symm) hrest
          rw [if_neg hrest, if_neg hnew, List.cons_append]

/-! ### All registrations -/

/-- The registry **after** a history of registrations. -/
def after (history : List RuleSpec) : Registry :=
  history.foldl (fun registry spec => registry.register spec) []

/-- A history ends with **its last registration**. -/
theorem after_concat (history : List RuleSpec) (new : RuleSpec) :
    after (history ++ [new]) = (after history).register new := by
  rw [after, List.foldl_append]
  rfl

/-- Without repetitions, and in the order of first occurrences, each item is at a later place of the
list than those before it. -/
theorem pairwise_idxOf_eraseDups (xs : List String) :
    xs.eraseDups.Pairwise fun a b => xs.idxOf a < xs.idxOf b := by
  induction xs using List.reverseRecOn with
  | nil => simp
  | append_singleton xs x ih =>
      have hold : xs.eraseDups.Pairwise fun a b => (xs ++ [x]).idxOf a < (xs ++ [x]).idxOf b := by
        refine ih.imp_of_mem fun {a b} ha hb hlt => ?_
        rw [List.mem_eraseDups] at ha hb
        rwa [List.idxOf_append_of_mem ha, List.idxOf_append_of_mem hb]
      rw [List.eraseDups_append]
      by_cases hx : x ∈ xs
      · simpa [List.removeAll, hx] using hold
      · have hsingle : ([x].removeAll xs).eraseDups = [x] := by
          simp [List.removeAll, hx, List.eraseDups_cons]
        rw [hsingle, List.pairwise_append]
        refine ⟨hold, List.pairwise_singleton _ _, fun a ha b hb => ?_⟩
        rw [List.mem_eraseDups] at ha
        rw [List.mem_singleton.mp hb, List.idxOf_append_of_mem ha, List.idxOf_append_of_notMem hx]
        have hlt := List.idxOf_lt_length_of_mem ha
        omega

/-- What a registry has kept of a history of registrations: of each id **the latest** rule, in the
order in which the ids were registered **first**. -/
structure Reflects (history : List RuleSpec) (registry : Registry) : Prop where
  mem : ∀ spec, spec ∈ registry ↔ spec.IsLatest history
  ids : registry.ids = (history.map RuleSpec.id).eraseDups

namespace Reflects

/-- A registry has **one rule** of each id. -/
theorem nodup_ids (h : Reflects history registry) : registry.ids.Nodup := by
  rw [h.ids]
  refine (pairwise_idxOf_eraseDups _).imp fun {a b} hlt heq => ?_
  rw [heq] at hlt
  exact lt_irrefl _ hlt

/-- Registered rules with one id are one rule. -/
theorem eq_of_id_eq (h : Reflects history registry) {a b : RuleSpec} (ha : a ∈ registry)
    (hb : b ∈ registry) (hid : a.id = b.id) : a = b :=
  List.inj_on_of_nodup_map h.nodup_ids ha hb hid

/-- **One registration** keeps to the history. -/
theorem register (h : Reflects history registry) (new : RuleSpec) :
    Reflects (history ++ [new]) (registry.register new) where
  mem spec := by rw [mem_register h.nodup_ids, RuleSpec.isLatest_concat, h.mem]
  ids := by
    rw [ids_register, h.ids, List.map_append, List.eraseDups_append]
    by_cases hnew : new.id ∈ history.map RuleSpec.id
    · rw [if_pos (List.mem_eraseDups.mpr hnew)]
      simp only [List.mem_map] at hnew
      simp [List.removeAll, hnew]
    · rw [if_neg (mt List.mem_eraseDups.mp hnew)]
      simp only [List.mem_map] at hnew
      simp [List.removeAll, hnew, List.eraseDups_cons]

end Reflects

/-- **Any history** of registrations is reflected in the registry. -/
theorem reflects_after (history : List RuleSpec) : Reflects history (after history) := by
  induction history using List.reverseRecOn with
  | nil => exact ⟨fun spec => ⟨nofun, fun h => nomatch h.mem⟩, rfl⟩
  | append_singleton history new ih =>
      rw [after_concat]
      exact ih.register new

/-! ### What keys mean -/

/-- After registrations a key is known exactly if **one of them** makes it so. -/
theorem knows_after_iff : (after history).Knows key ↔ RuleSpec.IsKnown history key := by
  have h := reflects_after history
  constructor
  · rintro ⟨spec, hspec, hid | hname⟩
    · exact .inl ⟨spec, ((h.mem spec).mp hspec).mem, hid⟩
    · exact .inr ⟨spec, (h.mem spec).mp hspec, hname⟩
  · rintro (⟨spec, hspec, hid⟩ | ⟨spec, hspec, hname⟩)
    · obtain ⟨latest, hlatest, heq⟩ := RuleSpec.exists_isLatest hspec
      exact ⟨latest, (h.mem latest).mpr hlatest, .inl (heq.trans hid)⟩
    · exact ⟨spec, (h.mem spec).mpr hspec, .inr hname⟩

/-- A rule that comes first in the registry was registered first. -/
theorem idxOf_le_of_append {front back : List RuleSpec} (h : after history = front ++ spec :: back)
    {other : RuleSpec} (hother : other ∈ spec :: back) :
    (history.map RuleSpec.id).idxOf spec.id ≤ (history.map RuleSpec.id).idxOf other.id := by
  have hsorted := pairwise_idxOf_eraseDups (history.map RuleSpec.id)
  rw [← (reflects_after history).ids, ids, h, List.map_append, List.map_cons,
    List.pairwise_append, List.pairwise_cons] at hsorted
  rcases List.mem_cons.mp hother with rfl | hother
  · exact le_refl _
  · exact (hsorted.2.1.1 other.id (List.mem_map_of_mem hother)).le

/-- A key resolves to a rule that it **means**. -/
theorem isMeantBy_of_resolve (h : (after history).resolve key = .ok spec) :
    spec.IsMeantBy key history := by
  have hreflects := reflects_after history
  obtain ⟨hmem, -⟩ := mem_of_resolve h
  refine ⟨(hreflects.mem spec).mp hmem, ?_⟩
  rw [resolve, find?] at h
  split at h
  · next found hfound =>
    obtain rfl := Except.ok.inj h
    split at hfound
    · next hid =>
      obtain rfl := Option.some.inj hfound
      exact .inl (by simpa using List.find?_some hid)
    · next hid =>
      have hnone : ∀ other ∈ history, other.id ≠ key := by
        intro other hother heq
        obtain ⟨latest, hlatest, hlatestId⟩ := RuleSpec.exists_isLatest hother
        have hregistered := (hreflects.mem latest).mpr hlatest
        exact List.find?_eq_none.mp hid latest hregistered (by simp [hlatestId, heq])
      obtain ⟨hname, front, back, hsplit, hfront⟩ := List.find?_eq_some_iff_append.mp hfound
      refine .inr ⟨hnone, by simpa using hname, fun other hother hotherName => ?_⟩
      have hregistered := (hreflects.mem other).mpr hother
      rw [hsplit] at hregistered
      rcases List.mem_append.mp hregistered with hbefore | hafter
      · exact absurd hotherName (by simpa using hfront other hbefore)
      · exact idxOf_le_of_append hsplit hafter
  · cases h

/-- A key means **no two** rules. -/
theorem eq_of_isMeantBy {a b : RuleSpec} (ha : a.IsMeantBy key history)
    (hb : b.IsMeantBy key history) : a = b := by
  have hreflects := reflects_after history
  obtain ⟨hla, ha⟩ := ha
  obtain ⟨hlb, hb⟩ := hb
  refine hreflects.eq_of_id_eq ((hreflects.mem a).mpr hla) ((hreflects.mem b).mpr hlb) ?_
  rcases ha with hida | ⟨hnone, hnamea, hfirsta⟩
  · rcases hb with hidb | ⟨hnone, -, -⟩
    · exact hida.trans hidb.symm
    · exact absurd hida (hnone a hla.mem)
  · rcases hb with hidb | ⟨-, hnameb, hfirstb⟩
    · exact absurd hidb (hnone b hlb.mem)
    · have hidx := le_antisymm (hfirsta b hlb hnameb) (hfirstb a hla hnamea)
      exact (List.idxOf_inj (List.mem_map_of_mem hla.mem)).mp hidx

/-- **What a key means** after a history of registrations. -/
theorem resolve_after_iff :
    (after history).resolve key = .ok spec ↔ spec.IsMeantBy key history := by
  refine ⟨isMeantBy_of_resolve, fun h => ?_⟩
  have hknown : RuleSpec.IsKnown history key := by
    rcases h.2 with hid | ⟨-, hname, -⟩
    · exact .inl ⟨spec, h.1.mem, hid⟩
    · exact .inr ⟨spec, h.1, hname⟩
  obtain ⟨found, hfound⟩ := exists_resolve_iff.mpr (knows_after_iff.mpr hknown)
  rwa [eq_of_isMeantBy h (isMeantBy_of_resolve hfound)]

end Registry

end TreeLint
