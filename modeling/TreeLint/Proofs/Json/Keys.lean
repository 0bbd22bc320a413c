import Mathlib.Data.List.Forall2
import Mathlib.Data.List.Perm.Basic
import TreeLint.Json.Value

/-!
# Values under Keys

Members of an object are a list of values under keys, and no key occurs twice. What is found under
a key does not depend on the order of the members. Two lists of members with **the same keys**
(`SameKeys`) have related values under each key, in whatever order the keys are; put in one order,
they are related member by member (`SameKeys.exists_perm`).

## Main results

* `lookup?_eq_some_iff`: what is found under a key.
* `lookup?_filterValues`: looking up a key before or after a change of the values is the same.
* `foldl_setMember`: members are put together in the order in which they come.
* `SameKeys.exists_perm`, `SameKeys.filterValues`: members with the same keys.
-/

namespace TreeLint

variable {α β : Type} {xs : List (String × α)} {key : String}

/-- A key that does not occur has **no value**. -/
theorem lookup?_eq_none (h : key ∉ xs.map Prod.fst) : lookup? key xs = none := by
  induction xs with
  | nil => rfl
  | cons entry rest ih =>
      obtain ⟨hne, hrest⟩ := not_or.mp (mt List.mem_cons.mpr h)
      rw [lookup?, if_neg (Ne.symm hne), ih hrest]

/-- The value of a key is **among its values**. -/
theorem mem_of_lookup? {v : α} (h : lookup? key xs = some v) : (key, v) ∈ xs := by
  induction xs with
  | nil => cases h
  | cons entry rest ih =>
      rw [lookup?] at h
      split at h
      · next hkey =>
        obtain rfl := Option.some.inj h
        exact hkey ▸ List.mem_cons_self
      · exact List.mem_cons_of_mem _ (ih h)

/-- A key without a value does **not occur**. -/
theorem notMem_keys_of_lookup? (h : lookup? key xs = none) : key ∉ xs.map Prod.fst := by
  induction xs with
  | nil => exact List.not_mem_nil
  | cons entry rest ih =>
      rw [lookup?] at h
      split at h
      · cases h
      · next hne => exact List.not_mem_cons_of_ne_of_not_mem (Ne.symm hne) (ih h)

/-- Leaving out **other keys** does not change what is found under a key. -/
theorem lookup?_filter {p : String → Bool} (h : p key) :
    lookup? key (xs.filter fun entry => p entry.1) = lookup? key xs := by
  induction xs with
  | nil => rfl
  | cons entry rest ih =>
      rw [List.filter_cons, lookup?]
      split
      · rw [lookup?, ih]
      · next hentry =>
        have hne : entry.1 ≠ key := by
          rintro rfl
          exact hentry h
        rw [if_neg hne, ih]

/-- After a change of keys and values, what is found under a key is what was under **the only key**
that has become that one. -/
theorem lookup?_map {rename : String → String} {g : String → α → β} {old : String}
    (h : ∀ entry ∈ xs, rename entry.1 = key ↔ entry.1 = old) :
    lookup? key (xs.map fun entry => (rename entry.1, g entry.1 entry.2)) =
      (lookup? old xs).map (g old) := by
  induction xs with
  | nil => rfl
  | cons entry rest ih =>
      obtain ⟨hentry, hrest⟩ := List.forall_mem_cons.mp h
      rw [List.map_cons, lookup?, lookup?, ih hrest]
      by_cases hkey : entry.1 = old
      · rw [if_pos hkey, if_pos (hentry.mpr hkey), Option.map_some, hkey]
      · rw [if_neg hkey, if_neg (mt hentry.mp hkey)]

/-- Change the value under each key, and drop those that come to nothing. -/
def filterValues (g : String → α → Option β) (xs : List (String × α)) : List (String × β) :=
  xs.filterMap fun entry => (g entry.1 entry.2).map (entry.1, ·)

/-- Among the values that are kept there are **no other keys**. -/
theorem keys_filterValues_subset (g : String → α → Option β) (xs : List (String × α)) :
    (filterValues g xs).map Prod.fst ⊆ xs.map Prod.fst := by
  intro key hkey
  obtain ⟨entry, hentry, rfl⟩ := List.mem_map.mp hkey
  obtain ⟨source, hsource, hg⟩ := List.mem_filterMap.mp hentry
  obtain ⟨v, -, rfl⟩ := Option.map_eq_some_iff.mp hg
  exact List.mem_map_of_mem hsource

/-- The first entry is kept, with its new value, or **left out**. -/
theorem filterValues_cons (g : String → α → Option β) (entry : String × α)
    (rest : List (String × α)) :
    filterValues g (entry :: rest) =
      ((g entry.1 entry.2).map (entry.1, ·)).toList ++ filterValues g rest := by
  rw [filterValues, List.filterMap_cons]
  cases g entry.1 entry.2 <;> rfl

/-- Keys that are unique stay **unique** when some values are left out. -/
theorem nodup_keys_filterValues (g : String → α → Option β) (h : (xs.map Prod.fst).Nodup) :
    ((filterValues g xs).map Prod.fst).Nodup := by
  induction xs with
  | nil => exact List.nodup_nil
  | cons entry rest ih =>
      obtain ⟨hentry, hrest⟩ := List.nodup_cons.mp h
      rw [filterValues_cons]
      cases g entry.1 entry.2 with
      | none => exact ih hrest
      | some v =>
          exact List.nodup_cons.mpr
            ⟨fun hmem => hentry (keys_filterValues_subset g rest hmem), ih hrest⟩

/-- Where no key occurs twice, looking up a key **after** a change of the values is changing the
value under it. -/
theorem lookup?_filterValues (g : String → α → Option β) (h : (xs.map Prod.fst).Nodup)
    (key : String) : lookup? key (filterValues g xs) = (lookup? key xs).bind (g key) := by
  induction xs with
  | nil => rfl
  | cons entry rest ih =>
      obtain ⟨hentry, hrest⟩ := List.nodup_cons.mp h
      obtain ⟨k, v⟩ := entry
      rw [filterValues_cons, lookup?]
      by_cases hkey : k = key
      · subst hkey
        rw [if_pos rfl, Option.bind_some]
        cases g k v with
        | none => exact lookup?_eq_none fun hmem => hentry (keys_filterValues_subset g rest hmem)
        | some w => simp [lookup?]
      · rw [if_neg hkey, ← ih hrest]
        cases g k v with
        | none => rfl
        | some w => simp [lookup?, hkey]

/-- Where no key occurs twice, what is found under a key is **the member** with that key. -/
theorem lookup?_eq_some_iff (h : (xs.map Prod.fst).Nodup) {v : α} :
    lookup? key xs = some v ↔ (key, v) ∈ xs := by
  refine ⟨mem_of_lookup?, fun hmem => ?_⟩
  induction xs with
  | nil => cases hmem
  | cons entry rest ih =>
      obtain ⟨hentry, hrest⟩ := List.nodup_cons.mp h
      rw [lookup?]
      rcases List.mem_cons.mp hmem with rfl | hmem
      · rw [if_pos rfl]
      · have hne : entry.1 ≠ key := by
          rintro rfl
          exact hentry (List.mem_map.mpr ⟨_, hmem, rfl⟩)
        rw [if_neg hne, ih hrest hmem]

/-- A new key is put at the **end**. -/
theorem setMember_of_notMem {v : α} (h : key ∉ xs.map Prod.fst) :
    setMember key v xs = xs ++ [(key, v)] := by
  induction xs with
  | nil => rfl
  | cons entry rest ih =>
      obtain ⟨hne, hrest⟩ := not_or.mp (mt List.mem_cons.mpr h)
      rw [setMember, if_neg (Ne.symm hne), ih hrest]
      rfl

/-- A key that occurs later does **not occur before**, if keys are unique. -/
theorem notMem_of_nodup_keys {v : α} {ys : List (String × α)}
    (h : ((xs ++ (key, v) :: ys).map Prod.fst).Nodup) : key ∉ xs.map Prod.fst := by
  rw [List.map_append, List.map_cons] at h
  exact fun hkey => (List.nodup_append.mp h).2.2 key hkey key List.mem_cons_self rfl

/-- Keys that are all different are **put one after the other**. -/
theorem foldl_setMember (ys : List (String × α)) (h : ((xs ++ ys).map Prod.fst).Nodup) :
    ys.foldl (fun acc entry => setMember entry.1 entry.2 acc) xs = xs ++ ys := by
  induction ys generalizing xs with
  | nil => rw [List.foldl_nil, List.append_nil]
  | cons entry ys ih =>
      rw [List.foldl_cons, setMember_of_notMem (notMem_of_nodup_keys h), ih (by simpa using h),
        List.append_assoc, List.singleton_append]

/-! ### The same keys -/

/-- A permutation of images comes from a permutation. -/
theorem exists_perm_of_perm_map {α β : Type} {f : α → β} {xs : List α} {ys : List β}
    (h : ys.Perm (xs.map f)) : ∃ zs : List α, zs.Perm xs ∧ ys = zs.map f := by
  have hmap : List.Forall₂ (fun b a => b = f a) (xs.map f) xs :=
    List.forall₂_map_left_iff.mpr (List.forall₂_same.mpr fun _ _ => rfl)
  obtain ⟨zs, hzs, hperm⟩ := List.perm_comp_forall₂ h hmap
  refine ⟨zs, hperm, ?_⟩
  rw [← List.forall₂_eq_eq_eq, List.forall₂_map_right_iff]
  exact hzs

/-- Related lists are related in any way that follows for **their items**. -/
theorem forall₂_of_mem {α β : Type} {R S : α → β → Prop} {xs : List α} {ys : List β}
    (h : List.Forall₂ R xs ys) (hRS : ∀ x ∈ xs, ∀ y ∈ ys, R x y → S x y) :
    List.Forall₂ S xs ys := by
  rw [List.forall₂_iff_zip] at h ⊢
  refine ⟨h.1, fun {x y} hxy => ?_⟩
  obtain ⟨hx, hy⟩ := List.of_mem_zip hxy
  exact hRS x hx y hy (h.2 hxy)

/-- An item of one of two related lists has a **partner** in the other. -/
theorem exists_of_mem_forall₂ {α β : Type} {R : α → β → Prop} {xs : List α} {ys : List β}
    (h : List.Forall₂ R xs ys) {x : α} (hx : x ∈ xs) : ∃ y ∈ ys, R x y := by
  induction h with
  | nil => cases hx
  | cons hxy _ ih =>
      rcases List.mem_cons.mp hx with rfl | hx
      · exact ⟨_, List.mem_cons_self, hxy⟩
      · obtain ⟨y, hy, hxy⟩ := ih hx
        exact ⟨y, List.mem_cons_of_mem _ hy, hxy⟩

/-- Two lists of members have **the same keys**, none of them twice and in any order, and related
values under them. -/
structure SameKeys (R : α → β → Prop) (xs : List (String × α)) (ys : List (String × β)) : Prop where
  nodup : (xs.map Prod.fst).Nodup
  perm : (xs.map Prod.fst).Perm (ys.map Prod.fst)
  lookup? : ∀ key, Option.Rel R (lookup? key xs) (lookup? key ys)

namespace SameKeys

variable {R : α → β → Prop} {ys : List (String × β)}

/-- On the other side the keys are **unique** too. -/
theorem nodup_right (h : SameKeys R xs ys) : (ys.map Prod.fst).Nodup := h.perm.nodup_iff.mp h.nodup

/-- A member has a **partner** under its key. -/
theorem exists_right (h : SameKeys R xs ys) {a : α} (ha : (key, a) ∈ xs) :
    ∃ b, (key, b) ∈ ys ∧ R a b := by
  have hrel := h.lookup? key
  rw [(lookup?_eq_some_iff h.nodup).mpr ha] at hrel
  cases hb : TreeLint.lookup? key ys with
  | none =>
      rw [hb] at hrel
      cases hrel
  | some b =>
      rw [hb] at hrel
      cases hrel with
      | some hab => exact ⟨b, mem_of_lookup? hb, hab⟩

/-- Every value on the right is related to **one on the left**, under its key. -/
theorem exists_left (h : SameKeys R xs ys) {b : β} (hb : (key, b) ∈ ys) :
    ∃ a, (key, a) ∈ xs ∧ R a b := by
  have hrel := h.lookup? key
  rw [(lookup?_eq_some_iff h.nodup_right).mpr hb] at hrel
  cases ha : TreeLint.lookup? key xs with
  | none =>
      rw [ha] at hrel
      cases hrel
  | some a =>
      rw [ha] at hrel
      cases hrel with
      | some hab => exact ⟨a, mem_of_lookup? ha, hab⟩

/-- What holds of all members on one side holds of all members **on the other**. -/
theorem forall_iff (h : SameKeys R xs ys) {P : String → α → Prop} {Q : String → β → Prop}
    (hPQ : ∀ key a b, (key, a) ∈ xs → R a b → (P key a ↔ Q key b)) :
    (∀ entry ∈ xs, P entry.1 entry.2) ↔ ∀ entry ∈ ys, Q entry.1 entry.2 := by
  constructor
  · rintro hP ⟨key, b⟩ hb
    obtain ⟨a, ha, hab⟩ := h.exists_left hb
    exact (hPQ key a b ha hab).mp (hP (key, a) ha)
  · rintro hQ ⟨key, a⟩ ha
    obtain ⟨b, hb, hab⟩ := h.exists_right ha
    exact (hPQ key a b ha hab).mpr (hQ (key, b) hb)

/-- **Put in one order**, members with the same keys are related one by one. -/
theorem exists_perm (h : SameKeys R xs ys) :
    ∃ zs, zs.Perm xs ∧ List.Forall₂ (fun z y => z.1 = y.1 ∧ R z.2 y.2) zs ys := by
  obtain ⟨zs, hzs, hkeys⟩ := exists_perm_of_perm_map h.perm.symm
  rw [← List.forall₂_eq_eq_eq, List.forall₂_map_left_iff, List.forall₂_map_right_iff] at hkeys
  refine ⟨zs, hzs, forall₂_of_mem hkeys.flip fun z hz y hy hzy => ⟨hzy.symm, ?_⟩⟩
  obtain ⟨b, hb, hab⟩ := h.exists_right (hzs.subset hz)
  have hsome := (lookup?_eq_some_iff h.nodup_right).mpr (hzy ▸ hy : (z.1, y.2) ∈ ys)
  rw [(lookup?_eq_some_iff h.nodup_right).mpr hb] at hsome
  exact Option.some.inj hsome ▸ hab

/-- Changing the values under each key in a related way **keeps the keys the same**. -/
theorem filterValues {γ δ : Type} {S : γ → δ → Prop} (h : SameKeys R xs ys)
    {f : String → α → Option γ} {g : String → β → Option δ}
    (hfg : ∀ key a b, (key, a) ∈ xs → R a b → Option.Rel S (f key a) (g key b)) :
    SameKeys S (filterValues f xs) (filterValues g ys) where
  nodup := nodup_keys_filterValues f h.nodup
  perm := by
    obtain ⟨zs, hzs, hrel⟩ := h.exists_perm
    have hrel' := forall₂_of_mem hrel fun z hz y _ hzy =>
      (⟨hzy.1, hfg z.1 z.2 y.2 (hzs.subset hz) hzy.2⟩ :
        z.1 = y.1 ∧ Option.Rel S (f z.1 z.2) (g z.1 y.2))
    refine .trans ((hzs.filterMap _).map Prod.fst).symm (.of_eq ?_)
    rw [← List.forall₂_eq_eq_eq, List.forall₂_map_left_iff, List.forall₂_map_right_iff]
    refine List.rel_filterMap (fun {z y} hzy => ?_) hrel'
    obtain ⟨hkey, hrel⟩ := hzy
    rw [← hkey]
    generalize f z.1 z.2 = c, g z.1 y.2 = d at hrel
    cases hrel with
    | none => exact .none
    | some => exact .some rfl
  lookup? key := by
    rw [lookup?_filterValues f h.nodup, lookup?_filterValues g h.nodup_right]
    have hrel := h.lookup? key
    cases ha : TreeLint.lookup? key xs with
    | none =>
        rw [ha] at hrel
        cases hb : TreeLint.lookup? key ys with
        | none => exact .none
        | some b =>
            rw [hb] at hrel
            cases hrel
    | some a =>
        obtain ⟨b, hb, hab⟩ := h.exists_right (mem_of_lookup? ha)
        rw [(lookup?_eq_some_iff h.nodup_right).mpr hb]
        exact hfg key a b (mem_of_lookup? ha) hab

end SameKeys

end TreeLint
