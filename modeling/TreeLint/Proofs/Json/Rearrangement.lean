import TreeLint.Json.Order
import TreeLint.Proofs.Json.Keys

/-!
# Rearranged Values

The order of the members of an object means nothing. A value **rearranges** another one
(`Value.Rearranges`) if the two are the same but for the order of the members of their objects, at
any depth; labels of objects are not looked at either. Rearranged values have rearranged values
under each key, and compare alike (`Rearranges.same`, `Rearranges.before`).

## Main results

* `Rearranges.cases`: rearranged values are equal, or lists of rearranged items, or objects with the
  same keys.
* `Rearranges.same`, `Rearranges.before`: rearranged values compare alike.
-/

namespace TreeLint.Value

variable {ι κ : Type}

/-! ### Rearrangement -/

mutual

/-- Whether two values are the same but for **the order of members**. No object has a key twice. -/
def isRearranged : Value ι → Value ι → Bool
  | .null, .null => true
  | .bool a, .bool b => a == b
  | .int m, .int n => m == n
  | .float x, .float y => x == y
  | .str s, .str t => s == t
  | .arr xs, .arr ys => isRearrangedItems xs ys
  | .obj _ ms, .obj _ ns =>
    decide (ms.map Prod.fst).Nodup && decide ((ms.map Prod.fst).Perm (ns.map Prod.fst)) &&
      isRearrangedMembers ms ns
  | _, _ => false

/-- Whether the items of two lists are rearranged one by one. -/
def isRearrangedItems : List (Value ι) → List (Value ι) → Bool
  | [], [] => true
  | x :: xs, y :: ys => x.isRearranged y && isRearrangedItems xs ys
  | _, _ => false

/-- Whether every member on the left has a rearranged value on the right. -/
def isRearrangedMembers : List (String × Value ι) → List (String × Value ι) → Bool
  | [], _ => true
  | (k, v) :: rest, ns =>
    (match lookup? k ns with
      | some w => v.isRearranged w
      | none => false) && isRearrangedMembers rest ns

end

/-- A value **rearranges** another one if they are the same but for the order of members. -/
def Rearranges (v w : Value ι) : Prop := v.isRearranged w

instance (v w : Value ι) : Decidable (v.Rearranges w) :=
  inferInstanceAs (Decidable (v.isRearranged w = true))

/-- Items that are rearranged are so **one by one**. -/
theorem forall₂_of_isRearrangedItems {xs ys : List (Value ι)} (h : isRearrangedItems xs ys) :
    List.Forall₂ Rearranges xs ys := by
  induction xs generalizing ys with
  | nil =>
      cases ys with
      | nil => exact .nil
      | cons y ys => cases h
  | cons x xs ih =>
      cases ys with
      | nil => cases h
      | cons y ys =>
          obtain ⟨hxy, hrest⟩ := Bool.and_eq_true_iff.mp h
          exact .cons hxy (ih hrest)

/-- Every member has a rearranged one **under its key**. -/
theorem exists_of_isRearrangedMembers {ms ns : List (String × Value ι)}
    (h : isRearrangedMembers ms ns) {key : String} {v : Value ι} (hv : (key, v) ∈ ms) :
    ∃ w, lookup? key ns = some w ∧ v.Rearranges w := by
  induction ms with
  | nil => cases hv
  | cons entry rest ih =>
      obtain ⟨k, u⟩ := entry
      obtain ⟨hhead, hrest⟩ := Bool.and_eq_true_iff.mp h
      rcases List.mem_cons.mp hv with heq | hv
      · obtain ⟨rfl, rfl⟩ := Prod.mk.inj heq
        split at hhead
        · next w hw => exact ⟨w, hw, hhead⟩
        · cases hhead
      · exact ih hrest hv

/-- Members that are rearranged have **the same keys**. -/
theorem sameKeys_of_isRearranged {l l' : ι} {ms ns : List (String × Value ι)}
    (h : (Value.obj l ms).Rearranges (.obj l' ns)) : SameKeys Rearranges ms ns := by
  rw [Rearranges, isRearranged, Bool.and_eq_true, Bool.and_eq_true, decide_eq_true_eq,
    decide_eq_true_eq] at h
  obtain ⟨⟨hnodup, hperm⟩, hmembers⟩ := h
  refine ⟨hnodup, hperm, fun key => ?_⟩
  cases hv : lookup? key ms with
  | some v =>
      obtain ⟨w, hw, hvw⟩ := exists_of_isRearrangedMembers hmembers (mem_of_lookup? hv)
      rw [hw]
      exact .some hvw
  | none =>
      have hkey : key ∉ ns.map Prod.fst := by
        intro hmem
        obtain ⟨⟨k, v⟩, hv', rfl⟩ := List.mem_map.mp (hperm.mem_iff.mpr hmem)
        rw [(lookup?_eq_some_iff hnodup).mpr hv'] at hv
        cases hv
      rw [lookup?_eq_none hkey]
      exact .none

/-- Whether a value is neither a list nor an object. -/
def isAtom : Value ι → Bool
  | .arr _ | .obj .. => false
  | _ => true

namespace Rearranges

variable {v w : Value ι}

/-- Rearranged values are **equal, or lists, or objects**. -/
theorem cases (h : v.Rearranges w) :
    (v.isAtom ∧ w = v) ∨
    (∃ xs ys, v = .arr xs ∧ w = .arr ys ∧ List.Forall₂ Rearranges xs ys) ∨
    (∃ l ms l' ns, v = .obj l ms ∧ w = .obj l' ns ∧ SameKeys Rearranges ms ns) := by
  cases v with
  | arr xs =>
      cases w with
      | arr ys => exact .inr (.inl ⟨xs, ys, rfl, rfl, forall₂_of_isRearrangedItems h⟩)
      | _ => cases h
  | obj l ms =>
      cases w with
      | obj l' ns => exact .inr (.inr ⟨l, ms, l', ns, rfl, rfl, sameKeys_of_isRearranged h⟩)
      | _ => cases h
  | null =>
      cases w with
      | null => exact .inl ⟨rfl, rfl⟩
      | _ => cases h
  | bool a =>
      cases w with
      | bool b => exact .inl ⟨rfl, congrArg _ (beq_iff_eq.mp h).symm⟩
      | _ => cases h
  | int a =>
      cases w with
      | int b => exact .inl ⟨rfl, congrArg _ (beq_iff_eq.mp h).symm⟩
      | _ => cases h
  | float a =>
      cases w with
      | float b => exact .inl ⟨rfl, congrArg _ (beq_iff_eq.mp h).symm⟩
      | _ => cases h
  | str a =>
      cases w with
      | str b => exact .inl ⟨rfl, congrArg _ (beq_iff_eq.mp h).symm⟩
      | _ => cases h

/-! ### What rearranged values share -/

/-- Null is rearranged **by itself** only. -/
theorem null : (Value.null : Value ι).Rearranges .null := rfl

/-- Lists of rearranged items are **rearranged**. -/
theorem arr {xs ys : List (Value ι)} (h : List.Forall₂ Rearranges xs ys) :
    (Value.arr xs).Rearranges (.arr ys) := by
  rw [Rearranges, isRearranged]
  induction h with
  | nil => rfl
  | cons hxy _ ih => exact Bool.and_eq_true_iff.mpr ⟨hxy, ih⟩

/-- Objects with the same keys and rearranged values are **rearranged**, whatever their labels. -/
theorem obj {ms ns : List (String × Value ι)} (h : SameKeys Rearranges ms ns) (l l' : ι) :
    (Value.obj l ms).Rearranges (.obj l' ns) := by
  have hmembers : ∀ rest : List (String × Value ι), (∀ entry ∈ rest, entry ∈ ms) →
      isRearrangedMembers rest ns := by
    intro rest hrest
    induction rest with
    | nil => rfl
    | cons entry rest ih =>
        obtain ⟨hentry, hrest⟩ := List.forall_mem_cons.mp hrest
        obtain ⟨w, hw, hvw⟩ := h.exists_right hentry
        rw [isRearrangedMembers, (lookup?_eq_some_iff h.nodup_right).mpr hw]
        exact Bool.and_eq_true_iff.mpr ⟨hvw, ih hrest⟩
  rw [Rearranges, isRearranged, Bool.and_eq_true, Bool.and_eq_true, decide_eq_true_eq,
    decide_eq_true_eq]
  exact ⟨⟨h.nodup, h.perm⟩, hmembers ms fun _ hentry => hentry⟩

/-- Rearranging does not change whether a value is **null**. -/
theorem isNull (h : v.Rearranges w) : w.isNull = v.isNull := by
  rcases h.cases with ⟨-, rfl⟩ | ⟨xs, ys, rfl, rfl, -⟩ | ⟨l, ms, l', ns, rfl, rfl, -⟩ <;> rfl

/-- Rearranging does not change whether a value is **true**. -/
theorem isTrue (h : v.Rearranges w) : w.isTrue = v.isTrue := by
  rcases h.cases with ⟨-, rfl⟩ | ⟨xs, ys, rfl, rfl, -⟩ | ⟨l, ms, l', ns, rfl, rfl, -⟩ <;> rfl

/-- Rearranging does not change **a text**. -/
theorem str? (h : v.Rearranges w) : w.str? = v.str? := by
  rcases h.cases with ⟨-, rfl⟩ | ⟨xs, ys, rfl, rfl, -⟩ | ⟨l, ms, l', ns, rfl, rfl, -⟩ <;> rfl

/-- Rearranging does not change whether a value is **blank**. -/
theorem isBlank (h : v.Rearranges w) : w.isBlank = v.isBlank := by
  rcases h.cases with ⟨-, rfl⟩ | ⟨xs, ys, rfl, rfl, hxs⟩ | ⟨l, ms, l', ns, rfl, rfl, hms⟩
  · rfl
  · cases hxs <;> rfl
  · have hlength := hms.perm.length_eq
    cases ms <;> cases ns <;> simp [Value.isBlank] at hlength ⊢

/-- Under each key there are **rearranged values**. -/
theorem getD (h : v.Rearranges w) (key : String) : (v.getD key).Rearranges (w.getD key) := by
  rcases h.cases with ⟨hatom, rfl⟩ | ⟨xs, ys, rfl, rfl, -⟩ | ⟨l, ms, l', ns, rfl, rfl, hms⟩
  · cases w <;> first | exact null | cases hatom
  · exact null
  · have hrel := hms.lookup? key
    rw [Value.getD, Value.getD, Value.get?, Value.get?]
    generalize lookup? key ms = a, lookup? key ns = b at hrel
    cases hrel with
    | none => exact null
    | some hab => exact hab

end Rearranges

/-! ### Erasing labels -/

/-- Induction over a value, **from its parts**. -/
theorem induction_parts {P : Value ι → Prop} (atom : ∀ v, v.isAtom → P v)
    (arr : ∀ items, (∀ v ∈ items, P v) → P (.arr items))
    (obj : ∀ l members, (∀ key v, (key, v) ∈ members → P v) → P (.obj l members))
    (v : Value ι) : P v :=
  match v with
  | .null | .bool _ | .int _ | .float _ | .str _ => atom _ rfl
  | .arr items => arr items fun v _hv => induction_parts atom arr obj v
  | .obj l members => obj l members fun _ v _hv => induction_parts atom arr obj v
termination_by sizeOf v
decreasing_by
  · have := List.sizeOf_lt_of_mem _hv
    simp only [Value.arr.sizeOf_spec]
    omega
  · have := List.sizeOf_lt_of_mem _hv
    simp only [Value.obj.sizeOf_spec, Prod.mk.sizeOf_spec] at this ⊢
    omega

/-- Labels are erased from items **one by one**. -/
theorem eraseItems_eq (items : List (Value ι)) : eraseItems items = items.map erase := by
  induction items with
  | nil => rfl
  | cons v rest ih => rw [eraseItems, ih, List.map_cons]

/-- Labels are erased from members **one by one**, with the keys as they are. -/
theorem eraseMembers_eq (members : List (String × Value ι)) :
    eraseMembers members = filterValues (fun _ v => some v.erase) members := by
  induction members with
  | nil => rfl
  | cons entry rest ih =>
      rw [eraseMembers, ih, filterValues_cons]
      rfl

/-- Erasing labels keeps values **rearranged**. -/
theorem Rearranges.erase {v w : Value ι} (h : v.Rearranges w) : v.erase.Rearranges w.erase := by
  induction v using induction_parts generalizing w with
  | atom v hatom =>
      rcases h.cases with ⟨-, rfl⟩ | ⟨xs, ys, rfl, -, -⟩ | ⟨l, ms, l', ns, rfl, -, -⟩
      · cases w <;> first | exact absurd hatom Bool.false_ne_true | simp [Rearranges, Value.erase,
          isRearranged]
      · cases hatom
      · cases hatom
  | arr items ih =>
      rcases h.cases with ⟨⟨⟩, -⟩ | ⟨xs, ys, ⟨⟩, rfl, hxs⟩ | ⟨-, -, -, -, ⟨⟩, -⟩
      rw [Value.erase, Value.erase, eraseItems_eq, eraseItems_eq]
      refine Rearranges.arr ?_
      rw [List.forall₂_map_left_iff, List.forall₂_map_right_iff]
      exact forall₂_of_mem hxs fun v hv w _ hvw => ih v hv hvw
  | obj l members ih =>
      rcases h.cases with ⟨⟨⟩, -⟩ | ⟨-, -, ⟨⟩, -⟩ | ⟨_, _, l', ns, ⟨⟩, rfl, hms⟩
      rw [Value.erase, Value.erase, eraseMembers_eq, eraseMembers_eq]
      exact .obj (hms.filterValues fun key v w hv hvw => .some (ih key v hv hvw)) () ()

/-! ### Comparing rearranged values -/

/-- Members are the same as others if **each of them** has the same value under its key there. -/
theorem sameMembers_iff {ms : List (String × Value ι)} {ns : List (String × Value κ)} :
    sameMembers ms ns ↔ ∀ entry ∈ ms, ∃ w, lookup? entry.1 ns = some w ∧ entry.2.same w := by
  induction ms with
  | nil => simp [sameMembers]
  | cons entry rest ih =>
      rw [sameMembers, Bool.and_eq_true, ih, List.forall_mem_cons]
      refine and_congr_left fun _ => ?_
      cases lookup? entry.1 ns <;> simp

section Compare

variable {v v' : Value ι} {w w' : Value κ}

/-- Rearranged items are the same as **the same items**. -/
theorem sameItems_congr {xs xs' : List (Value ι)} {ys ys' : List (Value κ)}
    (hxs : List.Forall₂ Rearranges xs xs') (hys : List.Forall₂ Rearranges ys ys')
    (ih : ∀ x ∈ xs, ∀ (x' : Value ι) (y y' : Value κ), x.Rearranges x' → y.Rearranges y' →
      x.same y = x'.same y') :
    sameItems xs ys = sameItems xs' ys' := by
  induction hxs generalizing ys ys' with
  | nil => cases hys <;> rfl
  | cons hx hxs ihxs =>
      obtain ⟨ihx, ih⟩ := List.forall_mem_cons.mp ih
      cases hys with
      | nil => rfl
      | cons hy hys => rw [sameItems, sameItems, ihx _ _ _ hx hy, ihxs hys ih]

/-- Rearranged members are the same as **the same members**. -/
theorem sameMembers_congr {ms ms' : List (String × Value ι)} {ns ns' : List (String × Value κ)}
    (hms : SameKeys Rearranges ms ms') (hns : SameKeys Rearranges ns ns')
    (ih : ∀ key v, (key, v) ∈ ms → ∀ (v' : Value ι) (w w' : Value κ), v.Rearranges v' →
      w.Rearranges w' → v.same w = v'.same w') :
    sameMembers ms ns = sameMembers ms' ns' := by
  rw [Bool.eq_iff_iff, sameMembers_iff, sameMembers_iff]
  refine hms.forall_iff (P := fun key v => ∃ w, lookup? key ns = some w ∧ v.same w)
    (Q := fun key v => ∃ w, lookup? key ns' = some w ∧ v.same w) fun key v v' hv hvv' => ?_
  have hrel := hns.lookup? key
  generalize lookup? key ns = a, lookup? key ns' = b at hrel
  cases hrel with
  | none => simp
  | some hww' => simp [ih key v hv v' _ _ hvv' hww']

/-- Whether values are the same does not depend on **the order of members**. -/
theorem Rearranges.same (hv : v.Rearranges v') (hw : w.Rearranges w') : v.same w = v'.same w' := by
  induction v using induction_parts generalizing v' w w' with
  | atom v hatom =>
      rcases hv.cases with ⟨-, rfl⟩ | ⟨xs, ys, rfl, -, -⟩ | ⟨l, ms, l', ns, rfl, -, -⟩
      · rcases hw.cases with ⟨-, rfl⟩ | ⟨xs, ys, rfl, rfl, -⟩ | ⟨l, ms, l', ns, rfl, rfl, -⟩
        · rfl
        · cases v' <;> first | rfl | cases hatom
        · cases v' <;> first | rfl | cases hatom
      · cases hatom
      · cases hatom
  | arr items ih =>
      rcases hv.cases with ⟨⟨⟩, -⟩ | ⟨xs, xs', ⟨⟩, rfl, hxs⟩ | ⟨-, -, -, -, ⟨⟩, -⟩
      rcases hw.cases with ⟨hatom, rfl⟩ | ⟨ys, ys', rfl, rfl, hys⟩ | ⟨l, ms, l', ns, rfl, rfl, -⟩
      · cases w' <;> first | rfl | cases hatom
      · exact sameItems_congr hxs hys fun x hx x' y y' => ih x hx
      · rfl
  | obj l members ih =>
      rcases hv.cases with ⟨⟨⟩, -⟩ | ⟨-, -, ⟨⟩, -⟩ | ⟨_, _, l', members', ⟨⟩, rfl, hms⟩
      rcases hw.cases with ⟨hatom, rfl⟩ | ⟨ys, ys', rfl, rfl, -⟩ | ⟨l, ns, l', ns', rfl, rfl, hns⟩
      · cases w' <;> first | rfl | cases hatom
      · rfl
      · have hms' : members.length = members'.length := by simpa using hms.perm.length_eq
        have hns' : ns.length = ns'.length := by simpa using hns.perm.length_eq
        rw [Value.same, Value.same, hms', hns',
          sameMembers_congr hms hns fun key v hv v' w w' => ih key v hv]

/-- Rearranged items come **before the same items**. -/
theorem itemsBefore_congr {xs xs' : List (Value ι)} {ys ys' : List (Value κ)}
    (hxs : List.Forall₂ Rearranges xs xs') (hys : List.Forall₂ Rearranges ys ys')
    (ih : ∀ x ∈ xs, ∀ (x' : Value ι) (y y' : Value κ), x.Rearranges x' → y.Rearranges y' →
      x.before y = x'.before y') :
    itemsBefore xs ys = itemsBefore xs' ys' := by
  induction hxs generalizing ys ys' with
  | nil => cases hys <;> rfl
  | cons hx hxs ihxs =>
      obtain ⟨ihx, ih⟩ := List.forall_mem_cons.mp ih
      cases hys with
      | nil => rfl
      | cons hy hys =>
          rw [itemsBefore, itemsBefore, hx.same hy, ihx _ _ _ hx hy, ihxs hys ih]

/-- Which value **comes before** another does not depend on the order of members. -/
theorem Rearranges.before (hv : v.Rearranges v') (hw : w.Rearranges w') :
    v.before w = v'.before w' := by
  induction v using induction_parts generalizing v' w w' with
  | atom v hatom =>
      rcases hv.cases with ⟨-, rfl⟩ | ⟨xs, ys, rfl, -, -⟩ | ⟨l, ms, l', ns, rfl, -, -⟩
      · rcases hw.cases with ⟨-, rfl⟩ | ⟨xs, ys, rfl, rfl, -⟩ | ⟨l, ms, l', ns, rfl, rfl, -⟩
        · rfl
        · cases v' <;> first | rfl | cases hatom
        · cases v' <;> rfl
      · cases hatom
      · cases hatom
  | arr items ih =>
      rcases hv.cases with ⟨⟨⟩, -⟩ | ⟨xs, xs', ⟨⟩, rfl, hxs⟩ | ⟨-, -, -, -, ⟨⟩, -⟩
      rcases hw.cases with ⟨hatom, rfl⟩ | ⟨ys, ys', rfl, rfl, hys⟩ | ⟨l, ms, l', ns, rfl, rfl, -⟩
      · cases w' <;> first | rfl | cases hatom
      · exact itemsBefore_congr hxs hys fun x hx x' y y' => ih x hx
      · rfl
  | obj l members =>
      rcases hv.cases with ⟨⟨⟩, -⟩ | ⟨-, -, ⟨⟩, -⟩ | ⟨_, _, l', members', ⟨⟩, rfl, -⟩
      rcases hw.cases with ⟨hatom, rfl⟩ | ⟨ys, ys', rfl, rfl, -⟩ | ⟨l, ns, l', ns', rfl, rfl, -⟩
      · cases w' <;> rfl
      · rfl
      · rfl

end Compare

end TreeLint.Value
