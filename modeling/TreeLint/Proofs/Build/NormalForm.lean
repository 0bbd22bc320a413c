import TreeLint.Proofs.Build.Lookup
import TreeLint.Proofs.Json.Rearrangement

/-!
# The Normal Form of a Document

Parsers differ in what they write. Some add members that no tree is made of, and older ones have
other words for the properties of a class. The **normal form** of a document (`Value.normalise`) has
one way of writing them: the members under `parent`, `tokens` and `comments` are left out, the type
`ClassProperty` is `PropertyDefinition`, and `initializer` is `value` unless there is a `value`
already.

Only objects that nodes are made of are written anew: the document itself, and what is found in the
parts of an object, at any depth. Everything else stays as it is, and so do the order of members and
the labels.

## Main results

* `Value.node?_normalise`: the normal form describes a node if the value does.
* `Value.erase_normaliseUnder`: normal forms do not depend on labels.
* `NodeDocument.children_normalise`: the children of the normal form are the normal forms of the
  children.
* `NodeDocument.getD_normalise`: what is found under other keys.
-/

namespace TreeLint

/-! ### Normal forms -/

/-- Keys that a normal form is without. -/
def isDropped (key : String) : Bool := ["parent", "tokens", "comments"].contains key

/-- What a normal form is without is not looked at anyway. -/
theorem isDropped_eq_false {key : String} (h : isSkipped key = false) : isDropped key = false := by
  rw [isSkipped, ← Bool.not_eq_true, List.contains_iff_mem] at h
  rw [isDropped, ← Bool.not_eq_true, List.contains_iff_mem]
  exact fun hmem => h (List.mem_of_mem_drop (i := 5) hmem)

/-- Keys whose values are found under them in a normal form as well. -/
def isKept (key : String) : Bool :=
  !(["value", "initializer", "parent", "tokens", "comments"].contains key)

/-- The present word for a type. -/
def normalType (type : String) : String :=
  if type = "ClassProperty" then "PropertyDefinition" else type

/-- The present key for what is under a key, depending on whether there is a `value`. -/
def normalKey (hasValue : Bool) (key : String) : String :=
  if key = "initializer" ∧ hasValue = false then "value" else key

/-- No other key becomes one that is kept. -/
theorem normalKey_eq_iff {key k : String} (hkept : isKept key) {hasValue : Bool} :
    normalKey hasValue k = key ↔ k = key := by
  have hne : key ≠ "value" ∧ key ≠ "initializer" := by
    constructor
    · rintro rfl
      cases hkept
    · rintro rfl
      cases hkept
  rw [normalKey]
  split
  · next h =>
    exact ⟨fun hk => absurd hk.symm hne.1, fun hk => absurd (hk.symm.trans h.1) hne.2⟩
  · rfl

/-- Where there is no `value`, nothing is left under the old key. -/
theorem normalKey_false_ne_initializer {k : String} : normalKey false k ≠ "initializer" := by
  rw [normalKey]
  split
  · decide
  · next h => exact fun hk => h ⟨hk, rfl⟩

namespace Value

variable {ι : Type}

/-- Whether members are those of an object that describes a node. -/
def areOfNode (members : List (String × Value ι)) : Bool :=
  ((lookup? "type" members).bind str?).isSome

/-- A type in its present word. -/
def normaliseType : Value ι → Value ι
  | .str type => .str (normalType type)
  | v => v

mutual

/-- The **normal form** of an object that describes a node, and any other value as it is. -/
def normalise : Value ι → Value ι
  | .obj label members =>
    if areOfNode members then
      .obj label (normaliseMembers (lookup? "value" members).isSome members)
    else .obj label members
  | v => v

/-- The normal forms of the items of a list. -/
def normaliseItems : List (Value ι) → List (Value ι)
  | [] => []
  | v :: rest => v.normalise :: normaliseItems rest

/-- The normal form of the members of an object that describes a node. -/
def normaliseMembers (hasValue : Bool) : List (String × Value ι) → List (String × Value ι)
  | [] => []
  | (key, v) :: rest =>
    if isDropped key then normaliseMembers hasValue rest
    else
      let v := if key = "type" then v.normaliseType
        else if isSkipped key then v
        else match v with
          | .arr items => .arr (normaliseItems items)
          | v => v.normalise
      (normalKey hasValue key, v) :: normaliseMembers hasValue rest

end

/-- The normal form of the value under a key. -/
def normaliseUnder (key : String) (v : Value ι) : Value ι :=
  if key = "type" then v.normaliseType
  else if isSkipped key then v
  else match v with
    | .arr items => .arr (items.map normalise)
    | v => v.normalise

/-- The items of a list are normalised **one by one**. -/
theorem normaliseItems_eq (items : List (Value ι)) :
    normaliseItems items = items.map normalise := by
  induction items with
  | nil => rw [normaliseItems, List.map_nil]
  | cons v rest ih => rw [normaliseItems, ih, List.map_cons]

/-- The first member of an object is dropped, or kept with its **key and value** in normal form. -/
theorem normaliseMembers_cons (hasValue : Bool) (key : String) (v : Value ι)
    (rest : List (String × Value ι)) :
    normaliseMembers hasValue ((key, v) :: rest) =
      if isDropped key then normaliseMembers hasValue rest
      else (normalKey hasValue key, v.normaliseUnder key) :: normaliseMembers hasValue rest := by
  cases v with
  | arr items => rw [normaliseMembers, normaliseItems_eq, normaliseUnder]
  | _ => rw [normaliseMembers, normaliseUnder] <;> rintro _ ⟨⟩

/-- The members of an object are normalised **one by one**, without those that are dropped. -/
theorem normaliseMembers_eq (hasValue : Bool) (members : List (String × Value ι)) :
    normaliseMembers hasValue members =
      (members.filter fun entry => !isDropped entry.1).map fun entry =>
        (normalKey hasValue entry.1, entry.2.normaliseUnder entry.1) := by
  induction members with
  | nil => rw [normaliseMembers, List.filter_nil, List.map_nil]
  | cons entry rest ih =>
      rw [normaliseMembers_cons, ih, List.filter_cons]
      cases isDropped entry.1 <;> rfl

/-- Under a key that parts may be under, a value has its own normal form or those of its items. -/
theorem normaliseUnder_of_part {key : String} (hskipped : isSkipped key = false) (v : Value ι) :
    v.normaliseUnder key = match v with
      | .arr items => .arr (items.map normalise)
      | v => v.normalise := by
  have htype : key ≠ "type" := by
    rintro rfl
    cases hskipped
  rw [normaliseUnder.eq_def, if_neg htype, hskipped, if_neg Bool.false_ne_true]

/-- Atoms that are no types stay **as they are**. -/
theorem normaliseUnder_of_isAtom {key : String} (htype : key ≠ "type") {v : Value ι}
    (hatom : v.isAtom) : v.normaliseUnder key = v := by
  rw [normaliseUnder.eq_def, if_neg htype]
  cases v <;> first | cases hatom; done | exact ite_self _

/-- A value that is no type stays as it is, or stays **a list**, or **an object**. -/
theorem normaliseUnder_cases {key : String} (htype : key ≠ "type") (v : Value ι) :
    v.normaliseUnder key = v ∨
    (∃ items items', v = .arr items ∧ v.normaliseUnder key = .arr items') ∨
    ∃ label members members', v = .obj label members ∧
      v.normaliseUnder key = .obj label members' := by
  cases hskipped : isSkipped key with
  | true => exact .inl (by rw [normaliseUnder.eq_def, if_neg htype, if_pos hskipped])
  | false =>
      cases v with
      | arr items => exact .inr (.inl ⟨_, _, rfl, normaliseUnder_of_part hskipped _⟩)
      | obj label members =>
          rw [normaliseUnder_of_part hskipped]
          dsimp only
          rw [normalise]
          split
          · exact .inr (.inr ⟨_, _, _, rfl, rfl⟩)
          · exact .inl rfl
      | _ => exact .inl (normaliseUnder_of_isAtom htype rfl)

/-- What is under a key that is kept **stays there**, in its normal form. -/
theorem lookup?_normaliseMembers {key : String} (hkept : isKept key) (hasValue : Bool)
    (members : List (String × Value ι)) :
    lookup? key (normaliseMembers hasValue members) =
      (lookup? key members).map (normaliseUnder key) := by
  have hdropped : isDropped key = false := by
    simp only [isKept, Bool.not_eq_true', ← Bool.not_eq_true, List.contains_iff_mem, List.mem_cons,
      not_or] at hkept
    simpa [isDropped] using hkept.2.2
  have hfilter : lookup? key (members.filter fun entry => !isDropped entry.1) =
      lookup? key members :=
    lookup?_filter (p := fun k => !isDropped k) (by rw [hdropped]; rfl)
  rw [normaliseMembers_eq, lookup?_map fun entry _ => normalKey_eq_iff hkept, hfilter]

/-! ### Labels -/

/-- Erasing labels **commutes** with looking up a key. -/
theorem lookup?_eraseMembers (key : String) (members : List (String × Value ι)) :
    lookup? key (eraseMembers members) = (lookup? key members).map erase := by
  induction members with
  | nil => rfl
  | cons entry rest ih =>
      rw [eraseMembers, lookup?, lookup?, ih]
      split <;> rfl

/-- Erasing labels does not change whether members are **those of a node**. -/
theorem areOfNode_eraseMembers (members : List (String × Value ι)) :
    areOfNode (eraseMembers members) = areOfNode members := by
  rw [areOfNode, areOfNode, lookup?_eraseMembers]
  cases lookup? "type" members with
  | none => rfl
  | some v => cases v <;> rfl

/-- Erasing labels **commutes** with normalising a type. -/
theorem erase_normaliseType (v : Value ι) : v.normaliseType.erase = v.erase.normaliseType := by
  cases v <;> simp [normaliseType, erase]

/-- Erasing labels **commutes** with normalising the members of an object, if it does so for their
values. -/
theorem eraseMembers_normaliseMembers {members : List (String × Value ι)}
    (h : ∀ key v, (key, v) ∈ members → (v.normaliseUnder key).erase = v.erase.normaliseUnder key)
    (hasValue : Bool) :
    eraseMembers (normaliseMembers hasValue members) =
      normaliseMembers hasValue (eraseMembers members) := by
  induction members with
  | nil => rw [normaliseMembers, eraseMembers, normaliseMembers]
  | cons entry rest ih =>
      obtain ⟨key, v⟩ := entry
      have hrest := ih fun k w hw => h k w (List.mem_cons_of_mem _ hw)
      rw [eraseMembers, normaliseMembers_cons, normaliseMembers_cons]
      split
      · exact hrest
      · rw [eraseMembers, h key v List.mem_cons_self, hrest]

/-- Normal forms are the same **without labels**. -/
theorem erase_normalise (v : Value ι) :
    v.normalise.erase = v.erase.normalise ∧
      ∀ key, (v.normaliseUnder key).erase = v.erase.normaliseUnder key := by
  -- under a key a list is normalised item by item, and anything else as a value of its own
  have hunder : ∀ v : Value ι, v.normalise.erase = v.erase.normalise →
      (∀ items, v = .arr items → ∀ w ∈ items, w.normalise.erase = w.erase.normalise) →
      ∀ key, (v.normaliseUnder key).erase = v.erase.normaliseUnder key := by
    intro v hv hitems key
    by_cases htype : key = "type"
    · rw [normaliseUnder.eq_def, normaliseUnder.eq_def, if_pos htype, if_pos htype,
        erase_normaliseType]
    · cases hskipped : isSkipped key with
      | true =>
          rw [normaliseUnder.eq_def, normaliseUnder.eq_def, if_neg htype, if_neg htype, hskipped,
            if_pos rfl, if_pos rfl]
      | false =>
          rw [normaliseUnder_of_part hskipped, normaliseUnder_of_part hskipped]
          cases v with
          | arr items =>
              simp only [erase, eraseItems_eq, List.map_map]
              exact congrArg _ (List.map_congr_left fun w hw => hitems items rfl w hw)
          | _ => exact hv
  induction v using induction_parts with
  | atom v hatom =>
      have hv : v.normalise.erase = v.erase.normalise := by
        cases v <;> first | rfl | cases hatom
      refine ⟨hv, hunder v hv ?_⟩
      rintro items rfl
      cases hatom
  | arr items ih =>
      have hv : (Value.arr items).normalise.erase = (Value.arr items).erase.normalise := by
        rw [normalise, erase, normalise] <;> rintro _ _ ⟨⟩
      refine ⟨hv, hunder _ hv ?_⟩
      rintro _ ⟨⟩ w hw
      exact (ih w hw).1
  | obj l members ih =>
      have hv : (Value.obj l members).normalise.erase = (Value.obj l members).erase.normalise := by
        rw [erase, normalise, normalise, areOfNode_eraseMembers, lookup?_eraseMembers,
          Option.isSome_map]
        split
        · rw [erase, eraseMembers_normaliseMembers fun key v hv => (ih key v hv).2 key]
        · rw [erase]
      exact ⟨hv, hunder _ hv (by rintro _ ⟨⟩)⟩

/-- Erasing labels **commutes** with normalising the value of a key. -/
theorem erase_normaliseUnder (key : String) (v : Value ι) :
    (v.normaliseUnder key).erase = v.erase.normaliseUnder key := (erase_normalise v).2 key

end Value

namespace NodeDocument

/-- The normal form of a node document. -/
def normalise (d : NodeDocument) : NodeDocument :=
  ⟨d.label, normalType d.type, Value.normaliseMembers (d.get? "value").isSome d.members⟩

end NodeDocument

/-- The normal form of a value describes a node **if the value does**, and then its normal form. -/
theorem Value.node?_normalise (v : Document) :
    v.normalise.node? = v.node?.map NodeDocument.normalise := by
  cases v with
  | obj label members =>
      have hlookup : ∀ hasValue, lookup? "type" (normaliseMembers hasValue members) =
          (lookup? "type" members).map (normaliseUnder "type") := fun hasValue =>
        lookup?_normaliseMembers rfl hasValue members
      rw [normalise, areOfNode]
      cases htype : lookup? "type" members with
      | none => simp [node?, htype]
      | some w =>
          rw [htype] at hlookup
          cases w with
          | str type =>
              simp [node?, htype, hlookup, NodeDocument.normalise, NodeDocument.get?, str?,
                normaliseUnder, normaliseType]
          | _ => simp [node?, htype, str?]
  | _ => rfl

/-- The part made of the images of the nodes. -/
def Part.map {α β : Type} (f : α → β) : Part α → Part β
  | .one a => .one (f a)
  | .many as => .many (as.map f)

/-- The nodes of a mapped part are the **images** of its nodes. -/
theorem Part.toList_map {α β : Type} (f : α → β) (part : Part α) :
    (part.map f).toList = part.toList.map f := by
  cases part <;> rfl

namespace NodeDocument

variable {key : String}

/-- A value that is no list contributes the node that it is. -/
theorem ofValue?_eq_map_node? {v : Document} (h : ∀ items, v ≠ .arr items) :
    Part.ofValue? v = v.node?.map .one := by
  rcases ofValue?_cases v with ⟨c, hnode, hpart, -⟩ | ⟨items, hlist, -⟩ | ⟨hnode, hpart, -⟩
  · rw [hnode, hpart, Option.map_some]
  · exact absurd hlist (h items)
  · rw [hnode, hpart, Option.map_none]

/-- Under a key that is not skipped, the nodes of a normalised value are those of the value **in
normal form**. -/
theorem ofValue?_normaliseUnder (hskipped : isSkipped key = false) (v : Document) :
    Part.ofValue? (v.normaliseUnder key) = (Part.ofValue? v).map (Part.map normalise) := by
  rw [Value.normaliseUnder_of_part hskipped]
  cases v with
  | arr items =>
      have hnodes : (items.map Value.normalise).filterMap Value.node? =
          (items.filterMap Value.node?).map normalise := by
        rw [List.filterMap_map, List.map_filterMap]
        exact List.filterMap_congr fun v _ => v.node?_normalise
      exact congrArg (fun nodes => some (Part.many nodes)) hnodes
  | obj label members =>
      have hlist : ∀ items, (Value.obj label members).normalise ≠ .arr items := by
        intro items
        rw [Value.normalise]
        split <;> rintro ⟨⟩
      rw [ofValue?_eq_map_node? hlist, ofValue?_eq_map_node? (by rintro _ ⟨⟩),
        Value.node?_normalise, Option.map_map, Option.map_map]
      rfl
  | _ => rfl

/-- The **parts** of the normal form are the normal forms of the parts, under their present keys. -/
theorem parts_normalise (d : NodeDocument) :
    d.normalise.parts = d.parts.map fun part =>
      (normalKey (d.get? "value").isSome part.1, part.2.map normalise) := by
  rw [parts, parts, normalise]
  dsimp only
  generalize (d.get? "value").isSome = hasValue
  induction d.members with
  | nil => rw [Value.normaliseMembers, partsOf, List.map_nil]
  | cons entry rest ih =>
      obtain ⟨key, v⟩ := entry
      rw [Value.normaliseMembers_cons, partsOf]
      cases hskipped : isSkipped key with
      | true =>
          have hkey : normalKey hasValue key = key := by
            refine if_neg fun h => ?_
            rw [h.1] at hskipped
            cases hskipped
          rw [if_pos rfl, ← ih, hkey]
          split
          · rfl
          · rw [partsOf, hskipped, if_pos rfl]
      | false =>
          have hdropped : isDropped key = false := isDropped_eq_false hskipped
          have hkey : isSkipped (normalKey hasValue key) = false := by
            rw [normalKey]
            split
            · rfl
            · exact hskipped
          rw [hdropped, if_neg Bool.false_ne_true, if_neg Bool.false_ne_true, partsOf, hkey,
            if_neg Bool.false_ne_true, ofValue?_normaliseUnder hskipped, ih]
          cases Part.ofValue? v <;> rfl

/-- The **children** of the normal form are the normal forms of the children. -/
theorem children_normalise (d : NodeDocument) :
    d.normalise.children = d.children.map normalise := by
  rw [children, parts_normalise, children, List.flatMap_map, List.map_flatMap]
  exact List.flatMap_congr fun part _ => Part.toList_map _ _

/-- What is found under a key that is kept is in its **normal form**. -/
theorem get?_normalise (hkept : isKept key) (d : NodeDocument) :
    d.normalise.get? key = (d.get? key).map (Value.normaliseUnder key) :=
  Value.lookup?_normaliseMembers hkept _ d.members

/-- A key that is kept has its value **in normal form**. -/
theorem getD_normalise (hkept : isKept key) (htype : key ≠ "type") (d : NodeDocument) :
    d.normalise.getD key = (d.getD key).normaliseUnder key := by
  rw [getD, get?_normalise hkept, getD]
  cases d.get? key with
  | none => exact (Value.normaliseUnder_of_isAtom htype rfl).symm
  | some v => rfl

/-! ### Attributes -/

/-- The normal form of an object has **the same kind**. -/
theorem kind_normalise (d : NodeDocument) : d.normalise.kind = d.kind := by
  change Kind.ofType (normalType d.type) = Kind.ofType d.type
  rw [normalType]
  split
  · next h =>
    rw [h]
    rfl
  · rfl

/-- The normal form of an object is **at the same place**. -/
theorem span_normalise (d : NodeDocument) : d.normalise.span = d.span := by
  have hsame : ∀ key ∈ ["range", "start", "end", "loc"], d.normalise.getD key = d.getD key := by
    intro key hkey
    have hkeys : ∀ key ∈ ["range", "start", "end", "loc"],
        isKept key ∧ key ≠ "type" ∧ isSkipped key := by decide
    obtain ⟨hkept, htype, hskipped⟩ := hkeys key hkey
    rw [getD_normalise hkept htype, Value.normaliseUnder.eq_def, if_neg htype, if_pos hskipped]
  rw [span, span, hsame "range" (by decide), hsame "start" (by decide), hsame "end" (by decide),
    hsame "loc" (by decide)]

/-- A reader that does not look into lists and objects **reads the same**. -/
theorem read_getD_normalise {α : Type} {read : Document → α}
    (harr : ∀ items items', read (.arr items) = read (.arr items'))
    (hobj : ∀ label members members', read (.obj label members) = read (.obj label members'))
    (hkept : isKept key) (htype : key ≠ "type") (d : NodeDocument) :
    read (d.normalise.getD key) = read (d.getD key) := by
  rw [getD_normalise hkept htype]
  rcases (d.getD key).normaliseUnder_cases htype with h | ⟨_, _, hv, h⟩ | ⟨_, _, _, hv, h⟩
  · rw [h]
  · rw [h, hv, harr]
  · rw [h, hv, hobj]

/-- The normal form of an object has **the same modifiers**. -/
theorem modifiers_normalise (d : NodeDocument) : d.normalise.modifiers = d.modifiers := by
  have hflag : ∀ key, isKept key → key ≠ "type" →
      (d.normalise.getD key).isTrue = (d.getD key).isTrue := fun key hkept htype =>
    read_getD_normalise (fun _ _ => rfl) (fun _ _ _ => rfl) hkept htype d
  have hword : (d.normalise.getD "accessibility").str? = (d.getD "accessibility").str? :=
    read_getD_normalise (fun _ _ => rfl) (fun _ _ _ => rfl) rfl (by decide) d
  rw [modifiers, modifiers, hflag "abstract" rfl (by decide), hflag "static" rfl (by decide),
    hflag "readonly" rfl (by decide), hword, hflag "computed" rfl (by decide)]

end NodeDocument

end TreeLint
