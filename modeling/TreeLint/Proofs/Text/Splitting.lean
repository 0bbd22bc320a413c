import Mathlib.Data.String.Basic

/-!
# Texts Cut at a Character

A text is cut by a machine that walks over its byte positions and keeps the place of the last cut.
At a place between two characters the machine has read some of them since that cut, and each
character that comes next either joins them or cuts them off. So it cuts a text as a list of
characters is cut, and lines that are joined can be had back.

## Main results

* `splitOn_singleton`: a text is cut at a character as the list of its characters is.
* `splitOn_intercalate`: lines that are joined are found again.
-/

namespace TreeLint.Text

open String (ofList utf8Len)

section Machine

/-! ### The machine

The characters `before` the last cut, those read since (`current`), and the `rest`. -/

variable (c : Char) (before current rest : List Char) (cuts : List String)

/-- At the end of the text, the last piece is **what has been gathered**. -/
theorem splitOnAux_end :
    String.splitOnAux (ofList (before ++ current)) (.singleton c) ⟨utf8Len before⟩
        ⟨utf8Len (before ++ current)⟩ 0 cuts = (ofList current :: cuts).reverse := by
  have hend : (ofList (before ++ current)).rawEndPos ≤ ⟨utf8Len (before ++ current)⟩ := by
    rw [String.rawEndPos_ofList]
    exact Nat.le_refl _
  have hcut := String.extract_of_valid before current []
  rw [List.append_nil, ← String.utf8Len_append] at hcut
  rw [String.splitOnAux, if_pos ((String.atEnd_iff ..).mpr hend)]
  dsimp only
  rw [hcut]

/-- The next character **cuts off** what was read, or joins it. -/
theorem splitOnAux_step (d : Char) :
    String.splitOnAux (ofList (before ++ current ++ d :: rest)) (.singleton c) ⟨utf8Len before⟩
        ⟨utf8Len (before ++ current)⟩ 0 cuts =
      if d = c then
        String.splitOnAux (ofList (before ++ current ++ d :: rest)) (.singleton c)
          ⟨utf8Len (before ++ current ++ [d])⟩ ⟨utf8Len (before ++ current ++ [d])⟩ 0
          (ofList current :: cuts)
      else
        String.splitOnAux (ofList (before ++ current ++ d :: rest)) (.singleton c)
          ⟨utf8Len before⟩ ⟨utf8Len (before ++ current ++ [d])⟩ 0 cuts := by
  have hend : ¬ (ofList (before ++ current ++ d :: rest)).rawEndPos ≤
      ⟨utf8Len (before ++ current)⟩ := by
    have := d.utf8Size_pos
    rw [String.rawEndPos_ofList, String.utf8Len_append _ (d :: rest), String.utf8Len_cons,
      String.Pos.Raw.mk_le_mk]
    omega
  have hget := String.get_of_valid (before ++ current) (d :: rest)
  have hgetSep : String.Pos.Raw.get (.singleton c) 0 = c := String.get_of_valid [] [c]
  have hnext : String.Pos.Raw.next (ofList (before ++ current ++ d :: rest))
      ⟨utf8Len (before ++ current)⟩ = ⟨utf8Len (before ++ current ++ [d])⟩ := by
    rw [String.next_of_valid, String.utf8Len_append _ [d]]
    simp
  rw [String.splitOnAux, if_neg (mt (String.atEnd_iff ..).mp hend), hget, hgetSep]
  by_cases hd : d = c
  · subst hd
    have hnextSep : String.Pos.Raw.next (.singleton d) 0 = ⟨d.utf8Size⟩ := by
      simpa using String.next_of_valid [] d []
    have hendSep : String.Pos.Raw.atEnd (.singleton d) ⟨d.utf8Size⟩ := by
      have hsize : (String.singleton d).rawEndPos = ⟨d.utf8Size⟩ := by
        simpa using String.rawEndPos_ofList [d]
      rw [String.atEnd_iff, hsize]
      exact Nat.le_refl _
    -- the separator is over after one character, so what was gathered ends before it
    have hback : (⟨utf8Len (before ++ current ++ [d])⟩ : String.Pos.Raw).unoffsetBy
        ⟨d.utf8Size⟩ = ⟨utf8Len (before ++ current)⟩ := by
      rw [String.utf8Len_append _ [d]]
      simp [String.Pos.Raw.unoffsetBy]
    have hcut := String.extract_of_valid before current (d :: rest)
    rw [← String.utf8Len_append] at hcut
    simp only [List.headD_cons, beq_self_eq_true, if_true, hnext, hnextSep, hendSep, hback, hcut]
  · have hback : (⟨utf8Len (before ++ current)⟩ : String.Pos.Raw).unoffsetBy 0 =
        ⟨utf8Len (before ++ current)⟩ := rfl
    simp only [List.headD_cons, beq_false_of_ne hd, Bool.false_eq_true, if_false, hback, hnext,
      if_neg hd]

/-- From any place on, the machine cuts **as a list is cut**. -/
theorem splitOnAux_eq :
    String.splitOnAux (ofList (before ++ current ++ rest)) (.singleton c) ⟨utf8Len before⟩
        ⟨utf8Len (before ++ current)⟩ 0 cuts =
      cuts.reverse ++ (List.splitOnPPrepend (· == c) rest current.reverse).map ofList := by
  induction rest generalizing before current cuts with
  | nil =>
      rw [List.append_nil, splitOnAux_end]
      simp
  | cons d rest ih =>
      rw [splitOnAux_step, List.splitOnPPrepend_cons_eq_if]
      by_cases hd : d = c
      · subst hd
        have hcut := ih (before ++ current ++ [d]) [] (ofList current :: cuts)
        rw [List.append_nil, List.append_assoc _ [d], List.singleton_append,
          List.reverse_cons] at hcut
        rw [if_pos rfl, if_pos (beq_self_eq_true d), hcut, List.splitOnP_eq_splitOnPPrepend]
        simp
      · have hjoined := ih before (current ++ [d]) cuts
        rw [← List.append_assoc, List.append_assoc _ [d], List.singleton_append,
          List.reverse_concat] at hjoined
        rw [if_neg hd, if_neg (by simpa using hd), hjoined]

end Machine

/-- A text is **cut at a character** as the list of its characters is. -/
theorem splitOn_singleton (s : String) (c : Char) :
    s.splitOn (.singleton c) = (s.toList.splitOn c).map ofList := by
  have hne : (String.singleton c == "") = false := by simp
  have hcuts := splitOnAux_eq c [] [] s.toList []
  rw [List.nil_append, List.nil_append, String.ofList_toList] at hcuts
  rw [String.splitOn, hne, List.splitOn_eq_splitOnP, List.splitOnP_eq_splitOnPPrepend]
  exact hcuts

/-- **Lines that are joined** are found again. -/
theorem splitOn_intercalate {c : Char} {lines : List String} (hne : lines ≠ [])
    (h : ∀ line ∈ lines, c ∉ line.toList) :
    ((String.singleton c).intercalate lines).splitOn (.singleton c) = lines := by
  rw [splitOn_singleton, String.toList_intercalate, String.toList_singleton,
    List.splitOn_intercalate c (List.forall_mem_map.mpr h) (by simpa using hne), List.map_map]
  simp [Function.comp_def]

end TreeLint.Text
