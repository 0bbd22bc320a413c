import Mathlib.Data.List.Basic
import TreeLint.Console.Printout

/-!
# Texts Printed As They Stand

A text that is printed without markup still passes through three changes: names between colons
become pictures, characters that move the cursor are dropped, and tabs become blanks. A text is
printed **as it stands** exactly if none of them finds anything to do and the text can be encoded
(`ofText_text_eq_iff`). This holds for any table of pictures.

Which names the search for pictures meets depends on the colons before them, since each colon
belongs to one name only: `pictureNames` lists them. A picture is not longer than its name with the
colons and has no colon itself, so a text in which a name has been replaced differs from what it was
where the first picture starts, or is shorter; what is dropped, and tabs, do not occur in anything
that is printed.

## Main results

* `Pictures.replace_eq_self_iff`: no name that is met is the name of a picture.
* `flatMap_splitLines`: the lines of a text, each with a line feed, are the text.
* `of_mem_expandTabs`: no tab is left in a line.
* `plainChars_eq_iff`, `ofText_text_eq_iff`: when a text is printed as it stands.
-/

namespace TreeLint.Console

/-! ### Pictures -/

/-- The **names between colons** that are looked up as pictures, from the left. A colon that ends a
name starts none, and a name has no blank. `name` holds the characters since the last colon, in
reverse, if they can be a name. -/
def pictureNames (name : Option (List Char)) : List Char → List (List Char)
  | [] => []
  | c :: rest =>
    match name with
    | none => if c = ':' then pictureNames (some []) rest else pictureNames none rest
    | some name =>
      if c = ':' then name.reverse :: pictureNames none rest
      else if Text.isBlank c then pictureNames none rest
      else pictureNames (some (c :: name)) rest

/-- The characters before the rest of the text in the search for pictures. -/
def scanned (acc : List Char) : Option (List Char) → List Char
  | some name => (name ++ ':' :: acc).reverse
  | none => acc.reverse

namespace Pictures

variable {pictures : Pictures}

/-- A picture is **not longer than its name** with the colons. -/
theorem length_le_of_find? {name picture : List Char} (h : pictures.find? name = some picture) :
    picture.length ≤ name.length + 2 :=
  of_decide_eq_true (Bool.and_eq_true_iff.mp (pictures.isPicture_of_find? h)).1

/-- A picture has no colon, and none of the characters that are changed later. -/
theorem of_mem_of_find? {name picture : List Char} (h : pictures.find? name = some picture)
    {c : Char} (hc : c ∈ picture) : c ≠ ':' ∧ c ≠ '\t' ∧ isDropped c = false := by
  have hall := (Bool.and_eq_true_iff.mp (pictures.isPicture_of_find? h)).2
  simpa [and_assoc] using List.all_eq_true.mp hall c hc

/-- Where no name is the name of a picture, **nothing is replaced**. -/
theorem replaceFrom_eq (acc : List Char) (name : Option (List Char)) (cs : List Char)
    (h : ∀ n ∈ pictureNames name cs, pictures.find? n = none) :
    pictures.replaceFrom acc name cs = scanned acc name ++ cs := by
  fun_induction pictures.replaceFrom acc name cs with
  | case1 | case2 => simp [scanned]
  | case3 acc rest ih => simpa [scanned] using ih (by simpa [pictureNames] using h)
  | case4 acc c rest hc ih => simpa [scanned] using ih (by simpa [pictureNames, hc] using h)
  | case5 acc rest name picture hpicture ih =>
      have hnone := h name.reverse (by simp [pictureNames])
      rw [hpicture] at hnone
      cases hnone
  | case6 acc rest name hnone ih =>
      simpa [scanned] using ih fun n hn => h n (by simp [pictureNames, hn])
  | case7 acc c rest name hc hblank ih =>
      simpa [scanned] using ih (by simpa [pictureNames, hc, hblank] using h)
  | case8 acc c rest name hc hblank ih =>
      simpa [scanned] using ih (by simpa [pictureNames, hc, hblank] using h)

/-- Replacing names makes a text **no longer**. -/
theorem length_replaceFrom_le (acc : List Char) (name : Option (List Char)) (cs : List Char) :
    (pictures.replaceFrom acc name cs).length ≤ (scanned acc name).length + cs.length := by
  fun_induction pictures.replaceFrom acc name cs with
  | case5 acc rest name picture hpicture ih =>
      have hlength := length_le_of_find? hpicture
      simp [scanned] at ih hlength ⊢
      omega
  | case1 | case2 => simp [scanned]
  | case3 _ _ ih | case4 _ _ _ _ ih | case6 _ _ _ _ ih | case7 _ _ _ _ _ _ ih
  | case8 _ _ _ _ _ _ ih =>
      simp [scanned] at ih ⊢
      omega

/-- What was scanned before stays **in front**. -/
theorem prefix_replaceFrom (acc : List Char) (name : Option (List Char)) (cs : List Char) :
    acc.reverse <+: pictures.replaceFrom acc name cs := by
  fun_induction pictures.replaceFrom acc name cs with
  | case1 | case2 => simp
  | case3 _ _ ih | case8 _ _ _ _ _ _ ih => exact ih
  | case4 acc _ _ _ ih | case5 acc _ _ _ _ ih | case6 acc _ _ _ ih
  | case7 acc _ _ _ _ _ ih =>
      refine .trans ?_ ih
      simp

/-- A text in which a name has been replaced **is another**. Where the picture starts there was a
colon, which no picture has; a picture of no characters leaves the text shorter. -/
theorem replaceFrom_ne (acc : List Char) (name : Option (List Char)) (cs : List Char)
    (h : ∃ n ∈ pictureNames name cs, pictures.find? n ≠ none) :
    pictures.replaceFrom acc name cs ≠ scanned acc name ++ cs := by
  fun_induction pictures.replaceFrom acc name cs with
  | case5 acc rest name picture hpicture ih =>
      intro heq
      obtain ⟨more, hmore⟩ := @prefix_replaceFrom pictures (picture.reverse ++ acc) none rest
      have hle := @length_replaceFrom_le pictures (picture.reverse ++ acc) none rest
      rw [heq] at hmore hle
      cases picture with
      | nil =>
          simp [scanned] at hle
          omega
      | cons c picture =>
          have hcolon : c = ':' := by simpa [scanned] using congrArg (·[acc.length]?) hmore
          exact (of_mem_of_find? hpicture List.mem_cons_self).1 hcolon
  | case1 | case2 => simp [pictureNames] at h
  | case3 acc rest ih => simpa [scanned] using ih (by simpa [pictureNames] using h)
  | case4 acc c rest hc ih => simpa [scanned] using ih (by simpa [pictureNames, hc] using h)
  | case6 acc rest name hnone ih =>
      simpa [scanned] using ih (by simpa [pictureNames, hnone] using h)
  | case7 acc c rest name hc hblank ih | case8 acc c rest name hc hblank ih =>
      simpa [scanned] using ih (by simpa [pictureNames, hc, hblank] using h)

/-- A text is **left alone** exactly if no name that is looked up is the name of a picture. -/
theorem replace_eq_self_iff {cs : List Char} :
    pictures.replace cs = cs ↔ ∀ n ∈ pictureNames none cs, pictures.find? n = none := by
  constructor
  · intro h
    by_contra hnot
    push Not at hnot
    exact replaceFrom_ne [] none cs hnot h
  · exact replaceFrom_eq [] none cs

/-- What is printed after the search for pictures was there before, or **is of a picture**. -/
theorem mem_replaceFrom {acc : List Char} {name : Option (List Char)} {cs : List Char}
    {c : Char} (h : c ∈ pictures.replaceFrom acc name cs) :
    c ∈ scanned acc name ∨ c ∈ cs ∨ (c ≠ '\t' ∧ isDropped c = false) := by
  fun_induction pictures.replaceFrom acc name cs with
  | case5 acc rest name picture hpicture ih =>
      rcases ih h with hc | hc | hc
      · rcases List.mem_append.mp (List.mem_reverse.mp hc) with hc | hc
        · exact .inr (.inr (of_mem_of_find? hpicture (List.mem_reverse.mp hc)).2)
        · exact .inl (by simp [scanned, hc])
      · exact .inr (.inl (List.mem_cons_of_mem _ hc))
      · exact .inr (.inr hc)
  | case1 | case2 => exact .inl h
  | case3 _ _ ih | case4 _ _ _ _ ih | case6 _ _ _ _ ih | case7 _ _ _ _ _ _ ih
  | case8 _ _ _ _ _ _ ih =>
      have hmem := ih h
      simp only [scanned, List.mem_reverse, List.mem_append, List.mem_cons] at hmem ⊢
      tauto

end Pictures

/-! ### Lines -/

namespace StyledText

/-- The pieces of a text have **its characters** only. -/
theorem mem_of_mem_cutAt {start : ℕ} {cs : List Char} {offsets : List ℕ} {p : ℕ × List Char}
    (hp : p ∈ cutAt start cs offsets) {c : Char} (hc : c ∈ p.2) : c ∈ cs := by
  induction offsets generalizing start cs with
  | nil =>
      obtain rfl := List.mem_singleton.mp hp
      exact hc
  | cons offset offsets ih =>
      rw [cutAt, List.splitAt_eq] at hp
      rcases List.mem_cons.mp hp with rfl | hp
      · exact List.mem_of_mem_take hc
      · exact List.mem_of_mem_drop (ih hp)

/-- A character has no offsets in a text exactly if it **does not occur**. -/
theorem offsetsOf_eq_nil_iff {c : Char} {offset : ℕ} {cs : List Char} :
    offsetsOf c offset cs = [] ↔ c ∉ cs := by
  induction cs generalizing offset with
  | nil => simp [offsetsOf]
  | cons d cs ih =>
      by_cases hd : d = c
      · simp [offsetsOf, hd]
      · simp [offsetsOf, hd, ih, Ne.symm hd]

/-- Cut before and after each line feed, a text falls into its lines and the line feeds. `line` is
the part of the first line that has been passed. -/
theorem flatMap_cutAt_feeds (start : ℕ) (line cs : List Char) (hline : '\n' ∉ line) :
    ((cutAt start (line ++ cs) ((offsetsOf '\n' (start + line.length) cs).flatMap
      fun o => [o, o + 1])).filter fun p => p.2 != ['\n']).flatMap (fun p => p.2 ++ ['\n']) =
        line ++ cs ++ ['\n'] := by
  induction cs generalizing start line with
  | nil =>
      have hne : line ≠ ['\n'] := by
        rintro rfl
        exact hline List.mem_cons_self
      simp [offsetsOf, cutAt, hne]
  | cons c cs ih =>
      by_cases hc : c = '\n'
      · subst hc
        have hne : line ≠ ['\n'] := by
          rintro rfl
          exact hline List.mem_cons_self
        have hcut (offsets : List ℕ) : cutAt start (line ++ '\n' :: cs)
            ((start + line.length) :: (start + line.length + 1) :: offsets) =
              (start, line) :: (start + line.length, ['\n']) ::
                cutAt (start + line.length + 1) cs offsets := by
          simp [cutAt, List.splitAt_eq]
        have hrest := ih (start + line.length + 1) [] List.not_mem_nil
        rw [offsetsOf, if_pos rfl, List.flatMap_cons, List.cons_append, List.singleton_append, hcut]
        simp [hne] at hrest ⊢
        exact hrest
      · have hpassed := ih start (line ++ [c]) (by simpa [Ne.symm hc] using hline)
        rw [List.length_append, List.length_singleton] at hpassed
        simpa [offsetsOf, hc, ← Nat.add_assoc] using hpassed

/-- The lines of a text, each with a line feed, are **the text**. -/
theorem flatMap_splitLines (t : StyledText) :
    t.splitLines.flatMap (fun line => line.chars ++ ['\n']) = t.chars ++ ['\n'] := by
  rw [splitLines]
  split
  · simp
  · have h := flatMap_cutAt_feeds 0 [] t.chars (by simp)
    simpa [List.flatMap_map, piece] using h

/-- The lines of a text have **its characters** only. -/
theorem mem_of_mem_splitLines {t line : StyledText} (hline : line ∈ t.splitLines) {c : Char}
    (hc : c ∈ line.chars) : c ∈ t.chars := by
  rw [splitLines] at hline
  split at hline
  · obtain rfl := List.mem_singleton.mp hline
    exact hc
  · obtain ⟨p, hp, rfl⟩ := List.mem_map.mp hline
    exact mem_of_mem_cutAt (List.mem_of_mem_filter hp) hc

/-! ### Tabs -/

/-- A text without tabs is **not changed** by expanding them. -/
theorem expandTabs_of_notMem {t : StyledText} (h : '\t' ∉ t.chars) : t.expandTabs = t := by
  rw [expandTabs, offsetsOf_eq_nil_iff.mpr h]
  rfl

/-- Cut after each tab, a text falls into pieces that have a tab **at the end** only. -/
theorem tab_notMem_dropLast_of_mem_cutAt (start : ℕ) (piece cs : List Char) (hpiece : '\t' ∉ piece)
    {p : ℕ × List Char}
    (hp : p ∈ cutAt start (piece ++ cs) ((offsetsOf '\t' (start + piece.length) cs).map (· + 1))) :
    '\t' ∉ p.2.dropLast := by
  induction cs generalizing start piece with
  | nil =>
      obtain rfl : p = (start, piece) := by simpa [offsetsOf, cutAt] using hp
      exact fun h => hpiece ((List.dropLast_sublist piece).subset h)
  | cons c cs ih =>
      by_cases hc : c = '\t'
      · subst hc
        have hcut (offsets : List ℕ) :
            cutAt start (piece ++ '\t' :: cs) ((start + piece.length + 1) :: offsets) =
              (start, piece ++ ['\t']) :: cutAt (start + piece.length + 1) cs offsets := by
          simp [cutAt, List.splitAt_eq, Nat.add_assoc, List.take_append, List.take_of_length_le]
        rw [offsetsOf, if_pos rfl, List.map_cons, hcut] at hp
        rcases List.mem_cons.mp hp with rfl | hp
        · rwa [List.dropLast_concat]
        · exact ih (start + piece.length + 1) [] List.not_mem_nil hp
      · refine ih start (piece ++ [c]) (by simpa [Ne.symm hc] using hpiece) ?_
        simpa [offsetsOf, hc, ← Nat.add_assoc] using hp

/-- Joined texts have **the characters of all**. -/
theorem joinFrom_fst (offset : ℕ) (ts : List StyledText) :
    (joinFrom offset ts).1 = ts.flatMap StyledText.chars := by
  induction ts generalizing offset with
  | nil => rfl
  | cons t ts ih =>
      rw [joinFrom, List.flatMap_cons, ← ih]

/-- In place of a tab there are **blanks**. -/
theorem of_mem_expandTab {column : ℕ} {t : StyledText} {c : Char}
    (hc : c ∈ (expandTab column t).1.chars) : c ∈ t.chars.dropLast ∨ c = ' ' := by
  rw [expandTab] at hc
  dsimp only at hc
  split at hc
  · exact (List.mem_append.mp hc).imp_right List.mem_singleton.mp
  · rcases List.mem_append.mp hc with hc | hc
    · exact (List.mem_append.mp hc).imp_right List.mem_singleton.mp
    · exact .inr (List.eq_of_mem_replicate hc)

/-- Pieces with a tab at the end only have **no tab** once it is expanded, and nothing new but
blanks. -/
theorem of_mem_expandPieces {ts : List StyledText} (h : ∀ t ∈ ts, '\t' ∉ t.chars.dropLast)
    {column : ℕ} {c : Char} (hc : c ∈ (expandPieces column ts).flatMap StyledText.chars) :
    c ≠ '\t' ∧ ((∃ t ∈ ts, c ∈ t.chars) ∨ c = ' ') := by
  induction ts generalizing column with
  | nil => cases hc
  | cons t ts ih =>
      obtain ⟨ht, hts⟩ := List.forall_mem_cons.mp h
      have hlater {column : ℕ} (hc : c ∈ (expandPieces column ts).flatMap StyledText.chars) :
          c ≠ '\t' ∧ ((∃ u ∈ t :: ts, c ∈ u.chars) ∨ c = ' ') := by
        obtain ⟨hne, hmem⟩ := ih hts hc
        refine ⟨hne, hmem.imp_left ?_⟩
        rintro ⟨u, hu, hcu⟩
        exact ⟨u, List.mem_cons_of_mem t hu, hcu⟩
      rw [expandPieces] at hc
      split at hc
      · rcases List.mem_append.mp hc with hc | hc
        · rcases of_mem_expandTab hc with hc | rfl
          · exact ⟨fun htab => ht (htab ▸ hc),
              .inl ⟨t, List.mem_cons_self, (List.dropLast_sublist _).subset hc⟩⟩
          · exact ⟨by decide, .inr rfl⟩
        · exact hlater hc
      · next hlast =>
        rcases List.mem_append.mp hc with hc | hc
        · refine ⟨?_, .inl ⟨t, List.mem_cons_self, hc⟩⟩
          rintro rfl
          -- The tab is not among the characters before the last, and it is not the last one.
          rcases List.eq_nil_or_concat' t.chars with hnil | ⟨front, last, hchars⟩
          · rw [hnil] at hc
            cases hc
          · rw [hchars, List.dropLast_concat] at ht
            rw [hchars, List.getLast?_concat] at hlast
            rw [hchars] at hc
            rcases List.mem_append.mp hc with hc | hc
            · exact ht hc
            · exact hlast (congrArg some (List.mem_singleton.mp hc).symm)
        · exact hlater hc

/-- **No tab** is left in a line, and nothing new but blanks. -/
theorem of_mem_expandTabs {t : StyledText} {c : Char} (hc : c ∈ t.expandTabs.chars) :
    c ≠ '\t' ∧ (c ∈ t.chars ∨ c = ' ') := by
  by_cases htab : '\t' ∈ t.chars
  · have hoffsets : (offsetsOf '\t' 0 t.chars).isEmpty = false := by
      rw [List.isEmpty_eq_false_iff]
      exact fun h => offsetsOf_eq_nil_iff.mp h htab
    have hdivide : t.divide ((offsetsOf '\t' 0 t.chars).map (· + 1)) =
        (cutAt 0 t.chars ((offsetsOf '\t' 0 t.chars).map (· + 1))).map
          fun p => t.piece p.1 p.2 := by
      rw [divide, List.isEmpty_map, hoffsets]
      rfl
    rw [expandTabs, hoffsets] at hc
    simp only [Bool.false_eq_true, if_false, joinFrom_fst, hdivide] at hc
    have hpieces : ∀ u ∈ ((cutAt 0 t.chars ((offsetsOf '\t' 0 t.chars).map (· + 1))).map fun p =>
        t.piece p.1 p.2).filter fun p => !p.chars.isEmpty,
          '\t' ∉ u.chars.dropLast ∧ ∀ d ∈ u.chars, d ∈ t.chars := by
      intro u hu
      obtain ⟨p, hp, rfl⟩ := List.mem_map.mp (List.mem_of_mem_filter hu)
      exact ⟨tab_notMem_dropLast_of_mem_cutAt 0 [] t.chars List.not_mem_nil (by simpa using hp),
        fun d hd => mem_of_mem_cutAt hp hd⟩
    obtain ⟨hne, hmem⟩ := of_mem_expandPieces (fun u hu => (hpieces u hu).1) hc
    refine ⟨hne, hmem.imp_left ?_⟩
    rintro ⟨u, hu, hcu⟩
    exact (hpieces u hu).2 c hcu
  · rw [expandTabs_of_notMem htab] at hc
    exact ⟨fun h => htab (h ▸ hc), .inl hc⟩

end StyledText

/-! ### What is printed -/

/-- A text in which there is **nothing to change**: no tab, no character that is dropped, and no
name of a picture between colons. -/
structure IsVerbatim (pictures : Pictures) (cs : List Char) : Prop where
  tabs : '\t' ∉ cs
  controls : ∀ c ∈ cs, isDropped c = false
  pictures : ∀ name ∈ pictureNames none cs, pictures.find? name = none

namespace Printout

variable {pictures : Pictures} {text : String}

/-- What is printed for a text has **no tab** and nothing that is dropped. -/
theorem of_mem_plainChars {c : Char} (hc : c ∈ plainChars pictures text) :
    c ≠ '\t' ∧ isDropped c = false := by
  obtain ⟨line, hline, hc⟩ := List.mem_flatMap.mp hc
  rcases List.mem_append.mp hc with hc | hc
  · obtain ⟨hne, hmem | rfl⟩ := StyledText.of_mem_expandTabs hc
    · have hprintable := List.of_mem_filter (StyledText.mem_of_mem_splitLines hline hmem)
      exact ⟨hne, by simpa using hprintable⟩
    · exact ⟨hne, rfl⟩
  · obtain rfl := List.mem_singleton.mp hc
    exact ⟨by decide, rfl⟩

/-- A text without tabs and characters to drop, once its pictures are in place, is printed **with
a line feed** after it. -/
theorem plainChars_of_replace (htabs : '\t' ∉ pictures.replace text.toList)
    (hcontrols : ∀ c ∈ pictures.replace text.toList, isDropped c = false) :
    plainChars pictures text = pictures.replace text.toList ++ ['\n'] := by
  have hprintable : printable (pictures.replace text.toList) = pictures.replace text.toList :=
    List.filter_eq_self.mpr fun c hc => by simp [hcontrols c hc]
  rw [plainChars, hprintable]
  refine .trans (List.flatMap_congr fun line hline => ?_)
    (StyledText.flatMap_splitLines { chars := pictures.replace text.toList })
  rw [StyledText.expandTabs_of_notMem fun h => htabs (StyledText.mem_of_mem_splitLines hline h)]

/-- A text is printed **as it stands**, with a line feed after it, exactly if there is nothing to
change in it. -/
theorem plainChars_eq_iff :
    plainChars pictures text = text.toList ++ ['\n'] ↔ IsVerbatim pictures text.toList := by
  constructor
  · intro h
    have hclean (c : Char) (hc : c ∈ text.toList) : c ≠ '\t' ∧ isDropped c = false :=
      of_mem_plainChars (h ▸ List.mem_append_left _ hc)
    have hreplaced (c : Char) (hc : c ∈ pictures.replace text.toList) :
        c ≠ '\t' ∧ isDropped c = false := by
      rcases Pictures.mem_replaceFrom hc with hc | hc | hc
      · cases hc
      · exact hclean c hc
      · exact hc
    have hprinted := plainChars_of_replace (fun hc => (hreplaced _ hc).1 rfl)
      fun c hc => (hreplaced c hc).2
    rw [h] at hprinted
    exact ⟨fun hc => (hclean _ hc).1 rfl, fun c hc => (hclean c hc).2,
      Pictures.replace_eq_self_iff.mp (List.append_cancel_right hprinted).symm⟩
  · intro h
    have hreplaced := Pictures.replace_eq_self_iff.mpr h.pictures
    have hprinted := plainChars_of_replace (hreplaced.symm ▸ h.tabs) (hreplaced.symm ▸ h.controls)
    rwa [hreplaced] at hprinted

variable {display : Display}

/-- On a display, a text is printed **as it stands**, with a line feed after it, exactly if there is
nothing to change in it and it can be encoded. -/
theorem ofText_text_eq_iff :
    (ofText display text).text = text.toList ++ ['\n'] ↔
      IsVerbatim display.pictures text.toList ∧
        display.refusal? (text.toList ++ ['\n']) = none := by
  rw [← plainChars_eq_iff, ofText, ofChars]
  split
  · next hnone => exact ⟨fun h => ⟨h, h ▸ hnone⟩, And.left⟩
  · next hsome =>
    refine iff_of_false (by simp [failed]) ?_
    rintro ⟨h, hnone⟩
    rw [h, hnone] at hsome
    cases hsome

end Printout

end TreeLint.Console
