import Mathlib.Data.List.Basic
import Mathlib.Data.List.TakeDrop
import Mathlib.Data.Nat.Digits.Defs
import TreeLint.Json.Printer
import TreeLint.Json.Reader
import TreeLint.Proofs.Fallible

/-!
# Strings and Whole Numbers Read Back

What is written for a string or a whole number is read as that string or number, **whatever text
follows it**. A string is read character by character. A character that is written by its code
units is the delicate one: the reader looks ahead for the second half of a pair, so the escape of a
single unit must not be taken for a first half.

## Main results

* `readString_printString`: a string reads back.
* `readNumber?_toString`: a whole number reads back if nothing follows that would go on with it.
* `isVisible_printString`: a string is written with visible ASCII characters only.
-/

namespace TreeLint.Json

/-! ### Code units -/

/-- A digit in base sixteen stands for **its number**. -/
theorem hexValue?_digitChar {n : ℕ} (h : n < 16) : hexValue? n.digitChar = some n := by
  revert n
  decide

/-- The four digits of a code unit. -/
theorem hexPadded_four {n : ℕ} (h : n < 0x10000) :
    Text.hexPadded 4 n = [(n / 4096).digitChar, (n / 256 % 16).digitChar,
      (n / 16 % 16).digitChar, (n % 16).digitChar] := by
  have hdigits (m : ℕ) : Nat.toDigits 16 m =
      if m < 16 then [m.digitChar] else Nat.toDigits 16 (m / 16) ++ [(m % 16).digitChar] :=
    Nat.toDigits_eq_if (by decide)
  rw [Text.hexPadded, hdigits n]
  split
  · rw [show n / 4096 = 0 by omega, show n / 256 % 16 = 0 by omega,
      show n / 16 % 16 = 0 by omega, show n % 16 = n by omega]
    rfl
  rw [hdigits (n / 16)]
  split
  · rw [show n / 4096 = 0 by omega, show n / 256 % 16 = 0 by omega,
      show n / 16 % 16 = n / 16 by omega]
    rfl
  rw [hdigits (n / 16 / 16)]
  split
  · rw [show n / 4096 = 0 by omega, show n / 256 % 16 = n / 16 / 16 by omega]
    rfl
  rw [hdigits (n / 16 / 16 / 16), if_pos (by omega), show n / 4096 = n / 16 / 16 / 16 by omega,
    show n / 256 = n / 16 / 16 by omega]
  rfl

/-- Four digits in base sixteen stand for **their number**. -/
theorem hex4?_digits {n : ℕ} (h : n < 0x10000) :
    hex4? (n / 4096).digitChar (n / 256 % 16).digitChar (n / 16 % 16).digitChar
      (n % 16).digitChar = some n := by
  rw [hex4?, hexValue?_digitChar (by omega), hexValue?_digitChar (by omega),
    hexValue?_digitChar (by omega), hexValue?_digitChar (by omega)]
  exact congrArg some (by omega)

section Strings

variable {lone : ℕ → Char} {start acc rest : List Char}

/-- The escape of a unit that is no first half of a pair is read as **its character**, also where
another escape follows. -/
theorem readChars_unitEscape {n : ℕ} (hn : n < 0x10000) (hhigh : isHighUnit n = false)
    (hrest : rest ≠ []) :
    readChars lone start acc (unitEscape n ++ rest) =
      readChars lone start (ofUnit lone n :: acc) rest := by
  rw [unitEscape, hexPadded_four hn, List.cons_append, List.cons_append]
  simp only [List.cons_append, List.nil_append]
  rw [readChars.eq_4, hex4?_digits hn]
  simp only [hhigh, Bool.false_and]
  split
  · exact absurd rfl hrest
  · split <;> rfl
  · rfl

/-- The escapes of **a pair** are read as one character. -/
theorem readChars_unitPair {high low : ℕ} (hhigh : isHighUnit high) (hlow : isLowUnit low)
    (hrest : rest ≠ []) :
    readChars lone start acc (unitEscape high ++ unitEscape low ++ rest) =
      readChars lone start (ofUnitPair high low :: acc) rest := by
  have hhigh' : high < 0x10000 := by
    simp only [isHighUnit, Bool.and_eq_true, decide_eq_true_eq] at hhigh
    omega
  have hlow' : low < 0x10000 := by
    simp only [isLowUnit, Bool.and_eq_true, decide_eq_true_eq] at hlow
    omega
  obtain ⟨next, tail, rfl⟩ := List.exists_cons_of_ne_nil hrest
  simp only [unitEscape, hexPadded_four hhigh', hexPadded_four hlow', List.cons_append,
    List.nil_append]
  rw [readChars.eq_4, hex4?_digits hhigh']
  simp only [hex4?_digits hlow', hhigh, hlow, Bool.and_self, if_true]

/-! ### Characters and strings -/

/-- A short escape is read as the character that it stands for. -/
theorem readChars_shortEscape {letter c : Char} (h : shortEscape? letter = some c)
    (hletter : letter ≠ 'u') :
    readChars lone start acc ('\\' :: letter :: rest) = readChars lone start (c :: acc) rest := by
  rw [readChars.eq_5 _ _ _ _ _ fun _ _ _ _ _ hu => absurd hu hletter, h]

/-- A character of the first plane is **one unit**. -/
theorem readChars_unitEscape_toNat {c : Char} (hc : c.toNat < 0x10000) (hrest : rest ≠ []) :
    readChars lone start acc (unitEscape c.toNat ++ rest) =
      readChars lone start (c :: acc) rest := by
  have hvalid := c.valid
  have hsurrogate : isHighUnit c.toNat = false ∧ isLowUnit c.toNat = false := by
    simp only [isHighUnit, isLowUnit, Bool.and_eq_false_iff, decide_eq_false_iff_not]
    change Nat.isValidChar c.toNat at hvalid
    rw [Nat.isValidChar] at hvalid
    omega
  rw [readChars_unitEscape hc hsurrogate.1 hrest, ofUnit, hsurrogate.1, hsurrogate.2]
  simp

/-- A character beyond the first plane is **a pair of units**. -/
theorem readChars_unitPair_toNat {c : Char} (hc : 0x10000 ≤ c.toNat) (hrest : rest ≠ []) :
    readChars lone start acc (unitEscape (0xd800 + (c.toNat - 0x10000) / 1024) ++
      unitEscape (0xdc00 + (c.toNat - 0x10000) % 1024) ++ rest) =
      readChars lone start (c :: acc) rest := by
  have hvalid : Nat.isValidChar c.toNat := c.valid
  rw [Nat.isValidChar] at hvalid
  rw [readChars_unitPair _ _ hrest, ofUnitPair]
  · rw [show 0x10000 + ((0xd800 + (c.toNat - 0x10000) / 1024 - 0xd800) * 1024 +
      (0xdc00 + (c.toNat - 0x10000) % 1024 - 0xdc00)) = c.toNat by omega, Char.ofNat_toNat]
  · simp only [isHighUnit, Bool.and_eq_true, decide_eq_true_eq]
    omega
  · simp only [isLowUnit, Bool.and_eq_true, decide_eq_true_eq]
    omega

/-- How a character is written: by a letter, as itself, by a unit or by a pair of units. -/
theorem printChar_cases (c : Char) :
    (∃ letter, printChar c = ['\\', letter] ∧ letter ≠ 'u' ∧ shortEscape? letter = some c) ∨
    (printChar c = [c] ∧ c ≠ '"' ∧ c ≠ '\\' ∧ 0x20 ≤ c.toNat ∧ c.toNat < 0x7f) ∨
    (printChar c = unitEscape c.toNat ∧ c.toNat < 0x10000) ∨
    (printChar c = unitEscape (0xd800 + (c.toNat - 0x10000) / 1024) ++
      unitEscape (0xdc00 + (c.toNat - 0x10000) % 1024) ∧ 0x10000 ≤ c.toNat) := by
  generalize htext : printChar c = text
  simp only [printChar, beq_iff_eq] at htext
  split at htext
  · next h => exact .inl ⟨'"', htext.symm, by decide, congrArg some h.symm⟩
  split at htext
  · next h => exact .inl ⟨'\\', htext.symm, by decide, congrArg some h.symm⟩
  next hquote hslash =>
  split at htext
  · next h => exact .inl ⟨'n', htext.symm, by decide, congrArg some h.symm⟩
  split at htext
  · next h => exact .inl ⟨'r', htext.symm, by decide, congrArg some h.symm⟩
  split at htext
  · next h => exact .inl ⟨'t', htext.symm, by decide, congrArg some h.symm⟩
  split at htext
  · next h => exact .inl ⟨'f', htext.symm, by decide, congrArg some h.symm⟩
  split at htext
  · next h => exact .inl ⟨'b', htext.symm, by decide, congrArg some h.symm⟩
  split at htext
  · next hvisible =>
    simp only [Bool.and_eq_true, decide_eq_true_eq] at hvisible
    exact .inr (.inl ⟨htext.symm, hquote, hslash, hvisible⟩)
  split at htext
  · next hplane => exact .inr (.inr (.inl ⟨htext.symm, hplane⟩))
  · next hplane => exact .inr (.inr (.inr ⟨htext.symm, not_lt.mp hplane⟩))

/-- **A character reads back**, as long as its string goes on. -/
theorem readChars_printChar (c : Char) (hrest : rest ≠ []) :
    readChars lone start acc (printChar c ++ rest) = readChars lone start (c :: acc) rest := by
  rcases printChar_cases c with ⟨letter, hc, hletter, hescape⟩ | ⟨hc, hquote, hslash, hlow, -⟩ |
    ⟨hc, hplane⟩ | ⟨hc, hplane⟩ <;> rw [hc]
  · exact readChars_shortEscape hescape hletter
  · rw [List.singleton_append, readChars.eq_6 _ _ _ _ _ hquote (fun h => absurd h hslash)
      (fun _ _ _ _ _ h => absurd h hslash) (fun _ _ h => absurd h hslash), if_neg (by omega)]
  · exact readChars_unitEscape_toNat hplane hrest
  · exact readChars_unitPair_toNat hplane hrest

/-- The characters of a text are **read back** from their escapes, up to the closing quote. -/
theorem readChars_flatMap_printChar (cs : List Char) :
    readChars lone start acc (cs.flatMap printChar ++ '"' :: rest) =
      .ok (acc.reverse ++ cs, rest) := by
  induction cs generalizing acc with
  | nil => simp [readChars.eq_2]
  | cons c cs ih =>
      rw [List.flatMap_cons, List.append_assoc, readChars_printChar c (by simp), ih]
      simp

/-- **A string reads back**, whatever follows it. -/
theorem readString_printString (s : String) (rest : List Char) :
    ∃ after, printString s ++ rest = '"' :: after ∧ readString lone after = .ok (s, rest) := by
  refine ⟨s.toList.flatMap printChar ++ '"' :: rest, by simp [printString], ?_⟩
  rw [readString, readChars_flatMap_printChar]
  simp [bind, Except.bind, pure, Except.pure]

end Strings

/-! ### Whole numbers -/

/-- Nothing in the text **goes on with a number**: it starts with no digit, point or exponent. -/
def EndsNumber (rest : List Char) : Prop :=
  ∀ c ∈ rest.head?, isDigitChar c = false ∧ c ≠ '.' ∧ c ≠ 'e' ∧ c ≠ 'E'

variable {rest : List Char}

/-- Digits are read **up to their end**, where a number ends. -/
theorem EndsNumber.span (h : EndsNumber rest) {ds : List Char} (hds : ∀ c ∈ ds, isDigitChar c) :
    (ds ++ rest).span isDigitChar = (ds, rest) := by
  have hrest : rest.takeWhile isDigitChar = [] ∧ rest.dropWhile isDigitChar = rest := by
    cases rest with
    | nil => exact ⟨rfl, rfl⟩
    | cons c cs =>
        have hc := (h c rfl).1
        exact ⟨by simp [hc], by simp [hc]⟩
  rw [List.span_eq_takeWhile_dropWhile, List.takeWhile_append_of_pos hds,
    List.dropWhile_append_of_pos hds, hrest.1, hrest.2, List.append_nil]

/-- Where a number ends, there is **no fraction**. -/
theorem EndsNumber.fractionDigits (h : EndsNumber rest) :
    Json.fractionDigits rest = ([], rest) := by
  cases rest with
  | nil => rfl
  | cons c cs =>
      rw [Json.fractionDigits]
      rintro _ ⟨⟩
      exact (h '.' rfl).2.1 rfl

/-- Where a number ends, there is **no exponent**. -/
theorem EndsNumber.exponentPart (h : EndsNumber rest) : Json.exponentPart rest = (none, rest) := by
  cases rest with
  | nil => rfl
  | cons c cs =>
      obtain ⟨-, -, he, hE⟩ := h c rfl
      rw [Json.exponentPart]
      all_goals
        rintro _ ⟨⟩
        first | exact he rfl | exact hE rfl

/-- The decimal digits of a number: digits only, a zero in front only of nothing, and as many as the
number is long. -/
theorem wholeDigits?_toDigits (h : EndsNumber rest) (n : ℕ) :
    wholeDigits? (Nat.toDigits 10 n ++ rest) = some (Nat.toDigits 10 n, rest) := by
  have hds : ∀ c ∈ Nat.toDigits 10 n, isDigitChar c := fun c hc =>
    Nat.isDigit_of_mem_toDigits (by decide) (by decide) hc
  have hzero (m : ℕ) (hm : 0 < m) : (Nat.toDigits 10 m).head? ≠ some '0' := by
    induction m using Nat.strongRecOn with
    | ind m ih =>
        rw [Nat.toDigits_eq_if (by decide)]
        split
        · next hlt =>
          rw [List.head?_cons, ne_eq, Option.some.injEq, Nat.digitChar_eq_zero]
          omega
        · next hge =>
          rw [List.head?_append_of_ne_nil _ Nat.toDigits_ne_nil]
          exact ih (m / 10) (by omega) (by omega)
  rcases Nat.eq_zero_or_pos n with rfl | hn
  · rfl
  · have hhead := hzero n hn
    have hspan := h.span hds
    cases hcs : Nat.toDigits 10 n with
    | nil => exact absurd hcs Nat.toDigits_ne_nil
    | cons c cs =>
        rw [hcs] at hhead hspan hds
        rw [List.cons_append, wholeDigits?.eq_2 _ _ fun hc => hhead (hc ▸ rfl),
          if_pos (hds c List.mem_cons_self), ← List.cons_append, hspan]

/-- The digits of a whole number, after its sign. -/
theorem intText_of_lt {n : ℤ} (h : n.natAbs < 10 ^ digitLimit) : intText n = .ok (toString n) := by
  rw [intText, Nat.pow_eq, if_neg (not_le.mpr h)]

/-- A whole number is written with **a sign and its digits**. -/
theorem toList_toString (n : ℤ) :
    (toString n).toList = (if n < 0 then ['-'] else []) ++ Nat.toDigits 10 n.natAbs := by
  rw [Int.toString_eq_repr, Int.repr_eq_if]
  split
  · next h =>
    rw [if_neg (by omega), Nat.repr_eq_ofList_toDigits, String.toList_ofList,
      show n.toNat = n.natAbs by omega]
    rfl
  · next h =>
    rw [if_pos (by omega), String.toList_append, Nat.repr_eq_ofList_toDigits,
      show (-n).toNat = n.natAbs by omega]
    exact congrArg _ String.toList_ofList

/-- **A whole number reads back** if it is not too long and nothing goes on with it. -/
theorem readNumber?_toString {n : ℤ} (hn : n.natAbs < 10 ^ digitLimit) (h : EndsNumber rest) :
    readNumber? ((toString n).toList ++ rest) = some (.ok (.int n, rest)) := by
  have hlength : ¬ digitLimit < (Nat.toDigits 10 n.natAbs).length :=
    not_lt.mpr ((Nat.length_toDigits_le_iff (by decide) (by decide)).mpr hn)
  have hvalue : digitsValue (Nat.toDigits 10 n.natAbs) = n.natAbs :=
    Nat.ofDigitChars_toDigits (by decide) (by decide)
  by_cases hneg : n < 0
  · rw [toList_toString, if_pos hneg]
    simp only [readNumber?, List.cons_append, List.nil_append, wholeDigits?_toDigits h,
      h.fractionDigits, h.exponentPart, if_neg hlength, hvalue, if_true]
    rw [show (-(n.natAbs : ℤ)) = n by omega]
  · obtain ⟨c, cs, hcs⟩ :=
      List.exists_cons_of_ne_nil (Nat.toDigits_ne_nil (b := 10) (n := n.natAbs))
    have hc : c ≠ '-' := by
      rintro rfl
      exact absurd (Nat.isDigit_of_mem_toDigits (by decide) (by decide)
        (hcs ▸ List.mem_cons_self : '-' ∈ Nat.toDigits 10 n.natAbs)) (by decide)
    have hwhole := wholeDigits?_toDigits h n.natAbs
    rw [toList_toString, if_neg hneg, List.nil_append]
    rw [hcs, List.cons_append] at hwhole ⊢
    rw [readNumber?.eq_2 _ fun _ heq => hc (List.cons.inj heq).1, hwhole]
    simp only [h.fractionDigits, h.exponentPart]
    rw [← hcs, if_neg hlength, hvalue]
    simp [show (n.natAbs : ℤ) = n by omega]

/-! ### Visible characters -/

/-- A **visible** character of ASCII, or the blank. -/
def IsVisible (c : Char) : Prop := 0x20 ≤ c.toNat ∧ c.toNat < 0x7f

/-- A digit is **visible**. -/
theorem isVisible_digitChar {n : ℕ} (h : n < 16) : IsVisible n.digitChar := by
  revert n
  simp only [IsVisible]
  decide

/-- The escape of a code unit is **visible**. -/
theorem isVisible_unitEscape {n : ℕ} (h : n < 0x10000) {c : Char} (hc : c ∈ unitEscape n) :
    IsVisible c := by
  simp only [unitEscape, hexPadded_four h, List.mem_cons, List.not_mem_nil, or_false] at hc
  rcases hc with rfl | rfl | rfl | rfl | rfl | rfl
  · simp [IsVisible]
  · simp [IsVisible]
  all_goals exact isVisible_digitChar (by omega)

/-- The letter of a short escape is **visible**. -/
theorem isVisible_shortEscape {letter c : Char} (h : shortEscape? letter = some c) :
    IsVisible letter := by
  rw [shortEscape?.eq_def] at h
  split at h <;> simp_all [IsVisible]

/-- Whatever a character is written as is **visible**. -/
theorem isVisible_printChar {c d : Char} (hd : d ∈ printChar c) : IsVisible d := by
  have hvalid : Nat.isValidChar c.toNat := c.valid
  rw [Nat.isValidChar] at hvalid
  rcases printChar_cases c with ⟨letter, hc, -, hescape⟩ | ⟨hc, -, -, hvisible⟩ | ⟨hc, hplane⟩ |
    ⟨hc, hplane⟩ <;> rw [hc] at hd
  · simp only [List.mem_cons, List.not_mem_nil, or_false] at hd
    rcases hd with rfl | rfl
    · simp [IsVisible]
    · exact isVisible_shortEscape hescape
  · rwa [List.mem_singleton.mp hd]
  · exact isVisible_unitEscape hplane hd
  · rcases List.mem_append.mp hd with hd | hd
    · exact isVisible_unitEscape (by omega) hd
    · exact isVisible_unitEscape (by omega) hd

/-- A string is written with **visible characters**. -/
theorem isVisible_printString {s : String} {c : Char} (hc : c ∈ printString s) : IsVisible c := by
  simp only [printString, List.mem_cons, List.mem_append, List.mem_flatMap, List.not_mem_nil,
    or_false] at hc
  rcases hc with rfl | ⟨d, -, hc⟩ | rfl
  · simp [IsVisible]
  · exact isVisible_printChar hc
  · simp [IsVisible]

/-- A whole number is written with visible characters. -/
theorem isVisible_toString {n : ℤ} {c : Char} (hc : c ∈ (toString n).toList) : IsVisible c := by
  rw [toList_toString, List.mem_append] at hc
  rcases hc with hc | hc
  · split at hc
    · rw [List.mem_singleton.mp hc]
      simp [IsVisible]
    · cases hc
  · have hdigit := Nat.isDigit_of_mem_toDigits (by decide) (by decide) hc
    simp only [Char.isDigit, ge_iff_le, Bool.and_eq_true, decide_eq_true_eq,
      UInt32.le_iff_toNat_le] at hdigit
    exact ⟨le_trans (by decide) hdigit.1, lt_of_le_of_lt hdigit.2 (by decide)⟩

end TreeLint.Json
