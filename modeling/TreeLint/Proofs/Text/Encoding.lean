import Mathlib.Data.Nat.Notation
import Mathlib.Tactic.SplitIfs
import TreeLint.Text.Utf8

/-!
# Texts and Their Bytes

A text that is written in UTF-8 is **read back** from its bytes, character by character: what the
first byte of a character announces is what follows. A text without carriage returns is not changed
when its line ends are made equal.

## Main results

* `toList_toUTF8`: the bytes of a text are the codes of its characters.
* `decode_toUTF8`: a text is read back from its bytes.
* `normalizeNewlines_eq_self`: a text whose lines end in line feeds stays as it is.
-/

namespace TreeLint.Text

/-! ### The bytes of a text -/

/-- The loop that lists bytes lists **those from an index on**, after what it has. -/
theorem toList_loop (bytes : ByteArray) (i : ℕ) (acc : List UInt8) :
    ByteArray.toList.loop bytes i acc = acc.reverse ++ bytes.data.toList.drop i := by
  fun_induction ByteArray.toList.loop bytes i acc with
  | case1 i acc hi ih =>
      have hi' : i < bytes.data.toList.length := hi
      have hget : bytes.get! i = bytes.data.toList[i] := by
        change bytes.data[i]! = _
        rw [getElem!_pos bytes.data i hi, Array.getElem_toList]
      rw [ih, List.drop_eq_getElem_cons hi', hget, List.reverse_cons, List.append_assoc,
        List.singleton_append]
  | case2 i acc hi =>
      have hi' : bytes.data.toList.length ≤ i := Nat.le_of_not_lt hi
      rw [List.drop_eq_nil_of_le hi', List.append_nil]

/-- The bytes of a text are the **codes of its characters**. -/
theorem toList_toUTF8 (cs : List Char) :
    (String.ofList cs).toUTF8.toList = cs.flatMap String.utf8EncodeChar := by
  rw [String.toUTF8, String.toByteArray_ofList, List.utf8Encode, ByteArray.toList, toList_loop,
    List.data_toByteArray, List.reverse_nil, List.nil_append, List.drop_zero]

section Bytes

variable {n : ℕ} {b c d e : UInt8} {rest : List UInt8} {position : ℕ} {acc : List Char}

/-- A number below 256 is **its own byte**. -/
theorem toNat_ofNat (h : n < 256) : (UInt8.ofNat n).toNat = n := by
  rw [UInt8.toNat_ofNat', Nat.mod_eq_of_lt h]

/-- What the first byte **announces**, by its number. -/
theorem Lead.ofByte_eq (b : UInt8) : Lead.ofByte b =
    if b.toNat < 0x80 then .single
    else if b.toNat < 0xc2 then .invalid
    else if b.toNat < 0xe0 then .two
    else if b.toNat = 0xe0 then .three 0xa0 0xbf
    else if b.toNat = 0xed then .three 0x80 0x9f
    else if b.toNat < 0xf0 then .three 0x80 0xbf
    else if b.toNat = 0xf0 then .four 0x90 0xbf
    else if b.toNat < 0xf4 then .four 0x80 0xbf
    else if b.toNat = 0xf4 then .four 0x80 0x8f
    else .invalid := by
  simp only [Lead.ofByte, UInt8.lt_iff_toNat_lt, ← UInt8.toNat_inj, UInt8.reduceToNat]

/-- The bytes that continue a character are **one range**. -/
theorem isContinuation_iff : isContinuation b ↔ 0x80 ≤ b.toNat ∧ b.toNat ≤ 0xbf := by
  simp only [isContinuation, Bool.and_eq_true, decide_eq_true_eq, UInt8.le_iff_toNat_le,
    UInt8.reduceToNat]

/-- Six bits of a character make **a byte that continues it**. -/
theorem isContinuation_ofNat (n : ℕ) : isContinuation (UInt8.ofNat (n % 64 + 0x80)) := by
  rw [isContinuation_iff, toNat_ofNat (by omega)]
  omega

/-- Two bytes are decoded to **one character**. -/
theorem decodeFrom_two (hb : Lead.ofByte b = .two) (hc : isContinuation c) :
    decodeFrom position acc (b :: c :: rest) =
      decodeFrom (position + 2) (charOfBytes 5 b [c] :: acc) rest := by
  simp only [decodeFrom.eq_def _ _ (b :: _), hb, hc, if_true]

/-- Three bytes are decoded to **one character**. -/
theorem decodeFrom_three {low high : UInt8} (hb : Lead.ofByte b = .three low high)
    (hc : low.toNat ≤ c.toNat ∧ c.toNat ≤ high.toNat) (hd : isContinuation d) :
    decodeFrom position acc (b :: c :: d :: rest) =
      decodeFrom (position + 3) (charOfBytes 4 b [c, d] :: acc) rest := by
  rw [← UInt8.le_iff_toNat_le, ← UInt8.le_iff_toNat_le] at hc
  simp only [decodeFrom.eq_def _ _ (b :: _), hb, hc, hd, decide_true, Bool.and_self, if_true]

/-- Four bytes are decoded to **one character**. -/
theorem decodeFrom_four {low high : UInt8} (hb : Lead.ofByte b = .four low high)
    (hc : low.toNat ≤ c.toNat ∧ c.toNat ≤ high.toNat) (hd : isContinuation d)
    (he : isContinuation e) :
    decodeFrom position acc (b :: c :: d :: e :: rest) =
      decodeFrom (position + 4) (charOfBytes 3 b [c, d, e] :: acc) rest := by
  rw [← UInt8.le_iff_toNat_le, ← UInt8.le_iff_toNat_le] at hc
  simp only [decodeFrom.eq_def _ _ (b :: _), hb, hc, hd, he, decide_true, Bool.and_self, if_true]

end Bytes

/-! ### Reading back -/

section Character

variable {v : ℕ}

/-- A character with three bytes: the second is **as the first announces**. -/
theorem exists_three (hlow : 0x7ff < v) (hhigh : v ≤ 0xffff) (hvalid : v < 0xd800 ∨ 0xdfff < v) :
    ∃ low high : UInt8, Lead.ofByte (UInt8.ofNat (v / 4096 % 16 + 224)) = .three low high ∧
      low.toNat ≤ (UInt8.ofNat (v / 64 % 64 + 128)).toNat ∧
      (UInt8.ofNat (v / 64 % 64 + 128)).toNat ≤ high.toNat := by
  rw [Lead.ofByte_eq, toNat_ofNat (by omega), toNat_ofNat (by omega), if_neg (by omega),
    if_neg (by omega), if_neg (by omega)]
  by_cases hfirst : v / 4096 % 16 + 224 = 0xe0
  · exact ⟨_, _, if_pos hfirst, by simp only [UInt8.reduceToNat]; omega⟩
  · by_cases hsurrogates : v / 4096 % 16 + 224 = 0xed
    · rw [if_neg hfirst, if_pos hsurrogates]
      exact ⟨_, _, rfl, by simp only [UInt8.reduceToNat]; omega⟩
    · rw [if_neg hfirst, if_neg hsurrogates, if_pos (by omega)]
      exact ⟨_, _, rfl, by simp only [UInt8.reduceToNat]; omega⟩

/-- A character with four bytes: the second is **as the first announces**. -/
theorem exists_four (hlow : 0xffff < v) (hhigh : v < 0x110000) :
    ∃ low high : UInt8, Lead.ofByte (UInt8.ofNat (v / 262144 % 8 + 240)) = .four low high ∧
      low.toNat ≤ (UInt8.ofNat (v / 4096 % 64 + 128)).toNat ∧
      (UInt8.ofNat (v / 4096 % 64 + 128)).toNat ≤ high.toNat := by
  rw [Lead.ofByte_eq, toNat_ofNat (by omega), toNat_ofNat (by omega), if_neg (by omega),
    if_neg (by omega), if_neg (by omega), if_neg (by omega), if_neg (by omega), if_neg (by omega)]
  by_cases hfirst : v / 262144 % 8 + 240 = 0xf0
  · exact ⟨_, _, if_pos hfirst, by simp only [UInt8.reduceToNat]; omega⟩
  · by_cases hlast : v / 262144 % 8 + 240 = 0xf4
    · rw [if_neg hfirst, if_neg (by omega), if_pos hlast]
      exact ⟨_, _, rfl, by simp only [UInt8.reduceToNat]; omega⟩
    · rw [if_neg hfirst, if_pos (by omega)]
      exact ⟨_, _, rfl, by simp only [UInt8.reduceToNat]; omega⟩

end Character

/-- A character is **read back** from its bytes. -/
theorem decodeFrom_utf8EncodeChar (position : ℕ) (acc : List Char) (c : Char) (rest : List UInt8) :
    ∃ position', decodeFrom position acc (String.utf8EncodeChar c ++ rest) =
      decodeFrom position' (c :: acc) rest := by
  obtain ⟨v, hv⟩ : ∃ v, c.val.toNat = v := ⟨_, rfl⟩
  have hvalid : v < 0xd800 ∨ 0xdfff < v ∧ v < 0x110000 := hv ▸ c.valid
  obtain rfl : Char.ofNat v = c := by rw [← hv]; exact Char.ofNat_toNat c
  rw [String.utf8EncodeChar]
  simp only [hv]
  -- one, two, three or four bytes: the first tells how many, and the bits of all make the character
  split_ifs with hone htwo hthree
  · have hlead : Lead.ofByte (UInt8.ofNat v) = .single := by
      rw [Lead.ofByte_eq, toNat_ofNat (by omega), if_pos (by omega)]
    refine ⟨position + 1, ?_⟩
    simp only [List.singleton_append, decodeFrom.eq_def _ _ (_ :: _), hlead]
    rw [toNat_ofNat (by omega)]
  · have hlead : Lead.ofByte (UInt8.ofNat (v / 64 % 32 + 192)) = .two := by
      rw [Lead.ofByte_eq, toNat_ofNat (by omega), if_neg (by omega), if_neg (by omega),
        if_pos (by omega)]
    have hchar : charOfBytes 5 (UInt8.ofNat (v / 64 % 32 + 192)) [UInt8.ofNat (v % 64 + 128)] =
        Char.ofNat v := by
      simp only [charOfBytes, List.foldl_cons, List.foldl_nil, Nat.reducePow, Nat.pow_eq]
      rw [toNat_ofNat (by omega), toNat_ofNat (by omega)]
      congr 1
      omega
    refine ⟨position + 2, ?_⟩
    rw [List.cons_append, List.singleton_append, decodeFrom_two hlead (isContinuation_ofNat v),
      hchar]
  · obtain ⟨low, high, hlead, hsecond⟩ := exists_three (by omega) hthree (by omega)
    have hchar : charOfBytes 4 (UInt8.ofNat (v / 4096 % 16 + 224))
        [UInt8.ofNat (v / 64 % 64 + 128), UInt8.ofNat (v % 64 + 128)] = Char.ofNat v := by
      simp only [charOfBytes, List.foldl_cons, List.foldl_nil, Nat.reducePow, Nat.pow_eq]
      rw [toNat_ofNat (by omega), toNat_ofNat (by omega), toNat_ofNat (by omega)]
      congr 1
      omega
    refine ⟨position + 3, ?_⟩
    rw [List.cons_append, List.cons_append, List.singleton_append,
      decodeFrom_three hlead hsecond (isContinuation_ofNat v), hchar]
  · obtain ⟨low, high, hlead, hsecond⟩ := exists_four (v := v) (by omega) (by omega)
    have hchar : charOfBytes 3 (UInt8.ofNat (v / 262144 % 8 + 240))
        [UInt8.ofNat (v / 4096 % 64 + 128), UInt8.ofNat (v / 64 % 64 + 128),
          UInt8.ofNat (v % 64 + 128)] = Char.ofNat v := by
      simp only [charOfBytes, List.foldl_cons, List.foldl_nil, Nat.reducePow, Nat.pow_eq]
      rw [toNat_ofNat (by omega), toNat_ofNat (by omega), toNat_ofNat (by omega),
        toNat_ofNat (by omega)]
      congr 1
      omega
    refine ⟨position + 4, ?_⟩
    rw [List.cons_append, List.cons_append, List.cons_append, List.singleton_append,
      decodeFrom_four hlead hsecond (isContinuation_ofNat _) (isContinuation_ofNat v), hchar]

/-- Characters are **read back** from their bytes, one by one. -/
theorem decodeFrom_flatMap (position : ℕ) (acc cs : List Char) :
    decodeFrom position acc (cs.flatMap String.utf8EncodeChar) = .ok (acc.reverse ++ cs) := by
  induction cs generalizing position acc with
  | nil => rw [List.flatMap_nil, decodeFrom, List.append_nil]
  | cons c cs ih =>
      obtain ⟨position', h⟩ :=
        decodeFrom_utf8EncodeChar position acc c (cs.flatMap String.utf8EncodeChar)
      rw [List.flatMap_cons, h, ih, List.reverse_cons, List.append_assoc, List.singleton_append]

/-- A text is **read back** from its bytes. -/
theorem decode_toUTF8 (text : String) : decode text.toUTF8.toList = .ok text.toList := by
  obtain ⟨cs, rfl⟩ : ∃ cs, String.ofList cs = text := ⟨text.toList, String.ofList_toList⟩
  rw [toList_toUTF8, decode, decodeFrom_flatMap, String.toList_ofList, List.reverse_nil,
    List.nil_append]

/-! ### Line ends -/

/-- A text without carriage returns is **not changed**. -/
theorem normalizeNewlinesFrom_eq {cs : List Char} (h : '\r' ∉ cs) (acc : List Char) :
    normalizeNewlinesFrom acc cs = acc.reverse ++ cs := by
  induction cs generalizing acc with
  | nil => rw [normalizeNewlinesFrom, List.append_nil]
  | cons c cs ih =>
      obtain ⟨hc, hcs⟩ := List.ne_and_not_mem_of_not_mem_cons h
      rw [normalizeNewlinesFrom, if_neg (Ne.symm hc), ih hcs, List.reverse_cons, List.append_assoc,
        List.singleton_append]
      rintro rest rfl
      exact absurd rfl hc

/-- A text **without carriage returns** stays as it is. -/
theorem normalizeNewlines_eq_self {cs : List Char} (h : '\r' ∉ cs) : normalizeNewlines cs = cs :=
  normalizeNewlinesFrom_eq h []

end TreeLint.Text
