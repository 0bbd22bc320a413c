import TreeLint.Proofs.Report.Writing
import TreeLint.Proofs.Text.Splitting

/-!
# Annotations Read Back

A report as annotations is read by a build service, line by line. A message cannot break its line,
since line ends are written as codes, and it cannot be mistaken for a code, since the percent sign
is written as one too. So the report has one line for each thing that it **announces**, and every
message can be had back from its line.

A path is written as it stands. Nothing marks its end but the comma before the line number, which
a path may hold as well: a path without a line can read like another path with one
(`ReadsLike`). That is the only way in which two places become one text.

## Main results

* `toList_escape`: the replacements, made one after another, are one pass over the message.
* `unescape_escape`: a message is had back from its codes.
* `annotations_splitOn`: the lines of a report.
* `diagnosticLine_eq_iff`: when two diagnostics with one message have one line.
* `diagnosticLine_eq_commaPath`: two files whose annotations cannot be told apart.
-/

namespace TreeLint

namespace Annotations

/-! ### Codes -/

/-- What stands for a character of a message. -/
def escapeChar (c : Char) : List Char :=
  if c = '%' then ['%', '2', '5']
  else if c = '\r' then ['%', '0', 'D']
  else if c = '\n' then ['%', '0', 'A']
  else [c]

/-- Replacing a character changes **its occurrences** only. -/
theorem toList_replaceChar (c : Char) (code text : String) :
    (replaceChar c code text).toList =
      text.toList.flatMap fun d => if d = c then code.toList else [d] :=
  String.toList_ofList

/-- The three replacements, one after another, are **one pass** over the message: no code holds a
character that is replaced after it. -/
theorem toList_escape (message : String) :
    (escape message).toList = message.toList.flatMap escapeChar := by
  simp only [escape, toList_replaceChar, List.flatMap_assoc]
  congr 1
  funext c
  rw [escapeChar]
  by_cases hpercent : c = '%'
  · subst hpercent
    decide
  · by_cases hreturn : c = '\r'
    · subst hreturn
      decide
    · simp [hpercent, hreturn]

/-- A message **without percent signs and line ends** stays as it is. -/
theorem escape_eq_self {message : String}
    (h : ∀ c ∈ message.toList, c ≠ '%' ∧ c ≠ '\r' ∧ c ≠ '\n') : escape message = message := by
  rw [← String.toList_inj, toList_escape]
  refine (List.flatMap_congr fun c hc => ?_).trans (List.flatMap_singleton' _)
  obtain ⟨hpercent, hreturn, hnewline⟩ := h c hc
  rw [escapeChar, if_neg hpercent, if_neg hreturn, if_neg hnewline]

/-- Three characters have a code, and **any other** stands for itself. -/
theorem escapeChar_cases (c : Char) :
    (c = '%' ∧ escapeChar c = ['%', '2', '5']) ∨ (c = '\r' ∧ escapeChar c = ['%', '0', 'D']) ∨
      (c = '\n' ∧ escapeChar c = ['%', '0', 'A']) ∨
      (c ≠ '%' ∧ c ≠ '\r' ∧ c ≠ '\n' ∧ escapeChar c = [c]) := by
  rw [escapeChar]
  split_ifs with hpercent hreturn hnewline
  · exact .inl ⟨hpercent, rfl⟩
  · exact .inr (.inl ⟨hreturn, rfl⟩)
  · exact .inr (.inr (.inl ⟨hnewline, rfl⟩))
  · exact .inr (.inr (.inr ⟨hpercent, hreturn, hnewline, rfl⟩))

/-- A message **stays on its line**. -/
theorem newline_notMem_escape (message : String) : '\n' ∉ (escape message).toList := by
  rw [toList_escape]
  intro hmem
  obtain ⟨c, -, hc⟩ := List.mem_flatMap.mp hmem
  rcases escapeChar_cases c with ⟨-, h⟩ | ⟨-, h⟩ | ⟨-, h⟩ | ⟨-, -, hne, h⟩ <;> rw [h] at hc
  · exact absurd hc (by decide)
  · exact absurd hc (by decide)
  · exact absurd hc (by decide)
  · exact hne (List.mem_singleton.mp hc).symm

/-- The characters that codes stand for, found in **one pass** from left to right. -/
def unescapeChars : List Char → List Char
  | '%' :: '2' :: '5' :: rest => '%' :: unescapeChars rest
  | '%' :: '0' :: 'D' :: rest => '\r' :: unescapeChars rest
  | '%' :: '0' :: 'A' :: rest => '\n' :: unescapeChars rest
  | c :: rest => c :: unescapeChars rest
  | [] => []

/-- The **message** that a text with codes stands for. -/
def unescape (text : String) : String := String.ofList (unescapeChars text.toList)

/-- A character other than a percent sign stands **for itself**. -/
theorem unescapeChars_cons {c : Char} (h : c ≠ '%') (rest : List Char) :
    unescapeChars (c :: rest) = c :: unescapeChars rest := by
  rw [unescapeChars]
  all_goals
    rintro _ rfl
    exact absurd rfl h

/-- The code of a character is **read back**. -/
theorem unescapeChars_escapeChar (c : Char) (rest : List Char) :
    unescapeChars (escapeChar c ++ rest) = c :: unescapeChars rest := by
  rcases escapeChar_cases c with ⟨rfl, h⟩ | ⟨rfl, h⟩ | ⟨rfl, h⟩ | ⟨hne, -, -, h⟩ <;> rw [h]
  · rfl
  · rfl
  · rfl
  · exact unescapeChars_cons hne rest

/-- **A message is had back** from its codes. -/
theorem unescape_escape (message : String) : unescape (escape message) = message := by
  have hchars (cs : List Char) : unescapeChars (cs.flatMap escapeChar) = cs := by
    induction cs with
    | nil => rfl
    | cons c cs ih => rw [List.flatMap_cons, unescapeChars_escapeChar, ih]
  rw [unescape, toList_escape, hchars, String.ofList_toList]

/-! ### Places -/

/-- The digits of a whole number, and its sign. -/
theorem isDigit_of_mem_toString {n : ℤ} {c : Char} (hc : c ∈ (toString n).toList) :
    c = '-' ∨ c.isDigit := by
  rw [Json.toList_toString, List.mem_append] at hc
  rcases hc with hc | hc
  · split at hc
    · exact .inl (List.mem_singleton.mp hc)
    · cases hc
  · exact .inr (Nat.isDigit_of_mem_toDigits (by decide) (by decide) hc)

/-- Whole numbers are **told apart** by their digits and signs. -/
theorem toString_eq_iff {m n : ℤ} : (toString m : String) = toString n ↔ m = n := by
  refine ⟨fun h => ?_, congrArg toString⟩
  have hdigits {a b : ℕ} (h : Nat.toDigits 10 a = Nat.toDigits 10 b) : a = b := by
    rw [← Nat.ofDigitChars_toDigits (n := a) (b := 10) (by decide) (by decide), h,
      Nat.ofDigitChars_toDigits (by decide) (by decide)]
  have hsign (a : ℕ) (rest : List Char) : '-' :: rest ≠ Nat.toDigits 10 a := fun heq =>
    absurd (Nat.isDigit_of_mem_toDigits (by decide) (by decide) (heq ▸ List.mem_cons_self))
      (by decide)
  rw [← String.toList_inj, Json.toList_toString,
    Json.toList_toString] at h
  split_ifs at h with hm hn hn
  · have := hdigits (List.cons.inj h).2
    omega
  · exact absurd h (hsign _ _)
  · exact absurd h.symm (hsign _ _)
  · have := hdigits h
    omega

/-- The place of a diagnostic whose line and column are **missing or whole numbers**. -/
inductive Shows (d : Diagnostic) : Place → Prop
  | unknown (hline : d.line = .null) : Shows d .unknown
  | line {l : ℤ} (hline : d.line = .int l) (hcolumn : d.column = .null) :
      Shows d (.line (toString l))
  | point {l c : ℤ} (hline : d.line = .int l) (hcolumn : d.column = .int c) :
      Shows d (.point (toString l) (toString (c + 1)))

/-- A whole number is shown **by its digits**. -/
theorem eq_toString_of_positionText {n : ℤ} {text : String}
    (h : positionText (.int n) = .ok text) : text = toString n := by
  change (intText n).mapError PositionFault.tooManyDigits = .ok text at h
  rw [mapError_eq_ok, intText] at h
  split at h
  · cases h
  · exact (Except.ok.inj h).symm

/-- A place that is written shows **the line and the column**. -/
theorem shows_of_place {d : Diagnostic} (hwhole : d.node.hasWholePlace) {place : Place}
    (h : d.place = .ok place) : Shows d place := by
  rw [Node.hasWholePlace, Bool.and_eq_true, Value.isWhole_iff, Value.isWhole_iff] at hwhole
  change (d.line = .null ∨ ∃ l, d.line = .int l) ∧ (d.column = .null ∨ ∃ c, d.column = .int c)
    at hwhole
  rw [Diagnostic.place] at h
  obtain ⟨hline | ⟨l, hline⟩, hcolumn⟩ := hwhole
  · rw [hline] at h
    obtain rfl := Except.ok.inj h
    exact .unknown hline
  · rw [hline] at h
    obtain ⟨line, hl, h⟩ := bind_eq_ok.mp h
    obtain rfl := eq_toString_of_positionText hl
    obtain hcolumn | ⟨c, hcolumn⟩ := hcolumn
    · rw [hcolumn] at h
      obtain rfl := Except.ok.inj h
      exact .line hline hcolumn
    · rw [hcolumn] at h
      obtain ⟨shifted, hshifted, h⟩ := bind_eq_ok.mp h
      obtain rfl := Except.ok.inj hshifted
      obtain ⟨column, hc, h⟩ := bind_eq_ok.mp h
      obtain rfl := eq_toString_of_positionText hc
      obtain rfl := Except.ok.inj h
      exact .point hline hcolumn

/-- What follows the path of a place. -/
def placeEnd : Place → String
  | .unknown => ""
  | .line l => s!",line={l}"
  | .point l c => s!",line={l},col={c}"

/-- A place starts with **the path**. -/
theorem place_eq (path : String) (p : Place) : place path p = "file=" ++ path ++ placeEnd p := by
  cases p with
  | unknown => exact (String.append_empty ..).symm
  | line l => simp only [place, placeEnd, String.append_assoc]; rfl
  | point l c => simp only [place, placeEnd, String.append_assoc]; rfl

/-- Texts are told apart by what stands **before and after their last comma**. -/
theorem append_comma_inj {p₁ p₂ t₁ t₂ : String} (ht₁ : ',' ∉ t₁.toList) (ht₂ : ',' ∉ t₂.toList)
    (h : p₁ ++ "," ++ t₁ = p₂ ++ "," ++ t₂) : p₁ = p₂ ∧ t₁ = t₂ := by
  have hlist : p₁.toList ++ ',' :: t₁.toList = p₂.toList ++ ',' :: t₂.toList := by
    simpa [String.toList_append] using congrArg String.toList h
  rcases List.append_eq_append_iff.mp hlist with ⟨more, hp, hmore⟩ | ⟨more, hp, hmore⟩
  all_goals
    cases more with
    | nil =>
        obtain ⟨-, ht⟩ := List.cons.inj hmore
        rw [List.append_nil] at hp
        exact ⟨String.toList_inj.mp (by rw [hp]), String.toList_inj.mp (by rw [ht])⟩
    | cons b more =>
        obtain ⟨-, ht⟩ := List.cons.inj hmore
        simp [ht] at ht₁ ht₂

/-- There is no comma in **a number**. -/
theorem comma_notMem_toString (n : ℤ) : ',' ∉ (toString n).toList := by
  intro h
  rcases isDigit_of_mem_toString h with h | h
  · exact absurd h (by decide)
  · exact absurd h (by decide)

/-- There is no comma in the property with **the line**. -/
theorem comma_notMem_lineProperty (n : ℤ) : ',' ∉ ("line=" ++ toString n).toList := by
  simpa [String.toList_append] using comma_notMem_toString n

/-- There is no comma in the property with **the column**. -/
theorem comma_notMem_columnProperty (n : ℤ) : ',' ∉ ("col=" ++ toString n).toList := by
  simpa [String.toList_append] using comma_notMem_toString n

/-- A line is written after **one comma**. -/
theorem append_placeEnd_line (path l : String) :
    path ++ placeEnd (.line l) = path ++ "," ++ ("line=" ++ l) := by
  change path ++ (",line=" ++ l) = _
  rw [← String.toList_inj]
  simp

/-- A column is written after **one more comma**. -/
theorem append_placeEnd_point (path l c : String) :
    path ++ placeEnd (.point l c) = path ++ placeEnd (.line l) ++ "," ++ ("col=" ++ c) := by
  simp only [placeEnd, String.append_assoc]
  rfl

/-- Two diagnostics at **one place**: they have one line and, if it is known, one column. -/
def SamePlace (d₁ d₂ : Diagnostic) : Prop :=
  d₁.line = d₂.line ∧ (d₁.line ≠ .null → d₁.column = d₂.column)

/-- A path that **reads like** another one with the line and the column of a diagnostic. -/
inductive ReadsLike (path : String) (d : Diagnostic) : String → Prop
  | line {l : ℤ} (hline : d.line = .int l) (hcolumn : d.column = .null) :
      ReadsLike path d (path ++ s!",line={l}")
  | point {l c : ℤ} (hline : d.line = .int l) (hcolumn : d.column = .int c) :
      ReadsLike path d (path ++ s!",line={l},col={c + 1}")

section Places

variable {p₁ p₂ : String} {d₁ d₂ : Diagnostic} {s₁ s₂ : Place}

/-- A diagnostic without a line has **no place** to show. -/
theorem Shows.line_eq_null_iff (h : Shows d₁ s₁) : d₁.line = .null ↔ s₁ = .unknown := by
  cases h with
  | unknown hline => simp [hline]
  | line hline | point hline => simp [hline]

/-- A path reads like another one with a place if it is **written like that**. -/
theorem Shows.readsLike_iff (h : Shows d₁ s₁) :
    ReadsLike p₁ d₁ p₂ ↔ s₁ ≠ .unknown ∧ p₂ = p₁ ++ placeEnd s₁ := by
  constructor
  · intro hlike
    cases hlike with
    | line hl hc =>
        cases h with
        | unknown hline => simp [hl] at hline
        | line hline =>
            obtain rfl := Value.int.inj (hl.symm.trans hline)
            exact ⟨nofun, rfl⟩
        | point _ hcolumn => simp [hc] at hcolumn
    | point hl hc =>
        cases h with
        | unknown hline => simp [hl] at hline
        | line _ hcolumn => simp [hc] at hcolumn
        | point hline hcolumn =>
            obtain rfl := Value.int.inj (hl.symm.trans hline)
            obtain rfl := Value.int.inj (hc.symm.trans hcolumn)
            exact ⟨nofun, rfl⟩
  · rintro ⟨hs, rfl⟩
    cases h with
    | unknown => exact absurd rfl hs
    | line hline hcolumn => exact .line hline hcolumn
    | point hline hcolumn => exact .point hline hcolumn

/-- The text of a place says **which place** it is. -/
theorem Shows.samePlace_iff (h₁ : Shows d₁ s₁) (h₂ : Shows d₂ s₂) :
    SamePlace d₁ d₂ ↔ s₁ = s₂ := by
  cases h₁ with
  | unknown hline₁ =>
      rw [SamePlace, hline₁, eq_comm, h₂.line_eq_null_iff, eq_comm]
      simp
  | line hline₁ hcolumn₁ =>
      cases h₂ with
      | unknown hline₂ => simp [SamePlace, hline₁, hline₂]
      | line hline₂ hcolumn₂ =>
          rw [Place.line.injEq, toString_eq_iff]
          simp [SamePlace, hline₁, hline₂, hcolumn₁, hcolumn₂]
      | point hline₂ hcolumn₂ => simp [SamePlace, hline₁, hline₂, hcolumn₁, hcolumn₂]
  | point hline₁ hcolumn₁ =>
      cases h₂ with
      | unknown hline₂ => simp [SamePlace, hline₁, hline₂]
      | line hline₂ hcolumn₂ => simp [SamePlace, hline₁, hline₂, hcolumn₁, hcolumn₂]
      | point hline₂ hcolumn₂ =>
          rw [Place.point.injEq, toString_eq_iff, toString_eq_iff]
          simp [SamePlace, hline₁, hline₂, hcolumn₁, hcolumn₂]

/-- A place that is known is told apart from the path before it, **whatever the path** holds. -/
theorem append_placeEnd_inj (h₁ : Shows d₁ s₁) (h₂ : Shows d₂ s₂) (hs₁ : s₁ ≠ .unknown)
    (hs₂ : s₂ ≠ .unknown) (h : p₁ ++ placeEnd s₁ = p₂ ++ placeEnd s₂) : p₁ = p₂ ∧ s₁ = s₂ := by
  -- a path may have commas, so places are compared from their ends: the last property first
  have hproperty (a b : String) : "line=" ++ a ≠ "col=" ++ b := fun heq => by
    simpa using congrArg String.toList heq
  have hline {p₁ p₂ : String} {l₁ l₂ : ℤ} (h : p₁ ++ placeEnd (.line (toString l₁)) =
      p₂ ++ placeEnd (.line (toString l₂))) :
      p₁ = p₂ ∧ (toString l₁ : String) = toString l₂ := by
    rw [append_placeEnd_line, append_placeEnd_line] at h
    obtain ⟨hp, hl⟩ := append_comma_inj (comma_notMem_lineProperty _)
      (comma_notMem_lineProperty _) h
    exact ⟨hp, (String.append_right_inj _).mp hl⟩
  cases h₁ with
  | unknown => exact absurd rfl hs₁
  | line =>
      cases h₂ with
      | unknown => exact absurd rfl hs₂
      | line =>
          obtain ⟨hp, hl⟩ := hline h
          exact ⟨hp, by rw [hl]⟩
      | point =>
          rw [append_placeEnd_line, append_placeEnd_point] at h
          exact absurd (append_comma_inj (comma_notMem_lineProperty _)
            (comma_notMem_columnProperty _) h).2 (hproperty _ _)
  | point =>
      cases h₂ with
      | unknown => exact absurd rfl hs₂
      | line =>
          rw [append_placeEnd_line, append_placeEnd_point] at h
          exact absurd (append_comma_inj (comma_notMem_columnProperty _)
            (comma_notMem_lineProperty _) h).2.symm (hproperty _ _)
      | point =>
          rw [append_placeEnd_point, append_placeEnd_point] at h
          obtain ⟨h, hc⟩ := append_comma_inj (comma_notMem_columnProperty _)
            (comma_notMem_columnProperty _) h
          obtain ⟨hp, hl⟩ := hline h
          exact ⟨hp, by rw [hl, (String.append_right_inj _).mp hc]⟩

/-- A short line and column have a **place that shows them**. -/
theorem exists_shows (hline : d₁.line.IsShort) (hcolumn : d₁.column.IsShort) :
    ∃ s, d₁.place = .ok s ∧ Shows d₁ s := by
  obtain ⟨s, hs⟩ := Diagnostic.exists_place hline hcolumn
  exact ⟨s, hs, shows_of_place (Bool.and_eq_true_iff.mpr ⟨hline.isWhole, hcolumn.isWhole⟩) hs⟩

/-- A place with short numbers **is written**. -/
theorem Shows.place_eq_ok (h : Shows d₁ s₁) (hline : d₁.line.IsShort)
    (hcolumn : d₁.column.IsShort) : d₁.place = .ok s₁ := by
  obtain ⟨s, hs, hshows⟩ := exists_shows hline hcolumn
  rw [hs, (h.samePlace_iff hshows).mp ⟨rfl, fun _ => rfl⟩]

/-- Paths with places after them are one text if they and their places are the same, **or one of
them reads like** the other with its place. -/
theorem append_placeEnd_eq_iff (h₁ : Shows d₁ s₁) (h₂ : Shows d₂ s₂) :
    p₁ ++ placeEnd s₁ = p₂ ++ placeEnd s₂ ↔ p₁ = p₂ ∧ SamePlace d₁ d₂ ∨
      d₂.line = .null ∧ ReadsLike p₁ d₁ p₂ ∨ d₁.line = .null ∧ ReadsLike p₂ d₂ p₁ := by
  rw [h₁.samePlace_iff h₂, h₁.line_eq_null_iff, h₂.line_eq_null_iff, h₁.readsLike_iff,
    h₂.readsLike_iff]
  constructor
  · intro h
    by_cases hs₁ : s₁ = .unknown
    · by_cases hs₂ : s₂ = .unknown
      · subst hs₁ hs₂
        exact .inl ⟨(String.append_left_inj _).mp h, rfl⟩
      · subst hs₁
        exact .inr (.inr ⟨rfl, hs₂, (String.append_empty ..).symm.trans h⟩)
    · by_cases hs₂ : s₂ = .unknown
      · subst hs₂
        exact .inr (.inl ⟨rfl, hs₁, (String.append_empty ..).symm.trans h.symm⟩)
      · exact .inl (append_placeEnd_inj h₁ h₂ hs₁ hs₂ h)
  · rintro (⟨rfl, rfl⟩ | ⟨rfl, -, rfl⟩ | ⟨rfl, -, rfl⟩)
    · rfl
    · exact (String.append_empty ..).symm
    · exact String.append_empty ..

end Places

/-! ### Lines -/

/-- What the line of a diagnostic says, before it is brought onto the line. -/
def announcement (d : Diagnostic) : String := s!"[{d.ruleName}] {d.message}"

/-- What a report on a file **announces**: why it failed, then its diagnostics. -/
def announcements (r : FileReport) : List String :=
  r.error.toList ++ r.diagnostics.map announcement

/-- The line of a diagnostic: level, path, place and message. -/
theorem diagnosticLine_eq_ok_iff {path line : String} {d : Diagnostic} :
    diagnosticLine path d = .ok line ↔ ∃ s, d.place = .ok s ∧
      line = "::" ++ level d.severity ++ " file=" ++ (path ++ placeEnd s) ++ "::" ++
        escape (announcement d) := by
  rw [diagnosticLine, bind_eq_ok]
  refine exists_congr fun s => and_congr_right fun _ => ?_
  have hline (text : String) : s!"::{level d.severity} {place path s}::{text}" =
      "::" ++ level d.severity ++ " file=" ++ (path ++ placeEnd s) ++ "::" ++ text := by
    change "::" ++ level d.severity ++ " " ++ place path s ++ "::" ++ text = _
    rw [place_eq, ← String.toList_inj]
    simp
  rw [announcement, ← hline]
  exact ⟨fun h => (Except.ok.inj h).symm, fun h => congrArg Except.ok h.symm⟩

/-- A line that **ends in a message**. -/
def Announces (line message : String) : Prop :=
  ∃ head, '\n' ∉ head.toList ∧ line = head ++ "::" ++ escape message

/-- A line that ends in a message has **no line feed** in it. -/
theorem Announces.newline_notMem {line message : String} (h : Announces line message) :
    '\n' ∉ line.toList := by
  obtain ⟨head, hhead, rfl⟩ := h
  simp [String.toList_append, hhead, newline_notMem_escape]

/-- There is no line feed in **a number**. -/
theorem newline_notMem_toString (n : ℤ) : '\n' ∉ (toString n).toList := by
  intro h
  rcases isDigit_of_mem_toString h with h | h
  · exact absurd h (by decide)
  · exact absurd h (by decide)

/-- There is no line feed in **a place**. -/
theorem Shows.newline_notMem {d : Diagnostic} {s : Place} (h : Shows d s) :
    '\n' ∉ (placeEnd s).toList := by
  cases h with
  | unknown => simp [placeEnd]
  | @line l =>
      change '\n' ∉ (",line=" ++ toString l).toList
      simpa [String.toList_append] using newline_notMem_toString l
  | @point l c =>
      change '\n' ∉ (",line=" ++ toString l ++ ",col=" ++ toString (c + 1)).toList
      simpa [String.toList_append] using
        And.intro (newline_notMem_toString l) (newline_notMem_toString (c + 1))

/-- The **line of a diagnostic** ends in its message. -/
theorem exists_diagnosticLine {path : String} {d : Diagnostic} (hpath : '\n' ∉ path.toList)
    (hline : d.line.IsShort) (hcolumn : d.column.IsShort) :
    ∃ line, diagnosticLine path d = .ok line ∧ Announces line (announcement d) := by
  obtain ⟨s, hs, hshows⟩ := exists_shows hline hcolumn
  refine ⟨_, diagnosticLine_eq_ok_iff.mpr ⟨s, hs, rfl⟩, _, ?_, rfl⟩
  have hlevel : '\n' ∉ (level d.severity).toList := by cases d.severity <;> decide
  simp [String.toList_append, hlevel, hpath, hshows.newline_notMem]

/-- A file that could not be analysed has **one line**, which ends in its error. -/
theorem announces_failureLines {r : FileReport} (hpath : '\n' ∉ r.path.toList)
    (herror : r.error ≠ some "") : List.Forall₂ Announces (failureLines r) r.error.toList := by
  rw [failureLines]
  cases herr : r.error with
  | none => exact .nil
  | some error =>
      have hempty : error.isEmpty = false := by
        rw [herr] at herror
        simpa using herror
      simp only [hempty, Bool.false_eq_true, if_false, Option.toList_some]
      refine .cons ⟨"::error file=" ++ r.path, ?_, rfl⟩ .nil
      simpa [String.toList_append] using hpath

/-- Steps over a list succeed and give related results **if each of them does**. -/
theorem exists_mapM_forall₂ {ε α β γ : Type} {f : α → Except ε β} {g : α → γ} {R : β → γ → Prop}
    {xs : List α} (h : ∀ x ∈ xs, ∃ y, f x = .ok y ∧ R y (g x)) :
    ∃ ys, xs.mapM f = .ok ys ∧ List.Forall₂ R ys (xs.map g) := by
  induction xs with
  | nil => exact ⟨[], rfl, .nil⟩
  | cons x xs ih =>
      obtain ⟨y, hy, hR⟩ := h x List.mem_cons_self
      obtain ⟨ys, hys, hRs⟩ := ih fun x' hx' => h x' (List.mem_cons_of_mem x hx')
      refine ⟨y :: ys, ?_, .cons hR hRs⟩
      rw [List.mapM_cons, hy, hys]
      rfl

/-- The **lines of a file** end in what its report announces. -/
theorem exists_fileLines {r : FileReport} (hpath : '\n' ∉ r.path.toList)
    (herror : r.error ≠ some "")
    (hplaces : ∀ d ∈ r.diagnostics, d.line.IsShort ∧ d.column.IsShort) :
    ∃ lines, fileLines r = .ok lines ∧ List.Forall₂ Announces lines (announcements r) := by
  obtain ⟨lines, hlines, hannounces⟩ := exists_mapM_forall₂ fun d hd =>
    exists_diagnosticLine hpath (hplaces d hd).1 (hplaces d hd).2
  refine ⟨failureLines r ++ lines, by rw [fileLines, hlines]; rfl, ?_⟩
  exact List.rel_append (announces_failureLines hpath herror) hannounces

/-- A report has nothing to announce if **no file failed and nothing was found**. -/
theorem flatMap_announcements_eq_nil_iff (r : LintResult) :
    r.files.flatMap announcements = [] ↔ r.failedFiles = [] ∧ r.diagnostics = [] := by
  simp only [LintResult.failedFiles, LintResult.diagnostics, List.flatMap_eq_nil_iff,
    List.filter_eq_nil_iff, announcements, List.append_eq_nil_iff, FileReport.failed,
    List.map_eq_nil_iff, Option.toList_eq_nil_iff, Bool.not_eq_true, Option.isSome_eq_false_iff,
    Option.isNone_iff_eq_none]
  exact ⟨fun h => ⟨fun f hf => (h f hf).1, fun f hf => (h f hf).2⟩,
    fun h f hf => ⟨h.1 f hf, h.2 f hf⟩⟩

/-- **One line for each thing announced.** A report on files whose paths have no line ends, whose
errors say something, and whose lines and columns are missing or short whole numbers has a text as
annotations. It is empty if no file failed and nothing was found. Otherwise its lines are, file by
file and the error before the diagnostics, one for each of these, and each ends in its message after
two colons; from there one pass over the codes has the message back, whatever characters it has. -/
theorem annotations_splitOn {r : LintResult}
    (hpaths : ∀ f ∈ r.files, '\r' ∉ f.path.toList ∧ '\n' ∉ f.path.toList)
    (herrors : ∀ f ∈ r.files, f.error ≠ some "")
    (hplaces : ∀ d ∈ r.diagnostics, d.line.IsShort ∧ d.column.IsShort) :
    ∃ text, r.annotations = .ok text ∧
      (r.failedFiles = [] ∧ r.diagnostics = [] → text = "") ∧
      (¬ (r.failedFiles = [] ∧ r.diagnostics = []) →
        List.Forall₂ (fun line message => ∃ head, line = head ++ "::" ++ escape message)
          (text.splitOn "\n") (r.files.flatMap announcements)) ∧
      ∀ message, unescape (escape message) = message := by
  obtain ⟨lines, hlines, hannounces⟩ : ∃ lines, r.files.mapM fileLines = .ok lines ∧
      List.Forall₂ (List.Forall₂ Announces) lines (r.files.map announcements) :=
    exists_mapM_forall₂ fun f hf => exists_fileLines (hpaths f hf).2 (herrors f hf) fun d hd =>
      hplaces d (List.mem_flatMap.mpr ⟨f, hf, hd⟩)
  have hall : List.Forall₂ Announces lines.flatten (r.files.flatMap announcements) :=
    List.rel_flatten hannounces
  refine ⟨"\n".intercalate lines.flatten, by rw [LintResult.annotations, hlines]; rfl, ?_, ?_,
    unescape_escape⟩
  · intro hnothing
    rw [← flatMap_announcements_eq_nil_iff] at hnothing
    rw [hnothing, List.forall₂_nil_right_iff] at hall
    rw [hall]
    rfl
  · intro hsomething
    rw [← flatMap_announcements_eq_nil_iff] at hsomething
    have hne : lines.flatten ≠ [] := fun hnil => by
      rw [hnil, List.forall₂_nil_left_iff] at hall
      exact hsomething hall
    have hnewlines : ∀ line ∈ lines.flatten, '\n' ∉ line.toList := fun line hline => by
      obtain ⟨message, -, h⟩ := exists_of_mem_forall₂ hall hline
      exact h.newline_notMem
    have hsplit := Text.splitOn_intercalate hne hnewlines
    change ("\n".intercalate lines.flatten).splitOn "\n" = lines.flatten at hsplit
    rw [hsplit]
    exact hall.imp fun _ _ => Exists.imp fun _ h => h.2

/-- A report on a file that failed with a text full of codes and line ends, and on one with two
diagnostics whose messages need codes too. -/
def loudResult : LintResult where
  files := [
    { path := "a::b,c.json", error := some "100%\nof %0A\r%" },
    { path := "%0A"
      diagnostics := [
        { node := { kind := .other, span := { line := .int 3, column := .int (-1) } }
          violation := .missingTeardown, message := "%25\n", ruleId := "A", ruleName := "::" },
        { node := { kind := .other }
          violation := .missingTeardown, message := "", ruleId := "B", ruleName := "\n"
          severity := .warning }] }]
  summary := ""

/-- A number with one digit is **short**. -/
theorem isShort_of_lt {n : ℤ} (h : n.natAbs < 10) : Value.IsShort (.int n) :=
  lt_of_lt_of_le h (Nat.le_self_pow (by decide) 10)

/-- The loud result has three lines, and every message is had back from its line. -/
theorem annotations_splitOn_loudResult :
    (∀ f ∈ loudResult.files, '\r' ∉ f.path.toList ∧ '\n' ∉ f.path.toList) ∧
    (∀ f ∈ loudResult.files, f.error ≠ some "") ∧
    (∀ d ∈ loudResult.diagnostics, d.line.IsShort ∧ d.column.IsShort) ∧
    ∃ text, loudResult.annotations = .ok text ∧
      List.Forall₂ (fun line message => ∃ head, line = head ++ "::" ++ escape message)
        (text.splitOn "\n") ["100%\nof %0A\r%", "[::] %25\n", "[\n] "] ∧
      unescape (escape "100%\nof %0A\r%") = "100%\nof %0A\r%" := by
  have hpaths : ∀ f ∈ loudResult.files, '\r' ∉ f.path.toList ∧ '\n' ∉ f.path.toList := by decide
  have herrors : ∀ f ∈ loudResult.files, f.error ≠ some "" := by decide
  have hplaces : ∀ d ∈ loudResult.diagnostics, d.line.IsShort ∧ d.column.IsShort := by
    intro d hd
    simp only [loudResult, LintResult.diagnostics, List.flatMap_cons, List.flatMap_nil,
      List.append_nil, List.nil_append, List.mem_cons, List.not_mem_nil, or_false] at hd
    rcases hd with rfl | rfl
    · exact ⟨isShort_of_lt (by decide), isShort_of_lt (by decide)⟩
    · exact ⟨trivial, trivial⟩
  obtain ⟨text, htext, -, hlines, hback⟩ := annotations_splitOn hpaths herrors hplaces
  have hfailed : loudResult.failedFiles ≠ [] := by
    simp [loudResult, LintResult.failedFiles, FileReport.failed]
  exact ⟨hpaths, herrors, hplaces, text, htext, hlines fun h => hfailed h.1, hback _⟩

/-! ### Places that become one text -/

/-- When **two annotations are one text**. Let two diagnostics of one rule and with one message have
lines and columns that are missing or whole numbers. If both have an annotation, these are one text
exactly if the diagnostics have one severity, and either they have one path and one place, or one
has no line and a path that reads like that of the other with its line and column. A diagnostic
whose line and column are missing or short has an annotation. -/
theorem diagnosticLine_eq_iff {p₁ p₂ : String} {d₁ d₂ : Diagnostic}
    (hwhole₁ : d₁.node.hasWholePlace) (hwhole₂ : d₂.node.hasWholePlace)
    (hrule : d₁.ruleName = d₂.ruleName) (hmessage : d₁.message = d₂.message) :
    (∀ line₁ line₂, diagnosticLine p₁ d₁ = .ok line₁ → diagnosticLine p₂ d₂ = .ok line₂ →
      (line₁ = line₂ ↔ d₁.severity = d₂.severity ∧ (p₁ = p₂ ∧ SamePlace d₁ d₂ ∨
        d₂.line = .null ∧ ReadsLike p₁ d₁ p₂ ∨ d₁.line = .null ∧ ReadsLike p₂ d₂ p₁))) ∧
    ∀ path (d : Diagnostic), d.line.IsShort → d.column.IsShort →
      ∃ line, diagnosticLine path d = .ok line := by
  refine ⟨fun line₁ line₂ h₁ h₂ => ?_, fun path d hline hcolumn => ?_⟩
  · obtain ⟨s₁, hs₁, rfl⟩ := diagnosticLine_eq_ok_iff.mp h₁
    obtain ⟨s₂, hs₂, rfl⟩ := diagnosticLine_eq_ok_iff.mp h₂
    have hannouncement : announcement d₁ = announcement d₂ := by
      rw [announcement, announcement, hrule, hmessage]
    have hlevel {a b : Severity} {t u : String} :
        "::" ++ level a ++ " file=" ++ t = "::" ++ level b ++ " file=" ++ u ↔ a = b ∧ t = u := by
      cases a <;> cases b <;> simp [level, ← String.toList_inj]
    rw [hannouncement, String.append_left_inj, String.append_left_inj, hlevel,
      append_placeEnd_eq_iff (shows_of_place hwhole₁ hs₁) (shows_of_place hwhole₂ hs₂)]
  · obtain ⟨s, hs, -⟩ := exists_shows hline hcolumn
    exact ⟨_, diagnosticLine_eq_ok_iff.mpr ⟨s, hs, rfl⟩⟩

/-- A finding at a line, and at a column. -/
def findingAt (line column : Json) : Diagnostic where
  node := { kind := .other, span := { line, column } }
  violation := .missingSingleton
  message := "m"
  ruleId := "X1"
  ruleName := "x-rule"

/-- A place may have **a line only**. -/
theorem diagnosticLine_atLine : diagnosticLine "a" (findingAt (.int 1) .null) =
    .ok "::error file=a,line=1::[x-rule] m" :=
  diagnosticLine_eq_ok_iff.mpr ⟨_, (Shows.line rfl rfl).place_eq_ok (isShort_of_lt (by decide))
    trivial, by decide⟩

/-- A path with a comma is told from another one with a line **while its own line is known**. -/
theorem diagnosticLine_eq_iff_knownLine :
    (findingAt (.int 1) .null).node.hasWholePlace ∧
    (findingAt (.int 1) (.int 4)).node.hasWholePlace ∧
    ∃ line₁ line₂, diagnosticLine "a" (findingAt (.int 1) .null) = .ok line₁ ∧
      diagnosticLine "a,line=1" (findingAt (.int 1) (.int 4)) = .ok line₂ ∧ line₁ ≠ line₂ := by
  obtain ⟨hiff, hwritten⟩ := @diagnosticLine_eq_iff "a" "a,line=1" (findingAt (.int 1) .null)
    (findingAt (.int 1) (.int 4)) rfl rfl rfl rfl
  obtain ⟨line₂, h₂⟩ := hwritten "a,line=1" (findingAt (.int 1) (.int 4))
    (isShort_of_lt (by decide)) (isShort_of_lt (by decide))
  refine ⟨rfl, rfl, _, line₂, diagnosticLine_atLine, h₂, fun heq => ?_⟩
  rcases ((hiff _ _ diagnosticLine_atLine h₂).mp heq).2 with ⟨hpath, -⟩ | ⟨hline, -⟩ | ⟨hline, -⟩
  · exact absurd hpath (by decide)
  · cases hline
  · cases hline

/-- **Two annotations that cannot be told apart**: one for a file at a line, one for a file without
a line whose name has a comma. -/
theorem diagnosticLine_eq_commaPath :
    (findingAt (.int 1) .null).node.hasWholePlace ∧ (findingAt .null .null).node.hasWholePlace ∧
    (findingAt (.int 1) .null).line ≠ (findingAt .null .null).line ∧
    diagnosticLine "a" (findingAt (.int 1) .null) = .ok "::error file=a,line=1::[x-rule] m" ∧
    diagnosticLine "a,line=1" (findingAt .null .null) =
      .ok "::error file=a,line=1::[x-rule] m" := by
  refine ⟨rfl, rfl, nofun, diagnosticLine_atLine, ?_⟩
  exact diagnosticLine_eq_ok_iff.mpr ⟨_, (Shows.unknown rfl).place_eq_ok trivial trivial, by decide⟩

end Annotations

end TreeLint
