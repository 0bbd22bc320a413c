import TreeLint.Proofs.Json.Keys
import TreeLint.Proofs.Json.Scalars

/-!
# Values Read Back

A value without fractions is read back **exactly** from what is written for it (`read_print`), as
deep as the reader goes (`Plain`). One induction over the value carries everything that is needed
of the text of a part when the whole is read (`Faithful`): that the reader, whatever follows, takes
just this text for just this value; that blanks before it can be skipped, because it does not start
with one; and that it has only ASCII characters.

## Main results

* `exists_printItems`, `exists_printMembers`: the parts of a list and of an object read back.
* `Plain.exists_faithful`: every plain value has a text that reads back.
* `Plain.read_print`: the same for the whole text.
-/

namespace TreeLint

namespace Json

variable {lone : ℕ → Char}

/-- A value that **can be written and read back**, with at most `depth` lists and objects around
each other: its numbers are whole and not too long, and no object has a key twice. -/
inductive Plain : ℕ → Json → Prop
  | null {depth : ℕ} : Plain depth .null
  | bool {depth : ℕ} (b : Bool) : Plain depth (.bool b)
  | int {depth : ℕ} {n : ℤ} (h : n.natAbs < 10 ^ digitLimit) : Plain depth (.int n)
  | str {depth : ℕ} (s : String) : Plain depth (.str s)
  | arr {depth : ℕ} {items : List Json} (h : ∀ v ∈ items, Plain depth v) :
      Plain (depth + 1) (.arr items)
  | obj {depth : ℕ} {members : List (String × Json)} (hkeys : (members.map Prod.fst).Nodup)
      (h : ∀ m ∈ members, Plain depth m.2) : Plain (depth + 1) (.obj () members)

/-! ### Blanks and separators -/

/-- A character that is written: visible, or the end of a line. -/
def IsWritten (c : Char) : Prop := IsVisible c ∨ c = '\n'

/-- A line end and its indentation are **written** characters. -/
theorem isWritten_newLine {level : ℕ} {c : Char} (hc : c ∈ newLine level) : IsWritten c := by
  rcases List.mem_cons.mp hc with rfl | hc
  · exact .inr rfl
  · rw [List.eq_of_mem_replicate hc]
    exact .inl (by simp [IsVisible])

/-- Where there is no blank, none is **skipped**. -/
theorem skipBlanks_cons {c : Char} (hc : isBlankChar c = false) (cs : List Char) :
    skipBlanks (c :: cs) = c :: cs := by
  rw [skipBlanks, List.dropWhile_cons_of_neg (by simp [hc])]

/-- The start of a line is skipped. -/
theorem skipBlanks_newLine (level : ℕ) (cs : List Char) :
    skipBlanks (newLine level ++ cs) = skipBlanks cs := by
  rw [skipBlanks, skipBlanks, List.dropWhile_append_of_pos]
  intro c hc
  rcases List.mem_cons.mp hc with rfl | hc
  · rfl
  · rw [List.eq_of_mem_replicate hc]
    rfl

/-- A character that cannot go on in a number **ends it**. -/
theorem endsNumber_cons {c : Char} (h : isDigitChar c = false ∧ c ≠ '.' ∧ c ≠ 'e' ∧ c ≠ 'E')
    (cs : List Char) : EndsNumber (c :: cs) := by
  rintro _ ⟨⟩
  exact h

/-- A line end **ends** a number. -/
theorem endsNumber_newLine (level : ℕ) (cs : List Char) : EndsNumber (newLine level ++ cs) :=
  endsNumber_cons (by decide) _

/-! ### Texts of values -/

/-- A text that is **faithful** to a value for a reader that goes `depth` levels deep, whatever it
reads for half of a pair of code units. -/
structure Faithful (lone : ℕ → Char) (depth : ℕ) (v : Json) (text : List Char) : Prop where
  written : ∀ c ∈ text, IsWritten c
  starts : ∃ c cs, text = c :: cs ∧ isBlankChar c = false ∧ c ≠ ']'
  reads : ∀ rest, EndsNumber rest → readValue lone depth (text ++ rest) = .ok (v, rest)

namespace Faithful

variable {depth : ℕ} {v : Json} {text : List Char}

/-- A faithful text has **no blanks** before it. -/
theorem skipBlanks_append (h : Faithful lone depth v text) (rest : List Char) :
    skipBlanks (text ++ rest) = text ++ rest := by
  obtain ⟨c, cs, rfl, hc, -⟩ := h.starts
  exact skipBlanks_cons hc _

/-- Any text that starts neither a list nor an object is a scalar. -/
theorem of_scalar {c : Char} {cs : List Char} (hlist : c ≠ '[') (hobject : c ≠ '\x7b')
    (hblank : isBlankChar c = false) (hend : c ≠ ']') (hwritten : ∀ d ∈ c :: cs, IsWritten d)
    (hreads : ∀ rest, EndsNumber rest → readScalar lone (c :: cs ++ rest) = .ok (v, rest)) :
    Faithful lone depth v (c :: cs) where
  written := hwritten
  starts := ⟨c, cs, rfl, hblank, hend⟩
  reads rest hrest := by
    rw [List.cons_append, readValue.eq_5]
    · exact hreads rest hrest
    · rintro _ ⟨⟩
      exact hlist rfl
    · rintro _ ⟨⟩
      exact hobject rfl

end Faithful

/-! ### Scalars -/

section Scalars

variable {depth : ℕ}

/-- The word `null` is **faithful**. -/
theorem faithful_null : Faithful lone depth .null ['n', 'u', 'l', 'l'] :=
  .of_scalar (by decide) (by decide) rfl (by decide) (by simp [IsWritten, IsVisible])
    fun _ _ => rfl

/-- The word `true` is **faithful**. -/
theorem faithful_true : Faithful lone depth (.bool true) ['t', 'r', 'u', 'e'] :=
  .of_scalar (by decide) (by decide) rfl (by decide) (by simp [IsWritten, IsVisible])
    fun _ _ => rfl

/-- The word `false` is **faithful**. -/
theorem faithful_false : Faithful lone depth (.bool false) ['f', 'a', 'l', 's', 'e'] :=
  .of_scalar (by decide) (by decide) rfl (by decide) (by simp [IsWritten, IsVisible])
    fun _ _ => rfl

/-- A text in quotes, with its escapes, is **faithful**. -/
theorem faithful_str (s : String) : Faithful lone depth (.str s) (printString s) := by
  refine .of_scalar (by decide) (by decide) rfl (by decide)
    (fun c hc => .inl (isVisible_printString hc)) fun rest _ => ?_
  obtain ⟨after, hafter, hread⟩ := readString_printString s rest
  change readScalar lone (printString s ++ rest) = _
  rw [hafter, readScalar.eq_1, hread]
  rfl

/-- A character that starts a whole number. -/
theorem starts_toString (n : ℤ) :
    ∃ c cs, (toString n).toList = c :: cs ∧ (c = '-' ∨ isDigitChar c) := by
  rw [toList_toString]
  obtain ⟨c, cs, hcs⟩ :=
    List.exists_cons_of_ne_nil (Nat.toDigits_ne_nil (b := 10) (n := n.natAbs))
  split
  · exact ⟨'-', _, rfl, .inl rfl⟩
  · refine ⟨c, cs, hcs, .inr ?_⟩
    exact Nat.isDigit_of_mem_toDigits (by decide) (by decide) (hcs ▸ List.mem_cons_self)

/-- A whole number in its digits is **faithful**, if they are not too many. -/
theorem faithful_int {n : ℤ} (h : n.natAbs < 10 ^ digitLimit) :
    Faithful lone depth (.int n) (toString n).toList := by
  obtain ⟨c, cs, hcs, hc⟩ := starts_toString n
  have hne : c ≠ '[' ∧ c ≠ '\x7b' ∧ isBlankChar c = false ∧ c ≠ ']' ∧ c ≠ '"' := by
    rcases hc with rfl | hc
    · decide
    · have hother (d : Char) (hd : isDigitChar d = false) : c ≠ d := by
        rintro rfl
        exact Bool.false_ne_true (hd.symm.trans hc)
      have hblank : isBlankChar c = false := by
        simp [isBlankChar, hother ' ' rfl, hother '\t' rfl, hother '\n' rfl, hother '\r' rfl]
      exact ⟨hother _ rfl, hother _ rfl, hblank, hother _ rfl, hother _ rfl⟩
  obtain ⟨hlist, hobject, hblank, hend, hquote⟩ := hne
  have hwritten : ∀ d ∈ c :: cs, IsWritten d := fun d hd => .inl (isVisible_toString (hcs ▸ hd))
  rw [hcs]
  refine .of_scalar hlist hobject hblank hend hwritten fun rest hrest => ?_
  rw [readScalar.eq_2 lone (c :: cs ++ rest) fun _ heq => hquote (List.cons.inj heq).1, ← hcs,
    readNumber?_toString h hrest]

end Scalars

/-! ### Lists -/

section Items

variable {depth level : ℕ} {items : List Json}

/-- Items that read back **read back as a list**, after a first item and up to the closing
bracket. -/
theorem exists_printItems
    (h : ∀ v ∈ items, ∃ text, printValue level v = .ok text ∧ Faithful lone depth v text) :
    ∃ others, printItems level items = .ok others ∧ (∀ c ∈ others, IsWritten c) ∧
      items.length ≤ others.length ∧ ∀ {v : Json} {text : List Char}, Faithful lone depth v text →
        ∀ {budget : ℕ}, items.length < budget → ∀ (acc : List Json) (outer : ℕ) (tail : List Char),
          readItems (readValue lone depth) budget acc
            (text ++ (others ++ (newLine outer ++ ']' :: tail))) =
              .ok (acc.reverse ++ v :: items, tail) := by
  induction items with
  | nil =>
      refine ⟨[], rfl, nofun, le_rfl, fun {v text} hv {budget} hbudget acc outer tail => ?_⟩
      obtain ⟨budget, rfl⟩ := Nat.exists_eq_succ_of_ne_zero (Nat.ne_zero_of_lt hbudget)
      rw [List.nil_append, readItems, hv.reads _ (endsNumber_newLine _ _)]
      simp only [bind, Except.bind, skipBlanks_newLine, skipBlanks_cons (c := ']') rfl]
      simp [pure, Except.pure]
  | cons w items ih =>
      obtain ⟨text', hprint, hw⟩ := h w List.mem_cons_self
      obtain ⟨others, hothers, hwritten, hlength, hread⟩ :=
        ih fun v hv => h v (List.mem_cons_of_mem w hv)
      refine ⟨',' :: (newLine level ++ text' ++ others), ?_, fun c hc => ?_,
        by simp only [List.length_cons, List.length_append]; omega,
        fun {v text} hv {budget} hbudget acc outer tail => ?_⟩
      · rw [printItems, hprint, hothers]
        rfl
      · simp only [List.mem_cons, List.mem_append] at hc
        rcases hc with rfl | (hc | hc) | hc
        · exact .inl (by simp [IsVisible])
        · exact isWritten_newLine hc
        · exact hw.written c hc
        · exact hwritten c hc
      · obtain ⟨budget, rfl⟩ := Nat.exists_eq_succ_of_ne_zero (Nat.ne_zero_of_lt hbudget)
        rw [readItems, List.cons_append, hv.reads _ (endsNumber_cons (by decide) _)]
        simp only [bind, Except.bind, skipBlanks_cons (c := ',') rfl, List.append_assoc,
          skipBlanks_newLine, hw.skipBlanks_append]
        rw [hread hw (by simpa using hbudget)]
        simp

end Items

/-! ### Objects -/

section Members

variable {depth level : ℕ} {members : List (String × Json)}

/-- One member is read, and what follows its value decides how to go on. -/
theorem readMembers_printString {key : String} {v : Json} {text : List Char}
    (hv : Faithful lone depth v text) {acc : List (String × Json)} (hkey : key ∉ acc.map Prod.fst)
    (budget : ℕ) {rest : List Char} (hrest : EndsNumber rest) :
    readMembers lone (readValue lone depth) (budget + 1) acc
      (printString key ++ ':' :: ' ' :: (text ++ rest)) =
        match skipBlanks rest with
        | '\x7d' :: rest => .ok (acc ++ [(key, v)], rest)
        | ',' :: rest =>
          readMembers lone (readValue lone depth) budget (acc ++ [(key, v)]) (skipBlanks rest)
        | rest => .error (.invalid .expectingComma rest) := by
  obtain ⟨after, hafter, hread⟩ := readString_printString key (':' :: ' ' :: (text ++ rest))
  have hblank : skipBlanks (' ' :: (text ++ rest)) = text ++ rest := hv.skipBlanks_append rest
  rw [hafter, readMembers.eq_2, hread]
  simp only [bind, Except.bind, skipBlanks_cons (c := ':') rfl, hblank, hv.reads rest hrest,
    setMember_of_notMem hkey]
  rfl

/-- Members that read back **read back as an object**, after a first member and up to the closing
brace. -/
theorem exists_printMembers
    (h : ∀ m ∈ members, ∃ text, printValue level m.2 = .ok text ∧ Faithful lone depth m.2 text) :
    ∃ others, printMembers level members = .ok others ∧ (∀ c ∈ others, IsWritten c) ∧
      members.length ≤ others.length ∧
      ∀ {key : String} {v : Json} {text : List Char}, Faithful lone depth v text →
        ∀ {budget : ℕ}, members.length < budget →
          ∀ (acc : List (String × Json)), ((acc ++ (key, v) :: members).map Prod.fst).Nodup →
            ∀ (outer : ℕ) (tail : List Char),
              readMembers lone (readValue lone depth) budget acc (printString key ++
                (':' :: ' ' :: (text ++ (others ++ (newLine outer ++ '\x7d' :: tail))))) =
                  .ok (acc ++ (key, v) :: members, tail) := by
  induction members with
  | nil =>
      refine ⟨[], rfl, nofun, le_rfl,
        fun {key v text} hv {budget} hbudget acc hkeys outer tail => ?_⟩
      obtain ⟨budget, rfl⟩ := Nat.exists_eq_succ_of_ne_zero (Nat.ne_zero_of_lt hbudget)
      have hkey : key ∉ acc.map Prod.fst := notMem_of_nodup_keys hkeys
      rw [List.nil_append, readMembers_printString hv hkey budget (endsNumber_newLine _ _),
        skipBlanks_newLine, skipBlanks_cons (c := '\x7d') rfl]
      rfl
  | cons w members ih =>
      obtain ⟨key', w⟩ := w
      obtain ⟨text', hprint, hw⟩ := h (key', w) List.mem_cons_self
      obtain ⟨others, hothers, hwritten, hlength, hread⟩ :=
        ih fun m hm => h m (List.mem_cons_of_mem _ hm)
      refine ⟨',' :: (newLine level ++ printString key' ++ [':', ' '] ++ text' ++ others), ?_,
        fun c hc => ?_, by simp only [List.length_cons, List.length_append]; omega,
        fun {key v text} hv {budget} hbudget acc hkeys outer tail => ?_⟩
      · simp only [printMembers, hprint, hothers]
        rfl
      · simp only [List.mem_cons, List.mem_append, List.not_mem_nil, or_false] at hc
        rcases hc with rfl | ((((hc | hc) | hc) | hc) | hc)
        · exact .inl (by simp [IsVisible])
        · exact isWritten_newLine hc
        · exact .inl (isVisible_printString hc)
        · rcases hc with rfl | rfl <;> exact .inl (by simp [IsVisible])
        · exact hw.written c hc
        · exact hwritten c hc
      -- after the first member there is a comma, and what follows reads back by induction
      · obtain ⟨budget, rfl⟩ := Nat.exists_eq_succ_of_ne_zero (Nat.ne_zero_of_lt hbudget)
        have hkey : key ∉ acc.map Prod.fst := notMem_of_nodup_keys hkeys
        rw [List.cons_append,
          readMembers_printString hv hkey budget (endsNumber_cons (by decide) _),
          skipBlanks_cons (c := ',') rfl]
        simp only [List.append_assoc, skipBlanks_newLine, List.cons_append, List.nil_append]
        have hquote (rest : List Char) : skipBlanks (printString key' ++ rest) =
            printString key' ++ rest := skipBlanks_cons rfl _
        rw [hquote, hread hw (by simpa using hbudget) _ (by simpa using hkeys)]
        simp

end Members

/-! ### Values -/

/-- What stands between two brackets, on lines of its own, is **written** if its inside is. -/
theorem isWritten_between {start stop : Char} (hstart : IsVisible start) (hstop : IsVisible stop)
    {level outer : ℕ} {inner : List Char} (hinner : ∀ c ∈ inner, IsWritten c) :
    ∀ c ∈ start :: (newLine level ++ (inner ++ (newLine outer ++ [stop]))), IsWritten c := by
  intro c hc
  simp only [List.mem_cons, List.mem_append, List.not_mem_nil, or_false] at hc
  rcases hc with rfl | hc | hc | hc | rfl
  · exact .inl hstart
  · exact isWritten_newLine hc
  · exact hinner c hc
  · exact isWritten_newLine hc
  · exact .inl hstop

/-- A list that is not empty is read from its first item on. -/
theorem readValue_list {depth level : ℕ} {text tail : List Char} {items : List Json}
    (hblank : skipBlanks text = text) (hend : text.head? ≠ some ']')
    (h : readItems (readValue lone depth) (text.length + 1) [] text = .ok (items, tail)) :
    readValue lone (depth + 1) ('[' :: (newLine level ++ text)) = .ok (.arr items, tail) := by
  rw [readValue.eq_2, skipBlanks_newLine, hblank]
  split
  · exact absurd rfl hend
  · rw [h]
    rfl

/-- An object that is not empty is read from its first member on. -/
theorem readValue_object {depth level : ℕ} {text tail : List Char}
    {members : List (String × Json)} (hblank : skipBlanks text = text)
    (hend : text.head? ≠ some '\x7d')
    (h : readMembers lone (readValue lone depth) (text.length + 1) [] text = .ok (members, tail)) :
    readValue lone (depth + 1) ('\x7b' :: (newLine level ++ text)) =
      .ok (.obj () members, tail) := by
  rw [readValue.eq_4, skipBlanks_newLine, hblank]
  split
  · exact absurd rfl hend
  · rw [h]
    rfl

variable {depth : ℕ} {v : Json}

/-- Every plain value **has a text that reads back**. -/
theorem Plain.exists_faithful (h : Plain depth v) (level : ℕ) :
    ∃ text, printValue level v = .ok text ∧ Faithful lone depth v text := by
  induction h generalizing level with
  | null => exact ⟨_, rfl, faithful_null⟩
  | bool b =>
      cases b with
      | true => exact ⟨_, rfl, faithful_true⟩
      | false => exact ⟨_, rfl, faithful_false⟩
  | @int depth n h =>
      refine ⟨(toString n).toList, ?_, faithful_int h⟩
      rw [printValue, intText_of_lt h]
      rfl
  | str s => exact ⟨_, rfl, faithful_str s⟩
  | @arr depth items _ ih =>
      cases items with
      | nil =>
          exact ⟨['[', ']'], rfl, by simp [IsWritten, IsVisible], ⟨_, _, rfl, rfl, by decide⟩,
            fun _ _ => rfl⟩
      | cons v items =>
          obtain ⟨text, hprint, hv⟩ := ih v List.mem_cons_self (level + 1)
          obtain ⟨others, hothers, hwritten, hlength, hread⟩ := exists_printItems
            fun w hw => ih w (List.mem_cons_of_mem v hw) (level + 1)
          refine ⟨'[' :: (newLine (level + 1) ++ ((text ++ others) ++ (newLine level ++ [']']))),
            ?_, isWritten_between (by simp [IsVisible]) (by simp [IsVisible]) fun c hc => ?_,
            ⟨_, _, rfl, rfl, by decide⟩, fun rest _ => ?_⟩
          · rw [printValue, hprint, hothers]
            simp [bind, Except.bind, pure, Except.pure]
          · exact (List.mem_append.mp hc).elim (hv.written c) (hwritten c)
          -- the reader skips the line end, sees no closing bracket and reads the items
          · simp only [List.append_assoc, List.cons_append, List.nil_append]
            refine readValue_list (hv.skipBlanks_append _) ?_
              (hread hv (by simp only [List.length_append]; omega) [] level rest)
            obtain ⟨c, cs, rfl, -, hend⟩ := hv.starts
            exact fun heq => hend (Option.some.inj heq)
  | @obj depth members hkeys _ ih =>
      cases members with
      | nil =>
          exact ⟨['\x7b', '\x7d'], rfl, by simp [IsWritten, IsVisible],
            ⟨_, _, rfl, rfl, by decide⟩, fun _ _ => rfl⟩
      | cons m members =>
          obtain ⟨key, v⟩ := m
          obtain ⟨text, hprint, hv⟩ := ih (key, v) List.mem_cons_self (level + 1)
          obtain ⟨others, hothers, hwritten, hlength, hread⟩ := exists_printMembers
            fun w hw => ih w (List.mem_cons_of_mem _ hw) (level + 1)
          refine ⟨'\x7b' :: (newLine (level + 1) ++ ((printString key ++ ':' :: ' ' ::
            (text ++ others)) ++ (newLine level ++ ['\x7d']))), ?_,
            isWritten_between (by simp [IsVisible]) (by simp [IsVisible]) fun c hc => ?_,
            ⟨_, _, rfl, rfl, by decide⟩, fun rest _ => ?_⟩
          · simp only [printValue, hprint, hothers]
            simp [bind, Except.bind, pure, Except.pure]
          · simp only [List.mem_append, List.mem_cons] at hc
            rcases hc with hc | rfl | rfl | hc | hc
            · exact .inl (isVisible_printString hc)
            · exact .inl (by simp [IsVisible])
            · exact .inl (by simp [IsVisible])
            · exact hv.written c hc
            · exact hwritten c hc
          -- the reader skips the line end and finds the quote of the first key
          · simp only [List.append_assoc, List.cons_append, List.nil_append]
            exact readValue_object (skipBlanks_cons rfl _) (by simp [printString])
              (hread hv (by simp only [List.length_append, List.length_cons]; omega) [] hkeys
                level rest)

/-- **A plain value reads back exactly** from its text, which is in ASCII. -/
theorem Plain.read_print (h : Plain depth v) {reaches : Json → Bool} (hreaches : reaches v)
    (lone : ℕ → Char) :
    ∃ text, print reaches v = .ok text ∧ (∀ c ∈ text.toList, IsWritten c) ∧
      read lone depth text.toList = .ok v := by
  obtain ⟨text, hprint, hv⟩ := @exists_faithful lone _ _ h 0
  refine ⟨String.ofList text, by rw [print, if_pos hreaches, hprint]; rfl, ?_⟩
  rw [String.toList_ofList]
  refine ⟨hv.written, ?_⟩
  have hreads := hv.reads [] (by rintro _ ⟨⟩)
  have hblank := hv.skipBlanks_append []
  rw [List.append_nil] at hreads hblank
  rw [read.eq_2]
  · rw [hblank, hreads]
    rfl
  · rintro rest rfl
    have hmark := hv.written '\ufeff' List.mem_cons_self
    simp [IsWritten, IsVisible] at hmark

end Json

end TreeLint
