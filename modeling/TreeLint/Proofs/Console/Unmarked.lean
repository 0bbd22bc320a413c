import Mathlib.Data.List.Induction
import Mathlib.Data.List.TakeWhile
import TreeLint.Proofs.Console.Verbatim
import TreeLint.Proofs.Fallible

/-!
# Texts That Markup Leaves As They Are

A text that is put into markup is read as markup itself. It is shown **as it stands** exactly if
there is nothing to read in it (`IsUnmarked`): no tag, no backslash before a bracket, no character
that is dropped, and no name of a picture between colons.

Nothing is ever shown longer than it is written (`length_shown_le`), and a tag leaves a text
shorter: it goes with its brackets, or, escaped, at least with a backslash before it
(`length_shown_lt`). So a text that keeps its length has no tag, and what may have become of it then
is only that a picture stands for a name that is just as long. Since no tag reaches over a bracket,
a tag after a text cuts the markup in two (`piecesFrom_append_tag`), unless backslashes at the end
of the text take the tag literally.

All this holds for any table of pictures.

## Main results

* `induction_markup`: induction along the pieces of markup.
* `shown_eq_self_iff`: when a text is shown as it stands.
* `IsStyleName.exists_ofMarkup_enclosed_iff`: the same for a text between two tags and a text after
  them, `IsStyleName.chars_ne_of_getLast?_eq` if a backslash stands before the closing tag.
-/

namespace TreeLint.Console

/-! ### Tags -/

/-- The inside of a **tag**: it starts like one, and has no brackets in it. -/
structure IsTagBody (body : List Char) : Prop where
  start : ∃ first rest, body = first :: rest ∧ isTagStart first
  brackets : ∀ c ∈ body, c ≠ '[' ∧ c ≠ ']'

/-- What is read as the inside of a tag is **one**, up to the first closing bracket. -/
theorem tagBody?_eq_some_iff {cs body after : List Char} :
    tagBody? cs = some (body, after) ↔ IsTagBody body ∧ cs = body ++ ']' :: after := by
  constructor
  · intro h
    rw [tagBody?.eq_def] at h
    split at h
    · cases h
    · next c rest =>
      split at h
      · next hstart =>
        split at h
        · next after' hdrop =>
          obtain ⟨rfl, rfl⟩ := Prod.mk.inj (Option.some.inj h)
          have hsplit := List.takeWhile_append_dropWhile (p := fun d => d != ']' && d != '[')
            (l := rest)
          rw [hdrop] at hsplit
          refine ⟨⟨⟨c, _, rfl, hstart⟩, ?_⟩, by rw [List.cons_append, hsplit]⟩
          intro d hd
          rcases List.mem_cons.mp hd with rfl | hd
          · constructor <;> rintro rfl <;> simp [isTagStart] at hstart
          · have := List.mem_takeWhile_imp hd
            simpa [and_comm] using this
        · cases h
      · cases h
  · rintro ⟨⟨⟨first, rest, rfl, hstart⟩, hbrackets⟩, rfl⟩
    have hrest : ∀ d ∈ rest, (d != ']' && d != '[') = true := fun d hd => by
      simpa [and_comm] using hbrackets d (List.mem_cons_of_mem first hd)
    rw [List.cons_append, tagBody?, if_pos hstart, List.dropWhile_append_of_pos hrest,
      List.takeWhile_append_of_pos hrest]
    simp

/-- The inside of a tag is read **back**, whatever comes after it. -/
theorem IsTagBody.tagBody?_append {body : List Char} (h : IsTagBody body) (after : List Char) :
    tagBody? (body ++ ']' :: after) = some (body, after) :=
  tagBody?_eq_some_iff.mpr ⟨h, rfl⟩

/-- A text with a **tag** in it, escaped or not. -/
def HasTag (cs : List Char) : Prop :=
  ∃ front body after, IsTagBody body ∧ cs = front ++ '[' :: (body ++ ']' :: after)

/-- A text without characters has **no tag**. -/
theorem not_hasTag_nil : ¬ HasTag [] := by
  rintro ⟨front, body, after, -, h⟩
  simp at h

/-- A text has a tag **at its start** or further on. -/
theorem hasTag_cons_iff {c : Char} {cs : List Char} :
    HasTag (c :: cs) ↔ (c = '[' ∧ tagBody? cs ≠ none) ∨ HasTag cs := by
  constructor
  · rintro ⟨front, body, after, hbody, h⟩
    cases front with
    | nil =>
        obtain ⟨rfl, rfl⟩ := List.cons.inj h
        exact .inl ⟨rfl, by simp [hbody.tagBody?_append]⟩
    | cons d front =>
        obtain ⟨rfl, rfl⟩ := List.cons.inj h
        exact .inr ⟨front, body, after, hbody, rfl⟩
  · rintro (⟨rfl, h⟩ | ⟨front, body, after, hbody, rfl⟩)
    · obtain ⟨⟨body, after⟩, hsome⟩ := Option.ne_none_iff_exists'.mp h
      obtain ⟨hbody, rfl⟩ := tagBody?_eq_some_iff.mp hsome
      exact ⟨[], body, after, hbody, rfl⟩
    · exact ⟨c :: front, body, after, hbody, rfl⟩

/-- What is opened before a bracket is **not closed after it**. -/
theorem tagBody?_append_of_none {cs front rest : List Char} (h : tagBody? cs = none)
    (hfront : ']' ∉ front) : tagBody? (cs ++ (front ++ '[' :: rest)) = none := by
  by_contra hsome
  obtain ⟨⟨body, after⟩, hsome⟩ := Option.ne_none_iff_exists'.mp hsome
  obtain ⟨hbody, happend⟩ := tagBody?_eq_some_iff.mp hsome
  rcases List.append_eq_append_iff.mp happend with ⟨more, rfl, hmore⟩ | ⟨more, rfl, hmore⟩
  · rcases List.append_eq_append_iff.mp hmore with ⟨last, rfl, hlast⟩ | ⟨last, rfl, hlast⟩
    · -- The bracket would stand inside the tag.
      cases last with
      | nil => cases hlast
      | cons d last =>
          obtain ⟨rfl, -⟩ := List.cons.inj hlast
          exact (hbody.brackets '[' (by simp)).1 rfl
    · cases last with
      | nil => cases hlast
      | cons d last =>
          obtain ⟨rfl, -⟩ := List.cons.inj hlast
          exact hfront (by simp)
  · cases more with
    | nil =>
        cases front with
        | nil => cases hmore
        | cons d front =>
            obtain ⟨rfl, -⟩ := List.cons.inj hmore
            exact hfront List.mem_cons_self
    | cons d more =>
        obtain ⟨rfl, -⟩ := List.cons.inj hmore
        rw [hbody.tagBody?_append] at h
        cases h

/-! ### Pieces -/

/-- A bracketed text after some backslashes: one that is left over takes it **literally**. -/
def bracketed (slashes position : Nat) (body : List Char) : Piece :=
  if slashes % 2 = 1 then .text ('[' :: (body ++ [']'])) else .tag (.ofBody position body)

/-- A backslash is counted and **put aside** until it is known what it stands before. -/
theorem piecesFrom_slash (done : List Piece) (run : List Char) (slashes position : ℕ)
    (rest : List Char) :
    piecesFrom done run slashes position ('\\' :: rest) =
      piecesFrom done run (slashes + 1) (position + 1) rest := by
  rw [piecesFrom, if_pos rfl]

/-- A character that starts no tag joins the run, with the backslashes **before it**. -/
theorem piecesFrom_cons {c : Char} {rest : List Char} (hslash : c ≠ '\\')
    (htag : c = '[' → tagBody? rest = none) (done : List Piece) (run : List Char)
    (slashes position : ℕ) :
    piecesFrom done run slashes position (c :: rest) =
      piecesFrom done (c :: (List.replicate slashes '\\' ++ run)) 0 (position + 1) rest := by
  rw [piecesFrom, if_neg hslash]
  split
  · next hc =>
    subst hc
    split
    · rfl
    · next h => simp [htag rfl] at h
  · rfl

/-- A tag ends the run, with **half of the backslashes** before it. -/
theorem piecesFrom_tag {body : List Char} (hbody : IsTagBody body) (after : List Char)
    (done : List Piece) (run : List Char) (slashes position : ℕ) :
    piecesFrom done run slashes position ('[' :: (body ++ ']' :: after)) =
      piecesFrom (bracketed slashes position body ::
        (pending (List.replicate (slashes / 2) '\\') ++ (pending run ++ done))) [] 0
          (position + body.length + 2) after := by
  rw [piecesFrom, if_neg (by decide), if_pos rfl]
  split
  · next hnone => simp [hbody.tagBody?_append] at hnone
  · next body' after' hsome =>
    rw [hbody.tagBody?_append] at hsome
    obtain ⟨rfl, rfl⟩ := Prod.mk.inj (Option.some.inj hsome)
    dsimp only
    rw [bracketed]
    split <;> rfl

/-- Induction **along the pieces** of a text with markup. -/
theorem induction_markup {motive : List Char → Prop} (nil : motive [])
    (slash : ∀ rest, motive rest → motive ('\\' :: rest))
    (char : ∀ c rest, c ≠ '\\' → (c = '[' → tagBody? rest = none) → motive rest →
      motive (c :: rest))
    (tag : ∀ body after, IsTagBody body → motive after → motive ('[' :: (body ++ ']' :: after)))
    (cs : List Char) : motive cs := by
  induction h : cs.length using Nat.strongRecOn generalizing cs with
  | _ n ih =>
      cases cs with
      | nil => exact nil
      | cons c rest =>
          have hrest := ih rest.length (by simp [← h]) rest rfl
          by_cases hslash : c = '\\'
          · exact hslash ▸ slash rest hrest
          · cases htag : tagBody? rest with
            | none => exact char c rest hslash (fun _ => htag) hrest
            | some found =>
                obtain ⟨hbody, hsplit⟩ := tagBody?_eq_some_iff.mp htag
                by_cases hc : c = '['
                · rw [hc, hsplit]
                  refine tag _ _ hbody (ih _ ?_ found.2 rfl)
                  simp [← h, hsplit]
                  omega
                · exact char c rest hslash (fun h => absurd h hc) hrest

/-- A run is at most one piece, so its order does **not matter**. -/
theorem reverse_pending (run : List Char) : (pending run).reverse = pending run := by
  rw [pending]
  split <;> rfl

/-- The pieces that are **done** come first. -/
theorem piecesFrom_eq_append (done : List Piece) (run : List Char) (slashes position : ℕ)
    (cs : List Char) :
    piecesFrom done run slashes position cs =
      done.reverse ++ piecesFrom [] run slashes position cs := by
  induction cs using induction_markup generalizing done run slashes position with
  | nil => simp [piecesFrom]
  | slash rest ih => rw [piecesFrom_slash, piecesFrom_slash, ih]
  | char c rest hslash htag ih => rw [piecesFrom_cons hslash htag, piecesFrom_cons hslash htag, ih]
  | tag body after hbody ih =>
      rw [piecesFrom_tag hbody, piecesFrom_tag hbody, ih]
      conv_rhs => rw [ih]
      simp

/-- A text **without tags** is one piece. -/
theorem piecesFrom_of_not_hasTag {cs : List Char} (h : ¬ HasTag cs) (run : List Char)
    (slashes position : ℕ) :
    piecesFrom [] run slashes position cs =
      pending (cs.reverse ++ (List.replicate slashes '\\' ++ run)) := by
  induction cs using induction_markup generalizing run slashes position with
  | nil => rw [piecesFrom, List.append_nil, reverse_pending, List.reverse_nil, List.nil_append]
  | slash rest ih =>
      rw [hasTag_cons_iff, not_or] at h
      rw [piecesFrom_slash, ih h.2, List.replicate_succ]
      simp
  | char c rest hslash htag ih =>
      rw [hasTag_cons_iff, not_or] at h
      rw [piecesFrom_cons hslash htag, ih h.2]
      simp
  | tag body after hbody ih => exact absurd ⟨[], body, after, hbody, rfl⟩ h

/-! ### What is shown -/

variable {pictures : Pictures}

/-- A text piece as it is **shown**. -/
def shownText (pictures : Pictures) (cs : List Char) : List Char :=
  printable (pictures.replace (unescapeBrackets cs))

/-- What is **shown** of a piece. -/
def Piece.shown (pictures : Pictures) : Piece → List Char
  | .text cs => shownText pictures cs
  | .tag _ => []

/-- Unescaping brackets only **leaves characters out**. -/
theorem unescapeBrackets_sublist (cs : List Char) : (unescapeBrackets cs).Sublist cs := by
  fun_induction unescapeBrackets cs with
  | case1 => exact .slnil
  | case2 rest ih => exact (ih.cons_cons '[').cons '\\'
  | case3 c rest _ ih => exact ih.cons_cons c

/-- Unescaping changes a text unless there is **no escaped bracket** in it. -/
theorem unescapeBrackets_eq_self_iff {cs : List Char} :
    unescapeBrackets cs = cs ↔ ¬ ['\\', '['] <:+: cs := by
  fun_induction unescapeBrackets cs with
  | case1 => simp
  | case2 rest ih => exact iff_of_false (by simp) (not_not.mpr ⟨[], rest, rfl⟩)
  | case3 c rest hescape ih =>
      have hstart : ¬ ['\\', '['] <+: c :: rest := by
        rintro ⟨after, h⟩
        obtain ⟨rfl, rfl⟩ := List.cons.inj h
        exact hescape after rfl rfl
      rw [List.cons.injEq, and_iff_right rfl, ih, List.infix_cons_iff, or_iff_right hstart]

/-- Pictures never make a text **longer**. -/
theorem Pictures.length_replace_le (pictures : Pictures) (cs : List Char) :
    (pictures.replace cs).length ≤ cs.length := by
  have h := @length_replaceFrom_le pictures [] none cs
  rwa [scanned, List.reverse_nil, List.length_nil, Nat.zero_add] at h

/-- Dropping what moves the cursor only **leaves characters out**. -/
theorem printable_sublist (cs : List Char) : (printable cs).Sublist cs := List.filter_sublist

/-- A text is shown with **at most as many** characters. -/
theorem length_shownText_le (pictures : Pictures) (cs : List Char) :
    (shownText pictures cs).length ≤ cs.length :=
  calc (shownText pictures cs).length
      ≤ (pictures.replace (unescapeBrackets cs)).length := (printable_sublist _).length_le
    _ ≤ (unescapeBrackets cs).length := pictures.length_replace_le _
    _ ≤ cs.length := (unescapeBrackets_sublist cs).length_le

/-- A text in which markup has **nothing to read**: no tag, no escaped bracket, no character that is
dropped, and no name of a picture between colons. -/
structure IsUnmarked (pictures : Pictures) (cs : List Char) : Prop where
  tags : ¬ HasTag cs
  brackets : ¬ ['\\', '['] <:+: cs
  controls : ∀ c ∈ cs, isDropped c = false
  pictures : ∀ name ∈ pictureNames none cs, pictures.find? name = none

/-- A piece of text is shown **as it stands** exactly if there is nothing to change in it. Of the
three changes, two would leave it shorter, and none makes it longer. -/
theorem shownText_eq_self_iff {cs : List Char} :
    shownText pictures cs = cs ↔ ¬ ['\\', '['] <:+: cs ∧ (∀ c ∈ cs, isDropped c = false) ∧
      ∀ name ∈ pictureNames none cs, pictures.find? name = none := by
  rw [← unescapeBrackets_eq_self_iff, ← Pictures.replace_eq_self_iff]
  constructor
  · intro h
    have hlength := congrArg List.length h
    have hprintable := (printable_sublist (pictures.replace (unescapeBrackets cs))).length_le
    have hpictures := pictures.length_replace_le (unescapeBrackets cs)
    have hbrackets := (unescapeBrackets_sublist cs).length_le
    rw [shownText] at hlength h
    have hunescape : unescapeBrackets cs = cs :=
      (unescapeBrackets_sublist cs).eq_of_length (by omega)
    rw [hunescape] at h hlength hprintable hpictures
    have hreplace : printable (pictures.replace cs) = pictures.replace cs :=
      (printable_sublist _).eq_of_length (by omega)
    rw [hreplace] at h
    rw [h, printable, List.filter_eq_self] at hreplace
    exact ⟨hunescape, by simpa using hreplace, h⟩
  · rintro ⟨hunescape, hcontrols, hreplace⟩
    rw [shownText, hunescape, hreplace, printable, List.filter_eq_self]
    simpa using hcontrols

/-- The empty text has **nothing to mark**. -/
theorem isUnmarked_nil : IsUnmarked pictures [] :=
  ⟨not_hasTag_nil, by simp, List.forall_mem_nil _, List.forall_mem_nil _⟩

/-- Whether a character **means nothing** in markup. -/
def isInert (c : Char) : Bool := c != '\\' && c != '[' && c != ':' && !isDropped c

/-- Characters that mean nothing make no difference **before a text**. -/
theorem isUnmarked_append_iff {front cs : List Char} (h : ∀ c ∈ front, isInert c) :
    IsUnmarked pictures (front ++ cs) ↔ IsUnmarked pictures cs := by
  induction front with
  | nil => rfl
  | cons c front ih =>
      obtain ⟨hc, hfront⟩ := List.forall_mem_cons.mp h
      simp only [isInert, Bool.and_eq_true, bne_iff_ne, Bool.not_eq_true', and_assoc] at hc
      obtain ⟨hslash, hbracket, hcolon, hdropped⟩ := hc
      have htags : HasTag (c :: (front ++ cs)) ↔ HasTag (front ++ cs) := by
        simp [hasTag_cons_iff, hbracket]
      have hbrackets : ['\\', '['] <:+: c :: (front ++ cs) ↔ ['\\', '['] <:+: front ++ cs := by
        simp [List.infix_cons_iff, List.cons_prefix_cons, hslash.symm]
      have hpictures :
          pictureNames none (c :: (front ++ cs)) = pictureNames none (front ++ cs) := by
        simp [pictureNames, hcolon]
      rw [List.cons_append, ← ih hfront]
      constructor
      · intro h
        exact ⟨htags.not.mp h.tags, hbrackets.not.mp h.brackets,
          fun d hd => h.controls d (List.mem_cons_of_mem c hd), hpictures ▸ h.pictures⟩
      · intro h
        exact ⟨htags.not.mpr h.tags, hbrackets.not.mpr h.brackets,
          List.forall_mem_cons.mpr ⟨hdropped, h.controls⟩, hpictures.symm ▸ h.pictures⟩

/-- A run is shown **as its text**. -/
theorem flatMap_shown_pending (run : List Char) :
    (pending run).flatMap (Piece.shown pictures) = shownText pictures run.reverse := by
  rw [pending]
  split
  · next h =>
    rw [List.isEmpty_iff.mp h]
    rfl
  · simp [Piece.shown]

/-- A run is shown with **at most as many** characters. -/
theorem length_shown_pending_le (pictures : Pictures) (run : List Char) :
    ((pending run).flatMap (Piece.shown pictures)).length ≤ run.length := by
  rw [flatMap_shown_pending]
  exact (length_shownText_le pictures _).trans_eq List.length_reverse

/-- A tag is shown **shorter than it is written**, with the backslashes before it. -/
theorem length_shown_bracketed_lt (pictures : Pictures) (slashes position : ℕ) (body : List Char) :
    ((pending (List.replicate (slashes / 2) '\\')).flatMap (Piece.shown pictures)).length +
      ((bracketed slashes position body).shown pictures).length < slashes + body.length + 2 := by
  have hhalves := length_shown_pending_le pictures (List.replicate (slashes / 2) '\\')
  rw [List.length_replicate] at hhalves
  rw [bracketed]
  split
  · have htext := length_shownText_le pictures ('[' :: (body ++ [']']))
    simp only [List.length_cons, List.length_append, List.length_nil] at htext
    simp only [Piece.shown]
    omega
  · simp only [Piece.shown, List.length_nil]
    omega

/-- Nothing is shown longer than it is written, and a tag makes a text shorter. The induction needs
both at once: what stands after a tag need not have another one. -/
theorem length_shown (pictures : Pictures) (run : List Char) (slashes position : ℕ)
    (cs : List Char) :
    ((piecesFrom [] run slashes position cs).flatMap (Piece.shown pictures)).length ≤
        run.length + slashes + cs.length ∧
      (HasTag cs → ((piecesFrom [] run slashes position cs).flatMap (Piece.shown pictures)).length <
        run.length + slashes + cs.length) := by
  induction cs using induction_markup generalizing run slashes position with
  | nil =>
      refine ⟨?_, fun h => absurd h not_hasTag_nil⟩
      rw [piecesFrom, List.append_nil, reverse_pending]
      refine (length_shown_pending_le pictures _).trans ?_
      simp
      omega
  | slash rest ih =>
      rw [piecesFrom_slash, List.length_cons]
      obtain ⟨hle, hlt⟩ := ih run (slashes + 1) (position + 1)
      refine ⟨by omega, fun h => ?_⟩
      have hshorter := hlt ((hasTag_cons_iff.mp h).resolve_left (by simp))
      omega
  | char c rest hslash htag ih =>
      rw [piecesFrom_cons hslash htag]
      obtain ⟨hle, hlt⟩ := ih (c :: (List.replicate slashes '\\' ++ run)) 0 (position + 1)
      simp at hle hlt ⊢
      refine ⟨by omega, fun h => ?_⟩
      have hshorter := hlt ((hasTag_cons_iff.mp h).resolve_left fun h => h.2 (htag h.1))
      omega
  | tag body after hbody ih =>
      rw [piecesFrom_tag hbody, piecesFrom_eq_append]
      have hafter := (ih [] 0 (position + body.length + 2)).1
      have hrun := length_shown_pending_le pictures run
      have htag := length_shown_bracketed_lt pictures slashes position body
      simp [reverse_pending] at hafter hrun htag ⊢
      omega

/-- Nothing is shown **longer than it is written**. -/
theorem length_shown_le (pictures : Pictures) (position : ℕ) (cs : List Char) :
    ((piecesFrom [] [] 0 position cs).flatMap (Piece.shown pictures)).length ≤ cs.length := by
  simpa using (length_shown pictures [] 0 position cs).1

/-- A text **with a tag** is shown shorter than it is written. -/
theorem length_shown_lt (pictures : Pictures) {cs : List Char} (h : HasTag cs) (position : ℕ) :
    ((piecesFrom [] [] 0 position cs).flatMap (Piece.shown pictures)).length < cs.length := by
  simpa using (length_shown pictures [] 0 position cs).2 h

/-- A text is shown **as it stands** exactly if it is unmarked. -/
theorem shown_eq_self_iff (position : ℕ) {cs : List Char} :
    (piecesFrom [] [] 0 position cs).flatMap (Piece.shown pictures) = cs ↔
      IsUnmarked pictures cs := by
  by_cases htag : HasTag cs
  · refine iff_of_false (fun h => ?_) fun h => h.tags htag
    exact (length_shown_lt pictures htag position).ne (congrArg List.length h)
  · have hshown : (piecesFrom [] [] 0 position cs).flatMap (Piece.shown pictures) =
        shownText pictures cs := by
      rw [piecesFrom_of_not_hasTag htag, flatMap_shown_pending]
      simp
    rw [hshown, shownText_eq_self_iff]
    exact ⟨fun h => ⟨htag, h.1, h.2.1, h.2.2⟩, fun h => ⟨h.brackets, h.controls, h.pictures⟩⟩

/-! ### Texts between tags -/

/-- Backslashes in a row are **counted**. -/
theorem piecesFrom_replicate (done : List Piece) (run : List Char) (slashes position n : ℕ)
    (rest : List Char) :
    piecesFrom done run slashes position (List.replicate n '\\' ++ rest) =
      piecesFrom done run (slashes + n) (position + n) rest := by
  induction n generalizing slashes position with
  | zero => rfl
  | succ n ih =>
      rw [List.replicate_succ, List.cons_append, piecesFrom_slash, ih]
      congr 1 <;> omega

/-- The pieces of a text, of **a tag after it** with some backslashes before the tag, and of the
rest. -/
theorem piecesFrom_append_tag {cs body : List Char} (hbody : IsTagBody body)
    (hcs : cs.getLast? ≠ some '\\') (n : ℕ) (after : List Char) (done : List Piece)
    (run : List Char) {slashes : ℕ} (hslashes : cs = [] → slashes = 0) (position : ℕ) :
    ∃ start next, piecesFrom done run slashes position
        (cs ++ (List.replicate n '\\' ++ '[' :: (body ++ ']' :: after))) =
      piecesFrom done run slashes position cs ++ (pending (List.replicate (n / 2) '\\') ++
        bracketed n start body :: piecesFrom [] [] 0 next after) := by
  induction cs using induction_markup generalizing done run slashes position with
  | nil =>
      refine ⟨position + n, position + n + body.length + 2, ?_⟩
      rw [hslashes rfl, List.nil_append, piecesFrom_replicate, piecesFrom_tag hbody,
        piecesFrom_eq_append, piecesFrom]
      simp [reverse_pending]
  | slash rest ih =>
      have hrest : rest ≠ [] := by
        rintro rfl
        simp at hcs
      rw [List.getLast?_cons_of_ne_nil hrest] at hcs
      rw [List.cons_append, piecesFrom_slash, piecesFrom_slash]
      exact ih hcs done run (fun h => absurd h hrest) (position + 1)
  | char c rest hslash htag ih =>
      have hnone : c = '[' → tagBody? (rest ++ (List.replicate n '\\' ++ '[' ::
          (body ++ ']' :: after))) = none := fun hc =>
        tagBody?_append_of_none (htag hc) fun h => by simp [List.mem_replicate] at h
      rw [List.cons_append, piecesFrom_cons hslash hnone, piecesFrom_cons hslash htag]
      refine ih (fun h => hcs ?_) done _ (fun _ => rfl) (position + 1)
      rw [List.getLast?_cons, h, Option.getD_some]
  | tag body' after' hbody' ih =>
      rw [List.cons_append, List.append_assoc, List.cons_append, piecesFrom_tag hbody',
        piecesFrom_tag hbody']
      refine ih (fun h => hcs ?_) _ [] (fun _ => rfl) _
      simp [List.getLast?_cons, List.getLast?_append, h]

/-- A text ends in some number of backslashes. -/
theorem exists_append_replicate (cs : List Char) :
    ∃ front n, cs = front ++ List.replicate n '\\' ∧ front.getLast? ≠ some '\\' := by
  induction cs using List.reverseRecOn with
  | nil => exact ⟨[], 0, rfl, by simp⟩
  | append_singleton cs c ih =>
      by_cases hc : c = '\\'
      · obtain ⟨front, n, rfl, hfront⟩ := ih
        exact ⟨front, n + 1, by rw [hc, List.replicate_succ', List.append_assoc], hfront⟩
      · exact ⟨cs ++ [c], 0, by simp, by simpa using hc⟩

/-! ### Reading tags -/

namespace Reading

variable {r r' : Reading}

/-- A tag leaves the **characters** as they are. -/
theorem chars_of_addTag {t : Tag} (h : r.addTag t = .ok r') : r'.chars = r.chars := by
  rw [addTag.eq_def] at h
  split at h
  · obtain ⟨closed, -, h⟩ := bind_eq_ok.mp h
    obtain ⟨span, -, h⟩ := bind_eq_ok.mp h
    obtain rfl := Except.ok.inj h
    rfl
  · obtain ⟨name, -, h⟩ := bind_eq_ok.mp h
    obtain rfl := Except.ok.inj h
    rfl

/-- What has been read is what is **shown of the pieces**. -/
theorem chars_of_addAll {ps : List Piece} (h : r.addAll pictures ps = .ok r') :
    r'.chars.reverse.flatten = r.chars.reverse.flatten ++ ps.flatMap (Piece.shown pictures) := by
  induction ps generalizing r with
  | nil =>
      obtain rfl := Except.ok.inj h
      simp
  | cons p ps ih =>
      cases p with
      | text cs =>
          rw [ih h]
          simp [addText, Piece.shown, shownText]
      | tag t =>
          obtain ⟨next, hnext, h⟩ := bind_eq_ok.mp h
          rw [ih h, chars_of_addTag hnext]
          rfl

/-- A text **opens and closes nothing**. -/
theorem exists_addAll_pending (r : Reading) (run : List Char) (ps : List Piece) :
    ∃ next : Reading, next.opened = r.opened ∧
      r.addAll pictures (pending run ++ ps) = next.addAll pictures ps := by
  rw [pending]
  split
  · exact ⟨r, rfl, rfl⟩
  · exact ⟨r.addText pictures run.reverse, rfl, rfl⟩

end Reading

/-- The characters of markup are those that its pieces **show**. -/
theorem chars_of_ofMarkup {markup : List Char} {t : StyledText}
    (h : ofMarkup pictures markup = .ok t) :
    t.chars = (pieces markup).flatMap (Piece.shown pictures) := by
  obtain ⟨r, hr, h⟩ := bind_eq_ok.mp h
  obtain rfl := Except.ok.inj h
  exact Reading.chars_of_addAll hr

/-- The **name of a style** in a tag, with its normal form. -/
structure IsStyleName (name : List Char) (form : String) : Prop where
  body : IsTagBody name
  opens : name.head? ≠ some '/'
  equals : '=' ∉ name
  trimmed : Text.trim name = name
  normalForm : styleNormalForm (String.ofList name) = .ok form
  action : form.startsWith "@" = false

/-- What stands after the name in a tag. -/
def parameterText : Option (List Char) → List Char
  | some parameters => '=' :: parameters
  | none => []

/-- The inside of a tag is taken apart **at the equals sign**. -/
theorem Tag.ofBody_append {name : List Char} (h : '=' ∉ name) (parameters : Option (List Char))
    (position : ℕ) :
    Tag.ofBody position (name ++ parameterText parameters) = ⟨name, parameters, position⟩ := by
  have hname : ∀ c ∈ name, (c != '=') = true := fun c hc => by
    simpa using fun heq : c = '=' => h (heq ▸ hc)
  cases parameters with
  | none => simp [Tag.ofBody, parameterText, List.takeWhile_eq_self_iff.mpr hname]
  | some parameters => simp [Tag.ofBody, parameterText, List.takeWhile_append_of_pos hname]

/-- Markup with a text **between an opening and a closing tag** and a text after them. -/
def enclosed (name : List Char) (parameters : Option (List Char)) (inside after : List Char) :
    List Char :=
  '[' :: (name ++ parameterText parameters ++ ']' ::
    (inside ++ '[' :: ('/' :: name ++ ']' :: after)))

namespace IsStyleName

variable {name : List Char} {form : String} (h : IsStyleName name form)

include h

/-- A name with parameters is the inside of a tag, if they have **no brackets**. -/
theorem isTagBody_opening {parameters : Option (List Char)}
    (hparameters : ∀ c ∈ parameters.getD [], c ≠ '[' ∧ c ≠ ']') :
    IsTagBody (name ++ parameterText parameters) := by
  obtain ⟨first, rest, rfl, hstart⟩ := h.body.start
  refine ⟨⟨first, rest ++ parameterText parameters, rfl, hstart⟩, fun c hc => ?_⟩
  rcases List.mem_append.mp hc with hc | hc
  · exact h.body.brackets c hc
  · cases parameters with
    | none => cases hc
    | some parameters =>
        rcases List.mem_cons.mp hc with rfl | hc
        · decide
        · exact hparameters c hc

/-- A name after a slash is the inside of a tag. -/
theorem isTagBody_closing : IsTagBody ('/' :: name) := by
  refine ⟨⟨'/', name, rfl, by decide⟩, fun c hc => ?_⟩
  rcases List.mem_cons.mp hc with rfl | hc
  · decide
  · exact h.body.brackets c hc

/-- An opening tag is **open** after it, from where the text has come to. -/
theorem addTag_opening (r : Reading) (parameters : Option (List Char)) (position : ℕ) :
    r.addTag (.ofBody position (name ++ parameterText parameters)) =
      .ok { r with opened := ⟨r.length, form, parameters⟩ :: r.opened } := by
  rw [Tag.ofBody_append h.equals, Reading.addTag.eq_def]
  split
  · next hslash => exact absurd (congrArg List.head? hslash) (by simpa using h.opens)
  · dsimp only
    rw [h.normalForm]
    rfl

/-- A closing tag for the last open one has **something to close**. -/
theorem exists_addTag_closing {r : Reading} {t : OpenTag} {opened : List OpenTag}
    (hopened : r.opened = t :: opened) (ht : t.name = form) (position : ℕ) :
    ∃ next, r.addTag (.ofBody position ('/' :: name)) = .ok next := by
  have hname : name.isEmpty = false := by
    obtain ⟨first, rest, rfl, -⟩ := h.body.start
    rfl
  have hequals : '=' ∉ '/' :: name := by simp [h.equals]
  have hbody := Tag.ofBody_append hequals none position
  rw [parameterText, List.append_nil] at hbody
  have hclosed : r.closedBy ⟨'/' :: name, none, position⟩ (Text.trim name) = .ok (t, opened) := by
    rw [h.trimmed, Reading.closedBy, hname, h.normalForm, hopened, ← ht]
    simp [bind, Except.bind, pure, Except.pure, closeName?]
  have hspan : t.close r.length = .ok ⟨t.start, r.length, some t.style⟩ := by
    rw [OpenTag.close, ht, h.action]
    rfl
  rw [hbody]
  exact ⟨_, bind_eq_ok.mpr ⟨_, hclosed, bind_eq_ok.mpr ⟨_, mapError_eq_ok.mpr hspan, rfl⟩⟩⟩

/-- A text between tags and a text after them are **read**. -/
theorem exists_addAll (parameters : Option (List Char)) (first last : ℕ)
    (inside after : List Char) :
    ∃ r, Reading.addAll pictures {} (.tag (.ofBody first (name ++ parameterText parameters)) ::
      (pending inside ++ .tag (.ofBody last ('/' :: name)) :: pending after)) = .ok r := by
  obtain ⟨middle, hopened, hmiddle⟩ := Reading.exists_addAll_pending
    { opened := [⟨0, form, parameters⟩] } inside
    (.tag (.ofBody last ('/' :: name)) :: pending after)
  obtain ⟨closed, hclosed⟩ := h.exists_addTag_closing hopened rfl last
  obtain ⟨final, -, hfinal⟩ := Reading.exists_addAll_pending closed after []
  rw [List.append_nil] at hfinal
  refine ⟨final, bind_eq_ok.mpr ⟨_, h.addTag_opening {} parameters first, hmiddle.trans ?_⟩⟩
  exact bind_eq_ok.mpr ⟨closed, hclosed, hfinal⟩

variable {parameters : Option (List Char)}
  (hparameters : ∀ c ∈ parameters.getD [], c ≠ '[' ∧ c ≠ ']') {front : List Char}
  (hfront : front.getLast? ≠ some '\\')

include hparameters hfront

/-- The **pieces** of markup with a text between tags, which ends in some backslashes. -/
theorem exists_pieces_enclosed (n : ℕ) (after : List Char) :
    ∃ inner start next,
      pieces (enclosed name parameters (front ++ List.replicate n '\\') after) =
        .tag (.ofBody 0 (name ++ parameterText parameters)) :: (piecesFrom [] [] 0 inner front ++
          (pending (List.replicate (n / 2) '\\') ++
            bracketed n start ('/' :: name) :: piecesFrom [] [] 0 next after)) := by
  obtain ⟨start, next, hpieces⟩ := piecesFrom_append_tag h.isTagBody_closing hfront n after [] []
    (fun _ => rfl) (0 + (name ++ parameterText parameters).length + 2)
  refine ⟨0 + (name ++ parameterText parameters).length + 2, start, next, ?_⟩
  rw [pieces, enclosed, piecesFrom_tag (h.isTagBody_opening hparameters), piecesFrom_eq_append,
    List.append_assoc, hpieces]
  rfl

/-- A text between tags and a text after them are shown **as they stand** exactly if they are
unmarked. -/
theorem exists_ofMarkup_enclosed_iff {after : List Char} :
    (∃ t, ofMarkup pictures (enclosed name parameters front after) = .ok t ∧
        t.chars = front ++ after) ↔
      IsUnmarked pictures front ∧ IsUnmarked pictures after := by
  obtain ⟨inner, start, next, hpieces⟩ := h.exists_pieces_enclosed hparameters hfront 0 after
  rw [List.replicate_zero, List.append_nil] at hpieces
  constructor
  · rintro ⟨t, ht, hchars⟩
    -- Neither text is shown longer than it is written, so each of them is shown as it is written.
    have hle := length_shown_le pictures inner front
    have hle' := length_shown_le pictures next after
    have hshown : (piecesFrom [] [] 0 inner front).flatMap (Piece.shown pictures) ++
        (piecesFrom [] [] 0 next after).flatMap (Piece.shown pictures) = front ++ after := by
      rw [← hchars, chars_of_ofMarkup ht, hpieces]
      simp [Piece.shown, bracketed, pending]
    have hlength := congrArg List.length hshown
    simp only [List.length_append] at hlength
    obtain ⟨hinside, hafter⟩ := List.append_inj hshown (by omega)
    exact ⟨(shown_eq_self_iff inner).mp hinside, (shown_eq_self_iff next).mp hafter⟩
  · rintro ⟨hinside, hafter⟩
    have hread : ∃ t, ofMarkup pictures (enclosed name parameters front after) = .ok t := by
      rw [piecesFrom_of_not_hasTag hinside.tags, piecesFrom_of_not_hasTag hafter.tags] at hpieces
      obtain ⟨r, hr⟩ := h.exists_addAll parameters 0 start _ _
      exact ⟨r.finish, bind_eq_ok.mpr ⟨r, hpieces ▸ hr, rfl⟩⟩
    obtain ⟨t, ht⟩ := hread
    refine ⟨t, ht, ?_⟩
    rw [chars_of_ofMarkup ht, hpieces]
    have hshown := (shown_eq_self_iff inner).mpr hinside
    have hshown' := (shown_eq_self_iff next).mpr hafter
    simp [Piece.shown, bracketed, pending, hshown, hshown']

omit hfront in
/-- A text that **ends in a backslash** is not shown as it stands before a closing tag: the
backslash takes the tag literally, or is lost beside another one. -/
theorem chars_ne_of_getLast?_eq {inside : List Char}
    (hclosing : (shownText pictures ('[' :: ('/' :: name ++ [']']))).getLast? = some ']')
    (hlast : inside.getLast? = some '\\') {t : StyledText}
    (ht : ofMarkup pictures (enclosed name parameters inside []) = .ok t) : t.chars ≠ inside := by
  obtain ⟨front, n, rfl, hfront⟩ := exists_append_replicate inside
  obtain ⟨inner, start, next, hpieces⟩ := h.exists_pieces_enclosed hparameters hfront n []
  intro heq
  have hshown : front ++ List.replicate n '\\' =
      (piecesFrom [] [] 0 inner front).flatMap (Piece.shown pictures) ++
        ((pending (List.replicate (n / 2) '\\')).flatMap (Piece.shown pictures) ++
          (bracketed n start ('/' :: name)).shown pictures) := by
    rw [← heq, chars_of_ofMarkup ht, hpieces]
    simp [Piece.shown, piecesFrom, pending]
  by_cases hodd : n % 2 = 1
  · -- The tag is shown, so that what is shown ends in a bracket.
    rw [hshown, bracketed, if_pos hodd, Piece.shown, List.getLast?_append, List.getLast?_append,
      hclosing] at hlast
    cases hlast
  · -- Half of the backslashes are shown, and there are some.
    have hlength := congrArg List.length hshown
    have hle := length_shown_le pictures inner front
    have hhalves := length_shown_pending_le pictures (List.replicate (n / 2) '\\')
    rw [bracketed, if_neg hodd, Piece.shown] at hlength
    simp only [List.length_append, List.length_replicate, List.length_nil] at hlength hhalves
    obtain rfl : n = 0 := by omega
    rw [List.replicate_zero, List.append_nil] at hlast
    exact hfront hlast

end IsStyleName

end TreeLint.Console
