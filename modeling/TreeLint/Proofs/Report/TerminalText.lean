import TreeLint.Proofs.Console.Unmarked
import TreeLint.Proofs.File.Entries
import TreeLint.Report.Terminal

/-!
# Paths and Errors on the Terminal

The line on a file that could not be analysed and the title of a file's table are markup, into which
the path and the error are put as they come. They are shown **as they stand** exactly if there is
nothing in them that markup reads (`Console.IsUnmarked`). What stands beside them matters too: the
colon after the path of a failed file can end the name of a picture, and a backslash at the end of
the path in a title meets the closing tag. A title has to link to its file besides, which a path
with a null character cannot have.

## Main results

* `Terminal.exists_failureMarkup_iff`: the line on a file that could not be analysed.
* `Terminal.exists_title_iff`: the title of a table.
* `Terminal.shown_as_written_iff`: both.
-/

namespace TreeLint

open Console

/-! ### Paths of files -/

/-- The characters of a text are those of its **components**, slashes and dots apart. -/
theorem Path.exists_mem_partsOf_iff {c : Char} (hslash : c ≠ '/') (hdot : c ≠ '.')
    (cs : List Char) : (∃ part ∈ partsOf cs, c ∈ part.toList) ↔ c ∈ cs := by
  induction h : cs.length using Nat.strongRecOn generalizing cs with
  | _ n ih =>
      by_cases hmem : '/' ∈ cs
      · obtain ⟨front, back, rfl⟩ := List.append_of_mem hmem
        have hfront := ih front.length (by simp [← h]) front rfl
        have hback := ih back.length (by simp [← h]; omega) back rfl
        simp only [partsOf_append_slash, List.mem_append, or_and_right, exists_or, hfront, hback,
          List.mem_cons, hslash, false_or]
      · rw [partsOf, List.splitOn_eq_singleton hmem]
        by_cases hcs : cs = [] ∨ cs = ['.']
        · rcases hcs with rfl | rfl <;> simp [hdot]
        · rw [not_or] at hcs
          have hpart : String.ofList cs ≠ "" ∧ String.ofList cs ≠ "." := by
            simpa [String.ext_iff] using hcs
          simp [hpart]

/-- The path of a text can name something exactly if the text has **no null character**. -/
theorem FileSystem.isNameable_ofText_iff (text : String) :
    isNameable (.ofText text) ↔ '\x00' ∉ text.toList := by
  rw [isNameable_iff, Path.ofText_eq,
    ← Path.exists_mem_partsOf_iff (c := '\x00') (by decide) (by decide)]
  simp

namespace Terminal

/-! ### Addresses -/

/-- A digit of a number is **a digit**. -/
theorem exists_of_mem_toDigits {c : Char} {n : ℕ} (h : c ∈ Nat.toDigits 16 n) :
    ∃ d < 16, c = d.digitChar := by
  induction n using Nat.strongRecOn with
  | _ n ih =>
      rw [Nat.toDigits_eq_if (by decide)] at h
      split at h
      · next hn => exact ⟨n, hn, List.mem_singleton.mp h⟩
      · rcases List.mem_append.mp h with h | h
        · exact ih (n / 16) (by omega) h
        · exact ⟨n % 16, by omega, List.mem_singleton.mp h⟩

/-- An address has **no brackets**. -/
theorem of_mem_addressByte {b : UInt8} {c : Char} (h : c ∈ addressByte b) : c ≠ '[' ∧ c ≠ ']' := by
  have hdigit : ∀ d < 16, (Nat.digitChar d).toUpper ≠ '[' ∧ (Nat.digitChar d).toUpper ≠ ']' := by
    decide
  rw [addressByte] at h
  split at h
  · next hc =>
    rw [List.mem_singleton.mp h]
    constructor <;> intro heq <;> rw [heq] at hc <;> exact absurd hc (by decide)
  · rcases List.mem_cons.mp h with rfl | h
    · decide
    · obtain ⟨digit, hmem, rfl⟩ := List.mem_map.mp h
      rcases List.mem_append.mp hmem with hzero | hmem
      · rw [List.eq_of_mem_replicate hzero]
        decide
      · obtain ⟨d, hd, rfl⟩ := exists_of_mem_toDigits hmem
        exact hdigit d hd

/-- There is no bracket in **an address**. -/
theorem of_mem_address {current : List String} {path : Path} {c : Char}
    (h : c ∈ (address current path).toList) : c ≠ '[' ∧ c ≠ ']' := by
  have hscheme : ∀ d ∈ "file://".toList, d ≠ '[' ∧ d ≠ ']' := by simp
  rw [address, String.toList_append] at h
  rcases List.mem_append.mp h with h | h
  · exact hscheme c h
  · rw [String.toList_ofList] at h
    obtain ⟨b, -, hb⟩ := List.mem_flatMap.mp h
    exact of_mem_addressByte hb

/-! ### The tags of a report -/

/-- The two tags that are used are **styles**. -/
theorem styleNormalForm_tags : styleNormalForm (String.ofList ['r', 'e', 'd']) = .ok "red" ∧
    styleNormalForm (String.ofList ['l', 'i', 'n', 'k']) = .ok "link" := by
  decide +kernel

/-- The tag for errors is **the name of a style**. -/
theorem isStyleName_red : IsStyleName ['r', 'e', 'd'] "red" where
  body := ⟨⟨'r', ['e', 'd'], rfl, rfl⟩, by simp⟩
  opens := by decide
  equals := by decide
  trimmed := by cbv
  normalForm := styleNormalForm_tags.1
  action := by simp

/-- The tag for links is **the name of a style**. -/
theorem isStyleName_link : IsStyleName ['l', 'i', 'n', 'k'] "link" where
  body := ⟨⟨'l', ['i', 'n', 'k'], rfl, rfl⟩, by simp⟩
  opens := by decide
  equals := by decide
  trimmed := by cbv
  normalForm := styleNormalForm_tags.2
  action := by simp

/-- A failure is marked up as **one pair of tags** with a text after it. -/
theorem toList_failureMarkup (path error : String) :
    (failureMarkup path error).toList = enclosed ['r', 'e', 'd'] none
      ("Could not analyse ".toList ++ (path ++ ":").toList) (' ' :: error.toList) := by
  have hopening : "[red]Could not analyse ".toList =
      '[' :: 'r' :: 'e' :: 'd' :: ']' :: "Could not analyse ".toList := rfl
  have hclosing : ":[/red] ".toList = ":".toList ++ ['[', '/', 'r', 'e', 'd', ']', ' '] := rfl
  unfold failureMarkup
  rw [String.toList_append, String.toList_append, String.toList_append, String.toList_append,
    hopening, hclosing]
  simp only [enclosed, parameterText, List.append_assoc, List.cons_append, List.nil_append]

/-- A link is marked up as **one pair of tags** around the path. -/
theorem toList_link (target path : String) :
    ("[link=" ++ target ++ "]" ++ path ++ "[/link]").toList =
      enclosed ['l', 'i', 'n', 'k'] (some target.toList) path.toList [] := by
  simp [enclosed, parameterText]

/-! ### What is shown -/

/-- The line on a failure is shown **as it stands** exactly if its path, with the colon after it,
and its error are unmarked. -/
theorem exists_failureMarkup_iff (pictures : Pictures) (path error : String) :
    (∃ t, ofMarkup pictures (failureMarkup path error).toList = .ok t ∧
      String.ofList t.chars = "Could not analyse " ++ path ++ ": " ++ error) ↔
        IsUnmarked pictures (path ++ ":").toList ∧ IsUnmarked pictures error.toList := by
  have hline (t : StyledText) :
      String.ofList t.chars = "Could not analyse " ++ path ++ ": " ++ error ↔
        t.chars = ("Could not analyse ".toList ++ (path ++ ":").toList) ++ ' ' :: error.toList := by
    rw [String.ext_iff, String.toList_ofList, String.toList_append, String.toList_append,
      String.toList_append, String.toList_append]
    simp
  have hlast : ("Could not analyse ".toList ++ (path ++ ":").toList).getLast? ≠ some '\\' := by
    have hcolon : ":".toList = [':'] := rfl
    rw [String.toList_append, ← List.append_assoc, hcolon, List.getLast?_concat]
    decide
  have hword : ∀ c ∈ "Could not analyse ".toList, isInert c := List.all_eq_true.mp rfl
  have hblank : ∀ c ∈ [' '], isInert c := List.all_eq_true.mp rfl
  simp only [toList_failureMarkup, hline]
  rw [isStyleName_red.exists_ofMarkup_enclosed_iff (by simp) hlast, isUnmarked_append_iff hword,
    ← List.singleton_append, isUnmarked_append_iff hblank]

/-- The title of a table is shown **as the path** exactly if the path can be that of a file, is
unmarked and does not end in a backslash. -/
theorem exists_title_iff (pictures : Pictures) (current : List String) (path : String) :
    (∃ markup t, title current path = .ok markup ∧ ofMarkup pictures markup.toList = .ok t ∧
      String.ofList t.chars = path) ↔
        '\x00' ∉ path.toList ∧ IsUnmarked pictures path.toList ∧
          path.toList.getLast? ≠ some '\\' := by
  have hpath (t : StyledText) : String.ofList t.chars = path ↔ t.chars = path.toList := by
    rw [String.ext_iff, String.toList_ofList]
  have htarget : ∀ c ∈ (some (address current (.ofText path)).toList).getD [], c ≠ '[' ∧ c ≠ ']' :=
    fun c => of_mem_address
  have hclosing : (shownText pictures ['[', '/', 'l', 'i', 'n', 'k', ']']).getLast? = some ']' := by
    rw [shownText_eq_self_iff.mpr ⟨by decide, by simp [Console.isDropped], by simp [pictureNames]⟩]
    rfl
  rw [← FileSystem.isNameable_ofText_iff, title]
  split
  · next hnameable =>
    simp only [Except.ok.injEq, exists_and_left, exists_eq_left', hpath, toList_link,
      hnameable, true_and]
    by_cases hlast : path.toList.getLast? = some '\\'
    · refine iff_of_false ?_ fun h => h.2 hlast
      rintro ⟨t, ht, hchars⟩
      exact isStyleName_link.chars_ne_of_getLast?_eq htarget hclosing hlast ht hchars
    · have h := @IsStyleName.exists_ofMarkup_enclosed_iff pictures _ _ isStyleName_link _ htarget _
        hlast []
      rw [List.append_nil] at h
      rw [h, and_iff_left isUnmarked_nil, and_iff_left hlast]
  · next hnameable => simp [hnameable]

/-- **Paths and errors on the terminal**, with any table of pictures. The line on a file that could
not be analysed is read without a fault and says `Could not analyse`, the path and the error,
exactly if the path with the colon after it and the error are unmarked. The title of a table is made
and read without a fault and is the path, exactly if the path has no null character, is unmarked and
does not end in a backslash. -/
theorem shown_as_written_iff (pictures : Pictures) (current : List String)
    (path error : String) :
    ((∃ t, ofMarkup pictures (failureMarkup path error).toList = .ok t ∧
        String.ofList t.chars = "Could not analyse " ++ path ++ ": " ++ error) ↔
      IsUnmarked pictures (path ++ ":").toList ∧ IsUnmarked pictures error.toList) ∧
    ((∃ markup t, title current path = .ok markup ∧ ofMarkup pictures markup.toList = .ok t ∧
        String.ofList t.chars = path) ↔
      '\x00' ∉ path.toList ∧ IsUnmarked pictures path.toList ∧ path.toList.getLast? ≠ some '\\') :=
  ⟨exists_failureMarkup_iff pictures path error, exists_title_iff pictures current path⟩

/-- A closing tag in an error **ends the report**, and a tag in a path is **not shown**, even where
no name stands for a picture. -/
theorem not_shown_as_written_tags :
    fault? (ofMarkup (.ofTable []) (failureMarkup "a.json" "[/x]").toList) =
      some (.markup (.unmatched "[/x]" 37)) ∧
    (ofMarkup (.ofTable []) (failureMarkup "pages/[slug].json" "bad").toList).toOption.map
        StyledText.chars =
      some "Could not analyse pages/.json: bad".toList := by
  decide +kernel

end Terminal

end TreeLint
