import TreeLint.Proofs.Sorting.Merging

/-!
# Sorting Permutes

Whatever the comparison is, an order or not, `sortBy?` either gives a permutation of its list or
stops with a comparison of two items of the list that failed. Nothing is lost and nothing is
invented by cutting a list into runs or by merging them in the order of their powers, and no other
fault can arise.

## Main results

* `sortBy?_yields`: the two outcomes of sorting, in one statement.
* `perm_of_sortBy?`: a sorted list is a permutation of the list.
* `exists_sortBy?_eq_ok`: where no comparison of two items fails, sorting succeeds.
-/

namespace TreeLint

namespace Sorting

variable {α ε : Type} {before : α → α → Except ε Bool} {items : List α}

/-! ### Runs -/

/-- Counting a run compares items, and counts **at most all**. -/
theorem countRun_yields {descending : Bool} {previous : α} {xs : List α}
    (hprevious : previous ∈ items) (hxs : ∀ z ∈ xs, z ∈ items) :
    Yields before items (fun k => k ≤ xs.length) (countRun before descending previous xs) := by
  induction xs generalizing previous with
  | nil => exact Nat.zero_le 0
  | cons x rest ih =>
      have hx := hxs x List.mem_cons_self
      refine (yields_before hx hprevious).bind fun comes _ => ?_
      split
      · refine (ih hx fun z hz => hxs z (List.mem_cons_of_mem x hz)).bind fun k hk => ?_
        exact Nat.succ_le_succ hk
      · exact Nat.zero_le _

/-- The run at the front of a list is made of the items there. -/
theorem frontRun_yields {xs : List α} (hxs : ∀ z ∈ xs, z ∈ items) :
    Yields before items
      (fun run => run.Perm (xs.take run.length) ∧ run.length ≤ xs.length ∧
        (xs ≠ [] → run ≠ []))
      (frontRun before xs) := by
  match xs with
  | [] => exact ⟨.refl _, le_refl _, fun h => h⟩
  | [x] => exact ⟨.refl _, le_refl _, fun _ => List.cons_ne_nil x []⟩
  | x :: y :: rest =>
      have hx := hxs x (by simp)
      have hy := hxs y (by simp)
      have hrest : ∀ z ∈ rest, z ∈ items := fun z hz => hxs z (by simp [hz])
      refine (yields_before hy hx).bind fun descending _ => ?_
      refine (countRun_yields hy hrest).bind fun k hk => ?_
      have hmain : ∀ run : List α, run.Perm (x :: y :: rest.take k) →
          run.Perm ((x :: y :: rest).take run.length) ∧ run.length ≤ (x :: y :: rest).length ∧
            (x :: y :: rest ≠ [] → run ≠ []) := by
        intro run hrun
        have hlength : run.length = k + 2 := by simp [hrun.length_eq, hk]
        refine ⟨by rwa [hlength], by simp [hlength, hk], fun _ h => ?_⟩
        simp [h] at hlength
      refine hmain _ ?_
      split
      · exact List.reverse_perm _
      · exact .refl _

/-- An item put into an array adds itself to the content. -/
theorem insertSorted_yields {sorted : Array α} (hsorted : ∀ z ∈ sorted, z ∈ items) {x : α}
    (hx : x ∈ items) :
    Yields before items
      (fun r => content r = content sorted + {x} ∧ r.size = sorted.size + 1)
      (insertSorted before sorted x) := by
  have hp : ∀ z ∈ sorted, Yields before items (fun _ => True) ((before x z).map (!·)) :=
    fun z hz => yields_not_before hx (hsorted z hz)
  refine (bisect_yields hp (Nat.zero_le sorted.size)).bind fun place hplace => ?_
  constructor
  · rw [content_append, content_append, add_right_comm, content_extract_add hplace.1 hplace.2,
      Array.extract_size]
    rfl
  · simp
    omega

/-- Inserting items one after another compares items, and **loses none**. -/
theorem foldlM_insertSorted_yields {xs : List α} (hxs : ∀ z ∈ xs, z ∈ items) {sorted : Array α}
    (hsorted : ∀ z ∈ sorted, z ∈ items) :
    Yields before items
      (fun r => content r = content sorted + (xs : Multiset α) ∧ r.size = sorted.size + xs.length)
      (xs.foldlM (insertSorted before) sorted) := by
  induction xs generalizing sorted with
  | nil => exact ⟨by simp, rfl⟩
  | cons x rest ih =>
      rw [List.foldlM_cons]
      have hx := hxs x List.mem_cons_self
      refine (insertSorted_yields hsorted hx).bind fun r hr => ?_
      have hr' : ∀ z ∈ r, z ∈ items := by
        intro z hz
        rw [← mem_content, hr.1, Multiset.mem_add, mem_content, Multiset.mem_singleton] at hz
        exact hz.elim (hsorted z) fun h => h ▸ hx
      refine (ih (fun z hz => hxs z (List.mem_cons_of_mem x hz)) hr').imp fun s hs => ?_
      rw [hs.1, hs.2, hr.1, hr.2, ← Multiset.cons_coe, ← Multiset.singleton_add, List.length_cons]
      exact ⟨by abel, by omega⟩

/-- The next run is made of the items at the front of the list. -/
theorem nextRun_yields {xs : List α} (hxs : ∀ z ∈ xs, z ∈ items) (least : ℕ) :
    Yields before items
      (fun run => content run = (xs.take run.size : Multiset α) ∧ (xs ≠ [] → 0 < run.size))
      (nextRun before least xs) := by
  refine (frontRun_yields hxs).bind fun run hrun => ?_
  obtain ⟨hperm, hle, hne⟩ := hrun
  have hrest : ∀ z ∈ (xs.take least).drop run.length, z ∈ items := fun z hz =>
    hxs z (List.mem_of_mem_take (List.mem_of_mem_drop hz))
  have hrunItems : ∀ z ∈ run.toArray, z ∈ items := by
    intro z hz
    exact hxs z (List.mem_of_mem_take (hperm.mem_iff.mp (List.mem_toArray.mp hz)))
  refine (foldlM_insertSorted_yields hrest hrunItems).imp fun r hr => ?_
  obtain ⟨hcontent, hsize⟩ := hr
  have htake : xs.take r.size = xs.take run.length ++ (xs.take least).drop run.length := by
    rw [hsize, List.size_toArray, List.length_drop, List.length_take, List.take_add,
      List.drop_take, List.append_cancel_left_eq, List.take_eq_take_iff]
    simp only [List.length_drop]
    omega
  refine ⟨?_, fun hxs => ?_⟩
  · rw [hcontent, htake, ← Multiset.coe_add, content_toArray, Multiset.coe_eq_coe.mpr hperm]
  · have := List.length_pos_iff.mpr (hne hxs)
    rw [hsize, List.size_toArray]
    omega

/-! ### Merging in the order of powers -/

/-- The content of a list of runs that wait to be merged. -/
def pendingContent (runs : List (Pending α)) : Multiset α :=
  (runs.map fun run => content run.items).sum

@[simp] theorem pendingContent_nil : pendingContent ([] : List (Pending α)) = 0 := rfl

@[simp] theorem pendingContent_cons (run : Pending α) (runs : List (Pending α)) :
    pendingContent (run :: runs) = content run.items + pendingContent runs := by
  simp [pendingContent]

/-- The runs of a stack are made of items. -/
def Holds (items : List α) (runs : List (Pending α)) : Prop :=
  ∀ z ∈ pendingContent runs, z ∈ items

/-- Pending runs hold items exactly if **each of them** does. -/
theorem holds_cons {run : Pending α} {runs : List (Pending α)} :
    Holds items (run :: runs) ↔ (∀ z ∈ run.items, z ∈ items) ∧ Holds items runs := by
  simp only [Holds, pendingContent_cons, Multiset.mem_add, mem_content, or_imp, forall_and]

/-- Settling runs keeps their content. -/
theorem settle_yields {power patience : ℕ} {runs : List (Pending α)} (hruns : Holds items runs) :
    Yields before items (fun s => pendingContent s.runs = pendingContent runs)
      (settle before power patience runs) := by
  fun_induction settle before power patience runs with
  | case1 patience last previous rest hpower e he =>
      obtain ⟨hlast, hprevious, -⟩ := by simpa only [holds_cons] using hruns
      exact .of_error he (merge_yields hprevious hlast patience)
  | case2 patience last previous rest hpower merged patience' hmerge ih =>
      obtain ⟨hlast, hprevious, -⟩ := by simpa only [holds_cons] using hruns
      have hcontent := (merge_yields hprevious hlast patience).of_ok hmerge
      have hpending : pendingContent ({ previous with items := merged } :: rest) =
          pendingContent (last :: previous :: rest) := by
        simp only [pendingContent_cons, hcontent]
        abel
      rw [← hpending]
      exact ih (by rwa [Holds, hpending])
  | case3 => simp [Yields]
  | case4 => simp [Yields]
  | case5 => rfl

/-- One more run adds its content. -/
theorem Stack.push_yields {n start : ℕ} {run : Array α} {s : Stack α}
    (hruns : Holds items s.runs) :
    Yields before items (fun r => pendingContent r.runs = content run + pendingContent s.runs)
      (s.push before n start run) := by
  refine (settle_yields hruns).bind fun r hr => ?_
  rw [← hr]
  exact pendingContent_cons _ _

/-- Merging all runs keeps their content. -/
theorem mergeAll_yields {patience : ℕ} {runs : List (Pending α)} (hruns : Holds items runs) :
    Yields before items (fun xs : List α => (xs : Multiset α) = pendingContent runs)
      (mergeAll before patience runs) := by
  fun_induction mergeAll before patience runs with
  | case1 => rfl
  | case2 patience run => simp [Yields]
  | case3 patience last previous =>
      obtain ⟨hlast, hprevious, -⟩ := by simpa only [holds_cons] using hruns
      refine (merge_yields hprevious hlast patience).bind fun r hr => ?_
      change (r.1.toList : Multiset α) = _
      simp only [coe_toList, hr, pendingContent_cons, pendingContent_nil]
      abel
  | case4 patience last middle first rest hsize e he =>
      obtain ⟨-, hmiddle, hfirst, -⟩ := by simpa only [holds_cons] using hruns
      exact .of_error he (merge_yields hfirst hmiddle patience)
  | case5 patience last middle first rest hsize merged patience' hmerge ih =>
      obtain ⟨-, hmiddle, hfirst, -⟩ := by simpa only [holds_cons] using hruns
      -- the first of the last three runs is shorter than the last, so the middle one joins it
      have hcontent := (merge_yields hfirst hmiddle patience).of_ok hmerge
      have hpending : pendingContent (last :: { first with items := merged } :: rest) =
          pendingContent (last :: middle :: first :: rest) := by
        simp only [pendingContent_cons, hcontent]
        abel
      rw [← hpending]
      exact ih (by rwa [Holds, hpending])
  | case6 patience last middle first rest hsize e he =>
      obtain ⟨hlast, hmiddle, -⟩ := by simpa only [holds_cons] using hruns
      exact .of_error he (merge_yields hmiddle hlast patience)
  | case7 patience last middle first rest hsize merged patience' hmerge ih =>
      obtain ⟨hlast, hmiddle, -⟩ := by simpa only [holds_cons] using hruns
      have hcontent := (merge_yields hmiddle hlast patience).of_ok hmerge
      have hpending : pendingContent ({ middle with items := merged } :: first :: rest) =
          pendingContent (last :: middle :: first :: rest) := by
        simp only [pendingContent_cons, hcontent]
        abel
      rw [← hpending]
      exact ih (by rwa [Holds, hpending])

/-- Sorting the rest of a list adds its items to those of the runs that wait. -/
theorem sortFrom_yields {n start : ℕ} {s : Stack α} {xs : List α} (hruns : Holds items s.runs)
    (hxs : ∀ z ∈ xs, z ∈ items) :
    Yields before items
      (fun ys : List α => (ys : Multiset α) = pendingContent s.runs + (xs : Multiset α))
      (sortFrom before n start s xs) := by
  fun_induction sortFrom before n start s xs with
  | case1 start s =>
      refine (mergeAll_yields hruns).imp fun ys hys => ?_
      simp [hys]
  | case2 start s x rest e he => exact .of_error he (nextRun_yields hxs _)
  | case3 start s x rest run hrun e he => exact .of_error he (Stack.push_yields hruns)
  | case4 start s x rest run hrun s' hpush ih =>
      obtain ⟨hcontent, hpos⟩ := (nextRun_yields hxs _).of_ok hrun
      have hpos := hpos (List.cons_ne_nil x rest)
      have hs' := (Stack.push_yields hruns).of_ok hpush
      have hdrop : rest.drop (run.size - 1) = (x :: rest).drop run.size := by
        obtain ⟨k, hk⟩ := Nat.exists_eq_succ_of_ne_zero hpos.ne'
        rw [hk]
        rfl
      have hrunItems : ∀ z ∈ run, z ∈ items := by
        intro z hz
        rw [← mem_content, hcontent] at hz
        exact hxs z (List.mem_of_mem_take hz)
      rw [hdrop] at ih ⊢
      refine (ih ?_ fun z hz => hxs z (List.mem_of_mem_drop hz)).imp fun ys hys => ?_
      · intro z hz
        rw [hs', Multiset.mem_add, mem_content] at hz
        exact hz.elim (hrunItems z) (hruns z)
      · rw [hys, hs', hcontent, add_right_comm, Multiset.coe_add, List.take_append_drop, add_comm]

end Sorting

variable {α ε : Type} {before : α → α → Except ε Bool} {xs ys : List α}

/-- **Sorting permutes**: it gives a permutation of the list, or the fault of a comparison of two
of its items. -/
theorem sortBy?_yields (before : α → α → Except ε Bool) (xs : List α) :
    Sorting.Yields before xs (fun ys => ys.Perm xs) (sortBy? before xs) := by
  refine (Sorting.sortFrom_yields ?_ fun z hz => hz).imp fun ys hys => ?_
  · intro z hz
    simp at hz
  · exact Multiset.coe_eq_coe.mp (by simpa using hys)

/-- A sorted list is a permutation of the list. -/
theorem perm_of_sortBy? (h : sortBy? before xs = .ok ys) : ys.Perm xs := by
  have := sortBy?_yields before xs
  rwa [h] at this

/-- Sorting fails only with a comparison of two items of the list. -/
theorem exists_before_eq_error_of_sortBy? {e : ε} (h : sortBy? before xs = .error e) :
    ∃ x ∈ xs, ∃ y ∈ xs, before x y = .error e := by
  have := sortBy?_yields before xs
  rwa [h] at this

/-- Where no comparison of two items fails, **sorting succeeds**. -/
theorem exists_sortBy?_eq_ok (h : ∀ x ∈ xs, ∀ y ∈ xs, ∃ comes, before x y = .ok comes) :
    ∃ ys, sortBy? before xs = .ok ys := by
  cases hsort : sortBy? before xs with
  | ok ys => exact ⟨ys, rfl⟩
  | error e =>
      obtain ⟨x, hx, y, hy, he⟩ := exists_before_eq_error_of_sortBy? hsort
      obtain ⟨comes, hcomes⟩ := h x hx y hy
      rw [hcomes] at he
      exact nomatch he

end TreeLint
