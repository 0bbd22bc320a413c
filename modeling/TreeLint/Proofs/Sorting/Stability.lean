import TreeLint.Proofs.Sorting.StableMerge

/-!
# Sorting Is Stable

Where comparisons follow keys, `sortBy?` gives the **stable sort**, whatever runs it finds in the
list and in whatever order it merges them. A run is the sort of the stretch that it was made of, the
runs that wait stand for stretches one after another (`Stacked`), and a merge of two neighbours
stands for their two stretches together. So what waits is always made of sorts of the part of the
list that has been read.

## Main results

* `exists_nextRun`: a run is the sort of the items at the front of the list.
* `Stacked.exists_merge`: merging the last two runs keeps what the runs stand for.
* `sortBy?_eq_stableSort`: the outcome of sorting.
-/

namespace TreeLint

namespace Sorting

variable {α κ ε : Type} [LinearOrder κ] {key : α → κ} {before : α → α → Except ε Bool}
  {items : List α}

/-! ### Runs -/

/-- Items that continue a run go on the way that it goes. -/
theorem exists_countRun (h : Follows before key items) (descending : Bool) {previous : α}
    {xs : List α} (hprevious : previous ∈ items) (hxs : ∀ z ∈ xs, z ∈ items) :
    ∃ k, countRun before descending previous xs = .ok k ∧ k ≤ xs.length ∧
      (previous :: xs.take k).IsChain fun a b => decide (key b < key a) = descending := by
  induction xs generalizing previous with
  | nil => exact ⟨0, rfl, le_refl 0, List.IsChain.singleton previous⟩
  | cons x rest ih =>
      have hx := hxs x List.mem_cons_self
      rw [countRun, h x hx previous hprevious]
      by_cases hway : decide (key x < key previous) = descending
      · obtain ⟨k, hk, hle, hchain⟩ := ih hx fun z hz => hxs z (List.mem_cons_of_mem x hz)
        refine ⟨k + 1, ?_, Nat.succ_le_succ hle, ?_⟩
        · simp [bind, Except.bind, hway, hk, pure, Except.pure]
        · rw [List.take_succ_cons]
          exact List.IsChain.cons_cons hway hchain
      · refine ⟨0, ?_, Nat.zero_le _, List.IsChain.singleton previous⟩
        simp [bind, Except.bind, hway, pure, Except.pure]

/-- The run at the front of a list is the sort of what it was made of. -/
theorem exists_frontRun (h : Follows before key items) {xs : List α} (hxs : ∀ z ∈ xs, z ∈ items) :
    ∃ run, frontRun before xs = .ok run ∧ run = stableSort key (xs.take run.length) ∧
      run.length ≤ xs.length ∧ (xs ≠ [] → run ≠ []) := by
  match xs with
  | [] => exact ⟨[], rfl, rfl, le_refl 0, fun h => h⟩
  | [x] => exact ⟨[x], rfl, rfl, le_refl 1, fun _ => List.cons_ne_nil x []⟩
  | x :: y :: rest =>
      have hx := hxs x (by simp)
      have hy := hxs y (by simp)
      have hrest : ∀ z ∈ rest, z ∈ items := fun z hz => hxs z (by simp [hz])
      obtain ⟨k, hk, hle, hchain⟩ := exists_countRun h (decide (key y < key x)) hy hrest
      have hway : (x :: y :: rest.take k).IsChain fun a b =>
          decide (key b < key a) = decide (key y < key x) := List.IsChain.cons_cons rfl hchain
      have hlength : (x :: y :: rest.take k).length = k + 2 := by simp [hle]
      have htake : (x :: y :: rest).take (k + 2) = x :: y :: rest.take k := rfl
      simp only [frontRun, h y hy x hx, bind, Except.bind, hk]
      by_cases hdescending : key y < key x
      · have htrans : IsTrans α fun a b => key b < key a := ⟨fun a b c hab hbc => hbc.trans hab⟩
        have hdown : (x :: y :: rest.take k).Pairwise fun a b => key b < key a :=
          List.isChain_iff_pairwise.mp (hway.imp fun a b hab => by simpa [hdescending] using hab)
        refine ⟨(x :: y :: rest.take k).reverse, by simp [hdescending, pure, Except.pure],
          ?_, ?_, ?_⟩
        · rw [List.length_reverse, hlength, htake, stableSort_of_descending hdown]
        · simp [hle]
        · simp
      · have htrans : IsTrans α fun a b => key a ≤ key b := ⟨fun a b c => le_trans⟩
        have hup : (x :: y :: rest.take k).Pairwise fun a b => key a ≤ key b :=
          List.isChain_iff_pairwise.mp (hway.imp fun a b hab => by simpa [hdescending] using hab)
        refine ⟨x :: y :: rest.take k, by simp [hdescending, pure, Except.pure], ?_, ?_, ?_⟩
        · rw [hlength, htake, stableSort_of_pairwise hup]
        · simp [hle]
        · simp

/-- A run **sorts** a stretch of the list. -/
def Sorts (key : α → κ) (run : Array α) (stretch : List α) : Prop :=
  run.toList = stableSort key stretch

/-- What sorts a stretch of items is **a run**. -/
theorem Sorts.run {run : Array α} {stretch : List α} (h : Sorts key run stretch)
    (hstretch : ∀ z ∈ stretch, z ∈ items) : Run key items run where
  mem z hz := by
    rw [← Array.mem_toList_iff, h, mem_stableSort] at hz
    exact hstretch z hz
  ascending := by
    rw [Ascending, h]
    exact pairwise_stableSort stretch

/-- An item put into the sort of a stretch gives the sort of the longer stretch. -/
theorem Sorts.exists_insertSorted (h : Follows before key items) {sorted : Array α}
    {stretch : List α} (hsorted : Sorts key sorted stretch) (hstretch : ∀ z ∈ stretch, z ∈ items)
    {x : α} (hx : x ∈ items) :
    ∃ longer, insertSorted before sorted x = .ok longer ∧ Sorts key longer (stretch ++ [x]) := by
  have hrun := hsorted.run hstretch
  obtain ⟨front, rest, hsplit, hfront, hrest, hbisect⟩ := exists_split_of_bisect
    (h.not_before hrun.mem hx) (pairwise_decide_le hrun.ascending x)
  obtain ⟨-, hhead, htail⟩ := extract_of_eq_append hsplit
  have hsingle : stableSort key [x] = [x] := rfl
  refine ⟨sorted.extract 0 front.length ++ #[x] ++ sorted.extract front.length sorted.size, ?_, ?_⟩
  · simp only [insertSorted, hbisect, bind, Except.bind]
    rfl
  · rw [Sorts, stableSort_append, ← hsorted, hsplit, hsingle,
      append_mergeBy (by simpa using hfront), mergeBy_of_lt (by simpa using hrest),
      Array.toList_append, Array.toList_append, hhead, htail, List.append_assoc]

/-- Inserting items in order sorts the stretch **with them at its end**. -/
theorem Sorts.exists_foldlM_insertSorted (h : Follows before key items) {xs : List α}
    (hxs : ∀ z ∈ xs, z ∈ items) {sorted : Array α} {stretch : List α}
    (hsorted : Sorts key sorted stretch) (hstretch : ∀ z ∈ stretch, z ∈ items) :
    ∃ longer, xs.foldlM (insertSorted before) sorted = .ok longer ∧
      Sorts key longer (stretch ++ xs) := by
  induction xs generalizing sorted stretch with
  | nil => exact ⟨sorted, rfl, by rwa [List.append_nil]⟩
  | cons x xs ih =>
      have hx := hxs x List.mem_cons_self
      obtain ⟨longer, hinsert, hlonger⟩ := hsorted.exists_insertSorted h hstretch hx
      have hstretch' : ∀ z ∈ stretch ++ [x], z ∈ items := by
        intro z hz
        rcases List.mem_append.mp hz with hz | hz
        · exact hstretch z hz
        · rwa [List.mem_singleton.mp hz]
      obtain ⟨all, hfold, hall⟩ :=
        ih (fun z hz => hxs z (List.mem_cons_of_mem x hz)) hlonger hstretch'
      refine ⟨all, ?_, by rwa [List.append_assoc] at hall⟩
      rw [List.foldlM_cons, hinsert]
      exact hfold

/-- **A run** is the sort of the items at the front of the list. -/
theorem exists_nextRun (h : Follows before key items) {xs : List α} (hxs : ∀ z ∈ xs, z ∈ items)
    (least : ℕ) :
    ∃ run, nextRun before least xs = .ok run ∧ Sorts key run (xs.take run.size) ∧
      (xs ≠ [] → 0 < run.size) := by
  obtain ⟨front, hfront, hsorts, hle, hne⟩ := exists_frontRun h hxs
  have hmore : ∀ z ∈ (xs.take least).drop front.length, z ∈ items := fun z hz =>
    hxs z (List.mem_of_mem_take (List.mem_of_mem_drop hz))
  have hstart : Sorts key front.toArray (xs.take front.length) := hsorts
  obtain ⟨run, hrun, hsorts⟩ := hstart.exists_foldlM_insertSorted h hmore fun z hz =>
    hxs z (List.mem_of_mem_take hz)
  have hsize : run.size = front.length + ((xs.take least).drop front.length).length := by
    have := congrArg List.length hsorts
    simp [stableSort] at this
    simp
    omega
  have htake : xs.take run.size = xs.take front.length ++ (xs.take least).drop front.length := by
    rw [hsize, List.length_drop, List.length_take, List.take_add, List.drop_take,
      List.append_cancel_left_eq, List.take_eq_take_iff]
    simp only [List.length_drop]
    omega
  refine ⟨run, ?_, by rwa [htake], fun hxs => ?_⟩
  · simp only [nextRun, hfront, bind, Except.bind]
    exact hrun
  · have := List.length_pos_iff.mpr (hne hxs)
    omega

/-! ### Runs that wait -/

/-- Runs that wait, from the last one on, **stand for** a list: for the sorts of its stretches, one
after another. -/
inductive Stacked (key : α → κ) : List α → List (Pending α) → Prop
  | nil : Stacked key [] []
  | cons {done stretch : List α} {runs : List (Pending α)} {run : Pending α}
      (hruns : Stacked key done runs) (hrun : Sorts key run.items stretch) :
      Stacked key (done ++ stretch) (run :: runs)

namespace Stacked

variable {done : List α} {last previous : Pending α} {rest : List (Pending α)}

/-- Two neighbouring runs are **merged** into one that stands for both their stretches. -/
theorem exists_merge (h : Follows before key items)
    (hs : Stacked key done (last :: previous :: rest)) (hdone : ∀ z ∈ done, z ∈ items)
    (patience : ℕ) :
    ∃ merged patience', merge before patience previous.items last.items = .ok (merged, patience') ∧
      Stacked key done ({ previous with items := merged } :: rest) := by
  cases hs with
  | @cons _ stretch _ _ hs hlast =>
      cases hs with
      | @cons done stretch' _ _ hs hprevious =>
          simp only [List.mem_append, or_imp, forall_and] at hdone
          obtain ⟨⟨-, hstretch'⟩, hstretch⟩ := hdone
          obtain ⟨merged, patience', hmerge, hmerged⟩ :=
            Sorting.exists_merge h (hprevious.run hstretch') (hlast.run hstretch) patience
          refine ⟨merged, patience', hmerge, ?_⟩
          rw [List.append_assoc]
          refine .cons hs ?_
          rw [Sorts, hmerged, hprevious, hlast, stableSort_append]

/-- So are the two runs below the last one. -/
theorem exists_merge_below {first middle : Pending α} (h : Follows before key items)
    (hs : Stacked key done (last :: middle :: first :: rest)) (hdone : ∀ z ∈ done, z ∈ items)
    (patience : ℕ) :
    ∃ merged patience', merge before patience first.items middle.items = .ok (merged, patience') ∧
      Stacked key done (last :: { first with items := merged } :: rest) := by
  cases hs with
  | cons hs hlast =>
      obtain ⟨merged, patience', hmerge, hs'⟩ :=
        hs.exists_merge h (fun z hz => hdone z (List.mem_append_left _ hz)) patience
      exact ⟨merged, patience', hmerge, .cons hs' hlast⟩

/-- The power of a run does not matter. -/
theorem setPower (hs : Stacked key done (last :: rest)) (power : ℕ) :
    Stacked key done ({ last with power } :: rest) := by
  cases hs with
  | cons hs hlast => exact .cons hs hlast

end Stacked

/-- Settling runs keeps what they stand for. -/
theorem exists_settle (h : Follows before key items) {done : List α} {runs : List (Pending α)}
    (hs : Stacked key done runs) (hdone : ∀ z ∈ done, z ∈ items) (power patience : ℕ) :
    ∃ s, settle before power patience runs = .ok s ∧ Stacked key done s.runs := by
  fun_induction settle before power patience runs with
  | case1 patience last previous rest hpower e he =>
      obtain ⟨merged, patience', hmerge, -⟩ := hs.exists_merge h hdone patience
      cases he.symm.trans hmerge
  | case2 patience last previous rest hpower merged patience' hmerge ih =>
      obtain ⟨_, _, hmerge', hs'⟩ := hs.exists_merge h hdone patience
      obtain ⟨rfl, rfl⟩ := Prod.mk.inj (Except.ok.inj (hmerge.symm.trans hmerge'))
      exact ih hs'
  | case3 patience last previous rest hpower => exact ⟨_, rfl, hs.setPower power⟩
  | case4 patience last => exact ⟨_, rfl, hs.setPower power⟩
  | case5 patience => exact ⟨_, rfl, hs⟩

/-- One more run adds its stretch. -/
theorem Stack.exists_push (h : Follows before key items) {done stretch : List α} {s : Stack α}
    (hs : Stacked key done s.runs) (hdone : ∀ z ∈ done, z ∈ items) {run : Array α}
    (hrun : Sorts key run stretch) (n start : ℕ) :
    ∃ s', s.push before n start run = .ok s' ∧ Stacked key (done ++ stretch) s'.runs := by
  obtain ⟨power, hpush⟩ : ∃ power, s.push before n start run =
      settle before power s.patience s.runs >>= fun s =>
        pure { s with runs := ⟨run, start, 0⟩ :: s.runs } := ⟨_, rfl⟩
  obtain ⟨settled, hsettle, hsettled⟩ := exists_settle h hs hdone power s.patience
  refine ⟨{ settled with runs := ⟨run, start, 0⟩ :: settled.runs }, ?_, .cons hsettled hrun⟩
  rw [hpush, hsettle]
  rfl

/-- Merging all runs gives the sort of what they stand for. -/
theorem mergeAll_eq_stableSort (h : Follows before key items) {done : List α}
    {runs : List (Pending α)} (hs : Stacked key done runs) (hdone : ∀ z ∈ done, z ∈ items)
    (patience : ℕ) : mergeAll before patience runs = .ok (stableSort key done) := by
  fun_induction mergeAll before patience runs with
  | case1 patience =>
      cases hs
      rfl
  | case2 patience run =>
      cases hs with
      | cons hs hrun =>
          cases hs
          rw [hrun, List.nil_append]
  | case3 patience last previous =>
      obtain ⟨merged, patience', hmerge, hs'⟩ := hs.exists_merge h hdone patience
      cases hs' with
      | cons hs' hrun =>
          cases hs'
          rw [hmerge, List.nil_append, ← hrun]
          rfl
  | case4 patience last middle first rest hsize e he =>
      obtain ⟨merged, patience', hmerge, -⟩ := hs.exists_merge_below h hdone patience
      cases he.symm.trans hmerge
  | case5 patience last middle first rest hsize merged patience' hmerge ih =>
      obtain ⟨_, _, hmerge', hs'⟩ := hs.exists_merge_below h hdone patience
      obtain ⟨rfl, rfl⟩ := Prod.mk.inj (Except.ok.inj (hmerge.symm.trans hmerge'))
      exact ih hs'
  | case6 patience last middle first rest hsize e he =>
      obtain ⟨merged, patience', hmerge, -⟩ := hs.exists_merge h hdone patience
      cases he.symm.trans hmerge
  | case7 patience last middle first rest hsize merged patience' hmerge ih =>
      obtain ⟨_, _, hmerge', hs'⟩ := hs.exists_merge h hdone patience
      obtain ⟨rfl, rfl⟩ := Prod.mk.inj (Except.ok.inj (hmerge.symm.trans hmerge'))
      exact ih hs'

/-- Sorting the rest of a list gives the sort of what the waiting runs stand for and of the rest. -/
theorem sortFrom_eq_stableSort (h : Follows before key items) {done xs : List α} {s : Stack α}
    (hs : Stacked key done s.runs) (hdone : ∀ z ∈ done, z ∈ items) (hxs : ∀ z ∈ xs, z ∈ items)
    (n start : ℕ) : sortFrom before n start s xs = .ok (stableSort key (done ++ xs)) := by
  fun_induction sortFrom before n start s xs generalizing done with
  | case1 start s => rw [mergeAll_eq_stableSort h hs hdone, List.append_nil]
  | case2 start s x rest e he =>
      obtain ⟨run, hrun, -⟩ := exists_nextRun h hxs (leastRun false n)
      cases he.symm.trans hrun
  | case3 start s x rest run hrun e he =>
      obtain ⟨_, hrun', hsorts, -⟩ := exists_nextRun h hxs (leastRun false n)
      obtain rfl := Except.ok.inj (hrun.symm.trans hrun')
      obtain ⟨s', hpush, -⟩ := Stack.exists_push h hs hdone hsorts n start
      cases he.symm.trans hpush
  | case4 start s x rest run hrun s' hpush ih =>
      obtain ⟨_, hrun', hsorts, hpos⟩ := exists_nextRun h hxs (leastRun false n)
      obtain rfl := Except.ok.inj (hrun.symm.trans hrun')
      obtain ⟨_, hpush', hs'⟩ := Stack.exists_push h hs hdone hsorts n start
      obtain rfl := Except.ok.inj (hpush.symm.trans hpush')
      have hdrop : rest.drop (run.size - 1) = (x :: rest).drop run.size := by
        obtain ⟨k, hk⟩ := Nat.exists_eq_succ_of_ne_zero (hpos (List.cons_ne_nil x rest)).ne'
        rw [hk]
        rfl
      rw [hdrop] at ih ⊢
      have hread : ∀ z ∈ done ++ (x :: rest).take run.size, z ∈ items := by
        intro z hz
        rcases List.mem_append.mp hz with hz | hz
        · exact hdone z hz
        · exact hxs z (List.mem_of_mem_take hz)
      rw [ih hs' hread fun z hz => hxs z (List.mem_of_mem_drop hz),
        List.append_assoc, List.take_append_drop]

end Sorting

/-- **Sorting gives the stable sort** by keys, where comparisons follow the keys. -/
theorem sortBy?_eq_stableSort {α κ ε : Type} [LinearOrder κ] {key : α → κ}
    {before : α → α → Except ε Bool} {xs : List α} (h : Sorting.Follows before key xs) :
    sortBy? before xs = .ok (Sorting.stableSort key xs) := by
  have hstart : Sorting.Stacked key [] ({} : Sorting.Stack α).runs := .nil
  exact Sorting.sortFrom_eq_stableSort h hstart (by simp) (fun _ hz => hz) xs.length 0

end TreeLint
