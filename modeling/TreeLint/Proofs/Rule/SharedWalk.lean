import TreeLint.Proofs.Walk.Listening
import TreeLint.Rule.Basic

/-!
# Rules That Share a Walk

Rules that share a walk are told about its nodes in turns: every rule looks at a node before the
walk goes on to the next one. Still each of them ends up where it would have come alone. A rule at
work changes only its own record, and that by a look at one node, so after a number of nodes its
record is a function of these nodes and of nothing else (`RuleRun.after`).

What rules that share a walk do have in common is its end. The walk goes past a node if the node's
children are a sequence of nodes and every rule **takes** the node (`RuleRun.Pass`); at the first
node of another sort it stops for all of them.

## Main results

* `perform_enter`: one step of the walk shows a node to the rules, one after another.
* `performAll_of_pass`: what the rules have recorded after nodes that they all let pass.
* `walkAll_of_pass`, `fault_walkAll_eq_none_iff`: the walk of a tree comes to its end if and only if
  all its nodes pass, and then every rule has looked at all of them.
-/

namespace TreeLint

/-! ### One rule and its record -/

namespace Rule

/-- A rule **takes** a node if it does not look at its kind, or looks at it and does not refuse
it. -/
def Takes (rule : Rule) (n : Node) : Prop :=
  n.kind ∈ rule.listens → ∃ findings, rule.check n = .ok findings

/-- What a rule finds at a node that it takes. -/
def findings (rule : Rule) (n : Node) : List Finding :=
  match rule.check n with
  | .ok findings => findings
  | .error _ => []

/-- The findings at a node are **those of its check**. -/
theorem findings_of_check {rule : Rule} {n : Node} {found : List Finding}
    (h : rule.check n = .ok found) : rule.findings n = found := by
  rw [findings, h]

/-- The nodes that a rule looks at. -/
def heeded (rule : Rule) (nodes : List Node) : List Node :=
  nodes.filter (·.kind ∈ rule.listens)

/-- A rule heeds the nodes of two lists **one list after the other**. -/
theorem heeded_append (rule : Rule) (xs ys : List Node) :
    rule.heeded (xs ++ ys) = rule.heeded xs ++ rule.heeded ys := List.filter_append xs ys

end Rule

namespace RuleRun

/-- A rule at work **after** nodes that it took. -/
def after (run : RuleRun) (nodes : List Node) : RuleRun :=
  { run with
    seen := run.seen ++ run.rule.heeded nodes
    reported := run.reported ++
      (run.rule.heeded nodes).flatMap fun n => (run.rule.findings n).map run.stamp }

@[simp] theorem after_nil (run : RuleRun) : run.after [] = run := by
  simp [after, Rule.heeded]

/-- A rule that has seen some nodes goes on **with more**. -/
theorem after_append (run : RuleRun) (xs ys : List Node) :
    run.after (xs ++ ys) = (run.after xs).after ys := by
  simp only [after, Rule.heeded_append, List.flatMap_append, List.append_assoc]
  rfl

/-- Rules that have seen some nodes go on **with more**. -/
theorem map_after_append (runs : List RuleRun) (xs ys : List Node) :
    runs.map (·.after (xs ++ ys)) = (runs.map (·.after xs)).map (·.after ys) := by
  rw [List.map_map]
  exact List.map_congr_left fun run _ => run.after_append xs ys

/-- Show a node to a rule, which looks at it if it is of its kinds. -/
def look (run : RuleRun) (n : Node) : Except Malformed RuleRun :=
  if n.kind ∈ run.rule.listens then run.enter n else .ok run

/-- A node that a rule takes becomes part of its record. -/
theorem look_of_takes {run : RuleRun} {n : Node} (h : run.rule.Takes n) :
    run.look n = .ok (run.after [n]) := by
  by_cases hkind : n.kind ∈ run.rule.listens
  · obtain ⟨findings, hcheck⟩ := h hkind
    simp [look, enter, hkind, hcheck, after, Rule.heeded,
      Rule.findings_of_check hcheck]
  · simp [look, hkind, after, Rule.heeded]

/-- Looking at a node that a rule does not take **fails**. -/
theorem exists_look_of_not_takes {run : RuleRun} {n : Node} (h : ¬ run.rule.Takes n) :
    ∃ fault, run.look n = .error fault := by
  obtain ⟨hkind, hcheck⟩ := Classical.not_imp.mp h
  rw [look, if_pos hkind, enter]
  cases hcase : run.rule.check n with
  | error fault => exact ⟨fault, rfl⟩
  | ok findings => exact absurd ⟨findings, hcase⟩ hcheck

/-! ### Rules in turns -/

/-- Show a node to rules, **one after another**, until one of them refuses it. -/
def lookAll (n : Node) : List RuleRun → Outcome (List RuleRun)
  | [] => ⟨[], none⟩
  | run :: rest =>
    match run.look n with
    | .error fault => ⟨run :: rest, some fault⟩
    | .ok run => ⟨run :: (lookAll n rest).state, (lookAll n rest).fault⟩

/-- Rules that take a node have all **seen it** afterwards. -/
theorem lookAll_of_takes {runs : List RuleRun} {n : Node}
    (h : ∀ run ∈ runs, run.rule.Takes n) :
    lookAll n runs = ⟨runs.map (·.after [n]), none⟩ := by
  induction runs with
  | nil => rfl
  | cons run runs ih =>
      rw [lookAll, look_of_takes (h run List.mem_cons_self),
        ih fun r hr => h r (List.mem_cons_of_mem run hr), List.map_cons]

/-- Rules of which one does not take a node **fail** at it. -/
theorem exists_lookAll_of_not_takes {runs : List RuleRun} {n : Node}
    (h : ¬ ∀ run ∈ runs, run.rule.Takes n) :
    ∃ state fault, lookAll n runs = ⟨state, some fault⟩ := by
  induction runs with
  | nil => exact absurd (List.forall_mem_nil _) h
  | cons run runs ih =>
      by_cases hrun : run.rule.Takes n
      · have hruns : ¬ ∀ run ∈ runs, run.rule.Takes n :=
          fun hall => h (List.forall_mem_cons.mpr ⟨hrun, hall⟩)
        obtain ⟨state, fault, hlook⟩ := ih hruns
        exact ⟨_, fault, by rw [lookAll, look_of_takes hrun, hlook]⟩
      · obtain ⟨fault, hlook⟩ := exists_look_of_not_takes hrun
        exact ⟨_, fault, by rw [lookAll, hlook]⟩

/-- The rule at a place looks at a node, and the rules around it stay as they are. -/
theorem enterAt_append (done : List RuleRun) (run : RuleRun) (rest : List RuleRun) (n : Node) :
    enterAt done.length n (done ++ run :: rest) =
      match run.enter n with
      | .error fault => .error fault
      | .ok run' => .ok (done ++ run' :: rest) := by
  have hset : ∀ run', (done ++ run :: rest).set done.length run' = done ++ run' :: rest := by simp
  rw [enterAt, List.getElem?_append_right (Nat.le_refl _), Nat.sub_self, List.getElem?_cons_zero]
  dsimp only
  cases run.enter n with
  | error fault => rfl
  | ok run' => exact congrArg Except.ok (hset run')

/-- The listeners of rules **show a node to the rules in turns**. The rules have been at work since
the listeners were made, but are still the same rules. -/
theorem notify_listeners {team runs : List RuleRun} (hteam : runs.map rule = team.map rule)
    (hkinds : ∀ run ∈ runs, run.rule.listens.Nodup) (n : Node) :
    notify (listeners team).enter n runs = lookAll n runs := by
  -- the rules in `done` have had their turn
  have key : ∀ (team done runs : List RuleRun), runs.map rule = team.map rule →
      (∀ run ∈ runs, run.rule.listens.Nodup) →
      notify ((team.zipIdx done.length).flatMap fun entry =>
        entry.1.rule.listens.map fun kind => (kind, enterAt entry.2)) n (done ++ runs) =
      ⟨done ++ (lookAll n runs).state, (lookAll n runs).fault⟩ := by
    intro team
    induction team with
    | nil =>
        intro done runs hteam _
        obtain rfl : runs = [] := List.map_eq_nil_iff.mp hteam
        rfl
    | cons first team ih =>
        intro done runs hteam hkinds
        cases runs with
        | nil => cases hteam
        | cons run rest =>
            obtain ⟨hrule, hteam⟩ := List.cons.inj hteam
            obtain ⟨hrun, hrest⟩ := List.forall_mem_cons.mp hkinds
            have hnext : ∀ run' : RuleRun, notify ((team.zipIdx (done.length + 1)).flatMap
                fun entry => entry.1.rule.listens.map fun kind => (kind, enterAt entry.2)) n
                  (done ++ run' :: rest) =
                ⟨done ++ run' :: (lookAll n rest).state, (lookAll n rest).fault⟩ := by
              intro run'
              simpa using ih (done ++ [run']) rest hteam hrest
            rw [List.zipIdx_cons, List.flatMap_cons, notify_append]
            simp only [← hrule, notify_kinds hrun, enterAt_append, lookAll, look]
            by_cases hkind : n.kind ∈ run.rule.listens
            · rw [if_pos hkind, if_pos hkind]
              cases run.enter n with
              | error fault => rfl
              | ok run' => exact hnext run'
            · rw [if_neg hkind, if_neg hkind]
              exact hnext run
  exact key team [] runs hteam hkinds

/-! ### What passes -/

/-- Rules let a node **pass** if its children are a sequence of nodes and every rule takes it. -/
def Pass (runs : List RuleRun) (n : Node) : Prop :=
  n.HasChildNodes ∧ ∀ run ∈ runs, run.rule.Takes n

/-- What a rule has seen does **not matter** to what it lets pass. -/
theorem pass_map_after {runs : List RuleRun} {nodes : List Node} {n : Node} :
    Pass (runs.map (·.after nodes)) n ↔ Pass runs n := by
  rw [Pass, List.forall_mem_map]
  rfl

section Team

variable {team runs : List RuleRun} {n : Node} {nodes : List Node}

/-- **One step** of a shared walk shows a node to the rules in turns, and then looks at its
children. -/
theorem perform_enter (hteam : runs.map rule = team.map rule)
    (hkinds : ∀ run ∈ runs, run.rule.listens.Nodup) :
    (listeners team).perform (.enter n) runs =
      match lookAll n runs with
      | ⟨state, some fault⟩ => ⟨state, some fault⟩
      | ⟨state, none⟩ =>
        match n.requireChildren with
        | .error fault => ⟨state, some fault⟩
        | .ok _ => ⟨state, none⟩ := by
  rw [Listeners.perform, notify_listeners hteam hkinds]
  rcases lookAll n runs with ⟨state, _ | fault⟩ <;> rfl

/-- Entering a node that rules let pass, they all **see it**. -/
theorem perform_of_pass (hteam : runs.map rule = team.map rule)
    (hkinds : ∀ run ∈ runs, run.rule.listens.Nodup) (h : Pass runs n) :
    (listeners team).perform (.enter n) runs = ⟨runs.map (·.after [n]), none⟩ := by
  obtain ⟨hchildNodes, htakes⟩ := h
  obtain ⟨children, hchildren⟩ := Node.exists_requireChildren_iff.mpr hchildNodes
  rw [perform_enter hteam hkinds, lookAll_of_takes htakes, hchildren]

/-- Entering a node that rules do not let pass **fails**. -/
theorem exists_perform_of_not_pass (hteam : runs.map rule = team.map rule)
    (hkinds : ∀ run ∈ runs, run.rule.listens.Nodup) (h : ¬ Pass runs n) :
    ∃ state fault, (listeners team).perform (.enter n) runs = ⟨state, some fault⟩ := by
  rw [perform_enter hteam hkinds]
  by_cases htakes : ∀ run ∈ runs, run.rule.Takes n
  · rw [lookAll_of_takes htakes]
    cases hchildren : n.requireChildren with
    | error fault => exact ⟨_, fault, rfl⟩
    | ok children =>
        exact absurd ⟨Node.exists_requireChildren_iff.mp ⟨children, hchildren⟩, htakes⟩ h
  · obtain ⟨state, fault, hlook⟩ := exists_lookAll_of_not_takes htakes
    exact ⟨state, fault, by rw [hlook]⟩

/-- After nodes that pass, every rule has **recorded** what it makes of them, and nothing else has
happened. -/
theorem performAll_of_pass (hteam : runs.map rule = team.map rule)
    (hkinds : ∀ run ∈ runs, run.rule.listens.Nodup) (h : ∀ n ∈ nodes, Pass runs n) :
    (listeners team).performAll (nodes.map .enter) runs = ⟨runs.map (·.after nodes), none⟩ := by
  induction nodes generalizing runs with
  | nil => simp [Listeners.performAll]
  | cons n nodes ih =>
      obtain ⟨hn, hnodes⟩ := List.forall_mem_cons.mp h
      have hteam' : (runs.map (·.after [n])).map rule = team.map rule := by
        rw [List.map_map, ← hteam]
        rfl
      have hkinds' : ∀ run ∈ runs.map (·.after [n]), run.rule.listens.Nodup :=
        List.forall_mem_map.mpr hkinds
      have hrest := ih hteam' hkinds' fun m hm => pass_map_after.mpr (hnodes m hm)
      rw [← map_after_append] at hrest
      rw [List.map_cons, Listeners.performAll, perform_of_pass hteam hkinds hn]
      exact hrest

/-- A walk is **stopped** by the first node that does not pass, and what is after it makes no
difference. -/
theorem performAll_of_not_pass (hteam : runs.map rule = team.map rule)
    (hkinds : ∀ run ∈ runs, run.rule.listens.Nodup) (h : ∀ n ∈ nodes, Pass runs n)
    (hstop : ¬ Pass runs n) (rest : List Node) :
    (∃ fault, ((listeners team).perform (.enter n) (runs.map (·.after nodes))).fault = some fault) ∧
      (listeners team).performAll ((nodes ++ n :: rest).map .enter) runs =
        (listeners team).perform (.enter n) (runs.map (·.after nodes)) := by
  have hteam' : (runs.map (·.after nodes)).map rule = team.map rule := by
    rw [List.map_map, ← hteam]
    rfl
  have hkinds' : ∀ run ∈ runs.map (·.after nodes), run.rule.listens.Nodup :=
    List.forall_mem_map.mpr hkinds
  obtain ⟨state, fault, hperform⟩ :=
    exists_perform_of_not_pass hteam' hkinds' (mt pass_map_after.mp hstop)
  refine ⟨⟨fault, by rw [hperform]⟩, ?_⟩
  rw [List.map_append, Listeners.performAll_append, performAll_of_pass hteam hkinds h]
  simp only [List.map_cons, Listeners.performAll, hperform]

end Team

/-- Of nodes that do not all pass, one is the **first**. -/
theorem exists_first_not_pass {runs : List RuleRun} {nodes : List Node}
    (h : ¬ ∀ n ∈ nodes, Pass runs n) :
    ∃ done n rest, nodes = done ++ n :: rest ∧ (∀ m ∈ done, Pass runs m) ∧ ¬ Pass runs n := by
  induction nodes with
  | nil => exact absurd (List.forall_mem_nil _) h
  | cons n nodes ih =>
      by_cases hn : Pass runs n
      · have hnodes : ¬ ∀ m ∈ nodes, Pass runs m :=
          fun hall => h (List.forall_mem_cons.mpr ⟨hn, hall⟩)
        obtain ⟨done, m, rest, rfl, hdone, hm⟩ := ih hnodes
        exact ⟨n :: done, m, rest, rfl, List.forall_mem_cons.mpr ⟨hn, hdone⟩, hm⟩
      · exact ⟨[], n, nodes, rfl, List.forall_mem_nil _, hn⟩

/-! ### The whole walk -/

/-- At the end every rule looks back **once**. -/
theorem foldl_finish_listeners {team runs : List RuleRun} (h : runs.length = team.length) :
    (listeners team).finish.foldl (fun state f => f state) runs = runs.map finish := by
  -- the rules in `done` have looked back
  have key : ∀ (team done runs : List RuleRun), runs.length = team.length →
      ((team.zipIdx done.length).map fun entry => fun runs : List RuleRun =>
        runs.modify entry.2 finish).foldl (fun state f => f state) (done ++ runs) =
      done ++ runs.map finish := by
    intro team
    induction team with
    | nil =>
        intro done runs h
        obtain rfl : runs = [] := List.length_eq_zero_iff.mp h
        rfl
    | cons first team ih =>
        intro done runs h
        cases runs with
        | nil => cases h
        | cons run rest =>
            have hmodify : (done ++ run :: rest).modify done.length finish =
                (done ++ [run.finish]) ++ rest := by
              simp [List.modify_eq_set_getElem?]
            have hrest := ih (done ++ [run.finish]) rest (Nat.succ.inj h)
            rw [List.length_append, List.length_singleton] at hrest
            rw [List.zipIdx_cons, List.map_cons, List.foldl_cons]
            simp only [hmodify]
            rw [hrest]
            simp
  exact key team [] runs h

section Walk

variable {runs : List RuleRun} {n : Node}

/-- A walk with several rules shows them the nodes of the tree **in pre-order**. -/
theorem walkAll_node (runs : List RuleRun) (n : Node) :
    walkAll runs (.node n) =
      match (listeners runs).performAll (n.preorder.map .enter) runs with
      | ⟨state, some fault⟩ => ⟨state, some fault⟩
      | ⟨state, none⟩ => ⟨(listeners runs).finish.foldl (fun state f => f state) state, none⟩ := by
  rw [walkAll, Listeners.walk_node, Listeners.performAll_eq_of_leave rfl, entered_steps]
  rcases (listeners runs).performAll (n.preorder.map .enter) runs with ⟨state, _ | fault⟩ <;> rfl

/-- **A tree whose nodes all pass is walked to its end**, and every rule has looked at all of it. -/
theorem walkAll_of_pass (hkinds : ∀ run ∈ runs, run.rule.listens.Nodup)
    (h : ∀ m ∈ n.preorder, Pass runs m) :
    walkAll runs (.node n) = ⟨runs.map fun run => (run.after n.preorder).finish, none⟩ := by
  rw [walkAll_node, performAll_of_pass rfl hkinds h]
  simp only [foldl_finish_listeners (List.length_map _), List.map_map]
  rfl

/-- A tree is walked to its end **if and only if** all its nodes pass. -/
theorem fault_walkAll_eq_none_iff (hkinds : ∀ run ∈ runs, run.rule.listens.Nodup) :
    (walkAll runs (.node n)).fault = none ↔ ∀ m ∈ n.preorder, Pass runs m := by
  constructor
  · intro hfault
    by_contra hpass
    obtain ⟨done, m, rest, hsplit, hdone, hm⟩ := exists_first_not_pass hpass
    obtain ⟨⟨fault, hstop⟩, hperform⟩ := performAll_of_not_pass rfl hkinds hdone hm rest
    rw [walkAll_node, hsplit, hperform] at hfault
    generalize (listeners runs).perform (.enter m) (runs.map (·.after done)) = outcome at *
    obtain ⟨state, fault'⟩ := outcome
    subst hstop
    cases hfault
  · intro hpass
    rw [walkAll_of_pass hkinds hpass]

/-- Where a rule is alone on a walk that is stopped, its record **goes up to the node** that does
not pass, and includes it if the rule takes it. -/
theorem exists_walkAll_of_stop {run : RuleRun} {done rest : List Node} {m : Node}
    (hkinds : run.rule.listens.Nodup) (hsplit : n.preorder = done ++ m :: rest)
    (hdone : ∀ k ∈ done, Pass [run] k) (hm : ¬ Pass [run] m) :
    ∃ fault kept, walkAll [run] (.node n) = ⟨[run.after kept], some fault⟩ ∧
      (run.rule.Takes m ∧ kept = done ++ [m] ∨ ¬ run.rule.Takes m ∧ kept = done) := by
  have hteam : [run.after done].map rule = [run].map rule := rfl
  have hkinds' : ∀ r ∈ [run.after done], r.rule.listens.Nodup :=
    fun r hr => List.mem_singleton.mp hr ▸ hkinds
  have hstop : (listeners [run]).performAll ((done ++ m :: rest).map .enter) [run] =
      (listeners [run]).perform (.enter m) [run.after done] :=
    (performAll_of_not_pass rfl (fun r hr => List.mem_singleton.mp hr ▸ hkinds) hdone hm rest).2
  rw [walkAll_node, hsplit, hstop, perform_enter hteam hkinds', lookAll]
  by_cases htakes : run.rule.Takes m
  · have hlook : (run.after done).look m = .ok ((run.after done).after [m]) := look_of_takes htakes
    cases hchildren : m.requireChildren with
    | ok children =>
        exact absurd ⟨Node.exists_requireChildren_iff.mp ⟨children, hchildren⟩,
          fun r hr => List.mem_singleton.mp hr ▸ htakes⟩ hm
    | error fault =>
        refine ⟨fault, done ++ [m], ?_, .inl ⟨htakes, rfl⟩⟩
        rw [hlook, after_append]
        rfl
  · have hnot : ¬ (run.after done).rule.Takes m := htakes
    obtain ⟨fault, hlook⟩ := exists_look_of_not_takes hnot
    refine ⟨fault, done, ?_, .inr ⟨htakes, rfl⟩⟩
    rw [hlook]

end Walk

end RuleRun

end TreeLint
