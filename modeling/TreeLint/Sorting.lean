import TreeLint.Sorting.Merge

/-!
# Stable Sorting with a Partial Order

`sortBy?` sorts a list by a comparison that may fail, and fails with the first failing
comparison. Which comparison that is depends on the order in which items are compared, and so
does the outcome where the comparison is no order at all; so the method is part of the contract:

1. the list is cut into runs: the longest stretch at the front that is ascending, or strictly
   descending and then turned round, is a run as it is, and a short one is made longer by putting
   the items after it into it one by one;
2. runs are merged with their neighbours, in the order of a **balanced tree** over the list: the
   boundary between two runs has a power, which is how often the list has to be halved until a
   halving point lies between the middles of the two runs, and the boundaries of greater power go
   first.

The later item always stands on the left of a comparison. Where the comparison is a strict
weak order that never fails this is the stable sort.
-/

namespace TreeLint

variable {α ε : Type}

namespace Sorting

/-! ### Runs -/

/-- How many items continue a run after `previous`: each comes before the one ahead of it exactly
when `descending` says so. -/
def countRun (before : α → α → Except ε Bool) (descending : Bool) :
    α → List α → Except ε Nat
  | _, [] => .ok 0
  | previous, x :: rest => do
    if (← before x previous) == descending then return (← countRun before descending x rest) + 1
    else return 0

/-- The run at the front of a list, in ascending order. -/
def frontRun (before : α → α → Except ε Bool) : List α → Except ε (List α)
  | [] => .ok []
  | [x] => .ok [x]
  | x :: y :: rest => do
    let descending ← before y x
    let count ← countRun before descending y rest
    let run := x :: y :: rest.take count
    return if descending then run.reverse else run

/-- A sorted array with one more item, after all items that it does not come before. -/
def insertSorted (before : α → α → Except ε Bool) (sorted : Array α) (x : α) :
    Except ε (Array α) := do
  let place ← bisect (fun y => (before x y).map (!·)) sorted 0 sorted.size
  return sorted.extract 0 place ++ #[x] ++ sorted.extract place sorted.size

/-- The least length of a run for a list of `n` items: a number up to 64, such that the runs are
a power of two in number or slightly fewer. `odd` says whether a bit has been dropped from `n`. -/
def leastRun (odd : Bool) (n : Nat) : Nat :=
  if n < 64 then n + odd.toNat else leastRun (odd || n % 2 == 1) (n / 2)

/-- The run at the front of a list, made longer if it is short. -/
def nextRun (before : α → α → Except ε Bool) (least : Nat) (xs : List α) :
    Except ε (Array α) := do
  let run ← frontRun before xs
  ((xs.take least).drop run.length).foldlM (insertSorted before) run.toArray

/-! ### Merging in the order of powers -/

/-- How often `n` is halved until a halving point lies between two middles, which are given as
twice their distance from the front. The middles are doubled instead of the halves, at most
`fuel` times. -/
def boundaryPower (n : Nat) : Nat → Nat → Nat → Nat
  | 0, _, _ => 1
  | fuel + 1, left, right =>
    if n ≤ left then boundaryPower n fuel (2 * (left - n)) (2 * (right - n)) + 1
    else if n ≤ right then 1
    else boundaryPower n fuel (2 * left) (2 * right) + 1

/-- A run that waits to be merged: where it starts, and the power of the boundary after it. -/
structure Pending (α : Type) where
  items : Array α
  start : Nat
  power : Nat := 0

/-- The power of the boundary between a run and the next one, in a list of `n` items. -/
def Pending.boundary (run : Pending α) (next n : Nat) : Nat :=
  let left := 2 * run.start + run.items.size
  boundaryPower n n left (left + run.items.size + next)

/-- Runs, from the last one on, and the patience of merges. -/
structure Stack (α : Type) where
  runs : List (Pending α) := []
  patience : Nat := gallopGain

/-- Merge the last two runs as long as the boundary between them has a greater power. -/
def settle (before : α → α → Except ε Bool) (power patience : Nat) (runs : List (Pending α)) :
    Except ε (Stack α) :=
  match runs with
  | last :: previous :: rest =>
    if power < previous.power then
      match merge before patience previous.items last.items with
      | .error e => .error e
      | .ok (items, patience) => settle before power patience ({ previous with items } :: rest)
    else .ok ⟨{ last with power } :: previous :: rest, patience⟩
  | [last] => .ok ⟨[{ last with power }], patience⟩
  | [] => .ok ⟨[], patience⟩
termination_by runs.length
decreasing_by simp

/-- One more run at the end, in a list of `n` items. -/
def Stack.push (before : α → α → Except ε Bool) (n start : Nat) (items : Array α) (s : Stack α) :
    Except ε (Stack α) := do
  let power := match s.runs with
    | [] => 0
    | last :: _ => last.boundary items.size n
  let s ← settle before power s.patience s.runs
  return { s with runs := ⟨items, start, 0⟩ :: s.runs }

/-- Merge all runs into one. Of three runs at the end the middle one is merged with the shorter of
the other two. -/
def mergeAll (before : α → α → Except ε Bool) (patience : Nat) (runs : List (Pending α)) :
    Except ε (List α) :=
  match runs with
  | [] => .ok []
  | [run] => .ok run.items.toList
  | [last, previous] => do
    let (items, _) ← merge before patience previous.items last.items
    return items.toList
  | last :: middle :: first :: rest =>
    if first.items.size < last.items.size then
      match merge before patience first.items middle.items with
      | .error e => .error e
      | .ok (items, patience) => mergeAll before patience (last :: { first with items } :: rest)
    else
      match merge before patience middle.items last.items with
      | .error e => .error e
      | .ok (items, patience) => mergeAll before patience ({ middle with items } :: first :: rest)
termination_by runs.length
decreasing_by all_goals simp

/-- Sort what is left of a list of `n` items from `start` on. -/
def sortFrom (before : α → α → Except ε Bool) (n start : Nat) (s : Stack α) (xs : List α) :
    Except ε (List α) :=
  match xs with
  | [] => mergeAll before s.patience s.runs
  | x :: rest =>
    match nextRun before (leastRun false n) (x :: rest) with
    | .error e => .error e
    | .ok run =>
      match s.push before n start run with
      | .error e => .error e
      | .ok s => sortFrom before n (start + run.size) s (rest.drop (run.size - 1))
termination_by xs.length
decreasing_by simp only [List.length_drop, List.length_cons]; omega

end Sorting

/-- The list **sorted** by `before`, or the first comparison that failed. -/
def sortBy? (before : α → α → Except ε Bool) (xs : List α) : Except ε (List α) :=
  Sorting.sortFrom before xs.length 0 {} xs

end TreeLint
