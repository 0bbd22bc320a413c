import TreeLint.Sorting.Search

/-!
# Merging Two Runs

Two sorted runs, one right after the other, become one. What is in place already is left there;
the rest is merged from the end at which the shorter run stands. A merge first **steps**: it
compares the next items of the two runs and takes one of them. When one run has won often enough
in a row, it **gallops**: it searches for how far a run goes on winning and takes all of that at
once, as long as that pays.

How many wins are often enough is the *patience*. Galloping that pays lowers it, galloping that
does not raises it, and it is kept from one merge to the next.

`before y x` says whether `y` comes before `x`; the item of the later run always stands on the
left.
-/

namespace TreeLint.Sorting

variable {α ε : Type}

/-- How many items at once make galloping worth while, and the patience at the start. -/
def gallopGain : Nat := 7

/-- How a merge goes on: by steps, after each run has won some steps in a row, or by galloping. -/
inductive Pace where
  | stepping (leftWins rightWins : Nat)
  | galloping
  deriving DecidableEq, Repr

/-- The pace after a win of the left run. -/
def Pace.afterLeft (patience wins : Nat) : Pace :=
  if patience ≤ wins + 1 then .galloping else .stepping (wins + 1) 0

/-- The pace after a win of the right run. -/
def Pace.afterRight (patience wins : Nat) : Pace :=
  if patience ≤ wins + 1 then .galloping else .stepping 0 (wins + 1)

/-- The pace and the patience after galloping has taken some items of either run. -/
def Pace.afterGallop (patience left right : Nat) : Pace × Nat :=
  if gallopGain ≤ left || gallopGain ≤ right then (.galloping, max 1 (patience - 1))
  else (.stepping 0 0, patience + 1)

/-- The last `n` items of an array. -/
def lastItems (xs : Array α) (n : Nat) : Array α := xs.extract (xs.size - n) xs.size

/-- Merge the last `na` items of `a` and the last `nb` items of `b` from the front, after the
items of `out`. The last item of `a` comes after all of `b`. -/
def mergeUp (before : α → α → Except ε Bool) (a b : Array α) (pace : Pace) (patience : Nat)
    (na nb : Nat) (out : Array α) : Except ε (Array α × Nat) :=
  if _h : nb = 0 ∨ na ≤ 1 then .ok (out ++ lastItems b nb ++ lastItems a na, patience)
  else
    match a[a.size - na]?, b[b.size - nb]? with
    | some x, some y =>
      match pace with
      | .stepping leftWins rightWins =>
        match before y x with
        | .error e => .error e
        | .ok true =>
          mergeUp before a b (.afterRight patience rightWins) patience na (nb - 1) (out.push y)
        | .ok false =>
          mergeUp before a b (.afterLeft patience leftWins) patience (na - 1) nb (out.push x)
      | .galloping =>
        match gallop (fun z => (before y z).map (!·)) a (a.size - na) na 0 with
        | .error e => .error e
        | .ok left =>
          let out := out ++ (lastItems a na).extract 0 left
          if na ≤ left + 1 then
            .ok (out ++ lastItems b nb ++ lastItems a (na - left), patience)
          else
            let out := out.push y
            match a[a.size - na + left]? with
            | none => .ok (out, patience)
            | some x =>
              match gallop (before · x) b (b.size - nb + 1) (nb - 1) 0 with
              | .error e => .error e
              | .ok right =>
                let out := out ++ (lastItems b (nb - 1)).extract 0 right
                if nb ≤ right + 1 then .ok (out ++ lastItems a (na - left), patience)
                else
                  let (pace, next) := Pace.afterGallop patience left right
                  let next := if na ≤ left + 2 then patience else next
                  mergeUp before a b pace next (na - left - 1) (nb - 1 - right) (out.push x)
    | _, _ => .ok (out, patience)
termination_by na + nb
decreasing_by all_goals omega

/-- Merge the first `na` items of `a` and the first `nb` items of `b` from the back, before the
items of `out`. The first item of `b` comes before all of `a`. -/
def mergeDown (before : α → α → Except ε Bool) (a b : Array α) (pace : Pace) (patience : Nat)
    (na nb : Nat) (out : List α) : Except ε (List α × Nat) :=
  if _h : na = 0 ∨ nb ≤ 1 then
    .ok ((b.extract 0 nb).toList ++ ((a.extract 0 na).toList ++ out), patience)
  else
    match a[na - 1]?, b[nb - 1]? with
    | some x, some y =>
      match pace with
      | .stepping leftWins rightWins =>
        match before y x with
        | .error e => .error e
        | .ok true =>
          mergeDown before a b (.afterLeft patience leftWins) patience (na - 1) nb (x :: out)
        | .ok false =>
          mergeDown before a b (.afterRight patience rightWins) patience na (nb - 1) (y :: out)
      | .galloping =>
        match gallop (fun z => (before y z).map (!·)) a 0 na (na - 1) with
        | .error e => .error e
        | .ok left =>
          let out := (a.extract left na).toList ++ out
          if left = 0 then .ok ((b.extract 0 nb).toList ++ out, patience)
          else
            let out := y :: out
            match nb - 1, a[left - 1]? with
            | 1, _ | 0, _ | _, none =>
              .ok ((b.extract 0 (nb - 1)).toList ++ ((a.extract 0 left).toList ++ out), patience)
            | _, some x =>
              match gallop (before · x) b 0 (nb - 1) (nb - 2) with
              | .error e => .error e
              | .ok right =>
                let out := (b.extract right (nb - 1)).toList ++ out
                if right ≤ 1 then
                  .ok ((b.extract 0 right).toList ++ ((a.extract 0 left).toList ++ out), patience)
                else
                  let (pace, next) := Pace.afterGallop patience (na - left) (nb - 1 - right)
                  let next := if left = 1 then patience else next
                  mergeDown before a b pace next (min left na - 1) (min right nb) (x :: out)
    | _, _ => .ok (out, patience)
termination_by na + nb
decreasing_by all_goals omega

/-- Two neighbouring runs **merged**, and the patience after that. -/
def merge (before : α → α → Except ε Bool) (patience : Nat) (a b : Array α) :
    Except ε (Array α × Nat) :=
  match b[0]?, a[a.size - 1]? with
  | some first, some last => do
    let placed ← gallop (fun z => (before first z).map (!·)) a 0 a.size 0
    let na := a.size - placed
    if na = 0 then return (a ++ b, patience)
    let nb ← gallop (before · last) b 0 b.size (b.size - 1)
    if nb = 0 then return (a ++ b, patience)
    let head := a.extract 0 placed
    let left := a.extract placed a.size
    let right := b.extract 0 nb
    let tail := b.extract nb b.size
    if na ≤ nb then
      let (merged, patience) ←
        mergeUp before left right (.stepping 0 0) patience na (nb - 1) #[first]
      return (head ++ merged ++ tail, patience)
    else
      let (merged, patience) ←
        mergeDown before left right (.stepping 0 0) patience (na - 1) nb [last]
      return (head ++ merged.toArray ++ tail, patience)
  | _, _ => .ok (a ++ b, patience)

end TreeLint.Sorting
