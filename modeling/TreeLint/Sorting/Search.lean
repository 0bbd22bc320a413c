/-!
# Searching a Sorted Array

A test that may fail divides a sorted array: it holds up to some place, and from there on it does
not. `bisect` finds the place by halving. `gallop` starts at a hint and moves away from it in
strides, each twice as long as the last, until the place is passed; what lies between the last
two strides is halved. Where the test does not divide the array the answer is still some place,
and which one depends on the order in which items are tested.
-/

namespace TreeLint.Sorting

variable {α ε : Type}

/-- Whether the item at an index passes a test. -/
def testAt (p : α → Except ε Bool) (xs : Array α) (i : Nat) : Except ε Bool :=
  match xs[i]? with
  | some x => p x
  | none => .ok false

/-- The place from `lo` to `hi` up to which a test holds, by **halving**. -/
def bisect (p : α → Except ε Bool) (xs : Array α) (lo hi : Nat) : Except ε Nat :=
  if _h : lo < hi then
    let mid := lo + (hi - lo) / 2
    match testAt p xs mid with
    | .error e => .error e
    | .ok true => bisect p xs (mid + 1) hi
    | .ok false => bisect p xs lo mid
  else .ok lo
termination_by hi - lo
decreasing_by all_goals omega

/-- Strides up from an index as long as the test holds: the last stride at which it does, and the
next one, which is no longer than `limit`. -/
def strideUp (p : α → Except ε Bool) (xs : Array α) (start limit last stride : Nat) :
    Except ε (Nat × Nat) :=
  if _h : stride < limit then
    match testAt p xs (start + stride) with
    | .error e => .error e
    | .ok true => strideUp p xs start limit stride (2 * stride + 1)
    | .ok false => .ok (last, stride)
  else .ok (last, limit)
termination_by limit - stride
decreasing_by omega

/-- Strides down from an index until the test holds: the last stride at which it does not, and the
next one, which is no longer than `limit`. -/
def strideDown (p : α → Except ε Bool) (xs : Array α) (start limit last stride : Nat) :
    Except ε (Nat × Nat) :=
  if _h : stride < limit then
    match testAt p xs (start - stride) with
    | .error e => .error e
    | .ok true => .ok (last, stride)
    | .ok false => strideDown p xs start limit stride (2 * stride + 1)
  else .ok (last, limit)
termination_by limit - stride
decreasing_by omega

/-- How many of the `n` items from `lo` on pass a test, by **galloping** from the one at `hint`
among them. -/
def gallop (p : α → Except ε Bool) (xs : Array α) (lo n hint : Nat) : Except ε Nat := do
  let start := lo + hint
  let place ←
    if ← testAt p xs start then do
      let (last, stride) ← strideUp p xs start (n - hint) 0 1
      bisect p xs (start + last + 1) (start + stride)
    else do
      let (last, stride) ← strideDown p xs start (hint + 1) 0 1
      bisect p xs (start + 1 - stride) (start - last)
  return place - lo

end TreeLint.Sorting
