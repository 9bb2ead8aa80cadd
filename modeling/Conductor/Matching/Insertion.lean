/-! Sorting by binary insertion, as fewer than 64 items are sorted. Where the order is one, the result is the
stable sorted list; the way to it counts where some items compare with nothing. -/

namespace Conductor.Matching.Insertion

variable {α : Type}

/-- The items after `a` up to the first that does not go on from the one before it. -/
def runFrom (goesOn : α → α → Bool) (a : α) : List α → List α × List α
  | [] => ([], [])
  | b :: s =>
    if goesOn a b then
      let (run, rest) := runFrom goesOn b s
      (b :: run, rest)
    else ([], b :: s)

/-- The longest sorted start of a list. A start that falls all the way is turned around. -/
def firstRun (less : α → α → Bool) : List α → List α × List α
  | [] => ([], [])
  | [a] => ([a], [])
  | a :: b :: s =>
    let falls := less b a
    let (run, rest) := runFrom (fun x y => less y x == falls) a (b :: s)
    (if falls then (a :: run).reverse else a :: run, rest)

/-- The place of `x` in a sorted list, after the items that it does not come before, if it lies
between two positions. -/
def place (less : α → α → Bool) (x : α) (sorted : List α) (low high : Nat) : Nat :=
  if low < high then
    let middle := low + (high - low) / 2
    if sorted[middle]?.any (less x) then place less x sorted low middle
    else place less x sorted (middle + 1) high
  else low
termination_by high - low

def insert (less : α → α → Bool) (sorted : List α) (x : α) : List α :=
  let i := place less x sorted 0 sorted.length
  sorted.take i ++ x :: sorted.drop i

def sort (less : α → α → Bool) (xs : List α) : List α :=
  let (run, rest) := firstRun less xs
  rest.foldl (insert less) run

end Conductor.Matching.Insertion
