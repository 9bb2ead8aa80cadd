import Conductor.Text.Blank

/-! Cutting a text at separators, into words, or at the first place where another text occurs. -/

namespace Conductor.Text

/-- The pieces between the characters of a class; there is one more piece than such characters. -/
def split (p : Char → Bool) : List Char → List (List Char)
  | [] => [[]]
  | c :: s =>
    if p c then [] :: split p s
    else match split p s with
      | [] => [[c]]
      | piece :: pieces => (c :: piece) :: pieces

theorem split_ne_nil (p : Char → Bool) (s : List Char) : split p s ≠ [] := by
  cases s with
  | nil => simp [split]
  | cons c s =>
    unfold split
    split
    · simp
    · split <;> simp

/-- A separator closes the pieces of what is before it. -/
theorem split_append_cons (p : Char → Bool) (a b : List Char) {c : Char} (hc : p c = true) :
    split p (a ++ c :: b) = split p a ++ split p b := by
  induction a with
  | nil => simp [split, hc]
  | cons x a ih =>
    by_cases hx : p x = true
    · simp [split, hx, ih]
    · have h : split p a ≠ [] := split_ne_nil p a
      cases hs : split p a with
      | nil => exact absurd hs h
      | cons q qs => simp [split, hx, ih, hs]

/-- The maximal runs of characters that are not blank. -/
def words (s : List Char) : List (List Char) :=
  (split isBlank s).filter (· ≠ [])

/-- What stands before and after the first occurrence of `pat`. -/
def cut? (pat : List Char) : List Char → Option (List Char × List Char)
  | [] => if pat = [] then some ([], []) else none
  | c :: s =>
    match List.isPrefixOf? pat (c :: s) with
    | some rest => some ([], rest)
    | none => (cut? pat s).map fun r => (c :: r.1, r.2)

/-- Tells whether `pat` occurs in a text. -/
def occurs (pat s : List Char) : Bool := (cut? pat s).isSome

/-- Texts with a separator between each two. -/
def join (sep : List Char) : List (List Char) → List Char
  | [] => []
  | [s] => s
  | s :: rest => s ++ sep ++ join sep rest

end Conductor.Text
