import Conductor.Text.Split

/-! The lines of a text. -/

namespace Conductor.Text

/-- The characters that end a line; a carriage return and a line feed together end one. -/
def isLineEnd (c : Char) : Bool :=
  (10 ≤ c.toNat && c.toNat ≤ 13) || (28 ≤ c.toNat && c.toNat ≤ 30) || c = '\x85' || c = '\u2028'
    || c = '\u2029'

/-- A text in which every line ends with a line feed alone. -/
def lineFeeds : List Char → List Char
  | '\r' :: '\n' :: s => '\n' :: lineFeeds s
  | c :: s => (if c = '\r' then '\n' else c) :: lineFeeds s
  | [] => []

/-- The lines of a text. An end of line at the end of the text starts no other line. -/
def lines (s : List Char) : List (List Char) :=
  let pieces := split isLineEnd (lineFeeds s)
  if pieces.getLast? = some [] then pieces.dropLast else pieces

/-- What follows an escape sequence: an opening bracket, marks and digits, and a letter. -/
def escapeRest? : List Char → Option (List Char)
  | '\x1b' :: '[' :: s =>
    match s.dropWhile fun c => c.isDigit || c = ';' || c = '?' with
    | c :: s => if c.isAlpha then some s else none
    | [] => none
  | _ => none

theorem length_escapeRest? {s t : List Char} (h : escapeRest? s = some t) : t.length < s.length := by
  unfold escapeRest? at h
  split at h
  · rename_i s
    split at h
    · rename_i c u hd
      split at h
      · injection h with h
        subst h
        have hle : (s.dropWhile fun c => c.isDigit || c = ';' || c = '?').length ≤ s.length :=
          (List.dropWhile_sublist _).length_le
        rw [hd] at hle
        simp at hle ⊢
        omega
      · simp at h
    · simp at h
  · simp at h

/-- A text without the escape sequences that steer a terminal. -/
def dropEscapes (s : List Char) : List Char :=
  match _h : escapeRest? s with
  | some rest => dropEscapes rest
  | none =>
    match s with
    | [] => []
    | c :: s => c :: dropEscapes s
termination_by s.length
decreasing_by
  · exact length_escapeRest? _h
  · exact Nat.lt_succ_self _

end Conductor.Text
