import Conductor.Text.Intervals

/-! White space, and texts with the white space at their ends taken off. -/

namespace Conductor.Text

/-- Unicode white space. -/
def whiteIntervals : Intervals := [
  (9, 13), (32, 32), (133, 133), (160, 160), (5760, 5760), (8192, 8202), (8232, 8233),
  (8239, 8239), (8287, 8287), (12288, 12288)]

/-- Unicode white space only. -/
def isWhite (c : Char) : Bool := whiteIntervals.contains c

/-- White space and the four separators of ASCII (U+001C to U+001F). -/
def isBlank (c : Char) : Bool :=
  (28 ≤ c.toNat && c.toNat ≤ 31) || isWhite c

/-- Takes the characters of a class off both ends. -/
def trimBy (p : Char → Bool) (s : List Char) : List Char :=
  ((s.dropWhile p).reverse.dropWhile p).reverse

/-- Takes the blanks off both ends. -/
def trim (s : List Char) : List Char := trimBy isBlank s

@[simp] theorem trim_nil : trim [] = [] := rfl

end Conductor.Text
