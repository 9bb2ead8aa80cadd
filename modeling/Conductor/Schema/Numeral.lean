import Conductor.Decimal.Reader
import Conductor.Schema.Checked
import Conductor.Text.Blank

/-! The numbers that texts spell in fields. Zeros before an integer do not count, a fraction of zeros
may follow it, and underscores may stand between its digits. -/

namespace Conductor.Numeral

/-- Takes a plus sign off, unless a minus sign follows it. -/
def dropPlus : List Char → List Char
  | '+' :: s => if s.head? = some '-' then '+' :: s else s
  | s => s

/-- What follows a run of zeros and underscores; `last` is the character passed before. The sign of a
number may stand after them. -/
def afterZeros (last : Char) : List Char → Option (List Char)
  | [] => some [last]
  | c :: s =>
    if c = '0' || c = '_' then afterZeros c s
    else if c.isDigit || c = '-' then some (c :: s)
    else if c = '.' then some (last :: c :: s)
    else none

/-- Takes off the zeros that a text starts with; a text that starts with no digit and no minus sign
spells no integer. -/
def dropZeros? : List Char → Option (List Char)
  | [] => none
  | c :: s =>
    if c = '0' then afterZeros c s else if c.isDigit || c = '-' then some (c :: s) else none

/-- Takes a fraction of zeros off. -/
def dropZeroFraction (s : List Char) : List Char :=
  let (whole, fraction) := s.span (· ≠ '.')
  match fraction with
  | _ :: place :: places => if (place :: places).all (· = '0') then whole else s
  | _ => s

/-- Takes the underscores out if none is at an end and no two meet. -/
def dropUnderscores? (s : List Char) : Option (List Char) :=
  if s.head? = some '_' || s.getLast? = some '_' || (List.zip s s.tail).contains ('_', '_') then none
  else some (s.filter (· ≠ '_'))

/-- An integer without needless zeros: a minus sign or none, and digits. -/
def canonical (s : List Char) : Checked Int :=
  let (negative, digits) := match s with
    | '-' :: s => (true, s)
    | s => (false, s)
  let (n, count, rest) := Decimal.takeDigits 0 0 digits
  if digits.head? = some '0' then
    if rest = [] && count = 1 then .ok 0 else .problem .unreadableInteger
  else if count = 0 then .problem .unreadableInteger
  else if Decimal.maxDigits < s.length - rest.length then .problem .hugeInteger
  else if rest = [] then .ok (if negative then -(n : Int) else n)
  else .problem .unreadableInteger

/-- The integer that a text spells. -/
def integer (s : List Char) : Checked Int :=
  match dropZeros? (dropPlus (Text.trimBy Text.isWhite s)) with
  | none => .problem .unreadableInteger
  | some s =>
    let s := dropZeroFraction s
    canonical ((dropUnderscores? s).getD s)

/-- The double that a text spells. White space may stand around it, or underscores within it, but not
both. -/
def double? (s : List Char) : Option Float :=
  (Decimal.plain? (Text.trimBy Text.isWhite s)).orElse fun _ =>
    (dropUnderscores? s).bind Decimal.plain?

end Conductor.Numeral
