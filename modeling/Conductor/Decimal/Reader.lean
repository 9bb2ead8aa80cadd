import Conductor.Decimal.Nearest
import Conductor.Text.Blank
import Conductor.Text.Digit

/-! Reading a decimal numeral as the nearest double. -/

namespace Conductor.Decimal

/-- The digits at the start of a text, as a number on top of `n`, with their count and the rest. -/
def takeDigits (n count : Nat) : List Char → Nat × Nat × List Char
  | [] => (n, count, [])
  | c :: s =>
    match Text.asciiDigit? c with
    | some d => takeDigits (10 * n + d) (count + 1) s
    | none => (n, count, c :: s)

/-- The greatest number of digits of a decimal integer that is read. -/
def maxDigits : Nat := 4300

/-- What is said of an integer with more digits. -/
def tooLong (digits : Nat) : String :=
  s!"Exceeds the limit ({maxDigits} digits) for integer string conversion: value has {digits} digits; " ++
    "use sys.set_int_max_str_digits() to increase the limit"

/-- Splits off a sign; true is minus. -/
def takeSign : List Char → Bool × List Char
  | '-' :: s => (true, s)
  | '+' :: s => (false, s)
  | s => (false, s)

/-- The exponent part, which must end the text. -/
def exponent? : List Char → Option Int
  | [] => some 0
  | c :: s =>
    if c = 'e' ∨ c = 'E' then
      let (negative, s) := takeSign s
      match takeDigits 0 0 s with
      | (n, _ + 1, []) => some (if negative then -(n : Int) else n)
      | _ => none
    else none

/-- The words for what is no finite number, in any case. -/
def special? (s : List Char) : Option Float :=
  let w := s.map Char.toLower
  if w = "inf".toList ∨ w = "infinity".toList then some (Float.ofBits (UInt64.ofNat infinityBits))
  else if w = "nan".toList then some (0.0 / 0.0)
  else none

/-- An unsigned numeral: digits with at most one point, at least one digit, then an exponent. -/
def unsigned? (s : List Char) : Option Float :=
  let (whole, n, rest) := takeDigits 0 0 s
  let (digits, places, rest) :=
    match rest with
    | '.' :: rest => takeDigits whole 0 rest
    | rest => (whole, 0, rest)
  if n + places = 0 then none
  else (exponent? rest).map fun e => nearestDecimal digits (e - places)

/-- A numeral in ASCII with an optional sign, or a word for infinity or no number. -/
def plain? (s : List Char) : Option Float :=
  let (negative, s) := takeSign s
  ((special? s).orElse fun _ => unsigned? s).map (signed negative)

/-- Replaces the decimal digits of every script by those of ASCII. -/
def asciiDigits (s : List Char) : List Char :=
  s.map fun c =>
    match Text.digit? c with
    | some d => Char.ofNat (48 + d)
    | none => c

/-- Drops the underscores if each of them stands between two digits. -/
def dropUnderscores? (afterDigit : Bool) : List Char → Option (List Char)
  | [] => some []
  | '_' :: c :: s =>
    if afterDigit && c.isDigit then (dropUnderscores? true s).map (c :: ·) else none
  | c :: s => if c = '_' then none else (dropUnderscores? c.isDigit s).map (c :: ·)

/-- The number that a text spells: digits of any script, underscores between digits. The blanks are
to be taken off before. -/
def read? (s : List Char) : Option Float :=
  (dropUnderscores? false (asciiDigits s)).bind plain?

end Conductor.Decimal
