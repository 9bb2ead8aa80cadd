import Conductor.Text.Lower
import Conductor.Yaml.Atom
import Conductor.Yaml.Base64
import Conductor.Yaml.Tag

/-! Reading atoms from the texts of scalars, by the tags that the scalars have. -/

namespace Conductor.Yaml.Core

/-- A truth value in any case. -/
def truth (s : String) : Except Failure Bool :=
  let s := String.ofList (Text.lower s.toList)
  match Tag.bool? s with
  | some b => .ok b
  | none => .error (.notTruth s)

/-- Takes off the mark that may stand before the digits of a base. -/
def dropMark (base : Nat) : List Char → List Char
  | '0' :: c :: s =>
    if (base, c.toLower) ∈ [(2, 'b'), (8, 'o'), (16, 'x')] then s else '0' :: c :: s
  | s => s

/-- The value of digits of a base. -/
def valueOf? (base n : Nat) : List Char → Option Nat
  | [] => some n
  | c :: s =>
    match hexDigit? c with
    | some d => if d < base then valueOf? base (base * n + d) s else none
    | none => none

/-- The number that a numeral of a base spells, with its sign. Decimal digits are counted before they
are read. -/
def numeral (base : Nat) (s : List Char) : Except Failure Int :=
  let trimmed := Text.trimBy Text.isWhite (Decimal.asciiDigits s)
  let (negative, rest) := Decimal.takeSign trimmed
  let digits := dropMark base rest
  let count := (digits.takeWhile Char.isDigit).length
  if base = 10 && Decimal.maxDigits < count then .error (.longInteger count)
  else if digits = [] then .error (.notInteger base (String.ofList s))
  else
    match valueOf? base 0 digits with
    | some n => .ok (if negative then -n else n)
    | none => .error (.notInteger base (String.ofList s))

/-- The integer that a text without its sign spells. -/
def magnitude (s : List Char) : Except Failure Int :=
  match s with
  | [] => .error .emptyNumber
  | ['0'] => .ok 0
  | '0' :: 'b' :: s => numeral 2 s
  | '0' :: 'x' :: s => numeral 16 s
  | '0' :: _ => numeral 8 s
  | s =>
    if s.contains ':' then
      ((Text.split (· = ':') s).mapM (numeral 10)).map (·.foldl (fun n p => 60 * n + p) 0)
    else numeral 10 s

/-- The integer that a text spells, whatever its look. Underscores do not count. -/
def integer (s : String) : Except Failure Int :=
  match s.toList.filter (· ≠ '_') with
  | [] => .error .emptyNumber
  | s =>
    let (negative, rest) := Decimal.takeSign s
    (magnitude rest).map fun n => if negative then -n else n

def number (s : List Char) : Except Failure Float :=
  match Decimal.read? (Text.trimBy Text.isWhite s) with
  | some x => .ok x
  | none => .error (.notNumber (String.ofList s))

/-- Adds up the parts of a number of base 60, from the last on; the next one counts `unit` times, which
must not be beyond the doubles. -/
def sumSixtieths (unit : Nat) (sum : Float) : List Float → Except Failure Float
  | [] => .ok sum
  | x :: xs =>
    match Decimal.ofInt? unit with
    | some u => sumSixtieths (60 * unit) (sum + x * u) xs
    | none => .error .longNumber

/-- The double that a text without its sign spells. -/
def positive (s : List Char) : Except Failure Float :=
  if s = ".inf".toList || s = ".nan".toList then number (s.drop 1)
  else if s.contains ':' then
    ((Text.split (· = ':') s).mapM number).bind fun xs => sumSixtieths 1 0.0 xs.reverse
  else number s

/-- The double that a text spells, whatever its look. Underscores do not count. -/
def double (s : String) : Except Failure Float :=
  match Text.lower (s.toList.filter (· ≠ '_')) with
  | [] => .error .emptyNumber
  | s =>
    let (negative, rest) := Decimal.takeSign s
    (positive rest).map (Decimal.signed negative)

/-- The bytes that a text spells. -/
def bytes (s : String) : Except Failure (List UInt8) :=
  match Base64.decode? s.toList with
  | some b => .ok b
  | none => .error .malformed

/-- The atom that the text of a scalar spells. -/
def atom (tag : Tag) (s : String) : Except Failure Atom :=
  match tag with
  | .null => .ok .null
  | .bool => (truth s).map .bool
  | .int => (integer s).map .int
  | .float => (double s).map .float
  | .text => .ok (.text s)
  | .bytes => (bytes s).map .bytes
  | .time => (Moment.read s.toList).map .time
  | _ => .error .malformed

end Conductor.Yaml.Core
