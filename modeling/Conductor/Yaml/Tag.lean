import Conductor.Decimal.Reader
import Conductor.Text.Split
import Conductor.Yaml.Moment
import Conductor.Yaml.Scalar

/-! The kinds of values, by their tags, and the kinds that scalars without a tag look like. -/

namespace Conductor.Yaml

inductive Tag where
  | null
  | bool
  | int
  | float
  | text
  | bytes
  | time
  | seq
  | map
  | set
  /-- A sequence of pairs, which may be said to be in order. -/
  | pairs
  /-- The key under which other mappings are merged in. -/
  | merge
  /-- The key of a default value. -/
  | default
  | unknown
deriving Repr, DecidableEq

namespace Tag

/-- Where the kinds of the core are found. -/
def core : String := "tag:yaml.org,2002:"

def named : List (String × Tag) := [
  ("null", .null), ("bool", .bool), ("int", .int), ("float", .float), ("str", .text),
  ("binary", .bytes), ("timestamp", .time), ("seq", .seq), ("map", .map), ("set", .set),
  ("pairs", .pairs), ("omap", .pairs), ("merge", .merge), ("value", .default)]

/-- The kind that the full name of a tag stands for. -/
def ofName (name : String) : Tag :=
  ((named.find? fun t => core ++ t.1 = name).map (·.2)).getD .unknown

def nulls : List String := ["", "~", "null", "Null", "NULL"]

def truths : List String := ["yes", "true", "on"]

def untruths : List String := ["no", "false", "off"]

/-- A word for a truth value, in lower case, with a capital, or in capitals. -/
def bool? (s : String) : Option Bool :=
  let spelled := fun word : String => s = word || s = word.capitalize || s = word.toUpper
  if truths.any spelled then some true
  else if untruths.any spelled then some false
  else none

/-- Digits of a base with underscores among them. -/
def isRun (base : Nat) (s : List Char) : Bool :=
  s.all fun c => c = '_' || (hexDigit? c).any (· < base)

/-- The parts after the first of a number of base 60: one digit, or two up to 59. -/
def isSixtieth : List Char → Bool
  | [c] => c.isDigit
  | [c, d] => '0' ≤ c && c ≤ '5' && d.isDigit
  | _ => false

/-- The look of an integer without its sign: binary, octal, hexadecimal, decimal, or of base 60. -/
def isNatural (s : List Char) : Bool :=
  match s with
  | ['0'] => true
  | '0' :: 'b' :: c :: s => isRun 2 (c :: s)
  | '0' :: 'x' :: c :: s => isRun 16 (c :: s)
  | '0' :: s => isRun 8 s
  | c :: _ =>
    c.isDigit &&
      match Text.split (· = ':') s with
      | first :: parts => isRun 10 first && parts.all isSixtieth
      | [] => false
  | [] => false

def isInteger (s : List Char) : Bool := isNatural (Decimal.takeSign s).2

/-- Nothing, or an exponent with its sign. -/
def isExponent : List Char → Bool
  | [] => true
  | c :: d :: s => (c = 'e' || c = 'E') && (d = '+' || d = '-') && !s.isEmpty && s.all Char.isDigit
  | _ => false

/-- Digits with underscores among them, the first of which is a digit. -/
def isDigits (s : List Char) : Bool := s.head?.any Char.isDigit && isRun 10 s

/-- The look of a number with a point. A sign stands only before a digit. -/
def isPointed (signed : Bool) (s : List Char) : Bool :=
  let (whole, rest) := s.span (· ≠ '.')
  match rest with
  | [] => false
  | _ :: rest =>
    let (places, exponent) := rest.span fun c => c.isDigit || c = '_'
    isExponent exponent && (isDigits whole || (whole.isEmpty && !signed && isDigits places))

/-- The look of a number of base 60 with a point. -/
def isSixtiethFloat (s : List Char) : Bool :=
  let (whole, places) := s.span (· ≠ '.')
  places.head? = some '.' && isRun 10 (places.drop 1) &&
    match Text.split (· = ':') whole with
    | first :: part :: parts => isDigits first && (part :: parts).all isSixtieth
    | _ => false

def isFloat (s : List Char) : Bool :=
  let (_, rest) := Decimal.takeSign s
  let signed := rest.length < s.length
  rest ∈ [".inf".toList, ".Inf".toList, ".INF".toList] ||
    s ∈ [".nan".toList, ".NaN".toList, ".NAN".toList] ||
    isPointed signed rest || isSixtiethFloat rest

/-- What a scalar without a tag is by its look. -/
def ofLine (s : String) : Tag :=
  if (bool? s).isSome then .bool
  else if isFloat s.toList then .float
  else if isInteger s.toList then .int
  else if s = "<<" then .merge
  else if s ∈ nulls then .null
  else if Moment.looksLike s.toList then .time
  else if s = "=" then .default
  else .text

/-- What a scalar without a tag is by its look. A line feed at its end does not count, unless there is
nothing else to it. -/
def ofLook (s : String) : Tag :=
  match s.toList.getLast? with
  | some '\n' => if s = "\n" then .text else ofLine (String.ofList s.toList.dropLast)
  | _ => ofLine s

end Tag

end Conductor.Yaml
