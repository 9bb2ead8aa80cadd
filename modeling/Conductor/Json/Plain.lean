import Conductor.Decimal.Style
import Conductor.Json.Basic
import Conductor.Text.Printable

/-! The plain text in which a reply that is no text is handed on: `None`, `True`, `[1, 'a']`. As with JSON
texts, no failure of writing a value that is nested too deep, or an integer with too many digits, is accounted
for. -/

namespace Conductor.Json

def plainHex (width n : Nat) : List Char :=
  let ds := Nat.toDigits 16 n
  List.replicate (width - ds.length) '0' ++ ds

/-- How a character stands between `mark`s. -/
def plainChar (mark c : Char) : List Char :=
  if c = mark ∨ c = '\\' then ['\\', c]
  else if c = '\n' then ['\\', 'n']
  else if c = '\r' then ['\\', 'r']
  else if c = '\t' then ['\\', 't']
  else if Text.isPrintable c then [c]
  else if c.toNat < 256 then '\\' :: 'x' :: plainHex 2 c.toNat
  else if c.toNat < 65536 then '\\' :: 'u' :: plainHex 4 c.toNat
  else '\\' :: 'U' :: plainHex 8 c.toNat

/-- Single quotes, or double ones around a text that holds single quotes only. -/
def plainQuote (s : List Char) : List Char :=
  let mark := if s.contains '\'' && !s.contains '"' then '"' else '\''
  mark :: s.flatMap (plainChar mark) ++ [mark]

mutual

/-- A value inside a list or an object. -/
def plainInner : Json → List Char
  | .null => "None".toList
  | .bool true => "True".toList
  | .bool false => "False".toList
  | .int n => Decimal.intDigits n
  | .float x => Decimal.render Decimal.Style.text x
  | .str s => plainQuote s.toList
  | .arr [] => ['[', ']']
  | .arr (item :: items) => '[' :: plainInner item ++ plainItems items
  | .obj [] => ['\x7b', '\x7d']
  | .obj ((key, value) :: fields) =>
    '\x7b' :: plainQuote key.toList ++ [':', ' '] ++ plainInner value ++ plainFields fields

def plainItems : List Json → List Char
  | [] => [']']
  | item :: items => ',' :: ' ' :: plainInner item ++ plainItems items

def plainFields : List (String × Json) → List Char
  | [] => ['\x7d']
  | (key, value) :: fields =>
    ',' :: ' ' :: plainQuote key.toList ++ [':', ' '] ++ plainInner value ++ plainFields fields

end

/-- A text stands for itself. Integers of more than 4300 digits and values of any depth have one as well. -/
def plain : Json → String
  | .str s => s
  | v => String.ofList (plainInner v)

end Conductor.Json
