import Conductor.Decimal.Style
import Conductor.Json.Basic

/-! The JSON text of a value: ASCII only, with a blank after each comma and colon. Texts have limits where
they are read. Writing has none here: each value has a text, however deep it is nested and however many digits
its integers have, so that no failure of writing such a value is accounted for. -/

namespace Conductor.Json

def hexDigit (n : Nat) : Char := Nat.digitChar (n % 16)

/-- A UTF-16 unit as an escape. -/
def escapeUnit (u : Nat) : List Char :=
  ['\\', 'u', hexDigit (u / 4096), hexDigit (u / 256), hexDigit (u / 16), hexDigit u]

/-- How a character stands inside quotes. Beyond U+FFFF it takes two units. -/
def escapeChar (c : Char) : List Char :=
  if c = '"' then ['\\', '"']
  else if c = '\\' then ['\\', '\\']
  else if c = '\n' then ['\\', 'n']
  else if c = '\r' then ['\\', 'r']
  else if c = '\t' then ['\\', 't']
  else if c.toNat = 8 then ['\\', 'b']
  else if c.toNat = 12 then ['\\', 'f']
  else if 32 ≤ c.toNat ∧ c.toNat < 127 then [c]
  else if c.toNat < 65536 then escapeUnit c.toNat
  else
    escapeUnit (0xD800 + (c.toNat - 65536) / 1024) ++ escapeUnit (0xDC00 + (c.toNat - 65536) % 1024)

def escape (s : List Char) : List Char := s.flatMap escapeChar

def quote (s : List Char) : List Char := '"' :: escape s ++ ['"']

mutual

/-- The text of a value. Integers of more than 4300 digits and values of any depth have one as well. -/
def render : Json → List Char
  | .null => "null".toList
  | .bool true => "true".toList
  | .bool false => "false".toList
  | .int n => Decimal.intDigits n
  | .float x => Decimal.render Decimal.Style.json x
  | .str s => quote s.toList
  | .arr [] => ['[', ']']
  | .arr (item :: items) => '[' :: render item ++ renderItems items
  | .obj [] => ['\x7b', '\x7d']
  | .obj ((key, value) :: fields) =>
    '\x7b' :: quote key.toList ++ [':', ' '] ++ render value ++ renderFields fields

/-- The items after the first one, and the closing bracket. -/
def renderItems : List Json → List Char
  | [] => [']']
  | item :: items => ',' :: ' ' :: render item ++ renderItems items

/-- The fields after the first one, and the closing brace. -/
def renderFields : List (String × Json) → List Char
  | [] => ['\x7d']
  | (key, value) :: fields =>
    ',' :: ' ' :: quote key.toList ++ [':', ' '] ++ render value ++ renderFields fields

end

def toText (v : Json) : String := String.ofList v.render

end Conductor.Json
