import Conductor.Text.Split

/-! Texts in which bytes are written as a percent sign and two digits. -/

namespace Conductor.Text

/-- The value of a digit of base 16. -/
def sixteenth? (c : Char) : Option Nat :=
  if c.isDigit then some (c.toNat - 48)
  else if 'a' ≤ c ∧ c ≤ 'f' then some (c.toNat - 87)
  else if 'A' ≤ c ∧ c ≤ 'F' then some (c.toNat - 55)
  else none

/-- The bytes of a text, with those that are written as numbers. -/
def unescapedBytes : List Char → List UInt8
  | '%' :: a :: b :: s =>
    match sixteenth? a, sixteenth? b with
    | some x, some y => UInt8.ofNat (16 * x + y) :: unescapedBytes s
    | _, _ => 37 :: unescapedBytes (a :: b :: s)
  | c :: s => String.utf8EncodeChar c ++ unescapedBytes s
  | [] => []

/-- What is still to come of a character: how many bytes, the least and the greatest value of the next
one, and what the bytes before it make. -/
structure Pending where
  count : Nat
  least : Nat
  greatest : Nat
  value : Nat

/-- What a byte beyond ASCII starts; no character starts with any other byte. -/
def Pending.ofByte? (b : Nat) : Option Pending :=
  if 0xc2 ≤ b ∧ b ≤ 0xdf then some ⟨1, 0x80, 0xbf, b % 32⟩
  else if 0xe0 ≤ b ∧ b ≤ 0xef then
    some ⟨2, if b = 0xe0 then 0xa0 else 0x80, if b = 0xed then 0x9f else 0xbf, b % 16⟩
  else if 0xf0 ≤ b ∧ b ≤ 0xf4 then
    some ⟨3, if b = 0xf0 then 0x90 else 0x80, if b = 0xf4 then 0x8f else 0xbf, b % 8⟩
  else none

/-- The mark that stands for bytes that spell nothing. -/
def unknownMark : Char := '\ufffd'

/-- The character that a byte is, and what it starts. -/
def startByte (b : Nat) : List Char × Option Pending :=
  if b < 128 then ([Char.ofNat b], none)
  else match Pending.ofByte? b with
    | some p => ([], some p)
    | none => ([unknownMark], none)

/-- The text that bytes spell. A character that breaks off is one mark. -/
def ofBytesFrom : Option Pending → List Nat → List Char
  | none, [] => []
  | some _, [] => [unknownMark]
  | none, b :: s => let (cs, p) := startByte b; cs ++ ofBytesFrom p s
  | some p, b :: s =>
    if p.least ≤ b ∧ b ≤ p.greatest then
      let value := 64 * p.value + b % 64
      if p.count = 1 then Char.ofNat value :: ofBytesFrom none s
      else ofBytesFrom (some ⟨p.count - 1, 0x80, 0xbf, value⟩) s
    else let (cs, p) := startByte b; unknownMark :: cs ++ ofBytesFrom p s

def ofBytes (bytes : List UInt8) : List Char := ofBytesFrom none (bytes.map (·.toNat))

/-- A text with its escaped bytes put in. -/
def unescape (s : List Char) : List Char := if s.contains '%' then ofBytes (unescapedBytes s) else s

/-- Characters that are never escaped. -/
def isUnreserved (c : Char) : Bool := c.isAlphanum || ['_', '.', '-', '~'].contains c

def sixteenths (b : UInt8) : List Char :=
  let digit (n : Nat) := (Nat.digitChar n).toUpper
  ['%', digit (b.toNat / 16), digit (b.toNat % 16)]

/-- A text with the bytes of all characters escaped but the unreserved ones and some more. -/
def escape (safe : List Char) (s : List Char) : List Char :=
  s.flatMap fun c =>
    if isUnreserved c || safe.contains c then [c] else (String.utf8EncodeChar c).flatMap sixteenths

/-- An escaped text in which plus signs stand for spaces. -/
def escapePlus (s : List Char) : List Char :=
  (escape [' '] s).map fun c => if c = ' ' then '+' else c

def unescapePlus (s : List Char) : List Char :=
  unescape (s.map fun c => if c = '+' then ' ' else c)

end Conductor.Text
