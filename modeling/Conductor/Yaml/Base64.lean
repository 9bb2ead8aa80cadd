/-! Bytes written in 64 characters, each of which stands for six bits. -/

namespace Conductor.Yaml.Base64

/-- The six bits of a character. -/
def bits? (c : Char) : Option Nat :=
  if 'A' ≤ c && c ≤ 'Z' then some (c.toNat - 65)
  else if 'a' ≤ c && c ≤ 'z' then some (c.toNat - 71)
  else if c.isDigit then some (c.toNat + 4)
  else if c = '+' then some 62
  else if c = '/' then some 63
  else none

/-- Reads characters in fours: `place` of them are read, which left `bits` over, and `pads` padding
characters followed. What is neither padding nor one of the 64 is passed over. Padding that fills a
four ends the text; a text must not end within a four. -/
def decodeFrom (place bits pads : Nat) : List Char → Option (List UInt8)
  | [] => if place = 0 then some [] else none
  | c :: s =>
    if c = '=' then
      if place < 2 then decodeFrom place bits pads s
      else if 4 ≤ place + pads + 1 then some []
      else decodeFrom place bits (pads + 1) s
    else
      match bits? c with
      | none => decodeFrom place bits pads s
      | some b =>
        match place with
        | 0 => decodeFrom 1 b 0 s
        | 1 => (decodeFrom 2 (b % 16) 0 s).map (UInt8.ofNat (bits * 4 + b / 16) :: ·)
        | 2 => (decodeFrom 3 (b % 4) 0 s).map (UInt8.ofNat (bits * 16 + b / 4) :: ·)
        | _ => (decodeFrom 0 0 0 s).map (UInt8.ofNat (bits * 64 + b) :: ·)

/-- The bytes that a text of ASCII characters spells. -/
def decode? (s : List Char) : Option (List UInt8) :=
  if s.all (·.toNat < 128) then decodeFrom 0 0 0 s else none

end Conductor.Yaml.Base64
