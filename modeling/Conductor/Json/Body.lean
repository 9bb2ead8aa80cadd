import Conductor.Json.Parser

/-! The JSON values of message bodies. A body is bytes; the zeros among its first bytes tell how many
bytes make a unit of its text, and in which order. -/

namespace Conductor.Json

/-- How bytes spell a text. -/
inductive Encoding where
  /-- One to four bytes for a character. -/
  | bytes
  /-- Two bytes for a unit. -/
  | pairs (littleEnd : Bool)
  /-- Four bytes for a character. -/
  | quads (littleEnd : Bool)
deriving Repr, DecidableEq

namespace Encoding

/-- The first character of a JSON text is an ASCII one, which has a single byte other than zero. -/
def detect : List Nat → Encoding
  | 0 :: 0 :: _ :: _ :: _ => .quads false
  | 0 :: _ :: _ :: _ :: _ => .pairs false
  | _ :: 0 :: 0 :: 0 :: _ => .quads true
  | _ :: 0 :: _ :: _ :: _ => .pairs true
  | [0, _] => .pairs false
  | [_, 0] => .pairs true
  | _ => .bytes

/-- The numbers that bytes make in twos. -/
def twos? (littleEnd : Bool) : List Nat → Option (List Nat)
  | [] => some []
  | [_] => none
  | a :: b :: s => (twos? littleEnd s).map ((if littleEnd then a + 256 * b else 256 * a + b) :: ·)

/-- Characters from units; two halves of a pair make one, and half of a pair stands for none. -/
def ofUnits : List Nat → List Char
  | [] => []
  | [u] => [charOfUnit u]
  | u :: v :: s =>
    if isHighUnit u && isLowUnit v then charOfPair u v :: ofUnits s
    else charOfUnit u :: ofUnits (v :: s)

/-- The number of a character must be below U+110000. -/
def ofQuads (littleEnd : Bool) : List Nat → Option (List Char)
  | [] => some []
  | a :: b :: s =>
    let (high, low) := if littleEnd then (b, a) else (a, b)
    let n := 65536 * high + low
    if n < 0x110000 then (ofQuads littleEnd s).map (charOfUnit n :: ·) else none
  | [_] => none

/-- The text that bytes spell. -/
def decode? (e : Encoding) (text : List Char) (bytes : List Nat) : Option (List Char) :=
  match e with
  | .bytes => some (if text.head? = some '\ufeff' then text.tail else text)
  | .pairs littleEnd => (twos? littleEnd bytes).map ofUnits
  | .quads littleEnd => (twos? littleEnd bytes).bind (ofQuads littleEnd)

end Encoding

/-- The bytes of a text. -/
def bytesOf (s : List Char) : List Nat := s.flatMap fun c => (String.utf8EncodeChar c).map (·.toNat)

/-- The text of a body that is given as if each character had one to four bytes. -/
def bodyText? (s : List Char) : Option (List Char) :=
  let bytes := bytesOf s
  (Encoding.detect bytes).decode? s bytes

/-- What a body holds: a value, or none if it is no JSON. Only nesting that is too deep is a failure. -/
def parseBody? (s : List Char) : Except Failure (Option Json) :=
  match bodyText? s with
  | none => .ok none
  | some text =>
    match parse text with
    | .ok v => .ok (some v)
    | .error f => if f.reason.isDepth then .error f else .ok none

end Conductor.Json
