import Conductor.Decimal.Nearest
import Conductor.Yaml.Moment

/-! The values that are not made of other values. -/

namespace Conductor.Yaml

inductive Atom where
  | null
  | bool (b : Bool)
  | int (n : Int)
  | float (x : Float)
  | text (s : String)
  | bytes (b : List UInt8)
  | time (m : Moment)
deriving Inhabited

namespace Atom

/-- What counts as true: everything but null, false, zero and what is empty. -/
def truthy : Atom → Bool
  | .null => false
  | .bool b => b
  | .int n => n != 0
  | .float x => x != 0.0
  | .text s => s != ""
  | .bytes b => !b.isEmpty
  | .time _ => true

/-- The text that bytes spell. -/
def textOf? (b : List UInt8) : Option String := String.fromUTF8? ⟨b.toArray⟩

/-- The number that an atom counts as in a key. -/
def number? : Atom → Option (Int ⊕ Float)
  | .bool b => some (.inl (if b then 1 else 0))
  | .int n => some (.inl n)
  | .float x => some (match Decimal.toInt? x with
    | some n => .inl n
    | none => .inr x)
  | _ => none

/-- Two keys are the same if they are the same text, the same bytes, the same time or the same number.
As a key, what is no number is the same as itself. -/
def sameKey (a b : Atom) : Bool :=
  match a, b with
  | .null, .null => true
  | .text s, .text t => s = t
  | .bytes s, .bytes t => s = t
  | .time m, .time n => m.same n
  | a, b =>
    match a.number?, b.number? with
    | some (.inl m), some (.inl n) => m = n
    | some (.inr x), some (.inr y) => x == y || (x.isNaN && y.isNaN)
    | _, _ => false

/-- The JSON form. Bytes and times become texts. -/
def toJson : Atom → Json
  | .null => .null
  | .bool b => .bool b
  | .int n => .int n
  | .float x => .float x
  | .text s => .str s
  | .bytes b => .str ((textOf? b).getD "")
  | .time m => .str m.render

/-- The text of an atom as a key of a JSON object. -/
def keyText : Atom → String
  | .bool b => if b then "true" else "false"
  | a => a.toJson.plain

/-- A byte between single quotes. -/
def byteText (mark : Char) (b : UInt8) : List Char :=
  let c := Char.ofNat b.toNat
  if b.toNat < 128 then Json.plainChar mark c else '\\' :: 'x' :: Json.plainHex 2 b.toNat

def bytesText (b : List UInt8) : String :=
  let mark := if b.contains 39 && !b.contains 34 then '"' else '\''
  String.ofList ('b' :: mark :: b.flatMap (byteText mark) ++ [mark])

/-- The text that stands for an atom in reports, if it is no text itself. -/
def shown : Atom → String
  | .bytes b => bytesText b
  | .time m => m.parts
  | a => a.toJson.plain

end Atom

end Conductor.Yaml
