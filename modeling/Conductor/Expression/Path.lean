import Conductor.Fault
import Conductor.Text.Split

/-! Paths into a value: keys of objects and indexes of lists, joined by points. A path that leads
nowhere is told apart from one that leads to null. -/

namespace Conductor.Path

def segments (path : List Char) : List (List Char) := Text.split (· == '.') path

/-- A segment that is the shortest numeral of a number in ASCII. -/
def isIndex (segment : List Char) : Bool :=
  match segment with
  | [] => false
  | c :: rest => segment = ['0'] || (c ≠ '0' && (c :: rest).all Char.isDigit)

/-- The position that a segment names in a list. A numeral that is too long cannot be read. -/
def index? (segment : List Char) : Except Fault (Option Nat) :=
  if !isIndex segment then .ok none
  else if Decimal.maxDigits < segment.length then .error (.longNumeral segment.length)
  else .ok (some (Decimal.takeDigits 0 0 segment).1)

/-- The value one segment below another. -/
def child? (v : Json) (segment : List Char) : Except Fault (Option Json) :=
  match v with
  | .obj fields => .ok (Table.get? fields (String.ofList segment))
  | .arr items => (index? segment).map fun i => i.bind (items[·]?)
  | _ => .ok none

def walk? : Json → List (List Char) → Except Fault (Option Json)
  | v, [] => .ok (some v)
  | v, segment :: rest =>
    match child? v segment with
    | .error f => .error f
    | .ok none => .ok none
    | .ok (some v) => walk? v rest

/-- The value at a path, if the path leads anywhere. -/
def resolve? (data : Json) (path : List Char) : Except Fault (Option Json) :=
  walk? data (segments path)

/-- The value at a path, null if there is none. -/
def lookup (data : Json) (path : List Char) : Except Fault Json :=
  (resolve? data path).map (·.getD .null)

end Conductor.Path
