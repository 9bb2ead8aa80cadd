import Conductor.Decimal.Style
import Conductor.Json.Basic

/-! Numbers that remember whether they were written as an integer. -/

namespace Conductor

inductive Number where
  | int (n : Int)
  | double (x : Float)

namespace Number

def toJson : Number → Json
  | .int n => .int n
  | .double x => .float x

/-- A thousandth part, as a double. Only an integer beyond the doubles has none. -/
def thousandth? : Number → Option Float
  | .int n => Decimal.quotient? n 1000
  | .double x => some (x / 1000.0)

/-- The nearest double. Only an integer beyond the doubles has none. -/
def toFloat? : Number → Option Float
  | .int n => Decimal.ofInt? n
  | .double x => some x

/-- Tells whether a double is less than a number; an integer is compared as it is. -/
def exceeds (x : Float) : Number → Bool
  | .double y => x < y
  | .int n =>
    if x.isNaN then false
    else if !Decimal.isFinite x then Decimal.isNegative x
    else
      let p := Decimal.Parts.ofFloat x
      (if p.negative then -(p.num : Int) else p.num) < n * p.den

/-- More than every finite double. -/
def beyondDoubles : Nat := Decimal.twoTo 1024

/-- How many of the numbers 0, 1, 2, … are below a number. Where all are, so that there is no such
count, it is one beyond every double; nothing is below what is no number, but neither is it reached. -/
def countBelow : Number → Nat
  | .int n => n.toNat
  | .double x =>
    if x ≤ 0.0 then 0
    else if !Decimal.isFinite x then beyondDoubles
    else
      let p := Decimal.Parts.ofFloat x
      (p.num + p.den - 1) / p.den

end Number

end Conductor
