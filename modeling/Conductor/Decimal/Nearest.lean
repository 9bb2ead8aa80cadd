/-! The double nearest to a quotient of natural numbers, and the exact value of a double. -/

namespace Conductor.Decimal

/-- The powers of two. -/
def twoTo (n : Nat) : Nat := Nat.pow 2 n

/-- The powers of ten. -/
def tenTo (n : Nat) : Nat := Nat.pow 10 n

/-- The nearest natural number to `num / den`; a half goes to the even neighbour. -/
def roundDiv (num den : Nat) : Nat :=
  let q := num / den
  let twice := 2 * (num % den)
  if twice < den ∨ (twice = den ∧ q % 2 = 0) then q else q + 1

/-- The bits of positive infinity, also the first bits that no finite magnitude has. -/
def infinityBits : Nat := 2047 * twoTo 52

/-- The bits of the nearest double to `num / den`, or some number from `infinityBits` on when the
quotient is too large. With `e` the exponent of the last place, the significand has 53 binary
digits unless `e` is as small as it gets. -/
def nearestBits (num den : Nat) : Nat :=
  if num = 0 then 0
  else
    let guess : Int := num.log2 - den.log2 - 53
    let e : Int := if num * twoTo (-guess).toNat < twoTo 53 * (den * twoTo guess.toNat) then guess
      else guess + 1
    let e := max e (-1074)
    (e + 1074).toNat * twoTo 52 + roundDiv (num * twoTo (-e).toNat) (den * twoTo e.toNat)

/-- The nearest double to `num / den`; infinity when that is too large. -/
def nearest (num den : Nat) : Float :=
  Float.ofBits (UInt64.ofNat (min (nearestBits num den) infinityBits))

def signed (negative : Bool) (x : Float) : Float := if negative then -x else x

/-- The nearest double to an integer over a natural number, if there is one within the range. -/
def quotient? (n : Int) (den : Nat) : Option Float :=
  if nearestBits n.natAbs den < infinityBits then
    some (signed (n < 0) (nearest n.natAbs den))
  else none

/-- The nearest double to an integer, if there is one within the range. -/
def ofInt? (n : Int) : Option Float := quotient? n 1

/-- The nearest double to `digits * 10 ^ exponent`. The two guards only keep the powers small: the
quotient is then beyond the range, or less than half the least double. -/
def nearestDecimal (digits : Nat) (exponent : Int) : Float :=
  if digits = 0 then 0.0
  else
    let magnitude := (Nat.toDigits 10 digits).length + exponent
    if magnitude > 310 then Float.ofBits (UInt64.ofNat infinityBits)
    else if magnitude < -330 then 0.0
    else nearest (digits * tenTo exponent.toNat) (tenTo (-exponent).toNat)

/-- A finite double is `significand * 2 ^ exponent`, with its sign. -/
structure Parts where
  negative : Bool
  significand : Nat
  exponent : Int
deriving Repr, DecidableEq

def isNegative (x : Float) : Bool := x.toBits.toNat / twoTo 63 == 1

def Parts.ofFloat (x : Float) : Parts :=
  let fraction := x.toBits.toNat % twoTo 52
  match x.toBits.toNat / twoTo 52 % 2048 with
  | 0 => ⟨isNegative x, fraction, -1074⟩
  | e => ⟨isNegative x, twoTo 52 + fraction, (e : Int) - 1075⟩

namespace Parts

/-- The magnitude as a fraction. -/
def num (p : Parts) : Nat := p.significand * twoTo p.exponent.toNat
def den (p : Parts) : Nat := twoTo (-p.exponent).toNat

/-- The value, if it is whole. -/
def toInt? (p : Parts) : Option Int :=
  if p.num % p.den = 0 then
    some (if p.negative then -((p.num / p.den : Nat) : Int) else ((p.num / p.den : Nat) : Int))
  else none

end Parts

def isFinite (x : Float) : Bool := x.toBits.toNat / twoTo 52 % 2048 != 2047

/-- The integer that a double is, if it is one. -/
def toInt? (x : Float) : Option Int :=
  if isFinite x then (Parts.ofFloat x).toInt? else none

end Conductor.Decimal
