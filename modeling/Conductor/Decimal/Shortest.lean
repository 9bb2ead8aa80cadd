import Conductor.Decimal.Nearest

/-! The fewest decimal digits that read back as a double. -/

namespace Conductor.Decimal

/-- The decimal `digits * 10 ^ exponent`. -/
structure Digits where
  digits : Nat
  exponent : Int
deriving Repr, DecidableEq

namespace Digits

/-- Takes zeros off the end, at most `fuel` of them. -/
def trimZeros : Nat → Digits → Digits
  | 0, d => d
  | fuel + 1, d =>
    if d.digits ≠ 0 ∧ d.digits % 10 = 0 then trimZeros fuel ⟨d.digits / 10, d.exponent + 1⟩ else d

end Digits

/-- The reals that round to a positive double, in quarters of its last place. -/
structure Interval where
  low : Nat
  mid : Nat
  high : Nat
  /-- The ends round to the double too. -/
  closed : Bool

/-- Below a power of two the doubles are twice as dense, so the interval is shorter there. -/
def Interval.ofParts (p : Parts) : Interval :=
  let m := p.significand
  ⟨if m = twoTo 52 ∧ p.exponent > -1074 then 4 * m - 1 else 4 * m - 2, 4 * m, 4 * m + 2, m % 2 = 0⟩

/-- Point `c` of a grid with step `step` lies in the interval, of which a quarter place is `unit`. -/
def Interval.contains (i : Interval) (unit step c : Nat) : Bool :=
  if i.closed then i.low * unit ≤ c * step && c * step ≤ i.high * unit
  else i.low * unit < c * step && c * step < i.high * unit

/-- The nearer of the value's two neighbours on the decimal grid `10 ^ grid`, of those that lie in
the interval; on a tie the even one. -/
def onGrid? (p : Parts) (grid : Int) : Option Digits :=
  let i := Interval.ofParts p
  let unit := twoTo (p.exponent - 2).toNat * tenTo (-grid).toNat
  let step := twoTo (2 - p.exponent).toNat * tenTo grid.toNat
  let below := i.mid * unit / step
  let rest := 2 * (i.mid * unit % step)
  match i.contains unit step below, i.contains unit step (below + 1) with
  | true, true =>
    some ⟨if rest < step ∨ (rest = step ∧ below % 2 = 0) then below else below + 1, grid⟩
  | true, false => some ⟨below, grid⟩
  | false, true => some ⟨below + 1, grid⟩
  | false, false => none

/-- The number of decimal places before the point: `10 ^ (k - 1) ≤ value < 10 ^ k`. -/
def decimalPlaces (p : Parts) : Int :=
  let guess := (p.significand.log2 + p.exponent) * 30103 / 100000
  let reaches (k : Int) : Bool :=
    p.num * tenTo (-k).toNat ≥ p.den * tenTo k.toNat
  if reaches (guess + 1) then guess + 2 else if reaches guess then guess + 1 else guess

/-- The first hit on the grids for `n`, `n + 1`, … digits, `fuel` of them. -/
def firstGrid (p : Parts) (k : Int) : Nat → Nat → Digits
  | 0, _ => ⟨p.num / p.den, 0⟩
  | fuel + 1, n =>
    match onGrid? p (k - n) with
    | some d => d
    | none => firstGrid p k fuel (n + 1)

/-- The shortest digits of a finite double that is not zero; seventeen are always enough. -/
def shortest (p : Parts) : Digits :=
  (firstGrid p (decimalPlaces p) 17 1).trimZeros 17

end Conductor.Decimal
