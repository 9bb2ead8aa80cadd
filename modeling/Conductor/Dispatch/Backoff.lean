import Conductor.Setting

/-! How long to wait before a request is made again. -/

namespace Conductor

/-- A power of a double; no power is too large but as an error, and only a whole power of a negative
double is a double. -/
def floatPower (base exponent : Float) : Except Fault Float :=
  if exponent == 0.0 then .ok 1.0
  else if !Decimal.isFinite exponent then .ok (Float.pow base exponent)
  else if base == 0.0 && exponent < 0.0 then .error .powerOfZero
  else if base < 0.0 && Decimal.isFinite base && exponent.floor != exponent then .error .wrongKind
  else
    let r := Float.pow base exponent
    if Decimal.isFinite base && r.isInf then .error .powerTooLarge else .ok r

/-- A power of an integer is exact before it becomes a double. Beyond the guard it is no double. -/
def intPower (base : Int) (exponent : Nat) : Except Fault Float :=
  if base.natAbs ≥ 2 ∧ exponent > 1100 then .error .integerTooLarge
  else
    let least := if base.natAbs ≤ 1 ∧ exponent > 2 then 2 + exponent % 2 else exponent
    match Decimal.ofInt? (base.pow least) with
    | some x => .ok x
    | none => .error .integerTooLarge

/-- A power of numbers, as a double. -/
def power (base exponent : Number) : Except Fault Float :=
  match base, exponent with
  | .int n, .int (.ofNat k) => intPower n k
  | base, exponent =>
    match base.toFloat?, exponent.toFloat? with
    | some x, some y => (floatPower x y).map (· + 0.0)
    | _, _ => .error .integerTooLarge

/-- The seconds to wait before attempt number `attempt`: a power of the base. -/
def backoff (base attempt : Json) : Except Fault Float := do
  power (← Setting.number base) (← Setting.number attempt)

end Conductor
