import Conductor.Fault
import Conductor.Number

/-! Settings that a caller gives as any value. One that is no number is noticed where a number is
needed. -/

namespace Conductor.Setting

/-- The number that a setting is; a truth value counts as one or zero. -/
def number : Json → Except Fault Number
  | .int n => .ok (.int n)
  | .float x => .ok (.double x)
  | .bool b => .ok (.int (if b then 1 else 0))
  | _ => .error .wrongKind

/-- The double that a setting is. -/
def double (v : Json) : Except Fault Float := do
  match (← number v).toFloat? with
  | some x => return x
  | none => .error .integerTooLarge

/-- A thousandth part of what a setting is. -/
def thousandth (v : Json) : Except Fault Float := do
  match (← number v).thousandth? with
  | some x => return x
  | none => .error .quotientTooLarge

/-- How many counts from zero on are below what a setting is. -/
def countBelow (v : Json) : Except Fault Nat := (number v).map Number.countBelow

end Conductor.Setting
