import Conductor.Proofs.Engine.Position
import Conductor.Proofs.Rule

/-! A workflow carried out without a store: only the place in the workflow, the context and the number of
executions are kept. -/

namespace Conductor

/-- Why the way through a workflow stops. -/
inductive Halt where
  | completed
  /-- The guard against too many executions fired. -/
  | exhausted
  | failed (error : String)

structure Verdict where
  halt : Halt
  index : Nat
  context : Table Json

namespace Verdict

def status (v : Verdict) : Status :=
  match v.halt with
  | .completed => .completed
  | .exhausted => .failed
  | .failed _ => .failed

def error (e : Engine) (v : Verdict) : Option String :=
  match v.halt with
  | .completed => none
  | .exhausted => some s!"Exceeded maximum of {e.maxExecutions} step executions"
  | .failed error => some error

end Verdict

namespace Workflow

/-- Where to go from a step: to the step that is named by its id, and else to the next one. -/
def place (w : Workflow) (index : Nat) (next : Option String) : Nat :=
  match given? next with
  | none => index + 1
  | some id => (w.indexOf? id).getD (index + 1)

/-- The context with an output that is not null. -/
def bound (context : Table Json) (step : Step) (output : Json) : Table Json :=
  if output.isNull then context
  else Table.put (Table.put context step.id output) "_last_output" output

/-- The error of a step that failed. -/
def failure (r : Outcome) : String := (given? r.error).getD "Step failed"

/-- The interpreter, which has executed `executions` steps and has come to `index`. -/
def interpret (e : Engine) (w : Workflow) (executions index : Nat) (context : Table Json) :
    Program Outside.Answer Verdict :=
  match w.steps[index]? with
  | none => .done ⟨.completed, index, context⟩
  | some step =>
    if h : e.maxExecutions ≤ executions then .done ⟨.exhausted, index, context⟩
    else (e.registry.execute step context).bind fun r =>
      if r.success then
        interpret e w (executions + 1) (w.place index r.next) (bound context step r.output)
      else .done ⟨.failed (failure r), index, context⟩
termination_by (e.maxExecutions - executions).toNat
decreasing_by omega

/-- Whether there is still a step to execute after `count` executions, which no guard stops. -/
def goesOn (registry : Registry) (w : Workflow) (count index : Nat) (context : Table Json) :
    Program Outside.Answer Bool :=
  match w.steps[index]?, count with
  | none, _ => .done false
  | some _, 0 => .done true
  | some step, count + 1 =>
    (registry.execute step context).bind fun r =>
      if r.success then
        goesOn registry w count (w.place index r.next) (bound context step r.output)
      else .done false

variable {w : Workflow} {e : Engine}

theorem nextIndex_positions (index : Nat) (next : Option String) :
    Engine.nextIndex (Engine.positions w) index next = w.place index next := by
  rw [Engine.nextIndex_eq, place]
  cases given? next <;> rfl

theorem textOr_getD_error (r : Outcome) :
    Engine.textOr "Step failed" (r.error.getD "") = failure r := by
  unfold Engine.textOr failure
  cases r.error with
  | none => rfl
  | some error =>
    by_cases he : error = ""
    · subst he
      rfl
    · rw [given?_of_ne_empty he, Option.getD_some, if_neg he, Option.getD_some]

/-- The guard fires exactly if the workflow goes on after as many executions as are allowed. -/
theorem interpret_agrees_goesOn {executions count : Nat}
    (hc : count = (e.maxExecutions - executions).toNat) (index : Nat) (context : Table Json) :
    (interpret e w executions index context).Agrees
      (fun v still => v.halt = .exhausted ↔ still = true) (goesOn e.registry w count index context) := by
  -- The count is what the guard leaves, so that both run out at the same place.
  induction count generalizing executions index context with
  | zero =>
    unfold interpret goesOn
    cases w.steps[index]? with
    | none => exact .done (by simp)
    | some step =>
      have hle : e.maxExecutions ≤ executions := by omega
      simp only [hle, dite_true]
      exact .done (by simp)
  | succ count ih =>
    unfold interpret goesOn
    cases w.steps[index]? with
    | none => exact .done (by simp)
    | some step =>
      have hlt : ¬ e.maxExecutions ≤ executions := by omega
      simp only [hlt, dite_false]
      refine (Program.agrees_refl _).bind fun r _ hr => ?_
      subst hr
      by_cases hs : r.success
      · rw [if_pos hs, if_pos hs]
        exact ih (by omega) _ _
      · rw [if_neg hs, if_neg hs]
        exact .done (by simp)

end Workflow

end Conductor
