import Conductor.Run.Engine

/-! Work that announces its steps. Just before a step is carried out it is said for which run this is, which
step it is and which context the step is handed. Without the announcements it is the work of the engine. -/

namespace Conductor

/-- What can be seen of a call at work: a question that it asks, or a step that it begins to carry out. -/
inductive Act where
  | call (q : Call)
  | invoke (runId : String) (step : Step) (context : Table Json)

@[reducible] def Act.Answer : Act → Type
  | .call q => q.Answer
  | .invoke _ _ _ => Unit

abbrev Announced (α : Type) := Program Act.Answer α

namespace Announced

variable {α β : Type}

/-- The same work without announcements. -/
def silent : Announced α → Work α
  | .done a => .done a
  | .ask (.call q) next => .ask q fun r => silent (next r)
  | .ask (.invoke _ _ _) next => silent (next ())

/-- Work that carries out no step. -/
def ofWork (p : Work α) : Announced α := p.embed Act.call fun _ r => r

/-- What a step asks of the world. -/
def ofOutside (p : Program Outside.Answer α) : Announced α :=
  p.embed (fun o => .call (.outside o)) fun _ r => r

theorem silent_bind (p : Announced α) (f : α → Announced β) :
    silent (p.bind f) = (silent p).bind fun a => silent (f a) := by
  induction p with
  | done a => rfl
  | ask a next ih =>
    cases a with
    | call q => exact congrArg (Program.ask q) (funext fun r => ih r)
    | invoke runId step context => exact ih ()

theorem silent_map (p : Announced α) (f : α → β) : silent (p.map f) = (silent p).map f :=
  silent_bind p _

theorem silent_ofWork (p : Work α) : silent (ofWork p) = p := by
  induction p with
  | done a => rfl
  | ask q next ih => exact congrArg (Program.ask q) (funext fun r => ih r)

theorem silent_ofOutside (p : Program Outside.Answer α) : silent (ofOutside p) = Work.ofOutside p := by
  induction p with
  | done a => rfl
  | ask o next ih => exact congrArg (Program.ask (.outside o)) (funext fun r => ih r)

end Announced

namespace Engine

open Announced

/-- The steps from `index` on, at most `left` of them, each announced. -/
def announce (e : Engine) (w : Workflow) (runId : String) : Nat → Nat → Table Json → Announced Ending
  | left, index, context =>
    match w.steps[index]? with
    | none => .done (.reached index context none)
    | some step =>
      match left with
      | 0 => .done (.reached index context (some e.guardMessage))
      | left + 1 =>
        .ask (.call (.store (.updateRun runId (.checkpoint index context) runningName))) fun
          | .error f => .done (.reached index context (some (textOr "Execution error" f.message)))
          | .ok false => .ask (.call (.store (.getRun runId))) fun
            | .error f => .done (.reached index context (some (textOr "Execution error" f.message)))
            | .ok none => .done (.reached index context (some (Fault.runNotFound runId).message))
            | .ok (some run) => .done (.overtaken run)
          | .ok true =>
            .ask (.invoke runId step context) fun _ =>
              (ofOutside (e.registry.execute step context)).bind fun r =>
                if r.success then
                  e.announce w runId left (nextIndex (positions w) index r.next)
                    (bindOutput context step.id r.output)
                else .done (.reached index context (some (textOr "Step failed" (r.error.getD ""))))

def runAnnounced (e : Engine) (w : Workflow) (context : Table Json) : Announced (Except Fault Run) :=
  .ask (.call (.store (.createRun w.id context))) fun run =>
    (e.announce w run.id e.maxExecutions.toNat 0 context).bind fun ending => ofWork (conclude run ending)

def withAnnounced {α : Type} (id : String) (f : Workflow → Announced (Except Fault α)) :
    Announced (Except Fault α) :=
  .ask (.call (.store (.getWorkflow id))) fun
    | .error fault => .done (.error fault)
    | .ok none => .done (.error (.workflowNotFound id))
    | .ok (some w) => f w

def executeAnnounced (e : Engine) (id : String) (context : Table Json) :
    Announced (Except Fault Run) :=
  withAnnounced id fun w => e.runAnnounced w context

def triggerAnnounced (e : Engine) (id : String) (context : Table Json) (kind : String)
    (triggeredBy : Option String) : Announced (Except Fault Run) :=
  withAnnounced id fun w =>
    if w.enabled then
      .ask (.call (.store .now)) fun now =>
        e.runAnnounced w (Table.put context triggerKey (triggerNote kind triggeredBy now))
    else .done (.error (.workflowDisabled id))

theorem silent_announce (e : Engine) (w : Workflow) (runId : String) (left index : Nat)
    (context : Table Json) :
    silent (e.announce w runId left index context) = e.drive w runId left index context := by
  -- Both are defined by the same cases; only an answer that a checkpoint was made leads on.
  induction left generalizing index context with
  | zero =>
    unfold announce drive
    cases w.steps[index]? with
    | none => rfl
    | some step => rfl
  | succ left ih =>
    unfold announce drive
    cases w.steps[index]? with
    | none => rfl
    | some step =>
      refine congrArg (Program.ask _) (funext fun r => ?_)
      match r with
      | .error f => rfl
      | .ok false =>
        refine congrArg (Program.ask _) (funext fun r => ?_)
        match r with
        | .error f => rfl
        | .ok none => rfl
        | .ok (some run) => rfl
      | .ok true =>
        change silent ((ofOutside _).bind _) = _
        rw [silent_bind, silent_ofOutside]
        refine congrArg (Program.bind _) (funext fun r => ?_)
        by_cases hr : r.success
        · rw [if_pos hr, if_pos hr]
          exact ih _ _
        · rw [if_neg hr, if_neg hr]
          rfl

theorem silent_runAnnounced (e : Engine) (w : Workflow) (context : Table Json) :
    silent (e.runAnnounced w context) = e.run w context := by
  refine congrArg (Program.ask _) (funext fun run => ?_)
  rw [silent_bind, silent_announce]
  exact congrArg (Program.bind _) (funext fun ending => silent_ofWork _)

theorem silent_withAnnounced {α : Type} (id : String) (f : Workflow → Announced (Except Fault α)) :
    silent (withAnnounced id f) = withWorkflow id fun w => silent (f w) := by
  refine congrArg (Program.ask _) (funext fun r => ?_)
  match r with
  | .error _ | .ok none | .ok (some _) => rfl

end Engine

end Conductor
