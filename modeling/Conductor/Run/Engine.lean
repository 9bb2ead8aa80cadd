import Conductor.Step.Perform
import Conductor.Store.Basic

/-! Carrying out workflows. Before each step the place in the workflow and the context are written down,
provided the run still counts as running; the end of the run is written in the same way. -/

namespace Conductor

structure Engine where
  registry : Registry
  maxExecutions : Int

/-- How the way through the steps ended. -/
inductive Ending where
  /-- The run was no longer running; this is what is stored of it. -/
  | overtaken (run : Run)
  | reached (index : Nat) (context : Table Json) (error : Option String)

namespace Engine

/-- The key for the latest output. -/
def lastOutputKey : String := "_last_output"

/-- The key for what started a run. -/
def triggerKey : String := "_trigger"

def runningName : Option String := some Status.running.name

/-- The position of each id; of a repeated id the last one. -/
def positions (w : Workflow) : Table Nat :=
  Table.ofList ((w.steps.map Step.id).zipIdx)

/-- Where to go after step `index`: to the step that was named, or on to the next one. -/
def nextIndex (positions : Table Nat) (index : Nat) (next : Option String) : Nat :=
  match (given? next).bind (Table.get? positions) with
  | some target => target
  | none => index + 1

/-- The text, or the default in the place of an empty one. -/
def textOr (default text : String) : String := if text = "" then default else text

/-- The context after a successful step. -/
def bindOutput (context : Table Json) (id : String) (output : Json) : Table Json :=
  if output.isNull then context
  else Table.put (Table.put context id output) lastOutputKey output

def guardMessage (e : Engine) : String := s!"Exceeded maximum of {e.maxExecutions} step executions"

/-- The steps from `index` on, at most `left` of them. -/
def drive (e : Engine) (w : Workflow) (runId : String) : Nat → Nat → Table Json → Work Ending
  | left, index, context =>
    match w.steps[index]? with
    | none => .done (.reached index context none)
    | some step =>
      match left with
      | 0 => .done (.reached index context (some e.guardMessage))
      | left + 1 =>
        .ask (.store (.updateRun runId (.checkpoint index context) runningName)) fun
          | .error f => .done (.reached index context (some (textOr "Execution error" f.message)))
          | .ok false => .ask (.store (.getRun runId)) fun
            | .error f => .done (.reached index context (some (textOr "Execution error" f.message)))
            | .ok none => .done (.reached index context (some (Fault.runNotFound runId).message))
            | .ok (some run) => .done (.overtaken run)
          | .ok true =>
            (Work.ofOutside (e.registry.execute step context)).bind fun r =>
              if r.success then
                e.drive w runId left (nextIndex (positions w) index r.next)
                  (bindOutput context step.id r.output)
              else .done (.reached index context (some (textOr "Step failed" (r.error.getD ""))))

/-- Writes the end of a run down, unless it was overtaken, and gives the run as it is stored. -/
def conclude (run : Run) : Ending → Work (Except Fault Run)
  | .overtaken stored => .done (.ok stored)
  | .reached index context error =>
    .ask (.store .now) fun now =>
      let change := Change.final index context error now
      .ask (.store (.updateRun run.id change runningName)) fun
        | .error _ => .done (.ok (run.apply change))
        | .ok _ => .ask (.store (.getRun run.id)) fun
          | .error f => .done (.error f)
          | .ok none => .done (.ok (run.apply change))
          | .ok (some stored) => .done (.ok stored)

/-- Makes a run of a workflow and carries it out. -/
def run (e : Engine) (w : Workflow) (context : Table Json) : Work (Except Fault Run) :=
  .ask (.store (.createRun w.id context)) fun run =>
    (e.drive w run.id e.maxExecutions.toNat 0 context).bind (conclude run)

/-- Goes on with a workflow that is stored. -/
def withWorkflow {α : Type} (id : String) (f : Workflow → Work (Except Fault α)) :
    Work (Except Fault α) :=
  .ask (.store (.getWorkflow id)) fun
    | .error fault => .done (.error fault)
    | .ok none => .done (.error (.workflowNotFound id))
    | .ok (some w) => f w

def execute (e : Engine) (id : String) (context : Table Json) : Work (Except Fault Run) :=
  withWorkflow id fun w => e.run w context

/-- What a triggered run finds under the trigger key. -/
def triggerNote (kind : String) (triggeredBy : Option String) (now : Time) : Json := .obj [
  ("type", .str kind), ("triggered_by", .ofText? triggeredBy), ("triggered_at", .str now.iso)]

/-- Runs a workflow that is enabled, with a note of what started it. -/
def trigger (e : Engine) (id : String) (context : Table Json) (kind : String)
    (triggeredBy : Option String) : Work (Except Fault Run) :=
  withWorkflow id fun w =>
    if w.enabled then
      .ask (.store .now) fun now =>
        e.run w (Table.put context triggerKey (triggerNote kind triggeredBy now))
    else .done (.error (.workflowDisabled id))

end Engine

/-- The stored run. -/
def getRun (id : String) : Work (Except Fault Run) :=
  .ask (.store (.getRun id)) fun
    | .error f => .done (.error f)
    | .ok none => .done (.error (.runNotFound id))
    | .ok (some run) => .done (.ok run)

/-- Marks a running run as cancelled, and tells whether it was running. -/
def cancelRun (id : String) : Work (Except Fault Bool) :=
  (getRun id).bind fun
    | .error f => .done (.error f)
    | .ok _ => .ask (.store .now) fun now =>
      .ask (.store (.updateRun id (.cancel now) Engine.runningName)) .done

def listRuns (workflowId : String) : Work (Except Fault (List Run)) :=
  .ask (.store (.listRuns workflowId)) .done

def runStats (workflowId : String) : Work (Except Fault Stats) :=
  (listRuns workflowId).map fun
    | .error f => .error f
    | .ok runs => Stats.ofRuns runs

end Conductor
