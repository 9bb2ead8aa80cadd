import Conductor.Dispatch.Outside
import Conductor.Expression.Condition
import Conductor.Step.Outcome
import Conductor.Workflow.Basic

/-! How each kind of step is carried out. A step sees the context and may ask the world; it neither
reads nor writes what is stored. -/

namespace Conductor

namespace AgentCall

def perform (dispatch : Dispatcher) (c : AgentCall) (context : Table Json) : Errand Outcome :=
  match given? c.message with
  | none => .done (.ok (.fail "agent_call requires a message"))
  | some template =>
    match Template.fillText (.obj context) template with
    | .error f => .done (.error f)
    | .ok text =>
      (dispatch ⟨c.agentId, c.sessionKey, text, .int c.timeoutMs⟩).map fun
        | .ok reply =>
          .ok (.ok (.obj [("response", .str reply), ("agent_id", .ofText? c.agentId),
            ("session_key", .ofText? c.sessionKey)]) none)
        | .error (.dispatch message _) => .ok (.fail message)
        | .error f => .error f

end AgentCall

namespace Branch

def perform (c : Branch) (context : Table Json) : Errand Outcome :=
  match given? c.expression with
  | none => .done (.ok (.fail "condition requires an expression"))
  | some expression =>
    .done ((evaluate (.obj context) expression).map fun holds =>
      .ok (.obj [("condition_result", .bool holds)]) (if holds then c.onTrue else c.onFalse))

end Branch

namespace Transform

def perform (c : Transform) (context : Table Json) : Errand Outcome :=
  let output := (c.mappings.getD []).mapM fun e =>
    (Path.lookup (.obj context) e.2.toList).map fun v => (e.1, v)
  .done (output.map fun fields => .ok (.obj fields) none)

end Transform

namespace Delay

def perform (c : Delay) : Errand Outcome :=
  match c.durationMs.thousandth? with
  | none => .done (.error .quotientTooLarge)
  | some seconds =>
    .ask (.sleep seconds) fun
      | .ok () => .done (.ok (.ok (.obj [("delayed_ms", c.durationMs.toJson)]) none))
      | .error f => .done (.error f)

end Delay

namespace Webhook

/-- The headers sent: a content type, which a configured header of the same name replaces. -/
def sentHeaders (c : Webhook) : Table String :=
  Table.putAll [("Content-Type", "application/json")] c.headers

/-- The body filled in from the context, as JSON text. -/
def content (c : Webhook) (context : Table Json) : Except Fault (Option String) :=
  if c.body.isNull then .ok none
  else
    (Template.fillValue (.obj context) c.body).map fun body =>
      if body.isNull then none else some body.toText

/-- What a response means: status and data, a success from 200 to 299. -/
def judge (r : Response) : Except Fault Outcome :=
  r.json?.map fun v =>
    let output := Json.obj [("status", .int r.status), ("data", v.getD .null)]
    if r.isSuccess then .ok output none else .failWith s!"HTTP {r.status}" output

def perform (timeout : Float) (c : Webhook) (context : Table Json) : Errand Outcome :=
  match given? c.url with
  | none => .done (.ok (.fail "webhook requires a url"))
  | some template =>
    match Template.fillText (.obj context) template, c.content context with
    | .error f, _ => .done (.error f)
    | .ok _, .error f => .done (.error f)
    | .ok url, .ok content =>
      .ask (.request ⟨c.method, url, c.sentHeaders, .text content, timeout⟩) fun
        | .ok r => .done (judge r)
        | .error (.trouble kind message) =>
          .done (if kind.isHttp then
            .ok (.fail (if message = "" then "Webhook failed" else message))
          else .error (.trouble kind message))
        | .error f => .done (.error f)

end Webhook

namespace SetContext

def fillIn (context : Table Json) : Json → Except Fault Json
  | .str s => (Template.fillText (.obj context) s).map .str
  | v => .ok v

def perform (c : SetContext) (context : Table Json) : Errand Outcome :=
  let output := (c.values.getD []).mapM fun e => (fillIn context e.2).map fun v => (e.1, v)
  .done (output.map fun fields => .ok (.obj fields) none)

end SetContext

/-- What carries out one kind of step. -/
abbrev Performer := Action → Table Json → Errand Outcome

namespace Action

def perform (dispatch : Dispatcher) (timeout : Float) : Performer
  | .agentCall c => c.perform dispatch
  | .condition c => c.perform
  | .transform c => c.perform
  | .delay c => fun _ => c.perform
  | .webhook c => c.perform timeout
  | .setContext c => c.perform

end Action

/-- The performers at hand, each for one kind of step. -/
abbrev Registry := List (StepKind × Performer)

namespace Registry

def standard (dispatch : Dispatcher) (timeout : Float) : Registry :=
  StepKind.all.map fun kind => (kind, Action.perform dispatch timeout)

def find? (r : Registry) (kind : StepKind) : Option Performer :=
  (List.find? (fun e => e.1 == kind) r).map (·.2)

/-- Only the performers of some kinds. -/
def only (r : Registry) (kinds : List StepKind) : Registry :=
  List.filter (fun e => kinds.contains e.1) r

/-- Another performer for one kind. -/
def replace (r : Registry) (kind : StepKind) (p : Performer) : Registry :=
  (kind, p) :: List.filter (fun e => e.1 != kind) r

/-- An empty registry gives way to another one. -/
def orElse (r other : Registry) : Registry := if List.isEmpty r then other else r

/-- Carries out a step. Whatever goes wrong becomes a failure of the step. -/
def execute (r : Registry) (step : Step) (context : Table Json) : Program Outside.Answer Outcome :=
  match r.find? step.action.kind with
  | none => .done (.fail s!"Unknown step type: {step.action.kind.name}")
  | some perform =>
    (perform step.action context).map fun
      | .ok outcome => outcome
      | .error f => .fail f.describe

end Registry

end Conductor
