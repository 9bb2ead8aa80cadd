import Conductor.Schema.Reader
import Conductor.Workflow.Basic

/-! Reading workflow definitions. -/

namespace Conductor

open Reader

namespace AgentCall

def default : AgentCall := ⟨none, none, none, 30000⟩

def ofFields (fields : Table Source) : Checked AgentCall :=
  AgentCall.mk <$> optionalText fields "agent_id" <*> optionalText fields "session_key" <*>
    optionalText fields "message" <*> optional fields "timeout_ms" 30000 integer

end AgentCall

namespace Branch

def default : Branch := ⟨none, none, none⟩

def ofFields (fields : Table Source) : Checked Branch :=
  Branch.mk <$> optionalText fields "expression" <*> optionalText fields "on_true" <*>
    optionalText fields "on_false"

end Branch

namespace Transform

def default : Transform := ⟨none⟩

def ofFields (fields : Table Source) : Checked Transform :=
  Transform.mk <$> optional fields "mappings" none (nullable (dict text))

end Transform

namespace Delay

/-- The default is an integer; a duration that is read is a double. -/
def default : Delay := ⟨.int 1000⟩

/-- A double that is at least zero. -/
def duration : Reader Number := fun v =>
  (double v).andThen fun x => if x ≥ 0.0 then .ok (.double x) else .problem .belowMinimum

def ofFields (fields : Table Source) : Checked Delay :=
  Delay.mk <$> optional fields "duration_ms" default.durationMs duration

end Delay

namespace Webhook

def default : Webhook := ⟨none, "POST", [], .null⟩

def ofFields (fields : Table Source) : Checked Webhook :=
  Webhook.mk <$> optionalText fields "url" <*> optional fields "method" "POST" text <*>
    optional fields "headers" [] (dict text) <*> optional fields "body" .null any

end Webhook

namespace SetContext

def default : SetContext := ⟨none⟩

def ofFields (fields : Table Source) : Checked SetContext :=
  SetContext.mk <$> optional fields "values" none (nullable (dict any))

end SetContext

namespace Action

/-- The settings of a step of some kind. -/
def ofConfig : StepKind → Reader Action
  | .agentCall => fun v => .agentCall <$> model AgentCall.ofFields v
  | .condition => fun v => .condition <$> model Branch.ofFields v
  | .transform => fun v => .transform <$> model Transform.ofFields v
  | .delay => fun v => .delay <$> model Delay.ofFields v
  | .webhook => fun v => .webhook <$> model Webhook.ofFields v
  | .setContext => fun v => .setContext <$> model SetContext.ofFields v

def default : StepKind → Action
  | .agentCall => .agentCall AgentCall.default
  | .condition => .condition Branch.default
  | .transform => .transform Transform.default
  | .delay => .delay Delay.default
  | .webhook => .webhook Webhook.default
  | .setContext => .setContext SetContext.default

end Action

namespace Step

/-- The value of a key, with null for none. -/
def given (fields : Table Source) (key : String) : Source := (Table.get? fields key).getD (.json .null)

/-- Sets a branch target unless it is set or there is nothing to set it to. -/
def foldTarget (config : Table Source) (key : String) (target : Source) : Table Source :=
  if !target.isNull && (given config key).isNull then Table.put config key target else config

/-- Moves the older branch fields of a condition into its settings. -/
def foldBranches (fields : Table Source) : Table Source :=
  let onSuccess := given fields "on_success"
  let onFailure := given fields "on_failure"
  if onSuccess.isNull && onFailure.isNull then fields
  else
    let config := match (given fields "config").view with
      | .map config => Source.fieldsOf config
      | _ => []
    Table.put fields "config"
      (.record (foldTarget (foldTarget config "on_true" onSuccess) "on_false" onFailure))

def branchRule : String :=
  "on_success/on_failure are only supported on condition steps; use config.on_true/config.on_false"

/-- The older branch fields are folded on conditions and refused elsewhere. -/
def prepare (kind : StepKind) (fields : Table Source) : Checked (Table Source) :=
  if kind = .condition then .ok (foldBranches fields)
  else if (given fields "on_success").isNull && (given fields "on_failure").isNull then .ok fields
  else .problem (.rule branchRule)

def ofFields (kind : StepKind) (fields : Table Source) : Checked Step :=
  (prepare kind fields).andThen fun fields =>
    Step.mk <$> required fields "id" text <*> optional fields "name" "" text <*>
      optional fields "config" (Action.default kind) (Action.ofConfig kind)

/-- A step; its kind decides how the rest is read. -/
def ofSource : Reader Step := fun v =>
  match v.view with
  | .map entries =>
    let fields := Source.fieldsOf entries
    match (Table.get? fields "type").map Source.view with
    | none => .problem .noTag
    | some (.atom (.text tag)) =>
      match StepKind.ofName? tag with
      | some kind => (ofFields kind fields).inside (.field tag)
      | none => .problem .unknownTag
    | some _ => .problem .unknownTag
  | _ => .problem .notRecord

end Step

namespace Workflow

/-- The parts of a definition before the ids of its steps are compared. -/
structure Draft where
  id : String
  userId : String
  name : String
  description : Option String
  trigger : Trigger
  triggerConfig : Table Json
  enabled : Bool
  steps : List Step

def Draft.ofFields (fields : Table Source) : Checked Draft :=
  Draft.mk <$> required fields "id" text <*> required fields "user_id" text <*>
    required fields "name" text <*> optionalText fields "description" <*>
    optional fields "trigger_type" .manual (oneOf Trigger.named) <*>
    optional fields "trigger_config" [] (dict any) <*> optional fields "enabled" true switch <*>
    optional fields "steps" [] (list Step.ofSource)

def Draft.check (d : Draft) : Checked Workflow :=
  match h : firstRepeat? [] (d.steps.map Step.id) with
  | some id => .problem (.rule s!"Duplicate step id: {id}")
  | none =>
    .ok ⟨d.id, d.userId, d.name, d.description, d.trigger, d.triggerConfig, d.enabled, d.steps,
      (firstRepeat?_eq_none.1 h).1⟩

def ofFields (fields : Table Source) : Checked Workflow := (Draft.ofFields fields).andThen Draft.check

def ofSource : Reader Workflow := model ofFields

def ofJson (v : Json) : Checked Workflow := ofSource (.json v)

end Workflow

end Conductor
