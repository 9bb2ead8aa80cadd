import Conductor.Workflow.Basic

/-! The JSON form of a workflow definition, with every field written out, and what is left of a
definition when it is written down: in the parts that may be any value, no number but a finite one. Every
definition has this form, however deep its values are nested. -/

namespace Conductor

namespace Json

mutual

/-- The value with null in the place of each double that is not finite. -/
def finite : Json → Json
  | .float x => if Decimal.isFinite x then .float x else .null
  | .arr items => .arr (finiteItems items)
  | .obj fields => .obj (finiteFields fields)
  | v => v

def finiteItems : List Json → List Json
  | [] => []
  | v :: items => finite v :: finiteItems items

def finiteFields : List (String × Json) → List (String × Json)
  | [] => []
  | (key, v) :: fields => (key, finite v) :: finiteFields fields

end

end Json

def textsToJson (t : Table String) : Json := .obj (t.map fun e => (e.1, .str e.2))

def optionToJson {α : Type} (f : α → Json) : Option α → Json
  | none => .null
  | some a => f a

def AgentCall.toJson (c : AgentCall) : Json := .obj [
  ("agent_id", .ofText? c.agentId), ("session_key", .ofText? c.sessionKey),
  ("message", .ofText? c.message), ("timeout_ms", .int c.timeoutMs)]

def Branch.toJson (c : Branch) : Json := .obj [
  ("expression", .ofText? c.expression), ("on_true", .ofText? c.onTrue),
  ("on_false", .ofText? c.onFalse)]

def Transform.toJson (c : Transform) : Json := .obj [
  ("mappings", optionToJson textsToJson c.mappings)]

def Delay.toJson (c : Delay) : Json := .obj [("duration_ms", c.durationMs.toJson)]

def Webhook.toJson (c : Webhook) : Json := .obj [
  ("url", .ofText? c.url), ("method", .str c.method), ("headers", textsToJson c.headers),
  ("body", c.body)]

def SetContext.toJson (c : SetContext) : Json := .obj [("values", optionToJson .obj c.values)]

def Action.toJson : Action → Json
  | .agentCall c => c.toJson
  | .condition c => c.toJson
  | .transform c => c.toJson
  | .delay c => c.toJson
  | .webhook c => c.toJson
  | .setContext c => c.toJson

def Step.toJson (s : Step) : Json := .obj [
  ("id", .str s.id), ("name", .str s.name), ("type", .str s.action.kind.name),
  ("config", s.action.toJson)]

def Workflow.toJson (w : Workflow) : Json := .obj [
  ("id", .str w.id), ("user_id", .str w.userId), ("name", .str w.name),
  ("description", .ofText? w.description), ("trigger_type", .str w.trigger.name),
  ("trigger_config", .obj w.triggerConfig), ("enabled", .bool w.enabled),
  ("steps", .arr (w.steps.map Step.toJson))]

/-- The action with its free values as they are written down. -/
def Action.finite : Action → Action
  | .webhook c => .webhook { c with body := c.body.finite }
  | .setContext c => .setContext ⟨c.values.map Json.finiteFields⟩
  | a => a

def Step.finite (s : Step) : Step := { s with action := s.action.finite }

/-- The definition with its free values as they are written down. -/
def Workflow.finite (w : Workflow) : Workflow :=
  { w with
    triggerConfig := Json.finiteFields w.triggerConfig
    steps := w.steps.map Step.finite
    ids_nodup := by
      have h : (w.steps.map Step.finite).map Step.id = w.steps.map Step.id := by
        simp [Step.finite, Function.comp_def]
      exact h ▸ w.ids_nodup }

end Conductor
