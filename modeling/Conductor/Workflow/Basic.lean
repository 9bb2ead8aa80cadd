import Conductor.Number

/-! Workflow definitions: an ordered list of steps of six kinds. -/

namespace Conductor

structure AgentCall where
  agentId : Option String
  sessionKey : Option String
  message : Option String
  timeoutMs : Int

structure Branch where
  expression : Option String
  onTrue : Option String
  onFalse : Option String

structure Transform where
  /-- New keys, each with the path of the value it gets. -/
  mappings : Option (Table String)

structure Delay where
  durationMs : Number

structure Webhook where
  url : Option String
  method : String
  headers : Table String
  /-- Null for none. -/
  body : Json

structure SetContext where
  values : Option (Table Json)

inductive Action where
  | agentCall (c : AgentCall)
  | condition (c : Branch)
  | transform (c : Transform)
  | delay (c : Delay)
  | webhook (c : Webhook)
  | setContext (c : SetContext)

/-- The six kinds of steps. -/
inductive StepKind where
  | agentCall
  | condition
  | transform
  | delay
  | webhook
  | setContext
deriving Repr, DecidableEq

namespace StepKind

def all : List StepKind := [.agentCall, .condition, .transform, .delay, .webhook, .setContext]

def name : StepKind → String
  | .agentCall => "agent_call"
  | .condition => "condition"
  | .transform => "transform"
  | .delay => "delay"
  | .webhook => "webhook"
  | .setContext => "set_context"

def ofName? (name : String) : Option StepKind := all.find? (·.name == name)

end StepKind

def Action.kind : Action → StepKind
  | .agentCall _ => .agentCall
  | .condition _ => .condition
  | .transform _ => .transform
  | .delay _ => .delay
  | .webhook _ => .webhook
  | .setContext _ => .setContext

structure Step where
  id : String
  name : String
  action : Action

/-- What starts a workflow. -/
inductive Trigger where
  | manual
  | schedule
  | webhook
  | taskComplete
  | message
deriving Repr, DecidableEq

namespace Trigger

def named : List (String × Trigger) := [
  ("manual", .manual), ("schedule", .schedule), ("webhook", .webhook),
  ("task_complete", .taskComplete), ("message", .message)]

def name : Trigger → String
  | .manual => "manual"
  | .schedule => "schedule"
  | .webhook => "webhook"
  | .taskComplete => "task_complete"
  | .message => "message"

end Trigger

/-- A definition whose steps can be told apart by their ids. -/
structure Workflow where
  id : String
  userId : String
  name : String
  description : Option String
  trigger : Trigger
  triggerConfig : Table Json
  enabled : Bool
  steps : List Step
  ids_nodup : (steps.map Step.id).Nodup

namespace Workflow

/-- The position of the first step with an id. -/
def indexOf? (w : Workflow) (id : String) : Option Nat :=
  w.steps.findIdx? (·.id == id)

/-- The first id that an earlier one in the list, or one of `seen`, equals. -/
def firstRepeat? (seen : List String) : List String → Option String
  | [] => none
  | id :: ids => if id ∈ seen then some id else firstRepeat? (id :: seen) ids

theorem firstRepeat?_eq_none {seen ids : List String} :
    firstRepeat? seen ids = none ↔ ids.Nodup ∧ ∀ id ∈ ids, id ∉ seen := by
  induction ids generalizing seen with
  | nil => simp [firstRepeat?]
  | cons id ids ih =>
    by_cases h : id ∈ seen
    · simp [firstRepeat?, h]
    · simp only [firstRepeat?, h, if_false, ih, List.nodup_cons, List.mem_cons, not_or]
      constructor
      · rintro ⟨hn, hd⟩
        refine ⟨⟨fun hm => (hd id hm).1 rfl, hn⟩, ?_⟩
        rintro x (rfl | hx)
        · exact h
        · exact (hd x hx).2
      · rintro ⟨⟨hi, hn⟩, hd⟩
        exact ⟨hn, fun x hx => ⟨fun e => hi (e ▸ hx), hd x (Or.inr hx)⟩⟩

end Workflow

end Conductor
