import Conductor.Schema.Reader

/-! Agents as the matcher sees them. -/

namespace Conductor

inductive Availability where
  | online
  | busy
  | away
  | offline
deriving Repr, DecidableEq

namespace Availability

def named : List (String × Availability) := [
  ("online", .online), ("busy", .busy), ("away", .away), ("offline", .offline)]

def name : Availability → String
  | .online => "online"
  | .busy => "busy"
  | .away => "away"
  | .offline => "offline"

/-- How much of the weight of availability an agent gets. -/
def factor : Availability → Float
  | .online => 1.0
  | .busy => 0.5
  | .away => 0.25
  | .offline => 0.0

end Availability

structure Agent where
  id : String
  name : String
  capabilities : List String
  availability : Availability
  tasksCompleted : Int
  averageSeconds : Option Float
  hourlyLimit : Option Int

namespace Agent

/-- Whatever counts as false stands for the default. -/
def orDefault {α : Type} (default : α) (r : Reader α) : Reader α := fun v =>
  if v.truthy then r v else .ok default

def ofFields (fields : Table Source) : Checked Agent :=
  Agent.mk <$> required fields "id" Reader.text <*> required fields "name" Reader.text <*>
    optional fields "capabilities" [] (orDefault [] (Reader.list Reader.text)) <*>
    optional fields "availability" .online (Reader.oneOf Availability.named) <*>
    optional fields "total_tasks_completed" 0 (orDefault 0 Reader.integer) <*>
    optional fields "avg_task_duration_seconds" none (Reader.nullable Reader.double) <*>
    optional fields "hourly_rate_limit" none (Reader.nullable Reader.integer)

def ofSource : Reader Agent := Reader.model ofFields

def ofJson (v : Json) : Checked Agent := ofSource (.json v)

def toJson (a : Agent) : Json := .obj [
  ("id", .str a.id), ("name", .str a.name), ("capabilities", .arr (a.capabilities.map .str)),
  ("availability", .str a.availability.name), ("total_tasks_completed", .int a.tasksCompleted),
  ("avg_task_duration_seconds", match a.averageSeconds with
    | none => .null
    | some x => .float x),
  ("hourly_rate_limit", match a.hourlyLimit with
    | none => .null
    | some n => .int n)]

end Agent

end Conductor
