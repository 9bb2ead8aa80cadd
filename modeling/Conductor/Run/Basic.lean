import Conductor.Fault
import Conductor.Json.Render
import Conductor.Run.Record
import Conductor.Schema.Reader
import Conductor.Time

/-! Records of workflow runs, and the changes made to them. -/

namespace Conductor

inductive Status where
  | running
  | completed
  | failed
  | cancelled
  /-- A status that a caller made up. -/
  | other (name : String)
deriving Repr, DecidableEq

namespace Status

def named : List (String × Status) := [
  ("running", .running), ("completed", .completed), ("failed", .failed), ("cancelled", .cancelled)]

def name : Status → String
  | .running => "running"
  | .completed => "completed"
  | .failed => "failed"
  | .cancelled => "cancelled"
  | .other name => name

def ofName (name : String) : Status := (Table.get? named name).getD (.other name)

def isTerminal : Status → Bool
  | .completed | .failed | .cancelled => true
  | _ => false

end Status

structure Run where
  id : String
  workflowId : String
  status : Status
  currentStep : Int
  context : Table Json
  error : Option String
  startedAt : Time
  completedAt : Option Time
  /-- Values that callers wrote by the names of fields and that are not of the fields' kinds, or name the
  run or its workflow anew. They stand in the place of the fields. -/
  written : Table Json

/-- New values for some fields of a run. -/
structure Change where
  status : Option Status
  currentStep : Option Int
  context : Option (Table Json)
  error : Option (Option String)
  completedAt : Option (Option Time)
  /-- Values for other fields, values that are not of the fields' kinds, and integers of more than 64
  bits. -/
  written : Table Json

namespace Change

def none : Change := ⟨.none, .none, .none, .none, .none, []⟩

/-- What is written before a step. -/
def checkpoint (index : Nat) (context : Table Json) : Change :=
  { none with currentStep := some index, context := some context }

/-- What is written when a run ends; with an error it has failed. -/
def final (index : Nat) (context : Table Json) (error : Option String) (now : Time) : Change :=
  ⟨some (if error.isSome then .failed else .completed), some index, some context, some error,
    some (some now), []⟩

def cancel (now : Time) : Change :=
  { none with status := some .cancelled, completedAt := some (some now) }

/-- Sets a field by its name. -/
def set (c : Change) : String × Json → Change
  | ("status", .str name) => { c with status := some (.ofName name) }
  | ("current_step", .int n) =>
    if Reader.isShort n then { c with currentStep := some n }
    else { c with written := Table.put c.written "current_step" (.int n) }
  | ("context", .obj fields) => { c with context := some fields }
  | ("error", .str error) => { c with error := some (some error) }
  | ("error", .null) => { c with error := some Option.none }
  | ("completed_at", .null) => { c with completedAt := some Option.none }
  | (name, v) => { c with written := Table.put c.written name v }

/-- The change that sets fields by their names. -/
def ofFields (fields : Table Json) : Change := fields.foldl set none

/-- The names of the fields that get values of their own kinds. -/
def names (c : Change) : List String :=
  (if c.status.isSome then ["status"] else []) ++
  (if c.currentStep.isSome then ["current_step"] else []) ++
  (if c.context.isSome then ["context"] else []) ++
  (if c.error.isSome then ["error"] else []) ++
  (if c.completedAt.isSome then ["completed_at"] else [])

/-- The value that is set for the status, null if there is none. -/
def statusValue (c : Change) : Json :=
  (c.status.map fun s => .str s.name).getD ((Table.get? c.written "status").getD .null)

/-- The value that is set for the current step, null if there is none. -/
def stepValue (c : Change) : Json :=
  (c.currentStep.map .int).getD ((Table.get? c.written "current_step").getD .null)

end Change

namespace Run

/-- A run as it begins. -/
def start (id workflowId : String) (context : Table Json) (now : Time) : Run :=
  ⟨id, workflowId, .running, 0, context, none, now, none, []⟩

def apply (r : Run) (c : Change) : Run :=
  { r with
    status := c.status.getD r.status
    currentStep := c.currentStep.getD r.currentStep
    context := c.context.getD r.context
    error := c.error.getD r.error
    completedAt := c.completedAt.getD r.completedAt
    written := Table.putAll (r.written.filter fun e => e.1 ∉ c.names) c.written }

/-- The value of a field: what was written there, or else its own. -/
def value (r : Run) (name : String) (own : Json) : Json := (Table.get? r.written name).getD own

def idValue (r : Run) : Json := r.value "id" (.str r.id)

def workflowValue (r : Run) : Json := r.value "workflow_id" (.str r.workflowId)

def statusValue (r : Run) : Json := r.value "status" (.str r.status.name)

def stepValue (r : Run) : Json := r.value "current_step" (.int r.currentStep)

def contextValue (r : Run) : Json := r.value "context" (.obj r.context)

def errorValue (r : Run) : Json := r.value "error" (.ofText? r.error)

/-- The run has a status; a value that is no text is none. -/
def hasStatus (r : Run) (name : String) : Bool := r.statusValue.isText name

/-- The run is one of a workflow. -/
def belongsTo (r : Run) (workflowId : String) : Bool := r.workflowValue.isText workflowId

/-- The run has ended. A list or an object cannot be looked up among the statuses. -/
def isTerminal (r : Run) : Except Fault Bool :=
  match Table.get? r.written "status" with
  | none => .ok r.status.isTerminal
  | some (.arr _) | some (.obj _) => .error .wrongKind
  | some _ => .ok false

/-- A time in writing; a value in its place must be null. -/
def timeValue (r : Run) (name : String) (own : Option Time) : Except Fault Json :=
  match Table.get? r.written name with
  | none => .ok (.ofText? (own.map Time.iso))
  | some .null => .ok .null
  | some _ => .error .noAttribute

/-- Every field of a run, and whether it has ended. -/
def toJson (r : Run) : Except Fault Json := do
  return .obj [
    ("id", r.idValue), ("workflow_id", r.workflowValue), ("status", r.statusValue),
    ("current_step", r.stepValue), ("context", r.contextValue), ("error", r.errorValue),
    ("started_at", ← r.timeValue "started_at" (some r.startedAt)),
    ("completed_at", ← r.timeValue "completed_at" r.completedAt),
    ("is_terminal", .bool (← r.isTerminal))]

/-- A line for a value that counts as true. -/
def lineOf (label : String) (v : Json) : List String :=
  if v.truthy then [s!"{label}: {v.plain}"] else []

/-- The lines that show a run. -/
def lines (r : Run) : List String :=
  let started := r.value "started_at" (.str r.startedAt.spaced)
  [s!"Run {r.idValue.plain}: {r.statusValue.plain} (step {r.stepValue.plain})"] ++
  lineOf "Error" r.errorValue ++
  [s!"Started: {started.plain}"] ++
  lineOf "Completed" (r.value "completed_at" (.ofText? (r.completedAt.map Time.spaced))) ++
  [s!"Context: {r.contextValue.toText}"]

end Run

/-- Numbers of runs by status. -/
structure Stats where
  total : Nat
  running : Nat
  completed : Nat
  failed : Nat
  cancelled : Nat
deriving Repr, DecidableEq

namespace Stats

def zero : Stats := ⟨0, 0, 0, 0, 0⟩

/-- Counts one more run. A status that a caller made up has no count, unless it names the total. -/
def add (s : Stats) (status : Status) : Except Fault Stats :=
  let s := { s with total := s.total + 1 }
  match status with
  | .running => .ok { s with running := s.running + 1 }
  | .completed => .ok { s with completed := s.completed + 1 }
  | .failed => .ok { s with failed := s.failed + 1 }
  | .cancelled => .ok { s with cancelled := s.cancelled + 1 }
  | .other "total" => .ok { s with total := s.total + 1 }
  | .other name => .error (if Record.attributes.contains name then .wrongKind else .noAttribute)

/-- Counts one more run. A status that is no text names no count. -/
def addRun (s : Stats) (r : Run) : Except Fault Stats :=
  match Table.get? r.written "status" with
  | none => s.add r.status
  | some _ => .error .wrongKind

def ofRuns (runs : List Run) : Except Fault Stats := runs.foldlM addRun zero

end Stats

end Conductor
