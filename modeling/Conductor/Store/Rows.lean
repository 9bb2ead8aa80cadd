import Conductor.Run.Basic
import Conductor.Workflow.Dump
import Conductor.Workflow.Schema

/-! A store that keeps definitions and runs as rows: definitions as JSON, times without their offset.
What is read back is validated again. That a value may be nested too deep for a row, or hold an integer of
more than 4300 digits, and cannot be written then, is left out. -/

namespace Conductor

/-- A run as its columns hold it. Columns of texts hold nothing else; the current step and the context
may be of any kind until they are read. -/
structure RunRow where
  id : String
  workflowId : String
  status : String
  currentStep : Json
  context : Json
  error : Option String
  startedAt : Int
  completedAt : Option Int

namespace RunRow

def ofRun (r : Run) : RunRow :=
  ⟨r.id, r.workflowId, r.status.name, .int r.currentStep, .obj r.context, r.error,
    r.startedAt.micros, r.completedAt.map (·.micros)⟩

/-- The context that a value is. -/
def contextOf : Json → Checked (Table Json)
  | .obj fields => .ok fields
  | _ => .problem .notDict

/-- The run that a row holds; its status must be one of the four. -/
def toRun (row : RunRow) : Checked Run :=
  (fun status step context => Run.mk row.id row.workflowId status step context row.error
      ⟨row.startedAt, false⟩ (row.completedAt.map (⟨·, false⟩)) []) <$>
    ((Reader.oneOf Status.named (.json (.str row.status))).inside (.field "status")) <*>
    ((Reader.integer (.json row.currentStep)).inside (.field "current_step")) <*>
    ((contextOf row.context).inside (.field "context"))

/-- Writes the values of a change that are of the columns' kinds. -/
def apply (row : RunRow) (c : Change) : RunRow :=
  { row with
    status := (c.status.map Status.name).getD row.status
    currentStep := (c.currentStep.map Json.int).getD row.currentStep
    context := (c.context.map Json.obj).getD row.context
    error := c.error.getD row.error
    completedAt := (c.completedAt.map (·.map (·.micros))).getD row.completedAt }

def columns : List String :=
  ["id", "workflow_id", "status", "current_step", "context", "error", "started_at", "completed_at"]

/-- The text that a column of texts keeps for a value. -/
def textOf (column : String) : Json → Except Fault String
  | .str s => .ok s
  | .int n => if Reader.isShort n then .ok (Json.plain (.int n)) else .error .wideInteger
  | .float x => .ok (Json.plain (.float x))
  | .bool b => .ok (if b then "1" else "0")
  | _ => .error (.notStorable column)

/-- What a column of integers keeps for a value. -/
def numeralOf (column : String) : Json → Except Fault Json
  | .int n => if Reader.isShort n then .ok (.int n) else .error .wideInteger
  | .bool b => .ok (.int (if b then 1 else 0))
  | .float x =>
    match Reader.integerOfDouble x with
    | .ok n => .ok (.int n)
    | .bad _ => if x.isNaN then .error (.notStorable column) else .ok (.float x)
  | .str s =>
    match Numeral.integer s.toList with
    | .ok n => .ok (if Reader.isShort n then .int n else .str s)
    | .bad _ => .ok (.str s)
  | _ => .error (.notStorable column)

/-- Writes one value of any kind into a column. -/
def write (row : RunRow) : String × Json → Except Fault RunRow
  | ("id", v) => (textOf "id" v).map fun s => { row with id := s }
  | ("workflow_id", v) => (textOf "workflow_id" v).map fun s => { row with workflowId := s }
  | ("status", v) => (textOf "status" v).map fun s => { row with status := s }
  | ("current_step", v) => (numeralOf "current_step" v).map fun n => { row with currentStep := n }
  | ("context", v) => .ok { row with context := v }
  | ("error", v) => (textOf "error" v).map fun s => { row with error := some s }
  | (column, _) => .error (.notStorable column)

/-- Makes a change. -/
def change (row : RunRow) (c : Change) : Except Fault RunRow := c.written.foldlM write (row.apply c)

def blank : RunRow := ⟨"", "", "", .null, .null, none, 0, none⟩

/-- Looks for what keeps a change from being made, whatever the row. Null is refused by a row only. -/
def check (c : Change) : Except Fault Unit := do
  if c.written.any fun e => Record.attributes.contains e.1 then .error .noAttribute
  let unknown := (Table.keys c.written).filter (! columns.contains ·)
  if unknown ≠ [] then .error (.noColumn unknown)
  discard (blank.change { c with written := c.written.filter (! ·.2.isNull) })

@[simp] theorem change_of_written_nil (row : RunRow) {c : Change} (h : c.written = []) :
    row.change c = .ok (row.apply c) := by
  simp [change, h, pure, Except.pure]

@[simp] theorem check_of_written_nil {c : Change} (h : c.written = []) : check c = .ok () := by
  simp [check, h, Table.keys, change, pure, Except.pure, discard, Functor.discard,
    Functor.mapConst, Except.map]

end RunRow

structure Rows where
  definitions : Table Json
  runs : List RunRow

namespace Rows

def empty : Rows := ⟨[], []⟩

def getWorkflow (s : Rows) (id : String) : Except Fault (Option Workflow) :=
  match Table.get? s.definitions id with
  | none => .ok none
  | some v => (Workflow.ofJson v).orFault.map some

def saveWorkflow (s : Rows) (w : Workflow) : Rows :=
  { s with definitions := Table.put s.definitions w.id w.finite.toJson }

def createRun (s : Rows) (run : Run) : Rows := { s with runs := s.runs ++ [.ofRun run] }

def getRun (s : Rows) (id : String) : Except Fault (Option Run) :=
  match s.runs.find? (·.id = id) with
  | none => .ok none
  | some row => row.toRun.orFault.map some

/-- The rows that an update is meant for. -/
def isMeant (id : String) (expected : Option String) (row : RunRow) : Bool :=
  row.id = id && expected.all (· = row.status)

/-- Changes every row that is meant, and tells whether there was one. Rows must be told apart by their
ids. -/
def updateRun (s : Rows) (id : String) (change : Change) (expected : Option String) :
    Except Fault (Bool × Rows) := do
  RunRow.check change
  let runs ← s.runs.mapM fun row =>
    if isMeant id expected row then row.change change else .ok row
  if Table.has change.written "id" && !(runs.map RunRow.id).Nodup then .error (.repeatedKey "id")
  else return (s.runs.any (isMeant id expected), { s with runs := runs })

def listRuns (s : Rows) (workflowId : String) : Except Fault (List Run) :=
  ((s.runs.filter (·.workflowId = workflowId)).mergeSort fun a b => a.startedAt ≥ b.startedAt).mapM
    fun row => row.toRun.orFault

def deleteRun (s : Rows) (id : String) : Rows := { s with runs := s.runs.filter (·.id ≠ id) }

end Rows

end Conductor
