import Conductor.Run.Basic
import Conductor.Workflow.Basic

/-! A store that keeps definitions and runs as they are. What it hands out and takes in are copies; that copying
may fail where a context is nested too deep is left out. -/

namespace Conductor

structure Memory where
  workflows : Table Workflow
  runs : Table Run

/-- Runs with the newest first; those of one time keep their order. -/
def newestFirst (runs : List Run) : List Run :=
  runs.mergeSort fun a b => a.startedAt.micros ≥ b.startedAt.micros

namespace Memory

def empty : Memory := ⟨[], []⟩

def getWorkflow (m : Memory) (id : String) : Option Workflow := Table.get? m.workflows id

def saveWorkflow (m : Memory) (w : Workflow) : Memory :=
  { m with workflows := Table.put m.workflows w.id w }

def createRun (m : Memory) (run : Run) : Memory := { m with runs := Table.put m.runs run.id run }

def getRun (m : Memory) (id : String) : Option Run := Table.get? m.runs id

/-- Changes a run if it is there and, where a status is expected, has that status. -/
def updateRun (m : Memory) (id : String) (change : Change) (expected : Option String) :
    Bool × Memory :=
  match Table.get? m.runs id with
  | none => (false, m)
  | some run =>
    if expected.all run.hasStatus then
      (true, { m with runs := Table.put m.runs id (run.apply change) })
    else (false, m)

def listRuns (m : Memory) (workflowId : String) : List Run :=
  newestFirst ((m.runs.map (·.2)).filter (·.belongsTo workflowId))

def deleteRun (m : Memory) (id : String) : Memory := { m with runs := Table.erase m.runs id }

end Memory

end Conductor
