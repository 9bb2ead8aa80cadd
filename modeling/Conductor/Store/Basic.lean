import Conductor.Program
import Conductor.Dispatch.Outside
import Conductor.Store.Memory
import Conductor.Store.Rows

/-! The questions that work on runs asks, and how a store with a clock answers those about what is
stored. -/

namespace Conductor

inductive StoreCall where
  | getWorkflow (id : String)
  | saveWorkflow (w : Workflow)
  | createRun (workflowId : String) (context : Table Json)
  | updateRun (id : String) (change : Change) (expected : Option String)
  | getRun (id : String)
  | listRuns (workflowId : String)
  | now

@[reducible] def StoreCall.Answer : StoreCall → Type
  | .getWorkflow _ => Except Fault (Option Workflow)
  | .saveWorkflow _ => Unit
  | .createRun _ _ => Run
  | .updateRun _ _ _ => Except Fault Bool
  | .getRun _ => Except Fault (Option Run)
  | .listRuns _ => Except Fault (List Run)
  | .now => Time

inductive Call where
  | store (c : StoreCall)
  | outside (o : Outside)

@[reducible] def Call.Answer : Call → Type
  | .store c => c.Answer
  | .outside o => o.Answer

/-- Work on runs: what a program asks is about the store or about the world. -/
abbrev Work (α : Type) := Program Call.Answer α

/-- Work that only asks the world is work on runs. -/
def Work.ofOutside {α : Type} (p : Program Outside.Answer α) : Work α :=
  p.embed Call.outside fun _ r => r

inductive Store where
  | memory (m : Memory)
  | rows (s : Rows)

namespace Store

def getWorkflow : Store → String → Except Fault (Option Workflow)
  | .memory m, id => .ok (m.getWorkflow id)
  | .rows s, id => s.getWorkflow id

def saveWorkflow : Store → Workflow → Store
  | .memory m, w => .memory (m.saveWorkflow w)
  | .rows s, w => .rows (s.saveWorkflow w)

/-- Stores a new run and gives it as it will be read back. -/
def createRun : Store → Run → Run × Store
  | .memory m, run => (run, .memory (m.createRun run))
  | .rows s, run => ({ run with startedAt := run.startedAt.unzoned }, .rows (s.createRun run))

def updateRun : Store → String → Change → Option String → Except Fault Bool × Store
  | .memory m, id, change, expected =>
    let r := m.updateRun id change expected
    (.ok r.1, .memory r.2)
  | .rows s, id, change, expected =>
    match s.updateRun id change expected with
    | .ok r => (.ok r.1, .rows r.2)
    | .error f => (.error f, .rows s)

def getRun : Store → String → Except Fault (Option Run)
  | .memory m, id => .ok (m.getRun id)
  | .rows s, id => s.getRun id

def listRuns : Store → String → Except Fault (List Run)
  | .memory m, workflowId => .ok (m.listRuns workflowId)
  | .rows s, workflowId => s.listRuns workflowId

def deleteRun : Store → String → Store
  | .memory m, id => .memory (m.deleteRun id)
  | .rows s, id => .rows (s.deleteRun id)

end Store

/-- A store with a clock and the number of runs made so far, from which run ids are made. -/
structure Office where
  store : Store
  clock : Time
  created : Nat

namespace Office

def runId (n : Nat) : String := s!"run-{n}"

def answer : (c : StoreCall) → Office → c.Answer × Office
  | .getWorkflow id, o => (o.store.getWorkflow id, o)
  | .saveWorkflow w, o => ((), { o with store := o.store.saveWorkflow w })
  | .createRun workflowId context, o =>
    let r := o.store.createRun (.start (runId (o.created + 1)) workflowId context o.clock)
    (r.1, { o with store := r.2, created := o.created + 1 })
  | .updateRun id change expected, o =>
    let r := o.store.updateRun id change expected
    (r.1, { o with store := r.2 })
  | .getRun id, o => (o.store.getRun id, o)
  | .listRuns workflowId, o => (o.store.listRuns workflowId, o)
  | .now, o => (o.clock, o)

end Office

end Conductor
