import Conductor.Dispatch.Local
import Conductor.Proofs.Engine.Log

/-! Many calls at work over one store. Each call is a task that goes on by one question at a time, in any
order; a question about what is stored is answered by the office that all of them share, any other one by
the world, which may answer anything. -/

namespace Conductor

/-- What may be called for. -/
inductive Operation where
  | execute (e : Engine) (workflowId : String) (context : Table Json)
  | trigger (e : Engine) (workflowId : String) (context : Table Json) (kind : String)
      (triggeredBy : Option String)
  | cancel (runId : String)
  | get (runId : String)
  | list (workflowId : String)
  | stats (workflowId : String)
  | save (w : Workflow)

/-- What a call comes back with. -/
inductive Reply where
  | run (r : Except Fault Run)
  | cancelled (r : Except Fault Bool)
  | runs (r : Except Fault (List Run))
  | stats (r : Except Fault Stats)
  | saved

def Operation.work : Operation → Work Reply
  | .execute e id context => (e.execute id context).map .run
  | .trigger e id context kind triggeredBy => (e.trigger id context kind triggeredBy).map .run
  | .cancel id => (cancelRun id).map .cancelled
  | .get id => (getRun id).map .run
  | .list id => (listRuns id).map .runs
  | .stats id => (runStats id).map .stats
  | .save w => .ask (.store (.saveWorkflow w)) fun _ => .done .saved

/-- A call on its way: what is left of it, and what it has asked so far. -/
structure Task where
  operation : Operation
  rest : Work Reply
  log : Log Call.Answer

structure System where
  office : Office
  tasks : List Task

/-- How the world answers at some moment. -/
abbrev World := (o : Outside) → o.Answer

/-- The answer to a store call that fails; some calls cannot. -/
def StoreCall.failed? : (c : StoreCall) → Fault → Option c.Answer
  | .getWorkflow _, f => some (.error f)
  | .updateRun _ _ _, f => some (.error f)
  | .getRun _, f => some (.error f)
  | .listRuns _, f => some (.error f)
  | .saveWorkflow _, _ => none
  | .createRun _ _, _ => none
  | .now, _ => none

inductive Event where
  /-- A new call is made. -/
  | call (op : Operation)
  /-- A task is answered what it asks. -/
  | proceed (task : Nat) (world : World)
  /-- The store call of a task fails. Nothing is changed by it. -/
  | trouble (task : Nat) (f : Fault)
  /-- The clock is moved. -/
  | tick (now : Time)

/-- No store call fails. -/
def Event.Calm : Event → Prop
  | .trouble _ _ => False
  | _ => True

namespace Task

def start (op : Operation) : Task := ⟨op, op.work, []⟩

/-- The task after the answer to the question it asks, and the office after giving it. -/
def answered? (t : Task) (give : (q : Call) → Option (q.Answer × Office)) : Option (Task × Office) :=
  match t.rest with
  | .done _ => none
  | .ask q next => (give q).map fun r => (⟨t.operation, next r.1, t.log ++ [⟨q, r.1⟩]⟩, r.2)

end Task

namespace System

def start (o : Office) : System := ⟨o, []⟩

/-- Answers the question of one task, if it asks one and there is an answer. -/
def serve (s : System) (task : Nat) (give : (q : Call) → Option (q.Answer × Office)) : System :=
  match s.tasks[task]?.bind fun t => t.answered? give with
  | some (t, office) => ⟨office, s.tasks.set task t⟩
  | none => s

def step (s : System) : Event → System
  | .call op => { s with tasks := s.tasks ++ [.start op] }
  | .proceed task world => s.serve task fun
    | .store c => some (s.office.answer c)
    | .outside o => some (world o, s.office)
  | .trouble task f => s.serve task fun
    | .store c => (c.failed? f).map fun r => (r, s.office)
    | .outside _ => none
  | .tick now => { s with office := { s.office with clock := now } }

def run (s : System) (events : List Event) : System := events.foldl step s

/-- A run was started by one of the tasks, on the definition that this task had found. -/
def StartedOn (s : System) (runId : String) (w : Workflow) : Prop :=
  ∃ t ∈ s.tasks, Log.runId? t.log = some runId ∧ Log.definition? t.log = some w

end System

/-! ### What a step can do -/

/-- Questions are answered by the store at once, and by the world in any way. Where the store is not
calm, a call of it may also fail. -/
inductive Office.Gives (o : Office) (calm : Prop) : (q : Call) → q.Answer → Office → Prop
  | store (c : StoreCall) : o.Gives calm (.store c) (o.answer c).1 (o.answer c).2
  | outside (q : Outside) (r : q.Answer) : o.Gives calm (.outside q) r o
  | trouble (h : ¬ calm) {c : StoreCall} {f : Fault} {r : c.Answer} (hr : c.failed? f = some r) :
    o.Gives calm (.store c) r o

namespace System

inductive Moves (calm : Prop) (s : System) : System → Prop
  | stay : Moves calm s s
  | call (op : Operation) : Moves calm s { s with tasks := s.tasks ++ [.start op] }
  | tick (now : Time) : Moves calm s { s with office := { s.office with clock := now } }
  | exchange {i : Nat} {op : Operation} {q : Call} {next : q.Answer → Work Reply}
      {log : Log Call.Answer} {r : q.Answer} {office : Office}
      (ht : s.tasks[i]? = some ⟨op, .ask q next, log⟩) (hg : s.office.Gives calm q r office) :
      Moves calm s ⟨office, s.tasks.set i ⟨op, next r, log ++ [⟨q, r⟩]⟩⟩

variable {calm : Prop} {s : System}

theorem moves_serve {i : Nat} {give : (q : Call) → Option (q.Answer × Office)}
    (h : ∀ q r, give q = some r → s.office.Gives calm q r.1 r.2) : s.Moves calm (s.serve i give) := by
  unfold serve
  cases ht : s.tasks[i]? with
  | none => exact .stay
  | some t =>
    obtain ⟨op, rest, log⟩ := t
    cases rest with
    | done a => exact .stay
    | ask q next =>
      cases hr : give q with
      | none => simpa [Task.answered?, hr] using Moves.stay
      | some r => simpa [Task.answered?, hr] using Moves.exchange ht (h q r hr)

theorem moves_step (ev : Event) (hc : calm → ev.Calm) : s.Moves calm (s.step ev) := by
  cases ev with
  | call op => exact .call op
  | tick now => exact .tick now
  | proceed i world =>
    refine moves_serve fun q r hr => ?_
    cases q with
    | store c =>
      obtain rfl := Option.some.inj hr
      exact .store c
    | outside o =>
      obtain rfl := Option.some.inj hr
      exact .outside o (world o)
  | trouble i f =>
    refine moves_serve fun q r hr => ?_
    cases q with
    | store c =>
      obtain ⟨a, ha, rfl⟩ := Option.map_eq_some_iff.mp hr
      exact .trouble hc ha
    | outside o => cases hr

/-- What every step keeps holds after every run. -/
theorem run_induction (calm : Prop) {P : System → Prop} (events : List Event)
    (hc : calm → ∀ ev ∈ events, ev.Calm)
    (h : P s) (hs : ∀ s s' : System, s.Moves calm s' → P s → P s') : P (s.run events) := by
  induction events generalizing s with
  | nil => exact h
  | cons ev events ih =>
    have hm := moves_step (s := s) ev fun k => hc k ev List.mem_cons_self
    exact ih (fun k e he => hc k e (List.mem_cons_of_mem _ he)) (hs s _ hm h)

end System

/-! ### A small system -/

/-- A definition with one step, which has an output and asks nothing. -/
def Workflow.single : Workflow :=
  ⟨"w", "u", "Single", none, .manual, [], true, [⟨"only", "Only", .transform ⟨none⟩⟩],
    by decide⟩

def Engine.sample : Engine := ⟨.standard .simulated 30, 10⟩

def World.still : World
  | .send _ => .ok ""
  | .request _ => .ok ⟨200, ""⟩
  | .sleep _ => .ok ()

def Office.vacant : Office := ⟨.memory .empty, .start, 0⟩

/-- The next events of a task: some of its questions are answered. -/
def turns (task count : Nat) : List Event := List.replicate count (.proceed task .still)

/-- A definition is saved, and a call to carry it out has come to its first step. -/
def opening : List Event :=
  .call (.save .single) :: .call (.execute .sample "w" []) :: turns 0 1 ++ turns 1 2

end Conductor
