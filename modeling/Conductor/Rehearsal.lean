import Conductor.Run.Engine

/-! Work carried out against answers that are laid out beforehand. Everything that is asked of the world
is noted down; waiting takes no time. -/

namespace Conductor

/-- What the next HTTP request meets. -/
inductive ScriptedResponse where
  | response (r : Response)
  | trouble (kind : Trouble) (message : String)

/-- What the next message to an agent meets. -/
inductive ScriptedReply where
  | reply (text : String)
  | refusal (message : String)
  | trouble (kind : Trouble) (message : String)
  | simulated

/-- What a scripted reply gives to a message. -/
def ScriptedReply.meet (m : Message) : ScriptedReply → Except Fault String
  | .reply text => .ok text
  | .refusal message => .error (.dispatch message false)
  | .trouble kind message => .error (.trouble kind message)
  | .simulated => .ok (Dispatcher.simulatedReply m)

/-- What happens to a certain change of a run. -/
inductive Mishap where
  | trouble (kind : Trouble) (message : String)
  /-- The run is deleted just before. -/
  | deletion

/-- A change that was asked for, and whether it was made; nothing when the store was in trouble. -/
structure Update where
  run : String
  change : Change
  made : Option Bool

structure Rehearsal where
  office : Office
  responses : List ScriptedResponse
  /-- Replies of agents; before a marked one the newest run is cancelled. -/
  replies : List (Bool × ScriptedReply)
  /-- Mishaps by the number of the change, counted from one. -/
  mishaps : List (Nat × Mishap)
  /-- The waits, counted from one, in which the newest run is cancelled. -/
  cancelledWaits : List Nat
  sent : List Message
  requests : List Request
  waits : List Float
  updates : List Update

namespace Rehearsal

def start (store : Store) : Rehearsal :=
  ⟨⟨store, .start, 0⟩, [], [], [], [], [], [], [], []⟩

/-- The run made last. -/
def newest? (s : Rehearsal) : Option String :=
  if s.office.created = 0 then none else some (Office.runId s.office.created)

/-- A change of a run, with the mishap that is laid out for it. -/
def update (id : String) (change : Change) (expected : Option String) (s : Rehearsal) :
    Except Fault Bool × Rehearsal :=
  let ask (office : Office) :=
    let r := office.answer (.updateRun id change expected)
    (r.1, { s with office := r.2, updates := s.updates ++ [⟨id, change, r.1.toOption⟩] })
  match s.mishaps.find? (·.1 = s.updates.length + 1) with
  | none => ask s.office
  | some (_, .deletion) => ask { s.office with store := s.office.store.deleteRun id }
  | some (_, .trouble kind message) =>
    (.error (.trouble kind message), { s with updates := s.updates ++ [⟨id, change, none⟩] })

def answerStore : (c : StoreCall) → Rehearsal → c.Answer × Rehearsal
  | .updateRun id change expected, s => s.update id change expected
  | .getWorkflow id, s => let r := s.office.answer (.getWorkflow id); (r.1, { s with office := r.2 })
  | .saveWorkflow w, s => let r := s.office.answer (.saveWorkflow w); (r.1, { s with office := r.2 })
  | .createRun id context, s =>
    let r := s.office.answer (.createRun id context); (r.1, { s with office := r.2 })
  | .getRun id, s => let r := s.office.answer (.getRun id); (r.1, { s with office := r.2 })
  | .listRuns id, s => let r := s.office.answer (.listRuns id); (r.1, { s with office := r.2 })
  | .now, s => let r := s.office.answer .now; (r.1, { s with office := r.2 })

/-- The next response; an empty object when none is left. -/
def respond (s : Rehearsal) : Except Fault Response × Rehearsal :=
  match s.responses with
  | [] => (.ok ⟨200, "\x7b\x7d"⟩, s)
  | .response r :: rest => (.ok r, { s with responses := rest })
  | .trouble kind message :: rest => (.error (.trouble kind message), { s with responses := rest })

/-- Answers that need nothing else to happen. -/
def answerPlain : (c : Call) → Rehearsal → c.Answer × Rehearsal
  | .store c, s => s.answerStore c
  | .outside (.send m), s => (.ok (Dispatcher.simulatedReply m), s)
  | .outside (.request _), s => s.respond
  | .outside (.sleep _), s => (.ok (), s)

/-- Cancels the run made last, if there is one. -/
def cancelNewest (s : Rehearsal) : Except Fault Unit × Rehearsal :=
  match s.newest? with
  | none => (.ok (), s)
  | some id =>
    let r := (cancelRun id).run (fun c s => s.answerPlain c) s
    (r.1.map fun _ => (), r.2)

def send (m : Message) (s : Rehearsal) : Except Fault String × Rehearsal :=
  let s := { s with sent := s.sent ++ [m] }
  match s.replies with
  | [] => (.ok (Dispatcher.simulatedReply m), s)
  | (cancels, reply) :: rest =>
    let s := { s with replies := rest }
    if cancels then
      match s.cancelNewest with
      | (.error f, s) => (.error f, s)
      | (.ok (), s) => (reply.meet m, s)
    else (reply.meet m, s)

def sleep (seconds : Float) (s : Rehearsal) : Except Fault Unit × Rehearsal :=
  let s := { s with waits := s.waits ++ [seconds] }
  if s.cancelledWaits.contains s.waits.length then s.cancelNewest else (.ok (), s)

def answer : (c : Call) → Rehearsal → c.Answer × Rehearsal
  | .store c, s => s.answerStore c
  | .outside (.send m), s => s.send m
  | .outside (.request r), s => { s with requests := s.requests ++ [r] }.respond
  | .outside (.sleep seconds), s => s.sleep seconds

/-- Carries a task out to its end. -/
def perform {α : Type} (s : Rehearsal) (t : Work α) : α × Rehearsal :=
  t.run (fun c s => s.answer c) s

end Rehearsal

end Conductor
