import Conductor.Dispatch.Outside
import Conductor.Setting

/-! Agents that run in this process. Each session keeps the history of its turns. -/

namespace Conductor

/-- Messages and outputs in turn. -/
abbrev History := List Json

/-- Agents by id, each with a handle of some kind. -/
structure LocalAgents (α : Type) where
  agents : Table α
  defaultId : Option String
  histories : Table History

/-- A message on its way to an agent, with the history that was there when it was sent. -/
structure Consultation (α : Type) where
  agentId : String
  agent : α
  sessionKey : Option String
  message : String
  history : Option History
  timeoutMs : Json
  timeout : Float

namespace Consultation

variable {α : Type}

/-- The history after a turn. -/
def extended (c : Consultation α) (output : Json) : History :=
  c.history.getD [] ++ [.str c.message, output]

/-- The time is up before the agent starts. -/
def expired (c : Consultation α) : Bool := c.timeout ≤ 0.0

end Consultation

/-- How an agent's run ends. -/
inductive AgentRun where
  | output (v : Json)
  | timeout
  | failed (f : Fault)

namespace LocalAgents

variable {α : Type}

def start (agents : Table α) (defaultId : Option String) : LocalAgents α := ⟨agents, defaultId, []⟩

def register (d : LocalAgents α) (id : String) (agent : α) : LocalAgents α :=
  { d with agents := Table.put d.agents id agent }

/-- The id that a message goes to: its own, or else the default. -/
def recipient (d : LocalAgents α) (agentId : Option String) : Option String :=
  (given? agentId).orElse fun _ => d.defaultId

def notFound (id : Option String) : Fault :=
  let shown := id.getD "None"
  .dispatch s!"Agent {shown} not found in registry" false

/-- Finds the agent and the history for a message. Nothing is written yet. -/
def begin? (d : LocalAgents α) (m : Message) : Except Fault (Consultation α) :=
  let id := d.recipient m.agentId
  match given? id with
  | none => .error (notFound id)
  | some name =>
    match Table.get? d.agents name with
    | none => .error (notFound id)
    | some agent =>
      (Setting.thousandth m.timeoutMs).map fun timeout =>
        let session := given? m.sessionKey
        ⟨name, agent, session, m.text, session.bind (Table.get? d.histories), m.timeoutMs, timeout⟩

/-- Takes the end of an agent's run down. Only an output is written into the history. That it has a text is
taken for granted, also where it is nested deep or holds an integer of more than 4300 digits. -/
def finish (d : LocalAgents α) (c : Consultation α) : AgentRun → LocalAgents α × Except Fault String
  | .output v =>
    (match c.sessionKey with
      | some session => { d with histories := Table.put d.histories session (c.extended v) }
      | none => d,
    .ok v.plain)
  | .timeout =>
    (d, .error (.dispatch s!"Agent {c.agentId} timed out after {c.timeoutMs.plain}ms" false))
  | .failed f => (d, .error f)

/-- One message from beginning to end, `consult` being the agents. -/
def send {σ : Type} (consult : Consultation α → σ → AgentRun × σ) (d : LocalAgents α) (m : Message)
    (s : σ) : LocalAgents α × Except Fault String × σ :=
  match d.begin? m with
  | .error f => (d, .error f, s)
  | .ok c =>
    let (run, s) := if c.expired then (.timeout, s) else consult c s
    let (d, reply) := d.finish c run
    (d, reply, s)

end LocalAgents

end Conductor
