import Conductor.Fault
import Conductor.Json.Body
import Conductor.Program

/-! What a step may ask of the world: to send a message to an agent, to make an HTTP request, to wait. -/

namespace Conductor

/-- A setting that is there and not empty. -/
def given? : Option String → Option String
  | some "" => none
  | s => s

/-- A message to an agent. Without an agent or a session the receiver chooses. -/
structure Message where
  agentId : Option String
  sessionKey : Option String
  text : String
  /-- The milliseconds to wait for a reply. -/
  timeoutMs : Json

/-- What a request carries. -/
inductive Payload where
  | text (content : Option String)
  | json (v : Json)

structure Request where
  method : String
  url : String
  headers : Table String
  payload : Payload
  timeout : Float

structure Response where
  status : Int
  text : String
deriving Repr, DecidableEq

namespace Response

def isSuccess (r : Response) : Bool := 200 ≤ r.status && r.status < 300

/-- The JSON value of the body, if it has one. -/
def json? (r : Response) : Except Fault (Option Json) :=
  match Json.parseBody? r.text.toList with
  | .ok v => .ok v
  | .error f => .error (.unreadable r.text.toList f)

end Response

inductive Outside where
  | send (m : Message)
  | request (r : Request)
  | sleep (seconds : Float)

@[reducible] def Outside.Answer : Outside → Type
  | .send _ => Except Fault String
  | .request _ => Except Fault Response
  | .sleep _ => Except Fault Unit

/-- A piece of work that asks the world only. -/
abbrev Errand (α : Type) := Program Outside.Answer (Except Fault α)

/-- A channel to agents. -/
abbrev Dispatcher := Message → Errand String

namespace Dispatcher

/-- The reply that stands for an agent's. -/
def simulatedReply (m : Message) : String := s!"[Simulated agent response to: {m.text}]"

/-- Answers by itself. -/
def simulated : Dispatcher := fun m => .done (.ok (simulatedReply m))

/-- Hands each message to the world. -/
def direct : Dispatcher := fun m => .ask (.send m) .done

end Dispatcher

end Conductor
