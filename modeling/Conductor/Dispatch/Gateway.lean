import Conductor.Dispatch.Backoff
import Conductor.Dispatch.Outside

/-! Agents behind an HTTP gateway. Timeouts, trouble on the way and statuses from 500 on are worth
another attempt. -/

namespace Conductor

structure Gateway where
  url : String
  apiKey : Option String
  maxRetries : Json
  backoffBase : Json

namespace Gateway

def defaultRetries : Json := .int 2

def defaultBackoff : Json := .float 1.5

def headers (g : Gateway) : Table String :=
  ("Content-Type", "application/json") ::
    match g.apiKey with
    | some key => if key = "" then [] else [("Authorization", s!"Bearer {key}")]
    | none => []

def payload (m : Message) : Json := .obj [
  ("agent_id", .ofText? m.agentId), ("session_key", .ofText? m.sessionKey), ("message", .str m.text)]

/-- The one request that a message makes, again and again. -/
def request (g : Gateway) (m : Message) : Except Fault Request :=
  (Setting.thousandth m.timeoutMs).map fun timeout =>
    ⟨"POST", g.url, g.headers, .json (payload m), timeout⟩

/-- The reply in a response: the field `response` of an object, or else the whole text. -/
def replyOf (r : Response) : Except Fault String :=
  r.json?.map fun v =>
    match v.bind (·.field? "response") with
    | some v => v.plain
    | none => r.text

/-- What one outcome of a request means. -/
def judge (m : Message) : Except Fault Response → Except Fault String
  | .ok r =>
    if r.status ≥ 400 then
      .error (.dispatch s!"Agent gateway returned HTTP {r.status}" (r.status ≥ 500))
    else replyOf r
  | .error (.trouble kind message) =>
    if kind.isTimeout then .error (.dispatch s!"Agent call timed out after {m.timeoutMs.plain}ms" true)
    else if kind.isTransport then
      .error (.dispatch s!"Agent call failed: {(Fault.trouble kind message).message}" true)
    else .error (.trouble kind message)
  | .error f => .error f

def isRetryable : Except Fault String → Bool
  | .error (.dispatch _ retryable) => retryable
  | _ => false

/-- Makes the request, and makes it again after a pause while that is worth it and `left` retries are
left. `attempt` counts the retries made. -/
def attempts (g : Gateway) (m : Message) (r : Request) : Nat → Nat → Errand String
  | left, attempt =>
    .ask (.request r) fun outcome =>
      let judged := judge m outcome
      match left with
      | 0 => .done judged
      | left + 1 =>
        if isRetryable judged then
          match backoff g.backoffBase (.int (attempt + 1 : Nat)) with
          | .error f => .done (.error f)
          | .ok seconds => .ask (.sleep seconds) fun
            | .error f => .done (.error f)
            | .ok () => attempts g m r left (attempt + 1)
        else .done judged

/-- Whether the number of retries is one is seen when the first of them is due. -/
def send (g : Gateway) : Dispatcher := fun m =>
  match g.request m, Setting.countBelow g.maxRetries with
  | .error f, _ => .done (.error f)
  | .ok r, .ok retries => g.attempts m r retries 0
  | .ok r, .error f => (g.attempts m r 0 0).map fun reply =>
    if isRetryable reply then .error f else reply

end Gateway

/-- An HTTP client of a dispatcher: the one that it was given, or one of its own, by number. -/
inductive Client where
  | given
  | own (n : Nat)
deriving Repr, DecidableEq

/-- What is done with HTTP clients. -/
inductive Handling where
  | opened (k : Client)
  /-- A request is made with the client. -/
  | used (k : Client)
  | closed (k : Client)
deriving Repr, DecidableEq

namespace Handling

def isOpening : Handling → Bool
  | .opened _ => true
  | _ => false

def isClosing : Handling → Bool
  | .closed _ => true
  | _ => false

end Handling

/-- The HTTP clients of a dispatcher: the one at hand, whether it is the dispatcher's to close, and what
was done with clients so far. -/
structure Clients where
  atHand : Option Client
  owned : Bool
  history : List Handling
deriving Repr, DecidableEq

namespace Clients

/-- A client that was given to a dispatcher is not its own. -/
def start (given : Bool) : Clients := ⟨if given then some .given else none, !given, []⟩

/-- How many clients were opened. -/
def opened (c : Clients) : Nat := c.history.countP Handling.isOpening

/-- How many clients were closed. -/
def closed (c : Clients) : Nat := c.history.countP Handling.isClosing

/-- Takes the client at hand. A new one is opened if there is none. -/
def take (c : Clients) : Client × Clients :=
  match c.atHand with
  | some k => (k, c)
  | none =>
    let k := .own c.opened
    (k, { c with atHand := some k, history := c.history ++ [.opened k] })

/-- Makes a request with the client at hand. -/
def use (c : Clients) : Clients :=
  let (k, c) := c.take
  { c with history := c.history ++ [.used k] }

def close (c : Clients) : Clients :=
  match c.atHand, c.owned with
  | some k, true => { c with atHand := none, history := c.history ++ [.closed k] }
  | _, _ => c

/-- Sends a message with a client at hand, which is taken before anything else can fail. -/
def send (c : Clients) (g : Gateway) (m : Message) : Clients × Errand String := (c.take.2, g.send m)

/-- Carries an errand out. Each of its requests is made with the client that is at hand then. -/
def carry {α : Type} (c : Clients) : Errand α → Program Outside.Answer (Except Fault α × Clients)
  | .done reply => .done (reply, c)
  | .ask (.request r) next => .ask (.request r) fun outcome => c.use.carry (next outcome)
  | .ask (.send m) next => .ask (.send m) fun outcome => c.carry (next outcome)
  | .ask (.sleep seconds) next => .ask (.sleep seconds) fun outcome => c.carry (next outcome)

end Clients

end Conductor
