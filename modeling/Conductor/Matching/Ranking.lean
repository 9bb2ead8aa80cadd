import Conductor.Matching.Agent
import Conductor.Matching.Capability
import Conductor.Matching.Insertion
import Conductor.Setting

/-! Agents ranked for a task. -/

namespace Conductor.Matching

/-- What a caller asks for. A setting that is no number is noticed where a number is needed. -/
structure Options where
  onlineOnly : Bool
  minScore : Json
  /-- How many results are wanted; a negative number leaves so many out at the end, null none. -/
  limit : Json
  availabilityWeight : Json
  experienceWeight : Json

namespace Options

def default : Options := ⟨false, .float 0.0, .int 10, .float 0.1, .float 0.05⟩

/-- The options of a caller who asks for helpers with one task. -/
def forTask : Options := default

/-- The options of a caller who asks for the best agent. -/
def forBest : Options := { default with onlineOnly := true, limit := .int 1 }

/-- A way to set an option. -/
abbrev Setter := Options → Json → Options

def setters : List (String × Setter) := [
  ("online_only", fun o v => { o with onlineOnly := v.truthy }),
  ("min_score", fun o v => { o with minScore := v }),
  ("limit", fun o v => { o with limit := v }),
  ("availability_weight", fun o v => { o with availabilityWeight := v }),
  ("experience_weight", fun o v => { o with experienceWeight := v })]

def taskSetters : List (String × Setter) := [
  ("require_online", fun o v => { o with onlineOnly := v.truthy }),
  ("max_results", fun o v => { o with limit := v }),
  ("prefer_experienced", fun o v =>
    { o with experienceWeight := if v.truthy then .float 0.1 else default.experienceWeight })]

def bestSetters : List (String × Setter) := [
  ("online_only", fun o v => { o with onlineOnly := v.truthy })]

/-- Sets options by their names, all of which must be known. -/
def set (setters : List (String × Setter)) (o : Options) (given : Table Json) :
    Except Fault Options :=
  given.foldlM (fun o e =>
    match setters.lookup e.1 with
    | some set => .ok (set o e.2)
    | none => .error .wrongKind) o

end Options

structure Ranked where
  agent : Agent
  score : Float
  matched : List (List Char)
  availabilityBonus : Float
  experienceBonus : Float
  reason : String

/-- The first `limit` items, or all but the last `-limit`. -/
def firstItems {α : Type} (limit : Int) (xs : List α) : List α :=
  if limit < 0 then xs.take (xs.length - limit.natAbs) else xs.take limit.toNat

/-- The items within a limit, which is null or an integer. -/
def upTo {α : Type} (limit : Json) (xs : List α) : Except Fault (List α) :=
  match limit with
  | .null => .ok xs
  | .int n => .ok (firstItems n xs)
  | .bool b => .ok (firstItems (if b then 1 else 0) xs)
  | _ => .error .wrongKind

def capabilities (a : Agent) : List (List Char) := a.capabilities.map String.toList

/-- Up to the whole weight for a hundred tasks done, nothing for none. -/
def experienceBonus (weight : Json) (tasks : Int) : Except Fault Float :=
  if tasks = 0 then .ok 0.0
  else
    match Decimal.quotient? tasks 100 with
    | none => .error .quotientTooLarge
    | some x => (Setting.double weight).map fun w => (if 1.0 < x then 1.0 else x) * w

def separator : List Char := " • ".toList

def reason (a : Agent) (matched : List (List Char)) : String :=
  let parts :=
    (if matched = [] then [] else ["Matches: ".toList ++ Text.join ", ".toList matched]) ++
    (if a.availability = .online then ["Online".toList] else []) ++
    (if a.tasksCompleted > 10 then [s!"Experienced ({a.tasksCompleted} tasks)".toList] else [])
  if parts = [] then "General match" else String.ofList (Text.join separator parts)

/-- The rating of one agent. -/
def rate (o : Options) (keywords : List (List Char)) (a : Agent) : Except Fault Ranked := do
  let found := matched keywords (capabilities a)
  let base := share found.length keywords.length
  let availability := a.availability.factor * (← Setting.double o.availabilityWeight)
  let experience ← experienceBonus o.experienceWeight a.tasksCompleted
  return ⟨a, base + availability + experience, found, availability, experience, reason a found⟩

/-- The rating of one agent, unless its score is below the least one asked for. -/
def rateFrom (o : Options) (keywords : List (List Char)) (a : Agent) :
    Except Fault (Option Ranked) := do
  let r ← rate o keywords a
  let least ← Setting.number o.minScore
  return if least.exceeds r.score then none else some r

/-- The rating of every agent when a task asks for nothing. -/
def unrated (o : Options) (a : Agent) : Except Fault Ranked := do
  let bonus ← if a.availability = .online then
      ((Reader.double (.json o.availabilityWeight)).inside (.field "availability_bonus")).orFault
    else pure 0.0
  return ⟨a, 0.0, [], bonus, 0.0, "No specific requirements - any agent can help"⟩

def candidates (o : Options) (agents : List Agent) : List Agent :=
  agents.filter fun a => !o.onlineOnly || a.availability = .online

/-- The better score goes first. -/
def before (a b : Ranked) : Bool := a.score ≥ b.score

/-- Best first; equal scores keep their order. Scores that are no numbers come before nothing and after
nothing, so where there are some, the order is the one that insertion from the last on leaves. This order is
the right one for fewer than 64 results: longer lists would be sorted in parts and merged. -/
def arrange (rs : List Ranked) : List Ranked :=
  if rs.any (·.score.isNaN) then
    (Insertion.sort (fun a b => a.score < b.score) rs.reverse).reverse
  else rs.mergeSort before

/-- The agents that suit a task, best first. -/
def rank (o : Options) (text : List Char) (agents : List Agent) : Except Fault (List Ranked) :=
  match keywords text with
  | [] => do (← upTo o.limit (candidates o agents)).mapM (unrated o)
  | ks => do
    let rated ← (candidates o agents).mapM (rateFrom o ks)
    upTo o.limit (arrange (rated.filterMap fun r => r))

/-- The best agent for a task under some options. -/
def best? (o : Options) (text : List Char) (agents : List Agent) : Except Fault (Option Ranked) :=
  (rank o text agents).map List.head?

end Conductor.Matching
