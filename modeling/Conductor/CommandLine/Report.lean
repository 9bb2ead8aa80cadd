import Conductor.CommandLine.Command
import Conductor.Config.Engine
import Conductor.Config.File
import Conductor.Text.Line
import Conductor.Workflow.File

/-! What the commands do. A command reads files and settings, works on runs, and reports with the lines
it prints and an exit code. -/

namespace Conductor

/-- What a command leaves behind: its exit code, the lines printed, and a fault that it does not put
into words. -/
structure Report where
  exit : Nat
  lines : List String
  fault : Option Fault

namespace Report

/-- Lines as they are seen: a text of several lines is as many, and escape sequences do not show. -/
def seen (lines : List String) : List String :=
  (Text.lines (lines.flatMap fun line => Text.dropEscapes line.toList ++ ['\n'])).map String.ofList

def ok (lines : List String) : Report := ⟨0, seen lines, none⟩

/-- A failure that is put into words. -/
def failed (lines : List String) : Report := ⟨1, seen lines, none⟩

/-- Arguments that are no command. -/
def usage : Report := ⟨2, [], none⟩

def escaped (f : Fault) : Report := ⟨1, [], some f⟩

/-- A file that holds no definition. Only the first line of the reason is told. -/
def invalid (f : Fault) : Report := ⟨1, (seen [s!"Invalid workflow: {f.message}"]).take 1, none⟩

/-- A fault, in words if it is an expected one. -/
def ofFault (f : Fault) : Report := if f.isExpected then failed [f.message] else escaped f

/-- The report of a run; a failed run is a failure. -/
def ofRun (run : Run) : Report := if run.status = .failed then failed run.lines else ok run.lines

end Report

/-- What a command finds around it. -/
structure Site where
  files : Folder
  env : Table String

namespace Site

def config (s : Site) : Except Fault Config := Config.load s.files s.env none

/-- The configuration with the url of its database, which must be a supported one. -/
def stored (s : Site) : Except Fault (Config × Option String) := do
  let c ← s.config
  return (c, ← Database.select none s.env c)

/-- The engine that the configuration describes. -/
def engine (s : Site) : Except Fault Engine := do
  let (c, _) ← s.stored
  return .ofConfig c (← Channel.ofConfig c).dispatcher

/-- Goes on with a value, or reports the fault. -/
def withValue {α : Type} (x : Except Fault α) (f : α → Work Report) : Work Report :=
  match x with
  | .ok a => f a
  | .error e => .done (.escaped e)

/-- Reports the result of work, or its fault. -/
def reporting {α : Type} (f : α → Report) (work : Work (Except Fault α)) : Work Report :=
  work.map fun
    | .ok a => f a
    | .error e => .ofFault e

/-- A definition that the store can take. Only a store in memory takes what cannot be written down. -/
def storable (s : Site) (d : Definition) : Except Fault Workflow := do
  match ← s.stored with
  | (_, none) => return d.workflow
  | (_, some _) => d.writable

def register (s : Site) (path : String) : Work Report :=
  withValue (s.files.has (Folder.plain path)) fun there =>
    if !there then .done (.failed ["Specified path does not exist"])
    else
      match Definition.load s.files path with
      | .error f =>
        .done (if f.isExpected then .invalid f else .escaped f)
      | .ok d =>
        withValue (s.storable d) fun w =>
          .ask (.store (.saveWorkflow w)) fun _ =>
            .done (.ok [s!"Registered workflow {w.id} ({w.steps.length} steps)"])

/-- The lines that show a definition. -/
def workflowLines (w : Workflow) : List String :=
  let state := if w.enabled then "enabled" else "disabled"
  s!"Workflow {w.id}: {w.name} [{w.trigger.name}, {state}]" ::
    w.steps.zipIdx.map fun (step, i) => s!"  {i}. {step.id} ({step.action.kind.name}) {step.name}"

def showWorkflow (s : Site) (id : String) : Work Report :=
  withValue s.stored fun _ =>
    .ask (.store (.getWorkflow id)) fun
      | .error f => .done (.escaped f)
      | .ok none => .done (.failed ["Workflow not found"])
      | .ok (some w) => .done (.ok (workflowLines w))

/-- The context that an argument spells; an empty one is as good as none. -/
def contextOf (arg : Option String) : Except Report (Table Json) :=
  match given? arg with
  | none => .ok []
  | some text =>
    match Json.parse text.toList with
    | .ok (.obj fields) => .ok fields
    | .ok _ => .error (.failed ["--context must be a JSON object"])
    | .error f =>
      .error (if f.reason.isGrammar then
          .failed [s!"Invalid --context JSON: {f.message text.toList}"]
        else .escaped (.unreadable text.toList f))

def runWorkflow (s : Site) (id : String) (context triggeredBy : Option String) : Work Report :=
  match contextOf context with
  | .error report => .done report
  | .ok context =>
    withValue s.engine fun e =>
      reporting .ofRun (e.trigger id context Trigger.manual.name triggeredBy)

def listRuns (s : Site) (workflowId : String) : Work Report :=
  withValue s.engine fun _ =>
    reporting (fun runs =>
      if runs.isEmpty then .ok ["No runs found"]
      else .ok (runs.map fun r => s!"{r.id}\t{r.status.name}\t{r.startedAt.spaced}"))
      (Conductor.listRuns workflowId)

def countLines (n : Stats) : List String := [
  s!"total: {n.total}", s!"running: {n.running}", s!"completed: {n.completed}",
  s!"failed: {n.failed}", s!"cancelled: {n.cancelled}"]

def countRuns (s : Site) (workflowId : String) : Work Report :=
  withValue s.engine fun _ => reporting (fun n => .ok (countLines n)) (runStats workflowId)

def showRun (s : Site) (id : String) : Work Report :=
  withValue s.engine fun _ => reporting (fun run => .ok run.lines) (getRun id)

def cancelRun (s : Site) (id : String) : Work Report :=
  withValue s.engine fun _ =>
    reporting (fun cancelled =>
      if cancelled then .ok [s!"Run {id} cancelled"]
      else .ok [s!"Run {id} already finished; nothing to cancel"])
      (Conductor.cancelRun id)

/-- What is read as agents: the items of a list, or else the keys, characters or bytes of what is no
list. -/
def candidatesOf (v : Source) : Except Fault (List Source) :=
  let atoms (as : List Yaml.Atom) : List Source := as.map fun a => .yaml ⟨.atom a, #[]⟩
  if !v.truthy then .ok []
  else
    match v.view with
    | .list items => .ok items
    | .map entries => .ok (atoms (entries.map (·.1)))
    | .atom (.text s) => .ok (atoms (s.toList.map fun c => .text (String.singleton c)))
    | .atom (.bytes b) => .ok (atoms (b.map fun n => .int n.toNat))
    | .atom _ => .error .wrongKind

/-- The agents in a text, up to the first that has issues. -/
def agentsOf (text : List Char) : Except Fault (List Agent) :=
  match Yaml.Value.read text with
  | .error f => .error (.notYaml f)
  | .ok v => do (← candidatesOf (.yaml v)).mapM fun v => (Agent.ofSource v).orFault

def matchOptions (c : MatcherConfig) (onlineOnly : Bool) (limit : Option Int) : Matching.Options :=
  { Matching.Options.default with
    onlineOnly := onlineOnly
    limit := .int ((limit.filter (· ≠ 0)).getD c.limit)
    availabilityWeight := .float c.availabilityWeight
    experienceWeight := .float c.experienceWeight }

def rankedLine (r : Matching.Ranked) : String :=
  let score := String.ofList (Decimal.twoPlaces r.score)
  s!"{r.agent.id}\t{score}\t{r.reason}"

/-- The agents in a file, ranked for a task. -/
def rankedAgents (s : Site) (task path : String) (onlineOnly : Bool) (limit : Option Int) :
    Except Fault (List Matching.Ranked) := do
  let agents ← agentsOf (← s.files.read path)
  let c ← s.config
  Matching.rank (matchOptions c.matcher onlineOnly limit) task.toList agents

def matchAgents (s : Site) (task path : String) (onlineOnly : Bool) (limit : Option Int) : Report :=
  let path := Folder.plain path
  match s.files.has path with
  | .error f => .escaped f
  | .ok false => .failed ["Specified agents file does not exist"]
  | .ok true =>
    match s.rankedAgents task path onlineOnly limit with
    | .error f => .escaped f
    | .ok [] => .ok ["No matching agents"]
    | .ok rs => .ok (rs.map rankedLine)

def suggest (task : String) : Report :=
  match Matching.suggest task.toList with
  | [] => .ok ["No suggestions"]
  | tags => .ok [String.ofList (Text.join ", ".toList tags)]

/-- What a command does at a site. -/
def work (s : Site) : Command → Work Report
  | .register path => s.register path
  | .showWorkflow id => s.showWorkflow id
  | .runWorkflow id context triggeredBy => s.runWorkflow id context triggeredBy
  | .listRuns workflowId => s.listRuns workflowId
  | .countRuns workflowId => s.countRuns workflowId
  | .showRun id => s.showRun id
  | .cancelRun id => s.cancelRun id
  | .matchAgents task path onlineOnly limit => .done (s.matchAgents task path onlineOnly limit)
  | .suggest task => .done (suggest task)

/-- What the command line does with its arguments. -/
def carryOut (s : Site) (args : List String) : Work Report :=
  match Command.ofArguments args with
  | .ok command => s.work command
  | .error .usage => .done .usage
  | .error (.unknownLevel name) => .done (.escaped (.unknownLevel name))

end Site

end Conductor
