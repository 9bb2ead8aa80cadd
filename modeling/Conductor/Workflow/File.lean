import Conductor.Folder
import Conductor.Workflow.Schema
import Conductor.Yaml.Document

/-! Workflow definitions in files, as JSON or as YAML. -/

namespace Conductor

/-- A definition as a file holds it. -/
structure Definition where
  workflow : Workflow
  /-- What keeps a value that is kept as it is from being written down. -/
  flaw : Option Yaml.Flaw

namespace Definition

/-- The value that a file holds: JSON if its name says so, YAML otherwise. -/
def sourceOf (path : String) (text : List Char) : Except Fault Source :=
  if Folder.suffix path = "json" then
    match Json.parse text with
    | .ok v => .ok (.json v)
    | .error f =>
      .error (if f.reason.isGrammar then .unreadableWorkflow path (some (f.message text))
        else .unreadable text f)
  else
    match Yaml.Value.read text with
    | .ok v => .ok (.yaml v)
    | .error .malformed => .error (.unreadableWorkflow path none)
    | .error f => .error (.notYaml f)

/-- The value of a field, null if there is none. -/
def field (v : Source) (key : String) : Source :=
  match v.view with
  | .map entries => Step.given (Source.fieldsOf entries) key
  | _ => .json .null

def items (v : Source) : List Source :=
  match v.view with
  | .list items => items
  | _ => []

/-- The part of a step that is kept as it is. -/
def keptPart (step : Source) : Source :=
  match (field step "type").view with
  | .atom (.text "set_context") => field (field step "config") "values"
  | .atom (.text "webhook") => field (field step "config") "body"
  | _ => .json .null

/-- The parts of a definition that are kept as they are. -/
def keptParts (v : Source) : List Source :=
  field v "trigger_config" :: (items (field v "steps")).map keptPart

/-- The definition in a value, which must be a mapping. -/
def ofMapping (path : String) (v : Source) : Except Fault Definition :=
  match v.view with
  | .map _ =>
    match Workflow.ofSource v with
    | .ok w => .ok ⟨w, (keptParts v).findSome? Source.flaw?⟩
    | .bad issues => .error (.invalidWorkflow issues)
  | _ => .error (.noWorkflow path)

def load (d : Folder) (path : String) : Except Fault Definition := do
  let path := Folder.plain path
  ofMapping path (← sourceOf path (← d.read path))

/-- The definition in the form in which it can be written down. -/
def writable (d : Definition) : Except Fault Workflow :=
  match d.flaw with
  | none => .ok d.workflow
  | some .loop => .error .circular
  | some (.notText bytes) => .error (.notUnicode bytes)

end Definition

end Conductor
