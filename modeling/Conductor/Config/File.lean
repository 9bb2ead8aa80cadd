import Conductor.Config.Basic
import Conductor.Folder
import Conductor.Yaml.Document

/-! The configuration file. What is not there has its default, and the surroundings may name another
database. -/

namespace Conductor.Config

/-- The file to read when nothing else names one. -/
def defaultPath : String := "config.yaml"

/-- The file that is asked for, or the one that the surroundings name, be it an empty name. -/
def choosePath (path : Option String) (env : Table String) : String :=
  (given? path).getD ((Table.get? env "CLAWFLOW_CONFIG").getD defaultPath)

def isText : Yaml.Atom → Bool
  | .text _ => true
  | _ => false

/-- The configuration that a text spells; what counts as false spells the defaults. -/
def ofText (text : List Char) : Except Fault Config :=
  match Yaml.Value.read text with
  | .error f => .error (.notYaml f)
  | .ok v =>
    let v := Source.yaml v
    if !v.truthy then .ok default
    else
      match v.view with
      | .map entries =>
        if entries.all fun e => isText e.1 then (ofSource v).orFault else .error .wrongKind
      | _ => .error .wrongKind

/-- The configuration of a folder and its surroundings. -/
def load (d : Folder) (env : Table String) (path : Option String) : Except Fault Config := do
  let path := choosePath path env
  let config ← match d.find path with
    | .ok _ => ofText (← d.read path)
    | .error _ => pure default
  match Database.ofSurroundings env with
  | some url => return { config with databaseUrl := some url }
  | none => return config

end Conductor.Config
