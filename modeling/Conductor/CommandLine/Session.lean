import Conductor.CommandLine.Report
import Conductor.Rehearsal

/-! Commands one after the other. Only a database in a file outlasts a command; any other store is new
and empty for each. -/

namespace Conductor

namespace Database

/-- The file that a url leads to; none for a database in memory. -/
def fileOf? (url : String) : Option String :=
  match Url.parse url.toList with
  | .ok u => u.file?.map String.ofList
  | .error _ => none

end Database

namespace Site

/-- The store that a command starts with, if it is not the lasting one. -/
def passingStore? (s : Site) : Option Store :=
  match s.stored with
  | .ok (_, none) => some (.memory .empty)
  | .ok (_, some url) => if (Database.fileOf? url).isSome then none else some (.rows .empty)
  | .error _ => none

/-- Carries out the command that arguments spell; `world` holds the lasting store. -/
def perform (s : Site) (args : List String) (world : Rehearsal) : Report × Rehearsal :=
  match s.passingStore? with
  | none => world.perform (s.carryOut args)
  | some store =>
    let (report, after) :=
      { world with office := { world.office with store := store } }.perform (s.carryOut args)
    (report, { after with office := { after.office with store := world.office.store } })

end Site

end Conductor
