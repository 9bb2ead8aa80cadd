import Conductor.CommandLine.Session
import Conductor.Store.Archive
import Std.Time.DateTime.Timestamp

/-! The program. It carries out one command with the files and the environment at hand; the rows of a
database are kept as JSON in the file that its url names. There is no network: requests fail. -/

namespace Conductor

/-- Runs a program in surroundings that answer with effects. -/
def Program.perform {Q : Type} {Answer : Q → Type} {α : Type} (answer : (q : Q) → IO (Answer q)) :
    Program Answer α → IO α
  | .done a => pure a
  | .ask q next => do (next (← answer q)).perform answer

namespace Console

/-- The time, on a clock that starts with 1970. -/
def now : IO Time := do
  let t ← Std.Time.Timestamp.now
  return ⟨t.toNanosecondsSinceUnixEpoch.val / 1000, true⟩

def settings : List String := ["CLAWFLOW_CONFIG", "CLAWFLOW_DATABASE_URL", "DATABASE_URL"]

def environment : IO (Table String) :=
  settings.filterMapM fun name => do return (← IO.getEnv name).map fun value => (name, value)

/-- The files that arguments and environment may name. -/
def files (args : List String) (env : Table String) : IO Folder := do
  let named := args.flatMap fun arg => arg :: ((Arguments.cut arg).2.map fun v => [v]).getD []
  (Config.choosePath none env :: named).filterMapM fun (path : String) => do
    try
      return some (path, ← IO.FS.readFile path)
    catch _ => return none

/-- The file that keeps the rows of the database. -/
def archive? (s : Site) : Option String :=
  match s.passingStore?, s.stored with
  | none, .ok (_, some url) => Database.fileOf? url
  | _, _ => none

/-- The rows in a file; a file that is not there holds none. -/
def rowsIn (path : String) : IO (Except Fault Rows) := do
  try
    return Rows.ofText (← IO.FS.readFile path).toList
  catch _ => return .ok .empty

def answer (office : IO.Ref Office) : (c : Call) → IO c.Answer
  | .store c => do
    let time ← now
    office.modifyGet fun o => { o with clock := time }.answer c
  | .outside (.send m) => return .ok (Dispatcher.simulatedReply m)
  | .outside (.request _) => return .error (.trouble .connect "There is no network")
  | .outside (.sleep seconds) => do
    IO.sleep (seconds * 1000).toUInt32
    return .ok ()

/-- Carries out the command and keeps what it leaves in the database. -/
def perform (args : List String) : IO Report := do
  let env ← environment
  let site : Site := ⟨← files args env, env⟩
  let path := archive? site
  match ← (path.map rowsIn).getD (return .ok .empty) with
  | .error f => return .escaped f
  | .ok rows =>
    let store := site.passingStore?.getD (.rows rows)
    let office ← IO.mkRef ⟨store, ← now, rows.runs.length⟩
    let report ← (site.carryOut args).perform (answer office)
    match path, (← office.get).store with
    | some path, .rows rows => IO.FS.writeFile path (Json.toText rows.toJson)
    | _, _ => pure ()
    return report

end Console

end Conductor

def main (args : List String) : IO UInt32 := do
  let report ← Conductor.Console.perform args
  for line in report.lines do
    IO.println line
  if let some f := report.fault then
    IO.eprintln f.message
  return report.exit.toUInt32
