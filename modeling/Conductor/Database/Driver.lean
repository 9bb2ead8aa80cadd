import Conductor.Database.Url
import Conductor.Text.Lower

/-! Drivers of databases by name, and what they ask of a url before anything is connected. -/

namespace Conductor.Database

/-- What the name of a driver stands for. -/
inductive Driver where
  /-- It can be used. -/
  | ready
  /-- It is there, under a name of its own, but it makes the program wait. -/
  | blocking (name : String)
  /-- It needs a module that is not there. -/
  | missing (module : String)
  /-- Something that is no driver. -/
  | other

namespace Driver

/-- What belongs to every backend and is no driver. -/
def others : List String := ["BOOLEAN", "CHAR", "DATE", "FLOAT", "INTEGER", "Insert", "JSON", "NUMERIC",
  "REAL", "SMALLINT", "TEXT", "TIME", "TIMESTAMP", "VARCHAR", "dialect", "dml", "insert", "json"]

def sqliteOthers : List String := ["BLOB", "DATETIME", "DECIMAL"]

def postgresqlOthers : List String := ["ARRAY", "All", "Any", "BIGINT", "BIT", "BYTEA", "CIDR",
  "CITEXT", "DOMAIN", "DOUBLE_PRECISION", "ENUM", "HSTORE", "INET", "INTERVAL", "JSONB", "MACADDR",
  "MONEY", "OID", "Range", "TSVECTOR", "UUID", "array", "array_agg", "ext", "hstore", "named_types",
  "operators", "pg_catalog", "ranges", "types"]

/-- The drivers of each backend. -/
def named : List (String × List (String × Driver)) := [
  ("sqlite", [("aiosqlite", .ready), ("pysqlite", .blocking "pysqlite"),
    ("base", .blocking "pysqlite"), ("pysqlcipher", .missing "pysqlcipher3")] ++
    (others ++ sqliteOthers).map fun name => (name, .other)),
  ("postgresql", [("asyncpg", .ready), ("base", .missing "psycopg2"),
    ("psycopg2", .missing "psycopg2"), ("psycopg", .missing "psycopg"),
    ("psycopg_async", .missing "psycopg"), ("pg8000", .missing "pg8000"),
    ("psycopg2cffi", .missing "psycopg2cffi")] ++
    (others ++ postgresqlOthers).map fun name => (name, .other))]

/-- The backend and the driver that the first part of a url names. -/
def ofName (name : List Char) : Except Problem (String × Driver) :=
  match Text.split (· = '+') name with
  | [backend, driver] =>
    let backend := String.ofList backend
    match ((named.lookup backend).getD []).lookup (String.ofList driver) with
    | some d => .ok (backend, d)
    | none => .error (.noDriver (String.ofList (Text.join ['.'] [backend.toList, driver])))
  | [backend] => .error (.noDriver (String.ofList backend))
  | _ => .error .longName

end Driver

namespace Url

/-- The url names a place beyond the files at hand. -/
def isDistant (u : Url) : Bool :=
  let isGiven (part : Option (List Char)) := part.any (· ≠ [])
  isGiven u.user || isGiven u.password || isGiven u.host || u.port.any (· ≠ 0)

def truthWords : List String :=
  ["true", "yes", "on", "y", "t", "1", "false", "no", "off", "n", "f", "0"]

/-- A kind of value that options have. -/
abbrev Check := List Char → Except Problem Unit

def truth : Check := fun s =>
  if truthWords.contains (String.ofList (Text.lower (Text.trim s))) then .ok ()
  else .error (.notTruth (String.ofList (Text.lower (Text.trim s))))

def number : Check := fun s =>
  if (Decimal.read? (Text.trim s)).isSome then .ok () else .error (.notNumber (String.ofList s))

def integer : Check := fun s =>
  if (integer? s).isSome then .ok () else .error (.notInteger (String.ofList s))

/-- The options that are looked at. Those for a truth value may be given more than once. -/
def checks : List (String × Bool × Check) := [
  ("uri", true, truth), ("timeout", false, number), ("detect_types", false, integer),
  ("check_same_thread", true, truth), ("cached_statements", false, integer)]

def checkOption (u : Url) : String × Bool × Check → Except Problem Unit
  | (name, many, check) =>
    match u.values name with
    | [] => .ok ()
    | [value] => check value
    | _ => if many then .ok () else .error .repeated

/-- What a database in files asks of a url. -/
def checkLocal (u : Url) : Except Problem Unit := do
  if u.isDistant then .error (.notLocal u.render)
  discard (checks.mapM u.checkOption)

/-- Looks for what keeps a url from being used, in the order in which it is noticed. -/
def check (u : Url) : Except Problem Unit := do
  if let name :: _ := u.values "plugin" then .error (.noPlugin (String.ofList name))
  let (backend, driver) ← Driver.ofName u.driver
  match driver with
  | .missing module => .error (.noModule module)
  | .other => .error .notDriver
  | .ready => if backend = "sqlite" then u.checkLocal
  | .blocking name =>
    u.checkLocal
    .error (.blocking name)

/-- The file that holds the database; none for one in memory. -/
def file? (u : Url) : Option (List Char) :=
  u.database.bind fun name => if name = [] ∨ name = ":memory:".toList then none else some name

end Url

end Conductor.Database
