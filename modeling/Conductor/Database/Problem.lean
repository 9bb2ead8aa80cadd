import Conductor.Json.Plain

/-! Why a url leads to no database. -/

namespace Conductor.Database

inductive Problem where
  /-- The text is no url. -/
  | unreadable
  | notPort (text : String)
  | emptyPort
  /-- The name of a driver has more than two parts. -/
  | longName
  | noDriver (name : String)
  | noPlugin (name : String)
  /-- The name stands for something that is no driver. -/
  | notDriver
  /-- A driver needs a module that is not there. -/
  | noModule (name : String)
  /-- A driver that makes the program wait. -/
  | blocking (name : String)
  /-- A database in a file has no user and no host. -/
  | notLocal (url : String)
  | notTruth (text : String)
  | notInteger (text : String)
  | notNumber (text : String)
  /-- An option that is to be given once is given again. -/
  | repeated
deriving Repr, DecidableEq

def quoted (s : String) : String := String.ofList (Json.plainQuote s.toList)

def Problem.message : Problem → String
  | .unreadable => "Could not parse SQLAlchemy URL from given URL string"
  | .notPort text | .notInteger text => s!"invalid literal for int() with base 10: {quoted text}"
  | .emptyPort => "Port argument must be an integer or None"
  | .longName => "too many values to unpack (expected 2)"
  | .noDriver name => s!"Can't load plugin: sqlalchemy.dialects:{name}"
  | .noPlugin name => s!"Can't load plugin: sqlalchemy.plugins:{name}"
  | .notDriver => "The name stands for no driver"
  | .noModule name => s!"No module named {quoted name}"
  | .blocking name =>
    "The asyncio extension requires an async driver to be used. The loaded " ++
      s!"{quoted name} is not async."
  | .notLocal url =>
    s!"Invalid SQLite URL: {url}\nValid SQLite URL forms are sqlite:///:memory: or " ++
      "sqlite:////absolute/path/to/file.db"
  | .notTruth text => s!"String is not true/false: {quoted text}"
  | .notNumber text => s!"could not convert string to float: {quoted text}"
  | .repeated => "An option is given more than once"

end Conductor.Database
