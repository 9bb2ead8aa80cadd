import Conductor.Schema.Numeral
import Conductor.Text.Upper

/-! The commands of the command line, and how they are read from its arguments. -/

namespace Conductor

inductive Command where
  | register (path : String)
  | showWorkflow (id : String)
  | runWorkflow (id : String) (context triggeredBy : Option String)
  | listRuns (workflowId : String)
  | countRuns (workflowId : String)
  | showRun (id : String)
  | cancelRun (id : String)
  | matchAgents (task path : String) (onlineOnly : Bool) (limit : Option Int)
  | suggest (task : String)
deriving Repr, DecidableEq

/-- Why arguments are no command. -/
inductive Refusal where
  | usage
  | unknownLevel (name : String)
deriving Repr, DecidableEq

/-- The options of a command: those with a value, and those without. -/
structure OptionNames where
  valued : List String
  flags : List String

/-- Arguments put in order: the options with their values, and the rest. -/
structure Arguments where
  options : List (String × String)
  words : List String
deriving Repr, DecidableEq

namespace Arguments

def addOption (name value : String) (a : Arguments) : Arguments :=
  { a with options := (name, value) :: a.options }

def addWord (word : String) (a : Arguments) : Arguments := { a with words := word :: a.words }

/-- The last value given to an option. -/
def value? (a : Arguments) (name : String) : Option String :=
  (a.options.reverse.find? (·.1 = name)).map (·.2)

/-- The one word that is to be given. -/
def onlyWord? (a : Arguments) : Option String :=
  match a.words with
  | [word] => some word
  | _ => none

/-- An argument that starts with a hyphen, and is more than that. -/
def isOption (arg : String) : Bool :=
  match arg.toList with
  | '-' :: _ :: _ => true
  | _ => false

/-- The name of an option, and the value after an equals sign. -/
def cut (arg : String) : String × Option String :=
  let (name, rest) := arg.toList.span (· ≠ '=')
  (String.ofList name,
    match rest with
    | [] => none
    | _ :: value => some (String.ofList value))

/-- Puts arguments in order. Two hyphens end the options; so does the first word, if what follows it
belongs to a command within the command. -/
def sort (s : OptionNames) (nested : Bool) : List String → Option Arguments
  | [] => some ⟨[], []⟩
  | arg :: rest =>
    if arg = "--" then some ⟨[], rest⟩
    else if isOption arg then
      let (name, value) := cut arg
      if s.valued.contains name then
        match value, rest with
        | some value, rest => (sort s nested rest).map (addOption name value)
        | none, value :: rest => (sort s nested rest).map (addOption name value)
        | none, [] => none
      else if s.flags.contains name && value.isNone then
        (sort s nested rest).map (addOption name "")
      else none
    else if nested then some ⟨[], arg :: rest⟩
    else (sort s nested rest).map (addWord arg)

end Arguments

namespace Command

/-- Tells whether the last of two opposite flags is the first one. -/
def switched (a : Arguments) (on off : String) : Bool :=
  (a.options.reverse.find? fun o => o.1 = on || o.1 = off).any (·.1 = on)

/-- A command that takes one word and no options. -/
def plain (make : String → Command) (args : List String) : Option Command :=
  (Arguments.sort ⟨[], []⟩ false args).bind fun a => a.onlyWord?.map make

def runOf (args : List String) : Option Command := do
  let a ← Arguments.sort ⟨["--context", "--triggered-by"], []⟩ false args
  return .runWorkflow (← a.onlyWord?) (a.value? "--context") (a.value? "--triggered-by")

def matchOf (args : List String) : Option Command := do
  let a ← Arguments.sort ⟨["--agents", "--limit"], ["--online-only", "--no-online-only"]⟩ false args
  let limit ← match a.value? "--limit" with
    | none => pure none
    | some text => (Numeral.integer text.toList).toOption.map some
  return .matchAgents (← a.onlyWord?) (← a.value? "--agents")
    (switched a "--online-only" "--no-online-only") limit

abbrev Group := List (String × (List String → Option Command))

/-- The commands, by group and name. -/
def groups : List (String × Group) := [
  ("workflow", [
    ("register", plain .register), ("show", plain .showWorkflow), ("run", runOf),
    ("runs", plain .listRuns), ("stats", plain .countRuns)]),
  ("run", [("show", plain .showRun), ("cancel", plain .cancelRun)]),
  ("agent", [("match", matchOf), ("suggest", plain .suggest)])]

def ofGroup (group : Group) (args : List String) : Option Command := do
  let a ← Arguments.sort ⟨[], []⟩ true args
  match a.words with
  | [] => none
  | name :: rest => (← group.lookup name) rest

/-- The levels of the log. -/
def levels : List String :=
  ["CRITICAL", "FATAL", "ERROR", "WARN", "WARNING", "INFO", "DEBUG", "NOTSET"]

/-- The command that arguments spell. The level of the log is looked at once the group is known. -/
def ofArguments (args : List String) : Except Refusal Command :=
  match Arguments.sort ⟨["--log-level"], []⟩ true args with
  | none => .error .usage
  | some a =>
    match a.words with
    | [] => .error .usage
    | name :: rest =>
      match groups.lookup name with
      | none => .error .usage
      | some group =>
        let level := String.ofList (Text.upper ((a.value? "--log-level").getD "WARNING").toList)
        if !levels.contains level then .error (.unknownLevel level)
        else match ofGroup group rest with
          | some command => .ok command
          | none => .error .usage

end Command

end Conductor
