import Conductor.Database.Problem
import Conductor.Decimal.Reader
import Conductor.Text.Percent
import Conductor.Text.Word

/-! Urls of databases: a driver, a user with a password, a host with a port, the name of the database,
and options. Every part but the first may be missing. -/

namespace Conductor.Database

structure Url where
  driver : List Char
  user : Option (List Char)
  password : Option (List Char)
  host : Option (List Char)
  port : Option Int
  database : Option (List Char)
  /-- Options, each as often as it is given. -/
  options : List (List Char × List Char)
deriving Repr, DecidableEq

namespace Url

/-- What stands before and after the last occurrence of a character. -/
def cutLast? (c : Char) (s : List Char) : Option (List Char × List Char) :=
  let (after, before) := s.reverse.span (· ≠ c)
  match before with
  | [] => none
  | _ :: before => some (before.reverse, after.reverse)

/-- The name of the driver, and what follows the two slashes. -/
def cutDriver? (s : List Char) : Option (List Char × List Char) :=
  match s.span fun c => Text.isWord c || c = '+' with
  | (c :: name, ':' :: '/' :: '/' :: rest) => some (c :: name, rest)
  | _ => none

/-- A user without a password, who ends at the last at sign before any colon or slash. -/
def cutName (s : List Char) : Option (List Char) × List Char :=
  let (segment, rest) := s.span fun c => c ≠ ':' && c ≠ '/'
  match cutLast? '@' segment with
  | some (user, tail) => (some user, tail ++ rest)
  | none => (none, s)

/-- The user, the password, and the rest. A password ends at the first at sign. -/
def cutUser (s : List Char) : Option (List Char) × Option (List Char) × List Char :=
  match s.span fun c => c ≠ ':' && c ≠ '/' with
  | (user, ':' :: more) =>
    match more.span (· ≠ '@') with
    | (password, _ :: rest) => (some user, some password, rest)
    | (_, []) => let (user, rest) := cutName s; (user, none, rest)
  | _ => let (user, rest) := cutName s; (user, none, rest)

def cutPlainHost (s : List Char) : Option (List Char) × List Char :=
  match s.span fun c => c ≠ ':' && c ≠ '/' && c ≠ '?' with
  | ([], rest) => (none, rest)
  | (host, rest) => (some host, rest)

/-- The host and the rest. In brackets a host may hold colons. -/
def cutHost (s : List Char) : Option (List Char) × List Char :=
  match s.span fun c => c ≠ '/' && c ≠ '?' with
  | ('[' :: inner, rest) =>
    match cutLast? ']' inner with
    | some (c :: host, tail) => (some (c :: host), tail ++ rest)
    | _ => cutPlainHost s
  | _ => cutPlainHost s

/-- What follows a mark, up to a character of a class, and the rest; nothing without the mark. -/
def cutAfter (mark : Char) (stop : Char → Bool) : List Char → Option (List Char) × List Char
  | c :: s => if c = mark then let (part, rest) := s.span (! stop ·); (some part, rest) else (none, c :: s)
  | [] => (none, [])

/-- The integer that a text spells. -/
def integer? (s : List Char) : Option Int :=
  let trimmed := Text.trimBy Text.isWhite (Decimal.asciiDigits s)
  (Decimal.dropUnderscores? false trimmed).bind fun s =>
    let (negative, digits) := Decimal.takeSign s
    match Decimal.takeDigits 0 0 digits with
    | (n, _ + 1, []) => some (if negative then -(n : Int) else n)
    | _ => none

def portOf : Option (List Char) → Except Problem (Option Int)
  | none => .ok none
  | some [] => .error .emptyPort
  | some text =>
    match integer? text with
    | some n => .ok (some n)
    | none => .error (.notPort (String.ofList text))

/-- An option with its value; one without a value does not count. -/
def optionOf (s : List Char) : Option (List Char × List Char) :=
  match s.span (· ≠ '=') with
  | (name, _ :: c :: value) => some (Text.unescapePlus name, Text.unescapePlus (c :: value))
  | _ => none

def optionsOf (s : List Char) : List (List Char × List Char) :=
  (Text.split (· = '&') s).filterMap optionOf

/-- The url that a text spells. What does not belong to any part is passed over. -/
def parse (s : List Char) : Except Problem Url := do
  match cutDriver? s with
  | none => .error .unreadable
  | some (driver, rest) =>
    let (user, password, rest) := cutUser rest
    let (host, rest) := cutHost rest
    let (port, rest) := cutAfter ':' (fun c => c = '/' || c = '?') rest
    let (database, rest) := cutAfter '/' (· = '?') rest
    let (query, _) := cutAfter '?' (· = '\n') rest
    return ⟨driver, user.map Text.unescape, password.map Text.unescape, host, ← portOf port, database,
      optionsOf (query.getD [])⟩

/-- The values that an option is given. -/
def values (u : Url) (name : String) : List (List Char) :=
  (u.options.filter (·.1 = name.toList)).map (·.2)

/-- The options by name, those of one name in order. -/
def sortedOptions (u : Url) : List (List Char × List Char) :=
  u.options.mergeSort fun a b => !(String.ofList b.1 < String.ofList a.1)

/-- The url in writing, with stars for the password. -/
def render (u : Url) : String :=
  let user := match u.user with
    | some name =>
      let stars := if u.password.isSome then ":***".toList else []
      Text.escape [' ', '+'] name ++ stars ++ ['@']
    | none => []
  let host := match u.host with
    | some host => if host.contains ':' then '[' :: host ++ [']'] else host
    | none => []
  let port := match u.port with
    | some port => ':' :: (toString port).toList
    | none => []
  let database := match u.database with
    | some name => '/' :: name
    | none => []
  let options := match u.sortedOptions with
    | [] => []
    | options => '?' :: Text.join ['&'] (options.map fun o =>
      Text.escapePlus o.1 ++ '=' :: Text.escapePlus o.2)
  String.ofList (u.driver ++ "://".toList ++ user ++ host ++ port ++ database ++ options)

end Url

end Conductor.Database
