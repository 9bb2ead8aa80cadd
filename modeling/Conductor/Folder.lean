import Conductor.Fault
import Conductor.Table
import Conductor.Text.Line

/-! A folder of texts, found by their paths. A path is walked name by name: each name but the last must
lead to a folder, and two points lead out of one. -/

namespace Conductor

abbrev Folder := Table String

namespace Folder

/-- The names from the folder to a place, without detours. A place outside starts with two points for
each folder to leave, or with the slash of an absolute path. -/
abbrev Way := List (List Char)

/-- The name that leads out of a folder. -/
def out : List Char := ['.', '.']

/-- A point alone leads nowhere. -/
def isHere (name : List Char) : Bool := name = [] || name = ['.']

/-- The names along a path. -/
def names (path : String) : List (List Char) :=
  (Text.split (· = '/') path.toList).filter (! isHere ·)

/-- What a path starts with: two slashes are kept as they are, any other number of them is one. -/
def root (path : String) : List Char :=
  match (path.toList.takeWhile (· = '/')).length with
  | 0 => []
  | 2 => ['/', '/']
  | _ => ['/']

/-- The shortest way to write a path. -/
def plain (path : String) : String :=
  let text := root path ++ Text.join ['/'] (names path)
  if text = [] then "." else String.ofList text

/-- What follows the last point of the name at the end of a path. A point at either end of the name
does not count. -/
def suffix (path : String) : String :=
  let name := (names path).getLast?.getD []
  let ending := (name.reverse.takeWhile (· ≠ '.')).reverse
  if ending = [] ∨ name.length ≤ ending.length + 1 then "" else String.ofList ending

/-- Where a path starts. -/
def start (path : String) : Way := if root path = [] then [] else [['/']]

/-- The way out of the folder at a place. -/
def outOf (way : Way) : Way :=
  match way.getLast? with
  | some name => if name = out then way ++ [out] else if name = ['/'] then way else way.dropLast
  | none => [out]

/-- The way along a path, if there is no file on it. -/
def wayOf (path : String) : Way :=
  (names path).foldl (fun way name => if name = out then outOf way else way ++ [name]) (start path)

/-- The text at the end of a way; of several the last one. -/
def textAt? (d : Folder) (way : Way) : Option String :=
  (List.find? (fun file => wayOf file.1 = way) d.reverse).map (·.2)

/-- The folder itself, one that it is in, or one on the way to a text. -/
def isFolder (d : Folder) (way : Way) : Bool :=
  way.all (fun name => name = out || name = ['/']) ||
    List.any d fun file => way.isPrefixOf (wayOf file.1) && wayOf file.1 != way

/-- What is at a place. -/
inductive Entry where
  | text (content : String)
  | folder (way : Way)

/-- The bytes that a name may take. -/
def maxName : Nat := 255

/-- The bytes that a path may take. -/
def maxPath : Nat := 4095

/-- Goes on by one name of a path. -/
def enter (d : Folder) (path : String) : Entry → List Char → Except Fault Entry
  | .text _, _ => .error (.notFolder path)
  | .folder way, name =>
    if isHere name then .ok (.folder way)
    else if name = out then .ok (.folder (outOf way))
    else if maxName < (String.ofList name).utf8ByteSize then .error (.longPath path)
    else match d.textAt? (way ++ [name]) with
      | some content => .ok (.text content)
      | none =>
        if d.isFolder (way ++ [name]) then .ok (.folder (way ++ [name]))
        else .error (.noSuchFile path)

/-- What a path leads to. -/
def find (d : Folder) (path : String) : Except Fault Entry :=
  if path.toList.contains '\x00' then .error .nullCharacter
  else if path = "" then .error (.noSuchFile path)
  else if maxPath < path.utf8ByteSize then .error (.longPath path)
  else (Text.split (· = '/') path.toList).foldlM (d.enter path) (.folder (start path))

/-- Something is at the path. A path that is too long cannot be looked up. -/
def has (d : Folder) (path : String) : Except Fault Bool :=
  match d.find path with
  | .ok _ => .ok true
  | .error (.longPath path) => .error (.longPath path)
  | .error _ => .ok false

def read (d : Folder) (path : String) : Except Fault (List Char) := do
  match ← d.find path with
  | .text content => return Text.lineFeeds content.toList
  | .folder _ => .error (.isFolder path)

end Folder

end Conductor
