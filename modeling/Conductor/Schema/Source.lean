import Conductor.Yaml.Value

/-! What readers read: JSON values and YAML values, seen one level at a time. -/

namespace Conductor

open Yaml (Atom)

inductive Source where
  | json (v : Json)
  | yaml (v : Yaml.Value)
  | list (items : List Source)
  | record (fields : List (String × Source))

/-- One level of a value. -/
inductive View where
  | atom (a : Atom)
  | list (items : List Source)
  | map (entries : List (Atom × Source))

namespace Source

def ofCollection (v : Yaml.Value) : Yaml.Collection → View
  | .list items => .list (items.map fun i => .yaml (v.part i))
  | .pairs items => .list (items.map fun p => .list [.yaml (v.part p.1), .yaml (v.part p.2)])
  | .set members => .list (members.map fun a => .yaml (v.part (.atom a)))
  | .map entries => .map (entries.map fun e => (e.1, .yaml (v.part e.2)))

def view : Source → View
  | .json .null => .atom .null
  | .json (.bool b) => .atom (.bool b)
  | .json (.int n) => .atom (.int n)
  | .json (.float x) => .atom (.float x)
  | .json (.str s) => .atom (.text s)
  | .json (.arr items) => .list (items.map .json)
  | .json (.obj fields) => .map (fields.map fun e => (.text e.1, .json e.2))
  | .yaml v =>
    match v.root with
    | .atom a => .atom a
    | .collection n => ofCollection v (v.collections[n]?.getD (.list []))
  | .list items => .list items
  | .record fields => .map (fields.map fun e => (.text e.1, e.2))

mutual

/-- The JSON form. -/
def toJson : Source → Json
  | .json v => v
  | .yaml v => v.toJson
  | .list items => .arr (itemsToJson items)
  | .record fields => .obj (fieldsToJson fields)

def itemsToJson : List Source → List Json
  | [] => []
  | v :: vs => toJson v :: itemsToJson vs

def fieldsToJson : List (String × Source) → List (String × Json)
  | [] => []
  | (key, v) :: fields => (key, toJson v) :: fieldsToJson fields

end

mutual

/-- What keeps a value from being written down. -/
def flaw? : Source → Option Yaml.Flaw
  | .json _ => none
  | .yaml v => v.flaw?
  | .list items => flawIn? items
  | .record fields => flawInFields? fields

def flawIn? : List Source → Option Yaml.Flaw
  | [] => none
  | v :: vs => (flaw? v).orElse fun _ => flawIn? vs

def flawInFields? : List (String × Source) → Option Yaml.Flaw
  | [] => none
  | (_, v) :: fields => (flaw? v).orElse fun _ => flawInFields? fields

end

def isNull (v : Source) : Bool :=
  match v.view with
  | .atom .null => true
  | _ => false

/-- What counts as true: everything but null, false, zero and what is empty. -/
def truthy (v : Source) : Bool :=
  match v.view with
  | .atom a => a.truthy
  | .list items => !items.isEmpty
  | .map entries => !entries.isEmpty

/-- The entries of a mapping whose keys are texts. -/
def fieldsOf (entries : List (Atom × Source)) : Table Source :=
  entries.filterMap fun e =>
    match e.1 with
    | .text key => some (key, e.2)
    | _ => none

theorem fieldsOf_text (fields : Table Json) :
    fieldsOf (fields.map fun e => (.text e.1, .json e.2)) = fields.map fun e => (e.1, .json e.2) := by
  induction fields with
  | nil => rfl
  | cons e fields ih =>
    rw [fieldsOf] at ih
    simp [fieldsOf, ih]

end Source

end Conductor
