import Conductor.Table

/-! JSON values. Integers and doubles are told apart, and objects keep the order of their keys. -/

namespace Conductor

inductive Json where
  | null
  | bool (b : Bool)
  | int (n : Int)
  | float (x : Float)
  | str (s : String)
  | arr (items : List Json)
  | obj (fields : List (String × Json))
deriving Inhabited

namespace Json

/-- The value of a key; nothing when the value is no object or lacks the key. -/
def field? : Json → String → Option Json
  | .obj fields, key => Table.get? fields key
  | _, _ => none

def isNull : Json → Bool
  | .null => true
  | _ => false

/-- What counts as true: everything but null, false, zero and what is empty. -/
def truthy : Json → Bool
  | .null => false
  | .bool b => b
  | .int n => n != 0
  | .float x => x != 0.0
  | .str s => s != ""
  | .arr items => !items.isEmpty
  | .obj fields => !fields.isEmpty

/-- The value is a certain text. -/
def isText : Json → String → Bool
  | .str s, text => s = text
  | _, _ => false

/-- An optional text, with null for none. -/
def ofText? : Option String → Json
  | none => .null
  | some s => .str s

end Json

end Conductor
