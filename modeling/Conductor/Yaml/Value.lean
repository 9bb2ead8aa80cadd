import Conductor.Yaml.Atom

/-! The values that YAML texts spell. Collections are told by numbers, so that one may be part of several
others, and even of itself. -/

namespace Conductor.Yaml

inductive Item where
  | atom (a : Atom)
  | collection (number : Nat)
deriving Inhabited

inductive Collection where
  | list (items : List Item)
  | pairs (items : List (Item × Item))
  | set (members : List Atom)
  | map (entries : List (Atom × Item))

/-- What keeps a value from being written down. -/
inductive Flaw where
  /-- Some part of it contains itself. -/
  | loop
  /-- Bytes in it spell no text. -/
  | notText (bytes : List UInt8)

structure Value where
  root : Item
  collections : Array Collection

namespace Value

/-- Another value among the same collections. -/
def part (v : Value) (i : Item) : Value := { v with root := i }

/-- The JSON form of an item. Every key becomes a text, and a set a list. What contains itself is cut
off; `path` holds the collections around. -/
def jsonOf (v : Value) : Nat → List Nat → Item → Json
  | _, _, .atom a => a.toJson
  | 0, _, .collection _ => .null
  | fuel + 1, path, .collection n =>
    if path.contains n then .null
    else
      let inner := v.jsonOf fuel (n :: path)
      match v.collections[n]? with
      | none => .null
      | some (.list items) => .arr (items.map inner)
      | some (.pairs items) => .arr (items.map fun p => .arr [inner p.1, inner p.2])
      | some (.set members) => .arr (members.map Atom.toJson)
      | some (.map entries) => .obj (Table.ofList (entries.map fun e => (e.1.keyText, inner e.2)))

/-- The JSON form of a value that does not contain itself. -/
def toJson (v : Value) : Json := v.jsonOf (v.collections.size + 1) [] v.root

/-- What keeps an atom from being written down. -/
def flawOf : Atom → Option Flaw
  | .bytes b => if (Atom.textOf? b).isSome then none else some (.notText b)
  | _ => none

/-- What keeps an item from being written down, at the first place where there is something. -/
def flawFrom (v : Value) : Nat → List Nat → Item → Option Flaw
  | _, _, .atom a => flawOf a
  | 0, _, .collection _ => some .loop
  | fuel + 1, path, .collection n =>
    if path.contains n then some .loop
    else
      let inner := v.flawFrom fuel (n :: path)
      match v.collections[n]? with
      | none => none
      | some (.list items) => items.findSome? inner
      | some (.pairs items) => items.findSome? fun p => (inner p.1).orElse fun _ => inner p.2
      | some (.set members) => members.findSome? flawOf
      | some (.map entries) => entries.findSome? fun e => (flawOf e.1).orElse fun _ => inner e.2

/-- What keeps a value from being written down. -/
def flaw? (v : Value) : Option Flaw := v.flawFrom (v.collections.size + 1) [] v.root

end Value

end Conductor.Yaml
