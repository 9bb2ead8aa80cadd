import Conductor.Yaml.Core
import Conductor.Yaml.Graph
import Conductor.Yaml.Value

/-! The value of a YAML text. Atoms are read as soon as they are met; the parts of collections are read
later, first come, first served, so that a collection may be part of itself. -/

namespace Conductor.Yaml

/-- The nodes, what was made of them so far, and the collections whose parts are still to be read, the
last one first. -/
structure Build where
  nodes : Array Node
  made : Array (Option Item)
  collections : Array Collection
  waiting : List Nat

abbrev Building := StateT Build (Except Failure)

namespace Building

def fail {α : Type} (f : Failure) : Building α := throw f

def node (number : Nat) : Building Node := return (← get).nodes[number]?.getD .empty

/-- The pairs of a mapping; what is no mapping has none. -/
def pairsOf (number : Nat) : Building (List (Nat × Nat)) := do
  match (← node number).shape with
  | .map pairs => return pairs
  | _ => return []

def isMapping (number : Nat) : Building Bool := do
  match (← node number).shape with
  | .map _ => return true
  | _ => return false

def setNode (number : Nat) (n : Node) : Building Unit :=
  modify fun b => { b with nodes := b.nodes.setIfInBounds number n }

def setPairs (number : Nat) (pairs : List (Nat × Nat)) : Building Unit := do
  setNode number ⟨(← node number).tag, .map pairs⟩

/-- The text of a scalar, or of the default value of a mapping. -/
def textOf : Nat → Nat → Building String
  | 0, _ => fail .malformed
  | fuel + 1, number => do
    match (← node number).shape with
    | .scalar text => return text
    | .seq _ => fail .malformed
    | .map pairs =>
      match ← pairs.findM? fun p => return (← node p.1).tag = .default with
      | some p => textOf fuel p.2
      | none => fail .malformed

def isCollection : Tag → Bool
  | .seq | .map | .set | .pairs => true
  | _ => false

def bound : Building Nat := return (← get).nodes.size + 1

/-- What a node stands for. The parts of a collection have to wait. -/
def item (number : Nat) : Building Item := do
  match (← get).made[number]? with
  | some (some i) => return i
  | _ =>
    let tag := (← node number).tag
    if isCollection tag then
      modify fun b => { b with
        made := b.made.setIfInBounds number (some (.collection number))
        waiting := number :: b.waiting }
      return .collection number
    else
      let text ← textOf (← bound) number
      if tag = .time && (← isMapping number) then fail .timeOfMapping
      match Core.atom tag text with
      | .error f => fail f
      | .ok a =>
        modify fun b => { b with made := b.made.setIfInBounds number (some (.atom a)) }
        return .atom a

/-- Puts the pairs that are merged into a mapping before its own ones; of several mappings merged at
once the last comes first. The key of a default value becomes a text. -/
def flatten : Nat → Nat → Building Unit
  | 0, _ => fail .malformed
  | fuel + 1, number => do
    let pairs ← pairsOf number
    let tags ← pairs.mapM fun p => return (← node p.1).tag
    let tagged := pairs.zip tags
    setPairs number ((tagged.filter (·.2 ≠ .merge)).map (·.1))
    for (p, tag) in tagged do
      if tag = .default then setNode p.1 ⟨.text, (← node p.1).shape⟩
    let one := fun n => do
      flatten fuel n
      pairsOf n
    let merged ← (tagged.filter (·.2 = .merge)).mapM fun ((_, value), _) => do
      match (← node value).shape with
      | .map _ => one value
      | .scalar _ => fail .malformed
      | .seq items =>
        let parts ← items.mapM fun n => do
          if ← isMapping n then one n else fail .malformed
        return parts.reverse.flatten
    if merged.flatten ≠ [] then setPairs number (merged.flatten ++ (← pairsOf number))

/-- Writes the item of a key, in its place if the key is there. -/
def put (entries : List (Atom × Item)) (key : Atom) (i : Item) : List (Atom × Item) :=
  match entries with
  | [] => [(key, i)]
  | e :: entries => if e.1.sameKey key then (e.1, i) :: entries else e :: put entries key i

/-- The entries of a mapping, with those merged in. A collection is no key. -/
def entriesOf (number : Nat) : Building (List (Atom × Item)) := do
  flatten (← bound) number
  (← pairsOf number).foldlM (fun entries (key, value) => do
    match ← item key with
    | .collection _ => fail .malformed
    | .atom key => return put entries key (← item value)) []

/-- The only pair of a mapping. -/
def pairOf (number : Nat) : Building (Item × Item) := do
  match (← node number).shape with
  | .map [(key, value)] =>
    let key ← item key
    return (key, ← item value)
  | _ => fail .malformed

/-- Reads the parts of a collection. -/
def fill (number : Nat) : Building Unit := do
  let n ← node number
  let c ← match n.tag, n.shape with
    | .seq, .seq items => pure (.list (← items.mapM item))
    | .map, .map _ => pure (.map (← entriesOf number))
    | .set, .map _ => pure (.set ((← entriesOf number).map (·.1)))
    | .pairs, .seq items => pure (.pairs (← items.mapM pairOf))
    | _, _ => fail .malformed
  modify fun b => { b with collections := b.collections.setIfInBounds number c }

/-- Reads the parts of all collections that wait, and of those that come to wait meanwhile. -/
def fillAll : Nat → Building Unit
  | 0 => pure ()
  | fuel + 1 => do
    let waiting := (← get).waiting.reverse
    if waiting ≠ [] then
      modify fun b => { b with waiting := [] }
      waiting.forM fill
      fillAll fuel

end Building

namespace Value

def ofGraph (g : Graph) : Except Failure Value := do
  let start : Build := ⟨g.nodes, g.nodes.map fun _ => none, g.nodes.map fun _ => .list [], []⟩
  let (root, b) ← (do
    let root ← Building.item g.root
    Building.fillAll (g.nodes.size + 1)
    return root : Building Item).run start
  return ⟨root, b.collections⟩

/-- The value that a text spells. A text with more than one document spells none. -/
def read (text : List Char) : Except Failure Value :=
  match Graph.read? text with
  | some g => ofGraph g
  | none => .error .malformed

end Value

end Conductor.Yaml
