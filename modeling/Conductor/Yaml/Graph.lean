import Conductor.Yaml.Tag
import Conductor.Yaml.Token

/-! The nodes of a YAML text. An alias stands for the node of its anchor itself, so a node may be part
of several others, and even of itself. -/

namespace Conductor.Yaml

/-- What a node holds; its parts are told by their numbers. -/
inductive Shape where
  | scalar (text : String)
  | seq (items : List Nat)
  | map (pairs : List (Nat × Nat))

structure Node where
  tag : Tag
  shape : Shape

/-- Nodes by their numbers. -/
structure Graph where
  nodes : Array Node
  root : Nat

/-- What stands where nothing is written. -/
def Node.empty : Node := ⟨.null, .scalar ""⟩

/-- The tokens still to read, what the handles of tags stand for, the nodes so far, and the numbers of
those that have anchors. -/
structure Growth where
  tokens : List Token
  handles : List (String × String) := []
  nodes : Array Node := #[]
  anchors : List (String × Nat) := []

abbrev Grow := StateT Growth Option

namespace Grow

def peek : Grow (Option Token) := return (← get).tokens.head?

def drop : Grow Unit := modify fun g => { g with tokens := g.tokens.drop 1 }

/-- Tells whether the next token is of a kind. -/
def sees (p : Token → Bool) : Grow Bool := return (← peek).any p

/-- Passes the next token, which must be of a kind. -/
def expect (p : Token → Bool) : Grow Unit := do
  guard (← sees p)
  drop

/-- The full name of a tag. -/
def fullTag (t : TagName) : Grow String := do
  match t.handle with
  | none => return t.suffix
  | some h =>
    match (← get).handles.lookup h with
    | some start => return start ++ t.suffix
    | none => failure

def anchor? : Grow (Option String) := do
  match ← peek with
  | some (.anchor a) => drop; return some a
  | _ => return none

def tag? : Grow (Option String) := do
  match ← peek with
  | some (.tag t) => drop; return some (← fullTag t)
  | _ => return none

/-- The anchor and the tag before a node, in either order. An anchor is used once. -/
def properties : Grow (Option String × Option String) := do
  let early ← anchor?
  let tag ← tag?
  let late ← if early.isNone && tag.isSome then anchor? else pure none
  let anchor := early <|> late
  if let some a := anchor then
    guard ((← get).anchors.lookup a).isNone
  return (anchor, tag)

/-- Gives a node the next number. -/
def add (n : Node) : Grow Nat := do
  let number := (← get).nodes.size
  modify fun g => { g with nodes := g.nodes.push n }
  return number

/-- Adds a node that has an anchor or none. -/
def addAnchored (anchor : Option String) (n : Node) : Grow Nat := do
  let number ← add n
  if let some a := anchor then
    modify fun g => { g with anchors := (a, number) :: g.anchors }
  return number

/-- Adds a collection and then reads its parts. -/
def collect {α : Type} (anchor : Option String) (tag : Tag) (shape : List α → Shape)
    (parts : Grow (List α)) : Grow Nat := do
  let number ← addAnchored anchor ⟨tag, shape []⟩
  let parts ← parts
  modify fun g => { g with nodes := g.nodes.setIfInBounds number ⟨tag, shape parts⟩ }
  return number

/-- Where a node stands. Under a key the entries of a sequence need no block of their own, and within
brackets there are no blocks. -/
inductive Position where
  | block
  | underKey
  | flow
deriving DecidableEq

def endsItem : Token → Bool
  | .blockEntry | .blockEnd => true
  | _ => false

def endsPart : Token → Bool
  | .key | .value | .blockEnd => true
  | _ => false

def endsFlowPart : Token → Bool
  | .flowEntry | .flowSequenceEnd | .flowMappingEnd => true
  | _ => false

def isValue : Token → Bool
  | .value => true
  | _ => false

def isFlowEntry : Token → Bool
  | .flowEntry => true
  | _ => false

mutual

/-- The node at the next token. -/
def node (position : Position) : Nat → Grow Nat
  | 0 => failure
  | fuel + 1 => do
    if let some (.alias a) ← peek then
      drop
      match (← get).anchors.lookup a with
      | some n => return n
      | none => failure
    let (anchor, tag) ← properties
    content position anchor tag fuel

/-- What follows the anchor and the tag of a node. A lone mark for a tag leaves a node to be what it
looks like; after an anchor or a tag the node may be empty. -/
def content (position : Position) (anchor tag : Option String) : Nat → Grow Nat
  | 0 => failure
  | fuel + 1 => do
    let kind := (tag.filter (· ≠ "!")).map Tag.ofName
    let seq := collect anchor (kind.getD .seq) Shape.seq
    let map := collect anchor (kind.getD .map) Shape.map
    match ← peek, position with
    | some .blockEntry, .underKey => seq (indentlessItems fuel)
    | some (.scalar text plain), _ =>
      drop
      let look := if plain || tag = some "!" then Tag.ofLook text else .text
      addAnchored anchor ⟨kind.getD look, .scalar text⟩
    | some .flowSequence, _ => drop; seq (flowItems true fuel)
    | some .flowMapping, _ => drop; map (flowPairs true fuel)
    | some .blockSequence, .block => drop; seq (blockItems fuel)
    | some .blockSequence, .underKey => drop; seq (blockItems fuel)
    | some .blockMapping, .block => drop; map (blockPairs fuel)
    | some .blockMapping, .underKey => drop; map (blockPairs fuel)
    | _, _ => do
      guard (anchor.isSome || tag.isSome)
      addAnchored anchor ⟨kind.getD .null, .scalar ""⟩

/-- A node, or nothing at all before a token of a kind. -/
def nodeBefore (ends : Token → Bool) (position : Position) : Nat → Grow Nat
  | 0 => failure
  | fuel + 1 => do
    if ← sees ends then return ← add .empty
    node position fuel

/-- A value after its mark; a key without the mark has none. -/
def valueBefore (ends : Token → Bool) (position : Position) : Nat → Grow Nat
  | 0 => failure
  | fuel + 1 => do
    if ← sees isValue then
      drop
      nodeBefore ends position fuel
    else add .empty

def blockItems : Nat → Grow (List Nat)
  | 0 => failure
  | fuel + 1 => do
    match ← peek with
    | some .blockEntry =>
      drop
      let item ← nodeBefore endsItem .block fuel
      return item :: (← blockItems fuel)
    | some .blockEnd => drop; return []
    | _ => failure

/-- The entries of a sequence that stands in the column of the key before it. -/
def indentlessItems : Nat → Grow (List Nat)
  | 0 => failure
  | fuel + 1 => do
    match ← peek with
    | some .blockEntry =>
      drop
      let item ← nodeBefore (fun t => endsItem t || endsPart t) .block fuel
      return item :: (← indentlessItems fuel)
    | _ => return []

def blockPairs : Nat → Grow (List (Nat × Nat))
  | 0 => failure
  | fuel + 1 => do
    match ← peek with
    | some .key =>
      drop
      let key ← nodeBefore endsPart .underKey fuel
      let value ← valueBefore endsPart .underKey fuel
      return (key, value) :: (← blockPairs fuel)
    | some .blockEnd => drop; return []
    | _ => failure

/-- A key and its value within brackets, after the mark of the key. -/
def flowPair : Nat → Grow (Nat × Nat)
  | 0 => failure
  | fuel + 1 => do
    let key ← nodeBefore (fun t => isValue t || endsFlowPart t) .flow fuel
    return (key, ← valueBefore endsFlowPart .flow fuel)

/-- The items up to the closing bracket. A pair among them is a mapping of its own. -/
def flowItems (first : Bool) : Nat → Grow (List Nat)
  | 0 => failure
  | fuel + 1 => do
    if let some .flowSequenceEnd ← peek then
      drop
      return []
    if !first then expect isFlowEntry
    match ← peek with
    | some .flowSequenceEnd => drop; return []
    | some .key =>
      drop
      let pair ← collect none .map Shape.map (do return [← flowPair fuel])
      return pair :: (← flowItems false fuel)
    | _ =>
      let item ← node .flow fuel
      return item :: (← flowItems false fuel)

/-- The pairs up to the closing brace. What is no pair is a key without a value. -/
def flowPairs (first : Bool) : Nat → Grow (List (Nat × Nat))
  | 0 => failure
  | fuel + 1 => do
    if let some .flowMappingEnd ← peek then
      drop
      return []
    if !first then expect isFlowEntry
    match ← peek with
    | some .flowMappingEnd => drop; return []
    | some .key =>
      drop
      let pair ← flowPair fuel
      return pair :: (← flowPairs false fuel)
    | _ =>
      let key ← node .flow fuel
      return (key, ← add .empty) :: (← flowPairs false fuel)

end

/-- The lines with a percent sign before a document: one version at most, which starts with 1, and
each handle once. -/
def directives (versioned : Bool) : List Token → List (String × String) →
    Option (List (String × String) × List Token)
  | .version major :: ts, handles =>
    if versioned || major.toNat? ≠ some 1 then none else directives true ts handles
  | .handle h start :: ts, handles =>
    if (handles.lookup h).isSome then none else directives versioned ts ((h, start) :: handles)
  | .otherDirective :: ts, handles => directives versioned ts handles
  | ts, handles => some (handles ++ [("!", "!"), ("!!", Tag.core)], ts)

/-- A token that a document may start with before its node. -/
def opensDocument : Token → Bool
  | .version _ | .handle _ _ | .otherDirective | .documentStart => true
  | _ => false

def isDocumentStart : Token → Bool
  | .documentStart => true
  | _ => false

def isDocumentEnd : Token → Bool
  | .documentEnd => true
  | _ => false

/-- The only document of a text. One that starts with a mark may be empty. -/
def document (fuel : Nat) : Grow Nat := do
  let explicit ← sees opensDocument
  match directives false (← get).tokens [] with
  | none => failure
  | some (handles, tokens) => modify fun g => { g with handles, tokens }
  if explicit then expect isDocumentStart
  let bare := explicit && (← peek).all fun t => opensDocument t || isDocumentEnd t
  let root ← if bare then add .empty else node .block fuel
  guard ((← get).tokens.dropWhile isDocumentEnd).isEmpty
  return root

end Grow

/-- The graph of a text; a text without a document is as good as null. -/
def Graph.read? (text : List Char) : Option Graph := do
  let tokens ← Token.scan? text
  if tokens.isEmpty then return ⟨#[.empty], 0⟩
  let (root, growth) ← Grow.document (4 * tokens.length + 4) { tokens }
  return ⟨growth.nodes, root⟩

end Conductor.Yaml
