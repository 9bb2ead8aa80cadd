import Conductor.Json.Plain
import Conductor.Schema.Numeral
import Conductor.Schema.Source

/-! Readers of fields. They accept what clearly spells the wanted kind: a number may come as a text,
a switch as a word; a text is never made from anything else but bytes. -/

namespace Conductor

open Yaml (Atom)

abbrev Reader (α : Type) := Source → Checked α

namespace Reader

variable {α : Type}

def any : Reader Json := fun v => .ok v.toJson

/-- A reader of atoms; a collection has the problem that an atom of a wrong kind has. -/
def ofAtom (wrongKind : Problem) (r : Atom → Checked α) : Reader α := fun v =>
  match v.view with
  | .atom a => r a
  | _ => .problem wrongKind

/-- What bytes spell, read as a text; bytes that spell no text have the problem of such a text. -/
def ofBytes (unreadable : Problem) (r : String → Checked α) (b : List UInt8) : Checked α :=
  match Atom.textOf? b with
  | some s => r s
  | none => .problem unreadable

def text : Reader String := ofAtom .notText fun
  | .text s => .ok s
  | .bytes b => ofBytes .notUnicode .ok b
  | _ => .problem .notText

/-- One of a list of words, each with its meaning. -/
def oneOf (words : List (String × α)) : Reader α := ofAtom .notOneOf fun
  | .text s =>
    match Table.get? words s with
    | some a => .ok a
    | none => .problem .notOneOf
  | _ => .problem .notOneOf

/-- The integer that a double is, within 64 bits. -/
def integerOfDouble (x : Float) : Checked Int :=
  if !Decimal.isFinite x then .problem .notFinite
  else
    match Decimal.toInt? x with
    | none => .problem .fractionalInteger
    | some n => if n.natAbs < Decimal.twoTo 63 then .ok n else .problem .hugeInteger

def integer : Reader Int := ofAtom .notInteger fun
  | .int n => .ok n
  | .bool b => .ok (if b then 1 else 0)
  | .float x => integerOfDouble x
  | .text s => Numeral.integer s.toList
  | .bytes b => ofBytes .unreadableInteger (fun s => Numeral.integer s.toList) b
  | _ => .problem .notInteger

def doubleOfText (s : String) : Checked Float :=
  match Numeral.double? s.toList with
  | some x => .ok x
  | none => .problem .unreadableNumber

def double : Reader Float := ofAtom .notNumber fun
  | .float x => .ok x
  | .int n =>
    match Decimal.ofInt? n with
    | some x => .ok x
    | none => .problem .notNumber
  | .bool b => .ok (if b then 1.0 else 0.0)
  | .text s => doubleOfText s
  | .bytes b => ofBytes .unreadableNumber doubleOfText b
  | _ => .problem .notNumber

/-- The words for a switch, in any case. -/
def switchWords : List (String × Bool) := [
  ("0", false), ("off", false), ("f", false), ("false", false), ("n", false), ("no", false),
  ("1", true), ("on", true), ("t", true), ("true", true), ("y", true), ("yes", true)]

/-- Tells whether an integer has 64 bits. -/
def isShort (n : Int) : Bool := -Decimal.twoTo 63 ≤ n && n < Decimal.twoTo 63

def switchOfInt (n : Int) : Checked Bool :=
  if n = 0 then .ok false
  else if n = 1 then .ok true
  else .problem (if isShort n then .unreadableBool else .notBool)

def switchOfText (s : String) : Checked Bool :=
  match Table.get? switchWords (String.ofList (s.toList.map Char.toLower)) with
  | some b => .ok b
  | none => .problem .unreadableBool

def switch : Reader Bool := ofAtom .notBool fun
  | .bool b => .ok b
  | .int n => switchOfInt n
  | .float x =>
    match integerOfDouble x with
    | .ok n => switchOfInt n
    | .bad _ => .problem .notBool
  | .text s => switchOfText s
  | .bytes b => ofBytes .unreadableBool switchOfText b
  | _ => .problem .notBool

/-- Null for none. -/
def nullable (r : Reader α) : Reader (Option α) := fun v =>
  if v.isNull then .ok none else some <$> r v

/-- Items one after the other, from position `i` on. -/
def itemsFrom (r : Reader α) (i : Nat) : List Source → Checked (List α)
  | [] => .ok []
  | v :: vs => List.cons <$> (r v).inside (.index i) <*> itemsFrom r (i + 1) vs

def list (r : Reader α) : Reader (List α) := fun v =>
  match v.view with
  | .list items => itemsFrom r 0 items
  | _ => .problem .notList

/-- The place of an entry. An integer of 64 bits stands for itself, another key for its text. -/
def placeOf : Atom → Place
  | .text s => .field s
  | .bool b => .key (if b then 1 else 0)
  | .int n => if isShort n then .key n else .field (Json.plain (.int n))
  | a => .field a.shown

/-- An issue with the key of an entry is put inside the entry. -/
def keyMark : Place := .field "[key]"

/-- Entries one after the other; of a repeated key the last value counts. -/
def entries (r : Reader α) : List (Atom × Source) → Checked (Table α)
  | [] => .ok []
  | (key, v) :: rest =>
    (fun key a t => (key, a) :: t) <$>
      ((text (.yaml ⟨.atom key, #[]⟩)).inside keyMark).inside (placeOf key) <*>
      (r v).inside (placeOf key) <*> entries r rest

/-- A mapping with texts for keys and values of one kind. -/
def dict (r : Reader α) : Reader (Table α) := fun v =>
  match v.view with
  | .map es => Table.ofList <$> entries r es
  | _ => .problem .notDict

/-- A record that is read field by field. Entries under other keys than texts are passed over. -/
def model (r : Table Source → Checked α) : Reader α := fun v =>
  match v.view with
  | .map es => r (Source.fieldsOf es)
  | _ => .problem .notModel

end Reader

/-- A field that must be there. -/
def required {α : Type} (fields : Table Source) (key : String) (r : Reader α) : Checked α :=
  match Table.get? fields key with
  | some v => (r v).inside (.field key)
  | none => .bad [⟨.missing, [.field key]⟩]

/-- A field with a default, which is not looked at. -/
def optional {α : Type} (fields : Table Source) (key : String) (default : α) (r : Reader α) :
    Checked α :=
  match Table.get? fields key with
  | some v => (r v).inside (.field key)
  | none => .ok default

/-- A text that may be missing or null. -/
def optionalText (fields : Table Source) (key : String) : Checked (Option String) :=
  optional fields key none (Reader.nullable Reader.text)

end Conductor
