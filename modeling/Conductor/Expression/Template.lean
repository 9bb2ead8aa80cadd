import Conductor.Expression.Path
import Conductor.Json.Parser
import Conductor.Json.Render

/-! Templates: texts with markers `{{ path }}` that stand for values of a context. -/

namespace Conductor

/-- How a value shows in a text. Whole doubles lose their point. Limits on digits and depth hold where a text
is parsed and where an index is read, not here: each value shows, also an integer of more than 4300 digits. -/
def Json.display : Json → List Char
  | .null => "null".toList
  | .bool true => "true".toList
  | .bool false => "false".toList
  | .int n => Decimal.intDigits n
  | .float x =>
    match Decimal.toInt? x with
    | some n => Decimal.intDigits n
    | none => Decimal.render Decimal.Style.text x
  | .str s => s.toList
  | .arr items => (Json.arr items).render
  | .obj fields => (Json.obj fields).render

/-- What is not there shows as nothing. -/
def displayOrEmpty : Option Json → List Char
  | none => []
  | some v => v.display

namespace Template

/-- The marker that a text begins with: what it holds, and the text after it. -/
def marker? : List Char → Option (List Char × List Char)
  | '\x7b' :: '\x7b' :: s =>
    match s.takeWhile (· ≠ '\x7d'), s.dropWhile (· ≠ '\x7d') with
    | c :: inner, '\x7d' :: '\x7d' :: rest => some (c :: inner, rest)
    | _, _ => none
  | _ => none

theorem length_marker? {s inner rest : List Char} (h : marker? s = some (inner, rest)) :
    rest.length < s.length := by
  unfold marker? at h
  split at h
  · rename_i t
    split at h
    · rename_i hd
      injection h with h
      injection h with _ h
      subst h
      have hle : (t.dropWhile (· ≠ '\x7d')).length ≤ t.length := (List.dropWhile_sublist _).length_le
      rw [hd] at hle
      simp at hle ⊢
      omega
    · simp at h
  · simp at h

inductive Piece where
  | plain (c : Char)
  | marker (inner : List Char)
deriving Repr, DecidableEq

/-- A template cut from left to right into markers and the characters between them. -/
def pieces (s : List Char) : List Piece :=
  match s with
  | [] => []
  | c :: t =>
    match _h : marker? (c :: t) with
    | some (inner, rest) => .marker inner :: pieces rest
    | none => .plain c :: pieces t
termination_by s.length
decreasing_by
  · exact length_marker? _h
  · exact Nat.lt_succ_self _

def Piece.fill (context : Json) : Piece → Except Fault (List Char)
  | .plain c => .ok [c]
  | .marker inner => (Path.resolve? context (Text.trim inner)).map displayOrEmpty

/-- The template with every marker replaced by the display of the value that it names. -/
def fill (context : Json) (template : List Char) : Except Fault (List Char) :=
  ((pieces template).mapM (Piece.fill context)).map List.flatten

def fillText (context : Json) (template : String) : Except Fault String :=
  (fill context template.toList).map String.ofList

/-- The value with the markers in its texts replaced, by way of its JSON text. -/
def fillValue (context v : Json) : Except Fault Json :=
  match fill context v.render with
  | .error f => .error f
  | .ok text =>
    match Json.parse text with
    | .ok v => .ok v
    | .error f => .error (.unreadable text f)

end Template

end Conductor
