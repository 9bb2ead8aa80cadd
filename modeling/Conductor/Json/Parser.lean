import Conductor.Decimal.Reader
import Conductor.Json.Basic

/-! Reading JSON texts. A failure is told with the part of the text that was still to be read, from
which its position follows. -/

namespace Conductor.Json

inductive Reason where
  | value
  | comma
  | colon
  | key
  | extra
  | control
  | escape
  | unicode
  | unterminated
  | byteOrderMark
  /-- An integer with more digits than can be read. -/
  | longInteger (digits : Nat)
  /-- A list, or else an object, inside too many others. -/
  | depth (list : Bool)
deriving Repr, DecidableEq

def Reason.text : Reason → String
  | .value => "Expecting value"
  | .comma => "Expecting ',' delimiter"
  | .colon => "Expecting ':' delimiter"
  | .key => "Expecting property name enclosed in double quotes"
  | .extra => "Extra data"
  | .control => "Invalid control character at"
  | .escape => "Invalid \\escape"
  | .unicode => "Invalid \\uXXXX escape"
  | .unterminated => "Unterminated string starting at"
  | .byteOrderMark => "Unexpected UTF-8 BOM (decode using utf-8-sig)"
  | .longInteger n => Decimal.tooLong n
  | .depth list =>
    let kind := if list then "array" else "object"
    s!"maximum recursion depth exceeded while decoding a JSON {kind} from a unicode string"

/-- The nesting is too deep. -/
def Reason.isDepth : Reason → Bool
  | .depth _ => true
  | _ => false

/-- The text is no JSON; the other failures are limits of the reader. -/
def Reason.isGrammar : Reason → Bool
  | .longInteger _ | .depth _ => false
  | _ => true

structure Failure where
  reason : Reason
  /-- The text from the place of the failure on. -/
  rest : List Char
deriving Repr, DecidableEq

/-- The reason with line, column and offset of its place in the whole text. -/
def Failure.message (whole : List Char) (f : Failure) : String :=
  if f.reason.isGrammar then
    let offset := whole.length - f.rest.length
    let before := whole.take offset
    let line := before.count '\n' + 1
    let column := (before.reverse.takeWhile (· != '\n')).length + 1
    s!"{f.reason.text}: line {line} column {column} (char {offset})"
  else f.reason.text

abbrev Step (α : Type) := Except Failure (α × List Char)

def fail {α : Type} (reason : Reason) (rest : List Char) : Except Failure α :=
  .error ⟨reason, rest⟩

def isSpace (c : Char) : Bool := c = ' ' || c = '\t' || c = '\n' || c = '\r'

def skip (s : List Char) : List Char := s.dropWhile isSpace

def hex? (c : Char) : Option Nat :=
  if c.isDigit then some (c.toNat - 48)
  else if 'a' ≤ c ∧ c ≤ 'f' then some (c.toNat - 87)
  else if 'A' ≤ c ∧ c ≤ 'F' then some (c.toNat - 55)
  else none

/-- Four hexadecimal digits. -/
def unit? (a b c d : Char) : Option Nat := do
  let a ← hex? a
  let b ← hex? b
  let c ← hex? c
  let d ← hex? d
  return ((a * 16 + b) * 16 + c) * 16 + d

def isHighUnit (u : Nat) : Bool := 0xD800 ≤ u && u < 0xDC00
def isLowUnit (u : Nat) : Bool := 0xDC00 ≤ u && u < 0xE000

/-- The character of a unit; half of a pair stands for no character and gives the replacement. -/
def charOfUnit (u : Nat) : Char :=
  if isHighUnit u || isLowUnit u then '\ufffd' else Char.ofNat u

def charOfPair (high low : Nat) : Char :=
  Char.ofNat (0x10000 + (high - 0xD800) * 1024 + (low - 0xDC00))

def simpleEscape? (c : Char) : Option Char :=
  match c with
  | '"' => some '"'
  | '\\' => some '\\'
  | '/' => some '/'
  | 'b' => some '\x08'
  | 'f' => some '\x0c'
  | 'n' => some '\n'
  | 'r' => some '\r'
  | 't' => some '\t'
  | _ => none

def push (c : Char) (r : Step (List Char)) : Step (List Char) :=
  r.map fun r => (c :: r.1, r.2)

/-- The second half of a pair after the unit `high`, if it is there; one more character must follow. -/
def pairRest (high : Nat) (s : List Char) : Step Char :=
  match s with
  | '\\' :: 'u' :: a :: b :: c :: d :: x :: t =>
    match unit? a b c d with
    | none => fail .unicode ('u' :: a :: b :: c :: d :: x :: t)
    | some low => if isLowUnit low then .ok (charOfPair high low, x :: t) else .ok (charOfUnit high, s)
  | _ => .ok (charOfUnit high, s)

/-- The character that an escape stands for, `s` being what follows its backslash. The escape of a
unit must not be the last thing in the text. -/
def escaped (start s : List Char) : Step Char :=
  match s with
  | [] => fail .unterminated start
  | 'u' :: a :: b :: c :: d :: x :: t =>
    match unit? a b c d with
    | none => fail .unicode s
    | some u => if isHighUnit u then pairRest u (x :: t) else .ok (charOfUnit u, x :: t)
  | 'u' :: _ => fail .unicode s
  | c :: t =>
    match simpleEscape? c with
    | none => fail .escape ('\\' :: s)
    | some x => .ok (x, t)

theorem length_pairRest {high : Nat} {s t : List Char} {c : Char}
    (h : pairRest high s = .ok (c, t)) : t.length ≤ s.length := by
  unfold pairRest at h
  split at h
  · split at h
    · cases h
    · split at h
      · obtain ⟨_, rfl⟩ := Prod.mk.inj (Except.ok.inj h)
        simp only [List.length_cons]
        omega
      · obtain ⟨_, rfl⟩ := Prod.mk.inj (Except.ok.inj h)
        exact Nat.le_refl _
  · obtain ⟨_, rfl⟩ := Prod.mk.inj (Except.ok.inj h)
    exact Nat.le_refl _

theorem length_escaped {start s t : List Char} {c : Char}
    (h : escaped start s = .ok (c, t)) : t.length < s.length := by
  unfold escaped at h
  split at h
  · cases h
  · split at h
    · cases h
    · split at h
      · have hrest := length_pairRest h
        simp only [List.length_cons] at hrest ⊢
        omega
      · obtain ⟨_, rfl⟩ := Prod.mk.inj (Except.ok.inj h)
        simp only [List.length_cons]
        omega
  · cases h
  · split at h
    · cases h
    · obtain ⟨_, rfl⟩ := Prod.mk.inj (Except.ok.inj h)
      exact Nat.lt_succ_self _

/-- The rest of a string whose opening quote begins `start`. -/
def stringRest (start s : List Char) : Step (List Char) :=
  match s with
  | [] => fail .unterminated start
  | c :: t =>
    if c = '"' then .ok ([], t)
    else if c = '\\' then
      match h : escaped start t with
      | .error f => .error f
      | .ok (x, rest) =>
        have : rest.length < t.length := length_escaped h
        push x (stringRest start rest)
    else if c.toNat < 32 then fail .control s
    else push c (stringRest start t)
termination_by s.length

def digitsOf (s : List Char) : List Char × List Char := s.span Char.isDigit

/-- The fraction of a number, its point included; empty unless a digit follows the point. -/
def fractionOf : List Char → List Char × List Char
  | '.' :: s =>
    match digitsOf s with
    | ([], _) => ([], '.' :: s)
    | (ds, rest) => ('.' :: ds, rest)
  | s => ([], s)

/-- The exponent of a number, its letter included; empty unless it holds a digit. -/
def exponentOf : List Char → List Char × List Char
  | [] => ([], [])
  | c :: s =>
    if c = 'e' ∨ c = 'E' then
      let (sign, t) := match s with
        | '+' :: t => (['+'], t)
        | '-' :: t => (['-'], t)
        | t => ([], t)
      match digitsOf t with
      | ([], _) => ([], c :: s)
      | (ds, rest) => (c :: sign ++ ds, rest)
    else ([], c :: s)

/-- Whole digits without a needless zero before them. -/
def wholeOf : List Char → List Char × List Char
  | '0' :: s => (['0'], s)
  | s => digitsOf s

/-- A number that begins the text `start`; `negative` tells that its sign is before `s`. -/
def unsignedNumber (start : List Char) (negative : Bool) (s : List Char) : Step Json :=
  match wholeOf s with
  | ([], _) => fail .value start
  | (whole, rest) =>
    let (fraction, rest) := fractionOf rest
    let (exponent, rest) := exponentOf rest
    if fraction.isEmpty && exponent.isEmpty then
      if Decimal.maxDigits < whole.length then fail (.longInteger whole.length) start
      else
        let n := (Decimal.takeDigits 0 0 whole).1
        .ok (.int (if negative then -(n : Int) else n), rest)
    else
      match Decimal.unsigned? (whole ++ fraction ++ exponent) with
      | some x => .ok (.float (Decimal.signed negative x), rest)
      | none => fail .value start

def infinity : Float := Float.ofBits (UInt64.ofNat Decimal.infinityBits)

/-- A value that is no string, list or object. -/
def scalar (s : List Char) : Step Json :=
  match s with
  | 'n' :: 'u' :: 'l' :: 'l' :: s => .ok (.null, s)
  | 't' :: 'r' :: 'u' :: 'e' :: s => .ok (.bool true, s)
  | 'f' :: 'a' :: 'l' :: 's' :: 'e' :: s => .ok (.bool false, s)
  | 'N' :: 'a' :: 'N' :: s => .ok (.float (0.0 / 0.0), s)
  | 'I' :: 'n' :: 'f' :: 'i' :: 'n' :: 'i' :: 't' :: 'y' :: s => .ok (.float infinity, s)
  | '-' :: 'I' :: 'n' :: 'f' :: 'i' :: 'n' :: 'i' :: 't' :: 'y' :: s => .ok (.float (-infinity), s)
  | '-' :: t => unsignedNumber s true t
  | _ => unsignedNumber s false s

/-- How deep lists and objects may be nested. -/
def maxDepth : Nat := 960

mutual

/-- A value at the start of a text, inside of `depth` lists and objects. Each level of nesting takes a
character and two units of fuel. -/
def value (depth : Nat) : Nat → List Char → Step Json
  | 0, s => fail .value s
  | fuel + 1, s =>
    match s with
    | '"' :: t => (stringRest s t).map fun r => (.str (String.ofList r.1), r.2)
    | '[' :: t =>
      if maxDepth ≤ depth then fail (.depth true) s
      else
        match skip t with
        | ']' :: t => .ok (.arr [], t)
        | t => (items (depth + 1) fuel t).map fun r => (.arr r.1, r.2)
    | '\x7b' :: t =>
      if maxDepth ≤ depth then fail (.depth false) s
      else
        match skip t with
        | '\x7d' :: t => .ok (.obj [], t)
        | t => (fields (depth + 1) fuel t).map fun r => (.obj (Table.ofList r.1), r.2)
    | s => scalar s

/-- Items of a list up to its closing bracket, at least one. -/
def items (depth : Nat) : Nat → List Char → Step (List Json)
  | 0, s => fail .value s
  | fuel + 1, s =>
    match value depth fuel s with
    | .error f => .error f
    | .ok (v, t) =>
      match skip t with
      | ']' :: t => .ok ([v], t)
      | ',' :: t => (items depth fuel (skip t)).map fun r => (v :: r.1, r.2)
      | t => fail .comma t

/-- Fields of an object up to its closing brace, at least one. -/
def fields (depth : Nat) : Nat → List Char → Step (List (String × Json))
  | 0, s => fail .value s
  | fuel + 1, s =>
    match s with
    | '"' :: t =>
      match stringRest s t with
      | .error f => .error f
      | .ok (key, t) =>
        match skip t with
        | ':' :: t =>
          match value depth fuel (skip t) with
          | .error f => .error f
          | .ok (v, t) =>
            match skip t with
            | '\x7d' :: t => .ok ([(String.ofList key, v)], t)
            | ',' :: t => (fields depth fuel (skip t)).map fun r => ((String.ofList key, v) :: r.1, r.2)
            | t => fail .comma t
        | t => fail .colon t
    | s => fail .key s

end

/-- The value of a whole text. -/
def parse (s : List Char) : Except Failure Json :=
  if s.head? = some '\ufeff' then fail .byteOrderMark s
  else
    match value 0 (2 * s.length + 2) (skip s) with
    | .error f => .error f
    | .ok (v, t) => if skip t = [] then .ok v else fail .extra (skip t)

end Conductor.Json
