import Conductor.Decimal.Reader
import Conductor.Expression.Template
import Conductor.Fault

/-! Conditions: one comparison of a path with a literal, or a path whose value counts as true. -/

namespace Conductor

inductive Operator where
  | strictEq
  | strictNe
  | eq
  | ne
  | ge
  | le
  | gt
  | lt
deriving Repr, DecidableEq

namespace Operator

def symbol : Operator → List Char
  | .strictEq => ['=', '=', '=']
  | .strictNe => ['!', '=', '=']
  | .eq => ['=', '=']
  | .ne => ['!', '=']
  | .ge => ['>', '=']
  | .le => ['<', '=']
  | .gt => ['>']
  | .lt => ['<']

/-- The order in which operators are looked for, so that a longer one comes before its parts. -/
def all : List Operator := [.strictEq, .strictNe, .eq, .ne, .ge, .le, .gt, .lt]

/-- The operators that compare numbers. -/
def isOrder : Operator → Bool
  | .ge | .le | .gt | .lt => true
  | _ => false

end Operator

inductive Condition where
  | comparison (op : Operator) (path literal : List Char)
  | bare (path : List Char)
deriving Repr, DecidableEq

namespace Condition

def isQuote (c : Char) : Bool := c == '\'' || c == '"'

/-- Takes one quote off each end, whichever it is. -/
def stripQuotes (s : List Char) : List Char :=
  let s := match s with
    | c :: t => if isQuote c then t else c :: t
    | [] => []
  match s.getLast? with
  | some c => if isQuote c then s.dropLast else s
  | none => s

/-- The first operator of the list that occurs anywhere cuts the text, at its first occurrence. -/
def ofText (s : List Char) : Condition :=
  match Operator.all.findSome? fun op => (Text.cut? op.symbol s).map fun r => (op, r) with
  | some (op, left, right) => .comparison op (Text.trim left) (stripQuotes (Text.trim right))
  | none => .bare (Text.trim s)

def notANumber : Float := 0.0 / 0.0

/-- The number that a text stands for: none is 0, and what is no numeral is no number. -/
def numberOfText (s : List Char) : Float :=
  match Text.trim s with
  | [] => 0.0
  | t => (Decimal.read? t).getD notANumber

/-- The number that a value stands for. Only an integer beyond the doubles has none. -/
def number? : Option Json → Option Float
  | none => some notANumber
  | some .null => some 0.0
  | some (.bool b) => some (if b then 1.0 else 0.0)
  | some (.int n) => Decimal.ofInt? n
  | some (.float x) => some x
  | some (.str s) => some (numberOfText s.toList)
  | some (.arr _) => some notANumber
  | some (.obj _) => some notANumber

def compare (op : Operator) (a b : Float) : Bool :=
  match op with
  | .ge => a ≥ b
  | .le => a ≤ b
  | .gt => a > b
  | .lt => a < b
  | _ => false

def holds (context : Json) : Condition → Except Fault Bool
  | .bare path => (Path.lookup context path).map Json.truthy
  | .comparison op path literal =>
    match op, Path.resolve? context path with
    | _, .error f => .error f
    | .strictEq, .ok left | .eq, .ok left => .ok (displayOrEmpty left == literal)
    | .strictNe, .ok left | .ne, .ok left => .ok (displayOrEmpty left != literal)
    | op, .ok left =>
      match number? left with
      | none => .error .integerTooLarge
      | some x => .ok (compare op x (numberOfText literal))

end Condition

/-- Tells whether the condition that a text spells holds in a context. -/
def evaluate (context : Json) (expression : String) : Except Fault Bool :=
  (Condition.ofText expression.toList).holds context

end Conductor
