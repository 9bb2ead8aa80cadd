import Conductor.Decimal.Reader
import Conductor.Decimal.Style
import Conductor.Yaml.Failure

/-! Days and points in time as scalars spell them: `2024-01-31`, `2024-01-31 18:30:00.5 +2`. -/

namespace Conductor.Yaml

/-- The hour of a day and its parts; the offset from UTC is in minutes. -/
structure Clock where
  hour : Nat
  minute : Nat
  second : Nat
  micros : Nat
  offset : Option Int
deriving Repr, DecidableEq

/-- A day, or a point in time. -/
structure Moment where
  year : Nat
  month : Nat
  day : Nat
  clock : Option Clock
deriving Repr, DecidableEq

namespace Moment

/-- A number of at least `low` and at most `high` digits, with the rest. -/
def digits? (low high : Nat) (s : List Char) : Option (Nat × List Char) :=
  let ds := (s.takeWhile Char.isDigit).take high
  if ds.length < low then none else some ((Decimal.takeDigits 0 0 ds).1, s.drop ds.length)

/-- Passes a character. -/
def pass? (c : Char) : List Char → Option (List Char)
  | [] => none
  | d :: s => if d = c then some s else none

def isSpace (c : Char) : Bool := c = ' ' || c = '\t'

/-- What stands between day and hour: a letter, or blanks. -/
def gap? (s : List Char) : Option (List Char) :=
  match s with
  | 'T' :: s | 't' :: s => some s
  | c :: s => if isSpace c then some (s.dropWhile isSpace) else none
  | [] => none

/-- Six digits of a fraction, with the rest of the text. -/
def fraction : List Char → Nat × List Char
  | '.' :: s =>
    let ds := (s.takeWhile Char.isDigit).take 6
    ((Decimal.takeDigits 0 0 (ds ++ List.replicate (6 - ds.length) '0')).1, s.dropWhile Char.isDigit)
  | s => (0, s)

/-- The offset that ends a text. -/
def offset? (s : List Char) : Option (Option Int) :=
  if s = [] then some none
  else
    match s.dropWhile isSpace with
    | ['Z'] => some (some 0)
    | c :: s => do
      guard (c = '+' || c = '-')
      let (hours, s) ← digits? 1 2 s
      let minutes ←
        if s = [] then some 0
        else match ← digits? 2 2 (← pass? ':' s) with
          | (n, []) => some n
          | _ => none
      let total : Int := 60 * hours + minutes
      return some (if c = '-' then -total else total)
    | [] => none

/-- What a text spells by its form alone; the parts may be out of range. -/
def ofText? (s : List Char) : Option Moment := do
  let (year, s) ← digits? 4 4 s
  let (month, s) ← digits? 1 2 (← pass? '-' s)
  let (day, s) ← digits? 1 2 (← pass? '-' s)
  if s = [] then return ⟨year, month, day, none⟩
  let (hour, s) ← digits? 1 2 (← gap? s)
  let (minute, s) ← digits? 2 2 (← pass? ':' s)
  let (second, s) ← digits? 2 2 (← pass? ':' s)
  let (micros, s) := fraction s
  return ⟨year, month, day, some ⟨hour, minute, second, micros, ← offset? s⟩⟩

/-- Tells whether a scalar looks like a time. A day alone has all its digits. -/
def looksLike (s : List Char) : Bool :=
  (ofText? s).any fun m => m.clock.isSome || s.length = 10

def isLeap (year : Nat) : Bool := year % 4 = 0 && (year % 100 ≠ 0 || year % 400 = 0)

def daysOf (year month : Nat) : Nat :=
  if month = 2 then (if isLeap year then 29 else 28)
  else if month ∈ [4, 6, 9, 11] then 30 else 31

/-- The first thing that is wrong with a moment. An offset is looked at before all else. -/
def flaw? (m : Moment) : Option TimeFlaw :=
  let offset := (m.clock.bind Clock.offset).getD 0
  if 1440 ≤ offset.natAbs then some (.offset offset)
  else if m.year = 0 then some (.year 0)
  else if m.month = 0 || 12 < m.month then some .month
  else if m.day = 0 || daysOf m.year m.month < m.day then some .day
  else m.clock.bind fun c =>
    if 23 < c.hour then some .hour
    else if 59 < c.minute then some .minute
    else if 59 < c.second then some .second
    else none

/-- The time that a text spells; a line feed may follow it. -/
def read (s : List Char) : Except Failure Moment :=
  match ofText? (if s.getLast? = some '\n' then s.dropLast else s) with
  | none => .error .notTime
  | some m =>
    match m.flaw? with
    | some flaw => .error (.impossibleTime flaw)
    | none => .ok m

def renderOffset (minutes : Int) : List Char :=
  if minutes = 0 then ['Z']
  else
    (if minutes < 0 then '-' else '+') :: Decimal.padded 2 (minutes.natAbs / 60) ++
      ':' :: Decimal.padded 2 (minutes.natAbs % 60)

def renderClock (c : Clock) : List Char :=
  'T' :: Decimal.padded 2 c.hour ++ ':' :: Decimal.padded 2 c.minute ++ ':' ::
    Decimal.padded 2 c.second ++
    (if c.micros = 0 then [] else '.' :: Decimal.padded 6 c.micros) ++
    ((c.offset.map renderOffset).getD [])

/-- The ISO form. -/
def render (m : Moment) : String :=
  String.ofList (Decimal.padded 4 m.year ++ '-' :: Decimal.padded 2 m.month ++ '-' ::
    Decimal.padded 2 m.day ++ (m.clock.map renderClock).getD [])

/-- The days from the start of the year 1 to a day, that day included. -/
def dayNumber (m : Moment) : Nat :=
  let before := m.year - 1
  365 * before + before / 4 - before / 100 + before / 400 +
    (List.range (m.month - 1)).foldl (fun days i => days + daysOf m.year (i + 1)) m.day

/-- The microseconds from the start of the year 1 by a clock. -/
def instant (m : Moment) (c : Clock) : Int :=
  let minutes : Int := (m.dayNumber * 24 + c.hour) * 60 + c.minute - c.offset.getD 0
  (minutes * 60 + c.second) * 1000000 + c.micros

/-- Two times with an offset are the same if they are the same instant. -/
def same (m n : Moment) : Bool :=
  match m.clock, n.clock with
  | some c, some d =>
    if c.offset.isSome && d.offset.isSome then m.instant c = n.instant d else m = n
  | _, _ => m = n

def zoneText (offset : Int) : String :=
  if offset = 0 then "datetime.timezone.utc" else s!"datetime.timezone({spanText offset})"

/-- How a moment is told apart from a text: by its kind and its parts. -/
def parts (m : Moment) : String :=
  match m.clock with
  | none => s!"datetime.date({m.year}, {m.month}, {m.day})"
  | some c =>
    let seconds := if c.micros ≠ 0 then s!", {c.second}, {c.micros}"
      else if c.second ≠ 0 then s!", {c.second}" else ""
    let zone := match c.offset with
      | some offset => s!", tzinfo={zoneText offset}"
      | none => ""
    s!"datetime.datetime({m.year}, {m.month}, {m.day}, {c.hour}, {c.minute}{seconds}{zone})"

end Moment

end Conductor.Yaml
