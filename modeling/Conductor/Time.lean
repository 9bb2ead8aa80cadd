import Conductor.Decimal.Style

/-! Points in time and their written forms. -/

namespace Conductor

structure Time where
  /-- Microseconds since the start of 1970. -/
  micros : Int
  /-- The written form ends with the offset from UTC. -/
  zoned : Bool
deriving Repr, DecidableEq

/-- A day of the Gregorian calendar. -/
structure Day where
  year : Int
  month : Nat
  day : Nat
deriving Repr, DecidableEq

namespace Day

/-- The day `n` days after the start of 1970. Eras of 400 years begin on the first of March, so that
the leap day ends a year. -/
def ofCount (n : Int) : Day :=
  let shifted := n + 719468
  let era := shifted.fdiv 146097
  let dayOfEra := (shifted.fmod 146097).toNat
  let yearOfEra := (dayOfEra - dayOfEra / 1460 + dayOfEra / 36524 - dayOfEra / 146096) / 365
  let dayOfYear := dayOfEra - (365 * yearOfEra + yearOfEra / 4 - yearOfEra / 100)
  let monthFromMarch := (5 * dayOfYear + 2) / 153
  let day := dayOfYear - (153 * monthFromMarch + 2) / 5 + 1
  let month := if monthFromMarch < 10 then monthFromMarch + 3 else monthFromMarch - 9
  let year := (yearOfEra : Int) + era * 400 + (if month ≤ 2 then 1 else 0)
  ⟨year, month, day⟩

end Day

namespace Time

/-- The start of 2024, with its offset. -/
def start : Time := ⟨1704067200000000, true⟩

/-- The time some milliseconds later. -/
def after (t : Time) (ms : Int) : Time := { t with micros := t.micros + ms * 1000 }

/-- The same time without its offset. -/
def unzoned (t : Time) : Time := { t with zoned := false }

def render (separator : Char) (t : Time) : List Char :=
  let day := Day.ofCount (t.micros.fdiv 86400000000)
  let rest := (t.micros.fmod 86400000000).toNat
  let seconds := rest / 1000000
  let micros := rest % 1000000
  Decimal.padded 4 day.year.toNat ++ '-' :: Decimal.padded 2 day.month ++ '-' ::
    Decimal.padded 2 day.day ++ separator :: Decimal.padded 2 (seconds / 3600) ++ ':' ::
    Decimal.padded 2 (seconds / 60 % 60) ++ ':' :: Decimal.padded 2 (seconds % 60) ++
    (if micros = 0 then [] else '.' :: Decimal.padded 6 micros) ++
    (if t.zoned then "+00:00".toList else [])

/-- The form with a `T` between day and hour. -/
def iso (t : Time) : String := String.ofList (t.render 'T')

/-- The form with a blank between day and hour. -/
def spaced (t : Time) : String := String.ofList (t.render ' ')

end Time

end Conductor
