import Conductor.Decimal.Reader
import Conductor.Json.Plain

/-! Why a text spells no YAML value. -/

namespace Conductor.Yaml

/-- A span of minutes as whole days, which may be negative, and seconds on top. -/
def spanText (minutes : Int) : String :=
  let seconds := minutes.fmod 1440 * 60
  let days := minutes.fdiv 1440
  let parts := (if days = 0 then [] else [s!"days={days}"]) ++
    (if seconds = 0 then [] else [s!"seconds={seconds}"])
  let inner := if parts = [] then "0" else ", ".intercalate parts
  s!"datetime.timedelta({inner})"

/-- What is wrong with the parts of a point in time. -/
inductive TimeFlaw where
  | year (n : Nat)
  | month
  | day
  | hour
  | minute
  | second
  /-- An offset of a day or more, in minutes. -/
  | offset (minutes : Int)
deriving Repr, DecidableEq

inductive Failure where
  /-- The text is no YAML, or a tag does not fit what it is on. -/
  | malformed
  | notInteger (base : Nat) (text : String)
  /-- An integer has more digits than can be read. -/
  | longInteger (digits : Nat)
  | emptyNumber
  | notNumber (text : String)
  /-- A number of base 60 has more places than a double holds. -/
  | longNumber
  | notTruth (text : String)
  /-- A text with the tag of a time is none. -/
  | notTime
  /-- A mapping with the tag of a time. -/
  | timeOfMapping
  | impossibleTime (flaw : TimeFlaw)
deriving Repr, DecidableEq

namespace TimeFlaw

def message : TimeFlaw → String
  | .year n => s!"year {n} is out of range"
  | .month => "month must be in 1..12"
  | .day => "day is out of range for month"
  | .hour => "hour must be in 0..23"
  | .minute => "minute must be in 0..59"
  | .second => "second must be in 0..59"
  | .offset minutes =>
    "offset must be a timedelta strictly between -timedelta(hours=24) and timedelta(hours=24), not " ++
      spanText minutes ++ "."

end TimeFlaw

namespace Failure

def quoted (text : String) : String := String.ofList (Json.plainQuote text.toList)

def message : Failure → String
  | .malformed => "The text could not be parsed"
  | .notInteger base text => s!"invalid literal for int() with base {base}: {quoted text}"
  | .longInteger digits => Decimal.tooLong digits
  | .emptyNumber => "string index out of range"
  | .notNumber text => s!"could not convert string to float: {quoted text}"
  | .longNumber => "int too large to convert to float"
  | .notTruth text => quoted text
  | .notTime => "The text is no time"
  | .timeOfMapping => "A mapping is no time"
  | .impossibleTime flaw => flaw.message

end Failure

end Conductor.Yaml
