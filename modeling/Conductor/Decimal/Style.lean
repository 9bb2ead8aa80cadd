import Conductor.Decimal.Shortest

/-! Written forms of doubles. -/

namespace Conductor.Decimal

/-- Where plain positional writing begins and ends, as exponents of the first digit, and the names of
what is no number. -/
structure Style where
  positionalFrom : Int
  positionalBelow : Int
  nan : String
  infinity : String

namespace Style

/-- The form used in plain text. -/
def text : Style := ⟨-4, 16, "nan", "inf"⟩

/-- The form used inside JSON texts. -/
def json : Style := ⟨-4, 16, "NaN", "Infinity"⟩

end Style

/-- The digits of a natural number. -/
def natDigits (n : Nat) : List Char := Nat.toDigits 10 n

def intDigits (n : Int) : List Char :=
  if n < 0 then '-' :: natDigits n.natAbs else natDigits n.natAbs

/-- A number text of at least `width` digits. -/
def padded (width n : Nat) : List Char :=
  List.replicate (width - (natDigits n).length) '0' ++ natDigits n

namespace Digits

/-- Positional writing, with at least one digit on each side of the point. -/
def positional (ds : List Char) (exponent : Int) : List Char :=
  let point : Int := ds.length + exponent
  if point ≤ 0 then ['0', '.'] ++ List.replicate (-point).toNat '0' ++ ds
  else if exponent ≥ 0 then ds ++ List.replicate exponent.toNat '0' ++ ['.', '0']
  else ds.take point.toNat ++ '.' :: ds.drop point.toNat

/-- One digit before the point, and an exponent with its sign and at least two digits. -/
def scientific (ds : List Char) (e : Int) : List Char :=
  (match ds with
    | [] => []
    | [d] => [d]
    | d :: rest => d :: '.' :: rest) ++
  ['e', if e < 0 then '-' else '+'] ++ padded 2 e.natAbs

def render (style : Style) (d : Digits) : List Char :=
  let ds := natDigits d.digits
  let first := ds.length + d.exponent - 1
  if style.positionalFrom ≤ first ∧ first < style.positionalBelow then
    positional ds d.exponent
  else scientific ds first

end Digits

/-- The shortest text that reads back as the double. -/
def render (style : Style) (x : Float) : List Char :=
  if x.isNaN then style.nan.toList
  else
    let sign := if isNegative x then ['-'] else []
    if !isFinite x then sign ++ style.infinity.toList
    else
      let p := Parts.ofFloat x
      sign ++ (if p.significand = 0 then ['0', '.', '0'] else (shortest p).render style)

/-- A double with two decimals; the exact value is rounded, a half to the even neighbour. -/
def twoPlaces (x : Float) : List Char :=
  if x.isNaN then Style.text.nan.toList
  else
    let sign := if isNegative x then ['-'] else []
    if !isFinite x then sign ++ Style.text.infinity.toList
    else
      let p := Parts.ofFloat x
      let hundredths := roundDiv (p.num * 100) p.den
      sign ++ natDigits (hundredths / 100) ++ '.' :: padded 2 (hundredths % 100)

end Conductor.Decimal
