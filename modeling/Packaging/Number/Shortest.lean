import Packaging.Number.Double

/-! # Shortest decimals
The shortest decimal that reads back as a given double-precision number, and of several such the one
nearest to it. Candidates are tried by their number of digits: on each decimal grid only the two
neighbours of the number can be nearest to it. -/

namespace Packaging.Double

/-- A positive decimal: its digits as a number without trailing zeros, and the position of the point
counted from before the first digit. -/
structure Decimal where
  /-- The digits. -/
  digits : Nat
  /-- The place of the point: `digits` read as a fraction below one, times ten to this power. -/
  point : Int
  deriving DecidableEq

/-- The numbers that round to a positive finite number form an interval around it. All three numbers
are numerators over the common denominator. -/
structure Interval where
  /-- The least number of the interval, or its bound. -/
  low : Nat
  /-- The number itself. -/
  value : Nat
  /-- The greatest number of the interval, or its bound. -/
  high : Nat
  /-- The common denominator. -/
  den : Nat
  /-- Whether the bounds belong to the interval. -/
  closed : Bool

/-- The interval of a positive finite number. Below a power of two the gap is half as wide. -/
def interval (significand : Nat) (exponent : Int) : Interval :=
  let below := if significand = leastNormal ∧ minExponent < exponent then 1 else 2
  let (low, den) := scale (4 * significand - below) 1 (exponent - 2)
  let (value, _) := scale (4 * significand) 1 (exponent - 2)
  let (high, _) := scale (4 * significand + 2) 1 (exponent - 2)
  { low, value, high, den, closed := significand % 2 = 0 }

/-- Whether a quotient lies in an interval. -/
def Interval.holds (i : Interval) (num den : Nat) : Bool :=
  let (a, b, c) := (i.low * den, num * i.den, i.high * den)
  if i.closed then a ≤ b && b ≤ c else a < b && b < c

/-- The place of the point of a positive quotient's first digit. -/
def pointOf (num den : Nat) : Int :=
  let guess : Int := ((Nat.toDigits 10 num).length : Int) - ((Nat.toDigits 10 den).length : Int)
  let reaches (p : Int) : Bool :=
    match p with
    | .ofNat k => den * tenTo k ≤ num
    | .negSucc k => den ≤ num * tenTo (k + 1)
  if reaches guess then guess + 1 else guess

/-- The candidate with a given number of digits: of the two neighbours on that grid that lie in the
interval, the nearer one, and on a tie the one with the even last digit. -/
def candidate? (i : Interval) (point : Int) (count : Nat) : Option Decimal :=
  let unit : Int := point - (count : Int)
  let (unitNum, unitDen) : Nat × Nat :=
    match unit with
    | .ofNat k => (tenTo k, 1)
    | .negSucc k => (1, tenTo (k + 1))
  let lower := i.value * unitDen / (i.den * unitNum)
  let twiceRest := 2 * (i.value * unitDen % (i.den * unitNum))
  let upper := lower + 1
  let fits (n : Nat) : Bool := n != 0 && i.holds (n * unitNum) unitDen
  let nearest :=
    if twiceRest < i.den * unitNum then lower
    else if i.den * unitNum < twiceRest then upper
    else lower + lower % 2
  let other := if nearest = lower then upper else lower
  if fits nearest then some ⟨nearest, point⟩
  else if fits other then some ⟨other, point⟩
  else none

/-- The shortest decimal of a positive finite number. Seventeen digits always suffice. -/
def shortest (significand : Nat) (exponent : Int) : Decimal :=
  let i := interval significand exponent
  let point := pointOf i.value i.den
  let found := (List.range 17).findSome? fun k => (candidate? i point (k + 1)).map (·, k + 1)
  match found with
  | some (d, count) =>
    if d.digits = tenTo count then ⟨1, point + 1⟩ else d
  | none => ⟨i.value / i.den, point⟩

/-- How decimals are written. -/
structure DecimalStyle where
  /-- Points at or left of this place are written with an exponent. -/
  leastPoint : Int
  /-- Points right of this place are written with an exponent. -/
  greatestPoint : Int
  /-- Exponents have at least this many digits. -/
  exponentDigits : Nat

/-- Points from four places left of the digits to sixteen places right are written positionally, and
exponents have two digits or more. -/
def shown : DecimalStyle := ⟨-4, 16, 2⟩

/-- The text of a positive decimal. -/
def Decimal.text (n : DecimalStyle) (d : Decimal) : Text :=
  let digits := Text.ofNat d.digits
  let zeros (k : Nat) : Text := List.replicate k (CodePoint.ofChar '0')
  if n.leastPoint < d.point ∧ d.point ≤ n.greatestPoint then
    if d.point ≤ 0 then Text.concat ["0.", zeros (-d.point).toNat, digits]
    else
      let whole := d.point.toNat
      if digits.length ≤ whole then Text.concat [digits, zeros (whole - digits.length), ".0"]
      else Text.concat [digits.take whole, ".", digits.drop whole]
  else
    let exponent := d.point - 1
    let size := Text.ofNat exponent.natAbs
    Text.concat [digits.take 1, if digits.length = 1 then "" else "." ++ digits.drop 1, "e",
      if exponent < 0 then "-" else "+", zeros (n.exponentDigits - size.length), size]

/-- The text of a number: the shortest decimal that reads back as it. -/
def text : Double → Text
  | .finite negative significand exponent =>
    Text.concat [if negative then "-" else "",
      if significand = 0 then "0.0" else (shortest significand exponent).text shown]
  | .infinite negative => if negative then "-inf" else "inf"
  | .notANumber => "nan"

end Packaging.Double
