import Packaging.Text

/-! # Double-precision numbers
The numbers of the binary64 format as exact values: a sign, a natural significand and a power of
two. Decimals are read by rounding to the nearest such number, ties to the even significand. -/

namespace Packaging

/-- A number of the binary64 format. -/
inductive Double
  /-- The number `significand * 2 ^ exponent`, negated if asked; zero has both signs. -/
  | finite (negative : Bool) (significand : Nat) (exponent : Int)
  /-- An infinity of either sign. -/
  | infinite (negative : Bool)
  /-- The result of an operation that has none. -/
  | notANumber
  deriving DecidableEq

namespace Double

/-- Significands of normal numbers have this many bits. -/
def precision : Nat := 53

/-- The least number with more bits than a significand has. -/
def significandBound : Nat := 1 <<< precision

/-- The least significand of a normal number. -/
def leastNormal : Nat := 1 <<< (precision - 1)

/-- The least exponent of a significand. -/
def minExponent : Int := -1074

/-- The greatest exponent of a significand. -/
def maxExponent : Int := 971

/-- Zero with a sign. -/
def zero (negative : Bool) : Double := .finite negative 0 minExponent

/-- Whether a number is zero, of either sign. -/
def isZero : Double → Bool
  | .finite _ significand _ => significand == 0
  | _ => false

/-- A power of ten. -/
def tenTo (k : Nat) : Nat := Nat.pow 10 k

/-- A quotient rounded to the nearest natural number, ties to the even one. -/
def roundDiv (num den : Nat) : Nat :=
  let q := num / den
  let twice := 2 * (num % den)
  if twice < den then q
  else if den < twice then q + 1
  else q + q % 2

/-- A quotient multiplied by two to the power of an integer, as a numerator and a denominator. -/
def scale (num den : Nat) (power : Int) : Nat × Nat :=
  match power with
  | .ofNat k => (num <<< k, den)
  | .negSucc k => (num, den <<< (k + 1))

/-- The exponent that the significand of a positive quotient gets: the least one allowed at which
the significand has no more bits than the format stores. -/
def exponentFor (num den : Nat) : Int :=
  let guess : Int := (num.log2 : Int) - (den.log2 : Int) - (precision : Int)
  let (n, d) := scale num den (-guess)
  let exponent := if n / d < significandBound then guess else guess + 1
  max exponent minExponent

/-- The number nearest to a positive quotient. -/
def ofQuotient (negative : Bool) (num den : Nat) : Double :=
  let exponent := exponentFor num den
  let (n, d) := scale num den (-exponent)
  let rounded := roundDiv n d
  let (significand, exponent) :=
    if rounded = significandBound then (leastNormal, exponent + 1) else (rounded, exponent)
  if maxExponent < exponent then .infinite negative
  else if significand = 0 then zero negative
  else .finite negative significand exponent

/-- The number nearest to `digits * 10 ^ exponent`. Decimals far outside the range of the format are
decided by their size alone. -/
def ofDecimal (negative : Bool) (digits : Nat) (exponent : Int) : Double :=
  if digits = 0 then zero negative
  else
    let magnitude : Int := ((Nat.toDigits 10 digits).length : Int) + exponent
    if 400 < magnitude then .infinite negative
    else if magnitude < -400 then zero negative
    else
      match exponent with
      | .ofNat k => ofQuotient negative (digits * tenTo k) 1
      | .negSucc k => ofQuotient negative digits (tenTo (k + 1))

end Double

end Packaging
