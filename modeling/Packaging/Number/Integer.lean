import Packaging.Text

/-! # Integer numerals
Integers in scripts and in policy documents are written as decimal numerals. A numeral with too many
digits is refused, so that reading one never takes more than a bounded time. -/

namespace Packaging.Integer

/-- The greatest number of digits of a numeral. -/
def maxDigits : Nat := 4300

/-- A numeral with more than `maxDigits` digits. -/
structure TooLong where
  /-- How many digits the numeral has. -/
  digits : Nat
  deriving DecidableEq

/-- The wording of the refusal. -/
def TooLong.message (f : TooLong) : Text :=
  Text.concat ["Exceeds the limit (", Text.ofNat maxDigits,
    " digits) for integer string conversion: value has ", Text.ofNat f.digits,
    " digits; use sys.set_int_max_str_digits() to increase the limit"]

/-- The integer written by a sign and some digits. -/
def read (negative : Bool) (digits : Text) : Except TooLong Int :=
  if maxDigits < digits.length then .error ⟨digits.length⟩
  else
    let n := digits.decimalValue
    .ok (if negative then -n else n)

/-- Numerals are refused by their length alone. -/
theorem read_eq_error_iff {negative : Bool} {digits : Text} {f : TooLong} :
    read negative digits = .error f ↔ maxDigits < digits.length ∧ f = ⟨digits.length⟩ := by
  by_cases h : maxDigits < digits.length <;> simp [read, h, eq_comm]

end Packaging.Integer
