import Packaging.Proofs.Json.Sound

/-! # Integers are read back
The numeral of an integer is read back whole, unless what follows goes on with it, and unless it is
too long to be read at all. -/

namespace Packaging.Json

/-- A text that no numeral before it goes on with. -/
def EndsNumeral (r : Text) : Prop :=
  ∀ c ∈ r.head?, c.isDigit = false ∧ c ≠ CodePoint.ofChar '.' ∧ c ≠ CodePoint.ofChar 'e' ∧
    c ≠ CodePoint.ofChar 'E'

/-- The end of the text ends a numeral. -/
theorem endsNumeral_nil : EndsNumeral [] := by
  intro c h
  cases h

/-- Blanks, separators and closing brackets end a numeral. -/
theorem endsNumeral_cons {c : CodePoint} (h : isBlank c = true ∨ c = CodePoint.ofChar ',' ∨
      c = CodePoint.ofChar ']' ∨ c.val = 0x7d) (r : Text) : EndsNumeral (c :: r) := by
  intro d hd
  rw [← Option.some.inj hd]
  rcases h with blank | rfl | rfl | brace
  · simp only [isBlank, Bool.or_eq_true, beq_iff_eq] at blank
    have among : c.val = 0x20 ∨ c.val = 0x09 ∨ c.val = 0x0a ∨ c.val = 0x0d := by omega
    rcases among with h | h | h | h <;> rw [CodePoint.ext (b := ⟨_, by decide⟩) h] <;> decide
  · decide
  · decide
  · rw [CodePoint.ext (b := ⟨_, by decide⟩) brace]
    decide

section Numerals

variable {r : Text} (ends : EndsNumeral r)

include ends

/-- Digits before the end of a numeral are all that is taken. -/
theorem takeWhile_isDigit_append {digits : Text} (h : ∀ c ∈ digits, c.isDigit = true) :
    (digits ++ r).takeWhile (·.isDigit) = digits := by
  rw [List.takeWhile_append_of_pos h]
  cases r with
  | nil => exact List.append_nil digits
  | cons c r => rw [List.takeWhile_cons, (ends c rfl).1, if_neg Bool.false_ne_true, List.append_nil]

/-- The whole digits of a decimal numeral are all of it. -/
theorem wholeDigits_ofNat (n : Nat) : wholeDigits (Text.ofNat n ++ r) = Text.ofNat n := by
  -- Zero is a whole numeral by itself; every other one must not start with it.
  rcases Nat.eq_zero_or_pos n with rfl | positive
  · rfl
  obtain ⟨c, digits, numeral⟩ := List.exists_cons_of_ne_nil (Text.ofNat_ne_nil n)
  have first : c ≠ CodePoint.ofChar '0' := by
    intro zero
    exact Text.head?_ofNat_ne_zero positive (by rw [numeral, zero]; rfl)
  have all : ∀ d ∈ c :: digits, d.isDigit = true := by
    intro d hd
    rw [← numeral] at hd
    exact Text.isDigit_of_mem_ofNat hd
  obtain ⟨digit, tail⟩ := List.forall_mem_cons.1 all
  rw [numeral, List.cons_append, wholeDigits, if_neg first, if_pos digit,
    takeWhile_isDigit_append ends tail]

/-- Where a numeral ends there is no fraction. -/
theorem fractionDigits_of_ends : fractionDigits r = [] := by
  cases r with
  | nil => rfl
  | cons c r => exact if_neg (ends c rfl).2.1

/-- Where a numeral ends there is no exponent. -/
theorem exponentOf?_of_ends : exponentOf? r = none := by
  cases r with
  | nil => rfl
  | cons c r =>
    refine if_neg ?_
    rintro (e | e)
    · exact (ends c rfl).2.2.1 e
    · exact (ends c rfl).2.2.2 e

/-- The digits of a number are read back, whatever sign was taken off before them. -/
theorem readNumber_of_sign (negative : Bool) {t : Text} {n : Nat}
    (short : (Text.ofNat n).length ≤ Integer.maxDigits)
    (sign : ((match t with
      | c :: r => if c = CodePoint.ofChar '-' then (true, r) else (false, t)
      | [] => (false, [])) : Bool × Text) = (negative, Text.ofNat n ++ r)) :
    readNumber t = .ok (int (if negative then -n else n), r) := by
  have read : Integer.read negative (Text.ofNat n) = .ok (if negative then -n else n) := by
    rw [Integer.read, if_neg (Nat.not_lt.2 short), Text.decimalValue_ofNat]
  have some_digits : (Text.ofNat n).isEmpty = false :=
    List.isEmpty_eq_false_iff.2 (Text.ofNat_ne_nil n)
  -- The sign is what the hypothesis says; neither a fraction nor an exponent comes after.
  unfold readNumber
  split
  next negative' unsigned sign' =>
  obtain ⟨rfl, rfl⟩ := Prod.mk.inj (sign'.symm.trans sign)
  simp only [wholeDigits_ofNat ends, some_digits, List.drop_left, fractionDigits_of_ends ends,
    exponentOf?_of_ends ends, read, List.isEmpty_nil, Bool.false_eq_true, ↓reduceIte]

omit ends in
/-- No constant starts like an integer. -/
theorem readScalar_numeral {c : CodePoint} {t : Text}
    (h : c.isDigit = true ∨ c = CodePoint.ofChar '-' ∧ ∀ d ∈ t.head?, d.isDigit = true) :
    readScalar (c :: t) = readNumber (c :: t) := by
  have none : ∀ m ∈ constants, Text.dropBeginning? m.1 (c :: t) = .none := by
    have letter {a : Char} (s : Text) (ha : (CodePoint.ofChar a).isDigit = false)
        (minus : CodePoint.ofChar a ≠ CodePoint.ofChar '-') :
        Text.dropBeginning? (CodePoint.ofChar a :: s) (c :: t) = .none := by
      refine if_neg ?_
      rintro rfl
      rcases h with digit | ⟨same, _⟩
      · rw [ha] at digit
        cases digit
      · exact minus same
    -- Only this constant starts with a minus sign, and then a letter comes.
    have infinity : Text.dropBeginning? "-Infinity" (c :: t) = .none := by
      rcases h with digit | ⟨rfl, digits⟩
      · refine if_neg ?_
        rintro rfl
        exact absurd digit (by decide)
      · cases t with
        | nil => rfl
        | cons d t =>
          refine (if_pos rfl).trans (if_neg ?_)
          rintro rfl
          exact absurd (digits _ rfl) (by decide)
    simp only [constants, List.forall_mem_cons]
    exact ⟨letter _ rfl (by decide), letter _ rfl (by decide), letter _ rfl (by decide),
      letter _ rfl (by decide), letter _ rfl (by decide), infinity, List.forall_mem_nil _⟩
  rw [readScalar, List.findSome?_eq_none_iff.2]
  intro m hm
  exact Option.map_eq_none_iff.2 (none m hm)

/-- **The numeral of an integer is read as that integer,** up to where the numeral ends. -/
theorem readScalar_ofInt {n : Int} (short : (Text.ofNat n.natAbs).length ≤ Integer.maxDigits) :
    readScalar (Text.ofInt n ++ r) = .ok (int n, r) := by
  cases n with
  | ofNat n =>
    obtain ⟨c, digits, numeral, digit⟩ := Text.exists_ofNat_eq n
    have minus : c ≠ CodePoint.ofChar '-' := by
      rintro rfl
      exact absurd digit (by decide)
    have written : Text.ofInt (.ofNat n) ++ r = c :: (digits ++ r) := by
      rw [Text.ofInt, numeral]
      rfl
    rw [written, readScalar_numeral (.inl digit)]
    refine readNumber_of_sign ends false short ?_
    rw [numeral]
    exact if_neg minus
  | negSucc n =>
    have written : Text.ofInt (.negSucc n) ++ r =
        CodePoint.ofChar '-' :: (Text.ofNat (n + 1) ++ r) := rfl
    have first : ∀ d ∈ (Text.ofNat (n + 1) ++ r).head?, d.isDigit = true := by
      obtain ⟨c, digits, numeral, digit⟩ := Text.exists_ofNat_eq (n + 1)
      intro d hd
      rw [numeral] at hd
      obtain rfl := Option.some.inj hd
      exact digit
    rw [written, readScalar_numeral (.inr ⟨rfl, first⟩)]
    exact readNumber_of_sign ends true short rfl

end Numerals

end Packaging.Json
