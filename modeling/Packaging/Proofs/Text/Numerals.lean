import Mathlib.Algebra.Group.Nat.Defs
import Packaging.Text

/-! # Numerals are read back
The decimal numeral of a number stands for it, and so does its hexadecimal numeral of any width. -/

namespace Packaging

/-! ## Decimal numerals -/

/-- A digit is one, whether it is seen as a character or as a code point. -/
theorem CodePoint.isDigit_ofChar (c : Char) : (CodePoint.ofChar c).isDigit = c.isDigit := by
  rw [Bool.eq_iff_iff, Char.isDigit_iff_toNat]
  rw [isDigit, isBetween, Bool.and_eq_true, decide_eq_true_iff, decide_eq_true_iff]
  rfl

namespace Text

/-- Decimal numerals consist of digits. -/
theorem isDigit_of_mem_ofNat {n : Nat} {c : CodePoint} (h : c ∈ ofNat n) : c.isDigit = true := by
  obtain ⟨d, hd, rfl⟩ := List.mem_map.1 h
  rw [CodePoint.isDigit_ofChar]
  exact Nat.isDigit_of_mem_toDigits (by decide) (by decide) hd

/-- No decimal numeral is empty. -/
theorem ofNat_ne_nil (n : Nat) : ofNat n ≠ [] := by
  rw [ofNat, Ne, List.map_eq_nil_iff]
  exact Nat.toDigits_ne_nil

/-- A numeral starts with a digit. -/
theorem exists_ofNat_eq (n : Nat) : ∃ c digits, ofNat n = c :: digits ∧ c.isDigit = true := by
  obtain ⟨c, digits, numeral⟩ := List.exists_cons_of_ne_nil (ofNat_ne_nil n)
  have first : c ∈ ofNat n := by
    rw [numeral]
    exact List.mem_cons_self
  exact ⟨c, digits, numeral, isDigit_of_mem_ofNat first⟩

/-- A decimal numeral stands for its number. -/
@[simp] theorem decimalValue_ofNat (n : Nat) : (ofNat n).decimalValue = n := by
  rw [decimalValue, ofNat, List.foldl_map]
  exact Nat.ofDigitChars_ten_toDigits

/-- Only the numeral of zero starts with a zero. -/
theorem head?_ofNat_ne_zero {n : Nat} (h : 0 < n) :
    (ofNat n).head? ≠ some (CodePoint.ofChar '0') := by
  -- By induction on the digits, for what is put behind the first one does not change it.
  induction n using Nat.base_induction 10 (by decide) with
  | single m hm =>
    rw [ofNat, Nat.toDigits_of_lt_base hm]
    revert h
    revert m
    decide
  | digit m k hk hm ih =>
    rw [ofNat, ← Nat.toDigits_append_toDigits (by decide) hm hk, List.map_append,
      List.head?_append]
    intro starts
    rcases Option.or_eq_some_iff.1 starts with starts | ⟨empty, _⟩
    · exact ih hm starts
    · exact ofNat_ne_nil m (List.head?_eq_none_iff.1 empty)

/-- The numeral of the number that some digits stand for is no longer than they are: leading zeros
are all it can lack. -/
theorem length_ofNat_decimalValue_le {digits : Text} (h : ∀ c ∈ digits, c.isDigit = true) {k : Nat}
    (short : digits.length ≤ k) (positive : 0 < k) : (ofNat digits.decimalValue).length ≤ k := by
  -- The value is bounded for every number read so far, so that the digits are read one by one.
  have step (n : Nat) :
      digits.foldl (fun n c => 10 * n + (c.val - 0x30)) n < (n + 1) * 10 ^ digits.length := by
    clear short
    induction digits generalizing n with
    | nil => simp
    | cons c digits ih =>
      obtain ⟨hc, h⟩ := List.forall_mem_cons.1 h
      have digit : c.val - 0x30 < 10 := by
        simp [CodePoint.isDigit, CodePoint.isBetween] at hc
        omega
      calc digits.foldl _ (10 * n + (c.val - 0x30))
        _ < (10 * n + (c.val - 0x30) + 1) * 10 ^ digits.length := ih h _
        _ ≤ (10 * (n + 1)) * 10 ^ digits.length := Nat.mul_le_mul_right _ (by omega)
        _ = (n + 1) * 10 ^ (c :: digits).length := by
          rw [List.length_cons, Nat.pow_succ']
          ac_rfl
  have bounded : digits.decimalValue < 10 ^ k :=
    calc digits.decimalValue
      _ < (0 + 1) * 10 ^ digits.length := step 0
      _ = 10 ^ digits.length := Nat.one_mul _
      _ ≤ 10 ^ k := Nat.pow_le_pow_right (by decide) short
  rw [ofNat, List.length_map]
  exact (Nat.length_toDigits_le_iff (by decide) positive).2 bounded

/-! ## Hexadecimal numerals -/

/-- A hexadecimal digit stands for its number. -/
theorem hexValue?_digitChar {n : Nat} (h : n < 16) :
    (CodePoint.ofChar (Nat.digitChar n)).hexValue? = some n := by
  revert h
  revert n
  decide

/-- Digits behind others carry on from the value of the others. -/
theorem hexValue?_append (s t : Text) :
    hexValue? (s ++ t) =
      (hexValue? s).bind fun n => t.foldlM (fun n c => (c.hexValue?).map (16 * n + ·)) n := by
  rw [hexValue?, List.foldlM_append]
  rfl

/-- A hexadecimal numeral without padding stands for its number. -/
theorem hexValue?_toDigits (n : Nat) :
    hexValue? ((Nat.toDigits 16 n).map CodePoint.ofChar) = some n := by
  induction n using Nat.base_induction 16 (by decide) with
  | single m hm =>
    rw [Nat.toDigits_of_lt_base hm]
    simp [hexValue?, hexValue?_digitChar hm]
  | digit m k hk hm ih =>
    rw [← Nat.toDigits_append_toDigits (by decide) hm hk, List.map_append, hexValue?_append, ih,
      Nat.toDigits_of_lt_base hk]
    simp [hexValue?_digitChar hk]

/-- A hexadecimal digit is printable. -/
theorem isBetween_digitChar {n : Nat} (h : n < 16) :
    (CodePoint.ofChar (Nat.digitChar n)).isBetween 0x20 0x7e = true := by
  revert h
  revert n
  decide

/-- Hexadecimal numerals are printable. -/
theorem isBetween_of_mem_ofHex {width n : Nat} :
    ∀ c ∈ ofHex width n, c.isBetween 0x20 0x7e = true := by
  have digits : ∀ c ∈ Nat.toDigits 16 n, (CodePoint.ofChar c).isBetween 0x20 0x7e = true := by
    induction n using Nat.base_induction 16 (by decide) with
    | single m hm =>
      rw [Nat.toDigits_of_lt_base hm]
      exact List.forall_mem_singleton.2 (isBetween_digitChar hm)
    | digit m k hk hm ih =>
      rw [← Nat.toDigits_append_toDigits (by decide) hm hk, Nat.toDigits_of_lt_base hk]
      exact List.forall_mem_append.2 ⟨ih, List.forall_mem_singleton.2 (isBetween_digitChar hk)⟩
  rw [ofHex]
  refine List.forall_mem_append.2 ⟨?_, List.forall_mem_map.2 digits⟩
  intro c hc
  rw [List.eq_of_mem_replicate hc]
  rfl

/-- Zeros in front change nothing. -/
@[simp] theorem hexValue?_ofHex (width n : Nat) : hexValue? (ofHex width n) = some n := by
  have zeros (k : Nat) : hexValue? (List.replicate k (CodePoint.ofChar '0')) = some 0 := by
    induction k with
    | zero => rfl
    | succ k ih => rw [List.replicate_succ', hexValue?_append, ih]; rfl
  rw [ofHex, hexValue?_append, zeros]
  exact hexValue?_toDigits n

/-- What fits into a width is written with exactly so many digits. -/
theorem length_ofHex {width n : Nat} (positive : 0 < width) (h : n < 16 ^ width) :
    (ofHex width n).length = width := by
  have short : (Nat.toDigits 16 n).length ≤ width :=
    (Nat.length_toDigits_le_iff (by decide) positive).2 h
  rw [ofHex, List.length_append, List.length_replicate, List.length_map]
  omega

end Text

end Packaging
