import Mathlib.Data.List.TakeWhile
import Packaging.Text.Line
import Packaging.Text.Utf8

/-! # The texts of files
A text has an encoding exactly if it holds no surrogate, and decoding its bytes gives the text
again; what decoding yields never holds a surrogate. Unifying line endings brings in no code point
but the line feed, and changes nothing about a text without carriage returns. -/

namespace Packaging

namespace Utf8

/-! ## Bytes -/

/-- The continuation bytes by their numbers. -/
theorem isContinuation_iff {b : UInt8} :
    isContinuation b = true ↔ 0x80 ≤ b.toNat ∧ b.toNat < 0xc0 := by
  rw [isContinuation, Bool.and_eq_true, decide_eq_true_iff, decide_eq_true_iff,
    UInt8.le_iff_toNat_le, UInt8.lt_iff_toNat_lt]
  rfl

/-- The bytes that may come second, by their numbers and by the number of the byte before. -/
theorem isSecond_iff {lead b : UInt8} :
    isSecond lead b = true ↔ (0x80 ≤ b.toNat ∧ b.toNat < 0xc0) ∧
      (lead.toNat = 0xe0 → 0xa0 ≤ b.toNat) ∧ (lead.toNat = 0xed → b.toNat < 0xa0) ∧
      (lead.toNat = 0xf0 → 0x90 ≤ b.toNat) ∧ (lead.toNat = 0xf4 → b.toNat < 0x90) := by
  simp only [isSecond, Bool.and_eq_true, isContinuation_iff, Bool.or_eq_true, bne_iff_ne,
    decide_eq_true_iff, UInt8.le_iff_toNat_le, UInt8.lt_iff_toNat_lt, ne_eq, ← UInt8.toNat_inj,
    UInt8.reduceToNat]
  omega

/-- A number that fits a byte is the number of its byte. -/
theorem toNat_toUInt8 {n : Nat} (h : n < 0x100) : n.toUInt8.toNat = n :=
  UInt8.toNat_ofNat_of_lt' h

/-- The byte that carries the six low bits of a number behind the mark of a continuation. -/
theorem toNat_low (n : Nat) : (0x80 + n % 0x40).toUInt8.toNat = 0x80 + n % 0x40 :=
  toNat_toUInt8 (by omega)

/-- Six bits make a continuation byte. -/
theorem isContinuation_low (n : Nat) : isContinuation (0x80 + n % 0x40).toUInt8 = true := by
  rw [isContinuation_iff, toNat_low]
  omega

/-- The payload of such a byte is the six bits. -/
theorem payload_low (n : Nat) : payload (0x80 + n % 0x40).toUInt8 = n % 0x40 := by
  rw [payload, toNat_low]
  omega

/-- Bytes are ordered by their numbers. -/
theorem not_lt_of_toNat_le {a b : UInt8} (h : a.toNat ≤ b.toNat) : ¬ b < a :=
  UInt8.not_lt.2 (UInt8.le_iff_toNat_le.2 h)

/-! ## Encodings -/

/-- Nothing is found by skipping what is no surrogate exactly if that is all there is. -/
theorem surrogateRun?_eq_none_iff {t : Text} :
    surrogateRun? t = none ↔ ∀ c ∈ t, c.isSurrogate = false := by
  rw [surrogateRun?]
  cases rest : t.dropWhile (!·.isSurrogate) with
  | nil => simpa using List.dropWhile_eq_nil_iff.1 rest
  | cons c r =>
    have marked : c.isSurrogate = true := by
      have first := List.head?_dropWhile_not (!·.isSurrogate) t
      simpa [rest] using first
    have inside : c ∈ t := by
      apply (List.dropWhile_sublist (!·.isSurrogate)).subset
      rw [rest]
      exact List.mem_cons_self
    constructor
    · intro h
      cases h
    · intro h
      have clean := h c inside
      simp [marked] at clean

/-- **A text has an encoding exactly if it holds no surrogate.** -/
theorem encode_eq_ok_iff {t : Text} {bytes : Bytes} :
    encode t = .ok bytes ↔ (∀ c ∈ t, c.isSurrogate = false) ∧ bytes = t.flatMap encodePoint := by
  rw [encode, ← surrogateRun?_eq_none_iff]
  cases surrogateRun? t with
  | none => simp [eq_comm]
  | some fault => simp

section Steps

variable {b b₁ b₂ b₃ : UInt8} (start : Nat) (done : Text) (r : Bytes)

/-- A byte of the ASCII range is decoded by itself. -/
theorem decodeFrom_one (h : b.toNat < 0x80) :
    decodeFrom start done (b :: r) = decodeFrom (start + 1) (.ofNat b.toNat :: done) r := by
  have one : b < 0x80 := UInt8.lt_iff_toNat_lt.2 h
  rw [decodeFrom.eq_def]
  simp only [one, ↓reduceIte]

/-- Two bytes that go together are decoded to one code point. -/
theorem decodeFrom_two (low : 0xc2 ≤ b.toNat) (high : b.toNat < 0xe0)
    (h₁ : isContinuation b₁ = true) :
    decodeFrom start done (b :: b₁ :: r) =
      decodeFrom (start + 2) (.ofNat (b.toNat % 0x20 * 0x40 + payload b₁) :: done) r := by
  have one : ¬ b < 0x80 := not_lt_of_toNat_le (by omega : 0x80 ≤ b.toNat)
  have bad : ¬ b < 0xc2 := not_lt_of_toNat_le (by omega : 0xc2 ≤ b.toNat)
  have two : b < 0xe0 := UInt8.lt_iff_toNat_lt.2 high
  rw [decodeFrom.eq_def]
  simp only [one, bad, two, h₁, Bool.not_true, Bool.false_eq_true, ↓reduceIte]

/-- Three bytes that go together are decoded to one code point. -/
theorem decodeFrom_three (low : 0xe0 ≤ b.toNat) (high : b.toNat < 0xf0)
    (h₁ : isSecond b b₁ = true) (h₂ : isContinuation b₂ = true) :
    decodeFrom start done (b :: b₁ :: b₂ :: r) =
      decodeFrom (start + 3)
        (.ofNat ((b.toNat % 0x10 * 0x40 + payload b₁) * 0x40 + payload b₂) :: done) r := by
  have one : ¬ b < 0x80 := not_lt_of_toNat_le (by omega : 0x80 ≤ b.toNat)
  have bad : ¬ b < 0xc2 := not_lt_of_toNat_le (by omega : 0xc2 ≤ b.toNat)
  have two : ¬ b < 0xe0 := not_lt_of_toNat_le (by omega : 0xe0 ≤ b.toNat)
  have three : b < 0xf0 := UInt8.lt_iff_toNat_lt.2 high
  rw [decodeFrom.eq_def]
  simp only [one, bad, two, three, h₁, h₂, Bool.not_true, Bool.false_eq_true, ↓reduceIte]

/-- Four bytes that go together are decoded to one code point. -/
theorem decodeFrom_four (low : 0xf0 ≤ b.toNat) (high : b.toNat < 0xf5)
    (h₁ : isSecond b b₁ = true) (h₂ : isContinuation b₂ = true) (h₃ : isContinuation b₃ = true) :
    decodeFrom start done (b :: b₁ :: b₂ :: b₃ :: r) =
      decodeFrom (start + 4)
        (.ofNat (((b.toNat % 0x08 * 0x40 + payload b₁) * 0x40 + payload b₂) * 0x40 +
          payload b₃) :: done) r := by
  have one : ¬ b < 0x80 := not_lt_of_toNat_le (by omega : 0x80 ≤ b.toNat)
  have bad : ¬ b < 0xc2 := not_lt_of_toNat_le (by omega : 0xc2 ≤ b.toNat)
  have two : ¬ b < 0xe0 := not_lt_of_toNat_le (by omega : 0xe0 ≤ b.toNat)
  have three : ¬ b < 0xf0 := not_lt_of_toNat_le (by omega : 0xf0 ≤ b.toNat)
  have four : b < 0xf5 := UInt8.lt_iff_toNat_lt.2 high
  rw [decodeFrom.eq_def]
  simp only [one, bad, two, three, four, h₁, h₂, h₃, Bool.not_true, Bool.false_eq_true,
    ↓reduceIte]

/-- Decoding takes the bytes of one code point off and keeps the code point. -/
theorem decodeFrom_encodePoint {c : CodePoint} (h : c.isSurrogate = false) :
    ∃ start', decodeFrom start done (encodePoint c ++ r) = decodeFrom start' (c :: done) r := by
  have bound : c.val < 0x110000 := c.isLt
  have clean : ¬ (0xd800 ≤ c.val ∧ c.val ≤ 0xdfff) := by
    simpa [CodePoint.isSurrogate, CodePoint.isBetween] using h
  have same {n : Nat} (hn : n = c.val) : CodePoint.ofNat n = c := by
    rw [hn]
    exact CodePoint.ext (CodePoint.val_ofNat bound)
  rw [encodePoint]
  -- One case for each number of bytes: the lead byte says how many follow, and the bits add up.
  split
  · have lead : c.val.toUInt8.toNat = c.val := toNat_toUInt8 (by omega)
    refine ⟨start + 1, (decodeFrom_one start done r ?_).trans ?_⟩
    · omega
    · rw [lead, same rfl]
  split
  · have lead : (0xc0 + c.val / 0x40).toUInt8.toNat = 0xc0 + c.val / 0x40 :=
      toNat_toUInt8 (by omega)
    refine ⟨start + 2, (decodeFrom_two start done r ?_ ?_ (isContinuation_low _)).trans ?_⟩
    · omega
    · omega
    · rw [payload_low, lead, same (by omega)]
  split
  · have lead : (0xe0 + c.val / 0x1000).toUInt8.toNat = 0xe0 + c.val / 0x1000 :=
      toNat_toUInt8 (by omega)
    refine ⟨start + 3,
      (decodeFrom_three start done r ?_ ?_ ?_ (isContinuation_low _)).trans ?_⟩
    · omega
    · omega
    · rw [isSecond_iff, lead, toNat_low]
      omega
    · rw [payload_low, payload_low, lead, same (by omega)]
  · have lead : (0xf0 + c.val / 0x40000).toUInt8.toNat = 0xf0 + c.val / 0x40000 :=
      toNat_toUInt8 (by omega)
    refine ⟨start + 4, (decodeFrom_four start done r ?_ ?_ ?_ (isContinuation_low _)
      (isContinuation_low _)).trans ?_⟩
    · omega
    · omega
    · rw [isSecond_iff, lead, toNat_low]
      omega
    · rw [payload_low, payload_low, payload_low, lead, same (by omega)]

end Steps

/-- The encoding of a text is decoded to the text, behind what was decoded before. -/
theorem decodeFrom_flatMap {t : Text} (h : ∀ c ∈ t, c.isSurrogate = false) (start : Nat)
    (done : Text) :
    decodeFrom start done (t.flatMap encodePoint) = .ok (done.reverse ++ t) := by
  -- What is decoded so far is general, and so is where, which only faults would tell.
  induction t generalizing start done with
  | nil => simp [decodeFrom]
  | cons c t ih =>
    obtain ⟨start', step⟩ :=
      decodeFrom_encodePoint start done (t.flatMap encodePoint) (h c List.mem_cons_self)
    rw [List.flatMap_cons, step, ih fun d hd => h d (List.mem_cons_of_mem _ hd)]
    simp

/-- **A text is read back from its encoding.** -/
theorem decode_encode {t : Text} {bytes : Bytes} (h : encode t = .ok bytes) :
    decode bytes = .ok t := by
  obtain ⟨clean, rfl⟩ := encode_eq_ok_iff.1 h
  exact decodeFrom_flatMap clean 0 []

/-! ## What decoding yields -/

/-- A number outside the range of the surrogates is that of no surrogate. -/
theorem isSurrogate_ofNat {n : Nat} (bound : n < 0x110000) (h : n < 0xd800 ∨ 0xdfff < n) :
    (CodePoint.ofNat n).isSurrogate = false := by
  rw [CodePoint.isSurrogate, CodePoint.isBetween, CodePoint.val_ofNat bound]
  simp
  omega

/-- A payload has six bits. -/
theorem payload_lt (b : UInt8) : payload b < 0x40 := Nat.mod_lt _ (by decide)

/-- One byte is decoded to no surrogate. -/
theorem isSurrogate_one {b : UInt8} (h : b < 0x80) :
    (CodePoint.ofNat b.toNat).isSurrogate = false := by
  have h : b.toNat < 0x80 := UInt8.lt_iff_toNat_lt.1 h
  exact isSurrogate_ofNat (by omega) (by omega)

/-- Two bytes are decoded to no surrogate. -/
theorem isSurrogate_two (b b₁ : UInt8) :
    (CodePoint.ofNat (b.toNat % 0x20 * 0x40 + payload b₁)).isSurrogate = false := by
  have h₁ := payload_lt b₁
  exact isSurrogate_ofNat (by omega) (by omega)

/-- The second byte keeps three bytes out of the surrogates: after the lead byte that begins them,
only the numbers below them are left. -/
theorem isSurrogate_three {b b₁ : UInt8} (b₂ : UInt8) (low : ¬ b < 0xe0) (high : b < 0xf0)
    (h₁ : isSecond b b₁ = true) :
    (CodePoint.ofNat ((b.toNat % 0x10 * 0x40 + payload b₁) * 0x40 + payload b₂)).isSurrogate =
      false := by
  have low : 0xe0 ≤ b.toNat := UInt8.le_iff_toNat_le.1 (UInt8.not_lt.1 low)
  have high : b.toNat < 0xf0 := UInt8.lt_iff_toNat_lt.1 high
  have h₁ := isSecond_iff.1 h₁
  have h₂ := payload_lt b₂
  rw [payload] at h₂ ⊢
  rw [payload]
  apply isSurrogate_ofNat <;> omega

/-- Four bytes stand for numbers beyond the basic plane. -/
theorem isSurrogate_four {b b₁ : UInt8} (b₂ b₃ : UInt8) (low : ¬ b < 0xf0) (high : b < 0xf5)
    (h₁ : isSecond b b₁ = true) :
    (CodePoint.ofNat (((b.toNat % 0x08 * 0x40 + payload b₁) * 0x40 + payload b₂) * 0x40 +
      payload b₃)).isSurrogate = false := by
  have low : 0xf0 ≤ b.toNat := UInt8.le_iff_toNat_le.1 (UInt8.not_lt.1 low)
  have high : b.toNat < 0xf5 := UInt8.lt_iff_toNat_lt.1 high
  have h₁ := isSecond_iff.1 h₁
  have h₂ := payload_lt b₂
  have h₃ := payload_lt b₃
  rw [payload] at h₂ h₃ ⊢
  rw [payload, payload]
  apply isSurrogate_ofNat <;> omega

/-- Decoding adds no surrogates to what was decoded before. -/
theorem isSurrogate_eq_false_of_decodeFrom {start : Nat} {done t : Text} {bytes : Bytes}
    (h : decodeFrom start done bytes = .ok t) (clean : ∀ c ∈ done, c.isSurrogate = false) :
    ∀ c ∈ t, c.isSurrogate = false := by
  -- Only the five ways in which decoding goes on, or is done, succeed; all others are faults.
  fun_induction decodeFrom start done bytes with
  | case1 start done =>
    -- nothing is left
    intro c hc
    rw [← Except.ok.inj h] at hc
    exact clean c (List.mem_reverse.1 hc)
  | case2 start done b r one ih =>
    -- one byte
    exact ih h (List.forall_mem_cons.2 ⟨isSurrogate_one one, clean⟩)
  | case6 start done b _ _ _ b₁ r _ ih =>
    -- two bytes
    exact ih h (List.forall_mem_cons.2 ⟨isSurrogate_two b b₁, clean⟩)
  | case11 start done b _ _ low high b₁ second b₂ r _ ih =>
    -- three bytes, which the second one keeps apart from surrogates
    refine ih h (List.forall_mem_cons.2 ⟨isSurrogate_three b₂ low high ?_, clean⟩)
    simpa using second
  | case18 start done b _ _ _ low high b₁ second b₂ _ b₃ r _ ih =>
    -- four bytes
    refine ih h (List.forall_mem_cons.2 ⟨isSurrogate_four b₂ b₃ low high ?_, clean⟩)
    simpa using second
  | _ => cases h

/-- **No surrogate is ever decoded.** -/
theorem isSurrogate_eq_false_of_decode {t : Text} {bytes : Bytes} (h : decode bytes = .ok t) :
    ∀ c ∈ t, c.isSurrogate = false :=
  isSurrogate_eq_false_of_decodeFrom h (List.forall_mem_nil _)

end Utf8

/-! ## Line endings -/

namespace Text

/-- Without carriage returns, and behind none, there is nothing to unify. -/
theorem unifyLineEndingsAfter_eq_self {t : Text} (h : CodePoint.ofChar '\r' ∉ t) :
    unifyLineEndingsAfter false t = t := by
  induction t with
  | nil => rfl
  | cons c t ih =>
    rw [List.mem_cons, not_or] at h
    have hc : c ≠ CodePoint.ofChar '\r' := Ne.symm h.1
    -- Nothing was returned before, so a line feed stays as well.
    rw [unifyLineEndingsAfter, if_neg hc, if_neg (fun both => Bool.false_ne_true both.2),
      ih h.2]

/-- A text without carriage returns keeps its line endings. -/
theorem unifyLineEndings_eq_self {t : Text} (h : CodePoint.ofChar '\r' ∉ t) :
    t.unifyLineEndings = t :=
  unifyLineEndingsAfter_eq_self h

/-- Unified line endings bring in nothing but line feeds. -/
theorem mem_unifyLineEndingsAfter {returned : Bool} {t : Text} {c : CodePoint}
    (h : c ∈ unifyLineEndingsAfter returned t) : c ∈ t ∨ c = CodePoint.ofChar '\n' := by
  fun_induction unifyLineEndingsAfter returned t with
  | case1 => cases h
  | case2 returned r ih =>
    rcases List.mem_cons.1 h with rfl | h
    · exact .inr rfl
    · exact (ih h).imp_left (List.mem_cons_of_mem _)
  | case3 returned c r _ _ ih => exact (ih h).imp_left (List.mem_cons_of_mem _)
  | case4 returned d r _ _ ih =>
    rcases List.mem_cons.1 h with rfl | h
    · exact .inl List.mem_cons_self
    · exact (ih h).imp_left (List.mem_cons_of_mem _)

/-- Unifying line endings brings in no surrogate. -/
theorem isSurrogate_eq_false_of_unifyLineEndings {t : Text}
    (h : ∀ c ∈ t, c.isSurrogate = false) : ∀ c ∈ t.unifyLineEndings, c.isSurrogate = false := by
  intro c hc
  rcases mem_unifyLineEndingsAfter hc with hc | rfl
  · exact h c hc
  · rfl

end Text

end Packaging
