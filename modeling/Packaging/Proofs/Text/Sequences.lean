import Packaging.Proofs.Text.Contents

/-! # Byte sequences
A lead byte says how many bytes follow it, and together they stand for a number. The encodings of
code points are the sequences that are complete, no longer than their number needs, and stand for a
code point that is no surrogate. So bytes that encode no text have a first place where something
else stands, and decoding accepts exactly the encodings of texts. -/

namespace Packaging.Utf8

/-! ## Sequences -/

/-- How many bytes follow a lead byte, as the ones at its front say. Bytes that only continue a
sequence, and bytes with more than four ones at their front, lead none. -/
def tailLength? (lead : UInt8) : Option Nat :=
  if lead < 0x80 then some 0
  else if lead < 0xc0 then none
  else if lead < 0xe0 then some 1
  else if lead < 0xf0 then some 2
  else if lead < 0xf8 then some 3
  else none

/-- What a lead byte carries besides the mark that says how many bytes follow it. -/
def leadPayload (lead : UInt8) : (tailLength : Nat) → Nat
  | 0 => lead.toNat
  | 1 => lead.toNat % 0x20
  | 2 => lead.toNat % 0x10
  | _ => lead.toNat % 0x08

/-- The least number that needs so many bytes after the lead byte. -/
def leastNumber : (tailLength : Nat) → Nat
  | 0 => 0
  | 1 => 0x80
  | 2 => 0x800
  | _ => 0x10000

/-- The number that a sequence stands for. -/
def numberOf (lead : UInt8) (tail : Bytes) : Nat :=
  tail.foldl (fun n b => n * 0x40 + payload b) (leadPayload lead tail.length)

/-- A lead byte with as many continuation bytes as it asks for, whatever they stand for. -/
structure IsSequence (lead : UInt8) (tail : Bytes) : Prop where
  /-- There are as many bytes as the lead byte says. -/
  asked : tailLength? lead = some tail.length
  /-- All of them continue the sequence. -/
  continues : ∀ b ∈ tail, isContinuation b = true

variable {lead b : UInt8} {tail r : Bytes} {c : CodePoint}

/-- How many bytes are asked for, by the number of the first one. -/
theorem tailLength?_eq_some_iff {n : Nat} :
    tailLength? lead = some n ↔
      n = 0 ∧ lead.toNat < 0x80 ∨ n = 1 ∧ 0xc0 ≤ lead.toNat ∧ lead.toNat < 0xe0 ∨
        n = 2 ∧ 0xe0 ≤ lead.toNat ∧ lead.toNat < 0xf0 ∨
        n = 3 ∧ 0xf0 ≤ lead.toNat ∧ lead.toNat < 0xf8 := by
  simp only [tailLength?, UInt8.lt_iff_toNat_lt, UInt8.reduceToNat]
  split_ifs <;> simp <;> omega

/-- The bytes that lead none are the continuation bytes and those from `0xf8` on. -/
theorem tailLength?_eq_none_iff :
    tailLength? lead = none ↔ isContinuation lead = true ∨ 0xf8 ≤ lead.toNat := by
  simp only [tailLength?, isContinuation_iff, UInt8.lt_iff_toNat_lt, UInt8.reduceToNat]
  split_ifs <;> simp <;> omega

/-- The number that one byte writes. -/
theorem numberOf_nil : numberOf lead [] = lead.toNat := rfl

/-- The number that two bytes write. -/
theorem numberOf_one (b₁ : UInt8) :
    numberOf lead [b₁] = lead.toNat % 0x20 * 0x40 + payload b₁ := rfl

/-- The number that three bytes write. -/
theorem numberOf_two (b₁ b₂ : UInt8) :
    numberOf lead [b₁, b₂] = (lead.toNat % 0x10 * 0x40 + payload b₁) * 0x40 + payload b₂ := rfl

/-- The number that four bytes write. -/
theorem numberOf_three (b₁ b₂ b₃ : UInt8) :
    numberOf lead [b₁, b₂, b₃] =
      ((lead.toNat % 0x08 * 0x40 + payload b₁) * 0x40 + payload b₂) * 0x40 + payload b₃ := rfl

/-! ## The sequences of code points -/

/-- The bytes of a code point are a sequence for it, and no shorter one would do. -/
theorem exists_sequence (c : CodePoint) :
    ∃ lead tail, encodePoint c = lead :: tail ∧ IsSequence lead tail ∧
      numberOf lead tail = c.val ∧ leastNumber tail.length ≤ c.val := by
  have bound : c.val < 0x110000 := c.isLt
  rw [encodePoint]
  -- One case for each number of bytes, as the encoder has them.
  split
  · have first : c.val.toUInt8.toNat = c.val := toNat_toUInt8 (by omega)
    refine ⟨_, [], rfl, ⟨tailLength?_eq_some_iff.2 ?_, List.forall_mem_nil _⟩, first, Nat.zero_le _⟩
    rw [first, List.length_nil]
    omega
  split
  · have first : (0xc0 + c.val / 0x40).toUInt8.toNat = 0xc0 + c.val / 0x40 :=
      toNat_toUInt8 (by omega)
    refine ⟨_, [_], rfl, ⟨tailLength?_eq_some_iff.2 ?_, ?_⟩, ?_, ?_⟩
    · rw [first, List.length_singleton]
      omega
    · simp only [List.forall_mem_cons, isContinuation_low, List.not_mem_nil, IsEmpty.forall_iff,
        implies_true, and_self]
    · rw [numberOf_one, first, payload_low]
      omega
    · show 0x80 ≤ c.val
      omega
  split
  · have first : (0xe0 + c.val / 0x1000).toUInt8.toNat = 0xe0 + c.val / 0x1000 :=
      toNat_toUInt8 (by omega)
    refine ⟨_, [_, _], rfl, ⟨tailLength?_eq_some_iff.2 ?_, ?_⟩, ?_, ?_⟩
    · rw [first, List.length_cons, List.length_singleton]
      omega
    · simp only [List.forall_mem_cons, isContinuation_low, List.not_mem_nil, IsEmpty.forall_iff,
        implies_true, and_self]
    · rw [numberOf_two, first, payload_low, payload_low]
      omega
    · show 0x800 ≤ c.val
      omega
  · have first : (0xf0 + c.val / 0x40000).toUInt8.toNat = 0xf0 + c.val / 0x40000 :=
      toNat_toUInt8 (by omega)
    refine ⟨_, [_, _, _], rfl, ⟨tailLength?_eq_some_iff.2 ?_, ?_⟩, ?_, ?_⟩
    · rw [first, List.length_cons, List.length_cons, List.length_singleton]
      omega
    · simp only [List.forall_mem_cons, isContinuation_low, List.not_mem_nil, IsEmpty.forall_iff,
        implies_true, and_self]
    · rw [numberOf_three, first, payload_low, payload_low, payload_low]
      omega
    · show 0x10000 ≤ c.val
      omega

/-- The byte that carries six bits of a number behind the mark of a continuation. -/
theorem low_eq (h : isContinuation b = true) {n : Nat} (same : n % 0x40 = payload b) :
    (0x80 + n % 0x40).toUInt8 = b := by
  have bounds := isContinuation_iff.1 h
  rw [payload] at same
  rw [← UInt8.toNat_inj, toNat_low]
  omega

/-- A byte is told by its number. -/
theorem toUInt8_eq {n : Nat} (same : n = b.toNat) : n.toUInt8 = b := by
  rw [← UInt8.toNat_inj, same, toNat_toUInt8 b.toNat_lt]

/-- A sequence for a code point, if no shorter one would do, is what the code point is encoded
as. -/
theorem encodePoint_of_isSequence (h : IsSequence lead tail) (number : numberOf lead tail = c.val)
    (least : leastNumber tail.length ≤ c.val) : encodePoint c = lead :: tail := by
  obtain ⟨asked, continues⟩ := h
  rw [tailLength?_eq_some_iff] at asked
  -- One case for each length; the number is large enough that no shorter sequence holds it.
  match tail with
  | [] =>
    rw [numberOf_nil] at number
    rw [List.length_nil] at asked
    rw [encodePoint, if_pos (by omega), toUInt8_eq number.symm]
  | [b₁] =>
    rw [numberOf_one] at number
    rw [List.length_singleton] at asked
    have few := payload_lt b₁
    have enough : 0x80 ≤ c.val := least
    have hb₁ := continues b₁ (by simp)
    rw [encodePoint, if_neg (by omega), if_pos (by omega), toUInt8_eq (b := lead) (by omega),
      low_eq hb₁ (by omega)]
  | [b₁, b₂] =>
    rw [numberOf_two] at number
    rw [List.length_cons, List.length_singleton] at asked
    have few₁ := payload_lt b₁
    have few₂ := payload_lt b₂
    have enough : 0x800 ≤ c.val := least
    have hb₁ := continues b₁ (by simp)
    have hb₂ := continues b₂ (by simp)
    rw [encodePoint, if_neg (by omega), if_neg (by omega), if_pos (by omega),
      toUInt8_eq (b := lead) (by omega), low_eq hb₁ (by omega), low_eq hb₂ (by omega)]
  | [b₁, b₂, b₃] =>
    rw [numberOf_three] at number
    rw [List.length_cons, List.length_cons, List.length_singleton] at asked
    have few₁ := payload_lt b₁
    have few₂ := payload_lt b₂
    have few₃ := payload_lt b₃
    have enough : 0x10000 ≤ c.val := least
    have hb₁ := continues b₁ (by simp)
    have hb₂ := continues b₂ (by simp)
    have hb₃ := continues b₃ (by simp)
    rw [encodePoint, if_neg (by omega), if_neg (by omega), if_neg (by omega),
      toUInt8_eq (b := lead) (by omega), low_eq hb₁ (by omega), low_eq hb₂ (by omega),
      low_eq hb₃ (by omega)]
  | _ :: _ :: _ :: _ :: _ =>
    simp only [List.length_cons] at asked
    omega

/-! ## What is no encoding -/

/-- Bytes that encode no text, by what stands where the first sequence that is not the encoding of
a code point should. -/
inductive Malformed : Bytes → Prop
  /-- A continuation byte that follows no lead byte. -/
  | stray {b : UInt8} {r : Bytes} (continues : isContinuation b = true) : Malformed (b :: r)
  /-- A byte with more than four ones at its front, as no number in the code space needs. -/
  | noLead {b : UInt8} {r : Bytes} (high : 0xf8 ≤ b.toNat) : Malformed (b :: r)
  /-- A lead byte with fewer continuation bytes behind it than it asks for. -/
  | missing {lead : UInt8} {r : Bytes} {n : Nat} (asked : tailLength? lead = some n)
    (few : (r.takeWhile isContinuation).length < n) : Malformed (lead :: r)
  /-- A sequence for a number that a shorter one stands for. -/
  | overlong {lead : UInt8} {tail : Bytes} (r : Bytes) (sequence : IsSequence lead tail)
    (small : numberOf lead tail < leastNumber tail.length) : Malformed (lead :: (tail ++ r))
  /-- A sequence for a surrogate. -/
  | surrogate {lead : UInt8} {tail : Bytes} (r : Bytes) (sequence : IsSequence lead tail)
    (low : 0xd800 ≤ numberOf lead tail) (high : numberOf lead tail ≤ 0xdfff) :
    Malformed (lead :: (tail ++ r))
  /-- A sequence for a number outside the code space. -/
  | beyond {lead : UInt8} {tail : Bytes} (r : Bytes) (sequence : IsSequence lead tail)
    (large : 0x110000 ≤ numberOf lead tail) : Malformed (lead :: (tail ++ r))
  /-- The encoding of a code point, and such bytes behind it. -/
  | later {c : CodePoint} {r : Bytes} (clean : c.isSurrogate = false) (rest : Malformed r) :
    Malformed (encodePoint c ++ r)

/-- A lead byte decides where its sequence ends. -/
theorem IsSequence.append_inj {lead' : UInt8} {tail' r' : Bytes} (h : IsSequence lead tail)
    (h' : IsSequence lead' tail') (same : lead :: (tail ++ r) = lead' :: (tail' ++ r')) :
    lead = lead' ∧ tail = tail' ∧ r = r' := by
  obtain ⟨rfl, behind⟩ := List.cons.inj same
  have length : tail.length = tail'.length := Option.some.inj (h.asked.symm.trans h'.asked)
  obtain ⟨rfl, rfl⟩ := List.append_inj behind length
  exact ⟨rfl, rfl, rfl⟩

/-- The bytes after a lead byte that asks for no more continuation bytes than there are. -/
theorem exists_tail {n : Nat} (enough : n ≤ (r.takeWhile isContinuation).length) :
    ∃ tail rest, r = tail ++ rest ∧ tail.length = n ∧ ∀ b ∈ tail, isContinuation b = true := by
  have found : r.takeWhile isContinuation <+: r := List.takeWhile_prefix _
  have begins : (r.takeWhile isContinuation).take n <+: r := (List.take_prefix _ _).trans found
  obtain ⟨rest, split⟩ := begins
  refine ⟨_, rest, split.symm, List.length_take_of_le enough, fun b hb => ?_⟩
  exact List.mem_takeWhile_imp (List.mem_of_mem_take hb)

/-- The code points below and above the surrogates are the others. -/
theorem isSurrogate_eq_false_iff :
    c.isSurrogate = false ↔ c.val < 0xd800 ∨ 0xdfff < c.val := by
  rw [← Bool.not_eq_true]
  simp only [CodePoint.isSurrogate, CodePoint.isBetween, Bool.and_eq_true, decide_eq_true_eq]
  omega

/-- **Bytes encode a text, or else one of the faults is found in them.** -/
theorem encoded_or_malformed (bytes : Bytes) :
    (∃ t : Text, (∀ c ∈ t, c.isSurrogate = false) ∧ t.flatMap encodePoint = bytes) ∨
      Malformed bytes := by
  match bytes with
  | [] => exact Or.inl ⟨[], List.forall_mem_nil _, rfl⟩
  | lead :: r =>
    cases asked : tailLength? lead with
    | none =>
      rcases tailLength?_eq_none_iff.1 asked with continues | high
      · exact Or.inr (.stray continues)
      · exact Or.inr (.noLead high)
    | some n =>
      by_cases few : (r.takeWhile isContinuation).length < n
      · exact Or.inr (.missing asked few)
      obtain ⟨tail, rest, rfl, rfl, continues⟩ := exists_tail (Nat.le_of_not_lt few)
      have sequence : IsSequence lead tail := ⟨asked, continues⟩
      by_cases small : numberOf lead tail < leastNumber tail.length
      · exact Or.inr (.overlong rest sequence small)
      by_cases large : 0x110000 ≤ numberOf lead tail
      · exact Or.inr (.beyond rest sequence large)
      by_cases between : 0xd800 ≤ numberOf lead tail ∧ numberOf lead tail ≤ 0xdfff
      · exact Or.inr (.surrogate rest sequence between.1 between.2)
      -- The sequence is the encoding of a code point, and what is behind it is shorter.
      let c : CodePoint := ⟨numberOf lead tail, Nat.lt_of_not_le large⟩
      have clean : c.isSurrogate = false := by
        show CodePoint.isSurrogate ⟨numberOf lead tail, _⟩ = false
        rw [isSurrogate_eq_false_iff]
        dsimp only
        omega
      have encoded : encodePoint c = lead :: tail :=
        encodePoint_of_isSequence sequence rfl (Nat.le_of_not_lt small)
      rw [← List.cons_append, ← encoded]
      rcases encoded_or_malformed rest with ⟨t, all, rfl⟩ | bad
      · exact Or.inl ⟨c :: t, List.forall_mem_cons.2 ⟨clean, all⟩, List.flatMap_cons⟩
      · exact Or.inr (.later clean bad)
termination_by bytes.length

/-- The encoding of a text that is not empty begins with the sequence of a code point. -/
theorem exists_of_flatMap_eq_cons {t : Text} (clean : ∀ c ∈ t, c.isSurrogate = false)
    (h : t.flatMap encodePoint = lead :: r) :
    ∃ (c : CodePoint) (rest : Text) (tail : Bytes), c.isSurrogate = false ∧
      (∀ c ∈ rest, c.isSurrogate = false) ∧ encodePoint c = lead :: tail ∧
      IsSequence lead tail ∧ numberOf lead tail = c.val ∧ leastNumber tail.length ≤ c.val ∧
      r = tail ++ rest.flatMap encodePoint := by
  cases t with
  | nil => cases h
  | cons c rest =>
    obtain ⟨first, tail, encoded, sequence, number, least⟩ := exists_sequence c
    obtain ⟨hc, hrest⟩ := List.forall_mem_cons.1 clean
    rw [List.flatMap_cons, encoded, List.cons_append] at h
    obtain ⟨rfl, rfl⟩ := List.cons.inj h
    exact ⟨c, rest, tail, hc, hrest, encoded, sequence, number, least, rfl⟩

/-- Bytes in which one of the faults is found encode no text. -/
theorem Malformed.flatMap_ne {bytes : Bytes} (h : Malformed bytes) {t : Text}
    (clean : ∀ c ∈ t, c.isSurrogate = false) : t.flatMap encodePoint ≠ bytes := by
  -- At the first sequence every fault is at odds with the code point that is encoded there.
  induction h generalizing t with
  | stray continues =>
    intro same
    obtain ⟨c, rest, tail, -, -, -, sequence, -⟩ := exists_of_flatMap_eq_cons clean same
    have none := tailLength?_eq_none_iff.2 (Or.inl continues)
    rw [sequence.asked] at none
    cases none
  | noLead high =>
    intro same
    obtain ⟨c, rest, tail, -, -, -, sequence, -⟩ := exists_of_flatMap_eq_cons clean same
    have none := tailLength?_eq_none_iff.2 (Or.inr high)
    rw [sequence.asked] at none
    cases none
  | missing asked few =>
    intro same
    obtain ⟨c, rest, tail, -, -, -, sequence, -, -, rfl⟩ := exists_of_flatMap_eq_cons clean same
    obtain rfl := Option.some.inj (sequence.asked.symm.trans asked)
    rw [List.takeWhile_append_of_pos sequence.continues, List.length_append] at few
    omega
  | overlong r sequence small =>
    intro same
    obtain ⟨c, rest, tail, -, -, -, sequence', number, least, split⟩ :=
      exists_of_flatMap_eq_cons clean same
    obtain ⟨-, rfl, -⟩ := sequence.append_inj sequence' (congrArg (_ :: ·) split)
    omega
  | surrogate r sequence low high =>
    intro same
    obtain ⟨c, rest, tail, hc, -, -, sequence', number, -, split⟩ :=
      exists_of_flatMap_eq_cons clean same
    obtain ⟨-, rfl, -⟩ := sequence.append_inj sequence' (congrArg (_ :: ·) split)
    rw [isSurrogate_eq_false_iff] at hc
    omega
  | beyond r sequence large =>
    intro same
    obtain ⟨c, rest, tail, -, -, -, sequence', number, -, split⟩ :=
      exists_of_flatMap_eq_cons clean same
    obtain ⟨-, rfl, -⟩ := sequence.append_inj sequence' (congrArg (_ :: ·) split)
    have bound := c.isLt
    omega
  | @later c r _ _ ih =>
    intro same
    obtain ⟨first, tail, encoded, sequence, -⟩ := exists_sequence c
    rw [encoded, List.cons_append] at same
    obtain ⟨c', rest, tail', -, hrest, -, sequence', -, -, split⟩ :=
      exists_of_flatMap_eq_cons clean same
    obtain ⟨-, -, behind⟩ := sequence.append_inj sequence' (congrArg (_ :: ·) split)
    exact ih hrest behind.symm

/-- **Bytes encode no text exactly if one of the faults is found in them.** -/
theorem malformed_iff {bytes : Bytes} :
    Malformed bytes ↔ ¬ ∃ t, encode t = .ok bytes := by
  constructor
  · rintro h ⟨t, encoded⟩
    obtain ⟨clean, rfl⟩ := encode_eq_ok_iff.1 encoded
    exact h.flatMap_ne clean rfl
  · intro h
    rcases encoded_or_malformed bytes with ⟨t, clean, rfl⟩ | bad
    · exact absurd ⟨t, encode_eq_ok_iff.2 ⟨clean, rfl⟩⟩ h
    · exact bad

/-! ## Decoding is exact -/

/-- A byte of the ASCII range is written by itself. -/
theorem encodePoint_one (h : b < 0x80) : encodePoint (.ofNat b.toNat) = [b] := by
  have low : b.toNat < 0x80 := UInt8.lt_iff_toNat_lt.1 h
  have value : (CodePoint.ofNat b.toNat).val = b.toNat := CodePoint.val_ofNat (by omega)
  refine encodePoint_of_isSequence ⟨tailLength?_eq_some_iff.2 ?_, List.forall_mem_nil _⟩ ?_ ?_
  · rw [List.length_nil]
    omega
  · rw [numberOf_nil, value]
  · exact Nat.zero_le _

/-- What two bytes are decoded to is written with these two. -/
theorem encodePoint_two {b₁ : UInt8} (low : ¬ b < 0xc2) (high : b < 0xe0)
    (h₁ : isContinuation b₁ = true) :
    encodePoint (.ofNat (b.toNat % 0x20 * 0x40 + payload b₁)) = [b, b₁] := by
  have low : 0xc2 ≤ b.toNat := UInt8.le_iff_toNat_le.1 (UInt8.not_lt.1 low)
  have high : b.toNat < 0xe0 := UInt8.lt_iff_toNat_lt.1 high
  have few := payload_lt b₁
  have value := CodePoint.val_ofNat
    (by omega : b.toNat % 0x20 * 0x40 + payload b₁ < 0x110000)
  refine encodePoint_of_isSequence ⟨tailLength?_eq_some_iff.2 ?_, ?_⟩ ?_ ?_
  · rw [List.length_singleton]
    omega
  · exact List.forall_mem_singleton.2 h₁
  · rw [numberOf_one, value]
  · rw [value]
    show 0x80 ≤ _
    omega

/-- The second byte keeps three bytes from being overlong. -/
theorem encodePoint_three {b₁ b₂ : UInt8} (low : ¬ b < 0xe0) (high : b < 0xf0)
    (h₁ : isSecond b b₁ = true) (h₂ : isContinuation b₂ = true) :
    encodePoint (.ofNat ((b.toNat % 0x10 * 0x40 + payload b₁) * 0x40 + payload b₂)) =
      [b, b₁, b₂] := by
  have low : 0xe0 ≤ b.toNat := UInt8.le_iff_toNat_le.1 (UInt8.not_lt.1 low)
  have high : b.toNat < 0xf0 := UInt8.lt_iff_toNat_lt.1 high
  have second := isSecond_iff.1 h₁
  have h₁ : isContinuation b₁ = true := isContinuation_iff.2 second.1
  have few₁ : payload b₁ = b₁.toNat % 0x40 := rfl
  have few₂ := payload_lt b₂
  have value := CodePoint.val_ofNat
    (by omega : (b.toNat % 0x10 * 0x40 + payload b₁) * 0x40 + payload b₂ < 0x110000)
  refine encodePoint_of_isSequence ⟨tailLength?_eq_some_iff.2 ?_, ?_⟩ ?_ ?_
  · rw [List.length_cons, List.length_singleton]
    omega
  · exact List.forall_mem_cons.2 ⟨h₁, List.forall_mem_singleton.2 h₂⟩
  · rw [numberOf_two, value]
  · rw [value]
    show 0x800 ≤ _
    omega

/-- The second byte keeps four bytes from being overlong and inside the code space. -/
theorem encodePoint_four {b₁ b₂ b₃ : UInt8} (low : ¬ b < 0xf0) (high : b < 0xf5)
    (h₁ : isSecond b b₁ = true) (h₂ : isContinuation b₂ = true) (h₃ : isContinuation b₃ = true) :
    encodePoint (.ofNat (((b.toNat % 0x08 * 0x40 + payload b₁) * 0x40 + payload b₂) * 0x40 +
      payload b₃)) = [b, b₁, b₂, b₃] := by
  have low : 0xf0 ≤ b.toNat := UInt8.le_iff_toNat_le.1 (UInt8.not_lt.1 low)
  have high : b.toNat < 0xf5 := UInt8.lt_iff_toNat_lt.1 high
  have second := isSecond_iff.1 h₁
  have h₁ : isContinuation b₁ = true := isContinuation_iff.2 second.1
  have few₁ : payload b₁ = b₁.toNat % 0x40 := rfl
  have few₂ := payload_lt b₂
  have few₃ := payload_lt b₃
  have value := CodePoint.val_ofNat
    (by omega : ((b.toNat % 0x08 * 0x40 + payload b₁) * 0x40 + payload b₂) * 0x40 + payload b₃ <
      0x110000)
  refine encodePoint_of_isSequence ⟨tailLength?_eq_some_iff.2 ?_, ?_⟩ ?_ ?_
  · rw [List.length_cons, List.length_cons, List.length_singleton]
    omega
  · exact List.forall_mem_cons.2 ⟨h₁, List.forall_mem_cons.2 ⟨h₂, List.forall_mem_singleton.2 h₃⟩⟩
  · rw [numberOf_three, value]
  · rw [value]
    show 0x10000 ≤ _
    omega

/-- What is decoded of some bytes is encoded as these bytes. -/
theorem exists_flatMap_of_decodeFrom {start : Nat} {done t : Text} {bytes : Bytes}
    (h : decodeFrom start done bytes = .ok t) :
    ∃ u : Text, t = done.reverse ++ u ∧ u.flatMap encodePoint = bytes := by
  -- Each way on takes a sequence off and puts its code point in front of what the rest stands for.
  have next {c : CodePoint} {done : Text} {taken rest : Bytes} (encoded : encodePoint c = taken)
      (ih : ∃ u : Text, t = (c :: done).reverse ++ u ∧ u.flatMap encodePoint = rest) :
      ∃ u : Text, t = done.reverse ++ u ∧ u.flatMap encodePoint = taken ++ rest := by
    obtain ⟨u, rfl, rfl⟩ := ih
    refine ⟨c :: u, ?_, ?_⟩
    · rw [List.reverse_cons, List.append_assoc, List.singleton_append]
    · rw [List.flatMap_cons, encoded]
  fun_induction decodeFrom start done bytes with
  | case1 start done =>
    -- nothing is left
    exact ⟨[], by rw [← Except.ok.inj h, List.append_nil], rfl⟩
  | case2 start done b r one ih =>
    -- one byte
    exact next (encodePoint_one one) (ih h)
  | case6 start done b one bad two b₁ r second ih =>
    -- two bytes
    exact next (encodePoint_two bad two (by simpa using second)) (ih h)
  | case11 start done b _ _ low high b₁ second b₂ r third ih =>
    -- three bytes
    exact next (encodePoint_three low high (by simpa using second) (by simpa using third)) (ih h)
  | case18 start done b _ _ _ low high b₁ second b₂ third b₃ r fourth ih =>
    -- four bytes
    exact next (encodePoint_four low high (by simpa using second) (by simpa using third)
      (by simpa using fourth)) (ih h)
  | _ => cases h

/-- **Decoding is the inverse of encoding.** -/
theorem decode_eq_ok_iff {t : Text} {bytes : Bytes} :
    decode bytes = .ok t ↔ encode t = .ok bytes := by
  refine ⟨fun h => ?_, decode_encode⟩
  obtain ⟨u, rfl, same⟩ := exists_flatMap_of_decodeFrom h
  exact encode_eq_ok_iff.2 ⟨isSurrogate_eq_false_of_decode h, same.symm⟩

/-- **Decoding refuses exactly what encodes no text.** -/
theorem exists_decode_eq_error_iff {bytes : Bytes} :
    (∃ fault, decode bytes = .error fault) ↔ Malformed bytes := by
  rw [malformed_iff]
  cases decoded : decode bytes with
  | ok t => simpa using ⟨t, decode_eq_ok_iff.1 decoded⟩
  | error fault =>
    simp only [Except.error.injEq, exists_eq', true_iff]
    rintro ⟨t, encoded⟩
    rw [decode_encode encoded] at decoded
    cases decoded

/-- An overlong null, a surrogate and a number outside the code space are refused, and so are a
sequence that is cut short and a continuation byte by itself. -/
example : Malformed [0xc0, 0x80] ∧ Malformed [0xed, 0xa0, 0x80] ∧
    Malformed [0xf4, 0x90, 0x80, 0x80] ∧ Malformed [0x61, 0xe2, 0x82] ∧ Malformed [0x80] := by
  simp only [← exists_decode_eq_error_iff]
  exact ⟨⟨_, rfl⟩, ⟨_, rfl⟩, ⟨_, rfl⟩, ⟨_, rfl⟩, ⟨_, rfl⟩⟩

end Packaging.Utf8
