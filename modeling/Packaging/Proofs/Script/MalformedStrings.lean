import Packaging.Proofs.Script.Acceptance
import Packaging.Proofs.Script.Escapes

/-! # Malformed strings
The scanner cuts many strings that stand for no text. Which ones these are can be told from the
body: it holds a null character or a surrogate, a carriage return that no backslash takes along, or
an escape with too few hexadecimal digits or with a number outside the code space. Every other
string without an escape by name stands for a text, whatever its escapes are. -/

namespace Packaging.Script.Literal

/-! ## Faulty escapes -/

/-- The escapes of a body, cut from left to right: the code point that each backslash takes along,
and the text after it. -/
def escapes : Text → List (CodePoint × Text)
  | [] => []
  | c :: r =>
    if c = '\\' then
      match r with
      | [] => []
      | e :: r => (e, r) :: escapes r
    else escapes r

/-- An escape, its letter before the text after it, that means nothing. -/
inductive Faulty : CodePoint → Text → Prop
  /-- There are fewer hexadecimal digits than the letter asks for. -/
  | short {e : CodePoint} {width : Nat} {r : Text} (letter : (e, width) ∈ hexEscapes)
      (few : (r.takeWhile fun c => c.hexValue?.isSome).length < width) : Faulty e r
  /-- Eight digits are the number of no code point. -/
  | outOfRange {digits r : Text} {n : Nat} (starts : digits <+: r) (length : digits.length = 8)
      (value : Text.hexValue? digits = some n) (large : 0x10ffff < n) : Faulty 'U' r

/-- The bodies of strings that stand for no text, but for escapes by name. -/
inductive Malformed (body : Text) : Prop
  /-- There is a null character. -/
  | null {c : CodePoint} (mem : c ∈ body) (isNull : c.val = 0)
  /-- There is a surrogate. -/
  | surrogate {c : CodePoint} (mem : c ∈ body) (isSurrogate : c.isSurrogate = true)
  /-- There is a carriage return that no backslash takes along. -/
  | broken (mem : CodePoint.ofChar '\r' ∈ ordinary body)
  /-- There is a faulty escape. -/
  | escape {e : CodePoint} {r : Text} (mem : (e, r) ∈ escapes body) (faulty : Faulty e r)

/-- A code point that is no backslash belongs to no escape that starts with it. -/
theorem escapes_cons {c : CodePoint} (h : c ≠ '\\') (r : Text) : escapes (c :: r) = escapes r := by
  rw [escapes.eq_def]
  exact if_neg h

/-- A backslash and the code point after it start an escape. -/
@[simp] theorem escapes_escape (e : CodePoint) (r : Text) :
    escapes ('\\' :: e :: r) = (e, r) :: escapes r := by
  rw [escapes.eq_def]
  exact if_pos rfl

/-- No two entries tell of one letter. -/
theorem width_unique {e : CodePoint} {width width' : Nat} (h : (e, width) ∈ hexEscapes)
    (h' : (e, width') ∈ hexEscapes) : width = width' := by
  have functional : ∀ p ∈ hexEscapes, ∀ q ∈ hexEscapes, p.1 = q.1 → p.2 = q.2 := by decide
  exact functional _ h _ h' rfl

/-- **An escape of hexadecimal digits is right unless it is faulty.** -/
theorem hexMeaning_ok_iff {e : CodePoint} {width : Nat} {short : Defect}
    (letter : (e, width) ∈ hexEscapes) (r : Text) :
    (∃ t n, hexMeaning width short r = .ok (t, n)) ↔ ¬ Faulty e r := by
  simp only [hexMeaning_eq_ok_iff]
  constructor
  · rintro ⟨_, _, digits, rest, c, rfl, length, value, -, -⟩ faulty
    cases faulty with
    | short letter' few =>
      obtain rfl := width_unique letter letter'
      have enough := length_le_takeWhile (List.prefix_append digits rest)
        (Text.isSome_of_hexValue? value)
      omega
    | @outOfRange digits' _ n starts length' value' large =>
      obtain rfl : width = 8 := width_unique letter (by decide)
      obtain ⟨rest', same⟩ := starts
      obtain ⟨rfl, -⟩ := List.append_inj same (length'.trans length.symm)
      obtain rfl := Option.some.inj (value.symm.trans value')
      have inside := c.isLt
      omega
  · intro right
    have enough : width ≤ (r.takeWhile fun c => c.hexValue?.isSome).length :=
      Nat.le_of_not_lt fun few => right (.short letter few)
    obtain ⟨length, digits⟩ := take_of_le_length_takeWhile enough
    obtain ⟨n, value⟩ := Text.exists_hexValue? digits
    -- Two or four digits cannot leave the code space; with eight of them it is a fault of its own.
    have inside : n < 0x110000 := by
      have bound := Text.hexValue?_lt value
      rw [length] at bound
      simp only [hexEscapes, List.mem_cons, Prod.mk.injEq, List.not_mem_nil, or_false] at letter
      rcases letter with ⟨rfl, rfl⟩ | ⟨rfl, rfl⟩ | ⟨rfl, rfl⟩
      · exact Nat.lt_trans bound (by decide)
      · exact Nat.lt_trans bound (by decide)
      · exact Nat.lt_of_not_le fun large =>
          right (.outOfRange (List.take_prefix 8 r) length value large)
    exact ⟨_, _, r.take width, r.drop width, ⟨n, inside⟩, (List.take_append_drop width r).symm,
      length, value, rfl, rfl⟩

section

variable [CharacterNames]

/-- An escape that is not by name means something unless it is faulty. -/
theorem meaning_ok_iff {e : CodePoint} (notName : e ≠ 'N') (r : Text) :
    (∃ t n, meaning (e :: r) = .ok (t, n)) ↔ ¬ Faulty e r := by
  cases hex : hexEscape? e with
  | some digits =>
    obtain ⟨width, short⟩ := digits
    have letter : (e, width) ∈ hexEscapes := hexEscape?_map_eq_some_iff.1 (by rw [hex]; rfl)
    have simple : ∀ p ∈ hexEscapes, simpleEscape? p.1 = none := by decide
    rw [meaning, simple _ letter, hex]
    exact hexMeaning_ok_iff letter r
  | none =>
    have unlisted (width : Nat) : (e, width) ∉ hexEscapes := by
      rw [← hexEscape?_map_eq_some_iff, hex]
      exact (Option.some_ne_none width).symm
    -- Whatever else follows the backslash, it stands for something.
    have right : ¬ Faulty e r := by
      intro faulty
      cases faulty with
      | short letter few => exact unlisted _ letter
      | outOfRange => exact unlisted 8 (by decide)
    refine iff_of_true ?_ right
    rw [meaning, hex]
    cases simpleEscape? e with
    | some c => exact ⟨_, _, rfl⟩
    | none =>
      dsimp only
      split
      · exact ⟨_, _, rfl⟩
      split
      · exact ⟨_, _, rfl⟩
      · exact ⟨_, _, rfl⟩

/-- **A body stands for a text unless one of its escapes is faulty.** -/
theorem text?_eq_some_iff {quote : CodePoint} {body : Text} (quoted : QuotedBody quote body)
    (unnamed : ∀ p ∈ escapes body, p.1 ≠ 'N') :
    (∃ t, text? body = some t) ↔ ∀ p ∈ escapes body, ¬ Faulty p.1 p.2 := by
  induction quoted with
  | nil => simp [escapes]
  | @plain c body notQuote notBackslash notFeed rest ih =>
    rw [escapes_cons notBackslash] at unnamed ⊢
    rw [← ih unnamed, text?_cons notBackslash]
    simp
  | @escape e body notFeed rest ih =>
    rw [escapes_escape, List.forall_mem_cons] at unnamed
    obtain ⟨notName, unnamed⟩ := unnamed
    rw [escapes_escape, List.forall_mem_cons, ← ih unnamed, ← meaning_ok_iff notName]
    cases means : meaning (e :: body) with
    | error fault =>
      rw [text?_of_fault notName means]
      simp
    | ok result =>
      -- The digits that the escape takes stand for themselves elsewhere.
      obtain ⟨s, n⟩ := result
      obtain ⟨run, behind, rfl, rfl, kept⟩ := exists_run_of_meaning notName means
      rw [text?_of_meaning notName kept means, text?_kept_append kept]
      simp

/-! ## Malformed strings -/

/-- **The strings that stand for a text are those that are not malformed.** -/
theorem decode_ok_iff {raw : Text} (spelled : (Shape.lexeme .string).Spells raw)
    (unnamed : ∀ p ∈ escapes (body raw), p.1 ≠ 'N') :
    (∃ t, decode raw = .ok t) ↔ ¬ Malformed (body raw) := by
  cases spelled with
  | @string quote t isQuote between =>
    simp only [decode_quoted_iff isQuote]
    rw [body_quoted] at unnamed ⊢
    constructor
    · rintro ⟨s, noSurrogate, noNull, unbroken, stands⟩ malformed
      cases malformed with
      | null mem isNull => exact noNull _ mem isNull
      | surrogate mem isSurrogate =>
        exact Bool.false_ne_true ((noSurrogate _ mem).symm.trans isSurrogate)
      | broken mem => exact unbroken mem
      | escape mem faulty => exact (text?_eq_some_iff between unnamed).1 ⟨s, stands⟩ _ mem faulty
    · intro right
      obtain ⟨s, stands⟩ := (text?_eq_some_iff between unnamed).2 fun p mem faulty =>
        right (.escape mem faulty)
      refine ⟨s, fun c mem => ?_, fun c mem isNull => right (.null mem isNull),
        fun mem => right (.broken mem), stands⟩
      exact Bool.eq_false_iff.2 fun isSurrogate => right (.surrogate mem isSurrogate)

/-- **Strings are refused exactly if they are malformed.** A string without an escape by name, be it
part of a script or an expression of its own, is the text that it stands for, or it is malformed and
refused as an invalid string at its own place. -/
theorem string_refused_iff_malformed {raw : Text} (spelled : (Shape.lexeme .string).Spells raw)
    (unnamed : ∀ p ∈ escapes (body raw), p.1 ≠ 'N') (place : Place) :
    (Malformed (body raw) ↔ ∃ fault, (Phrase.literal ⟨.string, raw, place⟩).toExpr =
      .error (.badString raw fault place.spot)) ∧
    (¬ Malformed (body raw) ↔ ∃ t, (Phrase.literal ⟨.string, raw, place⟩).toExpr =
      .ok (.literal (.text t) place.spot)) ∧
    (∀ v, (Phrase.literal ⟨.string, raw, place⟩).toExpr = .error v →
      ∃ d rest, (SourceFault.violation v).failure = ⟨.diagnostic d, none⟩ ∧
        d.reasonCode = "script-parse" ∧
        d.kind = .script (some place.spot.line) (some place.spot.column) ∧
        d.message = "invalid string literal " ++ raw ++ rest) ∧
    parseExpr raw =
      ((Phrase.literal ⟨.string, raw, .origin⟩).toExpr).mapError SourceFault.violation := by
  -- The phrase is a value exactly if the string is decoded, so both directions are about decoding.
  have accepted {t : Text} (decoded : decode raw = .ok t) :
      (Phrase.literal ⟨.string, raw, place⟩).toExpr = .ok (.literal (.text t) place.spot) := by
    rw [Phrase.toExpr, literalValue]
    dsimp only
    rw [decoded]
    exact Except.map_ok ..
  have refused {fault : Fault} (decoded : decode raw = .error fault) :
      (Phrase.literal ⟨.string, raw, place⟩).toExpr =
        .error (.badString raw fault place.spot) := by
    rw [Phrase.toExpr, literalValue]
    dsimp only
    rw [decoded]
    exact Except.map_error ..
  have right := decode_ok_iff spelled unnamed
  refine ⟨?_, ?_, ?_, parseExpr_string spelled⟩
  · rw [← not_not (a := Malformed (body raw)), ← right]
    cases decoded : decode raw with
    | ok t => simp [accepted decoded]
    | error fault => simp [refused decoded]
  · rw [← right]
    cases decoded : decode raw with
    | ok t => simp [accepted decoded]
    | error fault => simp [refused decoded]
  · intro v isRefused
    cases decoded : decode raw with
    | ok t =>
      rw [accepted decoded] at isRefused
      cases isRefused
    | error fault =>
      rw [refused decoded] at isRefused
      obtain rfl := Except.error.inj isRefused
      exact ⟨_, ": " ++ fault.message, rfl, rfl, rfl, by simp [unreadable, Text.concat]⟩

end

section

open scoped CharacterNames.Unlisted

/-- After an escaped backslash no escape starts, so the first of two letters `x` is an ordinary code
point; the second belongs to an escape that the closing quote cuts short. -/
theorem truncated_escape_is_refused :
    let raw : Text := ['"', '\\', '\\', 'x', '4', '\\', 'x', '4', '"']
    (Shape.lexeme .string).Spells raw ∧ (∀ p ∈ escapes (body raw), p.1 ≠ 'N') ∧
      Malformed (body raw) ∧
      ∃ fault, (Phrase.literal ⟨.string, raw, ⟨7, 2, 3⟩⟩).toExpr =
        .error (.badString raw fault ⟨2, 3⟩) := by
  intro raw
  have between : QuotedBody '"' ['\\', '\\', 'x', '4', '\\', 'x', '4'] :=
    .escape (by decide) <| .plain (by decide) (by decide) (by decide) <|
      .plain (by decide) (by decide) (by decide) <| .escape (by decide) <|
      .plain (by decide) (by decide) (by decide) .nil
  have spelled : (Shape.lexeme .string).Spells raw := .string (.inl rfl) between
  have unnamed : ∀ p ∈ escapes (body raw), p.1 ≠ 'N' := by decide +kernel
  have letter : (CodePoint.ofChar 'x', 2) ∈ hexEscapes := by decide
  have malformed : Malformed (body raw) :=
    .escape (e := 'x') (r := ['4']) (by decide +kernel) (.short letter (by decide))
  exact ⟨spelled, unnamed, malformed,
    (string_refused_iff_malformed spelled unnamed ⟨7, 2, 3⟩).1.1 malformed⟩

end

end Packaging.Script.Literal
