import Mathlib.Data.List.Chain
import Packaging.Json.Reader
import Packaging.Json.Writer
import Packaging.Proofs.Text.Numerals

/-! # JSON strings
Writing escapes each code point on its own, while reading joins a leading surrogate that an escape
wrote to a trailing one right after it. So a text is read back from its string exactly as long as it
holds no two surrogates that could be joined; and a text that was read holds none, because reading
has already joined them. -/

namespace Packaging

namespace CodePoint

/-- Two code points that reading joins when escapes write them one after the other. -/
def Joins (c d : CodePoint) : Prop := c.isHighSurrogate = true ∧ d.isLowSurrogate = true

instance (c d : CodePoint) : Decidable (c.Joins d) := inferInstanceAs (Decidable (_ ∧ _))

/-- The leading surrogates by their numbers. -/
theorem isHighSurrogate_iff {c : CodePoint} :
    c.isHighSurrogate = true ↔ 0xd800 ≤ c.val ∧ c.val ≤ 0xdbff := by
  simp [isHighSurrogate, isBetween]

/-- The trailing surrogates by their numbers. -/
theorem isLowSurrogate_iff {c : CodePoint} :
    c.isLowSurrogate = true ↔ 0xdc00 ≤ c.val ∧ c.val ≤ 0xdfff := by
  simp [isLowSurrogate, isBetween]

/-- No surrogate is of both kinds. -/
theorem isLowSurrogate_of_isHighSurrogate {c : CodePoint} (h : c.isHighSurrogate = true) :
    c.isLowSurrogate = false := by
  rw [isHighSurrogate_iff] at h
  rw [← Bool.not_eq_true, isLowSurrogate_iff]
  omega

/-- What is no surrogate is no leading one. -/
theorem isHighSurrogate_eq_false {c : CodePoint} (h : c.isSurrogate = false) :
    c.isHighSurrogate = false := by
  simp only [isSurrogate, isHighSurrogate, isBetween, Bool.and_eq_false_iff,
    decide_eq_false_iff_not] at h ⊢
  omega

/-- What is no surrogate is no trailing one. -/
theorem isLowSurrogate_eq_false {c : CodePoint} (h : c.isSurrogate = false) :
    c.isLowSurrogate = false := by
  simp only [isSurrogate, isLowSurrogate, isBetween, Bool.and_eq_false_iff,
    decide_eq_false_iff_not] at h ⊢
  omega

/-- The number that two surrogates write together. -/
theorem val_joinSurrogates (high low : CodePoint) :
    (high.joinSurrogates low).val = 0x10000 + high.val % 0x400 * 0x400 + low.val % 0x400 := by
  rw [joinSurrogates]
  exact val_ofNat (by omega)

/-- Two joined surrogates make a code point beyond the basic plane, which is no surrogate. -/
theorem isSurrogate_joinSurrogates (high low : CodePoint) :
    (high.joinSurrogates low).isSurrogate = false := by
  rw [isSurrogate, isBetween, val_joinSurrogates]
  simp
  omega

end CodePoint

/-- No code point of a text joins the one right after it. -/
def Text.Joined (t : Text) : Prop := t.IsChain fun c d => ¬ c.Joins d

instance (t : Text) : Decidable t.Joined := inferInstanceAs (Decidable (t.IsChain _))

/-- A text without surrogates has none to join. -/
theorem Text.joined_of_isSurrogate_eq_false {t : Text} (clean : ∀ c ∈ t, c.isSurrogate = false) :
    t.Joined := by
  refine List.Pairwise.isChain (List.pairwise_of_forall_mem_list fun c hc d _ joins => ?_)
  have high := CodePoint.isHighSurrogate_eq_false (clean c hc)
  exact Bool.false_ne_true (high.symm.trans joins.1)

namespace Json

/-! ## Escapes -/

/-- The four ways in which a code point stands in a written string. -/
inductive Escaped : CodePoint → Text → Prop
  /-- A backslash and one more code point. -/
  | simple {e c : CodePoint} (meaning : simpleEscape? e = some c)
    (other : e ≠ CodePoint.ofChar 'u') (printable : e.isBetween 0x20 0x7e = true)
    (ascii : c.isAscii = true) : Escaped c [CodePoint.ofChar '\\', e]
  /-- The code point itself. -/
  | plain {c : CodePoint} (quote : c ≠ CodePoint.ofChar '"')
    (backslash : c ≠ CodePoint.ofChar '\\') (printable : c.isBetween 0x20 0x7e = true) :
    Escaped c [c]
  /-- One unit, for a code point of the basic plane. -/
  | unit {c : CodePoint} (basic : c.val < 0x10000) : Escaped c (escapeUnit c.val)
  /-- Two units, for a code point beyond it. -/
  | pair {c : CodePoint} (beyond : 0x10000 ≤ c.val) :
    Escaped c (escapeUnit (0xd800 + (c.val - 0x10000) / 0x400) ++
      escapeUnit (0xdc00 + (c.val - 0x10000) % 0x400))

/-- Every code point is written in one of the four ways. -/
theorem escaped_escape (c : CodePoint) : Escaped c (escape c) := by
  rw [escape]
  -- Seven code points have an escape of their own; what is no ASCII is left for units.
  split
  case isTrue h =>
    rw [h]
    exact .simple (by decide) (by decide) (by decide) (by decide)
  case isFalse quote =>
  split
  case isTrue h =>
    rw [h]
    exact .simple (by decide) (by decide) (by decide) (by decide)
  case isFalse backslash =>
  split
  case isTrue h =>
    rw [h]
    exact .simple (by decide) (by decide) (by decide) (by decide)
  split
  case isTrue h =>
    rw [h]
    exact .simple (by decide) (by decide) (by decide) (by decide)
  split
  case isTrue h =>
    rw [h]
    exact .simple (by decide) (by decide) (by decide) (by decide)
  split
  case isTrue h =>
    have same : c = CodePoint.ofNat 0x08 := CodePoint.ext h
    rw [same]
    exact .simple (by decide) (by decide) (by decide) (by decide)
  split
  case isTrue h =>
    have same : c = CodePoint.ofNat 0x0c := CodePoint.ext h
    rw [same]
    exact .simple (by decide) (by decide) (by decide) (by decide)
  split
  case isTrue printable => exact .plain quote backslash printable
  split
  case isTrue basic => exact .unit basic
  case isFalse beyond => exact .pair (Nat.not_lt.1 beyond)

/-! ## Reading what was written -/

section Written

variable (start : Text) (p : Partial)

/-- A quote ends a string. -/
theorem readString_quote (r : Text) :
    readString start p (CodePoint.ofChar '"' :: r) = .ok (p.done.reverse, r) := by
  rw [readString.eq_def]
  exact if_pos rfl

/-- A printable code point stands for itself. -/
theorem readString_plain {c : CodePoint} (quote : c ≠ CodePoint.ofChar '"')
    (backslash : c ≠ CodePoint.ofChar '\\') (printable : 0x20 ≤ c.val) (r : Text) :
    readString start p (c :: r) = readString start (p.push c) r := by
  rw [readString.eq_def]
  simp only [if_neg quote, if_neg backslash, if_neg (Nat.not_lt.2 printable)]

/-- An escape of one letter stands for its code point. -/
theorem readString_simpleEscape {e c : CodePoint} (h : simpleEscape? e = some c)
    (plain : e ≠ CodePoint.ofChar 'u') (r : Text) :
    readString start p (CodePoint.ofChar '\\' :: e :: r) = readString start (p.push c) r := by
  rw [readString.eq_def]
  simp only [if_neg plain, h]
  rfl

/-- An escape of four digits stands for a unit, which may go together with the one before it. -/
theorem readString_unitEscape {a b c d u : CodePoint} (h : unitOf? a b c d = some u) {r : Text}
    (more : r ≠ []) :
    readString start p
        (CodePoint.ofChar '\\' :: CodePoint.ofChar 'u' :: a :: b :: c :: d :: r) =
      readString start (p.pushUnit u) r := by
  rw [readString, if_neg (by decide), if_pos rfl]
  simp only [h, List.isEmpty_eq_false_iff.2 more, ↓reduceIte]

/-- The code point of a written unit is the unit. -/
theorem readString_escapeUnit {n : Nat} (h : n < 0x10000) {r : Text} (more : r ≠ []) :
    readString start p (escapeUnit n ++ r) =
      readString start (p.pushUnit (CodePoint.ofNat n)) r := by
  have length : (Text.ofHex 4 n).length = 4 := Text.length_ofHex (by decide) h
  obtain ⟨a, b, c, d, digits⟩ : ∃ a b c d, Text.ofHex 4 n = [a, b, c, d] := by
    match Text.ofHex 4 n, length with
    | [a, b, c, d], _ => exact ⟨a, b, c, d, rfl⟩
  have unit : unitOf? a b c d = some (CodePoint.ofNat n) := by
    rw [unitOf?, ← digits, Text.hexValue?_ofHex]
    rfl
  rw [escapeUnit, digits]
  exact readString_unitEscape start p unit more

end Written

namespace Partial

variable (p : Partial)

/-- A unit that joins nothing is added as it is. -/
theorem pushUnit_of_alone {u : CodePoint} (h : p.pending = true → u.isLowSurrogate = false) :
    p.pushUnit u = ⟨u :: p.done, u.isHighSurrogate⟩ := by
  have alone : (p.pending && u.isLowSurrogate) = false := by
    cases hp : p.pending with
    | false => rfl
    | true => exact h hp
  rw [pushUnit, alone]

/-- The two units of a code point beyond the basic plane are joined to it. -/
theorem pushUnit_pushUnit {c : CodePoint} (h : 0x10000 ≤ c.val) :
    (p.pushUnit (CodePoint.ofNat (0xd800 + (c.val - 0x10000) / 0x400))).pushUnit
        (CodePoint.ofNat (0xdc00 + (c.val - 0x10000) % 0x400)) = ⟨c :: p.done, false⟩ := by
  have bound : c.val < 0x110000 := c.isLt
  set high := CodePoint.ofNat (0xd800 + (c.val - 0x10000) / 0x400) with high_def
  set low := CodePoint.ofNat (0xdc00 + (c.val - 0x10000) % 0x400) with low_def
  have high_val : high.val = 0xd800 + (c.val - 0x10000) / 0x400 := CodePoint.val_ofNat (by omega)
  have low_val : low.val = 0xdc00 + (c.val - 0x10000) % 0x400 := CodePoint.val_ofNat (by omega)
  have isHigh : high.isHighSurrogate = true := by
    rw [CodePoint.isHighSurrogate_iff]
    omega
  have isLow : low.isLowSurrogate = true := by
    rw [CodePoint.isLowSurrogate_iff]
    omega
  have joined : high.joinSurrogates low = c := by
    apply CodePoint.ext
    rw [CodePoint.val_joinSurrogates]
    omega
  rw [p.pushUnit_of_alone fun _ => CodePoint.isLowSurrogate_of_isHighSurrogate isHigh, pushUnit,
    isHigh, isLow, ← joined]
  rfl

end Partial

/-- **What is written of one code point is read back**, unless it is a trailing surrogate that would
be joined to what an escape before it wrote. -/
theorem readString_escape (start : Text) {p : Partial} {c : CodePoint}
    (h : p.pending = true → c.isLowSurrogate = false) {r : Text} (more : r ≠ []) :
    readString start p (escape c ++ r) =
      readString start ⟨c :: p.done, c.isHighSurrogate⟩ r := by
  -- What is no surrogate is pushed the way a unit is.
  have push (low : c.val < 0x80) : p.push c = ⟨c :: p.done, c.isHighSurrogate⟩ := by
    have high : c.isHighSurrogate = false := by
      rw [← Bool.not_eq_true, CodePoint.isHighSurrogate_iff]
      omega
    rw [Partial.push, high]
  have escaped := escaped_escape c
  generalize escape c = t at escaped
  cases escaped with
  | @simple e c meaning other printable ascii =>
    rw [← push (of_decide_eq_true ascii)]
    exact readString_simpleEscape start p meaning other r
  | plain quote backslash printable =>
    have ⟨low, high⟩ : 0x20 ≤ c.val ∧ c.val ≤ 0x7e := by
      simpa [CodePoint.isBetween] using printable
    rw [← push (by omega)]
    exact readString_plain start p quote backslash low r
  | unit basic =>
    have same : CodePoint.ofNat c.val = c := CodePoint.ext (CodePoint.val_ofNat c.isLt)
    rw [readString_escapeUnit start p basic more, same, p.pushUnit_of_alone h]
  | pair beyond =>
    have bound : c.val < 0x110000 := c.isLt
    have high : c.isHighSurrogate = false := by
      rw [← Bool.not_eq_true, CodePoint.isHighSurrogate_iff]
      omega
    have second : escapeUnit (0xdc00 + (c.val - 0x10000) % 0x400) ++ r ≠ [] := by
      simp [escapeUnit, more]
    rw [List.append_assoc, readString_escapeUnit start p (by omega) second,
      readString_escapeUnit start _ (by omega) more, p.pushUnit_pushUnit beyond, high]

/-- **A text without surrogates to join is read back from its string.** -/
theorem readString_flatMap_escape (start : Text) {t : Text} (joined : t.Joined) (p : Partial)
    (h : p.pending = true → ∀ c ∈ t.head?, c.isLowSurrogate = false) (r : Text) :
    readString start p (t.flatMap escape ++ CodePoint.ofChar '"' :: r) =
      .ok (p.done.reverse ++ t, r) := by
  -- What goes on from one code point to the next is that a pending one is not joined.
  induction t generalizing p with
  | nil =>
    rw [List.append_nil]
    exact readString_quote start p r
  | cons c t ih =>
    rw [List.flatMap_cons, List.append_assoc,
      readString_escape start (fun pending => h pending c rfl) (by simp), ih joined.tail]
    · simp
    · intro high d hd
      rw [← Bool.not_eq_true]
      intro low
      exact joined.rel_head? hd ⟨high, low⟩

/-! ## What was read -/

/-- What holds of a string while it is read from a text without surrogates: nothing is left to join
so far, and a leading surrogate at the end is known to be pending. -/
structure Partial.Joined (p : Partial) : Prop where
  /-- No code point so far joins the one after it. -/
  chain : p.done.IsChain fun d c => ¬ c.Joins d
  /-- A leading surrogate at the end is pending. -/
  pending : ∀ c ∈ p.done.head?, c.isHighSurrogate = true → p.pending = true

namespace Partial.Joined

/-- Nothing read so far is joined. -/
theorem start : (⟨[], false⟩ : Partial).Joined := by
  refine ⟨.nil, ?_⟩
  intro c h
  cases h

/-- A code point that is no surrogate joins nothing and waits for nothing. -/
theorem push {done : Text} (h : done.IsChain fun d c => ¬ c.Joins d) {c : CodePoint}
    (clean : c.isSurrogate = false) : (⟨c :: done, false⟩ : Partial).Joined := by
  refine ⟨h.cons ?_, ?_⟩
  · rintro d _ ⟨-, low⟩
    rw [CodePoint.isLowSurrogate_eq_false clean] at low
    cases low
  · intro d hd high
    rw [← Option.some.inj hd, CodePoint.isHighSurrogate_eq_false clean] at high
    cases high

/-- A unit that is added as it is follows no leading surrogate, for that would be pending. -/
theorem pushUnit {p : Partial} (h : p.Joined) (u : CodePoint) : (p.pushUnit u).Joined := by
  rw [Partial.pushUnit]
  split
  -- The joined code point takes the place of the leading surrogate.
  next high rest pending done =>
    have chain := h.chain
    rw [done] at chain
    exact push chain.tail (CodePoint.isSurrogate_joinSurrogates high u)
  next alone =>
    refine ⟨h.chain.cons ?_, ?_⟩
    · rintro d hd ⟨high, low⟩
      obtain ⟨rest, done⟩ := List.head?_eq_some_iff.1 hd
      have joins : (p.pending && u.isLowSurrogate) = true := by
        rw [h.pending d hd high, low]
        rfl
      exact alone d rest joins done
    · intro d hd high
      obtain rfl := Option.some.inj hd
      exact high

end Partial.Joined

/-- No escape of one letter stands for a surrogate. -/
theorem isSurrogate_of_simpleEscape? {e c : CodePoint} (h : simpleEscape? e = some c)
    (clean : e.isSurrogate = false) : c.isSurrogate = false := by
  rw [simpleEscape?] at h
  split at h
  · obtain rfl := Option.some.inj h
    exact clean
  · repeat' split at h
    all_goals first | exact Option.some.inj h ▸ rfl | cases h

/-- What is left after a string is an end of what it was read from. -/
theorem suffix_of_readString {start : Text} {p : Partial} {t s r : Text}
    (h : readString start p t = .ok (s, r)) : r <:+ t := by
  -- All other cases than these four are faults.
  fun_induction readString start p t with
  | case2 p rest =>
    -- the closing quote
    obtain ⟨rfl, rfl⟩ := Prod.mk.inj (Except.ok.inj h)
    exact List.suffix_cons _ _
  | case4 p a b c d rest unit _ _ _ ih =>
    exact (ih h).trans (List.suffix_append [_, _, a, b, c, d] rest)
  | case7 p e rest _ c _ _ ih => exact (ih h).trans (List.suffix_append [_, e] rest)
  | case10 p c rest _ _ _ ih => exact (ih h).trans (List.suffix_cons c rest)
  | _ => cases h

/-- **Reading a string leaves nothing to join.** -/
theorem joined_of_readString {start : Text} {p : Partial} {t s r : Text}
    (h : readString start p t = .ok (s, r)) (clean : ∀ c ∈ t, c.isSurrogate = false)
    (joined : p.Joined) : s.Joined := by
  fun_induction readString start p t with
  | case2 p rest =>
    -- the closing quote: what is done is kept in reverse
    obtain ⟨rfl, rfl⟩ := Prod.mk.inj (Except.ok.inj h)
    exact List.isChain_reverse.2 joined.chain
  | case4 p a b c d rest unit _ _ _ ih =>
    -- an escaped unit, which may be a surrogate
    have rest_clean : ∀ e ∈ rest, e.isSurrogate = false := fun e he =>
      clean e ((List.suffix_append [_, _, a, b, c, d] rest).subset he)
    exact ih h rest_clean (joined.pushUnit unit)
  | case7 p e rest _ c meaning _ ih =>
    -- a simple escape
    obtain ⟨_, clean⟩ := List.forall_mem_cons.1 clean
    obtain ⟨e_clean, rest_clean⟩ := List.forall_mem_cons.1 clean
    exact ih h rest_clean (.push joined.chain (isSurrogate_of_simpleEscape? meaning e_clean))
  | case10 p c rest _ _ _ ih =>
    -- a code point that stands for itself, no surrogate by assumption
    obtain ⟨c_clean, rest_clean⟩ := List.forall_mem_cons.1 clean
    exact ih h rest_clean (.push joined.chain c_clean)
  | _ => cases h

end Json

end Packaging
