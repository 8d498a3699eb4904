import Mathlib.Data.List.Induction
import Packaging.Proofs.Outcomes
import Packaging.Proofs.Script.Lexing
import Packaging.Proofs.Text.Contents
import Packaging.Proofs.Text.Numerals
import Packaging.Script.Literal

/-! # Escapes
What a body of a string stands for can be told from the body itself, escape by escape, although
decoding works on another form of it: the code points that escapes take are the same in both forms,
names outside ASCII aside, and what is outside ASCII stands for itself. A string is decoded exactly if
it holds neither surrogates nor null characters, no carriage return stands outside an escape, and
every escape means something. -/

namespace Packaging

/-! ## Digits -/

/-- The hexadecimal digits are the decimal ones and the letters up to `f`, of either case. -/
theorem CodePoint.isSome_hexValue? (c : CodePoint) :
    c.hexValue?.isSome = (c.isDigit || c.isBetween 0x61 0x66 || c.isBetween 0x41 0x46) := by
  rw [hexValue?]
  cases c.isDigit with
  | true => rfl
  | false =>
    cases c.isBetween 0x61 0x66 with
    | true => rfl
    | false => cases c.isBetween 0x41 0x46 <;> rfl

/-- Where the hexadecimal digits lie. -/
theorem CodePoint.val_of_hexValue? {c : CodePoint} (h : c.hexValue?.isSome = true) :
    0x30 ≤ c.val ∧ c.val ≤ 0x66 := by
  simp only [isSome_hexValue?, isDigit, isBetween, Bool.or_eq_true, Bool.and_eq_true,
    decide_eq_true_eq] at h
  omega

/-- Octal digits are hexadecimal ones. -/
theorem CodePoint.isSome_hexValue?_of_isOctalDigit {c : CodePoint} (h : c.isOctalDigit = true) :
    c.hexValue?.isSome = true := by
  simp only [isOctalDigit, isBetween, Bool.and_eq_true, decide_eq_true_eq] at h
  simp only [isSome_hexValue?, isDigit, isBetween, Bool.or_eq_true, Bool.and_eq_true,
    decide_eq_true_eq]
  omega

/-- What has a value consists of hexadecimal digits. -/
theorem Text.isSome_of_hexValue? {digits : Text} {n : Nat} (h : hexValue? digits = some n) :
    ∀ d ∈ digits, d.hexValue?.isSome = true := by
  rw [hexValue?] at h
  -- The value so far is general, for each digit is read after others.
  generalize 0 = m at h
  induction digits generalizing m with
  | nil => exact List.forall_mem_nil _
  | cons c digits ih =>
    rw [List.foldlM_cons] at h
    obtain ⟨k, first, rest⟩ := Option.bind_eq_some_iff.1 h
    obtain ⟨v, value, -⟩ := Option.map_eq_some_iff.1 first
    exact List.forall_mem_cons.2 ⟨by rw [value]; rfl, ih k rest⟩

/-- Hexadecimal digits have a value. -/
theorem Text.exists_hexValue? {digits : Text} (h : ∀ d ∈ digits, d.hexValue?.isSome = true) :
    ∃ n, hexValue? digits = some n := by
  rw [hexValue?]
  generalize 0 = m
  induction digits generalizing m with
  | nil => exact ⟨m, rfl⟩
  | cons c digits ih =>
    obtain ⟨first, others⟩ := List.forall_mem_cons.1 h
    obtain ⟨v, value⟩ := Option.isSome_iff_exists.1 first
    rw [List.foldlM_cons, value]
    exact ih others _

/-- A hexadecimal digit stands for a number below sixteen. -/
theorem CodePoint.hexValue?_lt {c : CodePoint} {v : Nat} (h : c.hexValue? = some v) : v < 16 := by
  rw [hexValue?] at h
  simp only [isDigit, isBetween, Bool.and_eq_true, decide_eq_true_eq] at h
  split at h
  · obtain rfl := Option.some.inj h
    omega
  split at h
  · obtain rfl := Option.some.inj h
    omega
  split at h
  · obtain rfl := Option.some.inj h
    omega
  · cases h

/-- The value of some digits is bounded by how many they are. -/
theorem Text.hexValue?_lt {digits : Text} {n : Nat} (h : hexValue? digits = some n) :
    n < 16 ^ digits.length := by
  induction digits using List.reverseRecOn generalizing n with
  | nil =>
    obtain rfl := Option.some.inj h
    exact Nat.one_pos
  | append_singleton digits c ih =>
    rw [hexValue?_append] at h
    obtain ⟨k, before, last⟩ := Option.bind_eq_some_iff.1 h
    rw [List.foldlM_cons] at last
    obtain ⟨_, last, same⟩ := Option.bind_eq_some_iff.1 last
    obtain ⟨v, value, rfl⟩ := Option.map_eq_some_iff.1 last
    obtain rfl := Option.some.inj same
    have small := CodePoint.hexValue?_lt value
    have bound := ih before
    rw [List.length_append, List.length_singleton, Nat.pow_succ]
    omega

namespace Script.Literal

/-! ## The expanded form -/

/-- The code points that the expanded form keeps as they are wherever they stand: those of the ASCII
range, but for the backslash. -/
def isKept (c : CodePoint) : Bool := c.isAscii && c != '\\'

/-- What is kept lies in the ASCII range and is no backslash. -/
theorem isKept_iff {c : CodePoint} : isKept c = true ↔ c.isAscii = true ∧ c ≠ '\\' := by
  rw [isKept, Bool.and_eq_true, bne_iff_ne]

/-- Hexadecimal digits are kept. -/
theorem isKept_of_hexValue? {c : CodePoint} (h : c.hexValue?.isSome = true) : isKept c = true := by
  refine isKept_iff.2 ⟨?_, ?_⟩
  · have bounds := CodePoint.val_of_hexValue? h
    rw [CodePoint.isAscii, decide_eq_true_eq]
    omega
  · rintro rfl
    cases h

/-- Octal digits are kept. -/
theorem isKept_of_isOctalDigit {c : CodePoint} (h : c.isOctalDigit = true) : isKept c = true :=
  isKept_of_hexValue? (CodePoint.isSome_hexValue?_of_isOctalDigit h)

/-- A code point of the ASCII range is written as itself. -/
theorem spelled_of_isAscii {c : CodePoint} (h : c.isAscii = true) : spelled c = [c] := by
  rw [spelled, if_pos h]

/-- A code point that is no backslash is expanded by itself. -/
theorem expand_cons {c : CodePoint} (h : c ≠ '\\') (r : Text) :
    expand (c :: r) = spelled c ++ expand r := by
  rw [expand.eq_def]
  exact if_neg h

/-- A backslash before a code point of the ASCII range is expanded together with it. -/
theorem expand_escape {e : CodePoint} (h : e.isAscii = true) (r : Text) :
    expand ('\\' :: e :: r) = CodePoint.ofChar '\\' :: e :: expand r := by
  rw [expand.eq_def]
  dsimp only
  rw [if_pos rfl, if_pos h]

/-- A run of what is kept is expanded to itself. -/
theorem expand_kept_append {run : Text} (kept : ∀ c ∈ run, isKept c = true) (r : Text) :
    expand (run ++ r) = run ++ expand r := by
  induction run with
  | nil => rfl
  | cons c run ih =>
    obtain ⟨first, others⟩ := List.forall_mem_cons.1 kept
    obtain ⟨ascii, notBackslash⟩ := isKept_iff.1 first
    rw [List.cons_append, expand_cons notBackslash, spelled_of_isAscii ascii, ih others]
    rfl

/-- What is not kept is written with a backslash. -/
theorem exists_expand_eq {c : CodePoint} (h : isKept c = false) (r : Text) :
    ∃ s, expand (c :: r) = CodePoint.ofChar '\\' :: s := by
  by_cases backslash : c = '\\'
  · subst backslash
    cases r with
    | nil => exact ⟨[], rfl⟩
    | cons d r =>
      cases ascii : d.isAscii with
      | true => exact ⟨_, expand_escape ascii r⟩
      | false =>
        rw [expand.eq_def]
        dsimp only
        rw [if_pos rfl, ascii, if_neg Bool.false_ne_true]
        exact ⟨_, rfl⟩
  · have outside : ¬ c.isAscii = true := fun ascii =>
      Bool.false_ne_true (h.symm.trans (isKept_iff.2 ⟨ascii, backslash⟩))
    rw [expand_cons backslash, spelled, if_neg outside]
    exact ⟨_, rfl⟩

/-- A run of what is kept is the same in both forms. -/
theorem takeWhile_expand {p : CodePoint → Bool} (kept : ∀ c, p c = true → isKept c = true)
    (r : Text) : (expand r).takeWhile p = r.takeWhile p := by
  have backslash : p '\\' = false := by
    rw [← Bool.not_eq_true]
    intro h
    exact absurd (kept _ h) (by decide)
  induction r with
  | nil => rfl
  | cons c r ih =>
    cases h : isKept c with
    | true =>
      have split := expand_kept_append (List.forall_mem_singleton.2 h) r
      rw [List.singleton_append, List.singleton_append] at split
      rw [split, List.takeWhile_cons, List.takeWhile_cons, ih]
    | false =>
      obtain ⟨s, starts⟩ := exists_expand_eq h r
      have stops : p c = false := by
        rw [← Bool.not_eq_true]
        intro more
        exact Bool.false_ne_true (h.symm.trans (kept c more))
      rw [starts, List.takeWhile_cons_of_neg (by simp [backslash]),
        List.takeWhile_cons_of_neg (by simp [stops])]

/-! ## What escapes mean -/

/-- The escapes of one code point after the backslash, and what they stand for. -/
def simpleEscapes : List (CodePoint × CodePoint) :=
  [('\\', '\\'), ('\'', '\''), ('"', '"'), ('a', .ofNat 0x07), ('b', .ofNat 0x08),
    ('t', .ofNat 0x09), ('n', .ofNat 0x0a), ('v', .ofNat 0x0b), ('f', .ofNat 0x0c),
    ('r', .ofNat 0x0d)]

/-- The letters of the escapes of hexadecimal digits, and how many digits they ask for. -/
def hexEscapes : List (CodePoint × Nat) := [('x', 2), ('u', 4), ('U', 8)]

/-- The table of the simple escapes is complete. -/
theorem simpleEscape?_eq_some_iff {e c : CodePoint} :
    simpleEscape? e = some c ↔ (e, c) ∈ simpleEscapes := by
  constructor
  · intro h
    rw [simpleEscape?] at h
    split at h
    · next stands =>
      obtain rfl := Option.some.inj h
      rcases stands with rfl | rfl | rfl <;> decide
    -- One case for each of the seven letters, and a last one in which there is none.
    repeat' split at h
    all_goals
      subst_vars
      cases h <;> decide
  · intro h
    have all : ∀ p ∈ simpleEscapes, simpleEscape? p.1 = some p.2 := by decide
    exact all _ h

/-- The table of the escapes of hexadecimal digits is complete. -/
theorem hexEscape?_map_eq_some_iff {e : CodePoint} {width : Nat} :
    (hexEscape? e).map (·.1) = some width ↔ (e, width) ∈ hexEscapes := by
  constructor
  · intro h
    rw [hexEscape?] at h
    repeat' split at h
    all_goals
      subst_vars
      cases h <;> decide
  · intro h
    have all : ∀ p ∈ hexEscapes, (hexEscape? p.1).map (·.1) = some p.2 := by decide
    exact all _ h

/-- A code point of a sort of which no table of escapes has any is in neither. -/
theorem unlisted {p : CodePoint → Bool} (simple : ∀ entry ∈ simpleEscapes, p entry.1 = false)
    (hex : ∀ entry ∈ hexEscapes, p entry.1 = false) {e : CodePoint} (h : p e = true) :
    simpleEscape? e = none ∧ hexEscape? e = none := by
  constructor
  · refine Option.eq_none_iff_forall_ne_some.2 fun c listed => ?_
    exact Bool.false_ne_true ((simple _ (simpleEscape?_eq_some_iff.1 listed)).symm.trans h)
  · refine Option.eq_none_iff_forall_ne_some.2 fun digits listed => ?_
    have entry := hexEscape?_map_eq_some_iff.1 (congrArg (Option.map (·.1)) listed)
    exact Bool.false_ne_true ((hex _ entry).symm.trans h)

/-- Escapes of hexadecimal digits mean the same in both forms. -/
theorem hexMeaning_expand (width : Nat) (short : Defect) (r : Text) :
    hexMeaning width short (expand r) = hexMeaning width short r := by
  rw [hexMeaning, hexMeaning, ← List.take_takeWhile, ← List.take_takeWhile,
    takeWhile_expand fun c => isKept_of_hexValue?]

/-- An escape that is not by name means the same in both forms. -/
theorem meaning_expand [CharacterNames] {e : CodePoint} (notName : e ≠ 'N') (r : Text) :
    meaning (e :: expand r) = meaning (e :: r) := by
  rw [meaning, meaning]
  cases simpleEscape? e with
  | some c => rfl
  | none =>
    cases hexEscape? e with
    | some digits => exact hexMeaning_expand _ _ r
    | none =>
      dsimp only
      rw [← List.take_takeWhile, ← List.take_takeWhile,
        takeWhile_expand fun c => isKept_of_isOctalDigit, if_neg notName, if_neg notName]

/-- **An escape of hexadecimal digits means a code point** exactly if there are enough digits and
their value is the number of one. -/
theorem hexMeaning_eq_ok_iff {width : Nat} {short : Defect} {r t : Text} {n : Nat} :
    hexMeaning width short r = .ok (t, n) ↔
      ∃ digits rest c, r = digits ++ rest ∧ digits.length = width ∧
        Text.hexValue? digits = some c.val ∧ t = [c] ∧ n = 1 + width := by
  constructor
  · intro h
    rw [hexMeaning] at h
    split at h
    · cases h
    · next enough =>
      rw [← List.take_takeWhile, List.length_take, Nat.not_lt, Nat.le_min] at enough
      -- As many digits as asked for, so that nothing of what follows is read as one.
      obtain ⟨length, digits⟩ := take_of_le_length_takeWhile enough.2
      split at h
      · next c inside =>
        obtain ⟨rfl, rfl⟩ := Prod.mk.inj (Except.ok.inj h)
        obtain ⟨v, value⟩ := Text.exists_hexValue? digits
        rw [List.takeWhile_eq_self_iff.2 digits, value, Option.getD_some, CodePoint.ofNat?]
          at inside
        split at inside
        · obtain rfl := Option.some.inj inside
          exact ⟨r.take width, r.drop width, _, (List.take_append_drop width r).symm, length,
            value, rfl, rfl⟩
        · cases inside
      · cases h
  · rintro ⟨digits, rest, c, rfl, rfl, value, rfl, rfl⟩
    have whole : ((digits ++ rest).take digits.length).takeWhile (fun c => c.hexValue?.isSome) =
        digits := by
      rw [List.take_left, List.takeWhile_eq_self_iff]
      exact Text.isSome_of_hexValue? value
    rw [hexMeaning, whole, if_neg (Nat.lt_irrefl _), value, Option.getD_some, CodePoint.ofNat?,
      dif_pos c.isLt]

/-- A name reaches to the first closing brace. -/
theorem takeWhile_name {name : Text} (inside : CodePoint.ofChar '\x7d' ∉ name) (r : Text) :
    (name ++ CodePoint.ofChar '\x7d' :: r).takeWhile (·.val != 0x7d) = name := by
  have others : ∀ c ∈ name, (c.val != 0x7d) = true := by
    intro c mem
    refine bne_iff_ne.2 fun closing => inside ?_
    have same : c = CodePoint.ofChar '\x7d' := CodePoint.ext closing
    exact same ▸ mem
  rw [List.takeWhile_append_of_pos others, List.takeWhile_cons_of_neg (by decide), List.append_nil]

/-- A name that does not reach to the end of a text ends before a closing brace. -/
theorem exists_name_ends {r : Text}
    (closed : (r.takeWhile (·.val != 0x7d)).length ≠ r.length) :
    ∃ rest, r = r.takeWhile (·.val != 0x7d) ++ CodePoint.ofChar '\x7d' :: rest := by
  have split := List.takeWhile_append_dropWhile (p := (·.val != 0x7d)) (l := r)
  cases behind : r.dropWhile (·.val != 0x7d) with
  | nil =>
    refine absurd (congrArg List.length ?_) closed
    exact List.takeWhile_eq_self_iff.2 (List.dropWhile_eq_nil_iff.1 behind)
  | cons d rest =>
    have more : r.dropWhile (fun c : CodePoint => c.val != 0x7d) ≠ [] := by
      rw [behind]
      exact List.cons_ne_nil d rest
    have stops := List.head_dropWhile_not (fun c : CodePoint => c.val != 0x7d) more
    simp only [behind, List.head_cons, bne_eq_false_iff_eq] at stops
    obtain rfl : d = CodePoint.ofChar '\x7d' := CodePoint.ext stops
    exact ⟨rest, by rw [← behind, split]⟩

/-- **An escape by name means a character** exactly if a name stands between braces and the character
has it. -/
theorem nameMeaning_eq_ok_iff [CharacterNames] {r t : Text} {n : Nat} :
    nameMeaning r = .ok (t, n) ↔
      ∃ name rest c, r = CodePoint.ofChar '\x7b' :: (name ++ CodePoint.ofChar '\x7d' :: rest) ∧
        CodePoint.ofChar '\x7d' ∉ name ∧ name ≠ [] ∧ CharacterNames.named? name = some c ∧
        t = [c] ∧ n = 3 + name.length := by
  constructor
  · intro h
    rw [nameMeaning.eq_def] at h
    split at h
    · cases h
    next opening r =>
    split at h
    · next isOpening =>
      dsimp only at h
      split at h
      · cases h
      next closed =>
      split at h
      · cases h
      next nonempty =>
      split at h
      · next c named =>
        obtain ⟨rfl, rfl⟩ := Prod.mk.inj (Except.ok.inj h)
        have opens : opening = CodePoint.ofChar '\x7b' := CodePoint.ext isOpening
        -- What stops the name is the closing brace, for the name is not all of the text.
        obtain ⟨rest, ends⟩ := exists_name_ends closed
        refine ⟨_, rest, c, by rw [opens, ← ends], fun mem => ?_, ?_, named, rfl, rfl⟩
        · exact absurd (List.mem_takeWhile_imp mem) (by decide)
        · rwa [List.isEmpty_iff] at nonempty
      · cases h
    · cases h
  · rintro ⟨name, rest, c, rfl, inside, nonempty, named, rfl, rfl⟩
    have length : ¬ name.length = (name ++ CodePoint.ofChar '\x7d' :: rest).length := by
      rw [List.length_append, List.length_cons]
      omega
    rw [nameMeaning]
    dsimp only
    rw [if_pos (by rfl), takeWhile_name inside, if_neg length,
      if_neg (by rwa [List.isEmpty_iff]), named]

section

variable [CharacterNames]

/-- Enough hexadecimal digits mean the code point whose number they are. -/
theorem meaning_of_hexValue? {e c : CodePoint} {width : Nat} {digits : Text}
    (letter : (e, width) ∈ hexEscapes) (length : digits.length = width)
    (value : Text.hexValue? digits = some c.val) (r : Text) :
    meaning (e :: (digits ++ r)) = .ok ([c], 1 + width) := by
  have simple : ∀ p ∈ hexEscapes, simpleEscape? p.1 = none := by decide
  obtain ⟨⟨_, short⟩, hex, rfl⟩ := Option.map_eq_some_iff.1 (hexEscape?_map_eq_some_iff.2 letter)
  rw [meaning, simple _ letter, hex]
  exact hexMeaning_eq_ok_iff.2 ⟨digits, r, c, rfl, length, value, rfl, rfl⟩

/-- Octal digits, up to three of them, mean their value. -/
theorem meaning_of_isOctalDigit {e : CodePoint} (h : e.isOctalDigit = true) (r : Text) :
    meaning (e :: r) =
      let digits := e :: (r.take 2).takeWhile (·.isOctalDigit)
      .ok ([.ofNat (digits.foldl (fun n c => 8 * n + (c.val - 0x30)) 0)], digits.length) := by
  obtain ⟨simple, hex⟩ := unlisted (p := CodePoint.isOctalDigit) (by decide) (by decide) h
  rw [meaning, simple, hex]
  dsimp only
  rw [if_pos h]

/-- An escape that is not by name takes the code point after the backslash and a run of digits. -/
theorem exists_run_of_meaning {e : CodePoint} (notName : e ≠ 'N') {r t : Text} {n : Nat}
    (h : meaning (e :: r) = .ok (t, n)) :
    ∃ run rest, r = run ++ rest ∧ n = 1 + run.length ∧ ∀ c ∈ run, isKept c = true := by
  rw [meaning] at h
  split at h
  · obtain ⟨rfl, rfl⟩ := Prod.mk.inj (Except.ok.inj h)
    exact ⟨[], r, rfl, rfl, List.forall_mem_nil _⟩
  · obtain ⟨digits, rest, c, rfl, rfl, value, -, rfl⟩ := hexMeaning_eq_ok_iff.1 h
    exact ⟨digits, rest, rfl, rfl, fun d hd =>
      isKept_of_hexValue? (Text.isSome_of_hexValue? value d hd)⟩
  · split at h
    · obtain ⟨rfl, rfl⟩ := Prod.mk.inj (Except.ok.inj h)
      obtain ⟨rest, split⟩ := (List.takeWhile_prefix (l := r.take 2) (·.isOctalDigit)).trans
        (List.take_prefix 2 r)
      refine ⟨_, rest, split.symm, Nat.add_comm _ 1, fun d hd => ?_⟩
      exact isKept_of_isOctalDigit (List.mem_takeWhile_imp hd)
    split at h
    · obtain ⟨rfl, rfl⟩ := Prod.mk.inj (Except.ok.inj h)
      exact ⟨[], r, rfl, rfl, List.forall_mem_nil _⟩
    obtain ⟨rfl, rfl⟩ := Prod.mk.inj (Except.ok.inj h)
    exact ⟨[], r, rfl, rfl, List.forall_mem_nil _⟩

/-- A backslash before a code point outside ASCII stands for itself. -/
theorem meaning_of_not_isAscii {e : CodePoint} (h : e.isAscii = false) (r : Text) :
    meaning (e :: r) = .ok (['\\', e], 1) := by
  obtain ⟨simple, hex⟩ :=
    unlisted (p := fun c => !c.isAscii) (by decide) (by decide) (by rw [h]; rfl)
  have digit : e.isOctalDigit = false := by
    rw [← Bool.not_eq_true]
    intro digit
    have ascii := (isKept_iff.1 (isKept_of_isOctalDigit digit)).1
    exact Bool.false_ne_true (h.symm.trans ascii)
  have letter (d : Char) (ascii : (CodePoint.ofChar d).isAscii = true) : e ≠ d := by
    rintro rfl
    exact Bool.false_ne_true (h.symm.trans ascii)
  rw [meaning, simple, hex]
  dsimp only
  rw [digit, if_neg Bool.false_ne_true, if_neg (letter '\r' rfl), if_neg (letter 'N' rfl)]

/-! ## What bodies stand for -/

/-- The text that an expanded body stands for, if all its escapes are right. -/
def decoded? (t : Text) : Option Text := (decodeFrom 0 t).toOption

/-- The text that a body stands for, if all its escapes are right. -/
def text? (body : Text) : Option Text := decoded? (expand body)

/-- Positions only matter for faults. -/
theorem toOption_decodeFrom (position : Nat) (t : Text) :
    (decodeFrom position t).toOption = decoded? t := by
  rw [decoded?]
  generalize 0 = other
  fun_induction decodeFrom position t generalizing other with
  | case1 => rw [decodeFrom]
  | case2 position r defect taken fault =>
    rw [decodeFrom, if_pos rfl, fault]
    rfl
  | case3 position r t taken means ih =>
    rw [decodeFrom, if_pos rfl, means]
    dsimp only
    rw [Except.toOption_map, Except.toOption_map, ih]
  | case4 position c r notBackslash ih =>
    rw [decodeFrom, if_neg notBackslash, Except.toOption_map, Except.toOption_map, ih]

/-- A code point that is no backslash is decoded by itself. -/
theorem decoded?_cons {c : CodePoint} (h : c ≠ '\\') (r : Text) :
    decoded? (c :: r) = (decoded? r).map (c :: ·) := by
  rw [decoded?, decodeFrom, if_neg h, Except.toOption_map, toOption_decodeFrom]

/-- An escape is decoded to what it means, and what it takes is passed over. -/
theorem decoded?_of_meaning {r : Text} {t : Text} {n : Nat} (h : meaning r = .ok (t, n)) :
    decoded? ('\\' :: r) = (decoded? (r.drop n)).map (t ++ ·) := by
  rw [decoded?, decodeFrom, if_pos rfl, h]
  dsimp only
  rw [Except.toOption_map, toOption_decodeFrom]

/-- Where an escape means nothing, nothing is decoded. -/
theorem decoded?_of_fault {r : Text} {fault : Defect × Nat} (h : meaning r = .error fault) :
    decoded? ('\\' :: r) = none := by
  rw [decoded?, decodeFrom, if_pos rfl, h]
  rfl

/-- A code point outside ASCII is written as an escape of itself. -/
theorem decoded?_spelled {c : CodePoint} (h : c ≠ '\\') (r : Text) :
    decoded? (spelled c ++ r) = (decoded? r).map (c :: ·) := by
  cases ascii : c.isAscii with
  | true => rw [spelled_of_isAscii ascii, List.singleton_append, decoded?_cons h]
  | false =>
    have length : (Text.ofHex 8 c.val).length = 8 :=
      Text.length_ofHex (by decide) (Nat.lt_trans c.isLt (by decide))
    have means : meaning ('U' :: (Text.ofHex 8 c.val ++ r)) = .ok ([c], 1 + 8) :=
      meaning_of_hexValue? (by decide) length (Text.hexValue?_ofHex 8 c.val) r
    have written : spelled c ++ r =
        CodePoint.ofChar '\\' :: CodePoint.ofChar 'U' :: (Text.ofHex 8 c.val ++ r) := by
      rw [spelled, ascii, if_neg Bool.false_ne_true]
      rfl
    rw [written, decoded?_of_meaning means, Nat.add_comm 1, List.drop_succ_cons,
      List.drop_left' length]
    rfl

/-- The empty body stands for the empty text. -/
@[simp] theorem text?_nil : text? [] = some [] := by
  rw [text?, expand, decoded?, decodeFrom]
  rfl

/-- A code point that is no backslash stands for itself. -/
theorem text?_cons {c : CodePoint} (h : c ≠ '\\') (r : Text) :
    text? (c :: r) = (text? r).map (c :: ·) := by
  rw [text?, expand_cons h, decoded?_spelled h]
  rfl

/-- A run of what is kept stands for itself. -/
theorem text?_kept_append {run : Text} (kept : ∀ c ∈ run, isKept c = true) (r : Text) :
    text? (run ++ r) = (text? r).map (run ++ ·) := by
  induction run with
  | nil => simp
  | cons c run ih =>
    obtain ⟨first, others⟩ := List.forall_mem_cons.1 kept
    rw [List.cons_append, text?_cons (isKept_iff.1 first).2, ih others, Option.map_map]
    rfl

/-- **An escape is decoded as what it means.** -/
theorem text?_of_meaning {e : CodePoint} (notName : e ≠ 'N') {run r t : Text}
    (kept : ∀ c ∈ run, isKept c = true) (h : meaning (e :: (run ++ r)) = .ok (t, 1 + run.length)) :
    text? ('\\' :: e :: (run ++ r)) = (text? r).map (t ++ ·) := by
  cases ascii : e.isAscii with
  | true =>
    have expanded : meaning (e :: expand (run ++ r)) = .ok (t, 1 + run.length) := by
      rw [meaning_expand notName, h]
    rw [text?, expand_escape ascii, decoded?_of_meaning expanded, Nat.add_comm 1,
      List.drop_succ_cons, expand_kept_append kept, List.drop_left]
    rfl
  | false =>
    rw [meaning_of_not_isAscii ascii] at h
    obtain ⟨rfl, one⟩ := Prod.mk.inj (Except.ok.inj h)
    obtain rfl : run = [] := List.eq_nil_of_length_eq_zero (by omega)
    -- The backslash is written as an escape of itself, so that it starts none.
    have expanded : expand ('\\' :: e :: r) =
        CodePoint.ofChar '\\' :: CodePoint.ofChar 'u' :: ("005c" ++ (spelled e ++ expand r)) := by
      rw [expand.eq_def]
      dsimp only
      rw [if_pos rfl, ascii, if_neg Bool.false_ne_true]
      rfl
    have means : meaning ('u' :: (("005c" : Text) ++ (spelled e ++ expand r))) =
        .ok (['\\'], 1 + 4) :=
      meaning_of_hexValue? (by decide) (by decide) (by decide) _
    have other : e ≠ '\\' := by
      rintro rfl
      cases ascii
    rw [List.nil_append, text?, expanded, decoded?_of_meaning means, Nat.add_comm 1,
      List.drop_succ_cons, List.drop_left' (by rfl : ("005c" : Text).length = 4),
      decoded?_spelled other, Option.map_map]
    rfl

/-- An escape that means nothing is not decoded. -/
theorem text?_of_fault {e : CodePoint} (notName : e ≠ 'N') {r : Text} {fault : Defect × Nat}
    (h : meaning (e :: r) = .error fault) : text? ('\\' :: e :: r) = none := by
  have ascii : e.isAscii = true := by
    rw [← Bool.not_eq_false]
    intro outside
    rw [meaning_of_not_isAscii outside] at h
    cases h
  rw [text?, expand_escape ascii]
  exact decoded?_of_fault ((meaning_expand notName r).trans h)

/-- **A named character stands for itself.** An escape by name is decoded as the character that has
the name, before any text. -/
theorem text?_of_name {name r : Text} {c : CodePoint} (kept : ∀ d ∈ name, isKept d = true)
    (inside : CodePoint.ofChar '\x7d' ∉ name) (nonempty : name ≠ [])
    (named : CharacterNames.named? name = some c) :
    text? ('\\' :: 'N' :: '\x7b' :: (name ++ CodePoint.ofChar '\x7d' :: r)) =
      (text? r).map (c :: ·) := by
  -- The name and its braces are a run that the expanded form keeps.
  obtain ⟨run, isRun⟩ : ∃ run, run =
      CodePoint.ofChar '\x7b' :: (name ++ [CodePoint.ofChar '\x7d']) := ⟨_, rfl⟩
  have keptRun : ∀ d ∈ run, isKept d = true := by
    rw [isRun, List.forall_mem_cons, List.forall_mem_append, List.forall_mem_singleton]
    exact ⟨by decide, kept, by decide⟩
  have braced (r : Text) : CodePoint.ofChar '\x7b' :: (name ++ CodePoint.ofChar '\x7d' :: r) =
      run ++ r := by
    rw [isRun, List.cons_append, List.append_assoc, List.singleton_append]
  have length : run.length = 2 + name.length := by
    rw [isRun, List.length_cons, List.length_append, List.length_singleton]
    omega
  have means : meaning ('N' :: (run ++ expand r)) = .ok ([c], 1 + run.length) := by
    rw [← braced, length, ← Nat.add_assoc]
    exact nameMeaning_eq_ok_iff.2 ⟨name, expand r, c, rfl, inside, nonempty, named, rfl, rfl⟩
  rw [braced, text?, expand_escape (by decide), expand_kept_append keptRun,
    decoded?_of_meaning means, Nat.add_comm 1, List.drop_succ_cons, List.drop_left]
  rfl

end

/-- A bullet by name, where a table tells of bullets. -/
example : @text? (.ofTable [("BULLET", .ofNat 0x2022)]) "\\N{BULLET}!" =
    some [CodePoint.ofNat 0x2022, '!'] := by
  decide +kernel

/-! ## Whole strings -/

/-- The code points of a body that belong to no backslash, the code point after which it takes
along. -/
def ordinary : Text → Text
  | [] => []
  | c :: r =>
    if c = '\\' then
      match r with
      | [] => []
      | _ :: r => ordinary r
    else c :: ordinary r

/-- A code point that is no backslash is an ordinary one. -/
theorem ordinary_cons {c : CodePoint} (h : c ≠ '\\') (r : Text) :
    ordinary (c :: r) = c :: ordinary r := by
  rw [ordinary.eq_def]
  exact if_neg h

/-- Neither a backslash nor what it takes along is ordinary. -/
@[simp] theorem ordinary_escape (e : CodePoint) (r : Text) :
    ordinary ('\\' :: e :: r) = ordinary r := by
  rw [ordinary.eq_def]
  exact if_pos rfl

/-- The body of a quoted string is what stands between its quotes. -/
theorem body_quoted (quote : CodePoint) (inner : Text) :
    body (quote :: (inner ++ [quote])) = inner := by
  rw [body, List.drop_succ_cons, List.drop_zero, List.dropLast_concat]

/-- No line is broken exactly if no carriage return is ordinary. -/
theorem brokenLine?_eq_none_iff {line : Nat} {body : Text} :
    brokenLine? line body = none ↔ CodePoint.ofChar '\r' ∉ ordinary body := by
  fun_induction brokenLine? line body with
  | case1 => simp [ordinary]
  | case2 line r =>
    rw [ordinary_cons (by decide)]
    simp
  | case3 line => simp [ordinary]
  | case4 line d r _ ih => rw [ih, ordinary_escape]
  | case5 line c r notReturn notBackslash ih =>
    rw [ih, ordinary_cons notBackslash, List.mem_cons, not_or]
    exact (and_iff_right (Ne.symm notReturn)).symm

/-- A quoted string is decoded exactly if it is clean, unbroken and stands for a text. -/
theorem decode_eq_ok_iff [CharacterNames] {raw t : Text} :
    decode raw = .ok t ↔ (∀ c ∈ raw, c.isSurrogate = false) ∧ (∀ c ∈ body raw, c.val ≠ 0) ∧
      CodePoint.ofChar '\r' ∉ ordinary (body raw) ∧ text? (body raw) = some t := by
  have null : (body raw).any (·.val == 0) = false ↔ ∀ c ∈ body raw, c.val ≠ 0 := by simp
  have broken : brokenLine? 1 (body raw) = none ↔ CodePoint.ofChar '\r' ∉ ordinary (body raw) :=
    brokenLine?_eq_none_iff
  rw [← Utf8.surrogateRun?_eq_none_iff, ← null, ← broken, text?, decoded?,
    Except.toOption_eq_some_iff, decode]
  cases Utf8.surrogateRun? raw with
  | some fault => simp
  | none =>
    cases (body raw).any (·.val == 0) with
    | true => simp
    | false =>
      cases brokenLine? 1 (body raw) with
      | some line => simp
      | none => cases decodeFrom 0 (expand (body raw)) <;> simp

/-- **When a string is decoded.** What stands between its quotes holds no surrogate and no null
character, no carriage return stands outside an escape, and it stands for a text. -/
theorem decode_quoted_iff [CharacterNames] {quote : CodePoint}
    (isQuote : quote = '"' ∨ quote = '\'') {inner t : Text} :
    decode (quote :: (inner ++ [quote])) = .ok t ↔
      (∀ c ∈ inner, c.isSurrogate = false) ∧ (∀ c ∈ inner, c.val ≠ 0) ∧
        CodePoint.ofChar '\r' ∉ ordinary inner ∧ text? inner = some t := by
  have clean : quote.isSurrogate = false := by rcases isQuote with rfl | rfl <;> rfl
  have all : (∀ c ∈ quote :: (inner ++ [quote]), c.isSurrogate = false) ↔
      ∀ c ∈ inner, c.isSurrogate = false := by
    rw [List.forall_mem_cons, List.forall_mem_append, List.forall_mem_singleton,
      and_iff_right clean, and_iff_left clean]
  rw [decode_eq_ok_iff, all, body_quoted]

end Script.Literal

end Packaging
