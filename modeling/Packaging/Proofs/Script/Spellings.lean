import Packaging.Proofs.Script.Acceptance
import Packaging.Proofs.Script.Escapes

/-! # Spellings
A code point may be spelled in several ways inside a string: as itself, unless the string could not
hold it, or by one of the escapes. Lines may be continued between two spellings. However a text is
spelled, the string stands for it, and there is no text that cannot be spelled. -/

namespace Packaging.Script.Literal

/-! ## Spellings of a code point -/

/-- A code point that may stand for itself in a string with a given quote. -/
structure IsPlain (quote c : CodePoint) : Prop where
  /-- It does not end the string. -/
  notQuote : c ≠ quote
  /-- It starts no escape. -/
  notBackslash : c ≠ '\\'
  /-- It is no line feed. -/
  notFeed : c ≠ '\n'
  /-- It is no carriage return. -/
  notReturn : c ≠ '\r'
  /-- It is not the null character. -/
  notNull : c.val ≠ 0
  /-- It is no surrogate. -/
  notSurrogate : c.isSurrogate = false

/-- The spellings of a code point in a string with a given quote. -/
inductive Spelling (quote : CodePoint) : CodePoint → Text → Prop
  /-- The code point itself. -/
  | plain {c : CodePoint} (isPlain : IsPlain quote c) : Spelling quote c [c]
  /-- The number of the code point in hexadecimal digits of either case, as many as a letter asks
  for. -/
  | hex {e c : CodePoint} {width : Nat} {digits : Text} (letter : (e, width) ∈ hexEscapes)
      (length : digits.length = width) (value : Text.hexValue? digits = some c.val) :
      Spelling quote c ('\\' :: e :: digits)
  /-- The number of the code point in three octal digits. -/
  | octal {c i j k : CodePoint} (digits : ∀ d ∈ [i, j, k], d.isOctalDigit = true)
      (value : c.val = 64 * (i.val - 0x30) + 8 * (j.val - 0x30) + (k.val - 0x30)) :
      Spelling quote c ['\\', i, j, k]
  /-- The code point, or a letter that stands for it, after a backslash. -/
  | simple {e c : CodePoint} (letter : (e, c) ∈ simpleEscapes) : Spelling quote c ['\\', e]

/-- The bodies that spell a text in a string with a given quote. -/
inductive Spelled (quote : CodePoint) : Text → Text → Prop
  /-- Nothing spells the empty text. -/
  | nil : Spelled quote [] []
  /-- A spelling of the first code point, before one of the others. -/
  | point {c : CodePoint} {s t body : Text} (spelling : Spelling quote c s)
      (rest : Spelled quote t body) : Spelled quote (c :: t) (s ++ body)
  /-- A line that is continued spells nothing. -/
  | continuation {t body : Text} (rest : Spelled quote t body) :
      Spelled quote t ('\\' :: '\r' :: body)

/-- The number of a code point can be written where a letter asks for digits enough. -/
theorem Spelling.ofHex {quote e c : CodePoint} {width : Nat} (letter : (e, width) ∈ hexEscapes)
    (fits : c.val < 16 ^ width) : Spelling quote c ('\\' :: e :: Text.ofHex width c.val) := by
  have positive : ∀ p ∈ hexEscapes, 0 < p.2 := by decide
  exact .hex letter (Text.length_ofHex (positive _ letter) fits) (Text.hexValue?_ofHex width c.val)

/-- Every text can be spelled. -/
theorem exists_spelled (quote : CodePoint) (t : Text) : ∃ body, Spelled quote t body := by
  induction t with
  | nil => exact ⟨[], .nil⟩
  | cons c t ih =>
    obtain ⟨body, spelled⟩ := ih
    have fits : c.val < 16 ^ 8 := Nat.lt_trans c.isLt (by decide)
    exact ⟨_, .point (.ofHex (e := 'U') (by decide) fits) spelled⟩

/-! ## What is read -/

/-- Hexadecimal digits stand for themselves outside of escapes. -/
theorem isPlain_of_hexValue? {quote c : CodePoint} (isQuote : quote = '"' ∨ quote = '\'')
    (h : c.hexValue?.isSome = true) : IsPlain quote c := by
  have other (d : CodePoint) (none : d.hexValue? = Option.none) : c ≠ d := by
    rintro rfl
    rw [none] at h
    cases h
  refine ⟨?_, other _ rfl, other _ rfl, other _ rfl, ?_, ?_⟩
  · rcases isQuote with rfl | rfl <;> exact other _ rfl
  · have bounds := CodePoint.val_of_hexValue? h
    omega
  · have bounds := CodePoint.val_of_hexValue? h
    simp [CodePoint.isSurrogate, CodePoint.isBetween]
    omega

/-- A body reads as a text in a string with a given quote. -/
structure Reads [CharacterNames] (quote : CodePoint) (t body : Text) : Prop where
  /-- The string ends behind it. -/
  quoted : QuotedBody quote body
  /-- It holds neither surrogates nor null characters. -/
  clean : ∀ c ∈ body, c.isSurrogate = false ∧ c.val ≠ 0
  /-- No carriage return ends it. -/
  unbroken : CodePoint.ofChar '\r' ∉ ordinary body
  /-- Its escapes are right. -/
  stands : text? body = some t

namespace Reads

variable {quote : CodePoint} {t body : Text}

variable [CharacterNames]

/-- Nothing reads as the empty text. -/
theorem nil : Reads quote [] [] :=
  ⟨.nil, List.forall_mem_nil _, List.not_mem_nil, text?_nil⟩

/-- A plain code point reads as itself, before anything that is read. -/
theorem plain {c : CodePoint} (isPlain : IsPlain quote c) (rest : Reads quote t body) :
    Reads quote (c :: t) (c :: body) where
  quoted := .plain isPlain.notQuote isPlain.notBackslash isPlain.notFeed rest.quoted
  clean := List.forall_mem_cons.2 ⟨⟨isPlain.notSurrogate, isPlain.notNull⟩, rest.clean⟩
  unbroken := by
    rw [ordinary_cons isPlain.notBackslash, List.mem_cons, not_or]
    exact ⟨isPlain.notReturn.symm, rest.unbroken⟩
  stands := by
    rw [text?_cons isPlain.notBackslash, rest.stands]
    rfl

/-- A run of plain code points reads as itself, before anything that is read. -/
theorem plain_append {run : Text} (arePlain : ∀ c ∈ run, IsPlain quote c)
    (rest : Reads quote t body) : Reads quote (run ++ t) (run ++ body) := by
  induction run with
  | nil => exact rest
  | cons c run ih =>
    obtain ⟨first, others⟩ := List.forall_mem_cons.1 arePlain
    exact plain first (ih others)

/-- An escape that takes digits reads as what it means, before anything that is read. -/
theorem escape {e : CodePoint} {run s : Text} (isQuote : quote = '"' ∨ quote = '\'')
    (notFeed : e ≠ '\n') (notName : e ≠ 'N') (clean : e.isSurrogate = false ∧ e.val ≠ 0)
    (digits : ∀ d ∈ run, d.hexValue?.isSome = true)
    (means : meaning (e :: (run ++ body)) = .ok (s, 1 + run.length))
    (rest : Reads quote t body) : Reads quote (s ++ t) ('\\' :: e :: (run ++ body)) := by
  have behind := plain_append (fun d hd => isPlain_of_hexValue? isQuote (digits d hd)) rest
  refine ⟨.escape notFeed behind.quoted, ?_, ?_, ?_⟩
  · exact List.forall_mem_cons.2 ⟨by decide, List.forall_mem_cons.2 ⟨clean, behind.clean⟩⟩
  · rw [ordinary_escape]
    exact behind.unbroken
  · rw [text?_of_meaning notName (fun d hd => isKept_of_hexValue? (digits d hd)) means,
      rest.stands]
    rfl

end Reads

section

variable [CharacterNames]

/-- Three octal digits mean the code point whose number they are. -/
theorem meaning_octal {c i j k : CodePoint} (digits : ∀ d ∈ [i, j, k], d.isOctalDigit = true)
    (value : c.val = 64 * (i.val - 0x30) + 8 * (j.val - 0x30) + (k.val - 0x30)) (r : Text) :
    meaning (i :: ([j, k] ++ r)) = .ok ([c], 1 + [j, k].length) := by
  obtain ⟨first, others⟩ := List.forall_mem_cons.1 digits
  have two : (([j, k] ++ r).take 2).takeWhile (·.isOctalDigit) = [j, k] :=
    List.takeWhile_eq_self_iff.2 others
  have same : CodePoint.ofNat ([i, j, k].foldl (fun n c => 8 * n + (c.val - 0x30)) 0) = c := by
    refine CodePoint.ext ?_
    have total : [i, j, k].foldl (fun n c => 8 * n + (c.val - 0x30)) 0 = c.val := by
      simp only [List.foldl_cons, List.foldl_nil]
      omega
    rw [total, CodePoint.val_ofNat c.isLt]
  rw [meaning_of_isOctalDigit first, two]
  dsimp only
  rw [same]
  rfl

/-- **A spelling reads as its code point**, before anything that is read. -/
theorem Spelling.reads {quote c : CodePoint} {s t body : Text}
    (isQuote : quote = '"' ∨ quote = '\'') (h : Spelling quote c s) (rest : Reads quote t body) :
    Reads quote (c :: t) (s ++ body) := by
  cases h with
  | plain isPlain => exact .plain isPlain rest
  | @hex e _ width digits letter length value =>
    -- No letter of an escape is a line feed, starts a name, or is kept out of source files.
    have letters : ∀ p ∈ hexEscapes,
        p.1 ≠ '\n' ∧ p.1 ≠ 'N' ∧ p.1.isSurrogate = false ∧ p.1.val ≠ 0 := by decide
    obtain ⟨notFeed, notName, clean⟩ := letters _ letter
    show Reads quote ([c] ++ t) ('\\' :: e :: (digits ++ body))
    refine Reads.escape isQuote notFeed notName clean (Text.isSome_of_hexValue? value) ?_ rest
    rw [length]
    exact meaning_of_hexValue? letter length value body
  | @octal _ i j k digits value =>
    have areDigits : ∀ d ∈ [i, j, k], d.hexValue?.isSome = true := fun d hd =>
      CodePoint.isSome_hexValue?_of_isOctalDigit (digits d hd)
    obtain ⟨first, others⟩ := List.forall_mem_cons.1 areDigits
    have isPlain := isPlain_of_hexValue? isQuote first
    show Reads quote ([c] ++ t) ('\\' :: i :: ([j, k] ++ body))
    have notName : i ≠ 'N' := by
      rintro rfl
      cases first
    exact Reads.escape isQuote isPlain.notFeed notName ⟨isPlain.notSurrogate, isPlain.notNull⟩
      others (meaning_octal digits value body) rest
  | @simple e _ letter =>
    have letters : ∀ p ∈ simpleEscapes,
        p.1 ≠ '\n' ∧ p.1 ≠ 'N' ∧ p.1.isSurrogate = false ∧ p.1.val ≠ 0 := by decide
    obtain ⟨notFeed, notName, clean⟩ := letters _ letter
    show Reads quote ([c] ++ t) ('\\' :: e :: ([] ++ body))
    refine Reads.escape isQuote notFeed notName clean (List.forall_mem_nil _) ?_ rest
    rw [meaning, simpleEscape?_eq_some_iff.2 letter]
    rfl

/-- What spells a text reads as it. -/
theorem Spelled.reads {quote : CodePoint} {t body : Text}
    (isQuote : quote = '"' ∨ quote = '\'') (h : Spelled quote t body) : Reads quote t body := by
  induction h with
  | nil => exact .nil
  | point spelling _ ih => exact spelling.reads isQuote ih
  | @continuation t body _ ih =>
    show Reads quote ([] ++ t) ('\\' :: '\r' :: ([] ++ body))
    exact Reads.escape isQuote (by decide) (by decide) (by decide) (List.forall_mem_nil _) rfl ih

/-- A body that reads as a text makes a string that is decoded to it. -/
theorem Reads.decode_eq {quote : CodePoint} {t body : Text} (isQuote : quote = '"' ∨ quote = '\'')
    (h : Reads quote t body) : decode (quote :: (body ++ [quote])) = .ok t :=
  (decode_quoted_iff isQuote).2
    ⟨fun c hc => (h.clean c hc).1, fun c hc => (h.clean c hc).2, h.unbroken, h.stands⟩

/-- **Strings can express every text, however it is spelled.** Between quotes of either kind, each
code point may be spelled by any of its spellings, whatever the others are spelled by, and lines may
be continued anywhere between them: the expression is the one text that is spelled. Every text, the
ones with surrogates included, can be spelled. -/
theorem every_spelling_is_read {quote : CodePoint} (isQuote : quote = '"' ∨ quote = '\'') :
    (∀ t body, Spelled quote t body →
      parseExpr (quote :: (body ++ [quote])) = .ok (.literal (.text t) ⟨1, 1⟩)) ∧
    ∀ t, ∃ body, Spelled quote t body := by
  refine ⟨fun t body spelled => ?_, exists_spelled quote⟩
  have reads := spelled.reads isQuote
  rw [parseExpr_string (.string isQuote reads.quoted), Phrase.toExpr, literalValue]
  dsimp only
  rw [reads.decode_eq isQuote]
  rfl

end

section

open scoped CharacterNames.Unlisted

/-- A trailing surrogate before a leading one, a null character, a quote and a continued line. -/
theorem spelled_text_is_read :
    let body : Text := ['\\', 'u', 'D', 'c', '0', '0', '\\', 'u', 'd', '8', '0', '0', '\\', '0',
      '0', '0', '\\', '"', '\\', '\r', 'a']
    let text : Text := [.ofNat 0xdc00, .ofNat 0xd800, .ofNat 0, '"', 'a']
    Spelled '"' text body ∧
      parseExpr ('"' :: (body ++ [CodePoint.ofChar '"'])) = .ok (.literal (.text text) ⟨1, 1⟩) := by
  intro body text
  have unit : (CodePoint.ofChar 'u', 4) ∈ hexEscapes := by decide
  have trailing : Spelling '"' (.ofNat 0xdc00) ['\\', 'u', 'D', 'c', '0', '0'] :=
    .hex unit rfl (by decide)
  have leading : Spelling '"' (.ofNat 0xd800) ['\\', 'u', 'd', '8', '0', '0'] :=
    .hex unit rfl (by decide)
  have null : Spelling '"' (.ofNat 0) ['\\', '0', '0', '0'] := .octal (by decide) (by decide)
  have quote : Spelling '"' '"' ['\\', '"'] := .simple (by decide)
  have letter : Spelling '"' 'a' ['a'] :=
    .plain ⟨by decide, by decide, by decide, by decide, by decide, by decide⟩
  have spelled : Spelled '"' text body :=
    .point trailing <| .point leading <| .point null <| .point quote <| .continuation <|
      .point letter .nil
  exact ⟨spelled, (every_spelling_is_read (Or.inl rfl)).1 text body spelled⟩

end

end Packaging.Script.Literal
