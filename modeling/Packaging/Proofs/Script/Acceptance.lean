import Packaging.Proofs.Script.Lexing
import Packaging.Proofs.Script.Trees
import Packaging.Proofs.Script.Unambiguity
import Packaging.Script.Source

/-! # The texts that are accepted
A text is a script exactly if its lexemes are derived and the derivation builds statements; these
are then what the text is read as. A text whose lexemes are not derived is a syntax error, whatever
else is wrong with it. The same holds for single expressions. -/

namespace Packaging.Script

open Script.Derivation

/-! ## What a machine reads in a text -/

/-- A machine reads a text if it accepts the lexemes of the whole text. -/
theorem readWith_ok_iff {α : Type} {m : Machine} {result? : Machine → Option α} {source : Text}
    {a : α} :
    readWith m result? source = .ok a ↔
      ∃ ls, Lexes source ls ∧ ∃ m', m.run ls = .ok m' ∧ result? m' = some a := by
  rw [readWith]
  constructor
  · intro h
    -- What is accepted was not refused by the machine and left nothing of the text behind.
    split at h
    · cases h
    · cases h
    · next m' hrun =>
      split_ifs at h with complete
      split at h
      · next b hresult =>
        obtain rfl := Except.ok.inj h
        exact ⟨_, lexes_iff.2 ⟨List.isEmpty_iff.1 complete, rfl⟩, m', hrun, hresult⟩
      · cases h
  · rintro ⟨ls, lexes, m', hrun, hresult⟩
    obtain ⟨complete, rfl⟩ := lexes_iff.1 lexes
    rw [hrun]
    dsimp only
    rw [if_pos (List.isEmpty_iff.2 complete), hresult]

/-- A text that a machine does not read is a syntax error. -/
theorem readWith_error {α : Type} {m : Machine} {result? : Machine → Option α} {source : Text}
    {fault : SourceFault} (h : readWith m result? source = .error fault) :
    ∃ excerpt spot, fault = .unexpected excerpt spot := by
  rw [readWith] at h
  split at h
  · exact ⟨_, _, (Except.error.inj h).symm⟩
  · exact ⟨_, _, (Except.error.inj h).symm⟩
  · split at h
    · split at h
      · cases h
      · exact ⟨_, _, (Except.error.inj h).symm⟩
    · exact ⟨_, _, (Except.error.inj h).symm⟩

/-- A text that a machine does not read is a syntax error, and no other text is. -/
theorem readWith_unexpected_iff {α : Type} {m : Machine} {result? : Machine → Option α}
    {source : Text} :
    (∃ excerpt spot, readWith m result? source = .error (.unexpected excerpt spot)) ↔
      ¬ ∃ a, readWith m result? source = .ok a := by
  constructor
  · rintro ⟨excerpt, spot, h⟩ ⟨a, ha⟩
    rw [h] at ha
    cases ha
  · intro none
    cases hread : readWith m result? source with
    | ok a => exact absurd ⟨a, hread⟩ none
    | error fault =>
      obtain ⟨excerpt, spot, rfl⟩ := readWith_error hread
      exact ⟨excerpt, spot, rfl⟩

/-- What is wrong with literals and arguments is no syntax error. -/
theorem mapError_violation_ne {α : Type} {x : Except Violation α} {excerpt : Text} {spot : Spot}
    (h : x.mapError SourceFault.violation = .error (.unexpected excerpt spot)) : False := by
  cases x with
  | ok a => cases h
  | error v => cases h

/-- The lines of a script are those of its derivation. -/
theorem readWith_script_ok_iff {source : Text} {lines : List Line} :
    readWith .script Machine.lines? source = .ok lines ↔
      ∃ program : Program, Lexes source program.yield ∧ program.lines = lines := by
  rw [readWith_ok_iff]
  constructor
  · rintro ⟨ls, lexes, accepted⟩
    obtain ⟨program, rfl, hlines⟩ := script_run_iff.1 accepted
    exact ⟨program, lexes, hlines⟩
  · rintro ⟨program, lexes, hlines⟩
    exact ⟨_, lexes, script_run_iff.2 ⟨program, rfl, hlines⟩⟩

/-- The phrase of an expression is that of its derivation. -/
theorem readWith_expression_ok_iff {source : Text} {phrase : Phrase} :
    readWith .expression Machine.phrase? source = .ok phrase ↔
      ∃ d : Postfix, Lexes source d.yield ∧ d.phrase = phrase := by
  rw [readWith_ok_iff]
  constructor
  · rintro ⟨ls, lexes, accepted⟩
    obtain ⟨d, rfl, hphrase⟩ := expression_run_iff.1 accepted
    exact ⟨d, lexes, hphrase⟩
  · rintro ⟨d, lexes, hphrase⟩
    exact ⟨_, lexes, expression_run_iff.2 ⟨d, rfl, hphrase⟩⟩

/-! ## Scripts -/

section

variable [CharacterNames]

/-- A text is read as what its lines say. -/
theorem parse_ok_iff_lines {s : Text} {statements : List Statement} :
    parse s = .ok statements ↔
      ∃ lines, readWith .script Machine.lines? (closeLastLine s) = .ok lines ∧
        lines.mapM Line.toStatement = .ok statements := by
  rw [parse]
  cases readWith .script Machine.lines? (closeLastLine s) with
  | error fault => simp
  | ok lines => simp [Except.mapError_eq_ok_iff]

/-- A text is read as what its derivation builds. -/
theorem parse_ok_iff {source : Text} {statements : List Statement} :
    parse source = .ok statements ↔
      ∃ program : Program, Lexes (closeLastLine source) program.yield ∧
        program.Builds statements := by
  rw [parse_ok_iff_lines]
  constructor
  · rintro ⟨lines, hread, said⟩
    obtain ⟨program, lexes, rfl⟩ := readWith_script_ok_iff.1 hread
    exact ⟨program, lexes, (Program.mapM_lines_ok_iff program statements).1 said⟩
  · rintro ⟨program, lexes, built⟩
    exact ⟨program.lines, readWith_script_ok_iff.2 ⟨program, lexes, rfl⟩,
      (Program.mapM_lines_ok_iff program statements).2 built⟩

/-- A script is a syntax error where its lines are: literals and arguments are looked at only in
what has been read. -/
theorem parse_eq_unexpected_iff {source excerpt : Text} {spot : Spot} :
    parse source = .error (.unexpected excerpt spot) ↔
      readWith .script Machine.lines? (closeLastLine source) =
        .error (.unexpected excerpt spot) := by
  rw [parse]
  cases readWith .script Machine.lines? (closeLastLine source) with
  | error fault => simp only [Except.error.injEq]
  | ok lines => exact ⟨fun h => (mapError_violation_ne h).elim, nofun⟩

/-- A text that has no derivation is a syntax error, and no other text is. -/
theorem parse_unexpected_iff {source : Text} :
    (∃ excerpt spot, parse source = .error (.unexpected excerpt spot)) ↔
      ¬ ∃ program : Program, Lexes (closeLastLine source) program.yield := by
  simp only [parse_eq_unexpected_iff, readWith_unexpected_iff, readWith_script_ok_iff]
  rw [exists_comm]
  simp only [exists_and_left, exists_eq', and_true]

/-! ## Expressions -/

/-- A text is read as what its derivation builds, blanks around it aside. -/
theorem parseExpr_ok_iff {source : Text} {e : Expr} :
    parseExpr source = .ok e ↔ ∃ d : Postfix, Lexes source.trim d.yield ∧ d.Builds e := by
  rw [parseExpr]
  constructor
  · intro h
    split at h
    · cases h
    · next phrase hread =>
      obtain ⟨d, lexes, rfl⟩ := readWith_expression_ok_iff.1 hread
      rw [Except.mapError_eq_ok_iff, Postfix.toExpr_phrase_ok_iff] at h
      exact ⟨d, lexes, h⟩
  · rintro ⟨d, lexes, built⟩
    rw [readWith_expression_ok_iff.2 ⟨d, lexes, rfl⟩]
    exact Except.mapError_eq_ok_iff.2 ((d.toExpr_phrase_ok_iff e).2 built)

/-- Syntax errors of expressions are those of the trimmed text. -/
theorem parseExpr_eq_unexpected_iff {source excerpt : Text} {spot : Spot} :
    parseExpr source = .error (.unexpected excerpt spot) ↔
      readWith .expression Machine.phrase? source.trim = .error (.unexpected excerpt spot) := by
  rw [parseExpr]
  cases readWith .expression Machine.phrase? source.trim with
  | error fault => simp only [Except.error.injEq]
  | ok phrase => exact ⟨fun h => (mapError_violation_ne h).elim, nofun⟩

/-- A text that has no derivation is a syntax error, and no other text is. -/
theorem parseExpr_unexpected_iff {source : Text} :
    (∃ excerpt spot, parseExpr source = .error (.unexpected excerpt spot)) ↔
      ¬ ∃ d : Postfix, Lexes source.trim d.yield := by
  simp only [parseExpr_eq_unexpected_iff, readWith_unexpected_iff, readWith_expression_ok_iff]
  rw [exists_comm]
  simp only [exists_and_left, exists_eq', and_true]

end

/-- A string by itself is cut into one lexeme. -/
theorem lexes_string {raw : Text} (h : (Shape.lexeme .string).Spells raw) :
    Lexes raw [⟨.string, raw, .origin⟩] := by
  have longest : (Shape.lexeme .string).Longest raw (raw ++ []) :=
    ⟨List.prefix_append _ _, h, fun v beginning _ => by simpa using beginning.length_le⟩
  have cuts : Cuts .origin (raw ++ []) [⟨.lexeme .string, raw, .origin⟩] := .cons longest .nil
  rw [List.append_nil] at cuts
  exact ⟨_, cuts, rfl⟩

/-- There are no blanks around a string. -/
theorem trim_string {raw : Text} (h : (Shape.lexeme .string).Spells raw) : raw.trim = raw := by
  cases h with
  | @string quote body isQuote between =>
    have visible : quote.isBlank = false := by rcases isQuote with rfl | rfl <;> rfl
    have start : Text.trimStart (quote :: (body ++ [quote])) = quote :: (body ++ [quote]) := by
      rw [Text.trimStart, List.dropWhile_cons_of_neg (by simp [visible])]
    rw [Text.trim, start, Text.trimEnd, ← List.cons_append, List.reverse_append,
      List.reverse_singleton, List.singleton_append,
      List.dropWhile_cons_of_neg (by simp [visible]), List.reverse_cons, List.reverse_reverse]

/-- A string by itself is an expression, or its own violation. -/
theorem parseExpr_string [CharacterNames] {raw : Text} (h : (Shape.lexeme .string).Spells raw) :
    parseExpr raw =
      ((Phrase.literal ⟨.string, raw, .origin⟩).toExpr).mapError SourceFault.violation := by
  have read : readWith .expression Machine.phrase? raw.trim =
      .ok (.literal ⟨.string, raw, .origin⟩) := by
    rw [trim_string h, readWith_expression_ok_iff]
    exact ⟨.string ⟨_, rfl⟩, lexes_string h, rfl⟩
  rw [parseExpr, read]

/-! ## Acceptance -/

/-- The failure that a syntax error is reported as. -/
def syntaxError (excerpt : Text) (spot : Spot) : Failure where
  fault := .diagnostic
    { kind := .script (some spot.line) (some spot.column)
      reasonCode := "script-parse"
      message := "syntax error: " ++ excerpt
      label := some "parse" }

/-- **The grammar is what is accepted.** A script is read as `statements` exactly if its lexemes are
derived and the derivation builds `statements`; a text without a derivation is a syntax error, and a
derivation is never a syntax error, whatever its literals and arguments are. Derivations are unique,
and so is what they build. All of this holds for expressions as well. -/
theorem parse_accepts_grammar [CharacterNames] (source : Text) :
    (∀ statements, parse source = .ok statements ↔
      ∃ program : Program, Lexes (closeLastLine source) program.yield ∧
        program.Builds statements) ∧
    (∀ e, parseExpr source = .ok e ↔
      ∃ d : Postfix, Lexes source.trim d.yield ∧ d.Builds e) ∧
    (∀ program program' : Program, Lexes (closeLastLine source) program.yield →
      Lexes (closeLastLine source) program'.yield → program = program') ∧
    (∀ d d' : Postfix, Lexes source.trim d.yield → Lexes source.trim d'.yield → d = d') ∧
    ((¬ ∃ program : Program, Lexes (closeLastLine source) program.yield) ↔
      ∃ excerpt spot, parse source = .error (.unexpected excerpt spot) ∧
        (SourceFault.unexpected excerpt spot).failure = syntaxError excerpt spot) ∧
    ((¬ ∃ d : Postfix, Lexes source.trim d.yield) ↔
      ∃ excerpt spot, parseExpr source = .error (.unexpected excerpt spot) ∧
        (SourceFault.unexpected excerpt spot).failure = syntaxError excerpt spot) := by
  refine ⟨fun statements => parse_ok_iff, fun e => parseExpr_ok_iff, ?_, ?_, ?_, ?_⟩
  · -- The text has its lexemes in one way, and these have their derivation in one way.
    intro program program' lexes lexes'
    exact Program.yield_inj (lexes.unique lexes')
  · intro d d' lexes lexes'
    exact Postfix.yield_inj d d' (lexes.unique lexes')
  · rw [← parse_unexpected_iff]
    exact exists_congr fun excerpt => exists_congr fun spot => (and_iff_left rfl).symm
  · rw [← parseExpr_unexpected_iff]
    exact exists_congr fun excerpt => exists_congr fun spot => (and_iff_left rfl).symm

end Packaging.Script
