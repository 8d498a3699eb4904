import Packaging.Proofs.Script.Acceptance
import Packaging.Proofs.Script.ViolationSites

/-! # What violations are about
A rule about strings, numerals and arguments is broken by a lexeme of the text: by the string or the
numeral itself, or by the name of the function whose call is wrong. Of these only a numeral is no
matter of the script language; every other violation is reported as one of the script. -/

namespace Packaging.Script

open Script.Derivation

/-! ## The lexeme that breaks a rule -/

/-- Whether a violation is about one of some lexemes. -/
inductive Violation.IsAbout [CharacterNames] (ls : List Lexeme) : Violation → Prop
  /-- A string that stands for no text. -/
  | badString {l : Lexeme} {fault : Literal.Fault} (mem : l ∈ ls) (shape : l.terminal = .string)
      (broken : Literal.decode l.text = .error fault) :
      IsAbout ls (.badString l.text fault l.place.spot)
  /-- A numeral with too many digits. -/
  | tooLong {l : Lexeme} {fault : Integer.TooLong} (mem : l ∈ ls) (shape : l.terminal = .integer)
      (broken : integerValue l.text = .error fault) : IsAbout ls (.tooLong fault)
  /-- The function of a call in which a name comes twice. -/
  | duplicateKeyword {l : Lexeme} {name : Text} (mem : l ∈ ls) (shape : l.terminal = .word) :
      IsAbout ls (.duplicateKeyword name l.text l.place.spot)
  /-- The function of a call in which an argument without a name follows one with a name. -/
  | positionalAfterKeyword {l : Lexeme} (mem : l ∈ ls) (shape : l.terminal = .word) :
      IsAbout ls (.positionalAfterKeyword l.text l.place.spot)

/-- What breaks a rule among some lexemes, and in the calls that are derived from them, is about one
of the lexemes. -/
theorem Breaks.isAbout [CharacterNames] {ls : List Lexeme} {parts : List Postfix} {s : Site}
    {v : Violation} (h : Breaks ls parts s v) (inside : ∀ part ∈ parts, part.yield ⊆ ls) :
    v.IsAbout ls := by
  have function {func : Name} {opening : Token .opening} {arguments : Arguments}
      {closing : Token .closing} (mem : .callWith func opening arguments closing ∈ parts) :
      func.1 ∈ ls := by
    apply inside _ mem
    rw [Postfix.yield]
    exact List.mem_cons_self
  cases h with
  | badString mem shape broken => exact .badString mem shape broken
  | tooLong mem shape broken => exact .tooLong mem shape broken
  | @duplicateKeyword func _ _ _ mem => exact .duplicateKeyword (function mem) func.2.1
  | @positionalAfterKeyword func _ _ _ mem => exact .positionalAfterKeyword (function mem) func.2.1

namespace Derivation

/-- What is wrong with a derived expression is about its lexemes. -/
theorem Postfix.violation_toExpr [CharacterNames] (d : Postfix) :
    d.phrase.toExpr.ErrsIn (Violation.IsAbout d.yield) := by
  intro v broken
  obtain ⟨s, found⟩ := d.firstOf_toExpr.exists_mem broken
  exact (d.mem_violations_iff.1 found).isAbout fun part mem =>
    (d.sublist_of_mem_nodes mem).subset

/-- The lexemes of a part are lexemes of the program. -/
theorem Program.subset_of_mem_nodes (program : Program) {part : Postfix}
    (h : part ∈ program.nodes) : part.yield ⊆ program.yield := by
  obtain ⟨⟨stmt, newline⟩, row, mem⟩ := List.mem_flatMap.1 h
  intro l hl
  refine List.mem_flatMap.2 ⟨_, row, List.mem_append_left _ ?_⟩
  cases stmt with
  | none => cases mem
  | some stmt => exact (stmt.sublist_of_mem_nodes mem).subset hl

/-- What is wrong with a derived script is about its lexemes. -/
theorem Program.violation_mapM [CharacterNames] (program : Program) :
    (program.lines.mapM Line.toStatement).ErrsIn (Violation.IsAbout program.yield) := by
  intro v broken
  obtain ⟨s, found⟩ := program.firstOf_mapM.exists_mem broken
  exact (program.mem_violations_iff.1 found).isAbout fun part mem =>
    program.subset_of_mem_nodes mem

end Derivation

/-! ## Violations of texts -/

section

variable [CharacterNames]

/-- A script breaks a rule where one of its lines does. -/
theorem parse_eq_violation_iff {source : Text} {v : Violation} :
    parse source = .error (.violation v) ↔
      ∃ lines, readWith .script Machine.lines? (closeLastLine source) = .ok lines ∧
        lines.mapM Line.toStatement = .error v := by
  rw [parse]
  cases hread : readWith .script Machine.lines? (closeLastLine source) with
  | error fault =>
    obtain ⟨_, _, rfl⟩ := readWith_error hread
    simp
  | ok lines => simp [Except.mapError_eq_error_iff]

/-- An expression breaks a rule where its phrase does. -/
theorem parseExpr_eq_violation_iff {source : Text} {v : Violation} :
    parseExpr source = .error (.violation v) ↔
      ∃ phrase, readWith .expression Machine.phrase? source.trim = .ok phrase ∧
        phrase.toExpr = .error v := by
  rw [parseExpr]
  cases hread : readWith .expression Machine.phrase? source.trim with
  | error fault =>
    obtain ⟨_, _, rfl⟩ := readWith_error hread
    simp
  | ok phrase => simp [Except.mapError_eq_error_iff]

/-- A script that breaks a rule is derived, and a lexeme of it breaks the rule. -/
theorem isAbout_of_parse {source : Text} {v : Violation}
    (h : parse source = .error (.violation v)) :
    ∃ ls, Lexes (closeLastLine source) ls ∧ v.IsAbout ls := by
  obtain ⟨lines, hread, broken⟩ := parse_eq_violation_iff.1 h
  obtain ⟨program, lexes, rfl⟩ := readWith_script_ok_iff.1 hread
  exact ⟨_, lexes, program.violation_mapM v broken⟩

/-- An expression that breaks a rule is derived, and a lexeme of it breaks the rule. -/
theorem isAbout_of_parseExpr {source : Text} {v : Violation}
    (h : parseExpr source = .error (.violation v)) :
    ∃ ls, Lexes source.trim ls ∧ v.IsAbout ls := by
  obtain ⟨phrase, hread, broken⟩ := parseExpr_eq_violation_iff.1 h
  obtain ⟨d, lexes, rfl⟩ := readWith_expression_ok_iff.1 hread
  exact ⟨_, lexes, d.violation_toExpr v broken⟩

/-! ## Numerals with too many digits -/

/-- Whether a lexeme is a numeral with so many digits, which are too many. -/
def Lexeme.IsLongNumeral (l : Lexeme) (digits : Nat) : Prop :=
  l.terminal = .integer ∧ 4300 < digits ∧
    (l.text.length = digits ∨
      l.text.head? = some (CodePoint.ofChar '-') ∧ l.text.length = 1 + digits)

end

/-- A numeral is refused for more than 4300 digits, which are all of it but for a minus sign. -/
theorem integerValue_eq_error {t : Text} {fault : Integer.TooLong}
    (h : integerValue t = .error fault) :
    4300 < fault.digits ∧
      (t.length = fault.digits ∨
        t.head? = some (CodePoint.ofChar '-') ∧ t.length = 1 + fault.digits) := by
  cases t with
  | nil => cases h
  | cons c r =>
    rw [integerValue] at h
    split at h
    · next signed =>
      obtain ⟨long, rfl⟩ := Integer.read_eq_error_iff.1 h
      exact ⟨long, Or.inr ⟨congrArg some signed, Nat.add_comm _ _⟩⟩
    · obtain ⟨long, rfl⟩ := Integer.read_eq_error_iff.1 h
      exact ⟨long, Or.inl rfl⟩

/-- Whether a text has lexemes, and among them a numeral with so many digits, which are too many. -/
def HasLongNumeral (t : Text) (digits : Nat) : Prop :=
  ∃ ls, Lexes t ls ∧ ∃ l ∈ ls, l.IsLongNumeral digits

/-- Of the violations in a text only one is no matter of the script language: a numeral with too
many digits. -/
theorem Violation.IsAbout.hasLongNumeral [CharacterNames] {t : Text} {ls : List Lexeme}
    {fault : Integer.TooLong} (h : (Violation.tooLong fault).IsAbout ls) (lexes : Lexes t ls) :
    HasLongNumeral t fault.digits := by
  obtain _ | ⟨mem, shape, broken⟩ := h
  exact ⟨ls, lexes, _, mem, shape, integerValue_eq_error broken⟩

end Packaging.Script
