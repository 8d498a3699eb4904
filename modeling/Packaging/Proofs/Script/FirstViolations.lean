import Packaging.Proofs.Script.Boundaries
import Packaging.Proofs.Script.ViolationSites
import Packaging.Session

/-! # The first violation in a text
Violations are found in the order of the text: a tree is built from left to right, and an argument
that is not allowed is refused before its value is looked at. So what is reported is the violation
whose site comes first. -/

namespace Packaging.Script

open Script.Derivation

/-! ## The order of sites -/

/-- The sites at some lexemes. -/
def sites (ls : List Lexeme) : List Site := ls.flatMap fun l => [⟨l.place, true⟩, ⟨l.place, false⟩]

/-- The sites of lexemes start with the two of the first one. -/
theorem sites_cons (l : Lexeme) (ls : List Lexeme) :
    sites (l :: ls) = ⟨l.place, true⟩ :: ⟨l.place, false⟩ :: sites ls := rfl

/-- The sites of lexemes one after the other come one after the other. -/
theorem sites_append (ls ls' : List Lexeme) : sites (ls ++ ls') = sites ls ++ sites ls' :=
  List.flatMap_append

/-- Each lexeme starts further on than those before it. -/
theorem Lexes.pairwise_offset {t : Text} {ls : List Lexeme} (h : Lexes t ls) :
    ls.Pairwise fun l m => l.place.offset < m.place.offset := by
  refine h.pairwise.imp_of_mem fun {l m} mem _ behind => ?_
  have long : 0 < l.text.length := List.length_pos_of_ne_nil (h.exists_of_mem mem).1.ne_nil
  rw [Lexeme.stop] at behind
  omega

/-- The sites of a text come one after the other. -/
theorem Lexes.pairwise_sites {t : Text} {ls : List Lexeme} (h : Lexes t ls) :
    (sites ls).Pairwise Site.Before := by
  refine List.pairwise_flatMap.2 ⟨fun l _ => ?_, h.pairwise_offset.imp fun {l m} behind => ?_⟩
  · exact List.pairwise_pair.2 (.inr ⟨rfl, rfl, rfl⟩)
  · simp [Site.Before, behind]

namespace Derivation

/-! ## The sites of violations -/

/-- Lexemes behind others leave the sites of those as they are. -/
theorem tail_sites_append {ls ls' : List Lexeme} (nonempty : ls ≠ []) :
    (sites (ls ++ ls')).tail = (sites ls).tail ++ sites ls' := by
  obtain ⟨l, ls, rfl⟩ := List.exists_cons_of_ne_nil nonempty
  rw [sites_append]
  rfl

/-- The first site of an expression is ahead of its first lexeme. -/
theorem Postfix.sites_yield (d : Postfix) :
    sites d.yield = ⟨d.start, true⟩ :: (sites d.yield).tail := by
  obtain ⟨l, rest, yields, start⟩ := d.exists_first
  rw [yields, start]
  rfl

variable [CharacterNames]

/-- The violation of a lexeme stands at the second of its sites. -/
theorem sublist_sites_lexeme (l : Lexeme) :
    (l.violations.map (·.1)).Sublist (sites [l]).tail := by
  rw [Lexeme.violations]
  cases literalValue l with
  | ok _ => exact List.nil_sublist _
  | error v => exact List.Sublist.refl _

mutual

/-- **Violations are found in the order of the text.** None is ahead of a whole expression, for only
a call is concerned with what is ahead of its arguments. -/
theorem Postfix.sublist_sites (d : Postfix) :
    (d.violations.map (·.1)).Sublist (sites d.yield).tail := by
  cases d with
  | string l =>
    rw [Postfix.violations, Postfix.yield]
    exact sublist_sites_lexeme l.1
  | integer l =>
    rw [Postfix.violations, Postfix.yield]
    exact sublist_sites_lexeme l.1
  | keyword l =>
    rw [Postfix.violations]
    exact List.nil_sublist _
  | name l =>
    rw [Postfix.violations]
    exact List.nil_sublist _
  -- What is broken in a part has its site behind the first lexeme of that part; the lexemes in
  -- front of the part only add sites.
  | group opening inner closing =>
    rw [Postfix.violations, Postfix.yield, sites_cons, List.tail_cons, sites_append]
    exact ((inner.sublist_sites.trans (List.tail_sublist _)).trans
      (List.sublist_append_left _ _)).cons _
  | member base dot attr =>
    rw [Postfix.violations, Postfix.yield, tail_sites_append base.yield_ne_nil]
    exact base.sublist_sites.trans (List.sublist_append_left _ _)
  | call func opening closing =>
    rw [Postfix.violations]
    exact List.nil_sublist _
  | callWith func opening arguments closing =>
    rw [Postfix.violations, Postfix.yield, sites_cons, List.tail_cons, sites_cons, sites_append]
    exact ((((arguments.sublist_sites func.1 []).trans
      (List.sublist_append_left _ _)).cons _).cons _).cons _
termination_by structural d

/-- The violations in arguments stand at sites of their lexemes, in order. -/
theorem Arguments.sublist_sites (a : Arguments) (func : Lexeme) (names : List Text) :
    ((a.violations func names).map (·.1)).Sublist (sites a.yield) := by
  cases a with
  | last argument =>
    rw [Arguments.violations, Arguments.yield]
    exact argument.sublist_sites func names
  | lastWithComma argument comma =>
    rw [Arguments.violations, Arguments.yield, sites_append]
    exact (argument.sublist_sites func names).trans (List.sublist_append_left _ _)
  | more argument comma rest =>
    rw [Arguments.violations, Arguments.yield, List.map_append, sites_append, sites_cons]
    exact (argument.sublist_sites func names).append
      (((rest.sublist_sites func _).cons _).cons _)
termination_by structural a

/-- The violations in an argument stand at sites of its lexemes, in order, its misplacement first. -/
theorem Arg.sublist_sites (a : Arg) (func : Lexeme) (names : List Text) :
    ((a.misplacement func names ++ a.violations).map (·.1)).Sublist (sites a.yield) := by
  cases a with
  | positional value =>
    rw [Arg.misplacement, Arg.violations, Arg.yield]
    split
    · exact value.sublist_sites.trans (List.tail_sublist _)
    · rw [value.sites_yield]
      exact value.sublist_sites.cons_cons _
  | keyword name equals value =>
    rw [Arg.misplacement, Arg.violations, Arg.yield, sites_cons, sites_cons]
    have inner := ((value.sublist_sites.trans (List.tail_sublist _)).cons
      (⟨equals.1.place, false⟩ : Site)).cons ⟨equals.1.place, true⟩
    split
    · exact (inner.cons_cons _).cons _
    · exact (inner.cons _).cons _
termination_by structural a

end

/-- The violations in a statement stand at sites of its lexemes, in order. -/
theorem Stmt.sublist_sites (stmt : Stmt) :
    (stmt.violations.map (·.1)).Sublist (sites stmt.yield) := by
  have whole (d : Postfix) : (d.violations.map (·.1)).Sublist (sites d.yield) :=
    d.sublist_sites.trans (List.tail_sublist _)
  cases stmt with
  | assign target equals value =>
    rw [Stmt.violations, Stmt.yield, sites_cons, sites_cons]
    exact ((((whole value).cons _).cons _).cons _).cons _
  | write target dot attr equals value =>
    rw [Stmt.violations, Stmt.yield, List.map_append, sites_append]
    refine (whole target).append ?_
    rw [sites_cons, sites_cons, sites_cons]
    exact ((((((whole value).cons _).cons _).cons _).cons _).cons _).cons _
  | bare value => exact whole value

/-- The violations in a program stand at sites of its lexemes, in order. -/
theorem Program.sublist_sites (program : Program) :
    (program.violations.map (·.1)).Sublist (sites program.yield) := by
  induction program with
  | nil => exact List.nil_sublist _
  | cons row program ih =>
    obtain ⟨stmt, newline⟩ := row
    cases stmt with
    | none =>
      rw [Program.violations_cons_none, Program.yield_cons_none, sites_cons]
      exact (ih.cons _).cons _
    | some stmt =>
      rw [Program.violations_cons_some, Program.yield_cons_some, List.map_append, sites_append,
        sites_cons]
      exact stmt.sublist_sites.append ((ih.cons _).cons _)

end Derivation

/-! ## What is reported -/

/-- The spot at which a violation is reported; numerals are reported without one. -/
def Violation.spot? : Violation → Option Spot
  | .badString _ _ spot | .duplicateKeyword _ _ spot | .positionalAfterKeyword _ spot => some spot
  | .tooLong _ => none

/-- A script that is derived is read as what its lines say. -/
theorem parse_of_lexes [CharacterNames] {source : Text} {program : Program}
    (lexes : Lexes (closeLastLine source) program.yield) :
    parse source = (program.lines.mapM Line.toStatement).mapError SourceFault.violation := by
  rw [parse, readWith_script_ok_iff.2 ⟨program, lexes, rfl⟩]

/-- **The first violation in the text is reported.** Of all violations in a script that is derived
the one is reported whose site comes before the others; a script without any is read. What is wrong
with a string is reported at the string, and what is wrong with an argument at the call; a numeral
with too many digits is reported as a value of no use. Nothing of a script that breaks a rule is
executed. -/
theorem first_violation_is_reported [CharacterNames] {source : Text} {program : Program}
    (lexes : Lexes (closeLastLine source) program.yield) :
    (∀ v, parse source = .error (.violation v) ↔
      ∃ site, Breaks program.yield program.nodes site v ∧
        ∀ other v', Breaks program.yield program.nodes other v' →
          (other, v') = (site, v) ∨ site.Before other) ∧
    ((∃ v, parse source = .error (.violation v)) ↔
      ∃ site v, Breaks program.yield program.nodes site v) ∧
    ((∃ statements, parse source = .ok statements) ↔
      ¬ ∃ site v, Breaks program.yield program.nodes site v) ∧
    (∀ v spot, v.spot? = some spot → ∃ d,
      (SourceFault.violation v).failure = ⟨.diagnostic d, none⟩ ∧
        d.reasonCode = "script-parse" ∧ d.kind = .script (some spot.line) (some spot.column)) ∧
    (∀ fault, (SourceFault.violation (.tooLong fault)).failure =
      ⟨.invalidValue fault.message, none⟩) ∧
    ∀ v, parse source = .error (.violation v) → ∀ (files : Files) (s : Session),
      s.run files source = ⟨[], s, .error (SourceFault.violation v).failure⟩ := by
  have first := program.firstOf_mapM
  have listed (site : Site) (v : Violation) :
      (site, v) ∈ program.violations ↔ Breaks program.yield program.nodes site v :=
    program.mem_violations_iff
  have reported (v : Violation) : parse source = .error (.violation v) ↔
      program.lines.mapM Line.toStatement = .error v := by
    rw [parse_of_lexes lexes]
    simp [Except.mapError_eq_error_iff]
  have read : (∃ statements, parse source = .ok statements) ↔
      ¬ ∃ site v, Breaks program.yield program.nodes site v := by
    simp only [parse_of_lexes lexes, Except.mapError_eq_ok_iff, first.ok_iff, ← listed,
      List.eq_nil_iff_forall_not_mem, Prod.forall, not_exists]
  -- The traversal reports the first of its list, and the list holds its sites in the order of the
  -- text.
  refine ⟨fun v => ?_, ?_, read, ?_, fun fault => rfl, ?_⟩
  · rw [reported, first.error_iff (lexes.pairwise_sites.sublist program.sublist_sites)]
    simp only [listed, Prod.forall]
  · rw [← not_iff_not, ← read, parse_of_lexes lexes]
    cases program.lines.mapM Line.toStatement <;> simp [Except.mapError]
  · intro v spot isSpot
    cases v with
    | tooLong fault => cases isSpot
    | _ =>
      obtain rfl := Option.some.inj isSpot
      exact ⟨_, rfl, rfl, rfl⟩
  · intro v broken files s
    rw [Session.run, broken]
    rfl

section

open scoped CharacterNames.Unlisted

/-- A string that is an argument out of place is wrong in itself as well, but what is reported is
the call, whose violation is ahead of the string. -/
theorem argument_reported_ahead_of_string :
    let source : Text := "f(a=1, '\\x')"
    ∃ program : Program, Lexes (closeLastLine source) program.yield ∧
      Breaks program.yield program.nodes ⟨⟨7, 1, 8⟩, false⟩
        (.badString "'\\x'" (.escape ⟨.shortByte, 0, 2⟩ 1) ⟨1, 8⟩) ∧
      parse source = .error (.violation (.positionalAfterKeyword "f" ⟨1, 1⟩)) ∧
      ∃ site, site.Before ⟨⟨7, 1, 8⟩, false⟩ ∧
        Breaks program.yield program.nodes site (.positionalAfterKeyword "f" ⟨1, 1⟩) := by
  intro source
  let func : Name := ⟨⟨.word, "f", ⟨0, 1, 1⟩⟩, rfl, by decide +kernel⟩
  let name : Name := ⟨⟨.word, "a", ⟨2, 1, 3⟩⟩, rfl, by decide +kernel⟩
  let first : Arg := .keyword name ⟨⟨.equals, "=", ⟨3, 1, 4⟩⟩, rfl⟩
    (.integer ⟨⟨.integer, "1", ⟨4, 1, 5⟩⟩, rfl⟩)
  let second : Arg := .positional (.string ⟨⟨.string, "'\\x'", ⟨7, 1, 8⟩⟩, rfl⟩)
  let arguments : Arguments := .more first ⟨⟨.comma, ",", ⟨5, 1, 6⟩⟩, rfl⟩ (.last second)
  let call : Postfix := .callWith func ⟨⟨.opening, "(", ⟨1, 1, 2⟩⟩, rfl⟩ arguments
    ⟨⟨.closing, ")", ⟨11, 1, 12⟩⟩, rfl⟩
  let program : Program := [(some (.bare call), ⟨⟨.newline, "\n", ⟨12, 1, 13⟩⟩, rfl⟩)]
  have lexes : Lexes (closeLastLine source) program.yield := lexes_iff.2 (by decide +kernel)
  have isString : Breaks program.yield program.nodes ⟨⟨7, 1, 8⟩, false⟩
      (.badString "'\\x'" (.escape ⟨.shortByte, 0, 2⟩ 1) ⟨1, 8⟩) :=
    .badString (l := ⟨.string, "'\\x'", ⟨7, 1, 8⟩⟩) (by decide +kernel) rfl (by decide +kernel)
  have reported : parse source = .error (.violation (.positionalAfterKeyword "f" ⟨1, 1⟩)) := by
    rw [parse_of_lexes lexes]
    rfl
  obtain ⟨site, breaks, before⟩ := ((first_violation_is_reported lexes).1 _).1 reported
  refine ⟨program, lexes, isString, reported, site, ?_, breaks⟩
  rcases before _ _ isString with same | before
  · cases same
  · exact before

end

end Packaging.Script
