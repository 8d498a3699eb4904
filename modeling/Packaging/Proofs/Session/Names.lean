import Packaging.Proofs.Json.Strings
import Packaging.Proofs.Script.SyntaxErrors
import Packaging.Proofs.Session.Frames

/-! # The names of a session
A script binds nothing but words of its own, and it binds none of them twice. So a script that runs
from the start leaves names that are words, each once. -/

namespace Packaging

/-! ## Targets -/

namespace Script

/-- The target of an assignment is a word of the script. -/
theorem Derivation.Program.Builds.exists_target [CharacterNames] {program : Program}
    {statements : List Statement} (h : program.Builds statements) {statement : Statement}
    (mem : statement ∈ statements) {name : Text} (assigned : statement.target? = some name) :
    ∃ l ∈ program.yield, l.terminal = .word ∧ l.text = name := by
  induction h with
  | nil => cases mem
  | @blank newline program statements rest ih =>
    obtain ⟨l, hl, word⟩ := ih mem
    exact ⟨l, List.mem_append_right _ hl, word⟩
  | @line stmt newline program first statements built rest ih =>
    rcases List.mem_cons.1 mem with rfl | mem
    · cases built with
      | @assign target equals value e value_built =>
        obtain rfl := Option.some.inj assigned
        exact ⟨target.1, List.mem_cons_self, target.2.1, rfl⟩
      | write => cases assigned
      | bare => cases assigned
    · obtain ⟨l, hl, word⟩ := ih mem
      exact ⟨l, List.mem_append_right _ hl, word⟩

/-- The target of an assignment is spelled as a word. -/
theorem spells_target [CharacterNames] {source : Text} {statements : List Statement}
    (h : parse source = .ok statements) {statement : Statement} (mem : statement ∈ statements)
    {name : Text} (assigned : statement.target? = some name) :
    (Shape.lexeme .word).Spells name := by
  obtain ⟨program, lexes, built⟩ := parse_ok_iff.1 h
  obtain ⟨l, hl, word, rfl⟩ := built.exists_target mem assigned
  rw [← word]
  exact (lexes.exists_of_mem hl).1

end Script

open Script (Statement)

/-! ## Runs -/

section Runs

variable {files : Files} {s t : Session} {statements : List Statement}

/-- New names are among the names given. -/
theorem mem_of_mem_newNames {old names : List Text} {name : Text} (h : name ∈ newNames old names) :
    name ∈ names := by
  rw [newNames, List.mem_eraseDups] at h
  exact (List.mem_filter.1 h).1

/-- Every name was bound before or is the target of an assignment. -/
theorem Executed.mem_names (h : Executed files s statements t) {name : Text}
    (bound : name ∈ t.names) :
    name ∈ s.names ∨ ∃ statement ∈ statements, statement.target? = some name := by
  rw [h.names_eq] at bound
  rcases List.mem_append.1 bound with old | new
  · exact Or.inl old
  · exact Or.inr (List.mem_filterMap.1 (mem_of_mem_newNames new))

/-- No name is bound twice. -/
theorem Executed.nodup_names (h : Executed files s statements t) (distinct : s.names.Nodup) :
    t.names.Nodup := by
  induction h with
  | nil => exact distinct
  | cons succeeds others ih =>
    refine ih ?_
    rcases globals_of_execute succeeds with ⟨-, same⟩ | ⟨target, new, -, set⟩
    · rw [Session.names, same]
      exact distinct
    · rw [Session.names, set]
      exact Bindings.nodup_set distinct target new

/-- A run that does not fail has executed the statements that were read. -/
theorem executed_of_run [CharacterNames] {source : Text} (h : (s.run files source).value = .ok ()) :
    ∃ statements, Script.parse source = .ok statements ∧
      Executed files s statements (s.run files source).session := by
  cases parsed : Script.parse source with
  | error fault =>
    rw [Session.run, parsed] at h
    cases h
  | ok statements =>
    rw [run_of_parse parsed] at h ⊢
    exact ⟨statements, rfl, Executed.iff_executeAll.2 ⟨h, rfl⟩⟩

end Runs

/-- A session whose names are words, each of them once. -/
structure Session.WellNamed (s : Session) : Prop where
  /-- No name comes twice. -/
  distinct : s.names.Nodup
  /-- Every name is a word. -/
  words : ∀ name ∈ s.names, (Script.Shape.lexeme .word).Spells name

/-- No part of a word is a surrogate. -/
theorem CodePoint.isSurrogate_eq_false_of_isWordPart {c : CodePoint} (h : c.isWordPart = true) :
    c.isSurrogate = false := by
  simp only [isWordPart, isWordStart, isDigit, isBetween, Bool.or_eq_true, Bool.and_eq_true,
    decide_eq_true_eq, beq_iff_eq] at h
  rw [← Bool.not_eq_true, isSurrogate, isBetween, Bool.and_eq_true, decide_eq_true_eq,
    decide_eq_true_eq]
  omega

/-- A word has no surrogates. -/
theorem Session.WellNamed.joined {s : Session} (h : s.WellNamed) {name : Text}
    (mem : name ∈ s.names) : name.Joined := by
  have word := h.words name mem
  cases word with
  | @word c t start parts =>
    refine Text.joined_of_isSurrogate_eq_false (List.forall_mem_cons.2 ⟨?_, fun d hd => ?_⟩)
    · exact CodePoint.isSurrogate_eq_false_of_isWordPart (by rw [CodePoint.isWordPart, start]; rfl)
    · exact CodePoint.isSurrogate_eq_false_of_isWordPart (parts d hd)

/-- **Scripts that run from the start bind words,** and none of them twice. -/
theorem Session.wellNamed_run [CharacterNames] {files : Files} {p : Policy} {source : Text}
    (h : (({ policy := p } : Session).run files source).value = .ok ()) :
    (({ policy := p } : Session).run files source).session.WellNamed := by
  obtain ⟨statements, parsed, executed⟩ := executed_of_run h
  refine ⟨executed.nodup_names List.nodup_nil, ?_⟩
  intro name bound
  rcases executed.mem_names bound with old | ⟨statement, mem, assigned⟩
  · cases old
  · exact Script.spells_target parsed mem assigned

end Packaging
