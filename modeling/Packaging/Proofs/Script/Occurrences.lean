import Packaging.Proofs.Script.Derivation
import Packaging.Proofs.Script.Relocation
import Packaging.Proofs.Text.Places

/-! # Expressions in scripts
An expression occurs in a script between the lexemes before it and those behind it: as the value or
the target of a statement, as an argument, as the base of an attribute or in parentheses. What
occurs there may be another expression that says the same, and the script says the same then. So
parentheses and the last comma of a call may be added anywhere. -/

namespace Packaging.Script

namespace Derivation

/-! ## Occurrences -/

mutual

/-- An expression in an expression, with the lexemes before it and behind it. -/
inductive Postfix.Occurs (x : Postfix) : List Lexeme → Postfix → List Lexeme → Prop
  /-- All of it. -/
  | whole : Postfix.Occurs x [] x []
  /-- In parentheses. -/
  | group {opening : Token .opening} {inner : Postfix} {closing : Token .closing}
      {before after : List Lexeme} (inside : Postfix.Occurs x before inner after) :
      Postfix.Occurs x (opening.1 :: before) (.group opening inner closing) (after ++ [closing.1])
  /-- In the base of an attribute. -/
  | member {base : Postfix} {dot : Token .dot} {attr : Token .word} {before after : List Lexeme}
      (inside : Postfix.Occurs x before base after) :
      Postfix.Occurs x before (.member base dot attr) (after ++ [dot.1, attr.1])
  /-- In an argument of a call. -/
  | callWith {func : Name} {opening : Token .opening} {arguments : Arguments}
      {closing : Token .closing} {before after : List Lexeme}
      (inside : Arguments.Occurs x before arguments after) :
      Postfix.Occurs x (func.1 :: opening.1 :: before) (.callWith func opening arguments closing)
        (after ++ [closing.1])

/-- An expression in arguments, with the lexemes before it and behind it. -/
inductive Arguments.Occurs (x : Postfix) : List Lexeme → Arguments → List Lexeme → Prop
  /-- In the last argument. -/
  | last {argument : Arg} {before after : List Lexeme}
      (inside : Arg.Occurs x before argument after) :
      Arguments.Occurs x before (.last argument) after
  /-- In the last argument, which has a comma after it. -/
  | lastWithComma {argument : Arg} {comma : Token .comma} {before after : List Lexeme}
      (inside : Arg.Occurs x before argument after) :
      Arguments.Occurs x before (.lastWithComma argument comma) (after ++ [comma.1])
  /-- In an argument before others. -/
  | first {argument : Arg} {comma : Token .comma} {rest : Arguments} {before after : List Lexeme}
      (inside : Arg.Occurs x before argument after) :
      Arguments.Occurs x before (.more argument comma rest) (after ++ comma.1 :: rest.yield)
  /-- In the arguments after it. -/
  | rest {argument : Arg} {comma : Token .comma} {rest : Arguments} {before after : List Lexeme}
      (inside : Arguments.Occurs x before rest after) :
      Arguments.Occurs x (argument.yield ++ comma.1 :: before) (.more argument comma rest) after

/-- An expression in an argument, with the lexemes before it and behind it. -/
inductive Arg.Occurs (x : Postfix) : List Lexeme → Arg → List Lexeme → Prop
  /-- In an argument that is known by its position. -/
  | positional {value : Postfix} {before after : List Lexeme}
      (inside : Postfix.Occurs x before value after) :
      Arg.Occurs x before (.positional value) after
  /-- In an argument that is known by a name. -/
  | keyword {name : Name} {equals : Token .equals} {value : Postfix} {before after : List Lexeme}
      (inside : Postfix.Occurs x before value after) :
      Arg.Occurs x (name.1 :: equals.1 :: before) (.keyword name equals value) after

end

/-- An expression in a statement, with the lexemes before it and behind it. -/
inductive Stmt.Occurs (x : Postfix) : List Lexeme → Stmt → List Lexeme → Prop
  /-- In the value for a name. -/
  | assign {target : Name} {equals : Token .equals} {value : Postfix} {before after : List Lexeme}
      (inside : x.Occurs before value after) :
      Occurs x (target.1 :: equals.1 :: before) (.assign target equals value) after
  /-- In the base of an attribute that is written. -/
  | target {target : Postfix} {dot : Token .dot} {attr : Token .word} {equals : Token .equals}
      {value : Postfix} {before after : List Lexeme} (inside : x.Occurs before target after) :
      Occurs x before (.write target dot attr equals value)
        (after ++ dot.1 :: attr.1 :: equals.1 :: value.yield)
  /-- In the value for an attribute. -/
  | write {target : Postfix} {dot : Token .dot} {attr : Token .word} {equals : Token .equals}
      {value : Postfix} {before after : List Lexeme} (inside : x.Occurs before value after) :
      Occurs x (target.yield ++ dot.1 :: attr.1 :: equals.1 :: before)
        (.write target dot attr equals value) after
  /-- In an expression that stands alone. -/
  | bare {value : Postfix} {before after : List Lexeme} (inside : x.Occurs before value after) :
      Occurs x before (.bare value) after

/-- An expression in a line of a script, with the lexemes before it and behind it. -/
inductive Program.Occurs (x : Postfix) : List Lexeme → Program → List Lexeme → Prop
  /-- In the statement of a line. -/
  | line {above below : Program} {stmt : Stmt} {newline : Token .newline}
      {before after : List Lexeme} (inside : Stmt.Occurs x before stmt after) :
      Occurs x (above.yield ++ before) (above ++ (some stmt, newline) :: below)
        (after ++ newline.1 :: below.yield)

/-! ## The lexemes around an occurrence -/

mutual

/-- The lexemes of an occurrence are between those before it and those behind it. -/
theorem Postfix.Occurs.yield_eq {x : Postfix} (d : Postfix) {before after : List Lexeme}
    (h : x.Occurs before d after) : d.yield = before ++ (x.yield ++ after) := by
  cases h with
  | whole => rw [List.nil_append, List.append_nil]
  | @group opening inner closing before after inside =>
    rw [Postfix.yield, Postfix.Occurs.yield_eq inner inside]
    simp
  | @member base dot attr before after inside =>
    rw [Postfix.yield, Postfix.Occurs.yield_eq base inside]
    simp
  | @callWith func opening arguments closing before after inside =>
    rw [Postfix.yield, Arguments.Occurs.yield_eq arguments inside]
    simp
termination_by structural d

/-- Arguments yield what stands before a part, the part, and what stands after it. -/
theorem Arguments.Occurs.yield_eq {x : Postfix} (a : Arguments) {before after : List Lexeme}
    (h : Arguments.Occurs x before a after) : a.yield = before ++ (x.yield ++ after) := by
  cases h with
  | @last argument before after inside =>
    rw [Arguments.yield, Arg.Occurs.yield_eq argument inside]
  | @lastWithComma argument comma before after inside =>
    rw [Arguments.yield, Arg.Occurs.yield_eq argument inside]
    simp
  | @first argument comma rest before after inside =>
    rw [Arguments.yield, Arg.Occurs.yield_eq argument inside]
    simp
  | @rest argument comma rest before after inside =>
    rw [Arguments.yield, Arguments.Occurs.yield_eq rest inside]
    simp
termination_by structural a

/-- An argument yields what stands before a part, the part, and what stands after it. -/
theorem Arg.Occurs.yield_eq {x : Postfix} (a : Arg) {before after : List Lexeme}
    (h : Arg.Occurs x before a after) : a.yield = before ++ (x.yield ++ after) := by
  cases h with
  | @positional value before after inside =>
    rw [Arg.yield, Postfix.Occurs.yield_eq value inside]
  | @keyword name equals value before after inside =>
    rw [Arg.yield, Postfix.Occurs.yield_eq value inside]
    simp
termination_by structural a

end

/-- A statement yields what stands before a part, the part, and what stands after it. -/
theorem Stmt.Occurs.yield_eq {x : Postfix} {stmt : Stmt} {before after : List Lexeme}
    (h : Stmt.Occurs x before stmt after) : stmt.yield = before ++ (x.yield ++ after) := by
  cases h with
  | assign inside => simp [Stmt.yield, inside.yield_eq]
  | target inside => simp [Stmt.yield, inside.yield_eq]
  | write inside => simp [Stmt.yield, inside.yield_eq]
  | bare inside => exact inside.yield_eq

/-- A program yields what stands before a part, the part, and what stands after it. -/
theorem Program.Occurs.yield_eq {x : Postfix} {program : Program} {before after : List Lexeme}
    (h : Program.Occurs x before program after) :
    program.yield = before ++ (x.yield ++ after) := by
  obtain ⟨inside⟩ := h
  rw [Program.yield_append, Program.yield_cons_some, inside.yield_eq]
  simp

/-- Behind an occurrence a line ends. -/
theorem Program.Occurs.after_ne_nil {x : Postfix} {program : Program} {before after : List Lexeme}
    (h : Program.Occurs x before program after) : after ≠ [] := by
  obtain ⟨inside⟩ := h
  simp

/-! ## Saying the same -/

/-- Whether two expressions say the same, wherever they stand. -/
def Postfix.Means (x y : Postfix) : Prop :=
  y.phrase.relocate Place.forget = x.phrase.relocate Place.forget

/-- Whether some arguments say the same as others, wherever they stand. -/
def Arguments.Means (a b : Arguments) : Prop :=
  b.phrases.map (Argument.relocate Place.forget) = a.phrases.map (Argument.relocate Place.forget)

mutual

/-- **What says the same may occur instead.** -/
theorem Postfix.Occurs.replace {x y : Postfix} (same : x.Means y) (d : Postfix)
    {before after : List Lexeme} (h : x.Occurs before d after) :
    ∃ d', y.Occurs before d' after ∧ d.Means d' := by
  cases h with
  | whole => exact ⟨y, .whole, same⟩
  | @group opening inner closing before after inside =>
    obtain ⟨inner', inside', means⟩ := Postfix.Occurs.replace same inner inside
    exact ⟨.group opening inner' closing, .group inside', means⟩
  | @member base dot attr before after inside =>
    obtain ⟨base', inside', means⟩ := Postfix.Occurs.replace same base inside
    refine ⟨.member base' dot attr, .member inside', ?_⟩
    rw [Postfix.Means, Postfix.phrase, Postfix.phrase, Phrase.relocate, Phrase.relocate, means]
    rfl
  | @callWith func opening arguments closing before after inside =>
    obtain ⟨arguments', inside', means⟩ := Arguments.Occurs.replace same arguments inside
    refine ⟨.callWith func opening arguments' closing, .callWith inside', ?_⟩
    rw [Postfix.Means, Postfix.phrase, Postfix.phrase, Phrase.relocate, Phrase.relocate,
      Argument.relocateAll_eq_map, Argument.relocateAll_eq_map, means]
termination_by structural d

/-- A part of arguments can be replaced by one that means the same. -/
theorem Arguments.Occurs.replace {x y : Postfix} (same : x.Means y) (a : Arguments)
    {before after : List Lexeme} (h : Arguments.Occurs x before a after) :
    ∃ a', Arguments.Occurs y before a' after ∧ a.Means a' := by
  cases h with
  | @last argument before after inside =>
    obtain ⟨argument', inside', means⟩ := Arg.Occurs.replace same argument inside
    exact ⟨.last argument', .last inside', by simp [Arguments.Means, Arguments.phrases, means]⟩
  | @lastWithComma argument comma before after inside =>
    obtain ⟨argument', inside', means⟩ := Arg.Occurs.replace same argument inside
    exact ⟨.lastWithComma argument' comma, .lastWithComma inside',
      by simp [Arguments.Means, Arguments.phrases, means]⟩
  | @first argument comma rest before after inside =>
    obtain ⟨argument', inside', means⟩ := Arg.Occurs.replace same argument inside
    exact ⟨.more argument' comma rest, .first inside',
      by simp [Arguments.Means, Arguments.phrases, means]⟩
  | @rest argument comma rest before after inside =>
    obtain ⟨rest', inside', means⟩ := Arguments.Occurs.replace same rest inside
    refine ⟨.more argument comma rest', .rest inside', ?_⟩
    rw [Arguments.Means, Arguments.phrases, Arguments.phrases, List.map_cons, List.map_cons, means]
termination_by structural a

/-- A part of an argument can be replaced by one that means the same. -/
theorem Arg.Occurs.replace {x y : Postfix} (same : x.Means y) (a : Arg)
    {before after : List Lexeme} (h : Arg.Occurs x before a after) :
    ∃ a', Arg.Occurs y before a' after ∧
      a'.phrase.relocate Place.forget = a.phrase.relocate Place.forget := by
  cases h with
  | @positional value before after inside =>
    obtain ⟨value', inside', means⟩ := Postfix.Occurs.replace same value inside
    refine ⟨.positional value', .positional inside', ?_⟩
    rw [Arg.phrase, Arg.phrase, Argument.relocate, Argument.relocate, means]
  | @keyword name equals value before after inside =>
    obtain ⟨value', inside', means⟩ := Postfix.Occurs.replace same value inside
    refine ⟨.keyword name equals value', .keyword inside', ?_⟩
    rw [Arg.phrase, Arg.phrase, Argument.relocate, Argument.relocate, means]
termination_by structural a

end

/-- A part of a statement can be replaced by one that means the same. -/
theorem Stmt.Occurs.replace {x y : Postfix} (same : x.Means y) {stmt : Stmt}
    {before after : List Lexeme} (h : Stmt.Occurs x before stmt after) :
    ∃ stmt', Stmt.Occurs y before stmt' after ∧
      stmt'.line.relocate Place.forget = stmt.line.relocate Place.forget := by
  cases h with
  | @assign target equals value before after inside =>
    obtain ⟨value', inside', means⟩ := inside.replace same
    refine ⟨.assign target equals value', .assign inside', ?_⟩
    rw [Stmt.line, Stmt.line, Line.relocate, Line.relocate, means]
  | @target target dot attr equals value before after inside =>
    obtain ⟨target', inside', means⟩ := inside.replace same
    refine ⟨.write target' dot attr equals value, .target inside', ?_⟩
    rw [Stmt.line, Stmt.line, Line.relocate, Line.relocate, means]
    rfl
  | @write target dot attr equals value before after inside =>
    obtain ⟨value', inside', means⟩ := inside.replace same
    refine ⟨.write target dot attr equals value', .write inside', ?_⟩
    rw [Stmt.line, Stmt.line, Line.relocate, Line.relocate, means]
  | @bare value before after inside =>
    obtain ⟨value', inside', means⟩ := inside.replace same
    refine ⟨.bare value', .bare inside', ?_⟩
    rw [Stmt.line, Stmt.line, Line.relocate, Line.relocate, means]
    rfl

/-- **A script says the same when what occurs in it does.** -/
theorem Program.Occurs.replace {x y : Postfix} (same : x.Means y) {program : Program}
    {before after : List Lexeme} (h : Program.Occurs x before program after) :
    ∃ program', Program.Occurs y before program' after ∧
      program'.lines.map (Line.relocate Place.forget) =
        program.lines.map (Line.relocate Place.forget) := by
  obtain @⟨above, below, stmt, newline, before, after, inside⟩ := h
  obtain ⟨stmt', inside', means⟩ := inside.replace same
  refine ⟨above ++ (some stmt', newline) :: below, .line inside', ?_⟩
  simp [Program.lines_append, Program.lines_cons_some, means]

/-! ## Parentheses and commas -/

/-- An expression says the same with parentheses around it. -/
theorem Postfix.means_group (x : Postfix) (opening : Token .opening) (closing : Token .closing) :
    x.Means (.group opening x closing) := rfl

/-- Whether arguments have a comma after the last one. -/
def Arguments.EndsWithComma : Arguments → Prop
  | .last _ => False
  | .lastWithComma _ _ => True
  | .more _ _ rest => rest.EndsWithComma

/-- Arguments with a comma after the last one. -/
def Arguments.withComma (comma : Token .comma) : Arguments → Arguments
  | .last argument => .lastWithComma argument comma
  | .lastWithComma argument own => .lastWithComma argument own
  | .more argument own rest => .more argument own (rest.withComma comma)

/-- A comma at the end leaves what arguments say as it is. -/
theorem Arguments.phrases_withComma (comma : Token .comma) (a : Arguments) :
    (a.withComma comma).phrases = a.phrases := by
  cases a with
  | last argument => rfl
  | lastWithComma argument own => rfl
  | more argument own rest =>
    rw [Arguments.withComma, Arguments.phrases, Arguments.phrases, rest.phrases_withComma comma]
termination_by structural a

/-- Where there was none, a comma at the end is one lexeme more. -/
theorem Arguments.yield_withComma (comma : Token .comma) (a : Arguments)
    (none : ¬ a.EndsWithComma) : (a.withComma comma).yield = a.yield ++ [comma.1] := by
  cases a with
  | last argument => rfl
  | lastWithComma argument own => exact absurd trivial none
  | more argument own rest =>
    rw [Arguments.withComma, Arguments.yield, Arguments.yield, rest.yield_withComma comma none]
    simp
termination_by structural a

/-- A call says the same with a comma after its last argument. -/
theorem Postfix.means_withComma (func : Name) (opening : Token .opening) (arguments : Arguments)
    (closing : Token .closing) (comma : Token .comma) :
    Postfix.Means (.callWith func opening arguments closing)
      (.callWith func opening (arguments.withComma comma) closing) := by
  rw [Postfix.Means, Postfix.phrase, Postfix.phrase, arguments.phrases_withComma]

end Derivation

end Packaging.Script
