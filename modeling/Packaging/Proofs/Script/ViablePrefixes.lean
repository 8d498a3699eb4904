import Packaging.Proofs.Script.Soundness

/-! # Beginnings of sentences
The machine reads exactly the beginnings of what the grammar allows. What it has read can always be
completed: the expression that it stands in by a name, every open bracket by its closing, and a line
by its end. What it refuses no continuation could make right. -/

namespace Packaging.Script

open Script.Derivation Machine

/-! ## Sentences -/

/-- The lexemes of scripts, and those of expressions. -/
def Start.Derives : Start → List Lexeme → Prop
  | program, ls => ∃ program : Program, program.yield = ls
  | expr, ls => ∃ d : Postfix, d.yield = ls

/-- Whether lexemes are the beginning of what is derived. -/
def Start.Begins (start : Start) (ls : List Lexeme) : Prop :=
  ∃ sentence, start.Derives sentence ∧ ls <+: sentence

/-- A beginning of what begins a sentence begins one. -/
theorem Start.Begins.of_beginning {start : Start} {ls ls' : List Lexeme} (h : start.Begins ls')
    (beginning : ls <+: ls') : start.Begins ls := by
  obtain ⟨sentence, derived, more⟩ := h
  exact ⟨sentence, derived, beginning.trans more⟩

/-! ## Completing what has been read -/

/-- A closing bracket. -/
def someClosing : Token .closing := ⟨⟨.closing, ")", .origin⟩, rfl⟩

/-- The end of a line. -/
def someNewline : Token .newline := ⟨⟨.newline, "\n", .origin⟩, rfl⟩

/-- A name. -/
def someName : Name := ⟨⟨.word, "x", .origin⟩, rfl, by decide⟩

/-- A word after a dot. -/
def someWord : Token .word := ⟨someName.1, someName.2.1⟩

/-- What has been read since the innermost bracket or sign is the beginning of an expression, unless
nothing of a line has been read. -/
theorem Mode.Reads.exists_postfix {mode : Mode} {inner : List Lexeme} (h : mode.Reads inner) :
    ∃ d : Postfix, inner <+: d.yield := by
  cases h with
  | lineStart | operand | argument => exact ⟨.name someName, List.nil_prefix⟩
  | word name => exact ⟨.name name, List.prefix_refl _⟩
  | done d => exact ⟨d, List.prefix_refl _⟩
  | dot d dot =>
    refine ⟨.member d dot someWord, ?_⟩
    rw [Postfix.yield, List.prefix_append_right_inj, List.cons_prefix_cons]
    exact ⟨rfl, List.nil_prefix⟩
  | member d dot attr =>
    exact ⟨.member d dot attr, [], by rw [Postfix.yield, List.append_nil]⟩

/-- An open bracket around an expression becomes an expression when it is closed. -/
theorem Frame.Reads.exists_postfix {frame : Frame} {inner : List Lexeme} (h : frame.Reads inner)
    (d : Postfix) : ∃ d' : Postfix, inner ++ d.yield <+: d'.yield := by
  have called {func : Lexeme} {done : List Argument} {keyword : Option Lexeme}
      (top : (Frame.call func done keyword).Reads inner) :
      ∃ d' : Postfix, inner ++ d.yield <+: d'.yield := by
    obtain ⟨name, opening, before, a, -, -, -, hyield⟩ := exists_done d top
    refine ⟨.callWith name opening (before.before (.last a)) someClosing, ?_⟩
    rw [hyield, Postfix.yield, Done.yield_before, Arguments.yield]
    exact ⟨[someClosing.1], by simp⟩
  cases h with
  | group opening =>
    refine ⟨.group opening d someClosing, ?_⟩
    rw [Postfix.yield]
    exact ⟨[someClosing.1], by simp⟩
  | call func opening done => exact called (.call func opening done)
  | keyword func opening done name equals => exact called (.keyword func opening done name equals)

/-- The beginning of a line and an expression become a statement. -/
theorem Purpose.Reads.exists_stmt {purpose : Purpose} {before : List Lexeme}
    (h : purpose.Reads before) (d : Postfix) : ∃ stmt : Stmt, stmt.yield = before ++ d.yield := by
  cases h with
  | statement => exact ⟨.bare d, rfl⟩
  | assign target equals => exact ⟨.assign target equals d, rfl⟩
  | write target dot attr equals =>
    refine ⟨.write target dot attr equals d, ?_⟩
    rw [Stmt.yield, List.append_assoc]
    rfl

/-- Open brackets around an expression become an expression when all of them are closed. -/
theorem FramesRead.exists_postfix {frames : List Frame} {brackets : List Lexeme}
    (h : FramesRead frames brackets) (d : Postfix) :
    ∃ d' : Postfix, brackets ++ d.yield <+: d'.yield := by
  -- By induction from the inside out: each bracket is closed around a larger expression.
  induction h generalizing d with
  | nil => exact ⟨d, List.prefix_refl _⟩
  | @cons frame frames outer inner below top ih =>
    obtain ⟨d₁, beginning⟩ := top.exists_postfix d
    obtain ⟨d₂, more⟩ := ih d₁
    refine ⟨d₂, ?_⟩
    rw [List.append_assoc]
    exact ((List.prefix_append_right_inj outer).2 beginning).trans more

/-- What surrounds an expression, and the expression, begin a sentence. -/
theorem Surrounds.begins {start : Start} {lines : List Line} {purpose : Purpose}
    {frames : List Frame} {outer : List Lexeme}
    (around : Surrounds start lines purpose frames outer) (d : Postfix) :
    start.Begins (outer ++ d.yield) := by
  cases around with
  | @program _ _ _ program before brackets complete beginning opened =>
    obtain ⟨d', more⟩ := opened.exists_postfix d
    obtain ⟨stmt, hstmt⟩ := beginning.exists_stmt d'
    refine ⟨_, ⟨program ++ [(some stmt, someNewline)], rfl⟩, ?_⟩
    rw [Program.yield_append, Program.yield_cons_some, hstmt, List.append_assoc,
      List.append_assoc, List.append_assoc, List.prefix_append_right_inj,
      List.prefix_append_right_inj]
    exact more.trans (List.prefix_append _ _)
  | expr opened =>
    obtain ⟨d', more⟩ := opened.exists_postfix d
    exact ⟨d'.yield, ⟨d', rfl⟩, more⟩

/-- What a machine has read begins a sentence. -/
theorem Machine.Reads.begins {start : Start} {m : Machine} {ls : List Lexeme}
    (h : m.Reads start ls) : start.Begins ls := by
  obtain ⟨around, last, -⟩ := h
  obtain ⟨d, beginning⟩ := last.exists_postfix
  exact (around.begins d).of_beginning ((List.prefix_append_right_inj _).2 beginning)

/-! ## What is read -/

/-- What is derived is read to its end. -/
theorem Start.Derives.exists_run {start : Start} {ls : List Lexeme} (h : start.Derives ls) :
    ∃ m, start.machine.run ls = .ok m := by
  cases start with
  | program =>
    obtain ⟨program, rfl⟩ := h
    obtain ⟨m, hrun, -⟩ := script_run_iff.2 ⟨program, rfl, rfl⟩
    exact ⟨m, hrun⟩
  | expr =>
    obtain ⟨d, rfl⟩ := h
    obtain ⟨m, hrun, -⟩ := expression_run_iff.2 ⟨d, rfl, rfl⟩
    exact ⟨m, hrun⟩

/-- **Beginnings of sentences are what is read.** -/
theorem Start.begins_iff_run {start : Start} {ls : List Lexeme} :
    start.Begins ls ↔ ∃ m, start.machine.run ls = .ok m := by
  constructor
  · rintro ⟨_, derived, more, rfl⟩
    obtain ⟨m, hrun⟩ := derived.exists_run
    obtain ⟨n, hn, -⟩ := exists_run_of_append hrun
    exact ⟨n, hn⟩
  · rintro ⟨m, hrun⟩
    exact (start.reads_of_run hrun).begins

/-- A lexeme that is refused makes the beginning of a sentence impossible. -/
theorem Start.not_begins_of_refused {start : Start} {ls : List Lexeme} {l : Lexeme} {m : Machine}
    (h : start.machine.run ls = .ok m) (refused : m.step l = none) :
    ¬ start.Begins (ls ++ [l]) := by
  rw [begins_iff_run, not_exists]
  intro n hrun
  rw [run_append, h] at hrun
  exact nomatch hrun.symm.trans (run_cons_of_none refused [])

end Packaging.Script
