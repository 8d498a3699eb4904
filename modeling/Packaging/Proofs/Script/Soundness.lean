import Mathlib.Tactic.SplitIfs
import Packaging.Proofs.Script.Completeness

/-! # What is read is derived
Every state that the machine reaches shows what it has read: complete lines, the beginning of a
line, the brackets that are open, and what came after the innermost of them. This holds at the start
and every step keeps it, so a machine that accepts has read the lexemes of a derivation. -/

namespace Packaging.Script

open Script.Derivation Machine

/-! ## Arguments before a comma -/

namespace Derivation

/-- Arguments that are each followed by a comma. -/
abbrev Done := List (Arg × Token .comma)

/-- The lexemes of arguments and their commas. -/
def Done.yield (done : Done) : List Lexeme := done.flatMap fun (a, comma) => a.yield ++ [comma.1]

/-- What arguments say. -/
def Done.phrases (done : Done) : List Argument := done.map fun (a, _) => a.phrase

/-- Arguments followed by others. -/
def Done.before (done : Done) (rest : Arguments) : Arguments :=
  done.foldr (fun (a, comma) rest => .more a comma rest) rest

/-- Arguments with others in front yield what the others yield, and then what they yield. -/
theorem Done.yield_before (done : Done) (rest : Arguments) :
    (done.before rest).yield = done.yield ++ rest.yield := by
  induction done with
  | nil => rfl
  | cons row done ih =>
    show Arg.yield row.1 ++ row.2.1 :: (Done.before done rest).yield = _
    rw [ih, Done.yield, Done.yield, List.flatMap_cons, List.append_assoc, List.append_assoc,
      List.singleton_append]

/-- Arguments with others in front say what the others say, and then what they say. -/
theorem Done.phrases_before (done : Done) (rest : Arguments) :
    (done.before rest).phrases = done.phrases ++ rest.phrases := by
  induction done with
  | nil => rfl
  | cons row done ih =>
    show Arg.phrase row.1 :: (Done.before done rest).phrases = _
    rw [ih]
    rfl

/-- A call is derived from arguments that are each followed by a comma. -/
theorem Done.exists_call (done : Done) (func : Name) (opening : Token .opening)
    (closing : Token .closing) :
    ∃ d : Postfix, d.phrase = .call func.1 done.phrases ∧ d.start = func.1.place ∧
      d.yield = func.1 :: opening.1 :: done.yield ++ [closing.1] := by
  -- The comma after the last argument belongs to the call, so the last argument comes off first.
  rcases List.eq_nil_or_concat done with rfl | ⟨init, ⟨a, comma⟩, rfl⟩
  · refine ⟨.call func opening closing, ?_, rfl, ?_⟩
    · rw [Postfix.phrase]; rfl
    · rw [Postfix.yield]; rfl
  · refine ⟨.callWith func opening (Done.before init (.lastWithComma a comma)) closing, ?_, rfl, ?_⟩
    · rw [Postfix.phrase, Done.phrases_before, Arguments.phrases, Done.phrases, Done.phrases,
        List.concat_eq_append, List.map_append]
      rfl
    · rw [Postfix.yield, Done.yield_before, Arguments.yield, Done.yield, Done.yield,
        List.concat_eq_append, List.flatMap_append, List.flatMap_singleton]
      rfl

/-- One argument more says one phrase more. -/
theorem Done.phrases_append_singleton (done : Done) (a : Arg) (comma : Token .comma) :
    Done.phrases (done ++ [(a, comma)]) = done.phrases ++ [a.phrase] := by
  rw [Done.phrases, Done.phrases, List.map_append]
  rfl

/-- One argument more yields its lexemes and its comma. -/
theorem Done.yield_append_singleton (done : Done) (a : Arg) (comma : Token .comma) :
    Done.yield (done ++ [(a, comma)]) = done.yield ++ (a.yield ++ [comma.1]) := by
  rw [Done.yield, Done.yield, List.flatMap_append, List.flatMap_singleton]

end Derivation

/-! ## What the states of the machine have read -/

/-- The lexemes of a bracket that is still open. -/
inductive Frame.Reads : Frame → List Lexeme → Prop
  /-- The bracket of an expression in parentheses. -/
  | group (opening : Token .opening) : Reads (.group opening.1.place) [opening.1]
  /-- The bracket of a call, and the arguments that are complete. -/
  | call (func : Name) (opening : Token .opening) (done : Done) :
      Reads (.call func.1 done.phrases.reverse none) (func.1 :: opening.1 :: done.yield)
  /-- The same, and the name of the argument that comes next. -/
  | keyword (func : Name) (opening : Token .opening) (done : Done) (name : Name)
      (equals : Token .equals) :
      Reads (.call func.1 done.phrases.reverse (some name.1))
        (func.1 :: opening.1 :: done.yield ++ [name.1, equals.1])

/-- The lexemes of the brackets that are still open. -/
inductive FramesRead : List Frame → List Lexeme → Prop
  /-- No bracket is open. -/
  | nil : FramesRead [] []
  /-- A bracket is open inside the others. -/
  | cons {frame : Frame} {frames : List Frame} {outer inner : List Lexeme}
      (below : FramesRead frames outer) (top : frame.Reads inner) :
      FramesRead (frame :: frames) (outer ++ inner)

/-- The lexemes of a line before its outermost expression. -/
inductive Purpose.Reads : Purpose → List Lexeme → Prop
  /-- Nothing comes before. -/
  | statement : Reads .statement []
  /-- The name that the expression is bound to. -/
  | assign (target : Name) (equals : Token .equals) :
      Reads (.assign target.1) [target.1, equals.1]
  /-- The attribute that the expression is written to. -/
  | write (target : Postfix) (dot : Token .dot) (attr : Token .word) (equals : Token .equals) :
      Reads (.write target.phrase attr.1 target.start)
        (target.yield ++ [dot.1, attr.1, equals.1])

/-- The lexemes that have been read since the innermost bracket or sign. -/
inductive Mode.Reads : Mode → List Lexeme → Prop
  | lineStart : Reads .lineStart []
  | operand : Reads .operand []
  | argument : Reads .argument []
  | word (name : Name) : Reads (.word name.1) [name.1]
  | done (d : Postfix) : Reads (.done d.phrase d.start) d.yield
  | dot (d : Postfix) (dot : Token .dot) : Reads (.dot d.phrase d.start) (d.yield ++ [dot.1])
  | member (d : Postfix) (dot : Token .dot) (attr : Token .word) :
      Reads (.member d.phrase attr.1 d.start) (d.yield ++ [dot.1, attr.1])

/-- What is read: a script or an expression. -/
inductive Start
  /-- A script. -/
  | program
  /-- An expression. -/
  | expr

/-- The lexemes of the complete lines, of the beginning of a line, and of the open brackets. -/
inductive Surrounds : Start → List Line → Purpose → List Frame → List Lexeme → Prop
  /-- A script goes on with a line after complete ones. -/
  | program {lines : List Line} {purpose : Purpose} {frames : List Frame} (program : Program)
      {before brackets : List Lexeme} (complete : program.lines = lines.reverse)
      (beginning : purpose.Reads before) (opened : FramesRead frames brackets) :
      Surrounds .program lines purpose frames (program.yield ++ before ++ brackets)
  /-- An expression has open brackets only. -/
  | expr {frames : List Frame} {brackets : List Lexeme} (opened : FramesRead frames brackets) :
      Surrounds .expr [] .whole frames brackets

/-- The lexemes that a machine has read, by what it has made of them. -/
inductive Machine.Reads (start : Start) : Machine → List Lexeme → Prop
  /-- What surrounds the innermost bracket or sign, and what came since. -/
  | intro {lines : List Line} {purpose : Purpose} {frames : List Frame} {mode : Mode}
      {outer inner : List Lexeme} (around : Surrounds start lines purpose frames outer)
      (last : mode.Reads inner) (fits : mode = .lineStart → frames = [] ∧ purpose = .statement) :
      Machine.Reads start ⟨lines, purpose, frames, mode⟩ (outer ++ inner)

/-- A frame that has read some lexemes goes around what comes next. -/
theorem Surrounds.push {start : Start} {lines : List Line} {purpose : Purpose}
    {frames : List Frame} {outer inner : List Lexeme} {frame : Frame}
    (around : Surrounds start lines purpose frames outer) (top : frame.Reads inner) :
    Surrounds start lines purpose (frame :: frames) (outer ++ inner) := by
  cases around with
  | program program complete beginning opened =>
    rw [List.append_assoc]
    exact .program program complete beginning (.cons opened top)
  | expr opened => exact .expr (.cons opened top)

/-- The innermost frame has read the last of the lexemes, those around it the others. -/
theorem Surrounds.pop {start : Start} {lines : List Line} {purpose : Purpose}
    {frames : List Frame} {outer : List Lexeme} {frame : Frame}
    (around : Surrounds start lines purpose (frame :: frames) outer) :
    ∃ rest inner, Surrounds start lines purpose frames rest ∧ frame.Reads inner ∧
      outer = rest ++ inner := by
  cases around with
  | program program complete beginning opened =>
    obtain _ | ⟨below, top⟩ := opened
    exact ⟨_, _, .program program complete beginning below, top, (List.append_assoc _ _ _).symm⟩
  | expr opened =>
    obtain _ | ⟨below, top⟩ := opened
    exact ⟨_, _, .expr below, top, rfl⟩

/-! ## Every step keeps what has been read -/

namespace Machine

variable {kind : Start} {lines : List Line} {purpose : Purpose} {frames : List Frame} {mode : Mode}
  {outer : List Lexeme} {l : Lexeme} {m : Machine}

/-- A lexeme that is taken as an operand has been read. -/
theorem reads_readOperand (around : Surrounds kind lines purpose frames outer)
    (h : readOperand ⟨lines, purpose, frames, mode⟩ l = some m) : m.Reads kind (outer ++ [l]) := by
  rw [readOperand] at h
  split at h
  · next string =>
    obtain rfl := Option.some.inj h
    exact .intro around (.done (.string ⟨l, string⟩)) (by simp)
  · next integer =>
    obtain rfl := Option.some.inj h
    exact .intro around (.done (.integer ⟨l, integer⟩)) (by simp)
  · next word =>
    split_ifs at h with keyword
    · obtain rfl := Option.some.inj h
      exact .intro around (.done (.keyword ⟨l, word, keyword⟩)) (by simp)
    · obtain rfl := Option.some.inj h
      exact .intro around (.word ⟨l, word, Bool.eq_false_iff.2 keyword⟩) (by simp)
  · next opening =>
    obtain rfl := Option.some.inj h
    have read := Reads.intro (around.push (.group ⟨l, opening⟩)) .operand (by simp)
    rwa [List.append_nil] at read
  · cases h

/-- What a finished argument adds to those before it. -/
theorem exists_done (d : Postfix) {func : Lexeme} {done : List Argument} {keyword : Option Lexeme}
    {inner : List Lexeme} (top : (Frame.call func done keyword).Reads inner) :
    ∃ name : Name, ∃ opening : Token .opening, ∃ before : Done, ∃ a : Arg,
      func = name.1 ∧ done = before.phrases.reverse ∧ a.phrase = argumentOf keyword d.phrase ∧
      inner ++ d.yield = name.1 :: opening.1 :: before.yield ++ a.yield := by
  cases top with
  | call name opening before =>
    refine ⟨name, opening, before, .positional d, rfl, rfl, ?_, rfl⟩
    rw [Arg.phrase]
    rfl
  | keyword name opening before key equals =>
    refine ⟨name, opening, before, .keyword key equals d, rfl, rfl, ?_, ?_⟩
    · rw [Arg.phrase]
      rfl
    · rw [Arg.yield]
      simp

/-- A comma that ends an argument has been read. -/
theorem reads_comma (d : Postfix) {func : Lexeme} {done : List Argument}
    {keyword : Option Lexeme}
    (around : Surrounds kind lines purpose (.call func done keyword :: frames) outer)
    (comma : Token .comma) :
    (⟨lines, purpose, .call func (argumentOf keyword d.phrase :: done) none :: frames,
      .argument⟩ : Machine).Reads kind (outer ++ d.yield ++ [comma.1]) := by
  obtain ⟨rest, inner, below, top, rfl⟩ := around.pop
  obtain ⟨name, opening, before, a, rfl, rfl, hphrase, hyield⟩ := exists_done d top
  -- The call stays open, with one more complete argument.
  have frame := Frame.Reads.call name opening (before ++ [(a, comma)])
  rw [Done.phrases_append_singleton, List.reverse_append, List.reverse_singleton,
    List.singleton_append, hphrase] at frame
  have read := Reads.intro (below.push frame) .argument (by simp)
  rw [List.append_assoc rest, hyield, List.append_assoc rest]
  simpa [Done.yield_append_singleton] using read

/-- A closing parenthesis that ends a group has been read. -/
theorem reads_closing_group (d : Postfix) {start : Place}
    (around : Surrounds kind lines purpose (.group start :: frames) outer)
    (closing : Token .closing) :
    (⟨lines, purpose, frames, .done d.phrase start⟩ : Machine).Reads kind
      (outer ++ d.yield ++ [closing.1]) := by
  obtain ⟨rest, inner, below, top, rfl⟩ := around.pop
  cases top with
  | group opening =>
    have read := Reads.intro below (.done (.group opening d closing)) (by simp)
    rw [Postfix.phrase, Postfix.yield, Postfix.start] at read
    simpa using read

/-- A closing parenthesis that ends a call behind an argument has been read. -/
theorem reads_closing_call (d : Postfix) {func : Lexeme} {done : List Argument}
    {keyword : Option Lexeme}
    (around : Surrounds kind lines purpose (.call func done keyword :: frames) outer)
    (closing : Token .closing) :
    (⟨lines, purpose, frames,
      .done (.call func (argumentOf keyword d.phrase :: done).reverse) func.place⟩ :
      Machine).Reads kind (outer ++ d.yield ++ [closing.1]) := by
  obtain ⟨rest, inner, below, top, rfl⟩ := around.pop
  obtain ⟨name, opening, before, a, rfl, rfl, hphrase, hyield⟩ := exists_done d top
  -- The call becomes an expression of what was around it.
  have read := Reads.intro below
    (.done (.callWith name opening (before.before (.last a)) closing)) (by simp)
  rw [Postfix.phrase, Postfix.yield, Postfix.start, Done.phrases_before, Done.yield_before,
    Arguments.phrases, Arguments.yield, hphrase] at read
  rw [List.append_assoc rest, hyield, List.append_assoc rest, List.reverse_cons,
    List.reverse_reverse]
  simpa using read

/-- The end of a line behind an expression has been read. -/
theorem reads_newline (d : Postfix) {line : Line}
    (around : Surrounds kind lines purpose [] outer) (newline : Token .newline)
    (h : lineOf? d.phrase d.start purpose = some line) :
    (⟨line :: lines, .statement, [], .lineStart⟩ : Machine).Reads kind
      (outer ++ d.yield ++ [newline.1]) := by
  obtain ⟨program, complete, beginning, ⟨⟩⟩ | _ := around
  case expr => cases h
  -- The line that ends here is one more row of the program.
  have add (stmt : Stmt) (hline : stmt.line = line) :
      (⟨line :: lines, .statement, [], .lineStart⟩ : Machine).Reads .program
        (program.yield ++ (stmt.yield ++ [newline.1])) := by
    have extended : Surrounds .program (line :: lines) .statement []
        (Program.yield (program ++ [(some stmt, newline)]) ++ [] ++ []) := by
      refine .program _ ?_ .statement .nil
      rw [Program.lines_append, complete, List.reverse_cons, ← hline]
      rfl
    have read := Reads.intro extended .lineStart fun _ => ⟨rfl, rfl⟩
    rw [Program.yield_append, Program.yield_cons_some] at read
    simpa [Program.yield] using read
  cases beginning with
  | statement =>
    obtain rfl := Option.some.inj h
    have read := add (.bare d) rfl
    rw [Stmt.yield] at read
    simpa using read
  | assign target equals =>
    obtain rfl := Option.some.inj h
    have read := add (.assign target equals d) rfl
    rw [Stmt.yield] at read
    simpa using read
  | write target dot attr equals =>
    obtain rfl := Option.some.inj h
    have read := add (.write target dot attr equals d) rfl
    rw [Stmt.yield] at read
    simpa using read

/-- A lexeme that is taken behind an expression has been read. -/
theorem reads_readAfter (d : Postfix) (around : Surrounds kind lines purpose frames outer)
    (h : readAfter ⟨lines, purpose, frames, mode⟩ d.phrase d.start l = some m) :
    m.Reads kind (outer ++ d.yield ++ [l]) := by
  rw [readAfter] at h
  split at h
  · next dot =>
    obtain rfl := Option.some.inj h
    rw [List.append_assoc]
    exact .intro around (.dot d ⟨l, dot⟩) (by simp)
  · next func done keyword frames comma hframes =>
    obtain rfl := Option.some.inj h
    obtain rfl : _ = _ := hframes
    exact reads_comma d around ⟨l, comma⟩
  · next start frames closing hframes =>
    obtain rfl := Option.some.inj h
    obtain rfl : _ = _ := hframes
    exact reads_closing_group d around ⟨l, closing⟩
  · next func done keyword frames closing hframes =>
    obtain rfl := Option.some.inj h
    obtain rfl : _ = _ := hframes
    exact reads_closing_call d around ⟨l, closing⟩
  · next newline hframes =>
    obtain rfl : _ = _ := hframes
    obtain ⟨line, hline, rfl⟩ := Option.map_eq_some_iff.1 h
    exact reads_newline d around ⟨l, newline⟩ hline
  · cases h

/-- The end of an empty line has been read. -/
theorem reads_newline_ready (around : Surrounds kind lines .statement [] outer)
    (newline : Token .newline) :
    (ready lines).Reads kind (outer ++ [newline.1]) := by
  obtain ⟨program, complete, ⟨⟩, ⟨⟩⟩ := around
  have extended : Surrounds .program lines .statement []
      (Program.yield (program ++ [(none, newline)]) ++ [] ++ []) := by
    refine .program _ ?_ .statement .nil
    rw [Program.lines_append, complete]
    exact List.append_nil _
  have read := Reads.intro extended .lineStart fun _ => ⟨rfl, rfl⟩
  rw [Program.yield_append, Program.yield_cons_none] at read
  simpa [Program.yield] using read

/-- A closing parenthesis that ends a call where an argument may start has been read. -/
theorem reads_closing_argument {func : Lexeme} {done : List Argument}
    (around : Surrounds kind lines purpose (.call func done none :: frames) outer)
    (closing : Token .closing) :
    (⟨lines, purpose, frames, .done (.call func done.reverse) func.place⟩ : Machine).Reads kind
      (outer ++ [closing.1]) := by
  obtain ⟨rest, inner, below, top, rfl⟩ := around.pop
  cases top with
  | call name opening before =>
    obtain ⟨d, hphrase, hstart, hyield⟩ := before.exists_call name opening closing
    have read := Reads.intro below (.done d) (by simp)
    rw [hphrase, hstart, hyield] at read
    rw [List.reverse_reverse]
    simpa using read

/-- An opening parenthesis that starts a call has been read. -/
theorem reads_opening_call (around : Surrounds kind lines purpose frames outer) (name : Name)
    (opening : Token .opening) :
    (⟨lines, purpose, .call name.1 [] none :: frames, .argument⟩ : Machine).Reads kind
      (outer ++ [name.1] ++ [opening.1]) := by
  have read := Reads.intro (around.push (.call name opening [])) .argument (by simp)
  rw [List.append_nil] at read
  rw [List.append_assoc]
  exact read

/-- An equals sign behind a keyword has been read. -/
theorem reads_equals_keyword {func : Lexeme} {done : List Argument}
    (around : Surrounds kind lines purpose (.call func done none :: frames) outer) (name : Name)
    (equals : Token .equals) :
    (⟨lines, purpose, .call func done (some name.1) :: frames, .operand⟩ : Machine).Reads kind
      (outer ++ [name.1] ++ [equals.1]) := by
  obtain ⟨rest, inner, below, top, rfl⟩ := around.pop
  cases top with
  | call func opening before =>
    have read := Reads.intro (below.push (.keyword func opening before name equals)) .operand
      (by simp)
    simpa using read

/-- An equals sign behind the target of an assignment has been read. -/
theorem reads_equals_assign (around : Surrounds kind lines .statement [] outer) (name : Name)
    (equals : Token .equals) :
    (⟨lines, .assign name.1, [], .operand⟩ : Machine).Reads kind
      (outer ++ [name.1] ++ [equals.1]) := by
  obtain ⟨program, complete, ⟨⟩, ⟨⟩⟩ := around
  have read := Reads.intro (.program program complete (.assign name equals) .nil) .operand (by simp)
  simpa using read

/-- An equals sign behind the target of a write has been read. -/
theorem reads_equals_write (around : Surrounds kind lines .statement [] outer) (d : Postfix)
    (dot : Token .dot) (attr : Token .word) (equals : Token .equals) :
    (⟨lines, .write d.phrase attr.1 d.start, [], .operand⟩ : Machine).Reads kind
      (outer ++ (d.yield ++ [dot.1, attr.1]) ++ [equals.1]) := by
  obtain ⟨program, complete, ⟨⟩, ⟨⟩⟩ := around
  have read := Reads.intro (.program program complete (.write d dot attr equals) .nil) .operand
    (by simp)
  simpa using read

/-- What a machine has read, one more lexeme included. -/
theorem Reads.step {m m' : Machine} {ls : List Lexeme} {l : Lexeme} (reads : m.Reads kind ls)
    (h : m.step l = some m') : m'.Reads kind (ls ++ [l]) := by
  obtain @⟨lines, purpose, frames, mode, outer, inner, around, last, fits⟩ := reads
  -- The cases are those of the step itself: what the machine has read last decides.
  cases last with
  | lineStart =>
    obtain ⟨rfl, rfl⟩ := fits rfl
    rw [List.append_nil]
    by_cases newline : l.terminal = .newline
    · rw [Machine.step, if_pos newline] at h
      obtain rfl := Option.some.inj h
      exact reads_newline_ready around ⟨l, newline⟩
    · rw [Machine.step, if_neg newline] at h
      exact reads_readOperand around h
  | operand =>
    rw [List.append_nil]
    exact reads_readOperand around h
  | argument =>
    rw [List.append_nil]
    rw [Machine.step] at h
    dsimp only at h
    split at h
    · next closing =>
      obtain rfl := Option.some.inj h
      exact reads_closing_argument around ⟨l, closing⟩
    · exact reads_readOperand around h
  | word name =>
    rw [Machine.step] at h
    dsimp only at h
    split at h
    · next opening =>
      obtain rfl := Option.some.inj h
      exact reads_opening_call around name ⟨l, opening⟩
    · next equals =>
      obtain rfl := Option.some.inj h
      exact reads_equals_keyword around name ⟨l, equals⟩
    · next equals =>
      obtain rfl := Option.some.inj h
      exact reads_equals_assign around name ⟨l, equals⟩
    · exact reads_readAfter (.name name) around h
  | done d => exact reads_readAfter d around h
  | dot d dot =>
    rw [Machine.step] at h
    dsimp only at h
    split_ifs at h with word
    obtain rfl := Option.some.inj h
    have read := Reads.intro around (.member d dot ⟨l, word⟩) (by simp)
    simpa using read
  | member d dot attr =>
    rw [Machine.step] at h
    dsimp only at h
    split at h
    · next equals =>
      obtain rfl := Option.some.inj h
      exact reads_equals_write around d dot attr ⟨l, equals⟩
    · have read := reads_readAfter (.member d dot attr) around h
      rwa [Postfix.yield] at read

/-- **A run keeps what has been read,** and adds the lexemes of the run. -/
theorem Reads.run {m m' : Machine} {ls ls' : List Lexeme} (reads : m.Reads kind ls)
    (h : m.run ls' = .ok m') : m'.Reads kind (ls ++ ls') := by
  induction ls' generalizing m ls with
  | nil =>
    obtain rfl := Except.ok.inj h
    rwa [List.append_nil]
  | cons l ls' ih =>
    rw [Machine.run] at h
    split at h
    · next m₁ hstep =>
      have read := ih (reads.step hstep) h
      rwa [List.append_assoc, List.singleton_append] at read
    · cases h

end Machine

/-- The machine before anything has been read. -/
def Start.machine : Start → Machine
  | program => .script
  | expr => .expression

/-- At the start nothing has been read. -/
theorem Start.reads_machine (start : Start) : start.machine.Reads start [] := by
  cases start with
  | program => exact .intro (.program [] rfl .statement .nil) .lineStart fun _ => ⟨rfl, rfl⟩
  | expr => exact .intro (.expr .nil) .operand (by simp)

/-- What a machine gets through from the start is what it has read. -/
theorem Start.reads_of_run (start : Start) {m : Machine} {ls : List Lexeme}
    (h : start.machine.run ls = .ok m) : m.Reads start ls :=
  start.reads_machine.run h

/-! ## Accepted lexemes are those of derivations -/

/-- A script is read as the lines of its derivation. -/
theorem script_run_iff {ls : List Lexeme} {lines : List Line} :
    (∃ m, Machine.script.run ls = .ok m ∧ m.lines? = some lines) ↔
      ∃ program : Program, program.yield = ls ∧ program.lines = lines := by
  constructor
  · rintro ⟨m, hrun, hlines⟩
    obtain ⟨around, last, fits⟩ := Start.program.reads_of_run hrun
    -- Only between two lines are there lines to be had.
    cases last with
    | lineStart =>
      obtain ⟨rfl, rfl⟩ := fits rfl
      obtain ⟨program, complete, ⟨⟩, ⟨⟩⟩ := around
      refine ⟨program, by simp, ?_⟩
      rw [complete]
      exact Option.some.inj hlines
    | _ => cases hlines
  · rintro ⟨program, rfl, rfl⟩
    have hrun := run_program program [] []
    rw [List.append_nil, List.append_nil] at hrun
    exact ⟨_, hrun, by rw [lines?, List.reverse_reverse]⟩

/-- An expression is read as the phrase of its derivation. -/
theorem expression_run_iff {ls : List Lexeme} {phrase : Phrase} :
    (∃ m, Machine.expression.run ls = .ok m ∧ m.phrase? = some phrase) ↔
      ∃ d : Postfix, d.yield = ls ∧ d.phrase = phrase := by
  constructor
  · rintro ⟨m, hrun, hphrase⟩
    obtain ⟨around, last, fits⟩ := Start.expr.reads_of_run hrun
    obtain _ | ⟨opened⟩ := around
    -- Nothing is to be had while a bracket is open.
    obtain _ | _ := opened
    · cases last with
      | word name => exact ⟨.name name, rfl, Option.some.inj hphrase⟩
      | done d => exact ⟨d, rfl, Option.some.inj hphrase⟩
      | member d dot attr =>
        refine ⟨.member d dot attr, ?_, Option.some.inj hphrase⟩
        rw [Postfix.yield]
        rfl
      | _ => cases hphrase
    · cases hphrase
  · rintro ⟨d, rfl, rfl⟩
    have hrun := run_postfix d Machine.expression (Or.inr (Or.inl rfl)) []
    rw [List.append_nil] at hrun
    exact ⟨_, hrun, by cases d <;> rfl⟩

end Packaging.Script
