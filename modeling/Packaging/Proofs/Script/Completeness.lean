import Packaging.Proofs.Script.Derivation

/-! # Derivations are read
The machine reads the lexemes of every derivation to their end, and what it makes of them is what
the derivation says. -/

namespace Packaging.Script

open Script.Derivation

namespace Derivation

/-- What the machine has just read after an expression. -/
def Postfix.mode : Postfix → Mode
  | .name l => .word l.1
  | .member base _ attr => .member base.phrase attr.1 base.start
  | d => .done d.phrase d.start

/-- The name of an argument, if it has one. -/
def Arg.keyword? : Arg → Option Lexeme
  | .positional _ => none
  | .keyword name _ _ => some name.1

/-- The value of an argument. -/
def Arg.value : Arg → Postfix
  | .positional value => value
  | .keyword _ _ value => value

/-- An argument is what its value says under its keyword, if it has one. -/
theorem Arg.argumentOf_value (a : Arg) :
    Machine.argumentOf a.keyword? a.value.phrase = a.phrase := by
  cases a with
  | positional value => rw [Arg.phrase]; rfl
  | keyword name equals value => rw [Arg.phrase]; rfl

end Derivation

/-! ## Single steps -/

namespace Machine

/-- Whether an expression may start here. -/
def Awaits (m : Machine) : Prop := m.mode = .lineStart ∨ m.mode = .operand ∨ m.mode = .argument

/-- Where an operand is awaited, neither a line nor a call can end: the lexeme is the operand's. -/
theorem step_of_awaits {m : Machine} {l : Lexeme} (h : m.Awaits) (newline : l.terminal ≠ .newline)
    (closing : l.terminal ≠ .closing) : m.step l = m.readOperand l := by
  -- At the start of a line the end of a line is read otherwise, among arguments the closing is.
  rcases h with h | h | h
  · rw [step, h]
    exact if_neg newline
  · rw [step, h]
  · rw [step, h]
    dsimp only
    split
    · contradiction
    · rfl

/-- Behind an expression every lexeme but an opening parenthesis and an equals sign is taken in one
way. -/
theorem step_mode (d : Postfix) (m : Machine) {l : Lexeme} (opening : l.terminal ≠ .opening)
    (equals : l.terminal ≠ .equals) :
    ({ m with mode := d.mode } : Machine).step l =
      ({ m with mode := d.mode } : Machine).readAfter d.phrase d.start l := by
  -- A name may still become a call or a target, an attribute a target; nothing else is undecided.
  cases d with
  | name w =>
    simp only [step, Postfix.mode]
    split
    · contradiction
    · contradiction
    · contradiction
    · rfl
  | member base dot attr =>
    simp only [step, Postfix.mode]
    split
    · contradiction
    · rfl
  | _ => rfl

/-- A step that is taken leads to the run of the other lexemes. -/
theorem run_cons_of_step {m m' : Machine} {l : Lexeme} (h : m.step l = some m')
    (ls : List Lexeme) : m.run (l :: ls) = m'.run ls := by
  rw [run, h]

/-- A run stops at a lexeme that the machine cannot take. -/
theorem run_cons_of_none {m : Machine} {l : Lexeme} (h : m.step l = none) (ls : List Lexeme) :
    m.run (l :: ls) = .error (l :: ls) := by
  rw [run, h]

/-- Who reads some lexemes and then others reads the first of them. -/
theorem exists_run_of_append {m m' : Machine} {s t : List Lexeme}
    (h : m.run (s ++ t) = .ok m') : ∃ n, m.run s = .ok n ∧ n.run t = .ok m' := by
  rw [run_append] at h
  cases first : m.run s with
  | ok n =>
    rw [first] at h
    exact ⟨n, rfl, h⟩
  | error rest =>
    rw [first] at h
    cases h

/-- A lexeme is read after others exactly if these are read and then it is. -/
theorem run_concat_iff {m m' : Machine} {ls : List Lexeme} {l : Lexeme} :
    m.run (ls ++ [l]) = .ok m' ↔ ∃ n, m.run ls = .ok n ∧ n.step l = some m' := by
  constructor
  · intro h
    obtain ⟨n, before, last⟩ := exists_run_of_append h
    cases hstep : n.step l with
    | none =>
      rw [run_cons_of_none hstep] at last
      cases last
    | some k =>
      rw [run_cons_of_step hstep] at last
      obtain rfl := Except.ok.inj last
      exact ⟨n, before, hstep⟩
  · rintro ⟨n, before, hstep⟩
    rw [run_append, before]
    exact run_cons_of_step hstep []

/-- If some lexeme is refused, those before it have been read, and the machine has no step for
it. -/
theorem exists_refused_of_run {m : Machine} {ls rest : List Lexeme} (h : m.run ls = .error rest) :
    ∃ before l after n, ls = before ++ l :: after ∧ rest = l :: after ∧
      m.run before = .ok n ∧ n.step l = none := by
  induction ls generalizing m with
  | nil => cases h
  | cons l ls ih =>
    cases hstep : m.step l with
    | none =>
      rw [run_cons_of_none hstep] at h
      exact ⟨[], l, ls, m, rfl, (Except.error.inj h).symm, rfl, hstep⟩
    | some next =>
      rw [run_cons_of_step hstep] at h
      obtain ⟨before, l', after, n, rfl, rfl, hrun, refused⟩ := ih h
      exact ⟨l :: before, l', after, n, rfl, rfl, (run_cons_of_step hstep before).trans hrun,
        refused⟩

/-- A dot behind an expression asks for an attribute of it. -/
theorem step_dot (d : Postfix) (m : Machine) (dot : Token .dot) :
    ({ m with mode := d.mode } : Machine).step dot.1 =
      some { m with mode := .dot d.phrase d.start } := by
  rw [step_mode d m (by rw [dot.2]; decide) (by rw [dot.2]; decide), readAfter, dot.2]

/-- The word behind a dot is the attribute. -/
theorem step_attribute (m : Machine) (base : Phrase) (start : Place) (attr : Token .word) :
    ({ m with mode := .dot base start } : Machine).step attr.1 =
      some { m with mode := .member base attr.1 start } :=
  if_pos attr.2

/-- An equals sign behind a word in a call makes the word a keyword. -/
theorem step_equals_keyword (m : Machine) (func name : Lexeme) (done : List Argument)
    (frames : List Frame) (equals : Token .equals) :
    ({ m with frames := .call func done none :: frames, mode := .word name } : Machine).step
        equals.1 =
      some { m with frames := .call func done (some name) :: frames, mode := .operand } := by
  rw [step, equals.2]

/-- A comma in a call ends an argument. -/
theorem step_comma (d : Postfix) (m : Machine) (comma : Token .comma) (func : Lexeme)
    (done : List Argument) (keyword : Option Lexeme) (frames : List Frame) :
    ({ m with frames := .call func done keyword :: frames, mode := d.mode } : Machine).step
        comma.1 =
      some { m with
        frames := .call func (argumentOf keyword d.phrase :: done) none :: frames
        mode := .argument } := by
  rw [step_mode d { m with frames := .call func done keyword :: frames }
    (by rw [comma.2]; decide) (by rw [comma.2]; decide), readAfter, comma.2]

/-- A closing parenthesis ends a group, which starts where the opening one stands. -/
theorem step_closing_group (d : Postfix) (m : Machine) (closing : Token .closing) (start : Place)
    (frames : List Frame) :
    ({ m with frames := .group start :: frames, mode := d.mode } : Machine).step closing.1 =
      some { m with frames := frames, mode := .done d.phrase start } := by
  rw [step_mode d { m with frames := .group start :: frames }
    (by rw [closing.2]; decide) (by rw [closing.2]; decide), readAfter, closing.2]

/-- A closing parenthesis ends the last argument of a call, and the call. -/
theorem step_closing_call (d : Postfix) (m : Machine) (closing : Token .closing) (func : Lexeme)
    (done : List Argument) (keyword : Option Lexeme) (frames : List Frame) :
    ({ m with frames := .call func done keyword :: frames, mode := d.mode } : Machine).step
        closing.1 =
      some { m with
        frames := frames
        mode := .done (.call func (argumentOf keyword d.phrase :: done).reverse) func.place } := by
  rw [step_mode d { m with frames := .call func done keyword :: frames }
    (by rw [closing.2]; decide) (by rw [closing.2]; decide), readAfter, closing.2]

/-- The end of a line ends a statement, if the expression may stand in it. -/
theorem step_newline (d : Postfix) (m : Machine) (newline : Token .newline)
    (frames : m.frames = []) :
    ({ m with mode := d.mode } : Machine).step newline.1 =
      (lineOf? d.phrase d.start m.purpose).map fun line =>
        ⟨line :: m.lines, .statement, [], .lineStart⟩ := by
  rw [step_mode d m (by rw [newline.2]; decide) (by rw [newline.2]; decide), readAfter, newline.2,
    frames]

/-- An opening parenthesis behind a word starts a call. -/
theorem step_opening_call (m : Machine) (func : Name) (opening : Token .opening) :
    ({ m with mode := .word func.1 } : Machine).step opening.1 =
      some { m with frames := .call func.1 [] none :: m.frames, mode := .argument } := by
  rw [step, opening.2]

/-- A closing parenthesis ends a call where an argument may start. -/
theorem step_closing_argument (m : Machine) (closing : Token .closing) (func : Lexeme)
    (done : List Argument) (frames : List Frame) :
    ({ m with frames := .call func done none :: frames, mode := .argument } : Machine).step
        closing.1 =
      some { m with frames := frames, mode := .done (.call func done.reverse) func.place } := by
  rw [step, closing.2]

/-- A name is read where an expression may start. -/
theorem step_name {m : Machine} (h : m.Awaits) (name : Name) :
    m.step name.1 = some { m with mode := .word name.1 } := by
  rw [step_of_awaits h (by rw [name.2.1]; decide) (by rw [name.2.1]; decide), readOperand,
    name.2.1]
  exact if_neg (by rw [name.2.2]; decide)

/-- An opening parenthesis where an operand is awaited starts a group. -/
theorem step_opening_group {m : Machine} (h : m.Awaits) (opening : Token .opening) :
    m.step opening.1 =
      some { m with frames := .group opening.1.place :: m.frames, mode := .operand } := by
  rw [step_of_awaits h (by rw [opening.2]; decide) (by rw [opening.2]; decide), readOperand,
    opening.2]

/-- An equals sign behind the first word of a line makes an assignment of the line. -/
theorem step_equals_assign (lines : List Line) (target : Lexeme) (equals : Token .equals) :
    (⟨lines, .statement, [], .word target⟩ : Machine).step equals.1 =
      some ⟨lines, .assign target, [], .operand⟩ := by
  rw [step, equals.2]

/-- An equals sign behind an attribute makes a write of the line. -/
theorem step_equals_write (lines : List Line) (base : Phrase) (attr : Lexeme) (start : Place)
    (equals : Token .equals) :
    (⟨lines, .statement, [], .member base attr start⟩ : Machine).step equals.1 =
      some ⟨lines, .write base attr start, [], .operand⟩ := by
  rw [step, equals.2]

/-- An empty line changes nothing. -/
theorem step_newline_ready (lines : List Line) (newline : Token .newline) :
    (⟨lines, .statement, [], .lineStart⟩ : Machine).step newline.1 =
      some ⟨lines, .statement, [], .lineStart⟩ :=
  if_pos newline.2

end Machine

open Machine

/-! ## Runs over derivations -/

mutual

/-- An expression is read wherever one may start. The bracket that opens inside it is closed inside
it, so what is open around it is the same before and after. -/
theorem run_postfix (d : Postfix) (m : Machine) (h : m.Awaits) (ls : List Lexeme) :
    m.run (d.yield ++ ls) = ({ m with mode := d.mode } : Machine).run ls := by
  -- The machine stays general, for the parts of an expression are read inside more brackets.
  cases d with
  | string l =>
    apply run_cons_of_step
    rw [step_of_awaits h (by rw [l.2]; decide) (by rw [l.2]; decide), readOperand, l.2]
    rfl
  | integer l =>
    apply run_cons_of_step
    rw [step_of_awaits h (by rw [l.2]; decide) (by rw [l.2]; decide), readOperand, l.2]
    rfl
  | keyword l =>
    apply run_cons_of_step
    rw [step_of_awaits h (by rw [l.2.1]; decide) (by rw [l.2.1]; decide), readOperand, l.2.1]
    exact if_pos l.2.2
  | name l => exact run_cons_of_step (step_name h l) ls
  | group opening inner closing =>
    rw [Postfix.yield, List.cons_append, run_cons_of_step (step_opening_group h opening),
      List.append_assoc, run_postfix inner _ (Or.inr (Or.inl rfl)), List.singleton_append,
      run_cons_of_step (step_closing_group inner m closing opening.1.place m.frames)]
    rfl
  | member base dot attr =>
    rw [Postfix.yield, List.append_assoc, run_postfix base m h, List.cons_append,
      run_cons_of_step (step_dot base m dot)]
    exact run_cons_of_step (step_attribute m base.phrase base.start attr) ls
  | call func opening closing =>
    rw [Postfix.yield, List.cons_append, run_cons_of_step (step_name h func), List.cons_append,
      run_cons_of_step (step_opening_call m func opening), List.cons_append,
      run_cons_of_step (step_closing_argument m closing func.1 [] m.frames)]
    rfl
  | callWith func opening arguments closing =>
    rw [Postfix.yield, List.cons_append, run_cons_of_step (step_name h func), List.cons_append,
      run_cons_of_step (step_opening_call m func opening), List.append_assoc,
      List.singleton_append, run_arguments arguments m func.1 [] m.frames closing]
    rfl
termination_by structural d

/-- The arguments of a call are read up to the closing of the call. -/
theorem run_arguments (a : Arguments) (m : Machine) (func : Lexeme) (done : List Argument)
    (frames : List Frame) (closing : Token .closing) (ls : List Lexeme) :
    ({ m with frames := .call func done none :: frames, mode := .argument } : Machine).run
        (a.yield ++ closing.1 :: ls) =
      ({ m with
        frames := frames
        mode := .done (.call func (done.reverse ++ a.phrases)) func.place } : Machine).run ls := by
  -- The machine keeps the arguments it has read in reverse.
  cases a with
  | last argument =>
    rw [Arguments.yield, run_arg argument m func done frames,
      run_cons_of_step (step_closing_call argument.value m closing func done _ frames),
      argument.argumentOf_value, Arguments.phrases, List.reverse_cons]
  | lastWithComma argument comma =>
    rw [Arguments.yield, List.append_assoc, run_arg argument m func done frames,
      List.singleton_append,
      run_cons_of_step (step_comma argument.value m comma func done _ frames),
      argument.argumentOf_value,
      run_cons_of_step (step_closing_argument m closing func _ frames), Arguments.phrases,
      List.reverse_cons]
  | more argument comma rest =>
    rw [Arguments.yield, List.append_assoc, run_arg argument m func done frames,
      List.cons_append, run_cons_of_step (step_comma argument.value m comma func done _ frames),
      argument.argumentOf_value, run_arguments rest m func _ frames closing, Arguments.phrases,
      List.reverse_cons, List.append_assoc, List.singleton_append]
termination_by structural a

/-- An argument is read up to the comma or the closing after it. -/
theorem run_arg (a : Arg) (m : Machine) (func : Lexeme) (done : List Argument)
    (frames : List Frame) (ls : List Lexeme) :
    ({ m with frames := .call func done none :: frames, mode := .argument } : Machine).run
        (a.yield ++ ls) =
      ({ m with
        frames := .call func done a.keyword? :: frames
        mode := a.value.mode } : Machine).run ls := by
  cases a with
  | positional value => exact run_postfix value _ (Or.inr (Or.inr rfl)) ls
  | keyword name equals value =>
    rw [Arg.yield, List.cons_append, run_cons_of_step (step_name (Or.inr (Or.inr rfl)) name),
      List.cons_append,
      run_cons_of_step (step_equals_keyword m func name.1 done frames equals)]
    exact run_postfix value _ (Or.inr (Or.inl rfl)) ls
termination_by structural a

end

/-- A machine between two lines. -/
abbrev Machine.ready (lines : List Line) : Machine := ⟨lines, .statement, [], .lineStart⟩

/-- A line is read as what it says. -/
theorem run_stmt (stmt : Stmt) (lines : List Line) (newline : Token .newline)
    (ls : List Lexeme) :
    (ready lines).run (stmt.yield ++ newline.1 :: ls) = (ready (stmt.line :: lines)).run ls := by
  cases stmt with
  | assign target equals value =>
    rw [Stmt.yield, List.cons_append, run_cons_of_step (step_name (Or.inl rfl) target),
      List.cons_append,
      run_cons_of_step (step_equals_assign lines target.1 equals),
      run_postfix value _ (Or.inr (Or.inl rfl))]
    exact run_cons_of_step (step_newline value _ newline rfl) ls
  | write target dot attr equals value =>
    rw [Stmt.yield, List.append_assoc, run_postfix target _ (Or.inl rfl), List.cons_append,
      run_cons_of_step (step_dot target (ready lines) dot), List.cons_append,
      run_cons_of_step (step_attribute (ready lines) target.phrase target.start attr),
      List.cons_append,
      run_cons_of_step (step_equals_write lines target.phrase attr.1 target.start equals),
      run_postfix value _ (Or.inr (Or.inl rfl))]
    exact run_cons_of_step (step_newline value _ newline rfl) ls
  | bare value =>
    rw [Stmt.yield, run_postfix value _ (Or.inl rfl)]
    exact run_cons_of_step (step_newline value (ready lines) newline rfl) ls

/-- Lines are read one after the other. -/
theorem run_program (program : Program) (lines : List Line) (ls : List Lexeme) :
    (ready lines).run (program.yield ++ ls) =
      (ready (program.lines.reverse ++ lines)).run ls := by
  induction program generalizing lines with
  | nil => rfl
  | cons row program ih =>
    obtain ⟨stmt, newline⟩ := row
    cases stmt with
    | none =>
      rw [Program.yield_cons_none, List.cons_append,
        run_cons_of_step (step_newline_ready lines newline), ih, Program.lines_cons_none]
    | some stmt =>
      rw [Program.yield_cons_some, List.append_assoc, List.cons_append, run_stmt, ih,
        Program.lines_cons_some, List.reverse_cons, List.append_assoc, List.singleton_append]

end Packaging.Script
