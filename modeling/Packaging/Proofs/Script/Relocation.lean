import Packaging.Proofs.Outcomes
import Packaging.Script.Machine
import Packaging.Script.Tree

/-! # Scripts at other places
Places are carried along and never looked at. So lexemes that come to stand elsewhere are read as
the same phrases, and phrases that come to stand elsewhere are turned into the same trees, or
refused for the same violation; all that changes are the places and spots that these tell. -/

namespace Packaging.Script

/-! ## Phrases -/

/-- A lexeme at another place. -/
def Lexeme.relocate (f : Place → Place) (l : Lexeme) : Lexeme := { l with place := f l.place }

/-- A lexeme elsewhere has the same terminal. -/
@[simp] theorem Lexeme.terminal_relocate (f : Place → Place) (l : Lexeme) :
    (l.relocate f).terminal = l.terminal := rfl

/-- A lexeme elsewhere has the same text. -/
@[simp] theorem Lexeme.text_relocate (f : Place → Place) (l : Lexeme) :
    (l.relocate f).text = l.text := rfl

mutual

/-- A phrase at other places. -/
def Phrase.relocate (f : Place → Place) : Phrase → Phrase
  | .literal l => .literal (l.relocate f)
  | .name l => .name (l.relocate f)
  | .member base attr start => .member (base.relocate f) (attr.relocate f) (f start)
  | .call func arguments => .call (func.relocate f) (Argument.relocateAll f arguments)

/-- Arguments at other places. -/
def Argument.relocateAll (f : Place → Place) : List Argument → List Argument
  | [] => []
  | .positional value :: rest => .positional (value.relocate f) :: Argument.relocateAll f rest
  | .keyword name value :: rest =>
    .keyword (name.relocate f) (value.relocate f) :: Argument.relocateAll f rest

end

/-- An argument at other places. -/
def Argument.relocate (f : Place → Place) : Argument → Argument
  | .positional value => .positional (value.relocate f)
  | .keyword name value => .keyword (name.relocate f) (value.relocate f)

/-- Arguments are moved one by one. -/
theorem Argument.relocateAll_eq_map (f : Place → Place) (arguments : List Argument) :
    Argument.relocateAll f arguments = arguments.map (Argument.relocate f) := by
  induction arguments with
  | nil => rw [Argument.relocateAll, List.map_nil]
  | cons argument rest ih =>
    cases argument with
    | positional value => rw [Argument.relocateAll, ih]; rfl
    | keyword name value => rw [Argument.relocateAll, ih]; rfl

/-- A statement at other places. -/
def Line.relocate (f : Place → Place) : Line → Line
  | .assign target value => .assign (target.relocate f) (value.relocate f)
  | .write target attr value start =>
    .write (target.relocate f) (attr.relocate f) (value.relocate f) (f start)
  | .bare value start => .bare (value.relocate f) (f start)

/-! ## Reading -/

/-- An open bracket at another place. -/
def Frame.relocate (f : Place → Place) : Frame → Frame
  | .group start => .group (f start)
  | .call func done keyword =>
    .call (func.relocate f) (done.map (Argument.relocate f)) (keyword.map (Lexeme.relocate f))

/-- What the outermost expression is for, at other places. -/
def Purpose.relocate (f : Place → Place) : Purpose → Purpose
  | .statement => .statement
  | .assign target => .assign (target.relocate f)
  | .write target attr start => .write (target.relocate f) (attr.relocate f) (f start)
  | .whole => .whole

/-- What has just been read, at other places. -/
def Mode.relocate (f : Place → Place) : Mode → Mode
  | .lineStart => .lineStart
  | .operand => .operand
  | .argument => .argument
  | .word l => .word (l.relocate f)
  | .done value start => .done (value.relocate f) (f start)
  | .dot base start => .dot (base.relocate f) (f start)
  | .member base attr start => .member (base.relocate f) (attr.relocate f) (f start)

namespace Machine

/-- A machine that has read the same at other places, and before all of it some lines, which are
given in reverse order. -/
def relocate (f : Place → Place) (before : List Line) (m : Machine) : Machine where
  lines := m.lines.map (Line.relocate f) ++ before
  purpose := m.purpose.relocate f
  frames := m.frames.map (Frame.relocate f)
  mode := m.mode.relocate f

variable (f : Place → Place) (before : List Line)

/-- An argument elsewhere is made of its keyword and its value elsewhere. -/
theorem argumentOf_relocate (keyword : Option Lexeme) (value : Phrase) :
    argumentOf (keyword.map (Lexeme.relocate f)) (value.relocate f) =
      (argumentOf keyword value).relocate f := by
  cases keyword with
  | none => rfl
  | some name => rfl

/-- A line elsewhere is made of its phrase elsewhere. -/
theorem lineOf?_relocate (value : Phrase) (start : Place) (purpose : Purpose) :
    lineOf? (value.relocate f) (f start) (purpose.relocate f) =
      (lineOf? value start purpose).map (Line.relocate f) := by
  cases purpose with
  | _ => rfl

/-- A call elsewhere is made of its function and its arguments elsewhere. -/
theorem relocate_call (func : Lexeme) (done : List Argument) :
    Phrase.relocate f (.call func done.reverse) =
      .call (func.relocate f) (done.map (Argument.relocate f)).reverse := by
  rw [Phrase.relocate, Argument.relocateAll_eq_map, List.map_reverse]

/-- An operand elsewhere is taken by the machine elsewhere. -/
theorem readOperand_relocate (m : Machine) (l : Lexeme) :
    (m.relocate f before).readOperand (l.relocate f) =
      (m.readOperand l).map (relocate f before) := by
  rw [readOperand, readOperand, Lexeme.terminal_relocate]
  cases l.terminal with
  | word =>
    dsimp only
    rw [Lexeme.text_relocate]
    by_cases keyword : isKeyword l.text = true
    · rw [if_pos keyword, if_pos keyword]
      simp [relocate, Mode.relocate, Phrase.relocate, Lexeme.relocate]
    · rw [if_neg keyword, if_neg keyword]
      rfl
  | string => simp [relocate, Mode.relocate, Phrase.relocate, Lexeme.relocate]
  | integer => simp [relocate, Mode.relocate, Phrase.relocate, Lexeme.relocate]
  | opening => rfl
  | _ => rfl

/-- A lexeme elsewhere behind an expression is taken by the machine elsewhere. -/
theorem readAfter_relocate (m : Machine) (value : Phrase) (start : Place) (l : Lexeme) :
    (m.relocate f before).readAfter (value.relocate f) (f start) (l.relocate f) =
      (m.readAfter value start l).map (relocate f before) := by
  obtain ⟨lines, purpose, frames, mode⟩ := m
  rw [readAfter, readAfter, Lexeme.terminal_relocate]
  -- What happens depends on the lexeme and on the innermost bracket.
  cases l.terminal with
  | dot => rfl
  | comma =>
    cases frames with
    | nil => rfl
    | cons frame frames =>
      cases frame with
      | group start => rfl
      | call func done keyword =>
        simp [relocate, Frame.relocate, Mode.relocate, argumentOf_relocate]
  | closing =>
    cases frames with
    | nil => rfl
    | cons frame frames =>
      cases frame with
      | group start => rfl
      | call func done keyword =>
        simp only [relocate, List.map_cons, Frame.relocate, Option.map_some, Mode.relocate,
          relocate_call, argumentOf_relocate]
        rfl
  | newline =>
    cases frames with
    | nil =>
      simp only [relocate, List.map_nil, lineOf?_relocate]
      cases lineOf? value start purpose with
      | none => rfl
      | some line => rfl
    | cons frame frames => rfl
  | _ => rfl

/-- A word that is neither called nor assigned to nor the name of an argument is an expression. -/
theorem step_word_relocate (lines : List Line) (purpose : Purpose) (frames : List Frame)
    (w l : Lexeme) :
    (relocate f before ⟨lines, purpose, frames, .word w⟩).step (l.relocate f) =
      (step ⟨lines, purpose, frames, .word w⟩ l).map (relocate f before) := by
  have after := readAfter_relocate f before ⟨lines, purpose, frames, .word w⟩ (.name w) w.place l
  obtain ⟨terminal, text, place⟩ := l
  cases terminal with
  | opening => rfl
  | equals =>
    cases frames with
    | nil =>
      cases purpose with
      | _ => rfl
    | cons frame frames =>
      cases frame with
      | group start => rfl
      | call func done keyword =>
        cases keyword with
        | none => rfl
        | some name => rfl
  | _ => exact after

/-- An attribute that is not assigned to is read. -/
theorem step_member_relocate (lines : List Line) (purpose : Purpose) (frames : List Frame)
    (base : Phrase) (attr : Lexeme) (start : Place) (l : Lexeme) :
    (relocate f before ⟨lines, purpose, frames, .member base attr start⟩).step (l.relocate f) =
      (step ⟨lines, purpose, frames, .member base attr start⟩ l).map (relocate f before) := by
  have after := readAfter_relocate f before ⟨lines, purpose, frames, .member base attr start⟩
    (.member base attr start) start l
  rw [Phrase.relocate] at after
  obtain ⟨terminal, text, place⟩ := l
  cases terminal with
  | equals =>
    cases frames with
    | nil =>
      cases purpose with
      | _ => rfl
    | cons frame frames => rfl
  | _ => exact after

/-- Among arguments, the end of the call ends it, and everything else starts an argument. -/
theorem step_argument_relocate (lines : List Line) (purpose : Purpose) (frames : List Frame)
    (l : Lexeme) :
    (relocate f before ⟨lines, purpose, frames, .argument⟩).step (l.relocate f) =
      (step ⟨lines, purpose, frames, .argument⟩ l).map (relocate f before) := by
  have operand := readOperand_relocate f before ⟨lines, purpose, frames, .argument⟩ l
  obtain ⟨terminal, text, place⟩ := l
  cases terminal with
  | closing =>
    cases frames with
    | nil => rfl
    | cons frame frames =>
      cases frame with
      | group start => rfl
      | call func done keyword =>
        cases keyword with
        | none =>
          have call := relocate_call f func done
          simp only [step, relocate, Mode.relocate, List.map_cons, Frame.relocate, Option.map_none,
            Option.map_some, call]
          rfl
        | some name => rfl
  | _ => exact operand

/-- **Places do not matter to a step.** What a machine makes of a lexeme at another place is what it
makes of it, at other places. -/
theorem step_relocate (m : Machine) (l : Lexeme) :
    (m.relocate f before).step (l.relocate f) = (m.step l).map (relocate f before) := by
  obtain ⟨lines, purpose, frames, mode⟩ := m
  cases mode with
  | lineStart =>
    -- Relocation leaves the terminals alone, so both machines take the same branch.
    by_cases newline : l.terminal = .newline
    · have moved : (l.relocate f).terminal = .newline := newline
      have here : step ⟨lines, purpose, frames, .lineStart⟩ l =
          some ⟨lines, purpose, frames, .lineStart⟩ := if_pos newline
      rw [here]
      exact if_pos moved
    · have moved : ¬ (l.relocate f).terminal = .newline := newline
      have here : step ⟨lines, purpose, frames, .lineStart⟩ l =
          readOperand ⟨lines, purpose, frames, .lineStart⟩ l := if_neg newline
      rw [here, ← readOperand_relocate]
      exact if_neg moved
  | operand => exact readOperand_relocate f before _ l
  | argument => exact step_argument_relocate f before lines purpose frames l
  | word w => exact step_word_relocate f before lines purpose frames w l
  | done value start => exact readAfter_relocate f before _ value start l
  | dot base start =>
    by_cases word : l.terminal = .word
    · have moved : (l.relocate f).terminal = .word := word
      have here : step ⟨lines, purpose, frames, .dot base start⟩ l =
          some ⟨lines, purpose, frames, .member base l start⟩ := if_pos word
      rw [here]
      exact if_pos moved
    · have moved : ¬ (l.relocate f).terminal = .word := word
      have here : step ⟨lines, purpose, frames, .dot base start⟩ l = none := if_neg word
      rw [here]
      exact if_neg moved
  | member base attr start =>
    exact step_member_relocate f before lines purpose frames base attr start l

/-- **Places do not matter to a run.** A machine gets equally far with the same lexemes at other
places. -/
theorem run_relocate (m : Machine) (ls : List Lexeme) :
    (m.relocate f before).run (ls.map (Lexeme.relocate f)) =
      ((m.run ls).map (relocate f before)).mapError (List.map (Lexeme.relocate f)) := by
  induction ls generalizing m with
  | nil => rfl
  | cons l ls ih =>
    rw [List.map_cons, run, run, step_relocate]
    cases m.step l with
    | none => rfl
    | some next => exact ih next

/-- A machine elsewhere has the lines before it, and its own elsewhere. -/
theorem lines?_relocate (m : Machine) :
    (m.relocate f before).lines? =
      (m.lines?).map fun lines => before.reverse ++ lines.map (Line.relocate f) := by
  obtain ⟨lines, purpose, frames, mode⟩ := m
  cases mode with
  | lineStart => simp [lines?, relocate, Mode.relocate]
  | _ => rfl

/-- A machine elsewhere has its phrase elsewhere. -/
theorem phrase?_relocate (m : Machine) :
    (m.relocate f before).phrase? = (m.phrase?).map (Phrase.relocate f) := by
  obtain ⟨lines, purpose, frames, mode⟩ := m
  cases frames with
  | nil =>
    cases mode with
    | _ => rfl
  | cons frame frames => rfl

end Machine

/-! ## Trees -/

mutual

/-- An expression at other spots. -/
def Expr.relocate (g : Spot → Spot) : Expr → Expr
  | .literal value spot => .literal value (g spot)
  | .name ident spot => .name ident (g spot)
  | .member base attr spot => .member (base.relocate g) attr (g spot)
  | .call func args keywords spot =>
    .call func (Expr.relocateAll g args) (Expr.relocateNamed g keywords) (g spot)

/-- Expressions at other spots. -/
def Expr.relocateAll (g : Spot → Spot) : List Expr → List Expr
  | [] => []
  | e :: es => e.relocate g :: Expr.relocateAll g es

/-- Named expressions at other spots. -/
def Expr.relocateNamed (g : Spot → Spot) : List (Text × Expr) → List (Text × Expr)
  | [] => []
  | (key, e) :: es => (key, e.relocate g) :: Expr.relocateNamed g es

end

/-- A statement at other spots. -/
def Statement.relocate (g : Spot → Spot) : Statement → Statement
  | .assign target value spot => .assign target (value.relocate g) (g spot)
  | .write target attr value spot => .write (target.relocate g) attr (value.relocate g) (g spot)
  | .bare value spot => .bare (value.relocate g) (g spot)

/-- A violation at another spot. -/
def Violation.relocate (g : Spot → Spot) : Violation → Violation
  | .badString raw fault spot => .badString raw fault (g spot)
  | .tooLong fault => .tooLong fault
  | .duplicateKeyword name func spot => .duplicateKeyword name func (g spot)
  | .positionalAfterKeyword func spot => .positionalAfterKeyword func (g spot)

/-- Expressions are moved one by one. -/
theorem Expr.relocateAll_eq_map (g : Spot → Spot) (es : List Expr) :
    Expr.relocateAll g es = es.map (Expr.relocate g) := by
  induction es with
  | nil => rw [Expr.relocateAll, List.map_nil]
  | cons e es ih => rw [Expr.relocateAll, ih, List.map_cons]

/-- Named expressions are moved one by one, their names kept. -/
theorem Expr.relocateNamed_eq_map (g : Spot → Spot) (es : List (Text × Expr)) :
    Expr.relocateNamed g es = es.map fun (key, e) => (key, e.relocate g) := by
  induction es with
  | nil => rw [Expr.relocateNamed, List.map_nil]
  | cons e es ih =>
    obtain ⟨key, e⟩ := e
    rw [Expr.relocateNamed, ih, List.map_cons]

mutual

/-- An expression that is moved twice is moved by both moves. -/
theorem Expr.relocate_relocate (g h : Spot → Spot) (e : Expr) :
    (e.relocate g).relocate h = e.relocate (h ∘ g) := by
  cases e with
  | literal value spot => rfl
  | name ident spot => rfl
  | member base attr spot =>
    rw [Expr.relocate, Expr.relocate, Expr.relocate, Expr.relocate_relocate g h base]
    rfl
  | call func args keywords spot =>
    rw [Expr.relocate, Expr.relocate, Expr.relocate, Expr.relocateAll_relocateAll g h args,
      Expr.relocateNamed_relocateNamed g h keywords]
    rfl
termination_by structural e

/-- To move expressions twice is to move them at once. -/
theorem Expr.relocateAll_relocateAll (g h : Spot → Spot) (es : List Expr) :
    Expr.relocateAll h (Expr.relocateAll g es) = Expr.relocateAll (h ∘ g) es := by
  cases es with
  | nil => rfl
  | cons e es =>
    rw [Expr.relocateAll, Expr.relocateAll, Expr.relocateAll, Expr.relocate_relocate g h e,
      Expr.relocateAll_relocateAll g h es]
termination_by structural es

/-- To move named expressions twice is to move them at once. -/
theorem Expr.relocateNamed_relocateNamed (g h : Spot → Spot) (es : List (Text × Expr)) :
    Expr.relocateNamed h (Expr.relocateNamed g es) = Expr.relocateNamed (h ∘ g) es := by
  cases es with
  | nil => rfl
  | cons pair es =>
    obtain ⟨key, e⟩ := pair
    rw [Expr.relocateNamed, Expr.relocateNamed, Expr.relocateNamed,
      Expr.relocate_relocate g h e, Expr.relocateNamed_relocateNamed g h es]
termination_by structural es

end

/-- A statement that is moved twice is moved by both moves. -/
theorem Statement.relocate_relocate (g h : Spot → Spot) (statement : Statement) :
    (statement.relocate g).relocate h = statement.relocate (h ∘ g) := by
  cases statement with
  | assign target value spot => simp [Statement.relocate, Expr.relocate_relocate]
  | write target attr value spot => simp [Statement.relocate, Expr.relocate_relocate]
  | bare value spot => simp [Statement.relocate, Expr.relocate_relocate]

mutual

/-- An expression that is not moved is the same. -/
theorem Expr.relocate_id (e : Expr) : e.relocate id = e := by
  cases e with
  | literal value spot => rfl
  | name ident spot => rfl
  | member base attr spot =>
    rw [Expr.relocate, Expr.relocate_id base]
    rfl
  | call func args keywords spot =>
    rw [Expr.relocate, Expr.relocateAll_id args, Expr.relocateNamed_id keywords]
    rfl
termination_by structural e

/-- To move expressions nowhere is to leave them. -/
theorem Expr.relocateAll_id (es : List Expr) : Expr.relocateAll id es = es := by
  cases es with
  | nil => rfl
  | cons e es => rw [Expr.relocateAll, Expr.relocate_id e, Expr.relocateAll_id es]
termination_by structural es

/-- To move named expressions nowhere is to leave them. -/
theorem Expr.relocateNamed_id (es : List (Text × Expr)) : Expr.relocateNamed id es = es := by
  cases es with
  | nil => rfl
  | cons pair es =>
    obtain ⟨key, e⟩ := pair
    rw [Expr.relocateNamed, Expr.relocate_id e, Expr.relocateNamed_id es]
termination_by structural es

end

/-- A statement that is not moved is the same. -/
theorem Statement.relocate_id (statement : Statement) : statement.relocate id = statement := by
  cases statement with
  | assign target value spot => simp [Statement.relocate, Expr.relocate_id]
  | write target attr value spot => simp [Statement.relocate, Expr.relocate_id]
  | bare value spot => simp [Statement.relocate, Expr.relocate_id]

/-- A violation that is not moved is the same. -/
theorem Violation.relocate_id (v : Violation) : v.relocate id = v := by
  cases v with
  | _ => rfl

/-- The spot of an expression elsewhere is its spot elsewhere. -/
@[simp] theorem Expr.spot_relocate (g : Spot → Spot) (e : Expr) :
    (e.relocate g).spot = g e.spot := by
  cases e with
  | _ => simp [Expr.relocate, Expr.spot]

/-- The spot of a statement elsewhere is its spot elsewhere. -/
@[simp] theorem Statement.spot_relocate (g : Spot → Spot) (statement : Statement) :
    (statement.relocate g).spot = g statement.spot := by
  cases statement with
  | _ => rfl

section Trees

variable {f : Place → Place} {g : Spot → Spot}

variable [CharacterNames]

/-- A literal elsewhere has the same value, or breaks the same rule elsewhere. -/
theorem literalValue_relocate (spots : ∀ p, (f p).spot = g p.spot) (l : Lexeme) :
    literalValue (l.relocate f) = (literalValue l).mapError (Violation.relocate g) := by
  obtain ⟨terminal, text, place⟩ := l
  cases terminal with
  | string =>
    simp only [literalValue, Lexeme.relocate]
    cases Literal.decode text with
    | ok t => rfl
    | error fault => simp [Except.mapError, Violation.relocate, spots]
  | integer =>
    simp only [literalValue, Lexeme.relocate]
    cases integerValue text with
    | ok n => rfl
    | error fault => rfl
  | _ => rfl

mutual

/-- A phrase at other places is turned into the same expression at other spots. -/
theorem Phrase.toExpr_relocate (spots : ∀ p, (f p).spot = g p.spot) (phrase : Phrase) :
    (phrase.relocate f).toExpr =
      (phrase.toExpr.map (Expr.relocate g)).mapError (Violation.relocate g) := by
  cases phrase with
  | literal l =>
    rw [Phrase.relocate, Phrase.toExpr, Phrase.toExpr, literalValue_relocate spots]
    cases literalValue l with
    | ok v => simp [Except.map, Except.mapError, Expr.relocate, Lexeme.relocate, spots]
    | error violation => rfl
  | name l =>
    rw [Phrase.relocate, Phrase.toExpr, Phrase.toExpr]
    simp [Except.map, Except.mapError, Expr.relocate, Lexeme.relocate, spots]
  | member base attr start =>
    rw [Phrase.relocate, Phrase.toExpr, Phrase.toExpr, Phrase.toExpr_relocate spots base]
    cases base.toExpr with
    | ok e => simp [Except.map, Except.mapError, Expr.relocate, spots]
    | error violation => rfl
  | call func arguments =>
    rw [Phrase.relocate, Phrase.toExpr, Phrase.toExpr]
    exact callOf_relocate spots func [] [] arguments
termination_by structural phrase

/-- The call that arguments at other places complete. -/
theorem callOf_relocate (spots : ∀ p, (f p).spot = g p.spot) (func : Lexeme) (args : List Expr)
    (named : List (Text × Expr)) (arguments : List Argument) :
    callOf (func.relocate f) (args.map (Expr.relocate g))
        (named.map fun (key, e) => (key, e.relocate g)) (Argument.relocateAll f arguments) =
      ((callOf func args named arguments).map (Expr.relocate g)).mapError
        (Violation.relocate g) := by
  cases arguments with
  | nil =>
    rw [Argument.relocateAll, callOf, callOf]
    simp [Except.map, Except.mapError, Expr.relocate, Expr.relocateAll_eq_map,
      Expr.relocateNamed_eq_map, Lexeme.relocate, spots]
  | cons argument rest =>
    cases argument with
    | positional value =>
      rw [Argument.relocateAll, callOf, callOf, List.isEmpty_map]
      -- Moving the named arguments keeps their names, and with them whether any is used already.
      by_cases none : named.isEmpty = true
      · rw [if_pos none, if_pos none, Phrase.toExpr_relocate spots value]
        cases value.toExpr with
        | ok e => exact callOf_relocate spots func (e :: args) named rest
        | error violation => rfl
      · rw [if_neg none, if_neg none]
        simp [Except.map, Except.mapError, Violation.relocate, Lexeme.relocate, spots]
    | keyword name value =>
      rw [Argument.relocateAll, callOf, callOf, List.any_map]
      by_cases used : named.any (·.1 = name.text) = true
      · rw [if_pos used]
        refine (if_pos used).trans ?_
        simp [Except.map, Except.mapError, Violation.relocate, Lexeme.relocate, spots]
      · rw [if_neg used]
        refine (if_neg used).trans ?_
        rw [Phrase.toExpr_relocate spots value]
        cases value.toExpr with
        | ok e => exact callOf_relocate spots func args ((name.text, e) :: named) rest
        | error violation => rfl
termination_by structural arguments

end

/-- A line at other places is turned into the same statement at other spots. -/
theorem Line.toStatement_relocate (spots : ∀ p, (f p).spot = g p.spot) (line : Line) :
    (line.relocate f).toStatement =
      (line.toStatement.map (Statement.relocate g)).mapError (Violation.relocate g) := by
  cases line with
  | assign target value =>
    rw [Line.relocate, Line.toStatement, Line.toStatement, Phrase.toExpr_relocate spots]
    cases value.toExpr with
    | ok e => simp [Except.map, Except.mapError, Statement.relocate, Lexeme.relocate, spots]
    | error violation => rfl
  | write target attr value start =>
    rw [Line.relocate, Line.toStatement, Line.toStatement, Phrase.toExpr_relocate spots,
      Phrase.toExpr_relocate spots]
    cases target.toExpr with
    | ok base =>
      cases value.toExpr with
      | ok e => simp [Except.map, Except.mapError, Statement.relocate, spots, bind, Except.bind,
          pure, Except.pure]
      | error violation => rfl
    | error violation => rfl
  | bare value start =>
    rw [Line.relocate, Line.toStatement, Line.toStatement, Phrase.toExpr_relocate spots]
    cases value.toExpr with
    | ok e => simp [Except.map, Except.mapError, Statement.relocate, spots]
    | error violation => rfl

/-- Lines at other places are turned into the same statements at other spots. -/
theorem mapM_toStatement_relocate (spots : ∀ p, (f p).spot = g p.spot) (lines : List Line) :
    (lines.map (Line.relocate f)).mapM Line.toStatement =
      ((lines.mapM Line.toStatement).map (List.map (Statement.relocate g))).mapError
        (Violation.relocate g) := by
  induction lines with
  | nil => rfl
  | cons line lines ih =>
    rw [List.map_cons, List.mapM_cons, List.mapM_cons, ih, Line.toStatement_relocate spots]
    cases line.toStatement with
    | ok statement =>
      cases lines.mapM Line.toStatement with
      | ok statements => rfl
      | error violation => rfl
    | error violation => rfl

end Trees

end Packaging.Script
