import Packaging.Script.Phrase

/-! # The reading machine
A machine that reads lexemes one at a time and builds phrases. It keeps what is still open around the
expression that it reads, and what may come next. A lexeme that no continuation could make right is
refused at once, so the lexeme at which reading stops is the first impossible one. -/

namespace Packaging.Script

/-- A bracket that is still open. -/
inductive Frame
  /-- Parentheses around an expression, and where they start. -/
  | group (start : Place)
  /-- The arguments of a call: those read so far in reverse order, and the name of the one being
  read, if it has one. -/
  | call (func : Lexeme) (done : List Argument) (keyword : Option Lexeme)

/-- What the outermost expression is for. -/
inductive Purpose
  /-- It is a statement, or may yet become the target of one. -/
  | statement
  /-- It is the value for a name. -/
  | assign (target : Lexeme)
  /-- It is the value for an attribute of a target; the statement starts at a given place. -/
  | write (target : Phrase) (attr : Lexeme) (start : Place)
  /-- It is all that is read. -/
  | whole

/-- What has just been read, which decides what may come next. -/
inductive Mode
  /-- Nothing of the line yet. -/
  | lineStart
  /-- Something after which an expression must start. -/
  | operand
  /-- The opening of a call's arguments, or a comma between them. -/
  | argument
  /-- A word that may yet be called, assigned to, or name an argument. -/
  | word (lexeme : Lexeme)
  /-- A complete expression, and where it starts. -/
  | done (value : Phrase) (start : Place)
  /-- A dot after an expression. -/
  | dot (base : Phrase) (start : Place)
  /-- An attribute of an expression, which may yet be written. -/
  | member (base : Phrase) (attr : Lexeme) (start : Place)

/-- The machine after some lexemes. -/
structure Machine where
  /-- The statements that are complete, in reverse order. -/
  lines : List Line
  /-- What the outermost expression is for. -/
  purpose : Purpose
  /-- The brackets that are open, the innermost first. -/
  frames : List Frame
  /-- What has just been read. -/
  mode : Mode

namespace Machine

/-- The machine before a script. -/
def script : Machine := ⟨[], .statement, [], .lineStart⟩

/-- The machine before a single expression. -/
def expression : Machine := ⟨[], .whole, [], .operand⟩

/-- Reads a lexeme where an expression must start. -/
def readOperand (m : Machine) (l : Lexeme) : Option Machine :=
  match l.terminal with
  | .string | .integer => some { m with mode := .done (.literal l) l.place }
  | .word =>
    if isKeyword l.text then some { m with mode := .done (.literal l) l.place }
    else some { m with mode := .word l }
  | .opening => some { m with frames := .group l.place :: m.frames, mode := .operand }
  | _ => none

/-- An argument of a call, with its name if it has one. -/
def argumentOf : Option Lexeme → Phrase → Argument
  | none, value => .positional value
  | some name, value => .keyword name value

/-- The statement that an expression completes; an expression that is all that is read completes
none. -/
def lineOf? (value : Phrase) (start : Place) : Purpose → Option Line
  | .statement => some (.bare value start)
  | .assign target => some (.assign target value)
  | .write target attr start => some (.write target attr value start)
  | .whole => none

/-- Reads a lexeme after a complete expression. -/
def readAfter (m : Machine) (value : Phrase) (start : Place) (l : Lexeme) : Option Machine :=
  match l.terminal, m.frames with
  | .dot, _ => some { m with mode := .dot value start }
  | .comma, .call func done keyword :: frames =>
    some { m with
      frames := .call func (argumentOf keyword value :: done) none :: frames, mode := .argument }
  | .closing, .group start :: frames => some { m with frames := frames, mode := .done value start }
  | .closing, .call func done keyword :: frames =>
    some { m with
      frames := frames
      mode := .done (.call func (argumentOf keyword value :: done).reverse) func.place }
  | .newline, [] =>
    (lineOf? value start m.purpose).map fun line =>
      ⟨line :: m.lines, .statement, [], .lineStart⟩
  | _, _ => none

/-- Reads a lexeme. -/
def step (m : Machine) (l : Lexeme) : Option Machine :=
  match m.mode with
  | .lineStart => if l.terminal = .newline then some m else m.readOperand l
  | .operand => m.readOperand l
  | .argument =>
    match l.terminal, m.frames with
    | .closing, .call func done none :: frames =>
      some { m with frames := frames, mode := .done (.call func done.reverse) func.place }
    | _, _ => m.readOperand l
  | .word w =>
    match l.terminal, m.frames, m.purpose with
    | .opening, frames, _ => some { m with frames := .call w [] none :: frames, mode := .argument }
    | .equals, .call func done none :: frames, _ =>
      some { m with frames := .call func done (some w) :: frames, mode := .operand }
    | .equals, [], .statement => some { m with purpose := .assign w, mode := .operand }
    | _, _, _ => m.readAfter (.name w) w.place l
  | .done value start => m.readAfter value start l
  | .dot base start =>
    if l.terminal = .word then some { m with mode := .member base l start } else none
  | .member base attr start =>
    match l.terminal, m.frames, m.purpose with
    | .equals, [], .statement => some { m with purpose := .write base attr start, mode := .operand }
    | _, _, _ => m.readAfter (.member base attr start) start l

/-- Reads lexemes until one is refused, and gives that one and those after it. -/
def run (m : Machine) : List Lexeme → Except (List Lexeme) Machine
  | [] => .ok m
  | l :: ls =>
    match m.step l with
    | some m => m.run ls
    | none => .error (l :: ls)

/-- Reading some lexemes and then others is reading them one after the other. -/
theorem run_append (m : Machine) (s t : List Lexeme) :
    m.run (s ++ t) =
      match m.run s with
      | .ok m => m.run t
      | .error rest => .error (rest ++ t) := by
  induction s generalizing m with
  | nil => rfl
  | cons l s ih =>
    simp only [List.cons_append, run]
    cases m.step l with
    | none => rfl
    | some m => exact ih m

/-- The statements that a machine has read, if it stands between two lines. -/
def lines? (m : Machine) : Option (List Line) :=
  match m.mode with
  | .lineStart => some m.lines.reverse
  | _ => none

/-- The expression that a machine has read, if it is complete. -/
def phrase? (m : Machine) : Option Phrase :=
  match m.frames, m.mode with
  | [], .word w => some (.name w)
  | [], .done value _ => some value
  | [], .member base attr start => some (.member base attr start)
  | _, _ => none

end Machine

end Packaging.Script
