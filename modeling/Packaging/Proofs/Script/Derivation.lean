import Packaging.Script.Machine

/-! # Derivations
The grammar of scripts, with one constructor for each way to derive something. A derivation has the
lexemes that it derives, and it says a phrase, in which parentheses and signs no longer occur. -/

namespace Packaging.Script

/-- Lexemes of one shape. -/
abbrev Token (terminal : Terminal) := { l : Lexeme // l.terminal = terminal }

/-- Words that are keywords. -/
abbrev Keyword := { l : Lexeme // l.terminal = .word ∧ isKeyword l.text = true }

/-- Words that are no keywords. -/
abbrev Name := { l : Lexeme // l.terminal = .word ∧ isKeyword l.text = false }

namespace Derivation

/-! ## Expressions -/

mutual

/-- How an expression is derived. -/
inductive Postfix
  /-- A string. -/
  | string (l : Token .string)
  /-- A numeral. -/
  | integer (l : Token .integer)
  /-- A constant. -/
  | keyword (l : Keyword)
  /-- A name. -/
  | name (l : Name)
  /-- An expression in parentheses. -/
  | group (opening : Token .opening) (inner : Postfix) (closing : Token .closing)
  /-- An attribute of an expression; any word may follow the dot. -/
  | member (base : Postfix) (dot : Token .dot) (attr : Token .word)
  /-- A call without arguments. -/
  | call (func : Name) (opening : Token .opening) (closing : Token .closing)
  /-- A call with arguments. -/
  | callWith (func : Name) (opening : Token .opening) (arguments : Arguments)
      (closing : Token .closing)

/-- How the arguments of a call are derived. -/
inductive Arguments
  /-- The last argument. -/
  | last (argument : Arg)
  /-- The last argument with a comma after it. -/
  | lastWithComma (argument : Arg) (comma : Token .comma)
  /-- An argument before others. -/
  | more (argument : Arg) (comma : Token .comma) (rest : Arguments)

/-- How an argument is derived. -/
inductive Arg
  /-- An argument that is known by its position. -/
  | positional (value : Postfix)
  /-- An argument that is known by a name. -/
  | keyword (name : Name) (equals : Token .equals) (value : Postfix)

end

mutual

/-- The lexemes that an expression is derived from. -/
def Postfix.yield : Postfix → List Lexeme
  | .string l => [l.1]
  | .integer l => [l.1]
  | .keyword l => [l.1]
  | .name l => [l.1]
  | .group opening inner closing => opening.1 :: (inner.yield ++ [closing.1])
  | .member base dot attr => base.yield ++ [dot.1, attr.1]
  | .call func opening closing => [func.1, opening.1, closing.1]
  | .callWith func opening arguments closing =>
    func.1 :: opening.1 :: (arguments.yield ++ [closing.1])

/-- The lexemes that arguments are derived from. -/
def Arguments.yield : Arguments → List Lexeme
  | .last argument => argument.yield
  | .lastWithComma argument comma => argument.yield ++ [comma.1]
  | .more argument comma rest => argument.yield ++ comma.1 :: rest.yield

/-- The lexemes that an argument is derived from. -/
def Arg.yield : Arg → List Lexeme
  | .positional value => value.yield
  | .keyword name equals value => name.1 :: equals.1 :: value.yield

end

/-- The place of the first lexeme. -/
def Postfix.start : Postfix → Place
  | .string l => l.1.place
  | .integer l => l.1.place
  | .keyword l => l.1.place
  | .name l => l.1.place
  | .group opening _ _ => opening.1.place
  | .member base _ _ => base.start
  | .call func _ _ => func.1.place
  | .callWith func _ _ _ => func.1.place

mutual

/-- The phrase that an expression says. -/
def Postfix.phrase : Postfix → Phrase
  | .string l => .literal l.1
  | .integer l => .literal l.1
  | .keyword l => .literal l.1
  | .name l => .name l.1
  | .group _ inner _ => inner.phrase
  | .member base _ attr => .member base.phrase attr.1 base.start
  | .call func _ _ => .call func.1 []
  | .callWith func _ arguments _ => .call func.1 arguments.phrases

/-- What the arguments of a call say. -/
def Arguments.phrases : Arguments → List Argument
  | .last argument => [argument.phrase]
  | .lastWithComma argument _ => [argument.phrase]
  | .more argument _ rest => argument.phrase :: rest.phrases

/-- What an argument says. -/
def Arg.phrase : Arg → Argument
  | .positional value => .positional value.phrase
  | .keyword name _ value => .keyword name.1 value.phrase

end

/-! ## Scripts -/

/-- How a statement is derived. -/
inductive Stmt
  /-- A value is bound to a name. -/
  | assign (target : Name) (equals : Token .equals) (value : Postfix)
  /-- A value is written to an attribute. -/
  | write (target : Postfix) (dot : Token .dot) (attr : Token .word) (equals : Token .equals)
      (value : Postfix)
  /-- An expression stands alone. -/
  | bare (value : Postfix)

/-- How a script is derived: lines, each a statement or nothing, then the end of the line. -/
abbrev Program := List (Option Stmt × Token .newline)

/-- The lexemes that a statement is derived from. -/
def Stmt.yield : Stmt → List Lexeme
  | .assign target equals value => target.1 :: equals.1 :: value.yield
  | .write target dot attr equals value =>
    target.yield ++ dot.1 :: attr.1 :: equals.1 :: value.yield
  | .bare value => value.yield

/-- The lexemes that a script is derived from. -/
def Program.yield (program : Program) : List Lexeme :=
  program.flatMap fun (stmt, newline) => (stmt.elim [] Stmt.yield) ++ [newline.1]

/-- What a statement says. -/
def Stmt.line : Stmt → Line
  | .assign target _ value => .assign target.1 value.phrase
  | .write target _ attr _ value => .write target.phrase attr.1 value.phrase target.start
  | .bare value => .bare value.phrase value.start

/-- What the lines of a script say, empty lines left out. -/
def Program.lines (program : Program) : List Line :=
  program.filterMap fun (stmt, _) => stmt.map Stmt.line

/-- An empty line yields its end. -/
theorem Program.yield_cons_none (newline : Token .newline) (program : Program) :
    Program.yield ((none, newline) :: program) = newline.1 :: program.yield := rfl

/-- A line with a statement yields the statement and its end. -/
theorem Program.yield_cons_some (stmt : Stmt) (newline : Token .newline) (program : Program) :
    Program.yield ((some stmt, newline) :: program) =
      stmt.yield ++ newline.1 :: program.yield := by
  rw [Program.yield, List.flatMap_cons, List.append_assoc]
  rfl

/-- An empty line says nothing. -/
theorem Program.lines_cons_none (newline : Token .newline) (program : Program) :
    Program.lines ((none, newline) :: program) = program.lines := rfl

/-- A line with a statement says the statement. -/
theorem Program.lines_cons_some (stmt : Stmt) (newline : Token .newline) (program : Program) :
    Program.lines ((some stmt, newline) :: program) = stmt.line :: program.lines := rfl

/-- Two programs yield what the first yields and then what the second does. -/
theorem Program.yield_append (program others : Program) :
    Program.yield (program ++ others) = program.yield ++ others.yield := List.flatMap_append

/-- Two programs say what the first says and then what the second does. -/
theorem Program.lines_append (program others : Program) :
    Program.lines (program ++ others) = program.lines ++ others.lines := List.filterMap_append

/-! ## No derivation derives nothing -/

/-- Every expression yields a lexeme. -/
theorem Postfix.yield_ne_nil (d : Postfix) : d.yield ≠ [] := by
  cases d with
  | member base dot attr => rw [Postfix.yield]; simp
  | _ => rw [Postfix.yield]; exact List.cons_ne_nil _ _

/-- Every argument yields a lexeme. -/
theorem Arg.yield_ne_nil (a : Arg) : a.yield ≠ [] := by
  cases a with
  | positional value => rw [Arg.yield]; exact value.yield_ne_nil
  | keyword name equals value => rw [Arg.yield]; exact List.cons_ne_nil _ _

/-- Arguments yield a lexeme. -/
theorem Arguments.yield_ne_nil (a : Arguments) : a.yield ≠ [] := by
  cases a with
  | last argument => rw [Arguments.yield]; exact argument.yield_ne_nil
  | _ => rw [Arguments.yield]; simp

/-- Every line yields a lexeme. -/
theorem Program.yield_cons_ne_nil (row : Option Stmt × Token .newline) (program : Program) :
    Program.yield (row :: program) ≠ [] := by
  rw [Program.yield, List.flatMap_cons]
  simp

/-! ## No derivation of an expression goes on in another line -/

/-- A lexeme of another terminal ends no line. -/
theorem ne_newline {l : Lexeme} {terminal : Terminal} (h : l.terminal = terminal)
    (other : terminal ≠ .newline) : l.terminal ≠ .newline := by
  rw [h]
  exact other

mutual

/-- No lexeme of an expression is the end of a line. -/
theorem Postfix.not_newline (d : Postfix) : ∀ l ∈ d.yield, l.terminal ≠ .newline := by
  cases d with
  | string m => simpa [Postfix.yield] using ne_newline m.2 (by decide)
  | integer m => simpa [Postfix.yield] using ne_newline m.2 (by decide)
  | keyword m => simpa [Postfix.yield] using ne_newline m.2.1 (by decide)
  | name m => simpa [Postfix.yield] using ne_newline m.2.1 (by decide)
  | group opening inner closing =>
    rw [Postfix.yield, List.forall_mem_cons, List.forall_mem_append, List.forall_mem_singleton]
    exact ⟨ne_newline opening.2 (by decide), inner.not_newline, ne_newline closing.2 (by decide)⟩
  | member base dot attr =>
    rw [Postfix.yield, List.forall_mem_append, List.forall_mem_cons, List.forall_mem_singleton]
    exact ⟨base.not_newline, ne_newline dot.2 (by decide), ne_newline attr.2 (by decide)⟩
  | call func opening closing =>
    rw [Postfix.yield, List.forall_mem_cons, List.forall_mem_cons, List.forall_mem_singleton]
    exact ⟨ne_newline func.2.1 (by decide), ne_newline opening.2 (by decide),
      ne_newline closing.2 (by decide)⟩
  | callWith func opening arguments closing =>
    rw [Postfix.yield, List.forall_mem_cons, List.forall_mem_cons, List.forall_mem_append,
      List.forall_mem_singleton]
    exact ⟨ne_newline func.2.1 (by decide), ne_newline opening.2 (by decide),
      arguments.not_newline, ne_newline closing.2 (by decide)⟩
termination_by structural d

/-- No lexeme of arguments ends a line. -/
theorem Arguments.not_newline (a : Arguments) : ∀ l ∈ a.yield, l.terminal ≠ .newline := by
  cases a with
  | last argument =>
    rw [Arguments.yield]
    exact argument.not_newline
  | lastWithComma argument comma =>
    rw [Arguments.yield, List.forall_mem_append, List.forall_mem_singleton]
    exact ⟨argument.not_newline, ne_newline comma.2 (by decide)⟩
  | more argument comma rest =>
    rw [Arguments.yield, List.forall_mem_append, List.forall_mem_cons]
    exact ⟨argument.not_newline, ne_newline comma.2 (by decide), rest.not_newline⟩
termination_by structural a

/-- No lexeme of an argument ends a line. -/
theorem Arg.not_newline (a : Arg) : ∀ l ∈ a.yield, l.terminal ≠ .newline := by
  cases a with
  | positional value =>
    rw [Arg.yield]
    exact value.not_newline
  | keyword name equals value =>
    rw [Arg.yield, List.forall_mem_cons, List.forall_mem_cons]
    exact ⟨ne_newline name.2.1 (by decide), ne_newline equals.2 (by decide), value.not_newline⟩
termination_by structural a

end

/-- No lexeme of a statement is the end of a line. -/
theorem Stmt.not_newline (stmt : Stmt) : ∀ l ∈ stmt.yield, l.terminal ≠ .newline := by
  cases stmt with
  | assign target equals value =>
    rw [Stmt.yield, List.forall_mem_cons, List.forall_mem_cons]
    exact ⟨ne_newline target.2.1 (by decide), ne_newline equals.2 (by decide), value.not_newline⟩
  | write target dot attr equals value =>
    rw [Stmt.yield, List.forall_mem_append, List.forall_mem_cons, List.forall_mem_cons,
      List.forall_mem_cons]
    exact ⟨target.not_newline, ne_newline dot.2 (by decide), ne_newline attr.2 (by decide),
      ne_newline equals.2 (by decide), value.not_newline⟩
  | bare value => exact value.not_newline

end Derivation

end Packaging.Script
