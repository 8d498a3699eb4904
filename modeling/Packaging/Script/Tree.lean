import Packaging.Number.Integer
import Packaging.Script.Literal
import Packaging.Script.Phrase

/-! # Trees
Scripts ready to be run: strings and numerals are evaluated, and the arguments of every call are
sorted into positional and named ones. Phrases that break a rule about these are refused, the first
violation in the text first. -/

namespace Packaging.Script

/-- An expression; each node knows its spot in the script. -/
inductive Expr
  /-- A constant. -/
  | literal (value : Json) (spot : Spot)
  /-- The value of a name. -/
  | name (ident : Text) (spot : Spot)
  /-- The value of an attribute. -/
  | member (base : Expr) (attr : Text) (spot : Spot)
  /-- The result of a call, with positional arguments before named ones. -/
  | call (func : Text) (args : List Expr) (keywords : List (Text × Expr)) (spot : Spot)

/-- A statement; it knows its spot in the script. -/
inductive Statement
  /-- A value is bound to a name. -/
  | assign (target : Text) (value : Expr) (spot : Spot)
  /-- A value is written to an attribute. -/
  | write (target : Expr) (attr : Text) (value : Expr) (spot : Spot)
  /-- An expression is evaluated for its effect. -/
  | bare (value : Expr) (spot : Spot)

/-- The spot of an expression. -/
def Expr.spot : Expr → Spot
  | literal _ spot | name _ spot | member _ _ spot | call _ _ _ spot => spot

/-- The spot of a statement. -/
def Statement.spot : Statement → Spot
  | assign _ _ spot | write _ _ _ spot | bare _ spot => spot

/-- A rule that a phrase breaks. -/
inductive Violation
  /-- A quoted string that stands for no text. -/
  | badString (raw : Text) (fault : Literal.Fault) (spot : Spot)
  /-- An integer numeral with too many digits. -/
  | tooLong (fault : Integer.TooLong)
  /-- Two arguments of one call with the same name. -/
  | duplicateKeyword (name func : Text) (spot : Spot)
  /-- An argument without a name after one with a name. -/
  | positionalAfterKeyword (func : Text) (spot : Spot)

/-- The value of an integer numeral. -/
def integerValue (t : Text) : Except Integer.TooLong Int :=
  match t with
  | c :: r => if c = '-' then Integer.read true r else Integer.read false t
  | [] => Integer.read false []

variable [CharacterNames]

/-- The value of a string, a numeral or a keyword. -/
def literalValue (l : Lexeme) : Except Violation Json :=
  match l.terminal with
  | .string =>
    match Literal.decode l.text with
    | .ok t => .ok (.text t)
    | .error fault => .error (.badString l.text fault l.place.spot)
  | .integer =>
    match integerValue l.text with
    | .ok n => .ok (.int n)
    | .error fault => .error (.tooLong fault)
  | _ => .ok ((keywords.lookup l.text).getD .null)

mutual

/-- The expression that a phrase says. -/
def Phrase.toExpr : Phrase → Except Violation Expr
  | .literal l => (literalValue l).map fun v => .literal v l.place.spot
  | .name l => .ok (.name l.text l.place.spot)
  | .member base attr start => base.toExpr.map fun e => .member e attr.text start.spot
  | .call func arguments => callOf func [] [] arguments

/-- The call that some arguments complete; those before them, in reverse order, are sorted into
positional and named ones. -/
def callOf (func : Lexeme) (args : List Expr) (named : List (Text × Expr)) :
    List Argument → Except Violation Expr
  | [] => .ok (.call func.text args.reverse named.reverse func.place.spot)
  | .positional value :: rest =>
    if named.isEmpty then
      match value.toExpr with
      | .ok e => callOf func (e :: args) named rest
      | .error violation => .error violation
    else .error (.positionalAfterKeyword func.text func.place.spot)
  | .keyword name value :: rest =>
    if named.any (·.1 = name.text) then
      .error (.duplicateKeyword name.text func.text func.place.spot)
    else
      match value.toExpr with
      | .ok e => callOf func args ((name.text, e) :: named) rest
      | .error violation => .error violation

end

/-- The statement that a line says. -/
def Line.toStatement : Line → Except Violation Statement
  | .assign target value => value.toExpr.map fun e => .assign target.text e target.place.spot
  | .write target attr value start => do
    let base ← target.toExpr
    let e ← value.toExpr
    return .write base attr.text e start.spot
  | .bare value start => value.toExpr.map fun e => .bare e start.spot

end Packaging.Script
