import Packaging.Policy.Preset
import Packaging.Script.Source
import Packaging.Session.Evaluation

/-! # Sessions
A session runs scripts statement by statement against names, a policy and a store of wrappers. A
statement that fails ends the script; the statements before it stay done. Its failure is reported as
one of the script, at the statement; a fault that is neither a diagnostic nor a matter of types is
passed on as it is. -/

namespace Packaging

open Script (Expr Statement)

/-- What an expression is called in a report about it. -/
def Script.Expr.label : Expr → Text
  | .call func _ _ _ => func ++ "()"
  | .member _ attr _ => Diagnostic.Access.get.label attr
  | .name ident _ => ident
  | .literal _ _ => "expression"

/-- What a statement is called in a report about it. -/
def Script.Statement.label : Statement → Text
  | .assign _ value _ => value.label
  | .write _ attr _ _ => Diagnostic.Access.set.label attr
  | .bare value _ => value.label

/-- The name of a statement's form. -/
def Script.Statement.form : Statement → Text
  | .assign _ _ _ => "AssignStmt"
  | .write _ _ _ _ => "SetAttrStmt"
  | .bare _ _ => "ExprStmt"

/-- A failure as one of a script, at a spot and under a label. A diagnostic that has a label of its own
keeps it, and one of a script is left alone. -/
def Failure.inScript (label : Text) (spot : Spot) (failure : Failure) : Failure :=
  match failure.fault with
  | .diagnostic d =>
    match d.kind with
    | .script _ _ => failure
    | _ =>
      Diagnostic.causedBy
        { kind := .script (some spot.line) (some spot.column)
          reasonCode := "script"
          message := d.message
          label := some (if (d.label.getD []).isEmpty then label else d.label.getD [])
          typeName := d.typeName
          attrName := d.attrName }
        failure.fault
  | .wrongType message =>
    Diagnostic.causedBy
      { kind := .script (some spot.line) (some spot.column)
        reasonCode := "script-call"
        message := message
        label := some label }
      failure.fault
  | _ => failure

namespace Session

/-- Performs a statement. Both sides of a write are evaluated before it. -/
def perform (files : Files) : Statement → Action Unit
  | .assign target value _ => do
    let new ← evaluate files value
    Action.change fun s => { s with globals := s.globals.set target new }
  | .write target attr value _ => do
    let base ← evaluate files target
    let new ← evaluate files value
    base.writeAttribute attr new
  | .bare value _ => do
    let _ ← evaluate files value
    return ()

/-- Executes a statement; a failure is reported at the statement. -/
def execute (files : Files) (statement : Statement) : Action Unit := do
  Action.tell (.statementReached statement.spot.line statement.form)
  (perform files statement).mapFailure (Failure.inScript statement.label statement.spot)

/-- Executes statements in order up to the first that fails. -/
def executeAll (files : Files) : List Statement → Action Unit
  | [] => return ()
  | statement :: rest => do
    execute files statement
    executeAll files rest

variable [CharacterNames]

/-- Runs a script. Nothing is executed of a script that cannot be read. -/
def run (files : Files) (s : Session) (source : Text) : Effect Unit :=
  match Script.parse source with
  | .error fault => Action.fail fault.failure s
  | .ok statements => executeAll files statements s

/-- Evaluates an expression by itself. -/
def eval (files : Files) (s : Session) (source : Text) : Effect Value :=
  match Script.parseExpr source with
  | .error fault => Action.fail fault.failure s
  | .ok e => (evaluate files e).mapFailure (Failure.inScript e.label e.spot) s

/-- A session with a name bound to plain data. -/
def bind (s : Session) (name : Text) (data : Json) : Session :=
  { s with globals := s.globals.set name (.plain data) }

/-- A session with a name bound to a new wrapper of a resource. -/
def bindResource (s : Session) (name : Text) (resource : Resource) : Except Failure Session :=
  match resource.adapt s.policy with
  | .error failure => .error failure
  | .ok w =>
    let (handle, store) := s.store.add w
    .ok { s with globals := s.globals.set name (.wrapper handle), store := store }

/-- A session with the context of the wrapper under a name removed. -/
def dropContext (s : Session) (name : Text) : Session :=
  match Bindings.get? s.globals name with
  | some (.wrapper handle) =>
    match s.store.get? handle with
    | some w => { s with store := s.store.set handle w.dropContext }
    | none => s
  | _ => s

/-- A session with the locations of a preset given to its policy. -/
def setMode (s : Session) (mode : Text) : Except Diagnostic Session :=
  (s.policy.setMode mode).map fun policy => { s with policy := policy }

/-- The wrappers that names are bound to, in the order of the names. -/
def resources (s : Session) : Bindings Wrapper :=
  s.globals.filterMap fun (name, value) => (value.wrapper? s.store).map (name, ·)

end Session

end Packaging
