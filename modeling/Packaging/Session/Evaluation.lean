import Packaging.Adaptation
import Packaging.Script.Tree
import Packaging.Session.Action
import Packaging.Session.Constructor

/-! # Evaluation
The values of expressions. The parts of an expression are evaluated from the first to the last, and a
call puts the wrapper that it makes behind those that are there already. -/

namespace Packaging

open Script (Expr)

/-- A failure that an expression runs into by a name, at the spot of the name. -/
def unknownName (label message : Text) (spot : Spot) : Diagnostic where
  kind := .script (some spot.line) (some spot.column)
  reasonCode := "script-name"
  message := message
  label := some label

/-- A name without a value. -/
def unknownIdentifier (ident : Text) (spot : Spot) : Diagnostic :=
  unknownName ident (Text.concat ["unknown identifier '", ident, "'"]) spot

/-- A call of something that is no function. -/
def unknownFunction (func : Text) (spot : Spot) : Diagnostic :=
  unknownName func
    (Text.concat ["unknown function '", func, "'; expected one of: ",
      Text.join ", " (Kind.all.map Kind.constructorName)]) spot

/-- A value that has no attributes at all, asked for one. -/
def noAttributes (value : Value) (attr : Text) (access : Diagnostic.Access) : Diagnostic :=
  .unsupportedAttribute value.typeName attr access.operation []

/-- The wrapper that a value refers to. -/
def Value.wrapper? (store : Store) : Value → Option Wrapper
  | plain _ => none
  | wrapper handle => store.get? handle

/-- Puts a new wrapper into the session. Its value is its handle. -/
def addWrapper (w : Wrapper) : Action Value := fun s =>
  let (handle, store) := s.store.add w
  ⟨[], { s with store := store }, .ok (.wrapper handle)⟩

/-- Makes the wrapper of a record under the policy of the session. -/
def makeWrapper (record : Record) : Action Value := do
  let s ← Action.current
  let w ← Action.ofResult (Resource.adapt s.policy (.record record))
  if w.kind.hasContext then Action.tell (.policyApplied record)
  addWrapper w

/-- Calls a constructor. -/
def Kind.call (k : Kind) (positional : List Value) (named : Bindings Value) : Action Value :=
  match (k.bindCall positional named).bind k.construct with
  | .error fault => .fail fault
  | .ok record => makeWrapper record

/-- Reads an attribute of a value. -/
def Value.readAttribute (files : Files) (value : Value) (attr : Text) : Action Value := do
  let s ← Action.current
  match value.wrapper? s.store with
  | none => .fail (noAttributes value attr .get)
  | some w => Action.ofResult ((w.get files attr).map .plain)

/-- Writes an attribute of a value. -/
def Value.writeAttribute (value : Value) (attr : Text) (new : Value) : Action Unit := do
  let s ← Action.current
  match value with
  | .plain _ => .fail (noAttributes value attr .set)
  | .wrapper handle =>
    match s.store.get? handle with
    | none => .fail (noAttributes value attr .set)
    | some w => do
      let w ← Action.ofResult (w.set attr new)
      Action.change fun s => { s with store := s.store.set handle w }

/-- Looks up a name. -/
def lookUp (ident : Text) (spot : Spot) : Action Value := do
  let s ← Action.current
  match Bindings.get? s.globals ident with
  | some value => return value
  | none => .fail (unknownIdentifier ident spot)

mutual

/-- Evaluates an expression. -/
def evaluate (files : Files) : Expr → Action Value
  | .literal value _ => return .plain value
  | .name ident spot => lookUp ident spot
  | .member base attr _ => do
    let value ← evaluate files base
    value.readAttribute files attr
  | .call func args keywords spot =>
    match Kind.ofConstructorName? func with
    | none => .fail (unknownFunction func spot)
    | some k => do
      let positional ← evaluateAll files args
      let named ← evaluateNamed files keywords
      k.call positional named

/-- Evaluates some expressions, from the first to the last. -/
def evaluateAll (files : Files) : List Expr → Action (List Value)
  | [] => return []
  | e :: es => do
    let value ← evaluate files e
    let values ← evaluateAll files es
    return value :: values

/-- Evaluates some named expressions, from the first to the last. -/
def evaluateNamed (files : Files) : List (Text × Expr) → Action (Bindings Value)
  | [] => return []
  | (name, e) :: es => do
    let value ← evaluate files e
    let values ← evaluateNamed files es
    return (name, value) :: values

end

end Packaging
