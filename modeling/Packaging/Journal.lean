import Packaging.Failure
import Packaging.Resource

/-! # Journals
The steps that a run can tell about, and computations that keep a journal of them. A computation that
fails still tells the steps before its failure. -/

namespace Packaging

/-- A step that a run can tell about. -/
inductive Event
  /-- The locations of a preset were given to a policy. -/
  | presetApplied (mode : Text)
  /-- A policy document was read from a file. -/
  | policyLoaded (path : Text)
  /-- A policy decided the context of a record. -/
  | policyApplied (record : Record)
  /-- A statement is about to be executed. -/
  | statementReached (line : Nat) (form : Text)

namespace Event

/-- The part of the program that tells about a step. -/
def teller : Event → Text
  | statementReached _ _ => "starpack.script.session"
  | _ => "starpack.policy"

/-- What is told about a step. -/
def text : Event → Text
  | presetApplied mode => "applied resource handling mode " ++ mode
  | policyLoaded path => "loaded packaging policy from " ++ path
  | policyApplied record => "applied packaging policy to " ++ record.kindName
  | statementReached line form => Text.concat ["line ", Text.ofNat line, ": ", form]

/-- The line that tells a step. -/
def line (e : Event) : Text := Text.concat [e.teller, ": ", e.text, "\n"]

end Event

/-- The journal of a computation, and what came out of it. -/
structure Traced (α : Type) where
  /-- The steps told, in order. -/
  events : List Event
  /-- The result, or the failure after the last step. -/
  result : Except Failure α

namespace Traced

variable {α β : Type}

/-- A computation that tells nothing. -/
def ofResult (result : Except Failure α) : Traced α := ⟨[], result⟩

/-- One computation and then another that depends on its result; a failure ends both. -/
def andThen (x : Traced α) (f : α → Traced β) : Traced β :=
  match x.result with
  | .ok a => ⟨x.events ++ (f a).events, (f a).result⟩
  | .error failure => ⟨x.events, .error failure⟩

instance : Monad Traced where
  pure a := ofResult (.ok a)
  bind := andThen

/-- A computation that fails. -/
def fail (failure : Failure) : Traced α := ofResult (.error failure)

/-- A step told before a computation. -/
def after (event : Event) (x : Traced α) : Traced α := ⟨event :: x.events, x.result⟩

/-- A computation that tells nothing comes out with its result. -/
@[simp] theorem result_ofResult (r : Except Failure α) : (ofResult r).result = r := rfl

/-- A step told in front does not change what comes out. -/
@[simp] theorem result_after (e : Event) (x : Traced α) : (x.after e).result = x.result := rfl

/-- A journal has no influence on what comes out. -/
theorem result_bind (x : Traced α) (f : α → Traced β) :
    (x >>= f).result = x.result.bind fun a => (f a).result := by
  obtain ⟨events, result⟩ := x
  cases result <;> rfl

end Traced

end Packaging
