import Packaging.Journal
import Packaging.Session.Store

/-! # Actions
What runs in a session. An action sees the session as it is, tells its steps, and may change the
session as it goes; when it fails, whatever it did before stays done. -/

namespace Packaging

/-- A session. -/
structure Session where
  /-- The policy that decides the contexts of new wrappers. -/
  policy : Policy := {}
  /-- The values of names, in the order in which the names were first bound. -/
  globals : Bindings Value := []
  /-- The wrappers. -/
  store : Store := {}

/-- The effect of an action. -/
structure Effect (α : Type) where
  /-- The steps told, in order. -/
  events : List Event
  /-- The session afterwards, be it after a failure. -/
  session : Session
  /-- What came out, or the failure that ended the action. -/
  value : Except Failure α

/-- An action in a session. -/
def Action (α : Type) : Type := Session → Effect α

namespace Effect

variable {α : Type}

/-- The failure that ended an action, if one did. -/
def failure (o : Effect α) : Option Failure :=
  match o.value with
  | .ok _ => none
  | .error failure => some failure

/-- What came out of an action, together with the session afterwards. -/
def result (o : Effect α) : Except Failure (α × Session) := o.value.map (·, o.session)

end Effect

namespace Action

variable {α β : Type}

/-- An action that only has a result. -/
def ofResult (result : Except Failure α) : Action α := fun s => ⟨[], s, result⟩

/-- An action that fails. -/
def fail (failure : Failure) : Action α := ofResult (.error failure)

/-- One action and then another that depends on its result; a failure ends both, but undoes
nothing. -/
def andThen (x : Action α) (f : α → Action β) : Action β := fun s =>
  let first := x s
  match first.value with
  | .error failure => ⟨first.events, first.session, .error failure⟩
  | .ok a =>
    let second := f a first.session
    { second with events := first.events ++ second.events }

instance : Monad Action where
  pure a := ofResult (.ok a)
  bind := andThen

/-- The session as it is. -/
def current : Action Session := fun s => ⟨[], s, .ok s⟩

/-- Changes the session. -/
def change (f : Session → Session) : Action Unit := fun s => ⟨[], f s, .ok ()⟩

/-- Tells a step. -/
def tell (event : Event) : Action Unit := fun s => ⟨[event], s, .ok ()⟩

/-- An action with its failure reported in other words. -/
def mapFailure (f : Failure → Failure) (x : Action α) : Action α := fun s =>
  let o := x s
  { o with value := o.value.mapError f }

end Action

end Packaging
