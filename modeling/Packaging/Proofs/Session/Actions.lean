import Mathlib.Order.Defs.Unbundled
import Packaging.Proofs.Outcomes
import Packaging.Session

/-! # What actions do to a session
Actions obey the laws of sequencing, and a relation between sessions that the parts of an action
stay within is one that the whole action stays within. Since nothing is undone when an action fails,
such a relation holds between the session before and the session after, whatever comes out. -/

namespace Packaging

/-- An action that does not fail succeeds. -/
theorem Effect.value_eq_ok_of_failure {o : Effect Unit} (h : o.failure = none) :
    o.value = .ok () := by
  rw [failure] at h
  split at h
  next ends => exact ends
  next => cases h

namespace Action

variable {α β : Type}

/-! ## Sequencing -/

/-- A value by itself changes nothing and tells nothing. -/
theorem pure_apply (a : α) (s : Session) : (pure a : Action α) s = ⟨[], s, .ok a⟩ := rfl

/-- Behind a success the next action goes on, and the journal of both is told. -/
theorem bind_of_ok {x : Action α} {f : α → Action β} {s : Session} {a : α}
    (h : (x s).value = .ok a) :
    (x >>= f) s =
      { f a (x s).session with events := (x s).events ++ (f a (x s).session).events } := by
  show andThen x f s = _
  rw [andThen]
  dsimp only
  rw [h]

/-- A failure ends a sequence. -/
theorem bind_of_error {x : Action α} {f : α → Action β} {s : Session} {failure : Failure}
    (h : (x s).value = .error failure) :
    (x >>= f) s = ⟨(x s).events, (x s).session, .error failure⟩ := by
  show andThen x f s = _
  rw [andThen]
  dsimp only
  rw [h]

/-- What looks at the session first sees it as it is. -/
theorem bind_current (f : Session → Action β) (s : Session) : (current >>= f) s = f s s := rfl

/-- A result at hand goes straight into the next action. -/
theorem bind_ofResult_ok {result : Except Failure α} {a : α} (h : result = .ok a)
    (f : α → Action β) (s : Session) : (ofResult result >>= f) s = f a s := by
  rw [h]
  rfl

/-- A failure at hand ends a sequence before it starts. -/
theorem bind_ofResult_error {result : Except Failure α} {failure : Failure}
    (h : result = .error failure) (f : α → Action β) (s : Session) :
    (ofResult result >>= f) s = ⟨[], s, .error failure⟩ := by
  rw [h]
  rfl

/-- What a sequence does after a part that succeeds. -/
theorem value_bind_of_ok {x : Action α} {f : α → Action β} {s : Session} {a : α}
    (h : (x s).value = .ok a) : ((x >>= f) s).value = (f a (x s).session).value := by
  rw [bind_of_ok h]

/-- Behind a success the session is the next action's. -/
theorem session_bind_of_ok {x : Action α} {f : α → Action β} {s : Session} {a : α}
    (h : (x s).value = .ok a) : ((x >>= f) s).session = (f a (x s).session).session := by
  rw [bind_of_ok h]

/-- A sequence succeeds exactly if all of it does. -/
theorem value_bind_eq_ok_iff {x : Action α} {f : α → Action β} {s : Session} {b : β} :
    ((x >>= f) s).value = .ok b ↔
      ∃ a, (x s).value = .ok a ∧ (f a (x s).session).value = .ok b := by
  cases h : (x s).value with
  | ok a =>
    rw [value_bind_of_ok h]
    constructor
    · intro hb
      exact ⟨a, rfl, hb⟩
    · rintro ⟨_, ha, hb⟩
      obtain rfl := Except.ok.inj ha
      exact hb
  | error failure =>
    rw [bind_of_error h]
    constructor
    · intro hb
      cases hb
    · rintro ⟨_, ha, _⟩
      cases ha

/-- A sequence fails exactly if its first part does, or if that succeeds and the second part
fails. -/
theorem value_bind_eq_error_iff {x : Action α} {f : α → Action β} {s : Session}
    {failure : Failure} :
    ((x >>= f) s).value = .error failure ↔
      (x s).value = .error failure ∨
        ∃ a, (x s).value = .ok a ∧ (f a (x s).session).value = .error failure := by
  cases h : (x s).value with
  | ok a =>
    rw [value_bind_of_ok h]
    simp
  | error first =>
    rw [bind_of_error h]
    simp

instance : LawfulMonad Action := by
  refine LawfulMonad.mk' Action ?_ (fun a f => rfl) ?_
  · intro α x
    funext s
    show (x >>= pure) s = x s
    cases h : (x s).value with
    | ok a => rw [bind_of_ok h, pure_apply, List.append_nil, ← h]
    | error failure => rw [bind_of_error h, ← h]
  · intro α β γ x f g
    funext s
    -- The first part that fails ends both groupings with the same events.
    cases h : (x s).value with
    | error failure => rw [bind_of_error h, bind_of_error (by rw [bind_of_error h]),
        bind_of_error h]
    | ok a =>
      cases h' : (f a (x s).session).value with
      | error failure =>
        rw [bind_of_ok h, bind_of_error h', bind_of_error (by rw [bind_of_ok h, h']),
          bind_of_ok h]
      | ok b =>
        have hf : ((x >>= f) s).value = .ok b := by rw [bind_of_ok h, h']
        rw [bind_of_ok h, bind_of_ok h', bind_of_ok hf, bind_of_ok h, List.append_assoc]

/-! ## Relations that actions stay within -/

variable {R : Session → Session → Prop}

/-- Whatever comes out of an action, it leaves a session that is related to the one before. -/
def Within (R : Session → Session → Prop) (x : Action α) : Prop := ∀ s, R s (x s).session

/-- A result at hand stays within every preorder. -/
theorem within_ofResult [IsPreorder Session R] (result : Except Failure α) :
    (ofResult result).Within R :=
  fun s => refl_of R s

/-- A value by itself stays within every preorder. -/
theorem within_pure [IsPreorder Session R] (a : α) : (pure a : Action α).Within R :=
  within_ofResult (.ok a)

/-- A failure by itself stays within every preorder. -/
theorem within_fail [IsPreorder Session R] (failure : Failure) :
    (fail failure : Action α).Within R :=
  within_ofResult (.error failure)

/-- To look at the session stays within every preorder. -/
theorem within_current [IsPreorder Session R] : current.Within R := fun s => refl_of R s

/-- To tell a step stays within every preorder. -/
theorem within_tell [IsPreorder Session R] (event : Event) : (tell event).Within R :=
  fun s => refl_of R s

/-- Failures in other words stay within what the action stays within. -/
theorem Within.mapFailure {x : Action α} (h : x.Within R) (f : Failure → Failure) :
    (x.mapFailure f).Within R :=
  h

/-- What stays within a relation stays within every wider one. -/
theorem Within.mono {R' : Session → Session → Prop} {x : Action α} (h : x.Within R)
    (sub : ∀ s t, R s t → R' s t) : x.Within R' :=
  fun s => sub s _ (h s)

/-- The parts of a sequence compose. -/
theorem Within.bind [IsPreorder Session R] {x : Action α} {f : α → Action β} (hx : x.Within R)
    (hf : ∀ a, (f a).Within R) : (x >>= f).Within R := by
  intro s
  -- If the first part fails there is no second one, and the first has kept to the relation.
  cases h : (x s).value with
  | ok a =>
    rw [bind_of_ok h]
    exact trans_of R (hx s) (hf a (x s).session)
  | error failure =>
    rw [bind_of_error h]
    exact hx s

end Action

/-! ## Evaluation -/

open Packaging.Action

/-- A wrapper that cannot be made leaves the session as it is. -/
theorem makeWrapper_of_error {record : Record} {s : Session} {failure : Failure}
    (h : Resource.adapt s.policy (.record record) = .error failure) :
    makeWrapper record s = ⟨[], s, .error failure⟩ := by
  rw [makeWrapper, bind_current, bind_ofResult_error h]

/-- A wrapper that is made is put behind the others. -/
theorem makeWrapper_of_ok {record : Record} {s : Session} {w : Wrapper}
    (h : Resource.adapt s.policy (.record record) = .ok w) :
    (makeWrapper record s).session = { s with store := (s.store.add w).2 } ∧
      (makeWrapper record s).value = .ok (.wrapper (s.store.add w).1) := by
  rw [makeWrapper, bind_current, bind_ofResult_ok h]
  -- What is told about the context makes no difference to the session.
  split
  · exact ⟨rfl, rfl⟩
  · exact ⟨rfl, rfl⟩

/-- A write to an attribute is refused and leaves the session as it is, or it replaces the wrapper
that it goes to. -/
theorem writeAttribute_cases (value : Value) (attr : Text) (new : Value) (s : Session) :
    (∃ failure, value.writeAttribute attr new s = ⟨[], s, .error failure⟩) ∨
      ∃ handle w w', value = .wrapper handle ∧ s.store.get? handle = some w ∧
        w.set attr new = .ok w' ∧
        value.writeAttribute attr new s =
          ⟨[], { s with store := s.store.set handle w' }, .ok ()⟩ := by
  rw [Value.writeAttribute, bind_current]
  -- Plain data, handles that refer to nothing and refused values all end in the first case.
  cases value with
  | plain data => exact Or.inl ⟨_, rfl⟩
  | wrapper handle =>
    cases found : s.store.get? handle with
    | none =>
      dsimp only
      rw [found]
      exact Or.inl ⟨_, rfl⟩
    | some w =>
      dsimp only
      rw [found]
      dsimp only
      cases hset : w.set attr new with
      | error failure => exact Or.inl ⟨failure, bind_ofResult_error rfl _ s⟩
      | ok w' => exact Or.inr ⟨handle, w, w', rfl, found, hset, bind_ofResult_ok rfl _ s⟩

/-- Reading an attribute fails because the value has no attributes, or because its wrapper refuses
to be read. -/
theorem readAttribute_eq_error {files : Files} {value : Value} {attr : Text} {s : Session}
    {failure : Failure} (h : (value.readAttribute files attr s).value = .error failure) :
    failure = noAttributes value attr .get ∨
      ∃ w, value.wrapper? s.store = some w ∧ w.get files attr = .error failure := by
  rw [Value.readAttribute, bind_current] at h
  cases found : value.wrapper? s.store with
  | none =>
    rw [found] at h
    exact Or.inl (Except.error.inj h).symm
  | some w =>
    rw [found] at h
    exact Or.inr ⟨w, rfl, Except.map_eq_error_iff.1 h⟩

/-- Writing an attribute fails because the value has no attributes, or because its wrapper refuses
to be written. -/
theorem writeAttribute_eq_error {value new : Value} {attr : Text} {s : Session}
    {failure : Failure} (h : (value.writeAttribute attr new s).value = .error failure) :
    failure = noAttributes value attr .set ∨ ∃ w : Wrapper, w.set attr new = .error failure := by
  rw [Value.writeAttribute, bind_current] at h
  cases value with
  | plain data => exact Or.inl (Except.error.inj h).symm
  | wrapper handle =>
    dsimp only at h
    cases found : s.store.get? handle with
    | none =>
      rw [found] at h
      exact Or.inl (Except.error.inj h).symm
    | some w =>
      rw [found] at h
      rcases value_bind_eq_error_iff.1 h with refused | ⟨_, -, written⟩
      · exact Or.inr ⟨w, refused⟩
      · cases written

/-- A call fails because no record is made of its arguments, or because the record gets no
wrapper. -/
theorem call_eq_error {k : Kind} {positional : List Value} {named : Bindings Value} {s : Session}
    {failure : Failure} (h : (k.call positional named s).value = .error failure) :
    (∃ fault : Fault, (k.bindCall positional named).bind k.construct = .error fault ∧
      failure = fault) ∨
      ∃ record, (k.bindCall positional named).bind k.construct = .ok record ∧
        Resource.adapt s.policy (.record record) = .error failure := by
  rw [Kind.call] at h
  cases made : (k.bindCall positional named).bind k.construct with
  | error fault =>
    rw [made] at h
    exact Or.inl ⟨fault, rfl, (Except.error.inj h).symm⟩
  | ok record =>
    rw [made] at h
    dsimp only at h
    cases adapted : Resource.adapt s.policy (.record record) with
    | error refused =>
      rw [makeWrapper_of_error adapted] at h
      exact Or.inr ⟨record, rfl, by rw [adapted, Except.error.inj h]⟩
    | ok w =>
      rw [(makeWrapper_of_ok adapted).2] at h
      cases h

/-- Whether whatever constructor is called with whatever arguments, the call stays within a
relation. -/
def CallsWithin (R : Session → Session → Prop) : Prop :=
  ∀ (k : Kind) (positional : List Value) (named : Bindings Value),
    (k.call positional named).Within R

section Scripts

variable {R : Session → Session → Prop} [IsPreorder Session R]

/-- To look a name up stays within every preorder. -/
theorem within_lookUp (ident : Text) (spot : Spot) : (lookUp ident spot).Within R := by
  refine within_current.bind fun s => ?_
  split
  · exact within_pure _
  · exact within_fail _

/-- To read an attribute stays within every preorder. -/
theorem within_readAttribute (files : Files) (value : Value) (attr : Text) :
    (value.readAttribute files attr).Within R := by
  refine within_current.bind fun s => ?_
  split
  · exact within_fail _
  · exact within_ofResult _

/-- A call does no more to a session than to make a wrapper. -/
theorem within_call (make : ∀ record, (makeWrapper record).Within R) : CallsWithin R := by
  intro k positional named
  rw [Kind.call]
  split
  · exact within_fail _
  · exact make _

mutual

/-- All that evaluation does to a session is to call constructors. -/
theorem within_evaluate (call : CallsWithin R) (files : Files) (e : Script.Expr) :
    (evaluate files e).Within R := by
  cases e with
  | literal value spot => rw [evaluate]; exact within_pure _
  | name ident spot => rw [evaluate]; exact within_lookUp ident spot
  | member base attr spot =>
    rw [evaluate]
    exact (within_evaluate call files base).bind fun value =>
      within_readAttribute files value attr
  | call func args keywords spot =>
    rw [evaluate]
    split
    · exact within_fail _
    · refine (within_evaluateAll call files args).bind fun positional => ?_
      refine (within_evaluateNamed call files keywords).bind fun named => ?_
      exact call _ positional named
termination_by structural e

/-- Evaluating expressions stays within what calls stay within. -/
theorem within_evaluateAll (call : CallsWithin R) (files : Files) (es : List Script.Expr) :
    (evaluateAll files es).Within R := by
  cases es with
  | nil => rw [evaluateAll]; exact within_pure _
  | cons e es =>
    rw [evaluateAll]
    refine (within_evaluate call files e).bind fun value => ?_
    exact (within_evaluateAll call files es).bind fun values => within_pure _
termination_by structural es

/-- Evaluating named expressions stays within what calls stay within. -/
theorem within_evaluateNamed (call : CallsWithin R) (files : Files)
    (es : List (Text × Script.Expr)) : (evaluateNamed files es).Within R := by
  cases es with
  | nil => rw [evaluateNamed]; exact within_pure _
  | cons e es =>
    obtain ⟨name, e⟩ := e
    rw [evaluateNamed]
    refine (within_evaluate call files e).bind fun value => ?_
    exact (within_evaluateNamed call files es).bind fun values => within_pure _
termination_by structural es

end

/-! ## Execution -/

/-- All that a statement does to a session is to call constructors, to bind a name, or to write an
attribute. -/
theorem within_perform {files : Files} (call : CallsWithin R)
    (assign : ∀ target value spot, (Session.perform files (.assign target value spot)).Within R)
    (write : ∀ (value : Value) attr new, (value.writeAttribute attr new).Within R)
    (statement : Script.Statement) : (Session.perform files statement).Within R := by
  cases statement with
  | assign target value spot => exact assign target value spot
  | write target attr value spot =>
    refine (within_evaluate call files target).bind fun base => ?_
    exact (within_evaluate call files value).bind fun new => write base attr new
  | bare value spot => exact (within_evaluate call files value).bind fun _ => within_pure ()

/-- Executing a statement stays within what performing it stays within. -/
theorem within_execute {files : Files}
    (perform : ∀ statement, (Session.perform files statement).Within R)
    (statement : Script.Statement) : (Session.execute files statement).Within R :=
  (within_tell _).bind fun _ => (perform statement).mapFailure _

/-- Executing statements stays within what performing each of them stays within. -/
theorem within_executeAll {files : Files}
    (perform : ∀ statement, (Session.perform files statement).Within R)
    (statements : List Script.Statement) : (Session.executeAll files statements).Within R := by
  induction statements with
  | nil => exact within_pure ()
  | cons statement rest ih => exact (within_execute perform statement).bind fun _ => ih

/-- What every statement stays within, every script stays within. -/
theorem within_run [CharacterNames] {files : Files}
    (perform : ∀ statement, (Session.perform files statement).Within R) (s : Session)
    (source : Text) : R s (s.run files source).session := by
  rw [Session.run]
  split
  · exact within_fail _ s
  · exact within_executeAll perform _ s

/-- Evaluating the expression of a text stays within what calls stay within. -/
theorem within_eval [CharacterNames] (call : CallsWithin R) (files : Files) (s : Session)
    (source : Text) :
    R s (s.eval files source).session := by
  rw [Session.eval]
  split
  · exact within_fail _ s
  · exact (within_evaluate call files _).mapFailure _ s

end Scripts

end Packaging
