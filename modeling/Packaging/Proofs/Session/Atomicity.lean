import Packaging.Proofs.Session.Actions

/-! # Failing statements leave no trace
Evaluation can only put wrappers behind those that are there, and every other change of a session is
the last thing that a statement does. So a statement that fails, wherever in its expressions that
happens, leaves names, policy and wrappers as they were, and a script is executed exactly up to the
first statement that fails. -/

namespace Packaging

open Packaging.Action
open Script (Expr Statement)

/-! ## Sessions that only grow -/

/-- A session that differs from another at most by wrappers behind those of the other. -/
structure Session.Grows (s t : Session) : Prop where
  /-- The policy is the same. -/
  policy : t.policy = s.policy
  /-- The names are the same, in the same order and with the same values. -/
  globals : t.globals = s.globals
  /-- Every wrapper is the same, its context included. -/
  wrappers : s.store.wrappers <+: t.store.wrappers

instance : IsPreorder Session Session.Grows where
  refl _ := ⟨rfl, rfl, List.prefix_refl _⟩
  trans _ _ _ first second :=
    ⟨second.policy.trans first.policy, second.globals.trans first.globals,
      first.wrappers.trans second.wrappers⟩

namespace Session.Grows

variable {s t : Session}

/-- What a handle refers to is never lost. -/
theorem get?_store (h : s.Grows t) {handle : Handle} {w : Wrapper}
    (found : s.store.get? handle = some w) : t.store.get? handle = some w := by
  obtain ⟨new, hnew⟩ := h.wrappers
  have inside : handle.index < s.store.wrappers.length := (List.getElem?_eq_some_iff.1 found).1
  rw [Store.get?, ← hnew, List.getElem?_append_left inside]
  exact found

end Session.Grows

/-- A session grows by one wrapper more. -/
theorem within_grows_addWrapper (w : Wrapper) : (addWrapper w).Within Session.Grows :=
  fun _ => ⟨rfl, rfl, List.prefix_append _ _⟩

/-- Making a wrapper lets a session grow. -/
theorem within_grows_makeWrapper (record : Record) :
    (makeWrapper record).Within Session.Grows := by
  refine within_current.bind fun s => ?_
  refine (within_ofResult _).bind fun w => ?_
  split
  · exact (within_tell _).bind fun _ => within_grows_addWrapper w
  · exact within_grows_addWrapper w

/-- Evaluation only makes the session grow, be it that it fails. -/
theorem within_grows_evaluate (files : Files) (e : Expr) :
    (evaluate files e).Within Session.Grows :=
  within_evaluate (within_call within_grows_makeWrapper) files e

/-! ## Statements that fail -/

/-- If an action fails, it leaves a session that is related to the one before. -/
def Action.FailsWithin {α : Type} (R : Session → Session → Prop) (x : Action α) : Prop :=
  ∀ s failure, (x s).value = .error failure → R s (x s).session

section FailsWithin

variable {α β : Type} {R : Session → Session → Prop}

/-- What stays within a relation does so when it fails. -/
theorem Action.Within.failsWithin {x : Action α} (h : x.Within R) : x.FailsWithin R :=
  fun s _ _ => h s

/-- Failures in other words keep what a failing action stays within. -/
theorem Action.FailsWithin.mapFailure {x : Action α} (h : x.FailsWithin R)
    (f : Failure → Failure) : (x.mapFailure f).FailsWithin R := by
  intro s failure hfail
  cases hx : (x s).value with
  | ok a =>
    rw [Action.mapFailure, hx] at hfail
    cases hfail
  | error inner => exact h s inner hx

/-- A change at the end of a sequence does not matter to a failure before it. -/
theorem Action.Within.bind_failsWithin [IsPreorder Session R] {x : Action α} {f : α → Action β}
    (hx : x.Within R) (hf : ∀ a, (f a).FailsWithin R) : (x >>= f).FailsWithin R := by
  intro s failure hfail
  -- The failure is that of the second part, or the first part was all there is.
  cases h : (x s).value with
  | ok a =>
    rw [bind_of_ok h] at hfail ⊢
    exact trans_of R (hx s) (hf a _ failure hfail)
  | error inner =>
    rw [bind_of_error h]
    exact hx s

end FailsWithin

section Statements

variable {R : Session → Session → Prop} [IsPreorder Session R]

/-- What is refused to be written is not written. -/
theorem failsWithin_writeAttribute (value : Value) (attr : Text) (new : Value) :
    (value.writeAttribute attr new).FailsWithin R := by
  intro s failure hfail
  rcases writeAttribute_cases value attr new s with
    ⟨_, refused⟩ | ⟨handle, w, w', -, -, -, written⟩
  · rw [refused]
    exact refl_of R s
  · rw [written] at hfail
    cases hfail

/-- All that a failing statement has done to a session is to call constructors. -/
theorem failsWithin_perform (call : CallsWithin R) (files : Files) (statement : Statement) :
    (Session.perform files statement).FailsWithin R := by
  -- Each statement evaluates first; what it does after that fails only if it does nothing.
  cases statement with
  | assign target value spot =>
    refine (within_evaluate call files value).bind_failsWithin fun new => ?_
    intro t failure hfail
    cases hfail
  | write target attr value spot =>
    refine (within_evaluate call files target).bind_failsWithin fun base => ?_
    refine (within_evaluate call files value).bind_failsWithin fun new => ?_
    exact failsWithin_writeAttribute base attr new
  | bare value spot =>
    exact ((within_evaluate call files value).bind fun _ => within_pure ()).failsWithin

/-- A failing statement stays within what calls stay within: nothing is bound and nothing written.
-/
theorem failsWithin_execute_of_calls (call : CallsWithin R) (files : Files)
    (statement : Statement) : (Session.execute files statement).FailsWithin R :=
  (within_tell _).bind_failsWithin fun _ =>
    (failsWithin_perform call files statement).mapFailure _

end Statements

/-- A statement that fails only makes the session grow. -/
theorem failsWithin_execute (files : Files) (statement : Statement) :
    (Session.execute files statement).FailsWithin Session.Grows :=
  failsWithin_execute_of_calls (within_call within_grows_makeWrapper) files statement

/-! ## Scripts -/

/-- Statements that succeed one after the other, from one session to another. -/
inductive Executed (files : Files) : Session → List Statement → Session → Prop
  /-- No statements. -/
  | nil {s : Session} : Executed files s [] s
  /-- A statement that succeeds, and others after it. -/
  | cons {s t : Session} {statement : Statement} {rest : List Statement}
      (succeeds : (Session.execute files statement s).value = .ok ())
      (others : Executed files (Session.execute files statement s).session rest t) :
      Executed files s (statement :: rest) t

/-- Statements are executed by executing the first and then the others. -/
theorem executeAll_cons (files : Files) (statement : Statement) (rest : List Statement) :
    Session.executeAll files (statement :: rest) =
      Session.execute files statement >>= fun _ => Session.executeAll files rest := rfl

namespace Executed

variable {files : Files} {s t : Session} {statement : Statement} {pre : List Statement}
  {failure : Failure}

/-- Statements succeed one after the other exactly if executing all of them succeeds. -/
theorem iff_executeAll {statements : List Statement} :
    Executed files s statements t ↔
      (Session.executeAll files statements s).value = .ok () ∧
        (Session.executeAll files statements s).session = t := by
  constructor
  · intro h
    induction h with
    | nil => exact ⟨rfl, rfl⟩
    | cons succeeds others ih =>
      rw [executeAll_cons, bind_of_ok succeeds]
      exact ih
  · rintro ⟨hvalue, rfl⟩
    induction statements generalizing s with
    | nil => exact .nil
    | cons statement rest ih =>
      rw [executeAll_cons] at hvalue ⊢
      obtain ⟨_, succeeds, hrest⟩ := value_bind_eq_ok_iff.1 hvalue
      rw [session_bind_of_ok succeeds]
      exact .cons succeeds (ih hrest)

/-- A script ends with the first statement that fails, whatever comes after it. -/
theorem executeAll_of_fails (h : Executed files s pre t)
    (fails : (Session.execute files statement t).value = .error failure)
    (rest : List Statement) :
    Session.executeAll files (pre ++ statement :: rest) s =
      ⟨(Session.executeAll files pre s).events ++ (Session.execute files statement t).events,
        (Session.execute files statement t).session, .error failure⟩ := by
  induction h with
  | nil => rw [List.nil_append, executeAll_cons, bind_of_error fails]; rfl
  | cons succeeds others ih =>
    rw [List.cons_append, executeAll_cons, bind_of_ok succeeds, ih fails, executeAll_cons,
      bind_of_ok succeeds, List.append_assoc]

/-- A script has only one first statement that fails. -/
theorem pre_unique {pre' post post' : List Statement} {statement' : Statement} {t' : Session}
    {failure' : Failure} (h : Executed files s pre t) (h' : Executed files s pre' t')
    (fails : (Session.execute files statement t).value = .error failure)
    (fails' : (Session.execute files statement' t').value = .error failure')
    (same : pre ++ statement :: post = pre' ++ statement' :: post') : pre = pre' := by
  -- Were one shorter, its failing statement would be among those of the other that succeed.
  induction h generalizing pre' with
  | nil =>
    cases h' with
    | nil => rfl
    | cons succeeds others =>
      obtain ⟨rfl, -⟩ := List.cons.inj same
      rw [fails] at succeeds
      cases succeeds
  | cons succeeds others ih =>
    cases h' with
    | nil =>
      obtain ⟨rfl, -⟩ := List.cons.inj same
      rw [fails'] at succeeds
      cases succeeds
    | cons succeeds' others' =>
      obtain ⟨rfl, same'⟩ := List.cons.inj same
      rw [ih others' fails same']

end Executed

/-- Executing statements ends with all of them executed, or at the first that fails. -/
theorem executed_or_exists_fails (files : Files) (s : Session) (statements : List Statement) :
    (∃ t, Executed files s statements t) ∨
      ∃ pre statement post t failure, statements = pre ++ statement :: post ∧
        Executed files s pre t ∧
        (Session.execute files statement t).value = .error failure := by
  -- The session is general, for the statements after the first start from another one.
  induction statements generalizing s with
  | nil => exact Or.inl ⟨s, .nil⟩
  | cons statement rest ih =>
    cases h : (Session.execute files statement s).value with
    | error failure => exact Or.inr ⟨[], statement, rest, s, failure, rfl, .nil, h⟩
    | ok _ =>
      rcases ih (Session.execute files statement s).session with
        ⟨t, others⟩ | ⟨pre, failing, post, t, failure, rfl, others, fails⟩
      · exact Or.inl ⟨t, .cons h others⟩
      · exact Or.inr ⟨statement :: pre, failing, post, t, failure, rfl, .cons h others, fails⟩

/-- **A script is executed as far as it succeeds.** A script that cannot be read changes nothing.
One that can be read is executed completely, or exactly up to one statement that fails: the session
is then the one that the statements before it made, the failing statement having at most put
wrappers into it that nothing refers to, and the statements after it have no part in what
happens. -/
theorem run_executes_prefix [CharacterNames] (files : Files) (s : Session) (source : Text) :
    (∀ fault, Script.parse source = .error fault →
      (s.run files source).value = .error fault.failure ∧ (s.run files source).session = s) ∧
    (∀ statements, Script.parse source = .ok statements →
      (∃ t, Executed files s statements t ∧ (s.run files source).value = .ok () ∧
        (s.run files source).session = t) ∨
      ∃ pre statement post t failure, statements = pre ++ statement :: post ∧
        Executed files s pre t ∧
        (Session.execute files statement t).value = .error failure ∧
        (s.run files source).value = .error failure ∧
        t.Grows (s.run files source).session ∧
        (∀ rest, Session.executeAll files (pre ++ statement :: rest) s = s.run files source) ∧
        ∀ pre' statement' post' t' failure', statements = pre' ++ statement' :: post' →
          Executed files s pre' t' →
          (Session.execute files statement' t').value = .error failure' → pre' = pre) := by
  constructor
  · intro fault hparse
    rw [Session.run, hparse]
    exact ⟨rfl, rfl⟩
  · intro statements hparse
    have hrun : s.run files source = Session.executeAll files statements s := by
      rw [Session.run, hparse]
    rcases executed_or_exists_fails files s statements with
      ⟨t, executed⟩ | ⟨pre, statement, post, t, failure, rfl, executed, fails⟩
    · refine Or.inl ⟨t, executed, ?_⟩
      rw [hrun]
      exact Executed.iff_executeAll.1 executed
    -- Where the first statement fails the run ends, whatever stands behind it.
    · have ending := executed.executeAll_of_fails fails
      refine Or.inr ⟨pre, statement, post, t, failure, rfl, executed, fails, ?_, ?_, ?_, ?_⟩
      · rw [hrun, ending]
      · rw [hrun, ending]
        exact failsWithin_execute files statement t failure fails
      · intro rest
        rw [hrun, ending, ending]
      · intro pre' statement' post' t' failure' same executed' fails'
        exact executed'.pre_unique executed fails' fails same.symm

end Packaging
