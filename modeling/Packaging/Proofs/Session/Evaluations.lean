import Packaging.Proofs.Script.Assignments
import Packaging.Proofs.Session.Atomicity

/-! # Evaluating and assigning
Where an expression stands matters to nothing but the spot that a failure tells. So the value that
an expression has by itself is the one that an assignment binds, and if there is none the assignment
fails in the same way. Evaluating an expression by itself only ever adds wrappers. -/

namespace Packaging

open Packaging.Action
open Script (Expr Statement)

/-! ## Failures but for their spot -/

/-- A kind of diagnostic without the spot in the script. -/
def Diagnostic.Kind.unplaced : Diagnostic.Kind → Diagnostic.Kind
  | script _ _ => script none none
  | kind => kind

/-- A fault without the spot in the script. -/
def Fault.unplaced : Fault → Fault
  | diagnostic d => diagnostic { d with kind := d.kind.unplaced }
  | fault => fault

/-- A failure without the spot in the script. -/
def Failure.unplaced (failure : Failure) : Failure :=
  { failure with fault := failure.fault.unplaced }

/-- What is reported of a failure at a statement is, but for spots, decided by the failure but for
its spot. -/
theorem Failure.unplaced_inScript (label : Text) (spot spot' : Spot) (failure : Failure) :
    (failure.inScript label spot).unplaced = (failure.unplaced.inScript label spot').unplaced := by
  obtain ⟨fault, cause⟩ := failure
  cases fault with
  | diagnostic d =>
    obtain ⟨kind, reasonCode, message, label, typeName, attrName⟩ := d
    cases kind with
    | _ => rfl
  | _ => rfl

/-- Failures that agree but for their spots agree so as failures of a script. -/
theorem Failure.unplaced_inScript_congr {failure failure' : Failure}
    (same : failure.unplaced = failure'.unplaced) (label : Text) (spot spot' : Spot) :
    (failure.inScript label spot).unplaced = (failure'.inScript label spot').unplaced := by
  rw [unplaced_inScript label spot spot', same, ← unplaced_inScript label spot' spot']

/-! ## Actions but for spots -/

section Actions

variable {α β : Type} (f : Failure → Failure)

/-- The failures of a sequence are those of its parts. -/
theorem Action.mapFailure_bind (x : Action α) (next : α → Action β) :
    (x >>= next).mapFailure f = x.mapFailure f >>= fun a => (next a).mapFailure f := by
  funext s
  rw [mapFailure]
  cases h : (x s).value with
  | ok a =>
    have first : (x.mapFailure f s).value = .ok a := by
      show (x s).value.mapError f = _
      rw [h]
      rfl
    rw [bind_of_ok h, bind_of_ok first]
    rfl
  | error failure =>
    have first : (x.mapFailure f s).value = .error (f failure) := by
      show (x s).value.mapError f = _
      rw [h]
      rfl
    rw [bind_of_error h, bind_of_error first]
    rfl

end Actions

/-! ## Expressions elsewhere -/

section Elsewhere

variable (g : Spot → Spot) (files : Files)

/-- To look a name up fails in the same way wherever the name stands. -/
theorem lookUp_unplaced (ident : Text) (spot spot' : Spot) :
    (lookUp ident spot).mapFailure Failure.unplaced =
      (lookUp ident spot').mapFailure Failure.unplaced := by
  rw [lookUp, lookUp, mapFailure_bind, mapFailure_bind]
  congr 1
  funext s
  cases Bindings.get? s.globals ident with
  | none => rfl
  | some value => rfl

mutual

/-- **Spots do not matter to evaluation.** An expression that stands elsewhere does the same, has
the same value, or fails in the same way but for the spot that is told. -/
theorem evaluate_relocate (e : Expr) :
    (evaluate files (e.relocate g)).mapFailure Failure.unplaced =
      (evaluate files e).mapFailure Failure.unplaced := by
  cases e with
  | literal value spot => rw [Expr.relocate, evaluate, evaluate]
  | name ident spot =>
    rw [Expr.relocate, evaluate, evaluate]
    exact lookUp_unplaced ident (g spot) spot
  | member base attr spot =>
    rw [Expr.relocate, evaluate, evaluate, mapFailure_bind, mapFailure_bind,
      evaluate_relocate base]
  | call func args keywords spot =>
    rw [Expr.relocate, evaluate, evaluate]
    cases Kind.ofConstructorName? func with
    | none => rfl
    | some k =>
      simp only [mapFailure_bind]
      rw [evaluateAll_relocate args, evaluateNamed_relocate keywords]
termination_by structural e

/-- Expressions elsewhere come to the same, but for the spots of failures. -/
theorem evaluateAll_relocate (es : List Expr) :
    (evaluateAll files (Expr.relocateAll g es)).mapFailure Failure.unplaced =
      (evaluateAll files es).mapFailure Failure.unplaced := by
  cases es with
  | nil => rw [Expr.relocateAll]
  | cons e es =>
    rw [Expr.relocateAll, evaluateAll, evaluateAll]
    simp only [mapFailure_bind]
    rw [evaluate_relocate e, evaluateAll_relocate es]
termination_by structural es

/-- Named expressions elsewhere come to the same, but for the spots of failures. -/
theorem evaluateNamed_relocate (es : List (Text × Expr)) :
    (evaluateNamed files (Expr.relocateNamed g es)).mapFailure Failure.unplaced =
      (evaluateNamed files es).mapFailure Failure.unplaced := by
  cases es with
  | nil => rw [Expr.relocateNamed]
  | cons e es =>
    obtain ⟨name, e⟩ := e
    rw [Expr.relocateNamed, evaluateNamed, evaluateNamed]
    simp only [mapFailure_bind]
    rw [evaluate_relocate e, evaluateNamed_relocate es]
termination_by structural es

end

/-- An expression that stands elsewhere leaves the same session. -/
theorem session_evaluate_relocate (e : Expr) (s : Session) :
    (evaluate files (e.relocate g) s).session = (evaluate files e s).session := by
  have same := congrArg Effect.session (congrFun (evaluate_relocate g files e) s)
  exact same

/-- An expression that stands elsewhere has the same value. -/
theorem value_evaluate_relocate_of_ok {e : Expr} {s : Session} {value : Value}
    (h : (evaluate files e s).value = .ok value) :
    (evaluate files (e.relocate g) s).value = .ok value := by
  have same := congrArg Effect.value (congrFun (evaluate_relocate g files e) s)
  simp only [Action.mapFailure, h] at same
  exact Except.mapError_eq_ok_iff.1 same

/-- An expression that stands elsewhere fails in the same way but for spots. -/
theorem value_evaluate_relocate_of_error {e : Expr} {s : Session} {failure : Failure}
    (h : (evaluate files e s).value = .error failure) :
    ∃ failure', (evaluate files (e.relocate g) s).value = .error failure' ∧
      failure'.unplaced = failure.unplaced := by
  have same := congrArg Effect.value (congrFun (evaluate_relocate g files e) s)
  simp only [Action.mapFailure, h] at same
  obtain ⟨failure', h', unplaced⟩ := Except.mapError_eq_error_iff.1 same
  exact ⟨failure', h', unplaced.symm⟩

end Elsewhere

/-- An expression elsewhere has the same label. -/
theorem Script.Expr.label_relocate (g : Spot → Spot) (e : Expr) :
    (e.relocate g).label = e.label := by
  cases e with
  | _ => rw [Expr.relocate]; rfl

/-! ## Assignments -/

section Assignments

variable {files : Files} {s : Session} (target : Text) {value : Expr} (spot : Spot)

/-- To execute one statement is to execute it. -/
theorem executeAll_singleton (files : Files) (statement : Statement) :
    Session.executeAll files [statement] = Session.execute files statement := by
  rw [executeAll_cons]
  exact bind_pure_unit

/-- An assignment whose value can be had binds the target to it. -/
theorem execute_assign_of_ok {new : Value} (h : (evaluate files value s).value = .ok new) :
    (Session.execute files (.assign target value spot) s).value = .ok () ∧
      (Session.execute files (.assign target value spot) s).session =
        { (evaluate files value s).session with
          globals := (evaluate files value s).session.globals.set target new } := by
  have performed : (Session.perform files (.assign target value spot) s).value = .ok () := by
    rw [Session.perform, value_bind_of_ok h]
    rfl
  refine ⟨Except.mapError_eq_ok_iff.2 performed, ?_⟩
  show (Session.perform files (.assign target value spot) s).session = _
  rw [Session.perform, session_bind_of_ok h]
  rfl

/-- An assignment whose value cannot be had does nothing more than to report why. -/
theorem execute_assign_of_error {failure : Failure}
    (h : (evaluate files value s).value = .error failure) :
    (Session.execute files (.assign target value spot) s).value =
        .error (failure.inScript value.label spot) ∧
      (Session.execute files (.assign target value spot) s).session =
        (evaluate files value s).session := by
  have performed : Session.perform files (.assign target value spot) s =
      ⟨(evaluate files value s).events, (evaluate files value s).session, .error failure⟩ := by
    rw [Session.perform, bind_of_error h]
  constructor
  · show (Session.perform files (.assign target value spot) s).value.mapError _ = _
    rw [performed]
    rfl
  · show (Session.perform files (.assign target value spot) s).session = _
    rw [performed]

end Assignments

/-! ## An expression by itself and as a value -/

/-- Whether a failure reports a syntax error. -/
def Failure.IsSyntaxError (failure : Failure) : Prop :=
  ∃ excerpt spot, failure = Script.syntaxError excerpt spot

/-- Whether two failures are both syntax errors, or the same but for the spot that they tell. -/
def Failure.Agrees (failure failure' : Failure) : Prop :=
  (failure.IsSyntaxError ∧ failure'.IsSyntaxError) ∨ failure.unplaced = failure'.unplaced

/-- A violation is reported in the same way wherever it is. -/
theorem Script.unplaced_violation_relocate (g : Spot → Spot) (v : Script.Violation) :
    (Script.SourceFault.violation (v.relocate g)).failure.unplaced =
      (Script.SourceFault.violation v).failure.unplaced := by
  cases v with
  | _ => rfl

section Agreement

variable (files : Files) (s : Session) {target source : Text}

variable [CharacterNames]

/-- What an assignment does when its value is an expression. -/
theorem run_assignment_of_parse (isName : Script.IsName target) (inLine : Script.InLine source)
    {e : Expr} (h : Script.parseExpr source = .ok e) :
    s.run files (Script.assignment target source) =
      Session.execute files (.assign target
        (e.relocate (Spot.rightward (Script.assignmentStart target).length)) ⟨1, 1⟩) s := by
  rw [Session.run, Script.parse_assignment_of_ok isName inLine h]
  exact congrFun (executeAll_singleton files _) s

/-- What is no expression is no value either, for the same reason. -/
theorem run_assignment_of_fault (isName : Script.IsName target) (inLine : Script.InLine source)
    {fault : Script.SourceFault} (h : Script.parseExpr source = .error fault) :
    ∃ failure, s.run files (Script.assignment target source) = ⟨[], s, .error failure⟩ ∧
      failure.Agrees fault.failure := by
  cases fault with
  | unexpected excerpt spot =>
    obtain ⟨excerpt', spot', h'⟩ := Script.parse_assignment_of_unexpected isName inLine h
    refine ⟨_, ?_, Or.inl ⟨⟨excerpt', spot', rfl⟩, ⟨excerpt, spot, rfl⟩⟩⟩
    rw [Session.run, h']
    rfl
  | violation v =>
    rw [Session.run, Script.parse_assignment_of_violation isName inLine h]
    exact ⟨_, rfl, Or.inr (Script.unplaced_violation_relocate _ v)⟩

/-- An expression by itself and its assignment both succeed, or they both fail. -/
theorem eval_and_run_assignment (isName : Script.IsName target)
    (inLine : Script.InLine source) :
    (∃ value, (s.eval files source).value = .ok value ∧
      (s.run files (Script.assignment target source)).value = .ok () ∧
      (s.run files (Script.assignment target source)).session =
        { (s.eval files source).session with
          globals := (s.eval files source).session.globals.set target value }) ∨
    ∃ failure failure', (s.eval files source).value = .error failure ∧
      (s.run files (Script.assignment target source)).value = .error failure' ∧
      (s.run files (Script.assignment target source)).session = (s.eval files source).session ∧
      failure'.Agrees failure := by
  cases h : Script.parseExpr source with
  | error fault =>
    obtain ⟨failure, run, agrees⟩ := run_assignment_of_fault files s isName inLine h
    rw [run, Session.eval, h]
    exact Or.inr ⟨fault.failure, failure, rfl, rfl, rfl, agrees⟩
  | ok e =>
    have alone : s.eval files source =
        (evaluate files e).mapFailure (Failure.inScript e.label e.spot) s := by
      rw [Session.eval, h]
    rw [run_assignment_of_parse files s isName inLine h, alone]
    -- In the assignment the expression stands further to the right, which only its spots show.
    generalize Spot.rightward (Script.assignmentStart target).length = g
    have same := session_evaluate_relocate g files e s
    cases hvalue : (evaluate files e s).value with
    | ok value =>
      obtain ⟨succeeds, bound⟩ := execute_assign_of_ok target ⟨1, 1⟩
        (value_evaluate_relocate_of_ok g files hvalue)
      rw [same] at bound
      exact Or.inl ⟨value, Except.mapError_eq_ok_iff.2 hvalue, succeeds, bound⟩
    | error failure =>
      obtain ⟨failure', hfailure', agree⟩ := value_evaluate_relocate_of_error g files hvalue
      obtain ⟨fails, left⟩ := execute_assign_of_error target ⟨1, 1⟩ hfailure'
      rw [same] at left
      rw [Script.Expr.label_relocate] at fails
      exact Or.inr ⟨_, _, Except.mapError_eq_error_iff.2 ⟨failure, hvalue, rfl⟩, fails, left,
        Or.inr (Failure.unplaced_inScript_congr agree _ _ _)⟩

/-- **Evaluating and assigning agree.** An expression in one line has a value by itself exactly if
its assignment to a name succeeds; the name is then bound to that value, and everything else is as
after evaluating, wrappers and their contexts included. Otherwise both are syntax errors, or both
fail with the same kind of failure, reason, message, label, type, attribute and cause, and leave the
same session. Evaluating any text by itself keeps the policy, all names and all wrappers. -/
theorem eval_agrees_with_assignment (isName : Script.IsName target)
    (inLine : Script.InLine source) :
    ((∃ value, (s.eval files source).value = .ok value) ↔
      (s.run files (Script.assignment target source)).value = .ok ()) ∧
    (∀ value, (s.eval files source).value = .ok value →
      (s.run files (Script.assignment target source)).session =
        { (s.eval files source).session with globals := s.globals.set target value }) ∧
    (∀ failure, (s.eval files source).value = .error failure →
      ∃ failure', (s.run files (Script.assignment target source)).value = .error failure' ∧
        (s.run files (Script.assignment target source)).session =
          (s.eval files source).session ∧
        failure'.Agrees failure) ∧
    ∀ text, s.Grows (s.eval files text).session := by
  have grows (text : Text) : s.Grows (s.eval files text).session :=
    within_eval (within_call within_grows_makeWrapper) files s text
  -- Both succeed or both fail; each part is read off the case that it is about.
  rcases eval_and_run_assignment files s isName inLine with
    ⟨value, hvalue, succeeds, bound⟩ | ⟨failure, failure', hfailure, fails, left, agrees⟩
  · refine ⟨⟨fun _ => succeeds, fun _ => ⟨value, hvalue⟩⟩, ?_, ?_, grows⟩
    · intro other hother
      obtain rfl := Except.ok.inj (hvalue.symm.trans hother)
      rw [bound, (grows source).globals]
    · intro failure hfailure
      cases hvalue.symm.trans hfailure
  · refine ⟨⟨?_, fun succeeds => ?_⟩, ?_, ?_, grows⟩
    · rintro ⟨value, hvalue⟩
      cases hfailure.symm.trans hvalue
    · cases fails.symm.trans succeeds
    · intro value hvalue
      cases hfailure.symm.trans hvalue
    · intro other hother
      obtain rfl := Except.error.inj (hfailure.symm.trans hother)
      exact ⟨failure', fails, left, agrees⟩

end Agreement

section

open scoped CharacterNames.Unlisted

/-- A name without a value is refused in the same way by itself and in an assignment. -/
theorem eval_agrees_with_assignment_unknown :
    let files : Files := fun _ => .error .nullInPath
    let s : Session := {}
    Script.IsName "x" ∧ Script.InLine "y" ∧
      ((∃ value, (s.eval files "y").value = .ok value) ↔
        (s.run files (Script.assignment "x" "y")).value = .ok ()) ∧
      (∀ value, (s.eval files "y").value = .ok value →
        (s.run files (Script.assignment "x" "y")).session =
          { (s.eval files "y").session with globals := s.globals.set "x" value }) ∧
      (∀ failure, (s.eval files "y").value = .error failure →
        ∃ failure', (s.run files (Script.assignment "x" "y")).value = .error failure' ∧
          (s.run files (Script.assignment "x" "y")).session = (s.eval files "y").session ∧
          failure'.Agrees failure) ∧
      ∀ text, s.Grows (s.eval files text).session := by
  have isName : Script.IsName "x" := ⟨.word rfl nofun, by decide⟩
  have inLine : Script.InLine "y" := ⟨by decide, by decide⟩
  exact ⟨isName, inLine, eval_agrees_with_assignment _ _ isName inLine⟩

end

end Packaging
