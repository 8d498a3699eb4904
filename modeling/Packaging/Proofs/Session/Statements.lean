import Packaging.Proofs.Outcomes
import Packaging.Proofs.Session.Atomicity

/-! # What statements do
What a successful evaluation and a successful statement do to a session, said once for each form. An
expression refers to a wrapper only as a name does, or by a call that has made the wrapper; and a
statement evaluates, and then binds a name, replaces a wrapper, or does nothing more. -/

namespace Packaging

open Packaging.Action
open Script (Expr Statement)

variable {files : Files} {s : Session}

/-! ## Expressions -/

/-- A call puts the wrapper that it makes behind all others. -/
theorem exists_of_call {k : Kind} {positional : List Value} {named : Bindings Value}
    {value : Value} (h : (k.call positional named s).value = .ok value) :
    ∃ w, (k.call positional named s).session = { s with store := (s.store.add w).2 } ∧
      value = .wrapper (s.store.add w).1 := by
  cases hrecord : (k.bindCall positional named).bind k.construct with
  | error fault =>
    rw [Kind.call, hrecord] at h
    cases h
  | ok record =>
    rw [Kind.call, hrecord] at h ⊢
    dsimp only at h ⊢
    cases hadapt : Resource.adapt s.policy (.record record) with
    | error failure =>
      rw [makeWrapper_of_error hadapt] at h
      cases h
    | ok w =>
      obtain ⟨session, made⟩ := makeWrapper_of_ok hadapt
      rw [made] at h
      exact ⟨w, session, (Except.ok.inj h).symm⟩

/-- A call makes a wrapper in a session that has grown by those of its arguments. -/
theorem exists_of_evaluate_call {func : Text} {args : List Expr} {keywords : List (Text × Expr)}
    {spot : Spot} {value : Value}
    (h : (evaluate files (.call func args keywords spot) s).value = .ok value) :
    ∃ u w, s.Grows u ∧
      (evaluate files (.call func args keywords spot) s).session =
        { u with store := (u.store.add w).2 } ∧
      value = .wrapper (u.store.add w).1 := by
  rw [evaluate] at h ⊢
  cases hk : Kind.ofConstructorName? func with
  | none =>
    rw [hk] at h
    cases h
  | some k =>
    rw [hk] at h
    dsimp only at h ⊢
    obtain ⟨positional, hpositional, h⟩ := value_bind_eq_ok_iff.1 h
    obtain ⟨named, hnamed, h⟩ := value_bind_eq_ok_iff.1 h
    rw [session_bind_of_ok hpositional, session_bind_of_ok hnamed]
    obtain ⟨w, session, rfl⟩ := exists_of_call h
    refine ⟨_, w, ?_, session, rfl⟩
    have call := within_call within_grows_makeWrapper
    exact trans_of Session.Grows (within_evaluateAll call files args s)
      (within_evaluateNamed call files keywords _)

/-- A name has the value that it is bound to. -/
theorem value_lookUp_eq_ok_iff {ident : Text} {spot : Spot} {value : Value} :
    (lookUp ident spot s).value = .ok value ↔ Bindings.get? s.globals ident = some value := by
  rw [lookUp, bind_current]
  cases Bindings.get? s.globals ident with
  | none => simp [fail, ofResult]
  | some v => simp [pure_apply]

/-- What is read of an attribute is plain data. -/
theorem exists_of_readAttribute {value v : Value} {attr : Text}
    (h : (value.readAttribute files attr s).value = .ok v) : ∃ data, v = .plain data := by
  rw [Value.readAttribute, bind_current] at h
  cases hw : value.wrapper? s.store with
  | none =>
    rw [hw] at h
    cases h
  | some w =>
    rw [hw] at h
    obtain ⟨data, -, rfl⟩ := Except.map_eq_ok_iff.1 h
    exact ⟨data, rfl⟩

/-- An expression that refers to a wrapper is a name that does, or a call that makes it. -/
theorem wrapper_of_evaluate {e : Expr} {handle : Handle}
    (h : (evaluate files e s).value = .ok (.wrapper handle)) :
    (∃ ident spot, e = .name ident spot ∧
      Bindings.get? s.globals ident = some (.wrapper handle)) ∨
    s.store.wrappers.length ≤ handle.index := by
  cases e with
  | literal data spot =>
    rw [evaluate] at h
    cases h
  | name ident spot =>
    rw [evaluate, value_lookUp_eq_ok_iff] at h
    exact Or.inl ⟨ident, spot, rfl, h⟩
  | member base attr spot =>
    rw [evaluate] at h
    obtain ⟨_, -, h⟩ := value_bind_eq_ok_iff.1 h
    obtain ⟨data, same⟩ := exists_of_readAttribute h
    cases same
  | call func args keywords spot =>
    obtain ⟨u, w, grows, -, same⟩ := exists_of_evaluate_call h
    obtain rfl := Value.wrapper.inj same
    exact Or.inr grows.wrappers.length_le

/-! ## Statements -/

/-- Telling and reporting do not matter to a statement that succeeds. -/
theorem execute_of_ok {statement : Statement}
    (h : (Session.execute files statement s).value = .ok ()) :
    (Session.perform files statement s).value = .ok () ∧
      (Session.execute files statement s).session = (Session.perform files statement s).session :=
  ⟨Except.mapError_eq_ok_iff.1 h, rfl⟩

/-- A successful assignment binds its target to a value. -/
theorem perform_assign_of_ok {target : Text} {value : Expr} {spot : Spot}
    (h : (Session.perform files (.assign target value spot) s).value = .ok ()) :
    ∃ new, (evaluate files value s).value = .ok new ∧
      (Session.perform files (.assign target value spot) s).session =
        { (evaluate files value s).session with
          globals := (evaluate files value s).session.globals.set target new } := by
  rw [Session.perform] at h ⊢
  obtain ⟨new, hvalue, -⟩ := value_bind_eq_ok_iff.1 h
  exact ⟨new, hvalue, session_bind_of_ok hvalue⟩

/-- A successful write replaces one wrapper by one with another context. -/
theorem perform_write_of_ok {target value : Expr} {attr : Text} {spot : Spot}
    (h : (Session.perform files (.write target attr value spot) s).value = .ok ()) :
    ∃ handle new u v w w', (evaluate files target s).value = .ok (.wrapper handle) ∧
      (evaluate files target s).session = u ∧ (evaluate files value u).value = .ok new ∧
      (evaluate files value u).session = v ∧ v.store.get? handle = some w ∧
      w.set attr new = .ok w' ∧
      (Session.perform files (.write target attr value spot) s).session =
        { v with store := v.store.set handle w' } := by
  rw [Session.perform] at h ⊢
  obtain ⟨base, hbase, h⟩ := value_bind_eq_ok_iff.1 h
  obtain ⟨new, hnew, h⟩ := value_bind_eq_ok_iff.1 h
  rw [session_bind_of_ok hbase, session_bind_of_ok hnew]
  rcases writeAttribute_cases base attr new (evaluate files value
    (evaluate files target s).session).session with
    ⟨failure, refused⟩ | ⟨handle, w, w', rfl, found, hset, written⟩
  · rw [refused] at h
    cases h
  · rw [written]
    exact ⟨handle, new, _, _, w, w', hbase, rfl, hnew, rfl, found, hset, rfl⟩

/-- A successful expression does nothing but evaluate. -/
theorem perform_bare_of_ok {value : Expr} {spot : Spot}
    (h : (Session.perform files (.bare value spot) s).value = .ok ()) :
    (Session.perform files (.bare value spot) s).session = (evaluate files value s).session := by
  rw [Session.perform] at h ⊢
  obtain ⟨_, hvalue, -⟩ := value_bind_eq_ok_iff.1 h
  exact session_bind_of_ok hvalue

/-! ## Scripts -/

/-- Statements are executed in order: some and then, if they succeed, the others. -/
theorem executeAll_append (files : Files) (a b : List Statement) :
    Session.executeAll files (a ++ b) =
      Session.executeAll files a >>= fun _ => Session.executeAll files b := by
  induction a with
  | nil => rfl
  | cons statement rest ih =>
    rw [List.cons_append, executeAll_cons, executeAll_cons, ih, bind_assoc]

/-- To run a script that is read is to execute its statements. -/
theorem run_of_parse [CharacterNames] {source : Text} {statements : List Statement}
    (h : Script.parse source = .ok statements) :
    s.run files source = Session.executeAll files statements s := by
  rw [Session.run, h]

/-- What has been executed is behind a script that goes on. -/
theorem Executed.session_executeAll_append {pre : List Statement} {t : Session}
    (h : Executed files s pre t) (post : List Statement) :
    (Session.executeAll files (pre ++ post) s).session =
      (Session.executeAll files post t).session := by
  obtain ⟨succeeds, rfl⟩ := Executed.iff_executeAll.1 h
  rw [executeAll_append, session_bind_of_ok succeeds]

end Packaging
