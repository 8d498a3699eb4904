import Packaging.Proofs.Bindings
import Packaging.Proofs.Contexts
import Packaging.Proofs.Session.Statements

/-! # What scripts leave alone
A script changes only what it names. It binds only the targets of its assignments, and it writes
only to wrappers that one of its variables referred to at the start or that it has made itself;
names may be bound anew and wrappers may have many names while it runs. Records and the policy it
never changes. -/

namespace Packaging

open Packaging.Action
open Script (Expr Statement)

/-! ## The names in a script -/

namespace Script

mutual

/-- The names that occur in an expression as variables. -/
def Expr.usedNames : Expr → List Text
  | .literal _ _ => []
  | .name ident _ => [ident]
  | .member base _ _ => base.usedNames
  | .call _ args keywords _ => Expr.usedNamesOfAll args ++ Expr.usedNamesOfNamed keywords

/-- The names that occur in some expressions as variables. -/
def Expr.usedNamesOfAll : List Expr → List Text
  | [] => []
  | e :: es => e.usedNames ++ Expr.usedNamesOfAll es

/-- The names that occur in some named expressions as variables. -/
def Expr.usedNamesOfNamed : List (Text × Expr) → List Text
  | [] => []
  | (_, e) :: es => e.usedNames ++ Expr.usedNamesOfNamed es

end

/-- The names that occur in a statement as variables. -/
def Statement.usedNames : Statement → List Text
  | assign _ value _ => value.usedNames
  | write target _ value _ => target.usedNames ++ value.usedNames
  | bare value _ => value.usedNames

/-- The name that a statement assigns to. -/
def Statement.target? : Statement → Option Text
  | assign target _ _ => some target
  | _ => none

end Script

/-- The names of a session, in order. -/
def Session.names (s : Session) : List Text := s.globals.map (·.1)

/-- Those of some names that are not among others, in the order in which each comes first. -/
def newNames (old names : List Text) : List Text := (names.filter (· ∉ old)).eraseDups

/-- No names, no new ones. -/
theorem newNames_nil (old : List Text) : newNames old [] = [] := rfl

/-- A name that is not new adds nothing. -/
theorem newNames_cons_of_mem {old : List Text} {name : Text} (h : name ∈ old)
    (names : List Text) : newNames old (name :: names) = newNames old names := by
  rw [newNames, List.filter_cons_of_neg (by simpa using h), newNames]

/-- A new name comes first, and is an old one for those behind it. -/
theorem newNames_cons_of_notMem {old : List Text} {name : Text} (h : name ∉ old)
    (names : List Text) :
    newNames old (name :: names) = name :: newNames (old ++ [name]) names := by
  rw [newNames, List.filter_cons_of_pos (by simpa using h), List.eraseDups_cons,
    List.filter_filter, newNames]
  congr 3
  funext other
  have same : (other == name) = decide (other = name) := Bool.eq_iff_iff.2 (by simp)
  simp [same, and_comm]

/-! ## Names -/

section Names

variable {files : Files} {s t : Session}

/-- A statement that succeeds binds the name that it assigns to, if any, and no other. -/
theorem globals_of_execute {statement : Statement}
    (h : (Session.execute files statement s).value = .ok ()) :
    (statement.target? = none ∧
      (Session.execute files statement s).session.globals = s.globals) ∨
    ∃ target new, statement.target? = some target ∧
      (Session.execute files statement s).session.globals = s.globals.set target new := by
  obtain ⟨performs, same⟩ := execute_of_ok h
  rw [same]
  cases statement with
  | assign target value spot =>
    obtain ⟨new, -, session⟩ := perform_assign_of_ok performs
    rw [session, (within_grows_evaluate files value s).globals]
    exact Or.inr ⟨target, new, rfl, rfl⟩
  | write target attr value spot =>
    obtain ⟨handle, new, u, v, w, w', -, rfl, -, rfl, -, -, session⟩ :=
      perform_write_of_ok performs
    rw [session]
    exact Or.inl ⟨rfl, (within_grows_evaluate files value _).globals.trans
      (within_grows_evaluate files target s).globals⟩
  | bare value spot =>
    rw [perform_bare_of_ok performs]
    exact Or.inl ⟨rfl, (within_grows_evaluate files value s).globals⟩

/-- A name that is not assigned to stays bound to what it was bound to. -/
theorem Executed.get?_globals {statements : List Statement} (h : Executed files s statements t)
    {name : Text} (other : ∀ statement ∈ statements, statement.target? ≠ some name) :
    Bindings.get? t.globals name = Bindings.get? s.globals name := by
  induction h with
  | nil => rfl
  | @cons s t statement rest succeeds others ih =>
    rw [ih fun statement h => other statement (List.mem_cons_of_mem _ h)]
    rcases globals_of_execute succeeds with ⟨-, same⟩ | ⟨target, new, assigned, set⟩
    · rw [same]
    · have differs : name ≠ target := by
        rintro rfl
        exact other statement List.mem_cons_self assigned
      rw [set, Bindings.get?_set, if_neg differs]

/-- Names that are assigned to for the first time come last, in the order in which this happens. -/
theorem Executed.names_eq {statements : List Statement} (h : Executed files s statements t) :
    t.names = s.names ++ newNames s.names (statements.filterMap Statement.target?) := by
  induction h with
  | nil => simp [newNames_nil]
  | @cons s t statement rest succeeds others ih =>
    rw [ih]
    rcases globals_of_execute succeeds with ⟨none, same⟩ | ⟨target, new, assigned, set⟩
    · rw [List.filterMap_cons_none none, Session.names, Session.names, same]
    · have names : (Session.execute files statement s).session.names =
          if target ∈ s.names then s.names else s.names ++ [target] := by
        rw [Session.names, set, Bindings.names_set]
        rfl
      rw [List.filterMap_cons_some assigned, names]
      by_cases old : target ∈ s.names
      · rw [if_pos old, newNames_cons_of_mem old]
      · rw [if_neg old, newNames_cons_of_notMem old, List.append_assoc, List.singleton_append]

end Names

/-! ## Wrappers -/

/-- The records of all wrappers, in order. -/
def Store.records (store : Store) : List Record := store.wrappers.map (·.record)

/-- Another context leaves the records as they are. -/
theorem Store.records_set {store : Store} {handle : Handle} {w w' : Wrapper}
    (found : store.get? handle = some w) (record : w'.record = w.record) :
    (store.set handle w').records = store.records := by
  apply List.ext_getElem?
  intro i
  rw [records, records, List.getElem?_map, List.getElem?_map]
  by_cases same : i = handle.index
  · have here := Store.get?_set store handle handle w'
    rw [if_pos rfl, found] at here
    rw [same]
    show ((store.set handle w').get? handle).map _ = (store.get? handle).map _
    rw [here, found, Option.map_some, Option.map_some, Option.map_some, record]
  · rw [Store.set, List.getElem?_set_ne (Ne.symm same)]

/-- Whether a wrapper is one that some variables referred to at the start, or one made since. -/
def Session.Reaches (start : Session) (used : List Text) (handle : Handle) : Prop :=
  (∃ name ∈ used, ∃ other, Bindings.get? start.globals name = some (.wrapper other) ∧
    other.index = handle.index) ∨
  start.store.wrappers.length ≤ handle.index

/-- A session that differs from the one at the start only as scripts with some variables may make it
differ. -/
structure Session.Confined (start : Session) (used : List Text) (s : Session) : Prop where
  /-- The policy is the one at the start. -/
  policy : s.policy = start.policy
  /-- The records at the start are still there. -/
  records : start.store.records <+: s.store.records
  /-- Wrappers that cannot be reached are as they were. -/
  untouched : ∀ handle, ¬ start.Reaches used handle →
    s.store.get? handle = start.store.get? handle
  /-- The variables refer to wrappers that can be reached. -/
  reached : ∀ name ∈ used, ∀ handle,
    Bindings.get? s.globals name = some (.wrapper handle) → start.Reaches used handle

namespace Session.Confined

variable {start s t : Session} {used : List Text}

/-- At the start nothing differs. -/
theorem initial (s : Session) (used : List Text) : s.Confined used s :=
  ⟨rfl, List.prefix_refl _, fun _ _ => rfl,
    fun name occurs handle bound => Or.inl ⟨name, occurs, handle, bound, rfl⟩⟩

/-- No wrapper is lost. -/
theorem length_le (h : start.Confined used s) :
    start.store.wrappers.length ≤ s.store.wrappers.length := by
  have le := h.records.length_le
  rwa [Store.records, Store.records, List.length_map, List.length_map] at le

/-- New wrappers behind the others make no difference to those. -/
theorem grows (h : start.Confined used s) (growth : s.Grows t) :
    start.Confined used t where
  policy := growth.policy.trans h.policy
  records := h.records.trans (growth.wrappers.map fun w : Wrapper => w.record)
  untouched handle unreached := by
    have inside : handle.index < start.store.wrappers.length := by
      by_contra fresh
      exact unreached (Or.inr (Nat.le_of_not_lt fresh))
    have found : start.store.get? handle = some start.store.wrappers[handle.index] :=
      List.getElem?_eq_getElem inside
    have same := h.untouched handle unreached
    rw [found] at same ⊢
    exact growth.get?_store same
  reached name occurs handle bound := by
    rw [growth.globals] at bound
    exact h.reached name occurs handle bound

/-- What an expression refers to can be reached. -/
theorem reaches_of_evaluate (h : start.Confined used s) {files : Files} {e : Expr}
    (sub : e.usedNames ⊆ used) {handle : Handle}
    (evaluated : (evaluate files e s).value = .ok (.wrapper handle)) :
    start.Reaches used handle := by
  rcases wrapper_of_evaluate evaluated with ⟨ident, spot, rfl, bound⟩ | fresh
  · rw [Expr.usedNames] at sub
    exact h.reached ident (sub List.mem_cons_self) handle bound
  · exact Or.inr (Nat.le_trans h.length_le fresh)

/-- A name may be bound to what can be reached. -/
theorem bind (h : start.Confined used s) (target : Text) {value : Value}
    (reaches : ∀ handle, value = .wrapper handle → start.Reaches used handle) :
    start.Confined used { s with globals := s.globals.set target value } := by
  refine ⟨h.policy, h.records, h.untouched, ?_⟩
  intro name occurs handle bound
  dsimp only at bound
  rw [Bindings.get?_set] at bound
  by_cases same : name = target
  · rw [if_pos same] at bound
    exact reaches handle (Option.some.inj bound)
  · rw [if_neg same] at bound
    exact h.reached name occurs handle bound

/-- What can be reached depends on where a handle points and not on its view. -/
theorem reaches_of_index {handle other : Handle} (same : other.index = handle.index)
    (reaches : start.Reaches used handle) : start.Reaches used other := by
  rw [Reaches, same]
  exact reaches

/-- A wrapper that can be reached may get another context. -/
theorem set (h : start.Confined used s) {handle : Handle} {w w' : Wrapper}
    (reaches : start.Reaches used handle) (found : s.store.get? handle = some w)
    (record : w'.record = w.record) :
    start.Confined used { s with store := s.store.set handle w' } := by
  refine ⟨h.policy, ?_, ?_, h.reached⟩
  · show start.store.records <+: (s.store.set handle w').records
    rw [Store.records_set found record]
    exact h.records
  · intro other unreached
    have differs : other.index ≠ handle.index := by
      intro same
      exact unreached (reaches_of_index same reaches)
    rw [Store.get?_set, if_neg differs]
    exact h.untouched other unreached

/-! ### Statements -/

/-- A statement whose variables are among those given keeps to what can be reached. -/
theorem execute (h : start.Confined used s) (files : Files) {statement : Statement}
    (sub : statement.usedNames ⊆ used) :
    start.Confined used (Session.execute files statement s).session := by
  have evaluated (e : Expr) (u : Session) (hu : start.Confined used u) :
      start.Confined used (evaluate files e u).session :=
    hu.grows (within_grows_evaluate files e u)
  cases succeeds : (Session.execute files statement s).value with
  | error failure => exact h.grows (failsWithin_execute files statement s failure succeeds)
  | ok _ =>
    obtain ⟨performs, same⟩ := execute_of_ok succeeds
    rw [same]
    cases statement with
    | assign target value spot =>
      obtain ⟨new, hnew, session⟩ := perform_assign_of_ok performs
      rw [session]
      refine (evaluated value s h).bind target ?_
      rintro handle rfl
      exact h.reaches_of_evaluate sub hnew
    | write target attr value spot =>
      obtain ⟨handle, new, u, v, w, w', htarget, rfl, -, rfl, found, hset, session⟩ :=
        perform_write_of_ok performs
      -- Only the context of the wrapper changes, not its record.
      obtain ⟨-, a, c, c', -, -, -, rfl⟩ := Wrapper.set_eq_ok_iff.1 hset
      rw [Statement.usedNames, List.append_subset] at sub
      rw [session]
      exact (evaluated value _ (evaluated target s h)).set (h.reaches_of_evaluate sub.1 htarget)
        found rfl
    | bare value spot =>
      rw [perform_bare_of_ok performs]
      exact evaluated value s h

/-- So do statements one after the other, up to the first that fails. -/
theorem executeAll (h : start.Confined used s) (files : Files) {statements : List Statement}
    (sub : ∀ statement ∈ statements, statement.usedNames ⊆ used) :
    start.Confined used (Session.executeAll files statements s).session := by
  induction statements generalizing s with
  | nil => exact h
  | cons statement rest ih =>
    have first : start.Confined used (Session.execute files statement s).session :=
      h.execute files (sub statement List.mem_cons_self)
    rw [executeAll_cons]
    cases succeeds : (Session.execute files statement s).value with
    | error failure =>
      rw [bind_of_error succeeds]
      exact first
    | ok _ =>
      rw [session_bind_of_ok succeeds]
      exact ih first fun other h => sub other (List.mem_cons_of_mem _ h)

end Session.Confined

/-! ## Scripts -/

/-- A script is executed up to a statement that fails, or to its end; after that the session at most
grows. -/
theorem exists_executed_prefix (files : Files) (s : Session) (statements : List Statement) :
    ∃ done rest t, statements = done ++ rest ∧ Executed files s done t ∧
      (∀ next ∈ rest.head?, (Session.execute files next t).value ≠ .ok ()) ∧
      t.Grows (Session.executeAll files statements s).session := by
  rcases executed_or_exists_fails files s statements with
    ⟨t, executed⟩ | ⟨pre, statement, post, t, failure, rfl, executed, fails⟩
  · refine ⟨statements, [], t, (List.append_nil _).symm, executed, nofun, ?_⟩
    rw [(Executed.iff_executeAll.1 executed).2]
    exact refl_of Session.Grows t
  · refine ⟨pre, statement :: post, t, rfl, executed, ?_, ?_⟩
    · rintro _ ⟨⟩ succeeds
      rw [fails] at succeeds
      cases succeeds
    · rw [executed.executeAll_of_fails fails]
      exact failsWithin_execute files statement t failure fails

/-- **A script changes only what it names.** A script that cannot be read changes nothing. One that
can be read leaves the policy as it is; it leaves every name bound as it is that it does not assign
to; all names keep their places, and those that are new come behind them in the order of the first
assignments that were executed. It leaves every wrapper as it is that none of its variables referred
to at the start. The records of all wrappers that have been there at some point of its execution
stay as they are. -/
theorem run_changes_only_named [CharacterNames] (files : Files) (s : Session) (source : Text) :
    (∀ fault, Script.parse source = .error fault → (s.run files source).session = s) ∧
    ∀ statements, Script.parse source = .ok statements →
      let after := (s.run files source).session
      after.policy = s.policy ∧
      (∀ name, (∀ statement ∈ statements, statement.target? ≠ some name) →
        Bindings.get? after.globals name = Bindings.get? s.globals name) ∧
      (∃ done rest t, statements = done ++ rest ∧ Executed files s done t ∧
        (∀ next ∈ rest.head?, (Session.execute files next t).value ≠ .ok ()) ∧
        after.names = s.names ++ newNames s.names (done.filterMap Statement.target?)) ∧
      (∀ handle w, s.store.get? handle = some w →
        (∀ name ∈ statements.flatMap Statement.usedNames, ∀ other,
          Bindings.get? s.globals name = some (.wrapper other) → other.index ≠ handle.index) →
        after.store.get? handle = some w) ∧
      ∀ pre post t, statements = pre ++ post → Executed files s pre t →
        t.store.records <+: after.store.records := by
  constructor
  · intro fault hparse
    rw [Session.run, hparse]
    rfl
  · intro statements hparse
    have sub (all : List Statement) (statement : Statement) (h : statement ∈ all) :
        statement.usedNames ⊆ all.flatMap Statement.usedNames :=
      fun name used => List.mem_flatMap.2 ⟨statement, h, used⟩
    have kept (all : List Statement) (u : Session) :=
      (Session.Confined.initial u _).executeAll files (sub all)
    dsimp only
    rw [run_of_parse hparse]
    -- The statements in front of the first that fails are all that binds names.
    obtain ⟨done, rest, t, split, executed, fails, growth⟩ :=
      exists_executed_prefix files s statements
    refine ⟨(kept statements s).policy, ?_, ?_, ?_, ?_⟩
    · intro name other
      rw [growth.globals]
      refine executed.get?_globals fun statement h => other statement ?_
      rw [split]
      exact List.mem_append_left rest h
    · refine ⟨done, rest, t, split, executed, fails, ?_⟩
      rw [Session.names, growth.globals]
      exact executed.names_eq
    · intro handle w found unnamed
      rw [(kept statements s).untouched handle ?_, found]
      rintro (⟨name, used, other, bound, same⟩ | fresh)
      · exact unnamed name used other bound same
      · exact absurd (List.getElem?_eq_some_iff.1 found).1 (Nat.not_lt.2 fresh)
    · rintro pre post u rfl before
      rw [before.session_executeAll_append]
      exact (kept post u).records

end Packaging
