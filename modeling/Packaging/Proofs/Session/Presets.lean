import Packaging.Proofs.Policy.Schema
import Packaging.Proofs.Session.Frames
import Packaging.Proofs.Session.Reachable

/-! # Presets in the course of a session
The policy of a session can be given presets at any time. Its places are those of the preset that
was accepted last, and its flags stay as they are. A wrapper keeps the context that the policy gave
it when it was made: a preset that comes later does not reach it, and only a write to that very
wrapper, or the removal of its context, changes it. -/

namespace Packaging

open Packaging.Action
open Script (Expr Statement)

/-! ## Presets and places -/

/-- The places of a preset tell which preset it is. -/
theorem Preset.eq_of_places {a b : Preset} (location : a.location = b.location)
    (fallback : a.fallback = b.fallback) : a = b := by
  cases a <;> cases b <;>
    simp_all [Preset.location, Preset.fallback, Placement.inMemory, Placement.none]

/-- Of two presets the second counts. -/
theorem Policy.withPreset_withPreset (p : Policy) (a b : Preset) :
    (p.withPreset a).withPreset b = p.withPreset b := by
  simp only [Policy.withPreset_eq]

/-- A mode is refused exactly if it is the name of no preset. -/
theorem Policy.setMode_eq_error_iff {p : Policy} {mode : Text} :
    p.setMode mode = .error
        (Diagnostic.policyConfig "resource_handling_mode" none (Preset.unknownMessage mode)) ↔
      ∀ preset : Preset, mode ≠ preset.name := by
  rw [setMode]
  cases named : Preset.ofName? mode with
  | some preset => simp [Preset.ofName?_eq_some_iff.1 named]
  | none =>
    refine iff_of_true rfl fun preset same => ?_
    rw [Preset.ofName?_eq_some_iff.2 same] at named
    cases named

/-! ## The policy of a session -/

/-- The preset that a step gives to the policy, if it gives one. -/
def Session.Step.preset? : Session.Step → Option Preset
  | .setMode mode => Preset.ofName? mode
  | _ => none

/-- The last preset that is given to the policy in some steps. -/
def Session.lastPreset? (steps : List Session.Step) : Option Preset :=
  (steps.filterMap Session.Step.preset?).getLast?

section

variable [CharacterNames]

/-- No script changes the policy. -/
theorem Session.policy_run (files : Files) (s : Session) (source : Text) :
    (s.run files source).session.policy = s.policy := by
  rw [Session.run]
  split
  · rfl
  next statements _ =>
    have named (statement : Statement) (h : statement ∈ statements) :
        statement.usedNames ⊆ statements.flatMap Statement.usedNames :=
      fun name used => List.mem_flatMap.2 ⟨statement, h, used⟩
    exact ((Session.Confined.initial s _).executeAll files named).policy

/-- Only a preset changes the policy, and it decides about nothing but the places. -/
theorem Session.policy_after (s : Session) (step : Session.Step) :
    (s.after step).policy = step.preset?.elim s.policy s.policy.withPreset := by
  cases step with
  | run files source => exact Session.policy_run files s source
  | eval files source =>
    exact (within_eval (within_call within_grows_makeWrapper) files s source).policy
  | setMode mode =>
    rw [after, setMode, Policy.setMode, Step.preset?]
    cases Preset.ofName? mode with
    | some preset => rfl
    | none => rfl
  | bind name data => rfl
  | bindResource name resource =>
    rw [after, bindResource]
    cases resource.adapt s.policy with
    | ok w => rfl
    | error failure => rfl
  | dropContext name =>
    rw [after, dropContext]
    repeat' split
    all_goals rfl

/-- What is reached with one step more is one step further on. -/
theorem Session.reached_concat (p : Policy) (steps : List Session.Step) (step : Session.Step) :
    Session.reached p (steps ++ [step]) = (Session.reached p steps).after step := by
  rw [reached, List.foldl_append]
  rfl

/-- The policy is the one at the start with the last preset that it was given. -/
theorem Session.policy_reached (p : Policy) (steps : List Session.Step) :
    (Session.reached p steps).policy = (lastPreset? steps).elim p p.withPreset := by
  -- By induction on the steps from the last one, for that one counts.
  induction steps using List.reverseRecOn with
  | nil => rfl
  | append_singleton steps step ih =>
    rw [reached_concat, policy_after, ih]
    cases given : step.preset? with
    | none =>
      have same : lastPreset? (steps ++ [step]) = lastPreset? steps := by
        simp [lastPreset?, given]
      rw [same]
      rfl
    | some preset =>
      have last : lastPreset? (steps ++ [step]) = some preset := by simp [lastPreset?, given]
      rw [last, Option.elim_some, Option.elim_some]
      cases lastPreset? steps with
      | none => rfl
      | some earlier => exact Policy.withPreset_withPreset p earlier preset

/-! ## Wrappers as a policy makes them -/

/-- Whether a wrapper is as a policy makes it of its record: with exactly the context that the
policy derives, or without one if its kind has no contexts. -/
structure Wrapper.MadeBy (p : Policy) (w : Wrapper) : Prop where
  /-- The context is the one that the policy derives for the record. -/
  context : w.kind.hasContext = true →
    ∃ c, p.derive (.record w.record) = .ok c ∧ w.context = some c
  /-- There is none if the kind has no contexts. -/
  noContext : w.kind.hasContext = false → w.context = none

end

/-- A wrapper that a policy adapts a resource to is made by that policy. -/
theorem Wrapper.madeBy_of_adapt {p : Policy} {r : Resource} {w : Wrapper} (h : r.adapt p = .ok w) :
    w.MadeBy p := by
  obtain ⟨record, rfl, ⟨has, c, derived, rfl⟩ | ⟨hasNot, rfl⟩⟩ := Resource.adapt_eq_ok_iff.1 h
  · exact ⟨fun _ => ⟨c, derived, rfl⟩, fun hasNot => absurd hasNot (by simpa [kind] using has)⟩
  · exact ⟨fun has => absurd has (by simpa [kind] using hasNot), fun _ => rfl⟩

/-- A wrapper that is behind a handle only since one was added is the one that was added. -/
theorem Store.eq_of_get?_add {store : Store} {handle : Handle} {v w : Wrapper}
    (absent : store.get? handle = none) (found : (store.add w).2.get? handle = some v) : v = w := by
  rw [get?, List.getElem?_eq_none_iff] at absent
  rw [get?, add] at found
  dsimp only at found
  rw [List.getElem?_append_right absent] at found
  exact List.mem_singleton.1 (List.mem_of_getElem? found)

/-! ## Sessions that spare a wrapper -/

section Sparing

variable {handle : Handle} {s t : Session}

/-- A session in which a handle refers to what it referred to before, or else to nothing or to a
wrapper that was made since and is as the policy made it. -/
structure Session.Spares (handle : Handle) (s t : Session) : Prop where
  /-- The policy is the same. -/
  policy : t.policy = s.policy
  /-- A wrapper that was there is still there and the same. -/
  kept : ∀ w, s.store.get? handle = some w → t.store.get? handle = some w
  /-- A wrapper that was not there is as the policy makes it. -/
  made : s.store.get? handle = none → ∀ w, t.store.get? handle = some w → w.MadeBy s.policy

instance (handle : Handle) : IsPreorder Session (Session.Spares handle) where
  refl s := ⟨rfl, fun _ => id, fun absent w found => by rw [absent] at found; cases found⟩
  trans s t u first second := by
    refine ⟨second.policy.trans first.policy, fun w => second.kept w ∘ first.kept w, ?_⟩
    intro absent w found
    -- The wrapper was made in one of the two parts, and the policy was the same in both.
    cases between : t.store.get? handle with
    | none =>
      rw [← first.policy]
      exact second.made between w found
    | some v =>
      obtain rfl := Option.some.inj ((second.kept v between).symm.trans found)
      exact first.made absent v between

/-- Names and policies make no difference to wrappers. -/
theorem Session.Spares.of_store {u : Session} (h : s.Spares handle t) (store : u.store = t.store)
    (policy : u.policy = s.policy) : s.Spares handle u :=
  ⟨policy, by rw [store]; exact h.kept, by rw [store]; exact h.made⟩

/-- A wrapper of the policy may be added. -/
theorem Session.spares_add {r : Resource} {w : Wrapper} (adapted : r.adapt s.policy = .ok w) :
    s.Spares handle { s with store := (s.store.add w).2 } := by
  refine ⟨rfl, fun _ => Store.get?_add_of_get? w, fun absent v found => ?_⟩
  rw [Store.eq_of_get?_add absent found]
  exact Wrapper.madeBy_of_adapt adapted

/-- Another wrapper may be replaced. -/
theorem Session.spares_set {other : Handle} (differs : handle.index ≠ other.index) (w : Wrapper) :
    s.Spares handle { s with store := s.store.set other w } := by
  have same : (s.store.set other w).get? handle = s.store.get? handle := by
    rw [Store.get?_set, if_neg differs]
  refine ⟨rfl, fun v found => same.trans found, fun absent v found => ?_⟩
  rw [same, absent] at found
  cases found

/-- Making a wrapper spares every other one. -/
theorem spares_makeWrapper (record : Record) :
    (makeWrapper record).Within (Session.Spares handle) := by
  intro s
  cases adapted : Resource.adapt s.policy (.record record) with
  | error failure =>
    rw [makeWrapper_of_error adapted]
    exact refl_of (Session.Spares handle) s
  | ok w =>
    rw [(makeWrapper_of_ok adapted).1]
    exact Session.spares_add adapted

/-- Calls spare every wrapper there is. -/
theorem spares_call : CallsWithin (Session.Spares handle) := within_call spares_makeWrapper

/-! ## Writes to a wrapper -/

/-- Whether some statements, executed up to the first that fails, write an attribute of the wrapper
behind a handle. -/
inductive Session.WritesTo (files : Files) (handle : Handle) : Session → List Statement → Prop
  /-- The first statement does: it refers to that wrapper, and it succeeds. -/
  | first {s : Session} {target value : Expr} {attr : Text} {spot : Spot} {rest : List Statement}
      {other : Handle} (refers : (evaluate files target s).value = .ok (.wrapper other))
      (same : other.index = handle.index)
      (succeeds : (Session.execute files (.write target attr value spot) s).value = .ok ()) :
      Session.WritesTo files handle s (.write target attr value spot :: rest)
  /-- One of the statements after the first does, and the first succeeds. -/
  | later {s : Session} {statement : Statement} {rest : List Statement}
      (succeeds : (Session.execute files statement s).value = .ok ())
      (writes : Session.WritesTo files handle (Session.execute files statement s).session rest) :
      Session.WritesTo files handle s (statement :: rest)

/-- A statement that does not write to a wrapper spares it, be it that the statement fails. -/
theorem spares_execute {files : Files} {statement : Statement}
    (unwritten : ¬ Session.WritesTo files handle s [statement]) :
    s.Spares handle (Session.execute files statement s).session := by
  cases succeeds : (Session.execute files statement s).value with
  | error failure =>
    exact failsWithin_execute_of_calls spares_call files statement s failure succeeds
  | ok _ =>
    obtain ⟨performs, same⟩ := execute_of_ok succeeds
    rw [same]
    have evaluated (e : Expr) (u : Session) : u.Spares handle (evaluate files e u).session :=
      within_evaluate spares_call files e u
    cases statement with
    | assign target value spot =>
      obtain ⟨new, -, session⟩ := perform_assign_of_ok performs
      rw [session]
      exact (evaluated value s).of_store rfl (evaluated value s).policy
    | write target attr value spot =>
      obtain ⟨other, new, u, v, w, w', refers, rfl, -, rfl, -, -, session⟩ :=
        perform_write_of_ok performs
      -- A write to this wrapper would be one of those that are excluded.
      have differs : handle.index ≠ other.index := fun index =>
        unwritten (.first refers index.symm succeeds)
      rw [session]
      exact trans_of (Session.Spares handle)
        (trans_of (Session.Spares handle) (evaluated target s) (evaluated value _))
        (Session.spares_set differs w')
    | bare value spot =>
      rw [perform_bare_of_ok performs]
      exact evaluated value s

/-- So do statements one after the other, up to the first that fails. -/
theorem spares_executeAll {files : Files} {statements : List Statement}
    (unwritten : ¬ Session.WritesTo files handle s statements) :
    s.Spares handle (Session.executeAll files statements s).session := by
  induction statements generalizing s with
  | nil => exact refl_of (Session.Spares handle) s
  | cons statement rest ih =>
    have first : s.Spares handle (Session.execute files statement s).session := by
      refine spares_execute fun writes => unwritten ?_
      cases writes with
      | first refers same succeeds => exact .first refers same succeeds
      | later _ writes => cases writes
    rw [executeAll_cons]
    cases succeeds : (Session.execute files statement s).value with
    | error failure =>
      rw [bind_of_error succeeds]
      exact first
    | ok _ =>
      rw [session_bind_of_ok succeeds]
      exact trans_of (Session.Spares handle) first
        (ih fun writes => unwritten (.later succeeds writes))

end Sparing

/-- Whether a step of a session writes to the wrapper behind a handle: a script that does, or the
removal of its context. -/
def Session.Step.WritesTo [CharacterNames] (handle : Handle) (s : Session) : Session.Step → Prop
  | .run files source =>
    ∃ statements, Script.parse source = .ok statements ∧ s.WritesTo files handle statements
  | .dropContext name =>
    ∃ other, Bindings.get? s.globals name = some (.wrapper other) ∧ other.index = handle.index
  | _ => False

/-- Whether one of some steps of a session writes to the wrapper behind a handle. -/
def Session.WrittenIn [CharacterNames] (handle : Handle) : Session → List Session.Step → Prop
  | _, [] => False
  | s, step :: steps => step.WritesTo handle s ∨ WrittenIn handle (s.after step) steps

section Steps

variable {handle : Handle} {s : Session}

/-- A step that does not write to a wrapper spares it, but for the policy. -/
theorem Session.spares_after [CharacterNames] {step : Session.Step}
    (unwritten : ¬ step.WritesTo handle s) :
    s.Spares handle { s.after step with policy := s.policy } := by
  have unchanged : s.Spares handle s := refl_of (Session.Spares handle) s
  cases step with
  | run files source =>
    rw [after, run]
    split
    · exact unchanged
    next statements parsed =>
      have spared := spares_executeAll fun writes => unwritten ⟨statements, parsed, writes⟩
      exact spared.of_store rfl rfl
  | eval files source => exact (within_eval spares_call files s source).of_store rfl rfl
  -- A mode changes the policy, and a wrapper keeps the context that it was made with.
  | setMode mode =>
    rw [after, setMode]
    cases s.policy.setMode mode with
    | ok policy => exact unchanged
    | error d => exact unchanged
  | bind name data => exact unchanged.of_store rfl rfl
  | bindResource name resource =>
    rw [after, bindResource]
    cases adapted : resource.adapt s.policy with
    | error failure => exact unchanged
    | ok w => exact (Session.spares_add adapted).of_store rfl rfl
  | dropContext name =>
    rw [after, dropContext]
    split
    next other bound =>
      split
      · have differs : handle.index ≠ other.index := fun index =>
          unwritten ⟨other, bound, index.symm⟩
        exact (Session.spares_set differs _).of_store rfl rfl
      · exact unchanged
    · exact unchanged

/-- A wrapper that no step writes to stays as it is. -/
theorem Session.get?_foldl_after [CharacterNames] {steps : List Session.Step} {w : Wrapper}
    (found : s.store.get? handle = some w) (unwritten : ¬ s.WrittenIn handle steps) :
    (steps.foldl Session.after s).store.get? handle = some w := by
  induction steps generalizing s with
  | nil => exact found
  | cons step steps ih =>
    obtain ⟨here, there⟩ := not_or.1 unwritten
    exact ih ((Session.spares_after here).kept w found) there

end Steps

/-- **The last preset decides, and it does not reach what is there.** A mode is accepted exactly if
it is the name of a preset, and it then changes the places of a policy and nothing else; different
modes give different places, whatever the policies were before. In the course of a session the
places of the policy are those of the last mode that was accepted, the flags stay as they are, and a
mode that is refused changes nothing. A wrapper that is made in a step has the context that the
policy before that step derives for its record, until it is written to. -/
theorem last_preset_decides [CharacterNames] (p : Policy) :
    (∀ (q : Policy) (mode : Text),
      (∀ q', q.setMode mode = .ok q' ↔ ∃ preset : Preset, mode = preset.name ∧
        q' = { q with location := preset.location, fallback := preset.fallback }) ∧
      (q.setMode mode = .error
          (Diagnostic.policyConfig "resource_handling_mode" none (Preset.unknownMessage mode)) ↔
        ∀ preset : Preset, mode ≠ preset.name)) ∧
    (∀ (q q' r r' : Policy) (mode mode' : Text), q.setMode mode = .ok r →
      q'.setMode mode' = .ok r' → r.location = r'.location → r.fallback = r'.fallback →
        mode = mode') ∧
    (∀ steps,
      (Session.reached p steps).policy.location =
        ((Session.lastPreset? steps).map Preset.location).getD p.location ∧
      (Session.reached p steps).policy.fallback =
        ((Session.lastPreset? steps).map Preset.fallback).getD p.fallback ∧
      ∀ f, (Session.reached p steps).policy.flag f = p.flag f) ∧
    (∀ steps mode, (∀ preset : Preset, mode ≠ preset.name) →
      Session.reached p (steps ++ [.setMode mode]) = Session.reached p steps) ∧
    ∀ before step later handle w,
      (Session.reached p before).store.get? handle = none →
      (Session.reached p (before ++ [step])).store.get? handle = some w →
      ¬ (Session.reached p before).WrittenIn handle (step :: later) →
        (Session.reached p (before ++ step :: later)).store.get? handle = some w ∧
          w.MadeBy (Session.reached p before).policy := by
  refine ⟨fun q mode => ⟨fun q' => ?_, Policy.setMode_eq_error_iff⟩, ?_, fun steps => ?_, ?_, ?_⟩
  · simp only [Policy.setMode_eq_ok_iff, Policy.withPreset_eq]
  · intro q q' r r' mode mode' accepted accepted' location fallback
    obtain ⟨preset, rfl, rfl⟩ := Policy.setMode_eq_ok_iff.1 accepted
    obtain ⟨preset', rfl, rfl⟩ := Policy.setMode_eq_ok_iff.1 accepted'
    simp only [Policy.withPreset_eq] at location fallback
    rw [Preset.eq_of_places location fallback]
  · rw [Session.policy_reached]
    cases Session.lastPreset? steps with
    | none => exact ⟨rfl, rfl, fun _ => rfl⟩
    | some preset =>
      rw [Option.elim_some, Policy.withPreset_eq]
      exact ⟨rfl, rfl, Policy.flag_withPlaces p _ _⟩
  · intro steps mode unknown
    rw [Session.reached_concat, Session.after, Session.setMode,
      Policy.setMode_eq_error_iff.2 unknown]
    rfl
  · intro before step later handle w absent made unwritten
    -- The step that made the wrapper, then the steps behind it.
    obtain ⟨here, there⟩ := not_or.1 unwritten
    rw [Session.reached_concat] at made
    refine ⟨?_, (Session.spares_after here).made absent w made⟩
    rw [Session.reached, List.foldl_append, List.foldl_cons]
    exact Session.get?_foldl_after made there

section

open scoped CharacterNames.Unlisted

/-- A module is bound in a session, and then the policy is given a directory; a mode that is no name
changes nothing. The module stays in memory, while the policy is about the directory. -/
theorem module_stays_in_memory :
    let made : Session.Step :=
      .bindResource "m" (.record (.moduleSource { name := "m", source := .bytes [] }))
    let later : List Session.Step := [.setMode "filesystem-relative-only:lib", .setMode "lib"]
    (Session.reached {} (made :: later)).policy.location =
        .location (.concrete (.filesystemRelative "lib")) ∧
      ∃ w c, (Session.reached {} (made :: later)).store.get? ⟨.sourceModule, 0⟩ = some w ∧
        w.context = some c ∧ c.location = .concrete .inMemory := by
  intro made later
  obtain ⟨-, -, places, -, keeps⟩ := last_preset_decides {}
  refine ⟨(places (made :: later)).1, ?_⟩
  have unwritten : ¬ (Session.reached {} []).WrittenIn ⟨.sourceModule, 0⟩ (made :: later) := by
    simp [made, later, Session.WrittenIn, Session.Step.WritesTo]
  obtain ⟨found, -⟩ := keeps [] made later ⟨.sourceModule, 0⟩ _ rfl rfl unwritten
  exact ⟨_, _, found, rfl, rfl⟩

end

end Packaging
