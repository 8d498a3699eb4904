import Packaging.Proofs.Bindings
import Packaging.Proofs.Contexts
import Packaging.Proofs.Outcomes
import Packaging.Proofs.Session.Atomicity

/-! # What holds of every session
A session starts empty with a policy, which may be anything, and then goes through steps: scripts
and expressions are run, presets are given to the policy, names are bound from outside, and contexts
are taken away. Every step, be it that it fails, keeps the session sound: what names refer to is
there and of the right kind, and all wrappers are sound. -/

namespace Packaging

open Packaging.Action
open Script (Expr Statement)

/-! ## Steps -/

/-- A step of a session. The files may change between steps. -/
inductive Session.Step
  /-- A script is run. -/
  | run (files : Files) (source : Text)
  /-- An expression is evaluated. -/
  | eval (files : Files) (source : Text)
  /-- A preset is given to the policy. -/
  | setMode (mode : Text)
  /-- A name is bound to plain data. -/
  | bind (name : Text) (data : Json)
  /-- A name is bound to the wrapper of a resource. -/
  | bindResource (name : Text) (resource : Resource)
  /-- The wrapper under a name loses its context. -/
  | dropContext (name : Text)

/-- The session after a step; a step that is refused changes nothing. -/
def Session.after [CharacterNames] (s : Session) : Step → Session
  | .run files source => (s.run files source).session
  | .eval files source => (s.eval files source).session
  | .setMode mode =>
    match s.setMode mode with
    | .ok t => t
    | .error _ => s
  | .bind name data => s.bind name data
  | .bindResource name resource =>
    match s.bindResource name resource with
    | .ok t => t
    | .error _ => s
  | .dropContext name => s.dropContext name

/-- The session that steps lead to from the start with a policy. -/
def Session.reached [CharacterNames] (p : Policy) (steps : List Session.Step) : Session :=
  steps.foldl Session.after { policy := p }

/-! ## Sound sessions -/

/-- Whether a value refers to a wrapper of a session of the kind that it tells, if to any. -/
def Value.IsIn (s : Session) : Value → Prop
  | .plain _ => True
  | .wrapper handle => ∃ w, s.store.get? handle = some w ∧ w.kind = handle.kind

/-- A session in which names refer to wrappers of the kinds that their handles tell, and all
wrappers are sound. -/
structure Session.Sound (switched : Prop) (s : Session) : Prop where
  /-- The flags of the policy are truth values. -/
  policy : switched → s.policy.Switched
  /-- Every wrapper is sound. -/
  wrappers : ∀ w ∈ s.store.wrappers, w.Sound switched
  /-- Every value of a name is there. -/
  globals : ∀ name value, (name, value) ∈ s.globals → value.IsIn s

/-- A session that is sound if another one is. -/
def Session.KeepsSound (switched : Prop) (s t : Session) : Prop :=
  s.Sound switched → t.Sound switched

instance (switched : Prop) : IsPreorder Session (Session.KeepsSound switched) where
  refl _ := id
  trans _ _ _ first second := second ∘ first

/-- A session that starts is sound. -/
theorem Session.sound_start (p : Policy) : Session.Sound p.Switched { policy := p } :=
  ⟨id, fun _ h => absurd h List.not_mem_nil, fun _ _ h => absurd h List.not_mem_nil⟩

/-- What is in a session stays in it as long as wrappers of the same kinds are behind handles. -/
theorem Value.IsIn.mono {s t : Session} {value : Value} (h : value.IsIn s)
    (kinds : ∀ handle w, s.store.get? handle = some w →
      ∃ w', t.store.get? handle = some w' ∧ w'.kind = w.kind) : value.IsIn t := by
  cases value with
  | plain data => trivial
  | wrapper handle =>
    obtain ⟨w, found, kind⟩ := h
    obtain ⟨w', found', kind'⟩ := kinds handle w found
    exact ⟨w', found', kind'.trans kind⟩

/-! ## Changes that keep a session sound -/

namespace Session.Sound

variable {switched : Prop} {s : Session}

/-- A name may be bound to what is in the session. -/
theorem bind (h : s.Sound switched) (name : Text) {value : Value} (inside : value.IsIn s) :
    Session.Sound switched { s with globals := s.globals.set name value } := by
  refine ⟨h.policy, h.wrappers, ?_⟩
  intro n v hv
  rcases Bindings.mem_set hv with hv | same
  · exact h.globals n v hv
  · obtain ⟨-, rfl⟩ := Prod.mk.inj same
    exact inside

/-- A sound wrapper may be added. -/
theorem add (h : s.Sound switched) {w : Wrapper} (sound : w.Sound switched) :
    Session.Sound switched { s with store := (s.store.add w).2 } := by
  refine ⟨h.policy, ?_, ?_⟩
  · intro v hv
    rcases List.mem_append.1 hv with hv | hv
    · exact h.wrappers v hv
    · rw [List.mem_singleton.1 hv]
      exact sound
  · intro n v hv
    refine (h.globals n v hv).mono fun handle w' found => ?_
    exact ⟨w', Store.get?_add_of_get? w found, rfl⟩

/-- A wrapper may be replaced by a sound one of the same kind. -/
theorem set (h : s.Sound switched) {handle : Handle} {w w' : Wrapper}
    (found : s.store.get? handle = some w) (kind : w'.kind = w.kind) (sound : w'.Sound switched) :
    Session.Sound switched { s with store := s.store.set handle w' } := by
  refine ⟨h.policy, ?_, ?_⟩
  · intro v hv
    rcases List.mem_or_eq_of_mem_set hv with hv | rfl
    · exact h.wrappers v hv
    · exact sound
  · intro n v hv
    refine (h.globals n v hv).mono fun other u found' => ?_
    rw [Store.get?_set]
    split
    · next same =>
      -- Handles with one index refer to one wrapper, so it is the replaced one that was found.
      have hu : u = w := by
        rw [Store.get?, same] at found'
        exact Option.some.inj (found'.symm.trans found)
      exact ⟨w', by rw [found]; rfl, by rw [hu]; exact kind⟩
    · exact ⟨u, found', rfl⟩

/-- The wrappers of a sound session are sound. -/
theorem get?_store (h : s.Sound switched) {handle : Handle} {w : Wrapper}
    (found : s.store.get? handle = some w) : w.Sound switched :=
  h.wrappers w (List.mem_of_getElem? found)

end Session.Sound

/-! ## Evaluation keeps a session sound -/

variable {switched : Prop}

/-- Making a wrapper keeps a session sound. -/
theorem keepsSound_makeWrapper (record : Record) :
    (makeWrapper record).Within (Session.KeepsSound switched) := by
  intro s sound
  cases hadapt : Resource.adapt s.policy (.record record) with
  | error failure =>
    rw [makeWrapper_of_error hadapt]
    exact sound
  | ok w =>
    rw [(makeWrapper_of_ok hadapt).1]
    exact sound.add (Resource.sound_of_adapt sound.policy hadapt)

/-- A call gives a value of the session that it leaves. -/
theorem isIn_of_makeWrapper {record : Record} {s : Session} {value : Value}
    (h : (makeWrapper record s).value = .ok value) : value.IsIn (makeWrapper record s).session := by
  cases hadapt : Resource.adapt s.policy (.record record) with
  | error failure =>
    rw [makeWrapper_of_error hadapt] at h
    cases h
  | ok w =>
    obtain ⟨hsession, hvalue⟩ := makeWrapper_of_ok hadapt
    rw [hvalue] at h
    obtain rfl := Except.ok.inj h
    rw [hsession]
    exact ⟨w, Store.get?_add_self s.store w, rfl⟩

/-- What a call gives belongs to the session behind it. -/
theorem isIn_of_call {k : Kind} {positional : List Value} {named : Bindings Value} {s : Session}
    {value : Value} (h : (k.call positional named s).value = .ok value) :
    value.IsIn (k.call positional named s).session := by
  cases hrecord : (k.bindCall positional named).bind k.construct with
  | error fault =>
    rw [Kind.call, hrecord] at h
    cases h
  | ok record =>
    rw [Kind.call, hrecord] at h ⊢
    exact isIn_of_makeWrapper h

/-- What is read of an attribute belongs to every session. -/
theorem isIn_of_readAttribute {files : Files} {value v : Value} {attr : Text} {s : Session}
    (h : (value.readAttribute files attr s).value = .ok v) (t : Session) : v.IsIn t := by
  rw [Value.readAttribute, bind_current] at h
  cases hw : value.wrapper? s.store with
  | none =>
    rw [hw] at h
    cases h
  | some w =>
    rw [hw] at h
    obtain ⟨data, -, rfl⟩ := Except.map_eq_ok_iff.1 h
    trivial

/-- An expression gives a value of the session that its evaluation leaves. -/
theorem isIn_of_evaluate {files : Files} {e : Expr} {s : Session} {value : Value}
    (sound : s.Sound switched) (h : (evaluate files e s).value = .ok value) :
    value.IsIn (evaluate files e s).session := by
  -- No induction: only a name and a call give wrappers, and the parts of a call do not matter.
  cases e with
  | literal data spot =>
    rw [evaluate] at h
    obtain rfl := Except.ok.inj h
    trivial
  | name ident spot =>
    rw [evaluate, lookUp, bind_current] at h ⊢
    cases found : Bindings.get? s.globals ident with
    | none =>
      rw [found] at h
      cases h
    | some v =>
      rw [found] at h
      obtain rfl := Except.ok.inj h
      exact sound.globals ident _ (Bindings.mem_of_get?_eq_some found)
  | member base attr spot =>
    rw [evaluate] at h
    obtain ⟨_, -, h⟩ := value_bind_eq_ok_iff.1 h
    exact isIn_of_readAttribute h _
  | call func args keywords spot =>
    cases hk : Kind.ofConstructorName? func with
    | none =>
      rw [evaluate, hk] at h
      cases h
    | some k =>
      rw [evaluate, hk] at h ⊢
      obtain ⟨positional, hpositional, h⟩ := value_bind_eq_ok_iff.1 h
      obtain ⟨named, hnamed, h⟩ := value_bind_eq_ok_iff.1 h
      rw [session_bind_of_ok hpositional, session_bind_of_ok hnamed]
      exact isIn_of_call h

/-! ## Every step keeps a session sound -/

/-- An assignment keeps a session sound. -/
theorem keepsSound_assign {files : Files} (target : Text) (value : Expr) (spot : Spot) :
    (Session.perform files (.assign target value spot)).Within (Session.KeepsSound switched) := by
  intro s sound
  have evaluated := within_evaluate (within_call keepsSound_makeWrapper) files value s sound
  rw [Session.perform]
  -- A value is bound only if there is one, and it is then in the session that evaluation left.
  cases hvalue : (evaluate files value s).value with
  | ok v =>
    rw [session_bind_of_ok hvalue]
    exact evaluated.bind target (isIn_of_evaluate sound hvalue)
  | error failure =>
    rw [bind_of_error hvalue]
    exact evaluated

/-- Writing an attribute keeps a session sound. -/
theorem keepsSound_writeAttribute (value : Value) (attr : Text) (new : Value) :
    (value.writeAttribute attr new).Within (Session.KeepsSound switched) := by
  intro s sound
  rcases writeAttribute_cases value attr new s with
    ⟨failure, refused⟩ | ⟨handle, w, w', -, found, hset, written⟩
  · rw [refused]
    exact sound
  · rw [written]
    have kind : w'.kind = w.kind := by
      obtain ⟨-, a, c, c', -, -, -, rfl⟩ := Wrapper.set_eq_ok_iff.1 hset
      rfl
    exact sound.set found kind (Wrapper.sound_of_set hset (sound.get?_store found))

/-- Performing a statement keeps a session sound. -/
theorem keepsSound_perform (files : Files) (statement : Statement) :
    (Session.perform files statement).Within (Session.KeepsSound switched) :=
  within_perform (within_call keepsSound_makeWrapper) keepsSound_assign keepsSound_writeAttribute
    statement

/-- A policy keeps its flags when a preset is given to it. -/
theorem Policy.switched_of_setMode {p p' : Policy} {mode : Text} (h : p.setMode mode = .ok p')
    (on : p.Switched) : p'.Switched := by
  rw [Policy.setMode] at h
  split at h
  · next preset _ =>
    obtain rfl := Except.ok.inj h
    exact Policy.switched_withPreset on preset
  · cases h

/-- Every step keeps a session sound, be it that the step fails. -/
theorem Session.Sound.after [CharacterNames] {s : Session} (sound : s.Sound switched)
    (step : Session.Step) :
    (s.after step).Sound switched := by
  cases step with
  | run files source => exact within_run (keepsSound_perform files) s source sound
  | eval files source => exact within_eval (within_call keepsSound_makeWrapper) files s source sound
  | setMode mode =>
    rw [Session.after]
    split
    · next t hmode =>
      obtain ⟨p, hp, rfl⟩ := Except.map_eq_ok_iff.1 hmode
      exact ⟨fun on => Policy.switched_of_setMode hp (sound.policy on), sound.wrappers,
        sound.globals⟩
    · exact sound
  | bind name data => exact sound.bind name trivial
  | bindResource name resource =>
    rw [Session.after]
    split
    · next t hbind =>
      rw [Session.bindResource] at hbind
      cases hadapt : resource.adapt s.policy with
      | error failure =>
        rw [hadapt] at hbind
        cases hbind
      | ok w =>
        rw [hadapt] at hbind
        obtain rfl := Except.ok.inj hbind
        -- The new wrapper is there before its name is bound to it.
        have added := sound.add (Resource.sound_of_adapt sound.policy hadapt)
        exact added.bind name ⟨w, Store.get?_add_self s.store w, rfl⟩
    · exact sound
  | dropContext name =>
    rw [Session.after, Session.dropContext]
    split
    · split
      · next handle _ w found =>
        exact sound.set found rfl (Wrapper.sound_dropContext switched w)
      · exact sound
    · exact sound

/-- Every session that steps lead to is sound. -/
theorem Session.sound_reached [CharacterNames] (p : Policy) (steps : List Session.Step) :
    (Session.reached p steps).Sound p.Switched := by
  rw [Session.reached]
  -- By induction on the steps, from any sound session, for the first step leaves another one.
  have keep (s : Session) (sound : s.Sound p.Switched) :
      (steps.foldl Session.after s).Sound p.Switched := by
    induction steps generalizing s with
    | nil => exact sound
    | cons step steps ih => exact ih _ (sound.after step)
  exact keep _ (Session.sound_start p)

/-! ## Scripts take no context away -/

/-- Whether a wrapper with a context is behind a handle. -/
def Store.HasContext (store : Store) (handle : Handle) : Prop :=
  ∃ w c, store.get? handle = some w ∧ w.context = some c

/-- A session in which every handle has a context that has one in another session. -/
def Session.KeepsContexts (s t : Session) : Prop :=
  ∀ handle, s.store.HasContext handle → t.store.HasContext handle

instance : IsPreorder Session Session.KeepsContexts where
  refl _ _ := id
  trans _ _ _ first second handle := second handle ∘ first handle

/-- Making a wrapper takes no context away. -/
theorem keepsContexts_makeWrapper (record : Record) :
    (makeWrapper record).Within Session.KeepsContexts := by
  refine (within_grows_makeWrapper record).mono ?_
  rintro s t grows handle ⟨w, c, found, hcontext⟩
  exact ⟨w, c, grows.get?_store found, hcontext⟩

/-- An assignment takes no context away. -/
theorem keepsContexts_assign {files : Files} (target : Text) (value : Expr) (spot : Spot) :
    (Session.perform files (.assign target value spot)).Within Session.KeepsContexts :=
  (within_evaluate (within_call keepsContexts_makeWrapper) files value).bind fun _ _ _ => id

/-- What is written goes into a context that is there. -/
theorem keepsContexts_writeAttribute (value : Value) (attr : Text) (new : Value) :
    (value.writeAttribute attr new).Within Session.KeepsContexts := by
  intro s other present
  rcases writeAttribute_cases value attr new s with
    ⟨failure, refused⟩ | ⟨handle, w, w', -, found, hset, written⟩
  · rw [refused]
    exact present
  · -- The wrapper is the one that is written to, which keeps a context, or it stays as it is.
    obtain ⟨u, c, hu, hc⟩ := present
    obtain ⟨-, a, c₀, c', -, -, -, rfl⟩ := Wrapper.set_eq_ok_iff.1 hset
    rw [written, Store.HasContext]
    dsimp only
    rw [Store.get?_set]
    split
    · exact ⟨_, c', by rw [found]; rfl, rfl⟩
    · exact ⟨u, c, hu, hc⟩

variable [CharacterNames]

/-- Neither scripts nor expressions take a context away. -/
theorem Session.keepsContexts_run (files : Files) (s : Session) (source : Text) :
    s.KeepsContexts (s.run files source).session :=
  within_run (within_perform (within_call keepsContexts_makeWrapper) keepsContexts_assign
    keepsContexts_writeAttribute) s source

/-- Evaluating an expression takes no context away. -/
theorem Session.keepsContexts_eval (files : Files) (s : Session) (source : Text) :
    s.KeepsContexts (s.eval files source).session :=
  within_eval (within_call keepsContexts_makeWrapper) files s source

/-- **Contexts are always as they must be.** Whatever policy a session starts with and whatever
steps it goes through, a wrapper under a name is of the kind that its handle tells, an extension
module has no context, and every context has explicit places. Its flags are truth values if those of
the policy were. No script and no expression takes a context away. -/
theorem contexts_of_reached (p : Policy) (steps : List Session.Step) :
    (∀ name handle, (name, Value.wrapper handle) ∈ (Session.reached p steps).globals →
      ∃ w, (Session.reached p steps).store.get? handle = some w ∧
        w.record.kind = handle.kind) ∧
    (∀ handle w, (Session.reached p steps).store.get? handle = some w →
      (w.record.kind = .extensionModule → w.context = none) ∧
      ∀ c, w.context = some c →
        (∃ place, c.location = .concrete place) ∧
        (c.fallback = none ∨ ∃ place, c.fallback = some (.concrete place)) ∧
        (p.Switched → c.Switched)) ∧
    ∀ files source,
      (Session.reached p steps).KeepsContexts
          ((Session.reached p steps).run files source).session ∧
        (Session.reached p steps).KeepsContexts
          ((Session.reached p steps).eval files source).session := by
  have sound := Session.sound_reached p steps
  refine ⟨?_, ?_, ?_⟩
  · intro name handle bound
    exact sound.globals name _ bound
  · intro handle w found
    have wrapper := sound.get?_store found
    refine ⟨wrapper.extension, ?_⟩
    intro c hcontext
    have placed := wrapper.placed c hcontext
    refine ⟨placed.location, ?_, fun on => wrapper.flags on c hcontext⟩
    cases hfallback : c.fallback with
    | none => exact Or.inl rfl
    | some l =>
      obtain ⟨place, rfl⟩ := placed.fallback l hfallback
      exact Or.inr ⟨place, rfl⟩
  · intro files source
    exact ⟨Session.keepsContexts_run files _ source, Session.keepsContexts_eval files _ source⟩

end Packaging
