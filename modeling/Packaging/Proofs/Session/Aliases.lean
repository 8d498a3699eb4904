import Packaging.Proofs.Policy.Documents
import Packaging.Proofs.Script.Acceptance
import Packaging.Proofs.Session.Reachable
import Packaging.Proofs.Session.Statements

/-! # Names that share a wrapper
What is written to an attribute through one name is read through every name of the same wrapper, and
through no other name. Every call of a constructor makes a wrapper of its own, so the only way to
share a context is to share the wrapper. -/

namespace Packaging

open Packaging.Action
open Script (Expr Statement)

/-! ## Attributes of a context -/

/-- What an attribute reads after a value has been written to it: a location as the text that was
written, null for the default one as a fallback, and flags as truth values. -/
def Attribute.normal : Attribute → Value → Json
  | location, .plain data => data
  | fallback, .plain (.text t) => if t = Location.defaultText then .null else .text t
  | location, .wrapper _ | fallback, _ => .null
  | _, value => .bool value.isTrue

/-- The attribute that is found under a name has that name. -/
theorem Attribute.name_of_ofName? {attr : Text} {a : Attribute} (h : ofName? attr = some a) :
    a.name = attr := by
  have named := List.find?_some h
  exact of_decide_eq_true named

/-- Different attributes have different names. -/
theorem Attribute.name_injective : Function.Injective name := by
  intro a b same
  have found := ofName?_name a
  rw [same, ofName?_name] at found
  exact (Option.some.inj found).symm

/-- What is written is read. -/
theorem Attribute.read_write_self {typeName : Text} {c c' : Context} {a : Attribute}
    {value : Value} (h : a.write typeName c value = .ok c') : a.read c' = a.normal value := by
  cases a with
  | location =>
    rw [write] at h
    split at h
    · cases h
    · next place notDefault decoded =>
      obtain rfl := Except.ok.inj h
      obtain ⟨place, rfl⟩ := Location.eq_concrete_of_ne_default notDefault
      rw [Location.decode_eq_concrete_iff.1 decoded]
      rfl
    · cases h
  | fallback =>
    rw [write] at h
    split at h
    · next decoded =>
      obtain rfl := Except.ok.inj h
      -- Both ways to write no fallback are read as the same.
      rcases Location.decode_eq_default_iff.1 decoded with rfl | rfl
      · rfl
      · rfl
    · next place notDefault decoded =>
      obtain rfl := Except.ok.inj h
      obtain ⟨place, rfl⟩ := Location.eq_concrete_of_ne_default notDefault
      rw [Location.decode_eq_concrete_iff.1 decoded]
      exact (if_neg place.encode_ne_defaultText).symm
    · cases h
  | _ =>
    obtain rfl := Except.ok.inj h
    rfl

/-- Other attributes are read as before. -/
theorem Attribute.read_write_of_ne {typeName : Text} {c c' : Context} {a b : Attribute}
    {value : Value} (h : a.write typeName c value = .ok c') (other : b ≠ a) :
    b.read c' = b.read c := by
  -- Each attribute has a field of its own, which is all that is written.
  cases a with
  | location =>
    have same : c' = { c with location := c'.location } := by
      rw [write] at h
      split at h <;> cases h
      rfl
    rw [same]
    cases b with
    | location => exact absurd rfl other
    | _ => rfl
  | fallback =>
    have same : c' = { c with fallback := c'.fallback } := by
      rw [write] at h
      split at h <;> cases h <;> rfl
    rw [same]
    cases b with
    | fallback => exact absurd rfl other
    | _ => rfl
  | included =>
    obtain rfl := Except.ok.inj h
    cases b with
    | included => exact absurd rfl other
    | _ => rfl
  | source =>
    obtain rfl := Except.ok.inj h
    cases b with
    | source => exact absurd rfl other
    | _ => rfl
  | optimizeLevelZero =>
    obtain rfl := Except.ok.inj h
    cases b with
    | optimizeLevelZero => exact absurd rfl other
    | _ => rfl
  | optimizeLevelOne =>
    obtain rfl := Except.ok.inj h
    cases b with
    | optimizeLevelOne => exact absurd rfl other
    | _ => rfl
  | optimizeLevelTwo =>
    obtain rfl := Except.ok.inj h
    cases b with
    | optimizeLevelTwo => exact absurd rfl other
    | _ => rfl

/-- No record has a collection attribute of its own. -/
theorem Wrapper.lookup_intrinsics_name (record : Record) (b : Attribute) :
    (intrinsics record).lookup b.name = none := by
  cases record with
  | _ =>
    cases b with
    | _ => rfl

/-- A collection attribute is read from the context, if the kind has one. -/
theorem Wrapper.get_name {files : Files} {w : Wrapper} (has : w.kind.hasContext = true)
    (b : Attribute) : w.get files b.name = .ok (w.read b) := by
  have place : w.hasPlace = true := by rw [hasPlace, has]; rfl
  rw [get, lookup_intrinsics_name, Attribute.ofName?_name, has, getCollection,
    Attribute.ofName?_name]
  exact if_pos place

/-- So it is from a context that has been put in the place of another. -/
theorem Wrapper.get_name_of_context {files : Files} {w : Wrapper}
    (has : w.kind.hasContext = true) (c : Context) (b : Attribute) :
    Wrapper.get files { w with context := some c } b.name = .ok (b.read c) := by
  have kind : ({ w with context := some c } : Wrapper).kind.hasContext = true := has
  rw [get_name kind]
  rfl

/-! ## Reading through names -/

/-- The expression that reads a collection attribute through a name. -/
def readThrough (name : Text) (b : Attribute) (spot : Spot) : Expr :=
  .member (.name name spot) b.name spot

section Reading

variable {files : Files} {s : Session} {name : Text} {b : Attribute} {spot : Spot}

/-- What is read through a name is a matter of the value that the name is bound to. -/
theorem value_member_of_bound {value : Value} {attr : Text} {spot' : Spot}
    (bound : Bindings.get? s.globals name = some value) :
    (evaluate files (.member (.name name spot) attr spot') s).value =
      (value.readAttribute files attr s).value := by
  rw [evaluate, evaluate]
  have found : (lookUp name spot s).value = .ok value := value_lookUp_eq_ok_iff.2 bound
  have same : (lookUp name spot s).session = s := by
    rw [lookUp, bind_current, bound]
    rfl
  rw [value_bind_of_ok found, same]

/-- So it is for a collection attribute. -/
theorem value_readThrough_of_bound {value : Value}
    (bound : Bindings.get? s.globals name = some value) :
    (evaluate files (readThrough name b spot) s).value =
      (value.readAttribute files b.name s).value :=
  value_member_of_bound bound

/-- An attribute of a wrapper at hand is read as the wrapper gives it. -/
theorem value_readAttribute_of_found {handle : Handle} {w : Wrapper} {attr : Text}
    (found : s.store.get? handle = some w) :
    ((Value.wrapper handle).readAttribute files attr s).value =
      (w.get files attr).map Value.plain := by
  have behind : (Value.wrapper handle).wrapper? s.store = some w := found
  rw [Value.readAttribute, bind_current, behind]
  rfl

/-- What is read through a name stays the same as long as the wrapper that the name is bound to, if
to any, gives the same. -/
theorem value_readThrough_congr {t : Session}
    (bound : Bindings.get? t.globals name = Bindings.get? s.globals name)
    (same : ∀ handle, Bindings.get? s.globals name = some (.wrapper handle) →
      ∃ w w', s.store.get? handle = some w ∧ t.store.get? handle = some w' ∧
        w'.get files b.name = w.get files b.name) :
    (evaluate files (readThrough name b spot) t).value =
      (evaluate files (readThrough name b spot) s).value := by
  cases found : Bindings.get? s.globals name with
  | none =>
    have unknown (u : Session) (h : Bindings.get? u.globals name = none) :
        (evaluate files (readThrough name b spot) u).value =
          .error (unknownIdentifier name spot) := by
      have fails : (lookUp name spot u).value = .error (unknownIdentifier name spot) := by
        rw [lookUp, bind_current, h]
        rfl
      rw [readThrough, evaluate, evaluate, bind_of_error fails]
    rw [unknown s found, unknown t (bound.trans found)]
  | some value =>
    rw [value_readThrough_of_bound found, value_readThrough_of_bound (bound.trans found)]
    cases value with
    | plain data => rfl
    | wrapper handle =>
      obtain ⟨w, w', hs, ht, gives⟩ := same handle found
      rw [value_readAttribute_of_found hs, value_readAttribute_of_found ht, gives]

end Reading

/-! ## Writing through names -/

/-- In a sound session a wrapper has one handle. -/
theorem Session.Sound.handle_unique {switched : Prop} {s : Session} (sound : s.Sound switched)
    {name : Text} {handle other : Handle} {w : Wrapper}
    (bound : Bindings.get? s.globals name = some (.wrapper other))
    (found : s.store.get? other = some w) (kind : w.kind = handle.kind)
    (same : other.index = handle.index) : other = handle := by
  obtain ⟨w', found', kind'⟩ := sound.globals name _ (Bindings.mem_of_get?_eq_some bound)
  obtain rfl : w = w' := Option.some.inj (found.symm.trans found')
  obtain ⟨k, i⟩ := handle
  obtain ⟨k', i'⟩ := other
  obtain rfl : k' = k := kind'.symm.trans kind
  obtain rfl : i' = i := same
  rfl

/-- A session that differs from another in that one wrapper, which may be new, has been given
another context. -/
structure Session.Rewritten (s t : Session) (handle : Handle) (w : Wrapper) (c' : Context) :
    Prop where
  /-- Names are bound to what they were bound to. -/
  globals : t.globals = s.globals
  /-- Other wrappers are as they were. -/
  others : ∀ other u, s.store.get? other = some u → other.index ≠ handle.index →
    t.store.get? other = some u
  /-- The wrapper is as it was before, if it was there. -/
  before : ∀ other u, s.store.get? other = some u → other.index = handle.index → u = w
  /-- It has the other context afterwards. -/
  written : t.store.get? handle = some { w with context := some c' }

/-- New wrappers make no difference to one that is written to. -/
theorem Session.Grows.rewritten {s v : Session} (grows : s.Grows v) {handle : Handle}
    {w : Wrapper} (found : v.store.get? handle = some w) (c' : Context) :
    s.Rewritten { v with store := v.store.set handle { w with context := some c' } } handle w
      c' where
  globals := grows.globals
  others other u hu differs := by
    show (v.store.set handle _).get? other = some u
    rw [Store.get?_set, if_neg differs]
    exact grows.get?_store hu
  before other u hu same := by
    have later := grows.get?_store hu
    rw [Store.get?, same] at later
    exact Option.some.inj (later.symm.trans found)
  written := by
    show (v.store.set handle _).get? handle = _
    rw [Store.get?_set, if_pos rfl, found]
    rfl

/-- A write that succeeds gives one wrapper, which has a context, another context. -/
theorem exists_rewritten_of_write {files : Files} {s : Session} {target value : Expr} {attr : Text}
    {spot : Spot} (h : (Session.execute files (.write target attr value spot) s).value = .ok ()) :
    ∃ handle new w c c' a, (evaluate files target s).value = .ok (.wrapper handle) ∧
      (evaluate files value (evaluate files target s).session).value = .ok new ∧
      (evaluate files value (evaluate files target s).session).session.store.get? handle =
        some w ∧
      w.kind.hasContext = true ∧ w.context = some c ∧ Attribute.ofName? attr = some a ∧
      a.write w.typeName c new = .ok c' ∧
      s.Rewritten (Session.execute files (.write target attr value spot) s).session handle w
        c' := by
  obtain ⟨performs, session⟩ := execute_of_ok h
  obtain ⟨handle, new, u, v, w, w', htarget, rfl, hnew, rfl, found, hset, written⟩ :=
    perform_write_of_ok performs
  obtain ⟨has, a, c, c', hname, hcontext, hwrite, rfl⟩ := Wrapper.set_eq_ok_iff.1 hset
  have grows := trans_of Session.Grows (within_grows_evaluate files target s)
    (within_grows_evaluate files value (evaluate files target s).session)
  refine ⟨handle, new, w, c, c', a, htarget, hnew, found, has, hcontext, hname, hwrite, ?_⟩
  rw [session, written]
  exact grows.rewritten found c'

section Rewritten

variable {files : Files} {switched : Prop} {s t : Session} {handle : Handle} {w : Wrapper}
  {c c' : Context} {a : Attribute} {new : Value}

/-- What has been written is read through every name of the wrapper. -/
theorem Session.Rewritten.value_alias (h : s.Rewritten t handle w c')
    (has : w.kind.hasContext = true) (hwrite : a.write w.typeName c new = .ok c') {name : Text}
    (bound : Bindings.get? s.globals name = some (.wrapper handle)) (spot : Spot) :
    (evaluate files (readThrough name a spot) t).value = .ok (.plain (a.normal new)) := by
  rw [← h.globals] at bound
  rw [value_readThrough_of_bound bound, value_readAttribute_of_found h.written,
    Wrapper.get_name_of_context has, ← Attribute.read_write_self hwrite]
  rfl

/-- All else that is read through names is as it was. -/
theorem Session.Rewritten.value_other (h : s.Rewritten t handle w c') (sound : s.Sound switched)
    (kind : w.kind = handle.kind) (has : w.kind.hasContext = true) (context : w.context = some c)
    (hwrite : a.write w.typeName c new = .ok c') {name : Text} {b : Attribute}
    (other : ¬ (Bindings.get? s.globals name = some (.wrapper handle) ∧ b = a)) (spot : Spot) :
    (evaluate files (readThrough name b spot) t).value =
      (evaluate files (readThrough name b spot) s).value := by
  apply value_readThrough_congr
  · rw [h.globals]
  · intro handle' bound
    obtain ⟨u, found, kind'⟩ := sound.globals name _ (Bindings.mem_of_get?_eq_some bound)
    by_cases same : handle'.index = handle.index
    · -- The name is one of the wrapper, so it is another attribute that is read.
      obtain rfl := h.before handle' u found same
      obtain rfl := sound.handle_unique bound found kind same
      have differs : b ≠ a := fun hb => other ⟨bound, hb⟩
      refine ⟨u, _, found, h.written, ?_⟩
      rw [Wrapper.get_name_of_context has, Wrapper.get_name has, Wrapper.read, context]
      exact congrArg Except.ok (Attribute.read_write_of_ne hwrite differs)
    · exact ⟨u, u, found, h.others handle' u found same, rfl⟩

end Rewritten

/-! ## Calls -/

/-- A session that another one leads to, by whole steps, by statements or by expressions. -/
inductive Session.Leads [CharacterNames] (s : Session) : Session → Prop
  /-- A session leads to itself. -/
  | refl : Leads s s
  /-- A step goes on. -/
  | after {t : Session} (before : Leads s t) (step : Session.Step) : Leads s (t.after step)
  /-- A statement goes on. -/
  | execute {t : Session} (before : Leads s t) (files : Files) (statement : Statement) :
      Leads s (Session.execute files statement t).session
  /-- An expression goes on. -/
  | evaluate {t : Session} (before : Leads s t) (files : Files) (e : Expr) :
      Leads s (Packaging.evaluate files e t).session

/-- A session with as many wrappers as another, or more. -/
def Session.NoFewer (s t : Session) : Prop :=
  s.store.wrappers.length ≤ t.store.wrappers.length

instance : IsPreorder Session Session.NoFewer where
  refl _ := Nat.le_refl _
  trans _ _ _ := Nat.le_trans

/-- Making a wrapper takes none away. -/
theorem noFewer_makeWrapper (record : Record) : (makeWrapper record).Within Session.NoFewer :=
  (within_grows_makeWrapper record).mono fun _ _ grows => grows.wrappers.length_le

/-- Performing a statement takes no wrapper away. -/
theorem noFewer_perform (files : Files) (statement : Statement) :
    (Session.perform files statement).Within Session.NoFewer := by
  apply within_perform (within_call noFewer_makeWrapper)
  · intro target value spot
    exact (within_evaluate (within_call noFewer_makeWrapper) files value).bind
      fun _ _ => Nat.le_refl _
  · intro value attr new s
    rcases writeAttribute_cases value attr new s with
      ⟨failure, refused⟩ | ⟨handle, w, w', -, -, -, written⟩
    · rw [refused]
      exact Nat.le_refl _
    · rw [written]
      exact (List.length_set ..).ge

/-- Nothing that happens in a session takes a wrapper away. -/
theorem Session.Leads.noFewer [CharacterNames] {s t : Session} (h : s.Leads t) : s.NoFewer t := by
  induction h with
  | refl => exact Nat.le_refl _
  | @after t before step ih =>
    refine Nat.le_trans ih ?_
    cases step with
    | run files source => exact within_run (noFewer_perform files) t source
    | eval files source => exact within_eval (within_call noFewer_makeWrapper) files t source
    | setMode mode =>
      rw [Session.after]
      split
      · next u hmode =>
        obtain ⟨policy, -, rfl⟩ := Except.map_eq_ok_iff.1 hmode
        exact Nat.le_refl _
      · exact Nat.le_refl _
    | bind name data => exact Nat.le_refl _
    | bindResource name resource =>
      rw [Session.after, Session.bindResource]
      cases resource.adapt t.policy with
      | error failure => exact Nat.le_refl _
      | ok w => exact (List.prefix_append _ _).length_le
    -- A dropped context leaves its wrapper where it is.
    | dropContext name =>
      rw [Session.after, Session.dropContext]
      split
      · split
        · exact (List.length_set ..).ge
        · exact Nat.le_refl _
      · exact Nat.le_refl _
  | execute before files statement ih =>
    exact Nat.le_trans ih (within_execute (noFewer_perform files) statement _)
  | evaluate before files e ih =>
    exact Nat.le_trans ih (within_evaluate (within_call noFewer_makeWrapper) files e _)

/-- A wrapper that a call makes is the last one. -/
theorem length_of_call {k : Kind} {positional : List Value} {named : Bindings Value} {s : Session}
    {handle : Handle} (h : (k.call positional named s).value = .ok (.wrapper handle)) :
    handle.index = s.store.wrappers.length ∧
      (k.call positional named s).session.store.wrappers.length = handle.index + 1 := by
  obtain ⟨w, session, same⟩ := exists_of_call h
  obtain rfl := Value.wrapper.inj same
  rw [session]
  exact ⟨rfl, List.length_append⟩

/-- Whether wrappers behind two handles have no context in common: what is written through the first
leaves the second as it is. -/
def Session.Apart (s : Session) (handle other : Handle) : Prop :=
  ∀ files target attr value spot,
    (Session.execute files (.write target attr value spot) s).value = .ok () →
    (evaluate files target s).value = .ok (.wrapper handle) →
    (Session.execute files (.write target attr value spot) s).session.store.get? other =
      s.store.get? other

/-- Different wrappers have no context in common. -/
theorem Session.apart_of_ne {s : Session} {handle other : Handle}
    (inside : other.index < s.store.wrappers.length) (differs : other.index ≠ handle.index) :
    s.Apart handle other := by
  intro files target attr value spot succeeds htarget
  obtain ⟨handle', new, w, c, c', a, htarget', -, -, -, -, -, -, rewritten⟩ :=
    exists_rewritten_of_write succeeds
  obtain rfl : handle' = handle := Value.wrapper.inj (Except.ok.inj (htarget'.symm.trans htarget))
  have there : s.store.get? other = some s.store.wrappers[other.index] :=
    List.getElem?_eq_getElem inside
  rw [there]
  exact rewritten.others other _ there differs

/-- **Writing through an alias.** If a value is written to an attribute of an expression, that
expression is a wrapper with a context. Afterwards the attribute is read as the value, in its normal
form, through every name of that wrapper, and everything else is read as before through every name;
all other wrappers are as they were. Two calls of constructors, whatever their arguments are, make
different wrappers, and these never have a context in common. -/
theorem write_seen_through_aliases [CharacterNames] (p : Policy) (steps : List Session.Step)
    (files : Files) {target value : Expr} {attr : Text} {spot : Spot}
    (h : (Session.execute files (.write target attr value spot)
      (Session.reached p steps)).value = .ok ()) :
    let before := Session.reached p steps
    let after := (Session.execute files (.write target attr value spot) before).session
    (∃ handle new w c a,
      (evaluate files target before).value = .ok (.wrapper handle) ∧
      (evaluate files value (evaluate files target before).session).value = .ok new ∧
      (evaluate files value (evaluate files target before).session).session.store.get? handle =
        some w ∧
      w.context = some c ∧ attr = Attribute.name a ∧
      (∀ name spot, Bindings.get? after.globals name = some (.wrapper handle) →
        (evaluate files (readThrough name a spot) after).value = .ok (.plain (a.normal new))) ∧
      (∀ name b spot, ¬ (Bindings.get? after.globals name = some (.wrapper handle) ∧ b = a) →
        (evaluate files (readThrough name b spot) after).value =
          (evaluate files (readThrough name b spot) before).value) ∧
      ∀ other u, before.store.get? other = some u → other.index ≠ handle.index →
        after.store.get? other = some u) ∧
    ∀ (k k' : Kind) positional positional' named named' (s t u : Session) handle handle',
      (k.call positional named s).value = .ok (.wrapper handle) →
      (k.call positional named s).session.Leads t →
      (k'.call positional' named' t).value = .ok (.wrapper handle') →
      (k'.call positional' named' t).session.Leads u →
      handle.index ≠ handle'.index ∧ u.Apart handle handle' ∧ u.Apart handle' handle := by
  have sound := Session.sound_reached p steps
  generalize Session.reached p steps = s at h sound
  intro before after
  constructor
  · obtain ⟨handle, new, w, c, c', a, htarget, hnew, found, has, hcontext, hname, hwrite,
      rewritten⟩ := exists_rewritten_of_write h
    -- The value is evaluated in between, which leaves the wrapper of the target as it is.
    have kind : w.kind = handle.kind := by
      obtain ⟨w', found', kind⟩ := isIn_of_evaluate sound htarget
      have later := (within_grows_evaluate files value _).get?_store found'
      obtain rfl : w' = w := Option.some.inj (later.symm.trans found)
      exact kind
    refine ⟨handle, new, w, c, a, htarget, hnew, found, hcontext, ?_, ?_, ?_, rewritten.others⟩
    · exact (Attribute.name_of_ofName? hname).symm
    · intro name spot bound
      rw [rewritten.globals] at bound
      exact rewritten.value_alias has hwrite bound spot
    · intro name b spot other
      rw [rewritten.globals] at other
      exact rewritten.value_other sound kind has hcontext hwrite other spot
  · intro k k' positional positional' named named' s t u handle handle' first between second later
    obtain ⟨here, length⟩ := length_of_call first
    obtain ⟨here', length'⟩ := length_of_call second
    have le := between.noFewer
    have le' := later.noFewer
    rw [Session.NoFewer] at le le'
    have differs : handle.index ≠ handle'.index := by omega
    refine ⟨differs, ?_, ?_⟩
    · exact Session.apart_of_ne (by omega) differs.symm
    · exact Session.apart_of_ne (by omega) differs

section

open scoped CharacterNames.Unlisted

/-- A module that is excluded under the first of two names is excluded under the second. -/
theorem exclusion_seen_through_second_name :
    let files : Files := fun _ => .error .nullInPath
    let steps : List Session.Step :=
      [.bindResource "m" (.record (.moduleSource { name := "m", source := .bytes [] })),
        .run files "n = m"]
    let exclude : Statement :=
      .write (.name "m" ⟨1, 1⟩) "add_include" (.literal (.bool false) ⟨1, 17⟩) ⟨1, 1⟩
    let after := Session.execute files exclude (Session.reached {} steps)
    after.value = .ok () ∧
      (evaluate files (readThrough "n" .included ⟨1, 1⟩) after.session).value =
        .ok (.plain (.bool false)) := by
  intro files steps exclude after
  have parsed : Script.parse "n = m" = .ok [.assign "n" (.name "m" ⟨1, 5⟩) ⟨1, 1⟩] := by
    have lexes : Script.Lexes "n = m\n" [⟨.word, "n", ⟨0, 1, 1⟩⟩, ⟨.equals, "=", ⟨2, 1, 3⟩⟩,
        ⟨.word, "m", ⟨4, 1, 5⟩⟩, ⟨.newline, "\n", ⟨5, 1, 6⟩⟩] :=
      Script.lexes_iff.2 (by decide +kernel)
    exact Script.parse_ok_iff_lines.2
      ⟨_, Script.readWith_ok_iff.2 ⟨_, lexes, _, rfl, rfl⟩, rfl⟩
  have reached : Session.reached {} steps =
      (Session.executeAll files [.assign "n" (.name "m" ⟨1, 5⟩) ⟨1, 1⟩]
        (Session.reached {} (steps.take 1))).session := by
    show (Session.run files (Session.reached {} (steps.take 1)) "n = m").session = _
    rw [run_of_parse parsed]
  have succeeds : after.value = .ok () := by
    show (Session.execute files exclude (Session.reached {} steps)).value = .ok ()
    rw [reached]
    rfl
  obtain ⟨⟨handle, new, w, c, a, htarget, hnew, -, -, named, aliases, -⟩, -⟩ :=
    write_seen_through_aliases {} steps files succeeds
  -- What is written to is the wrapper of both names.
  have bound : Bindings.get? after.session.globals "n" = some (.wrapper handle) := by
    rw [reached] at htarget
    obtain rfl := Value.wrapper.inj (Except.ok.inj htarget)
    show Bindings.get? (Session.execute files exclude (Session.reached {} steps)).session.globals
      "n" = _
    rw [reached]
    rfl
  obtain rfl : a = .included := by
    have same := Attribute.ofName?_name a
    rw [← named] at same
    exact (Option.some.inj same).symm
  obtain rfl := Except.ok.inj hnew
  exact ⟨succeeds, aliases "n" ⟨1, 1⟩ bound⟩

end

end Packaging
