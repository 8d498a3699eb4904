import Packaging.Adaptation
import Packaging.Policy.Preset

/-! # Contexts of wrappers
A policy may hold anything as a location. What keeps it out of the contexts of wrappers is the check
when a context is placed, and the checks when a location is written: both let only explicit places
through. Flags are only as good as those of the policy until they are written. -/

namespace Packaging

/-! ## Sound contexts -/

/-- Whether plain data is a truth value. -/
def Json.IsBool (data : Json) : Prop := ∃ b, data = .bool b

/-- The location is an explicit place, and so is the fallback if there is one. -/
structure Context.Placed (c : Context) : Prop where
  /-- The location is in memory or relative to the file system. -/
  location : ∃ place, c.location = .concrete place
  /-- So is the fallback, unless it is absent. -/
  fallback : ∀ l, c.fallback = some l → ∃ place, l = .concrete place

/-- All flags are truth values. -/
structure Context.Switched (c : Context) : Prop where
  included : c.included.IsBool
  storeSource : c.storeSource.IsBool
  optimizeLevelZero : c.optimizeLevelZero.IsBool
  optimizeLevelOne : c.optimizeLevelOne.IsBool
  optimizeLevelTwo : c.optimizeLevelTwo.IsBool

/-- All flags of the policy are truth values. -/
def Policy.Switched (p : Policy) : Prop := ∀ f, (p.flag f).IsBool

/-- A truth value is one. -/
theorem Json.isBool_bool (b : Bool) : (Json.bool b).IsBool := ⟨b, rfl⟩

/-- A preset is about the locations only. -/
theorem Policy.switched_withPreset {p : Policy} (h : p.Switched) (preset : Preset) :
    (p.withPreset preset).Switched := by
  intro f
  have same : (p.withPreset preset).flag f = p.flag f := by cases preset <;> cases f <;> rfl
  rw [same]
  exact h f

/-! ## Placing and deriving -/

/-- A context that is placed has explicit places. -/
theorem Context.placed_of_placedAt {c c' : Context} {location fallback : Placement}
    (h : c.placedAt location fallback = .ok c') : c'.Placed := by
  rw [Context.placedAt] at h
  split at h
  · cases h
  · next place hplace =>
    split at h
    · cases h
    · next second hsecond =>
      obtain rfl := Except.ok.inj h
      refine ⟨⟨place, rfl⟩, ?_⟩
      -- A fallback that is there has passed the same check as the location.
      intro l hl
      obtain rfl : second = some l := hl
      rw [Context.fallbackOf?.eq_def] at hsecond
      split at hsecond
      · cases hsecond
      · obtain ⟨place', -, hplace'⟩ := Option.map_eq_some_iff.1 hsecond
        exact ⟨place', (Option.some.inj hplace').symm⟩

/-- Placing a context keeps its flags. -/
theorem Context.switched_of_placedAt {c c' : Context} {location fallback : Placement}
    (h : c.placedAt location fallback = .ok c') (switched : c.Switched) : c'.Switched := by
  rw [Context.placedAt] at h
  split at h
  · cases h
  · split at h
    · cases h
    · obtain rfl := Except.ok.inj h
      obtain ⟨included, storeSource, zero, one, two⟩ := switched
      exact ⟨included, storeSource, zero, one, two⟩

/-- A policy with truth values for flags decides with a truth value whether a resource is collected.
-/
theorem Policy.isBool_collects {p : Policy} (h : p.Switched) (r : Resource) :
    (p.collects r).IsBool := by
  rw [Policy.collects.eq_def]
  split
  · split
    · exact Json.isBool_bool _
    · split
      · exact h .distributionSources
      · exact h .nonDistributionSources
  · split
    · exact Json.isBool_bool _
    · split
      · exact h .distributionResources
      · exact Json.isBool_bool _
  · exact Json.isBool_bool _

/-- The context of such a policy, before it is placed, has truth values for flags too. -/
theorem Policy.switched_unplaced {p : Policy} (h : p.Switched) (r : Resource) :
    (p.unplaced r).Switched := by
  have collects := p.isBool_collects h r
  rw [Policy.unplaced.eq_def]
  split
  · next m =>
    refine ⟨collects, ?_, h .optimizeLevelZero, h .optimizeLevelOne, h .optimizeLevelTwo⟩
    split
    · exact h .distributionSources
    · exact h .nonDistributionSources
  · exact ⟨collects, Json.isBool_bool _, Json.isBool_bool _, Json.isBool_bool _,
      Json.isBool_bool _⟩

/-- Whatever a policy holds, the contexts that it derives are placed. -/
theorem Policy.placed_of_derive {p : Policy} {r : Resource} {c : Context}
    (h : p.derive r = .ok c) : c.Placed :=
  Context.placed_of_placedAt h

/-- A policy whose flags are truth values derives contexts whose flags are truth values. -/
theorem Policy.switched_of_derive {p : Policy} {r : Resource} {c : Context} (h : p.Switched)
    (derived : p.derive r = .ok c) : c.Switched :=
  Context.switched_of_placedAt derived (switched_unplaced h r)

/-! ## Writing -/

/-- A location that is not the default one is an explicit place. -/
theorem Location.eq_concrete_of_ne_default {l : Location} (h : l ≠ .default) :
    ∃ place, l = .concrete place := by
  cases l with
  | default => exact absurd rfl h
  | concrete place => exact ⟨place, rfl⟩

/-- A location that is written is an explicit place, or it is refused. -/
theorem Attribute.placed_of_write {typeName : Text} {c c' : Context} {a : Attribute}
    {value : Value} (h : a.write typeName c value = .ok c') (placed : c.Placed) :
    c'.Placed := by
  obtain ⟨location, fallback⟩ := placed
  -- Only the first two attributes are about places; each refuses the default place.
  cases a with
  | location =>
    rw [Attribute.write] at h
    split at h
    · cases h
    · next place notDefault decoded =>
      obtain rfl := Except.ok.inj h
      exact ⟨Location.eq_concrete_of_ne_default notDefault, fallback⟩
    · cases h
  | fallback =>
    rw [Attribute.write] at h
    split at h
    · obtain rfl := Except.ok.inj h
      refine ⟨location, ?_⟩
      intro l hl
      cases hl
    · next place notDefault decoded =>
      obtain rfl := Except.ok.inj h
      refine ⟨location, ?_⟩
      rintro _ ⟨⟩
      exact Location.eq_concrete_of_ne_default notDefault
    · cases h
  | included | source | optimizeLevelZero | optimizeLevelOne | optimizeLevelTwo =>
    obtain rfl := Except.ok.inj h
    exact ⟨location, fallback⟩

/-- A flag that is written is a truth value, whatever is written to it. -/
theorem Attribute.switched_of_write {typeName : Text} {c c' : Context} {a : Attribute}
    {value : Value} (h : a.write typeName c value = .ok c') (switched : c.Switched) :
    c'.Switched := by
  obtain ⟨included, storeSource, zero, one, two⟩ := switched
  -- Each flag is written as the truth of the value, and the other flags stay.
  cases a with
  | location | fallback =>
    rw [Attribute.write] at h
    split at h
    all_goals
      cases h
      try exact ⟨included, storeSource, zero, one, two⟩
  | included =>
    obtain rfl := Except.ok.inj h
    exact ⟨Json.isBool_bool _, storeSource, zero, one, two⟩
  | source =>
    obtain rfl := Except.ok.inj h
    exact ⟨included, Json.isBool_bool _, zero, one, two⟩
  | optimizeLevelZero =>
    obtain rfl := Except.ok.inj h
    exact ⟨included, storeSource, Json.isBool_bool _, one, two⟩
  | optimizeLevelOne =>
    obtain rfl := Except.ok.inj h
    exact ⟨included, storeSource, zero, Json.isBool_bool _, two⟩
  | optimizeLevelTwo =>
    obtain rfl := Except.ok.inj h
    exact ⟨included, storeSource, zero, one, Json.isBool_bool _⟩

/-! ## What wrappers are made and written to -/

/-- A wrapper is made of a record. It has a context, derived by the policy, exactly if its kind has
one. -/
theorem Resource.adapt_eq_ok_iff {p : Policy} {r : Resource} {w : Wrapper} :
    r.adapt p = .ok w ↔
      ∃ record, r = .record record ∧
        ((record.kind.hasContext = true ∧
            ∃ c, p.derive r = .ok c ∧ w = { record := record, context := some c }) ∨
          (record.kind.hasContext = false ∧ w = { record := record })) := by
  constructor
  · intro h
    rw [Resource.adapt.eq_def] at h
    split at h
    · next record =>
      refine ⟨record, rfl, ?_⟩
      split at h
      · next has =>
        rw [Wrapper.applyPolicy] at h
        split at h
        · next c derived => exact Or.inl ⟨has, c, derived, (Except.ok.inj h).symm⟩
        · cases h
      · next hasNot => exact Or.inr ⟨Bool.eq_false_iff.2 hasNot, (Except.ok.inj h).symm⟩
    · cases h
  · rintro ⟨record, rfl, ⟨has, c, derived, rfl⟩ | ⟨hasNot, rfl⟩⟩
    · rw [Resource.adapt, if_pos has, Wrapper.applyPolicy, derived]
    · rw [Resource.adapt, if_neg (by rw [hasNot]; decide)]

/-- A wrapper is written to through its context, so it must have one, and nothing but the context
changes. -/
theorem Wrapper.set_eq_ok_iff {w w' : Wrapper} {attr : Text} {value : Value} :
    w.set attr value = .ok w' ↔
      w.kind.hasContext = true ∧ ∃ a c c', Attribute.ofName? attr = some a ∧
        w.context = some c ∧ a.write w.typeName c value = .ok c' ∧
        w' = { w with context := some c' } := by
  constructor
  · intro h
    rw [Wrapper.set] at h
    split at h
    · next known =>
      obtain ⟨has, -⟩ := Bool.and_eq_true_iff.1 known
      refine ⟨has, ?_⟩
      -- Every branch but one ends in a refusal.
      rw [Wrapper.setCollection] at h
      split at h
      · next a hname =>
        split at h
        · split at h
          · cases h
          · cases h
        · next c hcontext =>
          split at h
          · next c' hwrite =>
            exact ⟨a, c, c', hname, hcontext, hwrite, (Except.ok.inj h).symm⟩
          · cases h
      · cases h
    · cases h
  · rintro ⟨has, a, c, c', hname, hcontext, hwrite, rfl⟩
    have known : (w.kind.hasContext && (Attribute.ofName? attr).isSome) = true := by
      rw [has, hname]
      rfl
    rw [Wrapper.set, if_pos known, Wrapper.setCollection, hname]
    dsimp only
    rw [hcontext]
    dsimp only
    rw [hwrite]

/-! ## Sound wrappers -/

/-- A wrapper whose context is as it must be; its flags are truth values if `switched` holds. -/
structure Wrapper.Sound (switched : Prop) (w : Wrapper) : Prop where
  /-- An extension module has no context. -/
  extension : w.kind = .extensionModule → w.context = none
  /-- A context is placed. -/
  placed : ∀ c, w.context = some c → c.Placed
  /-- The flags of a context are truth values. -/
  flags : switched → ∀ c, w.context = some c → c.Switched

/-- The wrapper of a resource is sound, whatever the policy holds. -/
theorem Resource.sound_of_adapt {switched : Prop} {p : Policy} {r : Resource} {w : Wrapper}
    (policy : switched → p.Switched) (h : r.adapt p = .ok w) : w.Sound switched := by
  obtain ⟨record, rfl, ⟨has, c, derived, rfl⟩ | ⟨-, rfl⟩⟩ := Resource.adapt_eq_ok_iff.1 h
  · refine ⟨?_, ?_, ?_⟩
    · intro extension
      rw [show record.kind = .extensionModule from extension] at has
      cases has
    · rintro _ ⟨⟩
      exact Policy.placed_of_derive derived
    · rintro on _ ⟨⟩
      exact Policy.switched_of_derive (policy on) derived
  · exact ⟨fun _ => rfl, nofun, nofun⟩

/-- A sound wrapper that is written to stays sound. -/
theorem Wrapper.sound_of_set {switched : Prop} {w w' : Wrapper} {attr : Text} {value : Value}
    (h : w.set attr value = .ok w') (sound : w.Sound switched) : w'.Sound switched := by
  obtain ⟨has, a, c, c', -, hcontext, hwrite, rfl⟩ := Wrapper.set_eq_ok_iff.1 h
  refine ⟨?_, ?_, ?_⟩
  · intro extension
    rw [show w.kind = .extensionModule from extension] at has
    cases has
  · rintro _ ⟨⟩
    exact Attribute.placed_of_write hwrite (sound.placed c hcontext)
  · rintro on _ ⟨⟩
    exact Attribute.switched_of_write hwrite (sound.flags on c hcontext)

/-- A wrapper that loses its context is sound. -/
theorem Wrapper.sound_dropContext (switched : Prop) (w : Wrapper) :
    w.dropContext.Sound switched :=
  ⟨fun _ => rfl, nofun, nofun⟩

end Packaging
