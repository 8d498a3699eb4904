import Packaging.Proofs.Policy.Schema

/-! # Policies through their documents
Nothing checks a policy when it is made, so it may hold anything in its places and flags. Its
document describes it again exactly if its places are explicit and its flags truth values. Any other
policy has no document, or one that is refused, but for one case: the default location as the
fallback is written as an absent one. -/

namespace Packaging.Policy

/-! ## Written places -/

/-- What a place is written as: its text if it is explicit, else the null value. -/
theorem encodePlacement_eq_ok {placement : Placement} {data : Json}
    (h : encodePlacement placement = .ok data) :
    (∃ place : ConcreteLocation, placement = .location (.concrete place) ∧
      data = .text place.encode) ∨
    ((placement = .location .default ∨ placement = .none) ∧ data = .null) := by
  cases placement with
  | location l =>
    obtain rfl := Except.ok.inj h
    cases l with
    | default => exact Or.inr ⟨Or.inl rfl, rfl⟩
    | concrete place => exact Or.inl ⟨place, rfl, rfl⟩
  | other raw =>
    cases raw with
    | null => exact Or.inr ⟨Or.inr rfl, (Except.ok.inj h).symm⟩
    | bool _ | int _ | float _ | text _ | array _ | object _ => cases h

/-- What is no place cannot be written. -/
theorem encodePlacement_cases (placement : Placement) :
    (∃ message, encodePlacement placement = .error (Fault.wrongType message)) ∨
      ∃ data, encodePlacement placement = .ok data := by
  cases placement with
  | location l => exact Or.inr ⟨_, rfl⟩
  | other raw =>
    cases raw with
    | null => exact Or.inr ⟨_, rfl⟩
    | bool _ | int _ | float _ | text _ | array _ | object _ => exact Or.inl ⟨_, rfl⟩

variable {p q : Policy} {path : Option Text} {location fallback : Json}

/-- A policy whose two locations can be written has a document. -/
theorem toJson_of_encoded (hlocation : encodePlacement p.location = .ok location)
    (hfallback : encodePlacement p.fallback = .ok fallback) :
    p.toJson = .ok (.object (documentMembers p location fallback)) := by
  rw [toJson, toMembers, hlocation, hfallback]
  rfl

/-- Writing such a policy and reading it back is reading its document. -/
theorem toJson_bind_of_encoded (hlocation : encodePlacement p.location = .ok location)
    (hfallback : encodePlacement p.fallback = .ok fallback) (path : Option Text) :
    p.toJson.bind (ofJson path) = ofJson path (.object (documentMembers p location fallback)) := by
  rw [toJson_of_encoded hlocation hfallback, Except.bind]

/-- A policy has a document, or one of its places cannot be written. -/
theorem toJson_cases (p : Policy) :
    (∃ message, p.toJson = .error (Fault.wrongType message)) ∨
      ∃ location fallback, encodePlacement p.location = .ok location ∧
        encodePlacement p.fallback = .ok fallback := by
  rcases encodePlacement_cases p.location with ⟨message, refused⟩ | ⟨location, hlocation⟩
  · refine Or.inl ⟨message, ?_⟩
    rw [toJson, toMembers, refused]
    rfl
  · rcases encodePlacement_cases p.fallback with ⟨message, refused⟩ | ⟨fallback, hfallback⟩
    · refine Or.inl ⟨message, ?_⟩
      rw [toJson, toMembers, hlocation, refused]
      rfl
    · exact Or.inr ⟨location, fallback, hlocation, hfallback⟩

/-! ## Documents that are accepted -/

/-- What the document of a policy comes to is that policy, but for a fallback that is the default
location. -/
theorem eq_of_ofJson_documentMembers (hlocation : encodePlacement p.location = .ok location)
    (hfallback : encodePlacement p.fallback = .ok fallback)
    (h : ofJson path (.object (documentMembers p location fallback)) = .ok q) :
    q = p ∨ p.fallback = .location .default ∧ q = { p with fallback := .none } := by
  obtain ⟨pass, comes⟩ := ofJson_eq_ok_iff.1 h
  have flags (f : Flag) : q.flag f = p.flag f := by
    rw [comes.flag f, Json.field?_object, get?_flag_documentMembers f]
    rfl
  have givenLocation : (documentMembers p location fallback).get? locationField = some location :=
    get?_documentMembers (by simp [documentMembers])
  have givenFallback : (documentMembers p location fallback).get? fallbackField = some fallback :=
    get?_documentMembers (by simp [documentMembers])
  have sameLocation : q.location = p.location := by
    obtain ⟨place, rfl⟩ := pass .location location givenLocation
    rw [comes.location_given place givenLocation]
    rcases encodePlacement_eq_ok hlocation with ⟨other, same, written⟩ | ⟨-, written⟩
    · rw [same, ConcreteLocation.encode_injective (Json.text.inj written)]
    · cases written
  rcases encodePlacement_eq_ok hfallback with ⟨place, same, rfl⟩ | ⟨default | none, rfl⟩
  · have sameFallback := (comes.fallback_given place givenFallback).trans same.symm
    exact Or.inl (eq_of_flags sameLocation sameFallback flags)
  · refine Or.inr ⟨default, eq_of_flags sameLocation ?_ fun f => ?_⟩
    · exact comes.fallback_none (Or.inl givenFallback)
    · exact (flags f).trans (flag_withPlaces p p.location .none f).symm
  · have sameFallback := (comes.fallback_none (Or.inl givenFallback)).trans none.symm
    exact Or.inl (eq_of_flags sameLocation sameFallback flags)

/-- The document of a valid policy is accepted. -/
theorem toJson_bind_ofJson (places : p.Places) (switched : p.Switched) (path : Option Text) :
    p.toJson.bind (ofJson path) = .ok p := by
  obtain ⟨place, hlocation⟩ := places.location
  have encoded : encodePlacement p.location = .ok (.text place.encode) := by
    rw [hlocation]
    rfl
  rcases places.fallback with hfallback | ⟨second, hfallback⟩
  · have encoded' : encodePlacement p.fallback = .ok .null := by
      rw [hfallback]
      rfl
    rw [toJson_bind_of_encoded encoded encoded']
    exact (describes_documentMembers switched hlocation (Or.inl ⟨hfallback, rfl⟩)).ofJson_eq path
  · have encoded' : encodePlacement p.fallback = .ok (.text second.encode) := by
      rw [hfallback]
      rfl
    rw [toJson_bind_of_encoded encoded encoded']
    exact (describes_documentMembers switched hlocation
      (Or.inr ⟨second, hfallback, rfl⟩)).ofJson_eq path

/-- **The document of a policy comes to that policy exactly if the policy is valid.** An invalid
policy has no document, or one that is refused, or all that changes is that its fallback, the default
location, is absent afterwards. -/
theorem document_round_trip (p : Policy) (path : Option Text) :
    (p.toJson.bind (ofJson path) = .ok p ↔ p.Places ∧ p.Switched) ∧
    (¬ (p.Places ∧ p.Switched) →
      (∃ message, p.toJson = .error (Fault.wrongType message)) ∨
      (∃ document d cause, p.toJson = .ok document ∧
        ofJson path document = .error ⟨.diagnostic d, cause⟩ ∧ d.kind = .policyConfig path) ∨
      p.fallback = .location .default ∧
        p.toJson.bind (ofJson path) = .ok { p with fallback := .none }) := by
  have comesBack : p.toJson.bind (ofJson path) = .ok p ↔ p.Places ∧ p.Switched := by
    constructor
    · intro h
      obtain ⟨document, -, described⟩ := Except.bind_eq_ok_iff.1 h
      exact places_and_switched_of_ofJson described
    · rintro ⟨places, switched⟩
      exact toJson_bind_ofJson places switched path
  refine ⟨comesBack, fun invalid => ?_⟩
  -- If what is printed is read at all, then as the policy itself, except that a fallback which is the
  -- default is dropped.
  rcases toJson_cases p with noDocument | ⟨location, fallback, hlocation, hfallback⟩
  · exact Or.inl noDocument
  have written := toJson_of_encoded hlocation hfallback
  have both := toJson_bind_of_encoded hlocation hfallback path
  cases outcome : ofJson path (.object (documentMembers p location fallback)) with
  | error failure =>
    obtain ⟨check, -, refused⟩ := ofJson_eq_error_iff.1 outcome
    obtain ⟨d, cause, rfl, named⟩ := refused.exists_kind_eq
    exact Or.inr (Or.inl ⟨_, d, cause, written, outcome, named⟩)
  | ok q =>
    rcases eq_of_ofJson_documentMembers hlocation hfallback outcome with rfl | ⟨default, rfl⟩
    · exact absurd (comesBack.1 (both.trans outcome)) invalid
    · exact Or.inr (Or.inr ⟨default, both.trans outcome⟩)

/-- A policy whose fallback is the default location is the one case in which a document is accepted
that does not describe the policy; a text as the location has no document, and a number as a flag one
that is refused. -/
theorem default_fallback_is_lost :
    (toJson { fallback := .location .default }).bind (ofJson none) = .ok {} ∧
    (∃ message, toJson { location := .other (.text "in-memory") } =
      .error (Fault.wrongType message)) ∧
    ∃ document d cause, toJson { test := .int 1 } = .ok document ∧
      ofJson none document = .error ⟨.diagnostic d, cause⟩ ∧ d.kind = .policyConfig none := by
  have noFallback : ¬ (Places { fallback := .location .default } ∧
      Switched { fallback := .location .default }) := by
    rintro ⟨places, -⟩
    rcases places.fallback with none | ⟨place, same⟩
    · cases none
    · cases same
  have noLocation : ¬ (Places { location := .other (.text "in-memory") } ∧
      Switched { location := .other (.text "in-memory") }) := by
    rintro ⟨places, -⟩
    obtain ⟨place, same⟩ := places.location
    cases same
  have noTruth : ¬ (Places { test := .int 1 } ∧ Switched { test := .int 1 }) := by
    rintro ⟨-, switched⟩
    obtain ⟨b, same⟩ := switched .test
    cases same
  refine ⟨?_, ?_, ?_⟩
  · rcases (document_round_trip _ none).2 noFallback with ⟨_, none⟩ | refused | ⟨-, same⟩
    · cases none
    · obtain ⟨document, d, cause, written, refused, -⟩ := refused
      have accepted : ((toJson { fallback := .location .default }).bind
          (ofJson none)).toOption.isSome = true := by decide +kernel
      rw [written] at accepted
      change (ofJson none document).toOption.isSome = true at accepted
      rw [refused] at accepted
      cases accepted
    · exact same
  · rcases (document_round_trip _ none).2 noLocation with none | refused | ⟨default, -⟩
    · exact none
    · obtain ⟨document, d, cause, written, -⟩ := refused
      cases written
    · cases default
  · rcases (document_round_trip _ none).2 noTruth with ⟨_, none⟩ | refused | ⟨default, -⟩
    · cases none
    · exact refused
    · cases default

end Packaging.Policy
