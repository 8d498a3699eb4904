import Packaging.Proofs.Contexts
import Packaging.Proofs.Outcomes
import Packaging.Proofs.Session.Actions

/-! # Calls of constructors
What a constructor makes of its arguments and how it refuses them. A record that a constructor makes
has its content at hand, so nothing of it is ever read from a file; and where the policy of a
session has explicit places only, every record that can be made gets its wrapper. -/

namespace Packaging

open Packaging.Action

/-! ## Arguments -/

namespace Kind

/-- The parameters of a constructor that take a text for the record to hold as it is. -/
def heldTexts : Kind → List Text
  | sourceModule => ["name"]
  | packageResource => ["package", "name"]
  | distributionResource => ["package", "version", "name"]
  | extensionModule => ["name"]

/-- The parameter of a constructor that takes a text for the record to hold encoded. -/
def encodedText? : Kind → Option Text
  | sourceModule => some "source"
  | packageResource | distributionResource => some "data"
  | extensionModule => none

/-- Whether a constructor is given texts for all that it needs a text for, of which the one to be
encoded has no encoding. -/
def Unencodable (k : Kind) (arguments : Bindings Value) (fault : Utf8.EncodeFault) : Prop :=
  (∀ name ∈ k.heldTexts, ∃ t, Bindings.get? arguments name = some (.plain (.text t))) ∧
    ∃ name ∈ k.encodedText?, ∃ t, Bindings.get? arguments name = some (.plain (.text t)) ∧
      Utf8.encode t = .error fault

variable {k : Kind} {arguments : Bindings Value} {name t : Text} {fault : Fault}

/-- An argument is a text exactly if a text was given for it. -/
theorem textArgument_eq_ok_iff :
    k.textArgument arguments name = .ok t ↔
      Bindings.get? arguments name = some (.plain (.text t)) := by
  rw [textArgument.eq_def]
  cases found : Bindings.get? arguments name with
  | none => simp
  | some value =>
    simp only [Option.getD_some, Option.some.injEq]
    split
    · simp
    · next other => exact ⟨nofun, fun h => absurd h (other t)⟩

/-- What is no text is of the wrong type. -/
theorem wrongType_of_textArgument (h : k.textArgument arguments name = .error fault) :
    ∃ message, fault = .wrongType message := by
  rw [textArgument.eq_def] at h
  split at h
  · cases h
  · exact ⟨_, (Except.error.inj h).symm⟩

/-- The contents that a call is given are bytes at hand. -/
theorem contentArgument_eq_ok {data : FileData}
    (h : k.contentArgument arguments name = .ok data) : ∃ content, data = .bytes content := by
  obtain ⟨t, -, h⟩ := Except.bind_eq_ok_iff.1 h
  rw [Except.mapError_eq_ok_iff, FileData.ofText] at h
  obtain ⟨content, -, rfl⟩ := Except.map_eq_ok_iff.1 h
  exact ⟨content, rfl⟩

/-- A content is refused because it is no text, or because it has no encoding. -/
theorem contentArgument_eq_error_iff :
    k.contentArgument arguments name = .error fault ↔
      k.textArgument arguments name = .error fault ∨
        ∃ t encodeFault, k.textArgument arguments name = .ok t ∧
          Utf8.encode t = .error encodeFault ∧ fault = .encoding encodeFault := by
  rw [contentArgument]
  cases k.textArgument arguments name with
  | error other => simp [bind, Except.bind]
  | ok t =>
    cases encoded : Utf8.encode t with
    | error encodeFault =>
      simp [bind, Except.bind, FileData.ofText, encoded, Except.map, Except.mapError, eq_comm]
    | ok content =>
      simp [bind, Except.bind, FileData.ofText, encoded, Except.map, Except.mapError]

/-- What a text is asked for ends a construction only by being of the wrong type. -/
theorem text_bind_eq_error {rest : Text → Except Fault Record}
    (h : k.textArgument arguments name >>= rest = .error fault) :
    (∃ message, fault = .wrongType message) ∨
      ∃ t, Bindings.get? arguments name = some (.plain (.text t)) ∧ rest t = .error fault := by
  rcases Except.bind_eq_error_iff.1 h with refused | ⟨t, found, h⟩
  · exact Or.inl (wrongType_of_textArgument refused)
  · exact Or.inr ⟨t, textArgument_eq_ok_iff.1 found, h⟩

/-- What a content is asked for ends a construction by being of the wrong type or by having no
encoding, if nothing after it does. -/
theorem content_bind_eq_error {rest : FileData → Record}
    (h : (k.contentArgument arguments name >>= fun data => pure (rest data)) = .error fault) :
    (∃ message, fault = .wrongType message) ∨
      ∃ t encodeFault, Bindings.get? arguments name = some (.plain (.text t)) ∧
        Utf8.encode t = .error encodeFault ∧ fault = .encoding encodeFault := by
  rcases Except.bind_eq_error_iff.1 h with refused | ⟨_, -, h⟩
  · rcases contentArgument_eq_error_iff.1 refused with refused | ⟨t, encodeFault, found, h⟩
    · exact Or.inl (wrongType_of_textArgument refused)
    · exact Or.inr ⟨t, encodeFault, textArgument_eq_ok_iff.1 found, h⟩
  · cases h

/-- A constructor refuses its arguments because one of them is of the wrong type, or because it
is given a text without an encoding. -/
theorem construct_eq_error (h : k.construct arguments = .error fault) :
    (∃ message, fault = .wrongType message) ∨
      ∃ encodeFault, fault = .encoding encodeFault ∧ k.Unencodable arguments encodeFault := by
  cases k with
  | sourceModule =>
    rcases text_bind_eq_error h with wrong | ⟨name, hname, h⟩
    · exact Or.inl wrong
    rcases content_bind_eq_error h with wrong | ⟨t, encodeFault, found, unencoded, rfl⟩
    · exact Or.inl wrong
    -- The content is encoded last, when all other texts are at hand.
    refine Or.inr ⟨encodeFault, rfl, ?_, _, rfl, t, found, unencoded⟩
    simpa [heldTexts] using ⟨name, hname⟩
  | packageResource =>
    rcases text_bind_eq_error h with wrong | ⟨package, hpackage, h⟩
    · exact Or.inl wrong
    rcases text_bind_eq_error h with wrong | ⟨name, hname, h⟩
    · exact Or.inl wrong
    rcases content_bind_eq_error h with wrong | ⟨t, encodeFault, found, unencoded, rfl⟩
    · exact Or.inl wrong
    refine Or.inr ⟨encodeFault, rfl, ?_, _, rfl, t, found, unencoded⟩
    simpa [heldTexts] using ⟨⟨package, hpackage⟩, name, hname⟩
  | distributionResource =>
    rcases text_bind_eq_error h with wrong | ⟨package, hpackage, h⟩
    · exact Or.inl wrong
    rcases text_bind_eq_error h with wrong | ⟨version, hversion, h⟩
    · exact Or.inl wrong
    rcases text_bind_eq_error h with wrong | ⟨name, hname, h⟩
    · exact Or.inl wrong
    rcases content_bind_eq_error h with wrong | ⟨t, encodeFault, found, unencoded, rfl⟩
    · exact Or.inl wrong
    refine Or.inr ⟨encodeFault, rfl, ?_, _, rfl, t, found, unencoded⟩
    simpa [heldTexts] using ⟨⟨package, hpackage⟩, ⟨version, hversion⟩, name, hname⟩
  | extensionModule =>
    rcases text_bind_eq_error h with wrong | ⟨name, -, h⟩
    · exact Or.inl wrong
    · cases h

/-- A text without an encoding is refused as such when all else is right. -/
theorem construct_of_unencodable {encodeFault : Utf8.EncodeFault}
    (h : k.Unencodable arguments encodeFault) :
    k.construct arguments = .error (.encoding encodeFault) := by
  obtain ⟨held, name, mem, t, found, unencoded⟩ := h
  -- All texts are at hand, so nothing fails before the content is encoded.
  have content : k.contentArgument arguments name = .error (.encoding encodeFault) :=
    contentArgument_eq_error_iff.2
      (Or.inr ⟨t, encodeFault, textArgument_eq_ok_iff.2 found, unencoded, rfl⟩)
  have text (name : Text) (needed : name ∈ k.heldTexts) :
      ∃ t, k.textArgument arguments name = .ok t := by
    obtain ⟨t, found⟩ := held name needed
    exact ⟨t, textArgument_eq_ok_iff.2 found⟩
  cases k with
  | sourceModule =>
    obtain rfl := Option.some.inj mem
    obtain ⟨_, hname⟩ := text "name" (by simp [heldTexts])
    simp [construct, hname, content, bind, Except.bind]
  | packageResource =>
    obtain rfl := Option.some.inj mem
    obtain ⟨_, hpackage⟩ := text "package" (by simp [heldTexts])
    obtain ⟨_, hname⟩ := text "name" (by simp [heldTexts])
    simp [construct, hpackage, hname, content, bind, Except.bind]
  | distributionResource =>
    obtain rfl := Option.some.inj mem
    obtain ⟨_, hpackage⟩ := text "package" (by simp [heldTexts])
    obtain ⟨_, hversion⟩ := text "version" (by simp [heldTexts])
    obtain ⟨_, hname⟩ := text "name" (by simp [heldTexts])
    simp [construct, hpackage, hversion, hname, content, bind, Except.bind]
  | extensionModule => cases mem

end Kind

/-! ## Records with their contents at hand -/

/-- Whether the source of a module is at hand, if the record is one of a module. -/
def Record.AtHand (record : Record) : Prop :=
  ∀ m, record = .moduleSource m → ∃ content, m.source = .bytes content

/-- Constructors make records that have their contents at hand. -/
theorem Kind.atHand_of_construct {k : Kind} {arguments : Bindings Value} {record : Record}
    (h : k.construct arguments = .ok record) : record.AtHand := by
  intro m hm
  cases k with
  | sourceModule =>
    obtain ⟨name, -, h⟩ := Except.bind_eq_ok_iff.1 h
    obtain ⟨source, hsource, h⟩ := Except.bind_eq_ok_iff.1 h
    obtain rfl := Record.moduleSource.inj ((Except.ok.inj h).trans hm)
    exact contentArgument_eq_ok hsource
  | packageResource =>
    obtain ⟨package, -, h⟩ := Except.bind_eq_ok_iff.1 h
    obtain ⟨name, -, h⟩ := Except.bind_eq_ok_iff.1 h
    obtain ⟨data, -, h⟩ := Except.bind_eq_ok_iff.1 h
    cases (Except.ok.inj h).trans hm
  | distributionResource =>
    obtain ⟨package, -, h⟩ := Except.bind_eq_ok_iff.1 h
    obtain ⟨version, -, h⟩ := Except.bind_eq_ok_iff.1 h
    obtain ⟨name, -, h⟩ := Except.bind_eq_ok_iff.1 h
    obtain ⟨data, -, h⟩ := Except.bind_eq_ok_iff.1 h
    cases (Except.ok.inj h).trans hm
  | extensionModule =>
    obtain ⟨name, -, h⟩ := Except.bind_eq_ok_iff.1 h
    cases (Except.ok.inj h).trans hm

/-! ## Policies with explicit places only -/

/-- Whether a policy has an explicit place as its location, and as its fallback none or an explicit
place. -/
structure Policy.Places (p : Policy) : Prop where
  /-- The location is an explicit place. -/
  location : ∃ place, p.location = .location (.concrete place)
  /-- The fallback is absent or an explicit place. -/
  fallback : p.fallback = .none ∨ ∃ place, p.fallback = .location (.concrete place)

/-- The policy without settings of its own has explicit places only. -/
theorem Policy.places_default : Policy.Places {} := ⟨⟨.inMemory, rfl⟩, Or.inl rfl⟩

/-- A field holds an explicit place if that is what is found in it. -/
theorem Placement.concrete?_eq_some_iff {placement : Placement} {place : ConcreteLocation} :
    placement.concrete? = some place ↔ placement = .location (.concrete place) := by
  cases placement with
  | location l =>
    cases l with
    | default => simp [concrete?]
    | concrete other => simp [concrete?]
  | other data => simp [concrete?]

/-- A fallback is kept exactly if it is absent or an explicit place. -/
theorem Context.exists_fallbackOf?_iff {given : Placement} :
    (∃ second, fallbackOf? given = some second) ↔
      given = .none ∨ ∃ place, given = .location (.concrete place) := by
  constructor
  · rintro ⟨second, kept⟩
    rw [fallbackOf?.eq_def] at kept
    split at kept
    · exact Or.inl rfl
    · obtain ⟨place, found, -⟩ := Option.map_eq_some_iff.1 kept
      exact Or.inr ⟨place, Placement.concrete?_eq_some_iff.1 found⟩
  · rintro (rfl | ⟨place, rfl⟩)
    · exact ⟨none, rfl⟩
    · exact ⟨some place, rfl⟩

/-- A policy derives contexts exactly if its places are explicit, and then for all resources. -/
theorem Policy.exists_derive_iff {p : Policy} {r : Resource} :
    (∃ c, p.derive r = .ok c) ↔ p.Places := by
  constructor
  · rintro ⟨c, derived⟩
    rw [derive, Context.placedAt] at derived
    split at derived
    · cases derived
    next place hlocation =>
      split at derived
      · cases derived
      next second hfallback =>
        exact ⟨⟨place, Placement.concrete?_eq_some_iff.1 hlocation⟩,
          Context.exists_fallbackOf?_iff.1 ⟨second, hfallback⟩⟩
  · rintro ⟨⟨place, hlocation⟩, hfallback⟩
    obtain ⟨second, kept⟩ := Context.exists_fallbackOf?_iff.2 hfallback
    refine ⟨{ p.unplaced r with location := place, fallback := second }, ?_⟩
    rw [derive, Context.placedAt, Placement.concrete?_eq_some_iff.2 hlocation, kept]

/-- Every record gets a wrapper from a policy with explicit places only. -/
theorem Policy.Places.exists_adapt {p : Policy} (h : p.Places) (record : Record) :
    ∃ w, Resource.adapt p (.record record) = .ok w ∧ w.record = record := by
  cases hasContext : record.kind.hasContext with
  | true =>
    obtain ⟨c, derived⟩ := exists_derive_iff.2 h
    refine ⟨{ record := record, context := some c }, ?_, rfl⟩
    exact Resource.adapt_eq_ok_iff.2 ⟨record, rfl, Or.inl ⟨hasContext, c, derived, rfl⟩⟩
  | false =>
    refine ⟨{ record := record }, ?_, rfl⟩
    exact Resource.adapt_eq_ok_iff.2 ⟨record, rfl, Or.inr ⟨hasContext, rfl⟩⟩

end Packaging
