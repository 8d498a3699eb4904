import Packaging.Proofs.Policy.Checks
import Packaging.Proofs.Session.Constructors

/-! # What policy documents come to
A document that passes all checks comes to exactly one policy: what it gives itself counts first,
then what its preset says, then the defaults. Any other document is refused as the first check that
fails says. None of this depends on the order of the members. -/

namespace Packaging.Policy

/-! ## What the readers do -/

section Readers

variable {path : Option Text} {members : Members} {p q : Policy}

/-- The places of a policy say nothing about its flags. -/
theorem flag_withPlaces (p : Policy) (location fallback : Placement) (f : Flag) :
    flag { p with location := location, fallback := fallback } f = p.flag f := by
  cases f with
  | _ => rfl

/-- The preset that a document names decides the places of the default policy, and nothing else. -/
theorem readMode_places (h : readMode path members {} = .ok q) :
    (∀ preset : Preset, members.get? modeField = some (.text preset.name) →
      q.location = preset.location ∧ q.fallback = preset.fallback) ∧
    ((members.get? modeField = none ∨ members.get? modeField = some .null) →
      q.location = .inMemory ∧ q.fallback = .none) ∧
    ∀ f, q.flag f = flag {} f := by
  refine ⟨fun preset named => ?_, ?_, fun f => ?_⟩
  · have set : setMode {} preset.name = .ok (withPreset {} preset) :=
      setMode_eq_ok_iff.2 ⟨preset, rfl, rfl⟩
    simp only [readMode, named, set] at h
    rw [← Except.ok.inj h, withPreset_eq]
    exact ⟨rfl, rfl⟩
  · rintro (absent | null)
    · rw [readMode, absent] at h
      rw [← Except.ok.inj h]
      exact ⟨rfl, rfl⟩
    · rw [readMode, null] at h
      rw [← Except.ok.inj h]
      exact ⟨rfl, rfl⟩
  -- No preset has anything to say about flags.
  · rw [readMode] at h
    split at h
    · rw [← Except.ok.inj h]
    · rw [← Except.ok.inj h]
    · split at h
      next q' set =>
        obtain ⟨preset, -, rfl⟩ := setMode_eq_ok_iff.1 set
        rw [← Except.ok.inj h, withPreset_eq, flag_withPlaces]
      · cases h
    · cases h

/-- A location that is given replaces the location, and nothing else. -/
theorem readLocation_places (h : readLocation path members p = .ok q) :
    (∀ place : ConcreteLocation, members.get? locationField = some (.text place.encode) →
      q.location = .location (.concrete place)) ∧
    (members.get? locationField = none → q.location = p.location) ∧
    q.fallback = p.fallback ∧ ∀ f, q.flag f = p.flag f := by
  have others : q.fallback = p.fallback ∧ ∀ f, q.flag f = p.flag f := by
    rw [readLocation] at h
    split at h
    · obtain rfl := Except.ok.inj h
      exact ⟨rfl, fun f => rfl⟩
    · split at h
      · rw [← Except.ok.inj h]
        exact ⟨rfl, flag_withPlaces p _ p.fallback⟩
      · cases h
  refine ⟨fun place given => ?_, fun absent => ?_, others⟩
  · simp only [readLocation, given, Location.decodeConcrete_eq_ok_iff.2 rfl] at h
    rw [← Except.ok.inj h]
  · rw [readLocation, absent] at h
    rw [← Except.ok.inj h]

/-- A fallback that is given replaces the fallback, and nothing else. -/
theorem readFallback_places (h : readFallback path members p = .ok q) :
    (∀ place : ConcreteLocation, members.get? fallbackField = some (.text place.encode) →
      q.fallback = .location (.concrete place)) ∧
    ((members.get? fallbackField = some .null ∨
      members.get? fallbackField = some (.text Location.defaultText)) → q.fallback = .none) ∧
    (members.get? fallbackField = none → q.fallback = p.fallback) ∧
    q.location = p.location ∧ ∀ f, q.flag f = p.flag f := by
  -- Whatever stands there, the location and the flags are left alone.
  have others : q.location = p.location ∧ ∀ f, q.flag f = p.flag f := by
    rw [readFallback] at h
    split at h
    · obtain rfl := Except.ok.inj h
      exact ⟨rfl, fun f => rfl⟩
    · split at h
      · rw [← Except.ok.inj h]
        exact ⟨rfl, flag_withPlaces p p.location _⟩
      · rw [← Except.ok.inj h]
        exact ⟨rfl, flag_withPlaces p p.location _⟩
      · cases h
  refine ⟨fun place given => ?_, ?_, fun absent => ?_, others⟩
  · simp only [readFallback, given, Location.decode_eq_concrete_iff.2 rfl] at h
    rw [← Except.ok.inj h]
  · rintro (given | given)
    · simp only [readFallback, given, Location.decode_eq_default_iff.2 (Or.inl rfl)] at h
      rw [← Except.ok.inj h]
    · simp only [readFallback, given, Location.decode_eq_default_iff.2 (Or.inr rfl)] at h
      rw [← Except.ok.inj h]
  · rw [readFallback, absent] at h
    rw [← Except.ok.inj h]

/-- Reading a flag changes that flag only, to what is given for it. -/
theorem readFlag_eq_ok {f : Flag} (h : readFlag path members p f = .ok q) :
    (members.get? f.field = none ∧ q = p) ∨
      ∃ b, members.get? f.field = some (.bool b) ∧ q = p.setFlag f (.bool b) := by
  rw [readFlag] at h
  split at h
  next absent => exact Or.inl ⟨absent, (Except.ok.inj h).symm⟩
  next b given => exact Or.inr ⟨b, given, (Except.ok.inj h).symm⟩
  · cases h

/-- Reading some flags keeps the locations and takes each of these flags from the document, where it
is given. -/
theorem readFlags_eq_ok {flags : List Flag}
    (h : flags.foldlM (readFlag path members) p = .ok q) :
    q.location = p.location ∧ q.fallback = p.fallback ∧
      ∀ g, q.flag g = if g ∈ flags then (members.get? g.field).getD (p.flag g) else p.flag g := by
  induction flags generalizing p with
  | nil =>
    obtain rfl := Except.ok.inj h
    exact ⟨rfl, rfl, fun g => rfl⟩
  | cons f flags ih =>
    rw [List.foldlM_cons] at h
    obtain ⟨r, first, rest⟩ := Except.bind_eq_ok_iff.1 h
    obtain ⟨location, fallback, flag⟩ := ih rest
    rcases readFlag_eq_ok first with ⟨absent, rfl⟩ | ⟨b, given, rfl⟩
    · refine ⟨location, fallback, fun g => ?_⟩
      rw [flag g]
      by_cases same : g = f
      · simp [same, absent]
      · simp [same]
    · refine ⟨?_, ?_, fun g => ?_⟩
      · rw [location, location_setFlag]
      · rw [fallback, fallback_setFlag]
      · rw [flag g, flag_setFlag]
        by_cases same : g = f
        · simp [same, given]
        · simp [same]

end Readers

/-! ## Whole documents -/

/-- What the fields of a document say about the policy that it describes: for each place and each
flag, what is given counts, else what the preset says, else the default. -/
structure ComesTo (given : Text → Option Json) (p : Policy) : Prop where
  /-- A location that is given is the location. -/
  location_given : ∀ place : ConcreteLocation, given locationField = some (.text place.encode) →
    p.location = .location (.concrete place)
  /-- Else the preset decides. -/
  location_preset : given locationField = none → ∀ preset : Preset,
    given modeField = some (.text preset.name) → p.location = preset.location
  /-- Else resources are placed in memory. -/
  location_default : given locationField = none →
    (given modeField = none ∨ given modeField = some .null) → p.location = .inMemory
  /-- A fallback that is given is the fallback. -/
  fallback_given : ∀ place : ConcreteLocation, given fallbackField = some (.text place.encode) →
    p.fallback = .location (.concrete place)
  /-- The default location as the fallback means that there is none. -/
  fallback_none : (given fallbackField = some .null ∨
    given fallbackField = some (.text Location.defaultText)) → p.fallback = .none
  /-- Else the preset decides. -/
  fallback_preset : given fallbackField = none → ∀ preset : Preset,
    given modeField = some (.text preset.name) → p.fallback = preset.fallback
  /-- Else there is none. -/
  fallback_default : given fallbackField = none →
    (given modeField = none ∨ given modeField = some .null) → p.fallback = .none
  /-- A flag is as it is given, else as it is by default. -/
  flag : ∀ f : Flag, p.flag f = (given f.field).getD (flag {} f)

section Documents

variable {path : Option Text} {data : Json} {members others : Members} {p q : Policy}
  {failure : Failure}

/-- What a document is read as is what its fields come to. -/
theorem comesTo_of_ofJson (h : ofJson path data = .ok p) : ComesTo data.field? p := by
  rw [ofJson] at h
  obtain ⟨members, header, h⟩ := Except.bind_eq_ok_iff.1 h
  obtain ⟨q₁, mode, h⟩ := Except.bind_eq_ok_iff.1 h
  obtain ⟨q₂, location, h⟩ := Except.bind_eq_ok_iff.1 h
  obtain ⟨q₃, fallback, flags⟩ := Except.bind_eq_ok_iff.1 h
  obtain rfl := eq_of_checkHeader header
  obtain ⟨preset, default, flags₁⟩ := readMode_places mode
  obtain ⟨locationGiven, locationAbsent, fallback₂, flags₂⟩ := readLocation_places location
  obtain ⟨fallbackGiven, fallbackNone, fallbackAbsent, location₃, flags₃⟩ :=
    readFallback_places fallback
  obtain ⟨location₄, fallback₄, flags₄⟩ := readFlags_eq_ok flags
  -- Each reader leaves alone what the others set, so every field comes from one of them.
  have atLocation : p.location = q₂.location := location₄.trans location₃
  constructor
  · exact fun place given => atLocation.trans (locationGiven place given)
  · exact fun absent chosen named =>
      (atLocation.trans (locationAbsent absent)).trans (preset chosen named).1
  · exact fun absent none =>
      (atLocation.trans (locationAbsent absent)).trans (default none).1
  · exact fun place given => fallback₄.trans (fallbackGiven place given)
  · exact fun none => fallback₄.trans (fallbackNone none)
  · exact fun absent chosen named =>
      ((fallback₄.trans (fallbackAbsent absent)).trans fallback₂).trans (preset chosen named).2
  · exact fun absent none =>
      ((fallback₄.trans (fallbackAbsent absent)).trans fallback₂).trans (default none).2
  · intro f
    rw [flags₄, if_pos f.mem_all, flags₃, flags₂, flags₁]
    rfl

/-- All that a policy holds is its places and its flags. -/
theorem eq_of_flags (location : p.location = q.location) (fallback : p.fallback = q.fallback)
    (flags : ∀ f, p.flag f = q.flag f) : p = q := by
  cases p
  cases q
  obtain rfl := location
  obtain rfl := fallback
  congr
  · exact flags .distributionSources
  · exact flags .nonDistributionSources
  · exact flags .distributionResources
  · exact flags .test
  · exact flags .optimizeLevelZero
  · exact flags .optimizeLevelOne
  · exact flags .optimizeLevelTwo

/-- A document that passes the checks comes to one policy only. -/
theorem ComesTo.unique (h : ComesTo data.field? p) (h' : ComesTo data.field? q)
    (pass : ∀ check, Check.Passes data check) : p = q := by
  have mode := pass .mode
  have location := pass .location
  have fallback := pass .fallback
  -- Each field decides between what is given, the preset and the default; the checks leave no
  -- fourth.
  refine eq_of_flags ?_ ?_ fun f => (h.flag f).trans (h'.flag f).symm
  · cases given : data.field? locationField with
    | some v =>
      obtain ⟨place, rfl⟩ := location v given
      rw [h.location_given place given, h'.location_given place given]
    | none =>
      cases named : data.field? modeField with
      | none =>
        rw [h.location_default given (Or.inl named), h'.location_default given (Or.inl named)]
      | some v =>
        rcases mode v named with rfl | ⟨preset, rfl⟩
        · rw [h.location_default given (Or.inr named), h'.location_default given (Or.inr named)]
        · rw [h.location_preset given preset named, h'.location_preset given preset named]
  · cases given : data.field? fallbackField with
    | some v =>
      rcases fallback v given with (rfl | rfl) | ⟨place, rfl⟩
      · rw [h.fallback_none (Or.inl given), h'.fallback_none (Or.inl given)]
      · rw [h.fallback_none (Or.inr given), h'.fallback_none (Or.inr given)]
      · rw [h.fallback_given place given, h'.fallback_given place given]
    | none =>
      cases named : data.field? modeField with
      | none =>
        rw [h.fallback_default given (Or.inl named), h'.fallback_default given (Or.inl named)]
      | some v =>
        rcases mode v named with rfl | ⟨preset, rfl⟩
        · rw [h.fallback_default given (Or.inr named), h'.fallback_default given (Or.inr named)]
        · rw [h.fallback_preset given preset named, h'.fallback_preset given preset named]

/-- A document is accepted if it passes all checks. -/
theorem exists_ofJson_eq_ok_iff :
    (∃ p, ofJson path data = .ok p) ↔ ∀ check, Check.Passes data check := by
  have settles := settles_ofJson path data
  constructor
  · rintro ⟨p, h⟩ check
    rw [h] at settles
    exact settles.forall_passes check check.mem_all
  · intro pass
    cases outcome : ofJson path data with
    | ok p => exact ⟨p, rfl⟩
    | error failure =>
      rw [outcome] at settles
      obtain ⟨check, first, -⟩ := settles.exists_first
      exact absurd (pass check) first.fails

/-- **A document describes the policy that it comes to,** if it passes all checks. -/
theorem ofJson_eq_ok_iff :
    ofJson path data = .ok p ↔ (∀ check, Check.Passes data check) ∧ ComesTo data.field? p := by
  refine ⟨fun h => ⟨exists_ofJson_eq_ok_iff.1 ⟨p, h⟩, comesTo_of_ofJson h⟩, ?_⟩
  rintro ⟨pass, comes⟩
  obtain ⟨q, h⟩ : ∃ q, ofJson path data = .ok q := exists_ofJson_eq_ok_iff.2 pass
  rw [comes.unique (comesTo_of_ofJson h) pass, h]

/-- **What a document comes to is valid:** its places are explicit and its flags truth values. -/
theorem places_and_switched_of_ofJson (h : ofJson path data = .ok p) : p.Places ∧ p.Switched := by
  obtain ⟨pass, comes⟩ := ofJson_eq_ok_iff.1 h
  -- A field that is given has passed its check, and a preset and the default are explicit places.
  refine ⟨⟨?_, ?_⟩, fun f => ?_⟩
  · cases given : data.field? locationField with
    | some v =>
      obtain ⟨place, rfl⟩ := pass .location v given
      exact ⟨place, comes.location_given place given⟩
    | none =>
      cases named : data.field? modeField with
      | none => exact ⟨.inMemory, comes.location_default given (Or.inl named)⟩
      | some v =>
        rcases pass .mode v named with rfl | ⟨preset, rfl⟩
        · exact ⟨.inMemory, comes.location_default given (Or.inr named)⟩
        · rw [comes.location_preset given preset named]
          exact preset.exists_location_eq
  · cases given : data.field? fallbackField with
    | some v =>
      rcases pass .fallback v given with (rfl | rfl) | ⟨place, rfl⟩
      · exact Or.inl (comes.fallback_none (Or.inl given))
      · exact Or.inl (comes.fallback_none (Or.inr given))
      · exact Or.inr ⟨place, comes.fallback_given place given⟩
    | none =>
      cases named : data.field? modeField with
      | none => exact Or.inl (comes.fallback_default given (Or.inl named))
      | some v =>
        rcases pass .mode v named with rfl | ⟨preset, rfl⟩
        · exact Or.inl (comes.fallback_default given (Or.inr named))
        · rw [comes.fallback_preset given preset named]
          exact preset.fallback_eq_none_or
  · rw [comes.flag f]
    cases given : data.field? f.field with
    | some v => exact pass (.flag f) v given
    | none => exact loadable_default.switched f

/-- **The first check that fails decides how a document is refused.** -/
theorem ofJson_eq_error_iff :
    ofJson path data = .error failure ↔
      ∃ check, Check.First data check ∧ Refused path data check failure := by
  constructor
  · intro h
    have settles := settles_ofJson path data
    rw [h] at settles
    exact settles.exists_first
  · rintro ⟨check, first, refused⟩
    have settles := settles_ofJson path data
    cases outcome : ofJson path data with
    | ok p =>
      rw [outcome] at settles
      exact absurd (settles.forall_passes check check.mem_all) first.fails
    | error failure' =>
      rw [outcome] at settles
      obtain ⟨check', first', refused'⟩ := settles.exists_first
      obtain rfl := first.unique first'
      rw [refused.unique refused']

/-! ### The order of members -/

section Order

variable (perm : others.Perm members) (distinct : (members.map (·.1)).Nodup)

include perm distinct

/-- The order of members does not matter to any field. -/
theorem field?_of_perm : (Json.object others).field? = (Json.object members).field? :=
  funext fun _ => Bindings.get?_of_perm perm distinct

/-- The order of members does not matter to any check. -/
theorem Check.passes_of_perm (check : Check) :
    check.Passes (.object others) ↔ check.Passes (.object members) := by
  cases check with
  | object => exact iff_of_true ⟨others, rfl⟩ ⟨members, rfl⟩
  | fields =>
    simp only [Passes, Json.object.injEq, forall_eq', perm.mem_iff]
  | header | mode | location | fallback | flag _ =>
    simp only [Passes, field?_of_perm perm distinct]

/-- The order of members does not matter to which check fails first. -/
theorem Check.First.of_perm {check : Check} (h : First (.object members) check) :
    First (.object others) check where
  fails pass := h.fails ((check.passes_of_perm perm distinct).1 pass)
  earlier c before := (c.passes_of_perm perm distinct).2 (h.earlier c before)

/-- The order of members does not matter to the words of a refusal. -/
theorem Refused.of_perm {check : Check} (h : Refused path (.object members) check failure) :
    Refused path (.object others) check failure := by
  have same := field?_of_perm perm distinct
  cases h with
  | object => exact .object
  | header => exact .header
  | fields hmembers unknown sorted =>
    obtain rfl := Json.object.inj hmembers
    exact .fields rfl (unknown.trans ((perm.symm.map _).filter _)) sorted
  | modeKind noText => exact .modeKind (by rwa [same])
  | modeName found => exact .modeName (by rwa [same])
  | location found refused => exact .location (by rwa [same]) refused
  | fallback found refused => exact .fallback (by rwa [same]) refused
  | flag f => exact .flag f

/-- The order of the members of an object decides nothing, whether it is accepted or refused. -/
theorem ofJson_of_perm : ofJson path (.object others) = ofJson path (.object members) := by
  cases outcome : ofJson path (.object members) with
  | ok p =>
    obtain ⟨pass, comes⟩ := ofJson_eq_ok_iff.1 outcome
    refine ofJson_eq_ok_iff.2 ⟨fun check => (check.passes_of_perm perm distinct).2 (pass check), ?_⟩
    rwa [field?_of_perm perm distinct]
  | error failure =>
    obtain ⟨check, first, refused⟩ := ofJson_eq_error_iff.1 outcome
    exact ofJson_eq_error_iff.2
      ⟨check, first.of_perm perm distinct, refused.of_perm perm distinct⟩

end Order

/-- **A document is read exactly as it is checked.** It is accepted if it passes all checks; it then
comes to one policy, in which what it gives counts first, then its preset, then the defaults. Else it
is refused as the first check that fails says, with a diagnostic that names the path. The order of
its members does not matter. -/
theorem ofJson_exact (path : Option Text) (data : Json) :
    ((∃ p, ofJson path data = .ok p) ↔ ∀ check, Check.Passes data check) ∧
    (∀ p, ofJson path data = .ok p ↔
      (∀ check, Check.Passes data check) ∧ ComesTo data.field? p) ∧
    (∀ failure, ofJson path data = .error failure ↔
      ∃ check, Check.First data check ∧ Refused path data check failure) ∧
    (∀ failure, ofJson path data = .error failure → ∃ (d : Diagnostic) (cause : Option Fault),
      failure = ⟨.diagnostic d, cause⟩ ∧ d.kind = .policyConfig path) ∧
    ∀ members others : Members, data = .object members → (members.map (·.1)).Nodup →
      others.Perm members → ofJson path (.object others) = ofJson path data := by
  refine ⟨exists_ofJson_eq_ok_iff, fun p => ofJson_eq_ok_iff, fun failure => ofJson_eq_error_iff,
    fun failure refused => ?_, ?_⟩
  · obtain ⟨check, -, refused⟩ := ofJson_eq_error_iff.1 refused
    exact refused.exists_kind_eq
  · rintro members others rfl distinct perm
    exact ofJson_of_perm perm distinct

end Documents

/-- A document that names a preset and gives a location and a flag of its own. -/
def mixedDocument : Members :=
  [(modeField, .text "prefer-in-memory-fallback-filesystem-relative:lib"),
    (versionField, .int 0), (locationField, .text "filesystem-relative:app"),
    (formatField, .text "starpack-policy"), (Flag.test.field, .bool true)]

/-- Its own location counts, and the fallback of its preset; with its members in another order it
comes to the same policy. -/
theorem mixedDocument_comes_to : ∃ p, ofJson none (.object mixedDocument) = .ok p ∧
    p.location = .location (.concrete (.filesystemRelative "app")) ∧
    p.fallback = .location (.concrete (.filesystemRelative "lib")) ∧
    p.test = .bool true ∧ p.nonDistributionSources = .bool true ∧
    ofJson none (.object mixedDocument.reverse) = .ok p := by
  obtain ⟨-, described, -, -, order⟩ := ofJson_exact none (.object mixedDocument)
  have accepted : (ofJson none (.object mixedDocument)).toOption.isSome = true := by
    decide +kernel
  obtain ⟨p, h⟩ := Option.isSome_iff_exists.1 accepted
  rw [Except.toOption_eq_some_iff] at h
  have comes := ((described p).1 h).2
  refine ⟨p, h, comes.location_given (.filesystemRelative "app") rfl,
    comes.fallback_preset rfl (.preferInMemory "lib") rfl, comes.flag .test,
    comes.flag .nonDistributionSources, ?_⟩
  rw [order mixedDocument _ rfl (by decide) (List.reverse_perm _), h]

end Packaging.Policy
