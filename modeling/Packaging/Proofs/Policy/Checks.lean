import Packaging.Proofs.Policy.Documents
import Packaging.Proofs.Text.Order

/-! # What policy documents are checked for
A document is checked for its parts in a fixed order, and the first check that fails decides how it
is refused. Each reader stands for one check or a few, and the readers make them in that order. -/

namespace Packaging

/-! ## Names and places of presets -/

namespace Preset

/-- No preset's name begins like that of another kind. -/
theorem dropBeginning?_filesystemName_preferName (directory : Text) :
    Text.dropBeginning? filesystemName (preferName ++ directory) = none := rfl

/-- A preset is found by its name, and by nothing else. -/
theorem ofName?_eq_some_iff {mode : Text} {preset : Preset} :
    ofName? mode = some preset ↔ mode = preset.name := by
  refine ⟨fun h => (name_of_ofName? h).symm, ?_⟩
  rintro rfl
  cases preset with
  | inMemoryOnly => rfl
  | filesystemOnly directory =>
    have other : filesystemName ++ directory ≠ inMemoryName := fun same =>
      absurd (congrArg List.head? same) (by decide : ¬ filesystemName.head? = inMemoryName.head?)
    rw [name, ofName?, if_neg other, Text.dropBeginning?_append]
  | preferInMemory directory =>
    have other : preferName ++ directory ≠ inMemoryName := fun same =>
      absurd (congrArg List.head? same) (by decide : ¬ preferName.head? = inMemoryName.head?)
    rw [name, ofName?, if_neg other, dropBeginning?_filesystemName_preferName,
      Text.dropBeginning?_append]
    rfl

/-- Where the preset places resources. -/
def location : Preset → Placement
  | inMemoryOnly => .inMemory
  | filesystemOnly directory => .location (.concrete (.filesystemRelative directory))
  | preferInMemory _ => .inMemory

/-- Where the preset places resources if the first place does not work. -/
def fallback : Preset → Placement
  | inMemoryOnly => .none
  | filesystemOnly _ => .none
  | preferInMemory directory => .location (.concrete (.filesystemRelative directory))

/-- A preset places resources somewhere. -/
theorem exists_location_eq (preset : Preset) :
    ∃ place, preset.location = .location (.concrete place) := by
  cases preset with
  | _ => exact ⟨_, rfl⟩

/-- A preset names no fallback or an explicit place. -/
theorem fallback_eq_none_or (preset : Preset) :
    preset.fallback = .none ∨ ∃ place, preset.fallback = .location (.concrete place) := by
  cases preset with
  | inMemoryOnly => exact Or.inl rfl
  | filesystemOnly directory => exact Or.inl rfl
  | preferInMemory directory => exact Or.inr ⟨_, rfl⟩

end Preset

/-- A preset replaces the two locations and nothing else. -/
theorem Policy.withPreset_eq (p : Policy) (preset : Preset) :
    p.withPreset preset = { p with location := preset.location, fallback := preset.fallback } := by
  cases preset with
  | _ => rfl

/-- What stands in a field of a value: nothing, unless the value is an object. -/
def Json.field? : Json → Text → Option Json
  | .object members, name => Bindings.get? members name
  | _, _ => none

/-- The fields of an object are its members. -/
@[simp] theorem Json.field?_object (members : Members) (name : Text) :
    Json.field? (.object members) name = members.get? name := rfl

section Fields

variable {α : Type} {x : Option α} {a : α} {P : α → Prop}

/-- Where there is no value, every value has every property. -/
theorem Option.forall_eq_some_of_none (absent : x = none) : ∀ v, x = some v → P v := by
  rw [absent]
  exact nofun

/-- Where there is one value, a property of it is a property of every value. -/
theorem Option.forall_eq_some_of_some (given : x = some a) (h : P a) : ∀ v, x = some v → P v := by
  intro v found
  rwa [← Option.some.inj (given.symm.trans found)]

end Fields

namespace Policy

/-! ## The checks -/

/-- What a document is checked for. -/
inductive Check
  /-- The document is an object. -/
  | object
  /-- It has the format and the version. -/
  | header
  /-- All its fields are known. -/
  | fields
  /-- The preset is a known one. -/
  | mode
  /-- The location is an explicit place. -/
  | location
  /-- The fallback is a location. -/
  | fallback
  /-- A flag is a truth value. -/
  | flag (f : Flag)
  deriving DecidableEq

namespace Check

/-- All checks, in the order in which they are made. -/
def all : List Check :=
  [object, header, fields, mode, location, fallback] ++ Flag.all.map flag

/-- Whether a check is made before another. -/
def Before (check other : Check) : Prop := all.idxOf check < all.idxOf other

/-- Whether a document passes a check. A field that is absent passes its own check. -/
def Passes (data : Json) : Check → Prop
  | object => ∃ members, data = .object members
  | header => data.field? formatField = some (.text documentFormat) ∧
      data.field? versionField = some (.int documentVersion)
  | fields => ∀ members, data = .object members → ∀ m ∈ members, m.1 ∈ knownFields
  | mode => ∀ v, data.field? modeField = some v →
      v = .null ∨ ∃ preset : Preset, v = .text preset.name
  | location => ∀ v, data.field? locationField = some v →
      ∃ place : ConcreteLocation, v = .text place.encode
  | fallback => ∀ v, data.field? fallbackField = some v →
      (v = .null ∨ v = .text Location.defaultText) ∨
        ∃ place : ConcreteLocation, v = .text place.encode
  | flag f => ∀ v, data.field? f.field = some v → v.IsBool

/-- Whether a check is the first that a document fails. -/
structure First (data : Json) (check : Check) : Prop where
  /-- The document fails the check. -/
  fails : ¬ check.Passes data
  /-- It passes all checks before it. -/
  earlier : ∀ c : Check, c.Before check → c.Passes data

/-- The list of checks is complete. -/
theorem mem_all (check : Check) : check ∈ all := by
  cases check with
  | flag f => exact List.mem_append_right _ (List.mem_map_of_mem f.mem_all)
  | _ => decide

/-- There is only one first check that a document fails. -/
theorem First.unique {data : Json} {check other : Check} (h : First data check)
    (h' : First data other) : check = other := by
  rcases Nat.lt_trichotomy (all.idxOf check) (all.idxOf other) with before | same | after
  · exact absurd (h'.earlier check before) h.fails
  · exact (List.idxOf_inj check.mem_all).1 same
  · exact absurd (h.earlier other after) h'.fails

/-- The check before which all others pass is the first that fails. -/
theorem first_of_split {data : Json} {check : Check} {earlier later : List Check}
    (split : all = earlier ++ check :: later) (pass : ∀ c ∈ earlier, c.Passes data)
    (fails : ¬ check.Passes data) : First data check := by
  refine ⟨fails, fun c before => pass c ?_⟩
  have new : check ∉ earlier := fun mem => fails (pass check mem)
  rw [Before, split, List.idxOf_append_of_notMem new, List.idxOf_cons_self] at before
  by_contra notMem
  rw [List.idxOf_append_of_notMem notMem] at before
  omega

end Check

/-- How a document is refused that fails a check. -/
inductive Refused (path : Option Text) (data : Json) : Check → Failure → Prop
  /-- The document is no object. -/
  | object : Refused path data .object (invalidDocument path "policy file must be a JSON object")
  /-- The format or the version is not the right one. -/
  | header : Refused path data .header
      (invalidDocument path "unsupported policy format/version (upgrade starpack?)")
  /-- The fields that are not known are named in their order. -/
  | fields {members : Members} {unknown : List Text} (hmembers : data = .object members)
      (perm : unknown.Perm ((members.map (·.1)).filter fun key => !knownFields.contains key))
      (sorted : unknown.Pairwise fun s t => s.le t = true) :
      Refused path data .fields
        (invalidDocument path ("policy has unknown fields: " ++ Text.join ", " unknown))
  /-- What should name a preset is no text. -/
  | modeKind (noText : ∀ t, data.field? modeField ≠ some (.text t)) :
      Refused path data .mode
        (invalidDocument path (Text.concat ["policy field '", modeField, "' must be a string"]))
  /-- There is no preset of that name. -/
  | modeName {mode : Text} (found : data.field? modeField = some (.text mode)) :
      Refused path data .mode
        ((invalidDocument path (Preset.unknownMessage mode)).causedBy (.diagnostic
          (Diagnostic.policyConfig "resource_handling_mode" none (Preset.unknownMessage mode))))
  /-- What is given as the location is no explicit place. -/
  | location {v : Json} {r : Location.Refusal} (found : data.field? locationField = some v)
      (refused : Location.decodeConcrete locationField v = .error r) :
      Refused path data .location (invalidLocation path r)
  /-- What is given as the fallback is no location. -/
  | fallback {v : Json} {r : Location.Refusal} (found : data.field? fallbackField = some v)
      (refused : Location.decode v = .error r) :
      Refused path data .fallback (invalidLocation path r)
  /-- What is given for a flag is no truth value. -/
  | flag (f : Flag) : Refused path data (.flag f)
      (invalidDocument path (Text.concat ["policy field '", f.field, "' must be a boolean"]))

namespace Refused

variable {path : Option Text} {data : Json} {check : Check} {failure failure' : Failure}

/-- Every refusal is a diagnostic about a policy that names the path. -/
theorem exists_kind_eq (h : Refused path data check failure) :
    ∃ (d : Diagnostic) (cause : Option Fault), failure = ⟨.diagnostic d, cause⟩ ∧
      d.kind = .policyConfig path := by
  cases h with
  | _ => exact ⟨_, _, rfl, rfl⟩

/-- A document that fails a check is refused in one way. -/
theorem unique (h : Refused path data check failure) (h' : Refused path data check failure') :
    failure = failure' := by
  cases h with
  | object =>
    cases h' with
    | object => rfl
  | header =>
    cases h' with
    | header => rfl
  | fields hmembers perm sorted =>
    cases h' with
    | fields hmembers' perm' sorted' =>
      obtain rfl := Json.object.inj (hmembers.symm.trans hmembers')
      rw [Text.eq_of_perm_of_sorted (perm.trans perm'.symm) sorted sorted']
  -- Two ways to refuse a mode: no text, or a text that names no preset.
  | modeKind noText =>
    cases h' with
    | modeKind => rfl
    | modeName found => exact absurd found (noText _)
  | modeName found =>
    cases h' with
    | modeKind noText => exact absurd found (noText _)
    | modeName found' =>
      obtain rfl := Json.text.inj (Option.some.inj (found.symm.trans found'))
      rfl
  | location found refused =>
    cases h' with
    | location found' refused' =>
      obtain rfl := Option.some.inj (found.symm.trans found')
      rw [Except.error.inj (refused.symm.trans refused')]
  | fallback found refused =>
    cases h' with
    | fallback found' refused' =>
      obtain rfl := Option.some.inj (found.symm.trans found')
      rw [Except.error.inj (refused.symm.trans refused')]
  | flag f =>
    cases h' with
    | flag => rfl

end Refused

/-! ## One reader after the other -/

/-- How a result stands to checks that are made one after the other: it is a success and all of them
pass, or it is the refusal that belongs to the first of them that fails. -/
inductive Settles {α : Type} (path : Option Text) (data : Json) :
    List Check → Except Failure α → Prop
  /-- All of them pass. -/
  | ok {checks : List Check} {a : α} (pass : ∀ c ∈ checks, c.Passes data) :
      Settles path data checks (.ok a)
  /-- One of them fails, and those before it pass. -/
  | error (earlier : List Check) (check : Check) (later : List Check) {failure : Failure}
      (pass : ∀ c ∈ earlier, c.Passes data) (fails : ¬ check.Passes data)
      (refused : Refused path data check failure) :
      Settles path data (earlier ++ check :: later) (.error failure)

/-- What is accepted passes every check. -/
theorem Settles.forall_passes {α : Type} {path : Option Text} {data : Json} {checks : List Check}
    {a : α} (h : Settles path data checks (.ok a)) : ∀ c ∈ checks, c.Passes data := by
  cases h with
  | ok pass => exact pass

/-- What is refused is refused by the first check that it fails. -/
theorem Settles.exists_first {α : Type} {path : Option Text} {data : Json} {failure : Failure}
    (h : Settles path data Check.all (.error failure : Except Failure α)) :
    ∃ check, Check.First data check ∧ Refused path data check failure := by
  generalize split : Check.all = checks at h
  cases h with
  | error earlier check later pass fails refused =>
    exact ⟨check, Check.first_of_split split pass fails, refused⟩

section Readers

variable {α β : Type} {path : Option Text} {data : Json} {members : Members} {p q : Policy}

/-- One reader after the other settles the checks of both, the first reader's before the second's.
-/
theorem Settles.bind {x : Except Failure α} {f : α → Except Failure β} {checks later : List Check}
    (first : Settles path data checks x)
    (next : ∀ a, x = .ok a → Settles path data later (f a)) :
    Settles path data (checks ++ later) (x >>= f) := by
  cases first with
  | error earlier check others pass fails refused =>
    rw [List.append_assoc, List.cons_append]
    exact .error earlier check _ pass fails refused
  | @ok _ a pass =>
    show Settles path data (checks ++ later) (f a)
    generalize outcome : f a = y
    have second := next a rfl
    rw [outcome] at second
    cases second with
    | ok pass' => exact .ok (List.forall_mem_append.2 ⟨pass, pass'⟩)
    | error earlier check others pass' fails refused =>
      rw [← List.append_assoc]
      exact .error _ check others (List.forall_mem_append.2 ⟨pass, pass'⟩) fails refused

/-- To accept what passes a check settles the check. -/
theorem settles_pass (check : Check) (pass : check.Passes data) (a : α) :
    Settles path data [check] (.ok a) :=
  .ok (List.forall_mem_singleton.2 pass)

/-- To refuse what fails a check, in the check's own words, settles the check. -/
theorem settles_fail (check : Check) {failure : Failure} (fails : ¬ check.Passes data)
    (refused : Refused path data check failure) :
    Settles path data [check] (.error failure : Except Failure α) :=
  .error [] check [] (List.forall_mem_nil _) fails refused

/-! ### The object, its format and version, its fields -/

/-- A document has no unknown fields exactly if all its fields are known. -/
theorem unknown_eq_nil_iff :
    (members.map (·.1)).filter (fun key => !knownFields.contains key) = [] ↔
      ∀ m ∈ members, m.1 ∈ knownFields := by
  simp [List.filter_eq_nil_iff]

/-- A document of the right format and version is checked for unknown fields. -/
theorem checkHeader_of_header (format : members.get? formatField = some (.text documentFormat))
    (version : members.get? versionField = some (.int documentVersion)) :
    checkHeader path (.object members) =
      let unknown := (members.map (·.1)).filter fun key => !knownFields.contains key
      if unknown.isEmpty then .ok members
      else .error (invalidDocument path ("policy has unknown fields: " ++
        Text.join ", " (unknown.mergeSort Text.le))) := by
  simp only [checkHeader, format, version, and_self, ↓reduceIte]

/-- A document without the right format and version is refused for its header. -/
theorem checkHeader_of_noHeader (wrong : ¬ Check.header.Passes (.object members)) :
    checkHeader path (.object members) =
      .error (invalidDocument path "unsupported policy format/version (upgrade starpack?)") := by
  rw [checkHeader]
  split
  next format version hformat hversion =>
    refine if_neg fun right => wrong ?_
    rw [right.1] at hformat
    rw [right.2] at hversion
    exact ⟨hformat, hversion⟩
  · rfl

/-- The reader of the header settles whether there is an object, whether its header is right, and
whether its fields are known. -/
theorem settles_checkHeader (path : Option Text) (data : Json) :
    Settles path data [.object, .header, .fields] (checkHeader path data) := by
  -- The checks of the header in their order; the first that fails settles the matter.
  by_cases object : Check.object.Passes data
  · obtain ⟨members, rfl⟩ := object
    by_cases header : Check.header.Passes (.object members)
    · rw [checkHeader_of_header header.1 header.2]
      dsimp only
      split
      next none =>
        have known := unknown_eq_nil_iff.1 (List.isEmpty_iff.1 none)
        refine .ok ?_
        simp only [List.forall_mem_cons]
        refine ⟨⟨members, rfl⟩, header, fun members' same => ?_, List.forall_mem_nil _⟩
        rwa [← Json.object.inj same]
      next some =>
        refine .error [.object, .header] .fields [] ?_ (fun known => some ?_)
          (.fields rfl (List.mergeSort_perm _ _) (Text.pairwise_mergeSort_le _))
        · simp only [List.forall_mem_cons]
          exact ⟨⟨members, rfl⟩, header, List.forall_mem_nil _⟩
        · exact List.isEmpty_iff.2 (unknown_eq_nil_iff.2 (known members rfl))
    · rw [checkHeader_of_noHeader header]
      exact .error [.object] .header [.fields] (List.forall_mem_singleton.2 ⟨members, rfl⟩) header
        .header
  · have refused : checkHeader path data =
        .error (invalidDocument path "policy file must be a JSON object") := by
      cases data with
      | object members => exact absurd ⟨members, rfl⟩ object
      | null | bool _ | int _ | float _ | text _ | array _ => rfl
    rw [refused]
    exact .error [] .object [.header, .fields] (List.forall_mem_nil _) object .object

/-! ### The preset -/

/-- A policy accepts exactly the modes that are names of presets, and takes over the preset. -/
theorem setMode_eq_ok_iff {mode : Text} :
    p.setMode mode = .ok q ↔ ∃ preset : Preset, mode = preset.name ∧ q = p.withPreset preset := by
  constructor
  · intro h
    rw [setMode] at h
    split at h
    next preset named =>
      exact ⟨preset, Preset.ofName?_eq_some_iff.1 named, (Except.ok.inj h).symm⟩
    · cases h
  · rintro ⟨preset, named, rfl⟩
    rw [setMode, Preset.ofName?_eq_some_iff.2 named]

/-- The reader of the preset settles the check of the preset. -/
theorem settles_readMode (path : Option Text) (members : Members) (p : Policy) :
    Settles path (.object members) [.mode] (readMode path members p) := by
  rw [readMode]
  split
  next absent =>
    refine settles_pass .mode ?_ p
    exact Option.forall_eq_some_of_none absent
  next null =>
    refine settles_pass .mode ?_ p
    exact Option.forall_eq_some_of_some null (Or.inl rfl)
  next mode given =>
    split
    next q set =>
      obtain ⟨preset, rfl, -⟩ := setMode_eq_ok_iff.1 set
      refine settles_pass .mode ?_ q
      exact Option.forall_eq_some_of_some given (Or.inr ⟨preset, rfl⟩)
    -- A text is refused only if it names no preset.
    next d set =>
      rw [setMode] at set
      split at set
      · cases set
      next unknown =>
        obtain rfl := Except.error.inj set
        refine settles_fail .mode (fun pass => ?_) (.modeName given)
        rcases pass _ given with null | ⟨preset, named⟩
        · cases null
        · rw [Preset.ofName?_eq_some_iff.2 (Json.text.inj named)] at unknown
          cases unknown
  next v noNull noText given =>
    refine settles_fail .mode (fun pass => ?_) (.modeKind fun t found => ?_)
    · rcases pass v given with rfl | ⟨preset, rfl⟩
      · exact noNull rfl
      · exact noText _ rfl
    · exact noText t (Option.some.inj (given.symm.trans found))

/-! ### The locations -/

/-- The reader of the location settles the check of the location. -/
theorem settles_readLocation (path : Option Text) (members : Members) (p : Policy) :
    Settles path (.object members) [.location] (readLocation path members p) := by
  rw [readLocation]
  split
  next absent =>
    refine settles_pass .location ?_ p
    exact Option.forall_eq_some_of_none absent
  next data given =>
    split
    next place decoded =>
      have written := Location.decodeConcrete_eq_ok_iff.1 decoded
      refine settles_pass .location ?_ _
      exact Option.forall_eq_some_of_some given ⟨place, written⟩
    next r refused =>
      refine settles_fail .location (fun pass => ?_) (.location given refused)
      obtain ⟨place, written⟩ := pass data given
      cases (Location.decodeConcrete_eq_ok_iff.2 written).symm.trans refused

/-- The reader of the fallback settles the check of the fallback. -/
theorem settles_readFallback (path : Option Text) (members : Members) (p : Policy) :
    Settles path (.object members) [.fallback] (readFallback path members p) := by
  rw [readFallback]
  split
  next absent =>
    refine settles_pass .fallback ?_ p
    exact Option.forall_eq_some_of_none absent
  next data given =>
    split
    -- A fallback may be written as the default, which stands for having none.
    next decoded =>
      have written : data = .null ∨ data = .text Location.defaultText := by
        simpa using Location.decode_eq_default_iff.1 decoded
      refine settles_pass .fallback ?_ _
      exact Option.forall_eq_some_of_some given (Or.inl written)
    next l other decoded =>
      cases l with
      | default => exact absurd rfl other
      | concrete place =>
        have written := Value.plain.inj (Location.decode_eq_concrete_iff.1 decoded)
        refine settles_pass .fallback ?_ _
        exact Option.forall_eq_some_of_some given (Or.inr ⟨place, written⟩)
    next r refused =>
      refine settles_fail .fallback (fun pass => ?_) (.fallback given refused)
      rcases pass data given with default | ⟨place, concrete⟩
      · have decoded : Location.decode data = .ok .default :=
          Location.decode_eq_default_iff.2 (by simpa using default)
        cases decoded.symm.trans refused
      · cases (Location.decode_eq_concrete_iff.2 (congrArg _ concrete)).symm.trans refused

/-! ### The flags -/

/-- The reader of a flag settles the check of that flag. -/
theorem settles_readFlag (path : Option Text) (members : Members) (p : Policy) (f : Flag) :
    Settles path (.object members) [.flag f] (readFlag path members p f) := by
  rw [readFlag]
  split
  next absent =>
    refine settles_pass (.flag f) ?_ p
    exact Option.forall_eq_some_of_none absent
  next b given =>
    refine settles_pass (.flag f) ?_ _
    exact Option.forall_eq_some_of_some given (Json.isBool_bool b)
  next v noBool given =>
    refine settles_fail (.flag f) (fun pass => ?_) (.flag f)
    obtain ⟨b, rfl⟩ := pass v given
    exact noBool b rfl

/-- Readers of flags settle the checks of these flags, in the same order. -/
theorem settles_readFlags (path : Option Text) (members : Members) (flags : List Flag)
    (p : Policy) :
    Settles path (.object members) (flags.map .flag) (flags.foldlM (readFlag path members) p) := by
  induction flags generalizing p with
  | nil => exact .ok (List.forall_mem_nil _)
  | cons f flags ih =>
    rw [List.foldlM_cons]
    exact (settles_readFlag path members p f).bind fun q _ => ih q

/-! ### All readers -/

/-- **The reader of documents settles all checks,** in their order. -/
theorem settles_ofJson (path : Option Text) (data : Json) :
    Settles path data Check.all (ofJson path data) := by
  refine (settles_checkHeader path data).bind fun members header => ?_
  obtain rfl := eq_of_checkHeader header
  refine (settles_readMode path members {}).bind fun q₁ _ => ?_
  refine (settles_readLocation path members q₁).bind fun q₂ _ => ?_
  refine (settles_readFallback path members q₂).bind fun q₃ _ => ?_
  exact settles_readFlags path members Flag.all q₃

end Readers

end Policy

end Packaging
