import Packaging.Proofs.Bindings
import Packaging.Proofs.Policy.Documents

/-! # Presets and flags
A preset decides the places of a policy and nothing else, and the flags of a document decide nothing
about places. So it does not matter whether a preset is given to a policy before its flags are read
or afterwards. -/

namespace Packaging.Policy

/-! ## Flags and places -/

/-- A flag and a preset can be set in either order. -/
theorem setFlag_withPreset (p : Policy) (preset : Preset) (f : Flag) (data : Json) :
    (p.withPreset preset).setFlag f data = (p.setFlag f data).withPreset preset := by
  cases preset with
  | _ =>
    cases f with
    | _ => rfl

/-- A policy with the places of a preset has a document, whatever its places were before. -/
theorem exists_toJson_withPreset (p : Policy) (preset : Preset) :
    ∃ document, (p.withPreset preset).toJson = .ok document := by
  cases preset with
  | _ => exact ⟨_, rfl⟩

/-- The mode of a known preset gives the policy that preset. -/
theorem setMode_of_known {mode : Text} {preset : Preset} (known : Preset.ofName? mode = some preset)
    (p : Policy) : p.setMode mode = .ok (p.withPreset preset) := by
  rw [setMode, known]

/-- The mode of no preset is refused with a diagnostic. -/
theorem exists_setMode_eq_error {mode : Text} (unknown : Preset.ofName? mode = none) (p : Policy) :
    ∃ d, p.setMode mode = .error d := by
  rw [setMode, unknown]
  exact ⟨_, rfl⟩

/-- Two documents that say the same about all flags. -/
def SameFlags (members others : Members) : Prop :=
  ∀ f : Flag, members.get? f.field = others.get? f.field

section Flags

variable (path path' : Option Text) {members others : Members}

/-- A flag is read, or refused with a diagnostic, whatever the places are. -/
theorem readFlag_withPreset (same : SameFlags members others) (p : Policy) (preset : Preset)
    (f : Flag) :
    (∃ q, readFlag path members p f = .ok q ∧
      readFlag path' others (p.withPreset preset) f = .ok (q.withPreset preset)) ∨
    ∃ d d' : Diagnostic, readFlag path members p f = .error d ∧
      readFlag path' others (p.withPreset preset) f = .error d' := by
  rw [readFlag, readFlag, ← same f]
  split
  · exact Or.inl ⟨p, rfl, rfl⟩
  next b _ => exact Or.inl ⟨_, rfl, by rw [setFlag_withPreset]⟩
  · exact Or.inr ⟨_, _, rfl, rfl⟩

/-- Flags are read, or one of them is refused with a diagnostic, whatever the places are. -/
theorem readFlags_withPreset (same : SameFlags members others) (preset : Preset)
    (flags : List Flag) (p : Policy) :
    (∃ q, flags.foldlM (readFlag path members) p = .ok q ∧
      flags.foldlM (readFlag path' others) (p.withPreset preset) = .ok (q.withPreset preset)) ∨
    ∃ d d' : Diagnostic, flags.foldlM (readFlag path members) p = .error d ∧
      flags.foldlM (readFlag path' others) (p.withPreset preset) = .error d' := by
  induction flags generalizing p with
  | nil => exact Or.inl ⟨p, rfl, rfl⟩
  | cons f flags ih =>
    rw [List.foldlM_cons, List.foldlM_cons]
    rcases readFlag_withPreset path path' same p preset f with
      ⟨q, first, second⟩ | ⟨d, d', first, second⟩
    · rw [first, second]
      exact ih q
    · rw [first, second]
      exact Or.inr ⟨d, d', rfl, rfl⟩

/-- What is refused about flags is refused with a diagnostic. -/
theorem readFlags_cases (path : Option Text) (members : Members) (p : Policy) :
    (∃ q, Flag.all.foldlM (readFlag path members) p = .ok q) ∨
      ∃ d : Diagnostic, Flag.all.foldlM (readFlag path members) p = .error d := by
  rcases readFlags_withPreset path path (fun f => rfl : SameFlags members members) .inMemoryOnly
    Flag.all p with ⟨q, read, -⟩ | ⟨d, -, refused, -⟩
  · exact Or.inl ⟨q, read⟩
  · exact Or.inr ⟨d, refused⟩

end Flags

/-! ## Documents about flags -/

/-- The fields of a document that names its format and version and is about flags only. -/
def flagFields : List Text := [formatField, versionField] ++ Flag.all.map Flag.field

/-- A document that names its format and version, and is about flags only; the values that it gives
to flags may be anything. -/
structure FlagDocument (members : Members) : Prop where
  /-- No key comes twice. -/
  distinct : (members.map (·.1)).Nodup
  /-- The document names the format. -/
  format : members.get? formatField = some (.text documentFormat)
  /-- The document names the version. -/
  version : members.get? versionField = some (.int documentVersion)
  /-- The document has no members but these and flags. -/
  fields : ∀ m ∈ members, m.1 ∈ flagFields

/-- A document may have the fields of flags. -/
theorem mem_knownFields_of_mem_flagFields {name : Text} (h : name ∈ flagFields) :
    name ∈ knownFields := by
  simp only [flagFields, knownFields, List.mem_append, List.mem_cons, List.not_mem_nil,
    or_false] at h ⊢
  tauto

/-- The field of a flag is among the fields of flags. -/
theorem field_mem_flagFields (f : Flag) : f.field ∈ flagFields :=
  List.mem_append_right _ (List.mem_map_of_mem f.mem_all)

/-- Neither the preset nor a location is a flag. -/
theorem notMem_flagFields : ∀ name ∈ [modeField, locationField, fallbackField], name ∉ flagFields := by
  decide +kernel

/-- The locations have fields of their own, apart from the preset's. -/
theorem ne_modeField : ∀ name ∈ [locationField, fallbackField], name ≠ modeField := by
  decide +kernel

/-- No flag has the field of the preset. -/
theorem ne_modeField_of_mem_flagFields {name : Text} (h : name ∈ flagFields) : name ≠ modeField := by
  rintro rfl
  exact notMem_flagFields modeField List.mem_cons_self h

namespace FlagDocument

variable {members others : Members} {mode : Text} (document : FlagDocument members)

include document

/-- The order of its members does not matter. -/
theorem of_perm (perm : others.Perm members) : FlagDocument others where
  distinct := (perm.map (·.1)).nodup_iff.2 document.distinct
  format := (Bindings.get?_of_perm perm document.distinct).trans document.format
  version := (Bindings.get?_of_perm perm document.distinct).trans document.version
  fields m hm := document.fields m (perm.mem_iff.1 hm)

/-- It names no preset and gives no places. -/
theorem get?_eq_none {name : Text} (other : name ∈ [modeField, locationField, fallbackField]) :
    members.get? name = none := by
  refine Bindings.get?_eq_none_iff_notMem.2 fun mem => ?_
  obtain ⟨m, hm, rfl⟩ := List.mem_map.1 mem
  exact notMem_flagFields _ other (document.fields m hm)

/-- It is read as the default policy with its flags. -/
theorem ofJson_eq (path : Option Text) :
    ofJson path (.object members) = Flag.all.foldlM (readFlag path members) {} := by
  have header : checkHeader path (.object members) = .ok members :=
    checkHeader_of_known document.format document.version
      fun m hm => mem_knownFields_of_mem_flagFields (document.fields m hm)
  have noMode : members.get? modeField = none := document.get?_eq_none (by simp)
  have noLocation : members.get? locationField = none := document.get?_eq_none (by simp)
  have noFallback : members.get? fallbackField = none := document.get?_eq_none (by simp)
  rw [ofJson, header]
  show readMode path members {} >>= _ = _
  rw [readMode, noMode]
  show readLocation path members {} >>= _ = _
  rw [readLocation, noLocation]
  show readFallback path members {} >>= _ = _
  rw [readFallback, noFallback]
  rfl

/-- What is found in it with the field for a preset added, at whatever place. -/
theorem get?_added (added : others.Perm ((modeField, .text mode) :: members)) (name : Text) :
    others.get? name = if name = modeField then some (.text mode) else members.get? name := by
  have new : modeField ∉ members.map (·.1) :=
    Bindings.get?_eq_none_iff_notMem.1 (document.get?_eq_none List.mem_cons_self)
  rw [Bindings.get?_of_perm added (List.nodup_cons.2 ⟨new, document.distinct⟩), Bindings.get?_cons]

/-- The preset changes nothing about what it says about flags. -/
theorem sameFlags (added : others.Perm ((modeField, .text mode) :: members)) :
    SameFlags members others := by
  intro f
  rw [document.get?_added added, if_neg (ne_modeField_of_mem_flagFields (field_mem_flagFields f))]

/-- With a preset among its members it is read as the policy of the preset with its flags, or it is
refused with a diagnostic if there is no such preset. -/
theorem ofJson_added (added : others.Perm ((modeField, .text mode) :: members))
    (path : Option Text) :
    (∃ preset, Preset.ofName? mode = some preset ∧
      ofJson path (.object others) =
        Flag.all.foldlM (readFlag path others) (withPreset {} preset)) ∨
    Preset.ofName? mode = none ∧
      ∃ (d : Diagnostic) (cause : Fault), ofJson path (.object others) = .error (d.causedBy cause) := by
  have get? := document.get?_added added
  have header : checkHeader path (.object others) = .ok others := by
    refine checkHeader_of_known ?_ ?_ fun m hm => ?_
    · rw [get?, if_neg (ne_modeField_of_mem_flagFields (by simp [flagFields])), document.format]
    · rw [get?, if_neg (ne_modeField_of_mem_flagFields (by simp [flagFields])), document.version]
    · rcases List.mem_cons.1 (added.mem_iff.1 hm) with rfl | hm
      · simp [knownFields]
      · exact mem_knownFields_of_mem_flagFields (document.fields m hm)
  have hmode : others.get? modeField = some (.text mode) := by rw [get?, if_pos rfl]
  have noLocation : others.get? locationField = none := by
    rw [get?, if_neg (ne_modeField _ (by simp)), document.get?_eq_none (by simp)]
  have noFallback : others.get? fallbackField = none := by
    rw [get?, if_neg (ne_modeField _ (by simp)), document.get?_eq_none (by simp)]
  -- Between the mode and the flags nothing else is given, so nothing else changes the preset.
  rw [ofJson, header]
  show (∃ preset, _ ∧ readMode path others {} >>= _ = _) ∨
    _ ∧ ∃ d cause, readMode path others {} >>= _ = _
  rw [readMode, hmode]
  dsimp only
  rw [setMode]
  cases named : Preset.ofName? mode with
  | none => exact Or.inr ⟨rfl, _, _, rfl⟩
  | some preset =>
    refine Or.inl ⟨preset, rfl, ?_⟩
    show readLocation path others _ >>= _ = _
    rw [readLocation, noLocation]
    show readFallback path others _ >>= _ = _
    rw [readFallback, noFallback]
    rfl

end FlagDocument

end Packaging.Policy
