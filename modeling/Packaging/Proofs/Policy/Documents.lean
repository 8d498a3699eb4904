import Packaging.Policy.Document
import Packaging.Proofs.Contexts
import Packaging.Proofs.Json.RoundTrip
import Packaging.Proofs.Outcomes

/-! # Policies and their documents
A policy that a document describes has explicit places and truth values for flags, and nothing in
its places is left to join. Such a policy has a document of its own, and that document describes it,
in whatever order its members are. -/

namespace Packaging

/-! ## Places -/

/-- Two joined texts make a joined one if the first does not end in a leading surrogate. -/
theorem Text.Joined.append {s t : Text} (hs : s.Joined) (ht : t.Joined)
    (h : ∀ c ∈ s.getLast?, c.isHighSurrogate = false) : (s ++ t).Joined :=
  List.IsChain.append hs ht fun c hc _ _ joins =>
    Bool.false_ne_true ((h c hc).symm.trans joins.1)

/-- Only the text of a place is read as that place. -/
theorem Location.encode_of_ofText? {t : Text} {place : ConcreteLocation}
    (h : ofText? t = some (.concrete place)) : place.encode = t := by
  rw [ofText?] at h
  split at h
  · cases h
  split at h
  next same =>
    obtain rfl := Location.concrete.inj (Option.some.inj h)
    exact same.symm
  · obtain ⟨directory, dropped, same⟩ := Option.map_eq_some_iff.1 h
    obtain rfl := Location.concrete.inj same
    exact (Text.dropBeginning?_eq_some_iff.1 dropped).symm

/-- A location that is read from a document is the default one, or its text is in the document. -/
theorem Location.decode_eq_ok {data : Json} {l : Location} (h : decode data = .ok l) :
    l = .default ∨ ∃ place, l = .concrete place ∧ data = .text place.encode := by
  cases data with
  | null => exact .inl (Except.ok.inj h).symm
  | text t =>
    rw [decode] at h
    split at h
    next l' found =>
      obtain rfl := Except.ok.inj h
      cases l' with
      | default => exact .inl rfl
      | concrete place => exact .inr ⟨place, rfl, by rw [encode_of_ofText? found]⟩
    · cases h
  | bool _ | int _ | float _ | array _ | object _ => cases h

/-- One text only is read as the default location. -/
theorem Location.ofText?_eq_default_iff {t : Text} : ofText? t = some .default ↔ t = defaultText := by
  refine ⟨fun h => ?_, fun h => by rw [h]; rfl⟩
  rw [ofText?] at h
  split at h
  next same => exact same
  split at h
  · cases h
  · obtain ⟨directory, -, other⟩ := Option.map_eq_some_iff.1 h
    cases other

/-- Only null and the text of the default location are read as that location. -/
theorem Location.decode_eq_default_iff {value : Value} :
    decode value = .ok .default ↔ value = .plain .null ∨ value = .plain (.text defaultText) := by
  constructor
  · intro h
    rw [decode.eq_def] at h
    split at h
    · exact Or.inl rfl
    next t =>
      split at h
      next found =>
        obtain rfl := Except.ok.inj h
        rw [ofText?_eq_default_iff.1 found]
        exact Or.inr rfl
      · cases h
    · cases h
  · rintro (rfl | rfl)
    · rfl
    · rw [decode, ofText?_eq_default_iff.2 rfl]

/-- Only its text is read as an explicit place. -/
theorem Location.decode_eq_concrete_iff {value : Value} {place : ConcreteLocation} :
    decode value = .ok (.concrete place) ↔ value = .plain (.text place.encode) := by
  constructor
  · intro h
    cases value with
    | plain data =>
      rcases decode_eq_ok h with default | ⟨_, same, rfl⟩
      · cases default
      · rw [Location.concrete.inj same]
    | wrapper handle => cases h
  · rintro rfl
    rw [decode, ofText?_encode]

/-- The data that is read as an explicit place is the text of that place. -/
theorem Location.decodeConcrete_eq_ok_iff {what : Text} {data : Json} {place : ConcreteLocation} :
    decodeConcrete what data = .ok place ↔ data = .text place.encode := by
  rw [decodeConcrete]
  constructor
  · intro h
    split at h
    · cases h
    next found =>
      obtain rfl := Except.ok.inj h
      exact Value.plain.inj (decode_eq_concrete_iff.1 found)
    · cases h
  · rintro rfl
    rw [decode_eq_concrete_iff.2 rfl]

/-- No explicit place is written like the default location. -/
theorem ConcreteLocation.encode_ne_defaultText (place : ConcreteLocation) :
    place.encode ≠ Location.defaultText := by
  intro same
  have found := Location.ofText?_encode place
  rw [same, Location.ofText?_eq_default_iff.2 rfl] at found
  cases found

/-- Different places are written differently. -/
theorem ConcreteLocation.encode_injective : Function.Injective encode := by
  intro place other same
  have found := Location.ofText?_encode place
  rw [same, Location.ofText?_encode] at found
  exact (Location.concrete.inj (Option.some.inj found)).symm

/-- A directory that is joined makes a place whose text is. -/
theorem ConcreteLocation.joined_filesystemRelative {directory : Text} (h : directory.Joined) :
    (filesystemRelative directory).encode.Joined :=
  Text.Joined.append (by decide : Location.filesystemText.Joined) h (by decide)

/-- The preset that is found under a mode has the mode for its name. -/
theorem Preset.name_of_ofName? {mode : Text} {preset : Preset} (h : ofName? mode = some preset) :
    preset.name = mode := by
  rw [ofName?] at h
  split at h
  next same =>
    obtain rfl := Option.some.inj h
    exact same.symm
  split at h
  next directory dropped =>
    obtain rfl := Option.some.inj h
    exact (Text.dropBeginning?_eq_some_iff.1 dropped).symm
  · obtain ⟨directory, dropped, rfl⟩ := Option.map_eq_some_iff.1 h
    exact (Text.dropBeginning?_eq_some_iff.1 dropped).symm

/-! ## Plain values -/

/-- A sound value without doubles in which nothing is to be arranged. -/
structure Json.Atomic (v : Json) : Prop where
  /-- The value is sound. -/
  sound : v.Sound
  /-- The value holds no doubles. -/
  plain : v.DoubleFree
  /-- No layout writes the value in another order. -/
  flat : ∀ layout, v.arrange layout = v

/-- A joined text is atomic. -/
theorem Json.atomic_text {t : Text} (joined : t.Joined) : (Json.text t).Atomic :=
  ⟨.text joined, .text t, fun _ => rfl⟩

/-- The null value is atomic. -/
theorem Json.atomic_null : Json.null.Atomic := ⟨.null, .null, fun _ => rfl⟩

/-- Truth values are atomic. -/
theorem Json.atomic_bool (b : Bool) : (Json.bool b).Atomic := ⟨.bool b, .bool b, fun _ => rfl⟩

/-- An integer is atomic if it has no more digits than can be read. -/
theorem Json.atomic_int {n : Int} (short : (Text.ofNat n.natAbs).length ≤ Integer.maxDigits) :
    (Json.int n).Atomic :=
  ⟨.int short, .int n, fun _ => rfl⟩

/-- Members of an object that is read back from its written form as it is, but for their order. -/
structure Json.AtomicMembers (members : Members) : Prop where
  /-- No key comes twice. -/
  distinct : (members.map (·.1)).Nodup
  /-- Nothing in a key is left to join. -/
  keys : ∀ m ∈ members, m.1.Joined
  /-- All values are plain. -/
  values : ∀ m ∈ members, m.2.Atomic

namespace Json.AtomicMembers

variable {members : Members} (h : Json.AtomicMembers members)

include h

/-- An object with such members is sound. -/
theorem sound : (Json.object members).Sound :=
  .object h.distinct h.keys fun m hm => (h.values m hm).sound

/-- An object with such members holds no doubles. -/
theorem plain : (Json.object members).DoubleFree :=
  .object fun m hm => (h.values m hm).plain

/-- The members may move, but nothing inside their values does. -/
theorem arrange_eq (layout : Layout) :
    (Json.object members).arrange layout = .object (layout.order members) := by
  rw [Json.arrange_object]
  refine congrArg Json.object ((List.map_congr_left fun m hm => ?_).trans (List.map_id _))
  rw [(h.values m ((Json.order_perm layout members).mem_iff.1 hm)).flat]
  rfl

end Json.AtomicMembers

namespace Policy

/-- The policies that documents describe. -/
structure Loadable (p : Policy) : Prop where
  /-- The location is an explicit place. -/
  location : ∃ place : ConcreteLocation, p.location = .location (.concrete place) ∧
    place.encode.Joined
  /-- So is the fallback, unless it is absent. -/
  fallback : p.fallback = .none ∨ ∃ place : ConcreteLocation,
    p.fallback = .location (.concrete place) ∧ place.encode.Joined
  /-- All flags are truth values. -/
  switched : p.Switched

/-- The policy without settings of its own is one that documents describe. -/
theorem loadable_default : ({} : Policy).Loadable where
  location := ⟨.inMemory, rfl, by decide⟩
  fallback := .inl rfl
  switched f := by cases f <;> exact Json.isBool_bool _

/-! ## From a document to a policy -/

section Reading

variable {path : Option Text} {members : Members} {p p' : Policy}
  (sound : Json.Sound (.object members))

/-- A preset with a joined name keeps a policy loadable. -/
theorem Loadable.withPreset (h : p.Loadable) {preset : Preset} (joined : preset.name.Joined) :
    (p.withPreset preset).Loadable := by
  have switched := switched_withPreset h.switched preset
  cases preset with
  | inMemoryOnly => exact ⟨⟨.inMemory, rfl, by decide⟩, .inl rfl, switched⟩
  | filesystemOnly directory =>
    have directory_joined : directory.Joined := List.IsChain.right_of_append joined
    have place := ConcreteLocation.joined_filesystemRelative directory_joined
    exact ⟨⟨_, rfl, place⟩, .inl rfl, switched⟩
  | preferInMemory directory =>
    have directory_joined : directory.Joined := List.IsChain.right_of_append joined
    have place := ConcreteLocation.joined_filesystemRelative directory_joined
    exact ⟨⟨.inMemory, rfl, by decide⟩, .inr ⟨_, rfl, place⟩, switched⟩

include sound

/-- Whatever text stands in a document, nothing in it is left to join. -/
theorem joined_of_get? {name t : Text} (h : members.get? name = some (.text t)) : t.Joined := by
  cases sound with
  | object _ _ all =>
    cases all _ (Bindings.mem_of_get?_eq_some h) with
    | text joined => exact joined

/-- Reading the preset of a document keeps a policy loadable. -/
theorem Loadable.readMode (h : p.Loadable) (read : readMode path members p = .ok p') :
    p'.Loadable := by
  rw [Policy.readMode] at read
  split at read
  · obtain rfl := Except.ok.inj read
    exact h
  · obtain rfl := Except.ok.inj read
    exact h
  next mode found =>
    split at read
    next q set =>
      rw [setMode] at set
      split at set
      next preset named =>
        have joined : preset.name.Joined := by
          rw [Preset.name_of_ofName? named]
          exact joined_of_get? sound found
        rw [← Except.ok.inj read, ← Except.ok.inj set]
        exact h.withPreset joined
      · cases set
    · cases read
  · cases read

/-- Reading the location of a document keeps a policy loadable. -/
theorem Loadable.readLocation (h : p.Loadable) (read : readLocation path members p = .ok p') :
    p'.Loadable := by
  rw [Policy.readLocation] at read
  split at read
  · obtain rfl := Except.ok.inj read
    exact h
  next data found =>
    split at read
    next place decoded =>
      rw [Location.decodeConcrete_eq_ok_iff.1 decoded] at found
      rw [← Except.ok.inj read]
      exact ⟨⟨place, rfl, joined_of_get? sound found⟩, h.fallback, fun f => h.switched f⟩
    · cases read

/-- Reading the fallback of a document keeps a policy loadable. -/
theorem Loadable.readFallback (h : p.Loadable) (read : readFallback path members p = .ok p') :
    p'.Loadable := by
  rw [Policy.readFallback] at read
  split at read
  · obtain rfl := Except.ok.inj read
    exact h
  next data found =>
    split at read
    · rw [← Except.ok.inj read]
      exact ⟨h.location, .inl rfl, fun f => h.switched f⟩
    next l other decoded =>
      rcases Location.decode_eq_ok decoded with rfl | ⟨place, rfl, rfl⟩
      · exact absurd rfl other
      · rw [← Except.ok.inj read]
        exact ⟨h.location, .inr ⟨place, rfl, joined_of_get? sound found⟩, fun f => h.switched f⟩
    · cases read

omit sound

/-- Reading a flag of a document keeps a policy loadable. -/
theorem Loadable.readFlag (h : p.Loadable) {f : Flag}
    (read : readFlag path members p f = .ok p') : p'.Loadable := by
  rw [Policy.readFlag] at read
  split at read
  · obtain rfl := Except.ok.inj read
    exact h
  next b _ =>
    rw [← Except.ok.inj read]
    refine ⟨?_, ?_, fun g => ?_⟩
    · rw [location_setFlag]
      exact h.location
    · rw [fallback_setFlag]
      exact h.fallback
    · rw [flag_setFlag]
      split
      · exact Json.isBool_bool b
      · exact h.switched g
  · cases read

/-- Reading flags of a document keeps a policy loadable. -/
theorem Loadable.readFlags (h : p.Loadable) {flags : List Flag}
    (read : flags.foldlM (Policy.readFlag path members) p = .ok p') : p'.Loadable := by
  induction flags generalizing p with
  | nil =>
    obtain rfl := Except.ok.inj read
    exact h
  | cons f flags ih =>
    rw [List.foldlM_cons] at read
    obtain ⟨q, first, rest⟩ := Except.bind_eq_ok_iff.1 read
    exact ih (h.readFlag first) rest

/-- The members of a document that passes the first checks are those of the document. -/
theorem eq_of_checkHeader {data : Json} (h : checkHeader path data = .ok members) :
    data = .object members := by
  cases data with
  | object members' =>
    rw [checkHeader] at h
    split at h
    · split at h
      · dsimp only at h
        split at h
        · rw [Except.ok.inj h]
        · cases h
      · cases h
    · cases h
  | null | bool _ | int _ | float _ | text _ | array _ => cases h

/-- **What a sound document describes can be loaded again.** -/
theorem loadable_of_ofJson {data : Json} (sound : data.Sound)
    (h : ofJson path data = .ok p) : p.Loadable := by
  rw [ofJson] at h
  obtain ⟨members, header, h⟩ := Except.bind_eq_ok_iff.1 h
  obtain ⟨q₁, mode, h⟩ := Except.bind_eq_ok_iff.1 h
  obtain ⟨q₂, location, h⟩ := Except.bind_eq_ok_iff.1 h
  obtain ⟨q₃, fallback, flags⟩ := Except.bind_eq_ok_iff.1 h
  obtain rfl := eq_of_checkHeader header
  -- Each reader keeps the policy loadable, whatever fields the document leaves out.
  have q₁_loadable := loadable_default.readMode sound mode
  have q₂_loadable := q₁_loadable.readLocation sound location
  have q₃_loadable := q₂_loadable.readFallback sound fallback
  exact q₃_loadable.readFlags flags

end Reading

/-! ## From a policy to a document -/

/-- A document with the right format and version and known fields only passes the first checks. -/
theorem checkHeader_of_known {members : Members} {path : Option Text}
    (format : members.get? formatField = some (.text documentFormat))
    (version : members.get? versionField = some (.int documentVersion))
    (known : ∀ m ∈ members, m.1 ∈ knownFields) :
    checkHeader path (.object members) = .ok members := by
  have unknown : (members.map (·.1)).filter (fun key => !knownFields.contains key) = [] := by
    refine List.filter_eq_nil_iff.2 (List.forall_mem_map.2 fun m hm => ?_)
    simpa using known m hm
  simp only [checkHeader, format, version, unknown, List.isEmpty_nil, and_self, ↓reduceIte]

/-- The document of a policy, its places written out. -/
structure Describes (members : Members) (p : Policy) : Prop where
  /-- The document names the format. -/
  format : members.get? formatField = some (.text documentFormat)
  /-- The document names the version. -/
  version : members.get? versionField = some (.int documentVersion)
  /-- The document names no preset. -/
  mode : members.get? modeField = none
  /-- The document gives the location. -/
  location : ∃ place : ConcreteLocation, p.location = .location (.concrete place) ∧
    members.get? locationField = some (.text place.encode)
  /-- The document gives the fallback, a null value if it is absent. -/
  fallback : p.fallback = .none ∧ members.get? fallbackField = some .null ∨
    ∃ place : ConcreteLocation, p.fallback = .location (.concrete place) ∧
      members.get? fallbackField = some (.text place.encode)
  /-- The document gives the flags. -/
  flags : ∀ f, ∃ b, p.flag f = .bool b ∧ members.get? f.field = some (.bool b)
  /-- The document has no other members. -/
  known : ∀ m ∈ members, m.1 ∈ knownFields

/-- The order of the members of a document does not matter. -/
theorem Describes.of_perm {members others : Members} {p : Policy} (h : Describes others p)
    (perm : members.Perm others) (distinct : (others.map (·.1)).Nodup) : Describes members p := by
  -- All that a document says but its last field is what is found under its names.
  have same (name : Text) : members.get? name = others.get? name :=
    Bindings.get?_of_perm perm distinct
  obtain ⟨format, version, mode, location, fallback, flags, known⟩ := h
  refine ⟨?_, ?_, ?_, ?_, ?_, fun f => ?_, fun m hm => known m (perm.mem_iff.1 hm)⟩
  · rwa [same]
  · rwa [same]
  · rwa [same]
  · rwa [same]
  · rwa [same]
  · rw [same]
    exact flags f

section Describes

variable {members : Members} {p : Policy} (h : Describes members p) (path : Option Text)

include h

/-- The header of a document that describes a policy is right. -/
theorem Describes.checkHeader_eq : checkHeader path (.object members) = .ok members :=
  checkHeader_of_known h.format h.version h.known

/-- A document that describes a policy asks for no preset. -/
theorem Describes.readMode_eq (q : Policy) : readMode path members q = .ok q := by
  rw [readMode, h.mode]

/-- The location is read from a document as the policy has it. -/
theorem Describes.readLocation_eq (q : Policy) :
    readLocation path members q = .ok { q with location := p.location } := by
  obtain ⟨place, same, found⟩ := h.location
  have decoded : Location.decodeConcrete locationField (.text place.encode) = .ok place := by
    rw [Location.decodeConcrete]
    simp only [Location.decode, Location.ofText?_encode]
  simp only [readLocation, found, decoded, same]

/-- The fallback is read from a document as the policy has it. -/
theorem Describes.readFallback_eq (q : Policy) :
    readFallback path members q = .ok { q with fallback := p.fallback } := by
  rcases h.fallback with ⟨same, found⟩ | ⟨place, same, found⟩
  · simp only [readFallback, found, same, Location.decode]
  · simp only [readFallback, found, same, Location.decode, Location.ofText?_encode]

/-- A flag is read from a document as the policy has it. -/
theorem Describes.readFlag_eq (q : Policy) (f : Flag) :
    readFlag path members q f = .ok (q.setFlag f (p.flag f)) := by
  obtain ⟨b, same, found⟩ := h.flags f
  rw [readFlag, found, same]

/-- Flags are read from a document as the policy has them. -/
theorem Describes.readFlags_eq (q : Policy) (flags : List Flag) :
    flags.foldlM (readFlag path members) q =
      .ok (flags.foldl (fun q f => q.setFlag f (p.flag f)) q) := by
  induction flags generalizing q with
  | nil => rfl
  | cons f flags ih => rw [List.foldlM_cons, h.readFlag_eq, List.foldl_cons, ← ih]; rfl

/-- **A document that describes a policy is read as that policy.** -/
theorem Describes.ofJson_eq : ofJson path (.object members) = .ok p := by
  -- Between them, the two places and the flags are all that a policy holds.
  have all (q : Policy) : Flag.all.foldl (fun q f => q.setFlag f (p.flag f))
      { { q with location := p.location } with fallback := p.fallback } = p := by
    cases p
    rfl
  rw [ofJson, h.checkHeader_eq]
  show readMode path members {} >>= _ = _
  rw [h.readMode_eq]
  show readLocation path members {} >>= _ = _
  rw [h.readLocation_eq]
  show readFallback path members _ >>= _ = _
  rw [h.readFallback_eq]
  show Flag.all.foldlM (readFlag path members) _ = _
  rw [h.readFlags_eq, all]

end Describes

/-! ## The document of a policy -/

/-- The fields of the document of a policy. -/
def documentFields : List Text :=
  [formatField, versionField, locationField, fallbackField] ++ Flag.all.map Flag.field

/-- No field is written twice. -/
theorem nodup_documentFields : documentFields.Nodup := by decide +kernel

/-- The fields that are written are joined texts. -/
theorem joined_of_mem_documentFields : ∀ name ∈ documentFields, name.Joined := by decide +kernel

/-- The list of flags is complete. -/
theorem Flag.mem_all (f : Flag) : f ∈ all := by
  cases f with
  | _ => decide

/-- The document of a policy has all fields but that of a preset. -/
theorem documentFields_sublist_knownFields : documentFields.Sublist knownFields :=
  (((List.Sublist.refl _).cons modeField).cons_cons versionField).cons_cons formatField

/-- No preset is written: it is the places of a policy that are. -/
theorem modeField_notMem_documentFields : modeField ∉ documentFields := by decide +kernel

/-- The members of the document of a policy, given the values that stand for its places. -/
def documentMembers (p : Policy) (location fallback : Json) : Members :=
  [(formatField, .text documentFormat), (versionField, .int documentVersion),
    (locationField, location), (fallbackField, fallback)] ++
    Flag.all.map fun f => (f.field, p.flag f)

section DocumentMembers

variable {p : Policy} {location fallback : Json}

/-- Every document has the same fields in the same order. -/
theorem names_documentMembers :
    (documentMembers p location fallback).map (·.1) = documentFields := rfl

/-- The members of a document have different names. -/
theorem nodup_documentMembers : ((documentMembers p location fallback).map (·.1)).Nodup := by
  rw [names_documentMembers]
  exact nodup_documentFields

/-- The name of a member of a document is one of the fields that are written. -/
theorem mem_documentFields_of_mem {m : Text × Json}
    (h : m ∈ documentMembers p location fallback) : m.1 ∈ documentFields := by
  rw [← names_documentMembers (p := p)]
  exact List.mem_map_of_mem h

/-- A member of a document is found under its name. -/
theorem get?_documentMembers {name : Text} {data : Json}
    (h : (name, data) ∈ documentMembers p location fallback) :
    (documentMembers p location fallback).get? name = some data :=
  (Bindings.get?_eq_some_iff_mem nodup_documentMembers).2 h

/-- A flag of a policy is found in its document under the field of the flag. -/
theorem get?_flag_documentMembers (f : Flag) :
    (documentMembers p location fallback).get? f.field = some (p.flag f) :=
  get?_documentMembers (List.mem_append_right _ (List.mem_map.2 ⟨f, f.mem_all, rfl⟩))

/-- The values of a document are plain, the flags being truth values. -/
theorem atomic_of_mem_documentMembers (switched : p.Switched) (hlocation : location.Atomic)
    (hfallback : fallback.Atomic) : ∀ m ∈ documentMembers p location fallback, m.2.Atomic := by
  refine List.forall_mem_append.2 ⟨?_, List.forall_mem_map.2 fun f _ => ?_⟩
  · simp only [List.forall_mem_cons]
    exact ⟨Json.atomic_text (by decide), Json.atomic_int (by decide), hlocation, hfallback,
      List.forall_mem_nil _⟩
  · obtain ⟨b, same⟩ := switched f
    rw [same]
    exact Json.atomic_bool b

/-- The document of a policy describes it. -/
theorem describes_documentMembers {place : ConcreteLocation} (switched : p.Switched)
    (hlocation : p.location = .location (.concrete place))
    (hfallback : p.fallback = .none ∧ fallback = .null ∨ ∃ place : ConcreteLocation,
      p.fallback = .location (.concrete place) ∧ fallback = .text place.encode) :
    Describes (documentMembers p (.text place.encode) fallback) p where
  format := get?_documentMembers (by simp [documentMembers])
  version := get?_documentMembers (by simp [documentMembers])
  mode := by
    rw [Bindings.get?_eq_none_iff_notMem, names_documentMembers]
    exact modeField_notMem_documentFields
  location := ⟨place, hlocation, get?_documentMembers (by simp [documentMembers])⟩
  fallback := by
    rcases hfallback with ⟨same, rfl⟩ | ⟨second, same, rfl⟩
    · exact .inl ⟨same, get?_documentMembers (by simp [documentMembers])⟩
    · exact .inr ⟨second, same, get?_documentMembers (by simp [documentMembers])⟩
  flags f := by
    obtain ⟨b, same⟩ := switched f
    refine ⟨b, same, ?_⟩
    rw [← same]
    exact get?_flag_documentMembers f
  known m hm := documentFields_sublist_knownFields.subset (mem_documentFields_of_mem hm)

end DocumentMembers

/-- The value that stands for a place that may be absent. -/
theorem exists_encodePlacement_eq {placement : Placement}
    (h : placement = .none ∨ ∃ place : ConcreteLocation,
      placement = .location (.concrete place) ∧ place.encode.Joined) :
    ∃ data, encodePlacement placement = .ok data ∧ data.Atomic ∧
      (placement = .none ∧ data = .null ∨ ∃ place : ConcreteLocation,
        placement = .location (.concrete place) ∧ data = .text place.encode) := by
  rcases h with rfl | ⟨place, rfl, joined⟩
  · exact ⟨.null, rfl, ⟨.null, .null, fun _ => rfl⟩, .inl ⟨rfl, rfl⟩⟩
  · exact ⟨.text place.encode, rfl, Json.atomic_text joined, .inr ⟨place, rfl, rfl⟩⟩

/-- A document that describes a policy and is read back from its written form as it is. -/
structure DocumentOf (members : Members) (p : Policy) : Prop where
  /-- The document describes the policy. -/
  describes : Describes members p
  /-- No field comes twice. -/
  distinct : (members.map (·.1)).Nodup
  /-- Nothing in the name of a field is left to join. -/
  keys : ∀ m ∈ members, m.1.Joined
  /-- All values are plain. -/
  values : ∀ m ∈ members, m.2.Atomic

/-- The members of a policy's document are atomic. -/
theorem DocumentOf.atomicMembers {members : Members} {p : Policy} (h : DocumentOf members p) :
    Json.AtomicMembers members :=
  ⟨h.distinct, h.keys, h.values⟩

/-- **A policy that can be loaded has a document, which describes it.** -/
theorem Loadable.exists_toMembers_eq {p : Policy} (h : p.Loadable) :
    ∃ members, p.toMembers = .ok members ∧ DocumentOf members p := by
  obtain ⟨place, location, joined⟩ := h.location
  obtain ⟨second, encoded, atomic, fallback⟩ := exists_encodePlacement_eq h.fallback
  refine ⟨documentMembers p (.text place.encode) second, ?_, ?_, nodup_documentMembers, ?_, ?_⟩
  · rw [toMembers, location, encoded]
    rfl
  · exact describes_documentMembers h.switched location fallback
  · exact fun m hm => joined_of_mem_documentFields _ (mem_documentFields_of_mem hm)
  · exact atomic_of_mem_documentMembers h.switched (Json.atomic_text joined) atomic

end Policy

end Packaging
