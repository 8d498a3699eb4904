import Packaging.Proofs.Session.Aliases
import Packaging.Proofs.Session.Names

/-! # Resources and their reports
The report of a wrapper tells its type and every attribute but the source of a module, each with the
value that reading it gives. The resources of a session are the wrappers that names are bound to, one
for each such name. -/

namespace Packaging

/-! ## Reports -/

/-- The text of a value, if it is one. -/
def Json.text? : Json → Option Text
  | text t => some t
  | _ => none

/-- The list of attributes is complete. -/
theorem Attribute.mem_all (a : Attribute) : a ∈ all := by
  cases a with
  | _ => decide

/-- Attributes have different names. -/
theorem Attribute.nodup_names : names.Nodup := by
  exact List.Nodup.map name_injective (by decide : all.Nodup)

/-- A name under which no attribute is found is no attribute's. -/
theorem Attribute.notMem_names {t : Text} (h : ofName? t = none) : t ∉ names := by
  intro mem
  obtain ⟨a, -, rfl⟩ := List.mem_map.1 mem
  cases h.symm.trans (ofName?_name a)

namespace Wrapper

/-- Whether members tell all about a wrapper that a report tells. -/
structure ToldBy (files : Files) (w : Wrapper) (members : Members) : Prop where
  /-- No key comes twice. -/
  distinct : (members.map (·.1)).Nodup
  /-- The keys are that of the type and the names of all attributes but the source. -/
  keys : ∀ key, key ∈ members.map (·.1) ↔ key = typeKey ∨ key ∈ w.names ∧ key ≠ sourceName
  /-- The type is told. -/
  type : members.get? typeKey = some (.text w.typeName)
  /-- Every attribute is told as it is read. -/
  values : ∀ attr ∈ w.names, attr ≠ sourceName →
    ∃ data, w.get files attr = .ok data ∧ members.get? attr = some data

/-- The order in which a wrapper is told does not matter to what is told. -/
theorem ToldBy.of_perm {files : Files} {w : Wrapper} {members others : Members}
    (h : w.ToldBy files others) (perm : members.Perm others) : w.ToldBy files members where
  distinct := (perm.map (·.1)).nodup_iff.2 h.distinct
  keys key := (perm.map (·.1)).mem_iff.trans (h.keys key)
  type := (Bindings.get?_of_perm perm h.distinct).trans h.type
  values attr named other := by
    obtain ⟨data, read, told⟩ := h.values attr named other
    exact ⟨data, read, (Bindings.get?_of_perm perm h.distinct).trans told⟩

/-- No attribute of a record is called like the type or like another one. -/
theorem nodup_names_intrinsics (record : Record) :
    (typeKey :: (intrinsics record).map (·.1)).Nodup := by
  cases record with
  | moduleSource m =>
    show [typeKey, "name", sourceName, "is_package"].Nodup
    decide +kernel
  | packageResource r | distributionResource r =>
    show [typeKey, "package", "name"].Nodup
    decide +kernel
  | extensionModule m =>
    show [typeKey, "name"].Nodup
    decide +kernel

/-- No attribute is called like the type or like another one. -/
theorem nodup_names (w : Wrapper) : (typeKey :: w.names).Nodup := by
  have own := nodup_names_intrinsics w.record
  rw [names, collectionNames, ← List.cons_append]
  split
  · refine List.nodup_append.2 ⟨own, Attribute.nodup_names, ?_⟩
    rintro key known _ collection rfl
    rcases List.mem_cons.1 known with rfl | held
    · exact Attribute.notMem_names (by decide +kernel) collection
    · obtain ⟨a, -, rfl⟩ := List.mem_map.1 collection
      exact Bindings.get?_eq_none_iff_notMem.1 (lookup_intrinsics_name w.record a) held
  · rwa [List.append_nil]

/-- A record holds all its attributes but the source. -/
theorem names_heldAttributes (record : Record) :
    (heldAttributes record).map (·.1) =
      ((intrinsics record).map (·.1)).filter (· ≠ sourceName) := by
  cases record with
  | _ => rfl

/-- An attribute that a record holds is read as it is held, and it is a truth value or a text. -/
theorem lookup_intrinsics_of_held {record : Record} {attr : Text} {data : Json}
    (h : (attr, data) ∈ heldAttributes record) :
    (intrinsics record).lookup attr = some (constant data) ∧
      (data.IsBool ∨ ∃ t, data = .text t) := by
  cases record with
  | moduleSource m =>
    simp only [heldAttributes, List.mem_cons, List.not_mem_nil, or_false, Prod.mk.injEq] at h
    rcases h with ⟨rfl, rfl⟩ | ⟨rfl, rfl⟩
    · exact ⟨rfl, Or.inr ⟨_, rfl⟩⟩
    · exact ⟨rfl, Or.inl ⟨_, rfl⟩⟩
  | packageResource r | distributionResource r =>
    simp only [heldAttributes, List.mem_cons, List.not_mem_nil, or_false, Prod.mk.injEq] at h
    rcases h with ⟨rfl, rfl⟩ | ⟨rfl, rfl⟩
    · exact ⟨rfl, Or.inr ⟨_, rfl⟩⟩
    · exact ⟨rfl, Or.inr ⟨_, rfl⟩⟩
  | extensionModule m =>
    simp only [heldAttributes, List.mem_cons, List.not_mem_nil, or_false, Prod.mk.injEq] at h
    obtain ⟨rfl, rfl⟩ := h
    exact ⟨rfl, Or.inr ⟨_, rfl⟩⟩

/-- What a report tells is the type, an attribute of the record, or an attribute of the context. -/
theorem mem_report_iff {w : Wrapper} {key : Text} {data : Json} :
    (key, data) ∈ w.report ↔
      (key = typeKey ∧ data = .text w.typeName) ∨ (key, data) ∈ heldAttributes w.record ∨
        w.kind.hasContext = true ∧ ∃ a : Attribute, a.name = key ∧ w.read a = data := by
  rw [report]
  cases w.kind.hasContext with
  | false => simp
  | true => simp [Attribute.mem_all]

/-- A report has the key of the type and those of all attributes but the source. -/
theorem keys_report (w : Wrapper) :
    w.report.map (·.1) = typeKey :: w.names.filter (· ≠ sourceName) := by
  rw [report, names, List.filter_append, ← names_heldAttributes, collectionNames]
  cases w.kind.hasContext with
  | false => simp
  | true =>
    have others : Attribute.names.filter (· ≠ sourceName) = Attribute.names := by
      refine List.filter_eq_self.2 fun name h => decide_eq_true ?_
      exact ne_of_mem_of_not_mem h (Attribute.notMem_names (by decide +kernel))
    rw [if_pos rfl, if_pos rfl, others, List.map_append, List.map_cons, List.map_map]
    rfl

/-- Every attribute in a report has the value that reading it gives. -/
theorem get_of_mem_report {files : Files} {w : Wrapper} {attr : Text} {data : Json}
    (h : (attr, data) ∈ w.report) (other : attr ≠ typeKey) : w.get files attr = .ok data := by
  rcases mem_report_iff.1 h with ⟨same, -⟩ | held | ⟨has, a, rfl, rfl⟩
  · exact absurd same other
  · rw [get, (lookup_intrinsics_of_held held).1]
    rfl
  · exact get_name has a

/-- A report tells each attribute once. -/
theorem nodup_report (w : Wrapper) : (w.report.map (·.1)).Nodup := by
  rw [keys_report]
  exact w.nodup_names.sublist (List.filter_sublist.cons_cons typeKey)

/-- **A report tells all about its wrapper.** -/
theorem toldBy_report (files : Files) (w : Wrapper) : w.ToldBy files w.report := by
  have untyped := (List.nodup_cons.1 w.nodup_names).1
  have keys := keys_report w
  have once := w.nodup_report
  refine ⟨once, fun key => ?_, ?_, fun attr named other => ?_⟩
  · rw [keys, List.mem_cons, List.mem_filter, decide_eq_true_iff]
  · exact (Bindings.get?_eq_some_iff_mem once).2 (mem_report_iff.2 (Or.inl ⟨rfl, rfl⟩))
  · have inside : attr ∈ w.report.map (·.1) := by
      rw [keys]
      exact List.mem_cons_of_mem _ (List.mem_filter.2 ⟨named, decide_eq_true other⟩)
    obtain ⟨⟨_, data⟩, told, rfl⟩ := List.mem_map.1 inside
    have plain := ne_of_mem_of_not_mem named untyped
    exact ⟨data, get_of_mem_report told plain, (Bindings.get?_eq_some_iff_mem once).2 told⟩

/-! ## Plain reports -/

/-- No name of an attribute has surrogates to join. -/
theorem joined_of_mem_names {w : Wrapper} {key : Text} (h : key ∈ typeKey :: w.names) :
    key.Joined := by
  have own : ∀ key ∈ typeKey :: (intrinsics w.record).map (·.1), key.Joined := by
    cases w.record with
    | moduleSource m =>
      show ∀ key ∈ [typeKey, "name", sourceName, "is_package"], key.Joined
      decide +kernel
    | packageResource r | distributionResource r =>
      show ∀ key ∈ [typeKey, "package", "name"], key.Joined
      decide +kernel
    | extensionModule m =>
      show ∀ key ∈ [typeKey, "name"], key.Joined
      decide +kernel
  have collection : ∀ key ∈ w.collectionNames, key.Joined := by
    rw [collectionNames]
    split
    · decide +kernel
    · exact List.forall_mem_nil _
  rw [names, ← List.cons_append] at h
  exact (List.mem_append.1 h).elim (own key) (collection key)

/-- What a sound wrapper is read as in a collection attribute: nothing, a truth value or a text. -/
theorem read_cases {w : Wrapper} (sound : w.Sound True) (a : Attribute) :
    w.read a = .null ∨ (w.read a).IsBool ∨ ∃ t, w.read a = .text t := by
  have ofText (t? : Option Text) : Json.ofText? t? = .null ∨ (Json.ofText? t?).IsBool ∨
      ∃ t, Json.ofText? t? = .text t := by
    cases t? with
    | none => exact Or.inl rfl
    | some t => exact Or.inr (Or.inr ⟨t, rfl⟩)
  rw [read]
  cases placed : w.context with
  | none => exact Or.inl rfl
  | some c =>
    have flags := sound.flags trivial c placed
    cases a with
    | included => exact Or.inr (Or.inl flags.included)
    | location => exact ofText _
    | fallback => exact ofText _
    | source => exact Or.inr (Or.inl flags.storeSource)
    | optimizeLevelZero => exact Or.inr (Or.inl flags.optimizeLevelZero)
    | optimizeLevelOne => exact Or.inr (Or.inl flags.optimizeLevelOne)
    | optimizeLevelTwo => exact Or.inr (Or.inl flags.optimizeLevelTwo)

/-- What a report tells of a sound wrapper is nothing, a truth value or a text. -/
theorem report_cases {w : Wrapper} (sound : w.Sound True) {key : Text} {data : Json}
    (h : (key, data) ∈ w.report) : data = .null ∨ data.IsBool ∨ ∃ t, data = .text t := by
  rcases mem_report_iff.1 h with ⟨-, rfl⟩ | held | ⟨-, a, -, rfl⟩
  · exact Or.inr (Or.inr ⟨_, rfl⟩)
  · exact Or.inr (lookup_intrinsics_of_held held).2
  · exact read_cases sound a

/-- The texts that a report tells: the type, and the attributes whose values are texts. -/
def toldTexts (w : Wrapper) : List Text := w.report.filterMap fun m => m.2.text?

/-- The report of a sound wrapper is read back as it is, if no text in it has surrogates to join. -/
theorem atomicMembers_report {w : Wrapper} (sound : w.Sound True)
    (joined : ∀ t ∈ w.toldTexts, t.Joined) : Json.AtomicMembers w.report := by
  refine ⟨w.nodup_report, fun m hm => ?_, fun m hm => ?_⟩
  · have mem : m.1 ∈ w.report.map (·.1) := List.mem_map_of_mem hm
    rw [keys_report] at mem
    exact joined_of_mem_names (List.filter_sublist.cons_cons typeKey |>.subset mem)
  · rcases report_cases sound hm with null | ⟨b, bool⟩ | ⟨t, text⟩
    · rw [null]
      exact Json.atomic_null
    · rw [bool]
      exact Json.atomic_bool b
    · have told : m.2.text? = some t := by rw [text]; rfl
      rw [text]
      exact Json.atomic_text (joined t (List.mem_filterMap.2 ⟨m, hm, told⟩))

end Wrapper

/-! ## Resources -/

namespace Session

variable {s : Session}

/-- The resources of a session are the wrappers that are bound to names. -/
theorem mem_resources_iff {name : Text} {w : Wrapper} :
    (name, w) ∈ s.resources ↔
      ∃ handle, (name, Value.wrapper handle) ∈ s.globals ∧ s.store.get? handle = some w := by
  rw [resources, List.mem_filterMap]
  constructor
  · rintro ⟨⟨_, value⟩, bound, found⟩
    obtain ⟨w', behind, same⟩ := Option.map_eq_some_iff.1 found
    obtain ⟨rfl, rfl⟩ := Prod.mk.inj same
    cases value with
    | plain data => cases behind
    | wrapper handle => exact ⟨handle, bound, behind⟩
  · rintro ⟨handle, bound, found⟩
    exact ⟨(name, .wrapper handle), bound, Option.map_eq_some_iff.2 ⟨w, found, rfl⟩⟩

/-- Resources are listed under names of the session, in the same order. -/
theorem names_resources_sublist (s : Session) :
    (s.resources.map (·.1)).Sublist s.names := by
  rw [resources, names]
  induction s.globals with
  | nil => exact List.Sublist.refl _
  | cons binding globals ih =>
    obtain ⟨name, value⟩ := binding
    rw [List.filterMap_cons]
    dsimp only
    cases value.wrapper? s.store with
    | none => exact ih.cons name
    | some w => exact ih.cons_cons name

end Session

end Packaging
