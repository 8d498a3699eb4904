import Packaging.Proofs.Locations
import Packaging.Proofs.Session.Origins
import Packaging.Proofs.Session.Resources
import Packaging.Proofs.Session.Writes

/-! # Attributes of wrappers
Which attributes a wrapper has can be asked in three ways, and the answers agree: whether it has one
of some name, whether the name is among the names of all, and whether reading it is supported. A
write ends in one of four ways, by the attribute, the context and the value, in this order; only the
last of them changes anything. -/

namespace Packaging

open Packaging.Action

/-! ## Failures by their kinds -/

/-- Whether a result is a failure that a diagnostic of some kind tells of. -/
def FailsAs {α : Type} (result : Except Failure α) (kind : Diagnostic.Kind) : Prop :=
  ∃ d cause, result = .error ⟨.diagnostic d, cause⟩ ∧ d.kind = kind

/-- A result is no failure of any kind. -/
theorem not_failsAs_ok {α : Type} (a : α) (kind : Diagnostic.Kind) :
    ¬ FailsAs (.ok a : Except Failure α) kind := by
  rintro ⟨d, cause, failed, -⟩
  cases failed

/-- A diagnostic is a failure of its own kind. -/
theorem failsAs_error_iff {α : Type} {d : Diagnostic} {kind : Diagnostic.Kind} :
    FailsAs (.error d : Except Failure α) kind ↔ d.kind = kind := by
  constructor
  · rintro ⟨d', cause, failed, told⟩
    cases failed
    exact told
  · exact fun told => ⟨d, none, rfl, told⟩

/-- A kind has contexts unless it is that of extension modules. -/
theorem Kind.hasContext_iff {k : Kind} : k.hasContext = true ↔ k ≠ .extensionModule := by
  cases k with
  | _ => decide

namespace Attribute

/-- The names under which attributes are found are the names of attributes. -/
theorem isSome_ofName?_iff {attr : Text} : (ofName? attr).isSome = true ↔ attr ∈ names := by
  constructor
  · intro known
    obtain ⟨a, found⟩ := Option.isSome_iff_exists.1 known
    exact List.mem_map.2 ⟨a, mem_all a, name_of_ofName? found⟩
  · intro mem
    obtain ⟨a, -, rfl⟩ := List.mem_map.1 mem
    rw [ofName?_name]
    rfl

/-- Whether an attribute of some name is about locations and does not take a value: what is no
explicit place, and, as a fallback, is not the default location either. -/
def Refuses (attr : Text) (value : Value) : Prop :=
  attr = location.name ∧ Location.isPlace value = false ∨
    attr = fallback.name ∧ Location.isPlace value = false ∧ Location.isDefault value = false

/-- An attribute takes exactly the values that are not refused under its name. -/
theorem takes_eq_false_iff {a : Attribute} {value : Value} :
    a.takes value = false ↔ Refuses a.name value := by
  have named (b : Attribute) : a.name = b.name ↔ a = b := name_injective.eq_iff
  rw [Refuses, named, named]
  cases a with
  | location => simp [takes]
  | fallback => simp [takes]
  | _ => simp [takes]

/-- A write is refused for what it writes, and the diagnostic carries that. -/
theorem kind_of_write_eq_error {typeName : Text} {c : Context} {a : Attribute} {value : Value}
    {d : Diagnostic} (h : a.write typeName c value = .error d) : d.kind = .locationDecode value := by
  have refused {refusal : Location.Refusal} (decoded : Location.decode value = .error refusal) :
      refusal.diagnostic.kind = .locationDecode value :=
    congrArg Diagnostic.Kind.locationDecode (Location.value_of_decode_eq_error decoded)
  -- Only the attributes that are about locations refuse anything.
  cases a with
  | location =>
    rw [write] at h
    split at h
    · obtain rfl := Except.error.inj h
      rfl
    · cases h
    · next decoded =>
      obtain rfl := Except.error.inj h
      exact refused decoded
  | fallback =>
    rw [write] at h
    split at h
    · cases h
    · cases h
    · next decoded =>
      obtain rfl := Except.error.inj h
      exact refused decoded
  | _ => cases h

end Attribute

/-! ## Which attributes there are -/

namespace Wrapper

variable {w : Wrapper} {attr : Text}

/-- A wrapper has the attributes of its record and, if its kind has contexts, those of a context. -/
theorem mem_names_iff :
    attr ∈ w.names ↔ ((intrinsics w.record).lookup attr).isSome = true ∨
      w.kind.hasContext = true ∧ attr ∈ Attribute.names := by
  have held : attr ∈ (intrinsics w.record).map (·.1) ↔
      ((intrinsics w.record).lookup attr).isSome = true := by
    rw [← not_iff_not, ← Bindings.get?_eq_none_iff_notMem, Bool.not_eq_true,
      Option.isSome_eq_false_iff, Option.isNone_iff_eq_none]
    rfl
  rw [names, collectionNames, List.mem_append, held]
  cases w.kind.hasContext with
  | true => simp
  | false => simp

/-- A wrapper says that it has exactly the attributes that it names. -/
theorem has_eq_true_iff : w.has attr = true ↔ attr ∈ w.names := by
  rw [has, mem_names_iff, Bool.or_eq_true, Bool.and_eq_true, Attribute.isSome_ofName?_iff]

/-- What is not among the attributes is not supported. -/
theorem get_of_notMem_names (absent : attr ∉ w.names) (files : Files) :
    w.get files attr = .error (Diagnostic.unsupportedAttribute w.typeName attr
      Diagnostic.Access.get.operation w.names) := by
  rw [mem_names_iff, not_or] at absent
  obtain ⟨unheld, uncollected⟩ := absent
  rw [get, Option.not_isSome_iff_eq_none.1 unheld, if_neg]
  rwa [Bool.and_eq_true, Attribute.isSome_ofName?_iff]

/-- Reading what is among the attributes may fail, but it is supported. -/
theorem not_failsAs_get (present : attr ∈ w.names) (files : Files) (operation : Text) :
    ¬ FailsAs (w.get files attr) (.unsupportedAttribute operation) := by
  rcases mem_names_iff.1 present with held | ⟨has, collected⟩
  · obtain ⟨getter, found⟩ := Option.isSome_iff_exists.1 held
    have known : (attr, getter) ∈ intrinsics w.record := Bindings.mem_of_get?_eq_some found
    rw [get, found]
    dsimp only
    -- What a record holds is read; the source of a module fails with diagnostics of its own.
    have source (m : ModuleSource) (_ : w.record = .moduleSource m) : (readSource m files).ErrsIn
        fun failure => ∀ d, failure.fault = .diagnostic d →
          d.kind ≠ .unsupportedAttribute operation := by
      rw [readSource]
      split
      · next fault _ =>
        apply Except.errsIn_error
        cases fault with
        | _ => rintro d ⟨⟩ ⟨⟩
      · split
        · apply Except.errsIn_error
          rintro d ⟨⟩ ⟨⟩
        · exact Except.errsIn_ok _ _
    rintro ⟨d, cause, failed, told⟩
    exact errsIn_getter source known _ failed d rfl told
  · obtain ⟨a, -, rfl⟩ := List.mem_map.1 collected
    rw [get_name has]
    exact not_failsAs_ok _ _

/-- Without a context every attribute of one is read as null. -/
theorem get_of_absent (context : w.context = none) (present : attr ∈ w.names)
    (collected : attr ∈ Attribute.names) (files : Files) : w.get files attr = .ok .null := by
  obtain ⟨a, -, rfl⟩ := List.mem_map.1 collected
  rcases mem_names_iff.1 present with held | ⟨has, -⟩
  · rw [lookup_intrinsics_name] at held
    cases held
  · rw [get_name has, read, context]

/-! ## How writes end -/

/-- Whether a wrapper has an attribute of some name that can be written. -/
def Writable (w : Wrapper) (attr : Text) : Prop :=
  attr ∈ Attribute.names ∧ w.kind ≠ .extensionModule

/-- What cannot be written is not supported, be there a context or not. -/
theorem set_of_not_writable (h : ¬ w.Writable attr) (value : Value) :
    w.set attr value = .error (Diagnostic.unsupportedAttribute w.typeName attr
      Diagnostic.Access.set.operation w.collectionNames) := by
  rw [set, if_neg]
  rwa [Bool.and_eq_true, Attribute.isSome_ofName?_iff, Kind.hasContext_iff, and_comm]

/-- Without a context nothing is written, whatever the value is. -/
theorem set_of_absent (writable : w.Writable attr) (context : w.context = none) (value : Value) :
    w.set attr value = .error (Diagnostic.missingContext w.typeName attr) := by
  obtain ⟨collected, kind⟩ := writable
  obtain ⟨a, -, rfl⟩ := List.mem_map.1 collected
  have has := Kind.hasContext_iff.2 kind
  have place : w.hasPlace = true := by rw [hasPlace, has]; rfl
  rw [set, has, Attribute.ofName?_name, setCollection, Attribute.ofName?_name, context]
  exact if_pos place

/-- With a context the attribute is written there. -/
theorem set_name {c : Context} (has : w.kind.hasContext = true) (context : w.context = some c)
    (a : Attribute) (value : Value) :
    w.set a.name value =
      match a.write w.typeName c value with
      | .ok c' => .ok { w with context := some c' }
      | .error d => .error d := by
  have written : w.set a.name value = _ := set_of_context has context a.name value
  rw [Attribute.ofName?_name] at written
  exact written

/-- **A write ends in one of four ways.** The attribute comes first, then the context, and the value
last. -/
theorem set_ends (w : Wrapper) (attr : Text) (value : Value) :
    (¬ w.Writable attr ∧ ∃ d : Diagnostic, d.kind = .unsupportedAttribute "setattr" ∧
        w.set attr value = .error d) ∨
      (w.Writable attr ∧ w.context = none ∧ ∃ d : Diagnostic, d.kind = .missingContext ∧
        w.set attr value = .error d) ∨
      (w.Writable attr ∧ w.context ≠ none ∧ Attribute.Refuses attr value ∧
        ∃ d : Diagnostic, d.kind = .locationDecode value ∧ w.set attr value = .error d) ∨
      (w.Writable attr ∧ w.context ≠ none ∧ ¬ Attribute.Refuses attr value ∧
        ∃ w', w.set attr value = .ok w') := by
  by_cases writable : w.Writable attr
  · refine Or.inr ?_
    cases context : w.context with
    | none => exact Or.inl ⟨writable, rfl, _, rfl, set_of_absent writable context value⟩
    | some c =>
      have present : some c ≠ none := Option.some_ne_none c
      obtain ⟨a, -, rfl⟩ := List.mem_map.1 writable.1
      have written := set_name (Kind.hasContext_iff.2 writable.2) context a value
      rcases a.write_cases w.typeName value with ⟨takes, x, puts⟩ | ⟨refuses, d, fails⟩
      · rw [puts] at written
        refine Or.inr (Or.inr ⟨writable, present, ?_, _, written⟩)
        rw [← Attribute.takes_eq_false_iff, takes]
        decide
      · rw [fails] at written
        refine Or.inr (Or.inl ⟨writable, present, ?_, d, ?_, written⟩)
        · exact Attribute.takes_eq_false_iff.1 refuses
        · exact Attribute.kind_of_write_eq_error (fails c)
  · exact Or.inl ⟨writable, _, rfl, set_of_not_writable writable value⟩

/-- A write that does not succeed leaves the session, and the wrapper in it, as they are. -/
theorem session_of_refused {s : Session} {handle : Handle} (found : s.store.get? handle = some w)
    {value : Value} (refused : ¬ ∃ w', w.set attr value = .ok w') :
    ((Value.wrapper handle).writeAttribute attr value s).session = s := by
  rcases writeAttribute_cases (.wrapper handle) attr value s with
    ⟨failure, fails⟩ | ⟨handle', w₀, w', same, found', written, -⟩
  · rw [fails]
  · obtain rfl := Value.wrapper.inj same
    obtain rfl := Option.some.inj (found.symm.trans found')
    exact absurd ⟨w', written⟩ refused

end Wrapper

/-- **The attributes of a wrapper are told coherently**, whatever its kind is and whether or not it
has a context. That it has one, that it is among the names, and that reading it is supported come to
the same; no name comes twice; a report tells the type and every attribute but the source, each as
it is read; and without a context every attribute of one is read as null. A write ends in one of four
ways: the attribute is not supported, which is so unless it is one of a context that the kind has; or
there is no context; or the value is no location that the attribute takes; or else it succeeds. No
contract is ever broken, and what does not succeed changes nothing. -/
theorem attributes_told_coherently (w : Wrapper) (files : Files) :
    (∀ attr, (w.has attr = true ↔ attr ∈ w.names) ∧
      (w.has attr = true ↔
        ¬ ∃ operation, FailsAs (w.get files attr) (.unsupportedAttribute operation))) ∧
    w.names.Nodup ∧
    (w.report.map (·.1)).Nodup ∧
    (∀ key, key ∈ w.report.map (·.1) ↔
      key = Wrapper.typeKey ∨ key ∈ w.names ∧ key ≠ Wrapper.sourceName) ∧
    (∀ key data, key ≠ Wrapper.typeKey → Bindings.get? w.report key = some data →
      w.get files key = .ok data) ∧
    (w.context = none → ∀ attr ∈ w.names, attr ∈ Attribute.names →
      w.get files attr = .ok .null) ∧
    ∀ attr value,
      (FailsAs (w.set attr value) (.unsupportedAttribute "setattr") ↔
        attr ∉ Attribute.names ∨ w.kind = .extensionModule) ∧
      (FailsAs (w.set attr value) .missingContext ↔ w.Writable attr ∧ w.context = none) ∧
      (FailsAs (w.set attr value) (.locationDecode value) ↔
        w.Writable attr ∧ w.context ≠ none ∧ Attribute.Refuses attr value) ∧
      ((∃ w', w.set attr value = .ok w') ↔
        w.Writable attr ∧ w.context ≠ none ∧ ¬ Attribute.Refuses attr value) ∧
      (∀ message cause, w.get files attr ≠ .error ⟨.precondition message, cause⟩ ∧
        w.set attr value ≠ .error ⟨.precondition message, cause⟩) ∧
      ∀ (s : Session) (handle : Handle), s.store.get? handle = some w →
        (¬ ∃ w', w.set attr value = .ok w') →
          ((Value.wrapper handle).writeAttribute attr value s).session = s := by
  have told := w.toldBy_report files
  refine ⟨fun attr => ⟨Wrapper.has_eq_true_iff, Wrapper.has_eq_true_iff.trans ?_⟩,
    (List.nodup_cons.1 w.nodup_names).2, told.distinct, told.keys, fun key data other found => ?_,
    fun context attr present collected => Wrapper.get_of_absent context present collected files,
    fun attr value => ?_⟩
  · constructor
    · rintro present ⟨operation, unsupported⟩
      exact Wrapper.not_failsAs_get present files operation unsupported
    · intro supported
      by_contra absent
      have unsupported := Wrapper.get_of_notMem_names absent files
      exact supported ⟨_, unsupported ▸ failsAs_error_iff.2 rfl⟩
  · exact Wrapper.get_of_mem_report (Bindings.mem_of_get?_eq_some found) other
  · have unwritable : attr ∉ Attribute.names ∨ w.kind = .extensionModule ↔ ¬ w.Writable attr := by
      rw [Wrapper.Writable, not_and_or, not_not]
    have contract (message : Text) (cause : Option Fault) :
        w.get files attr ≠ .error ⟨.precondition message, cause⟩ ∧
          w.set attr value ≠ .error ⟨.precondition message, cause⟩ :=
      ⟨fun failed => (w.inner_get files attr _ failed).elim,
        fun failed => (w.inner_set attr value _ failed).elim⟩
    have unchanged (s : Session) (handle : Handle) (found : s.store.get? handle = some w)
        (refused : ¬ ∃ w', w.set attr value = .ok w') :
        ((Value.wrapper handle).writeAttribute attr value s).session = s :=
      Wrapper.session_of_refused found refused
    rw [unwritable]
    -- A write ends in one of four ways whose conditions exclude each other.
    rcases w.set_ends attr value with ⟨unwritable, d, kind, ends⟩ |
      ⟨writable, absent, d, kind, ends⟩ | ⟨writable, present, refuses, d, kind, ends⟩ |
      ⟨writable, present, takes, w', ends⟩
    · refine ⟨?_, ?_, ?_, ?_, contract, unchanged⟩
      all_goals simp [ends, failsAs_error_iff, kind, unwritable]
    · refine ⟨?_, ?_, ?_, ?_, contract, unchanged⟩
      all_goals simp [ends, failsAs_error_iff, kind, writable, absent]
    · refine ⟨?_, ?_, ?_, ?_, contract, unchanged⟩
      all_goals simp [ends, failsAs_error_iff, kind, writable, present, refuses]
    · refine ⟨?_, ?_, ?_, ?_, contract, unchanged⟩
      all_goals simp [ends, not_failsAs_ok, writable, present, takes]

/-- A module that has lost its context reads an attribute of it as null, and misses the context
before it looks at a value; an extension module does not support the attribute. -/
theorem location_of_module_and_extension :
    let lost : Wrapper := ⟨.moduleSource { name := "m", source := .bytes [] }, none, true⟩
    let extension : Wrapper := ⟨.extensionModule { name := "e" }, none, false⟩
    lost.context = none ∧ Attribute.location.name ∈ lost.names ∧
      (∀ files, lost.get files Attribute.location.name = .ok .null) ∧
      FailsAs (lost.set Attribute.location.name (Json.text "nowhere")) .missingContext ∧
      FailsAs (extension.set Attribute.location.name (Json.text "in-memory"))
        (.unsupportedAttribute "setattr") ∧ extension.has Attribute.location.name = false := by
  intro lost extension
  have collected : Attribute.location.name ∈ Attribute.names :=
    List.mem_map.2 ⟨.location, Attribute.mem_all _, rfl⟩
  have present : Attribute.location.name ∈ lost.names :=
    Wrapper.mem_names_iff.2 (Or.inr ⟨rfl, collected⟩)
  have writable : lost.Writable Attribute.location.name := ⟨collected, by decide⟩
  refine ⟨rfl, present, fun files => ?_, ?_, ?_, by decide +kernel⟩
  · exact (attributes_told_coherently lost files).2.2.2.2.2.1 rfl _ present collected
  · obtain ⟨-, -, -, -, -, -, ends⟩ := attributes_told_coherently lost fun _ => .ok []
    exact (ends Attribute.location.name (Json.text "nowhere")).2.1.2 ⟨writable, rfl⟩
  · obtain ⟨-, -, -, -, -, -, ends⟩ := attributes_told_coherently extension fun _ => .ok []
    exact (ends Attribute.location.name (Json.text "in-memory")).1.2 (Or.inr rfl)

end Packaging
