import Packaging.Proofs.Json.LongNumerals
import Packaging.Proofs.Policy.Printing
import Packaging.Proofs.Policy.Schema

/-! # Loading policies
Loading a policy file gives a valid policy or fails with a diagnostic that names the path, whatever
is or is not at the path and whatever the file holds, but for two ways out: an integer with more
digits than numerals may have, and a path that the file system cannot be asked for. -/

namespace Packaging.Policy

/-- The failures of loading that are no diagnostics. -/
inductive Escapes (files : Files) (path : Path) : Failure → Prop
  /-- An integer in the document has too many digits. -/
  | numeral {bytes : Utf8.Bytes} {t : Text} {fault : Integer.TooLong}
      (stored : files path = .ok bytes) (decoded : Utf8.decode bytes = .ok t)
      (refused : Json.read t.unifyLineEndings = .error (.tooLong fault)) :
      Escapes files path (Fault.invalidValue fault.message)
  /-- The path is none that the file system can be asked for. -/
  | path {fault : FileFault} (refused : files path = .error fault)
      (noSystem : fault.isSystem = false) : Escapes files path fault.toFault

section Loading

variable {files : Files} {path : Path} {failure : Failure}

/-- What escapes is what loading comes to. -/
theorem Escapes.load_eq (h : Escapes files path failure) : load files path = .error failure := by
  cases h with
  | @numeral _ _ fault stored decoded refused =>
    have document : loadDocument files path = .error (Fault.invalidValue fault.message) := by
      simp only [loadDocument, stored, readDocument, decoded, refused]
    rw [load, document]
    rfl
  | path refused noSystem =>
    rw [load, loadDocument, refused]
    show Except.error (unreadableFile path _) = _
    rw [unreadableFile, noSystem]
    rfl

/-- What escapes is no diagnostic. -/
theorem Escapes.fault_ne (h : Escapes files path failure) (d : Diagnostic) :
    failure.fault ≠ .diagnostic d := by
  cases h with
  | numeral => exact Fault.noConfusion
  | @path fault _ noSystem =>
    cases fault with
    | nullInPath | unencodablePath _ => exact Fault.noConfusion
    | notFound _ | isDirectory _ | notDirectory _ | nameTooLong _ => cases noSystem

/-- A document that cannot be loaded is refused with a diagnostic, or its failure escapes. -/
theorem loadDocument_eq_error (h : loadDocument files path = .error failure) :
    (∃ (d : Diagnostic) (cause : Option Fault), failure = ⟨.diagnostic d, cause⟩ ∧
      d.kind = .policyConfig (some path.text)) ∨ Escapes files path failure := by
  rw [loadDocument] at h
  split at h
  next fault refused =>
    obtain rfl := Except.error.inj h
    rw [unreadableFile]
    split
    · exact Or.inl ⟨_, _, rfl, rfl⟩
    next noSystem => exact Or.inr (.path refused (Bool.not_eq_true _ ▸ noSystem))
  next bytes stored =>
    rw [readDocument] at h
    split at h
    · exact Or.inl ⟨_, _, (Except.error.inj h).symm, rfl⟩
    next t decoded =>
      split at h
      · cases h
      next fault refused =>
        obtain rfl := Except.error.inj h
        exact Or.inr (.numeral stored decoded refused)
      · exact Or.inl ⟨_, _, (Except.error.inj h).symm, rfl⟩

/-- The digits of an integer that is refused stand in a row in the file. -/
theorem Escapes.hasLongRun {bytes : Utf8.Bytes} {t : Text} (h : Escapes files path failure)
    (stored : files path = .ok bytes) (decoded : Utf8.decode bytes = .ok t) :
    ∃ digits, Json.HasLongRun t.unifyLineEndings digits := by
  cases h with
  | @numeral bytes' t' fault stored' decoded' refused =>
    obtain rfl := Except.ok.inj (stored.symm.trans stored')
    obtain rfl := Except.ok.inj (decoded.symm.trans decoded')
    have clean := Text.isSurrogate_eq_false_of_unifyLineEndings
      (Utf8.isSurrogate_eq_false_of_decode decoded)
    exact ⟨_, Json.hasLongRun_of_read refused clean⟩
  | path refused => cases stored.symm.trans refused

end Loading

/-- **How loading a policy ends.** A policy that is loaded has explicit places and truth values for
flags. A failure is a diagnostic about the policy that names the path, or it is one of those that
escape, and these are no diagnostics. Nothing escapes for a file whose digits never stand in so long
a row. -/
theorem load_outcomes (files : Files) (path : Path) :
    (∀ p, load files path = .ok p → p.Places ∧ p.Switched) ∧
    (∀ failure, load files path = .error failure →
      (∃ (d : Diagnostic) (cause : Option Fault), failure = ⟨.diagnostic d, cause⟩ ∧
        d.kind = .policyConfig (some path.text)) ∨ Escapes files path failure) ∧
    (∀ failure, Escapes files path failure →
      load files path = .error failure ∧ ∀ d, failure.fault ≠ .diagnostic d) ∧
    ∀ bytes t, files path = .ok bytes → Utf8.decode bytes = .ok t →
      (∀ digits, ¬ Json.HasLongRun t.unifyLineEndings digits) →
      ∀ failure, ¬ Escapes files path failure := by
  refine ⟨fun p h => ?_, fun failure h => ?_, fun failure h => ⟨h.load_eq, h.fault_ne⟩, ?_⟩
  · obtain ⟨data, -, described⟩ := Except.bind_eq_ok_iff.1 h
    exact places_and_switched_of_ofJson described
  · rcases Except.bind_eq_error_iff.1 h with unread | ⟨data, -, refused⟩
    · exact loadDocument_eq_error unread
    · obtain ⟨check, -, refusal⟩ := ofJson_eq_error_iff.1 refused
      exact Or.inl refusal.exists_kind_eq
  · intro bytes t stored decoded short failure escapes
    obtain ⟨digits, long⟩ := escapes.hasLongRun stored decoded
    exact short digits long

/-- A directory at the path is refused with a diagnostic; a null character in the path escapes. -/
theorem load_outcomes_of_directory_and_null :
    let directory : Files := fun path => .error (.isDirectory path.text)
    let null : Files := fun _ => .error .nullInPath
    let path : Path := ⟨[], ["policy.json"]⟩
    (∃ (d : Diagnostic) (cause : Option Fault),
      load directory path = .error ⟨.diagnostic d, cause⟩ ∧
        d.kind = .policyConfig (some path.text)) ∧
    load null path = .error (Fault.invalidValue FileFault.nullInPath.message) ∧
    (∀ failure, load null path = .error failure → ∀ d, failure.fault ≠ .diagnostic d) := by
  intro directory null path
  have escapes : Escapes null path FileFault.nullInPath.toFault := .path rfl rfl
  obtain ⟨loaded, notDiagnostic⟩ := (load_outcomes null path).2.2.1 _ escapes
  refine ⟨?_, loaded, fun failure h => ?_⟩
  · rcases (load_outcomes directory path).2.1 _ rfl with ⟨d, cause, same, named⟩ | escapes
    · exact ⟨d, cause, congrArg Except.error same, named⟩
    · exact absurd rfl (((load_outcomes directory path).2.2.1 _ escapes).2 _)
  · rw [← Except.error.inj (loaded.symm.trans h)]
    exact notDiagnostic

/-- A policy file whose version has one digit more than numerals may have. -/
def longVersionFile : Files := fun _ =>
  let document : Text := "\x7b\"format\": \"starpack-policy\", \"version\": " ++
    List.replicate 4301 (CodePoint.ofChar '7') ++ "\x7d"
  .ok (document.flatMap Utf8.encodePoint)

/-- What a value is refused for, if the fault is that. -/
def refusedValue? : Fault → Option Text
  | .invalidValue message => some message
  | .diagnostic _ | .wrongType _ | .precondition _ | .lacking _ | .file _ | .encoding _ => none

/-- What is refused for its value is an invalid value with the message of the refusal. -/
theorem eq_invalidValue {fault : Fault} {message : Text}
    (h : refusedValue? fault = some message) : fault = .invalidValue message := by
  cases fault with
  | invalidValue other => rw [← Option.some.inj h]
  | _ => cases h

/-- It is neither loaded nor refused with a diagnostic: the limit of numerals is told as it is. -/
theorem long_version_escapes :
    let outcome := load longVersionFile ⟨[], ["p.json"]⟩
    (∃ failure, outcome = .error failure ∧
      failure.fault = .invalidValue (Integer.TooLong.message ⟨4301⟩)) ∧
    (¬ ∃ p, outcome = .ok p) ∧
    ¬ ∃ (d : Diagnostic) (cause : Option Fault), outcome = .error ⟨.diagnostic d, cause⟩ := by
  intro outcome
  have told : ((outcome.map fun _ => none).tryCatch fun failure =>
      .ok (refusedValue? failure.fault)).toOption =
        some (some (Integer.TooLong.message ⟨4301⟩)) := by
    decide +kernel
  obtain ⟨failure, fails, fault⟩ : ∃ failure, outcome = .error failure ∧
      failure.fault = .invalidValue (Integer.TooLong.message ⟨4301⟩) := by
    generalize outcome = result at told
    cases result with
    | ok p => cases told
    | error failure => exact ⟨failure, rfl, eq_invalidValue (Option.some.inj told)⟩
  refine ⟨⟨failure, fails, fault⟩, ?_, ?_⟩
  · rintro ⟨p, loaded⟩
    cases fails.symm.trans loaded
  · rintro ⟨d, cause, refused⟩
    rw [Except.error.inj (fails.symm.trans refused)] at fault
    cases fault

end Packaging.Policy
