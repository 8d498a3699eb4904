import Packaging.Proofs.CommandLine.Invocations
import Packaging.Proofs.Policy.Presets
import Packaging.Proofs.Policy.Printing

/-! # Presets by switch and by document
A preset can be named by a switch or by a field of the policy document. Both give the policy the same
places, and both refuse a name that no preset has; but an empty name is no name to the switch, and
neither is the separator, while a document that holds one of them is refused. -/

namespace Packaging.CommandLine

/-! ## Showing policies -/

/-- Whether the program refused a request with a diagnostic, and said nothing else. -/
def Outcome.Rejected (o : Outcome) : Prop := o.ending = .served diagnosticCode ∧ o.output = []

/-- Whether two requests succeed with the same output, or are both rejected. -/
def Outcome.AgreesWith (o o' : Outcome) : Prop :=
  (o.ending = .served successCode ∧ o'.ending = .served successCode ∧ o.output = o'.output) ∨
    o.Rejected ∧ o'.Rejected

/-- A policy that is refused with a diagnostic is not shown. -/
theorem rejected_servePolicy {files : Files} {source : PolicySource} {mode? : Option Text}
    {failure : Failure} (refused : (shownPolicy files source mode?).result = .error failure)
    {d : Diagnostic} (told : failure.fault = .diagnostic d) (verbose : Bool) :
    (servePolicy files verbose source mode?).Rejected := by
  have both : (shownPolicy files source mode?).result.bind Policy.toJson = .error failure := by
    rw [refused]
    rfl
  rw [servePolicy, both]
  dsimp only
  rw [failed, told]
  exact ⟨rfl, rfl⟩

/-- Policies that are the same are shown in the same way. -/
theorem agreesWith_of_ok {files : Files} {source source' : PolicySource}
    {mode? mode?' : Option Text} {p : Policy} {document : Json}
    (shown : (shownPolicy files source mode?).result = .ok p)
    (shown' : (shownPolicy files source' mode?').result = .ok p)
    (written : p.toJson = .ok document) (verbose verbose' : Bool) :
    (servePolicy files verbose source mode?).AgreesWith
      (servePolicy files verbose' source' mode?') := by
  obtain ⟨output, ending⟩ := servePolicy_of_ok shown written verbose
  obtain ⟨output', ending'⟩ := servePolicy_of_ok shown' written verbose'
  exact Or.inl ⟨ending, ending', output.trans output'.symm⟩

/-! ## A preset on top of a document -/

section Presets

variable {files : Files} {path path' : Path} {mode : Text} {members others : Members}

/-- To show the policy of a file with a named preset on top is to load it and to apply the preset.
-/
theorem result_shownPolicy_of_ne_nil (files : Files) (path : Path) (named : mode ≠ []) :
    (shownPolicy files (.file path) (some mode)).result =
      (Policy.load files path).bind fun p =>
        (p.setMode mode).mapError fun d => ⟨.diagnostic d, none⟩ := by
  rw [shownPolicy, Traced.result_bind, choosePolicy, Policy.result_loadTraced]
  congr 1
  funext p
  cases mode with
  | nil => exact absurd rfl named
  | cons c mode => exact Policy.result_setModeTraced p (c :: mode)

/-- A policy is loaded as the document that its file holds is read. -/
theorem load_of_loadDocument {data : Json} (stored : Policy.loadDocument files path = .ok data) :
    Policy.load files path = Policy.ofJson path.text data := by
  rw [Policy.load, stored]
  rfl

/-- A document about flags is loaded, or refused with a diagnostic. -/
theorem load_flagDocument (stored : Policy.loadDocument files path = .ok (.object members))
    (document : Policy.FlagDocument members) :
    Policy.load files path =
      Policy.Flag.all.foldlM (Policy.readFlag path.text members) {} :=
  (load_of_loadDocument stored).trans (document.ofJson_eq path.text)

/-- The name of a preset does to a document what it does in it. -/
theorem agreesWith_of_mode (named : mode ≠ [])
    (stored : Policy.loadDocument files path = .ok (.object members))
    (document : Policy.FlagDocument members)
    (stored' : Policy.loadDocument files path' = .ok (.object others))
    (added : others.Perm ((Policy.modeField, .text mode) :: members)) (verbose verbose' : Bool) :
    (servePolicy files verbose (.file path) (some mode)).AgreesWith
      (servePolicy files verbose' (.file path') none) := by
  have shown := result_shownPolicy_of_ne_nil files path named
  have shown' := (result_shownPolicy files path').trans (load_of_loadDocument stored')
  rw [load_flagDocument stored document] at shown
  -- A document with a bad flag is refused either way, and one with good flags if the name is bad.
  rcases document.ofJson_added added path'.text with ⟨preset, known, read⟩ | ⟨unknown, d, cause, read⟩
  · rw [read] at shown'
    rcases Policy.readFlags_withPreset path.text path'.text (document.sameFlags added) preset
      Policy.Flag.all {} with ⟨q, first, second⟩ | ⟨d, d', first, second⟩
    · obtain ⟨document, written⟩ := Policy.exists_toJson_withPreset q preset
      rw [first] at shown
      rw [second] at shown'
      refine agreesWith_of_ok (shown.trans ?_) shown' written verbose verbose'
      show (q.setMode mode).mapError _ = _
      rw [Policy.setMode_of_known known]
      rfl
    · rw [first] at shown
      rw [second] at shown'
      exact Or.inr ⟨rejected_servePolicy shown rfl verbose, rejected_servePolicy shown' rfl verbose'⟩
  · rw [read] at shown'
    refine Or.inr ⟨?_, rejected_servePolicy shown' rfl verbose'⟩
    rcases Policy.readFlags_cases path.text members {} with ⟨q, first⟩ | ⟨d, first⟩
    · obtain ⟨d, set⟩ := Policy.exists_setMode_eq_error unknown q
      have refused : (q.setMode mode).mapError (fun d => (⟨.diagnostic d, none⟩ : Failure)) =
          .error ⟨.diagnostic d, none⟩ := by
        rw [set]
        rfl
      rw [first] at shown
      exact rejected_servePolicy (shown.trans refused) rfl verbose
    · rw [first] at shown
      exact rejected_servePolicy shown rfl verbose

/-- A document that names no preset that there is, is refused. -/
theorem rejected_of_unknown_mode (unknown : Preset.ofName? mode = none)
    (document : Policy.FlagDocument members)
    (stored' : Policy.loadDocument files path' = .ok (.object others))
    (added : others.Perm ((Policy.modeField, .text mode) :: members)) (verbose : Bool) :
    (servePolicy files verbose (.file path') none).Rejected := by
  have shown := (result_shownPolicy files path').trans (load_of_loadDocument stored')
  rcases document.ofJson_added added path'.text with ⟨preset, known, -⟩ | ⟨-, d, cause, read⟩
  · cases unknown.symm.trans known
  · rw [read] at shown
    exact rejected_servePolicy shown rfl verbose

end Presets

/-! ## Command lines -/

/-- The arguments that ask for the policy of a file. -/
def policyArguments (file : Text) : List Text := ["policy", "--policy", file]

/-- Every name of a file that does not begin with a dash can be given. -/
theorem ofArguments_policyArguments {file : Text}
    (undashed : file.head? ≠ some (CodePoint.ofChar '-')) :
    Invocation.ofArguments (policyArguments file) =
      .ok ⟨false, .policy (.file (Path.ofText file)) none⟩ := by
  have other : file ≠ separatorText := by
    rintro rfl
    exact undashed (by decide +kernel)
  have value (f : Form) : f.roleOf file = .ok .value := by rw [Form.roleOf, if_neg undashed]
  have command : Form.program.roleOf "policy" = .ok .value := by
    rw [Form.roleOf, if_neg (by decide +kernel)]
  have unknown : Form.program.roleOf "--policy" = .ok .unknown := rfl
  have switch : (Form.command .policy).roleOf "--policy" = .ok (.switch .policy "--policy" none) :=
    Form.roleOf_of_named (by decide +kernel) (by decide +kernel)
  refine ofArguments_eq_ok_iff.2 ⟨[⟨"policy", .value⟩, ⟨"--policy", .unknown⟩, ⟨file, .value⟩], {},
    "policy", ["--policy", file], .policy, [⟨"--policy", .switch .policy "--policy" none⟩,
    ⟨file, .value⟩], { policy := .file (Path.ofText file) }, ?_, rfl, ?_, ?_, ?_, rfl, rfl⟩
  · rw [policyArguments, Form.classify_cons (by decide +kernel) command,
      Form.classify_cons (by decide +kernel) unknown, Form.classify_cons other (value _)]
    rfl
  · exact Command.ofName?_name .policy
  · rw [Form.classify_cons (by decide +kernel) switch, Form.classify_cons other (value _)]
    rfl
  · have given : PolicySource.ofValue file = .file (Path.ofText file) := by
      rw [PolicySource.ofValue, switchValue?, if_neg other]
    rw [← given]
    rfl

/-- The separator is no name of a file. -/
theorem separatorText_notMem_policyArguments {file : Text} {i : Invocation}
    (h : Invocation.ofArguments (policyArguments file) = .ok i) :
    separatorText ∉ policyArguments file := by
  intro mem
  have same : file = separatorText := by
    rw [policyArguments, List.mem_cons, List.mem_cons, List.mem_singleton] at mem
    rcases mem with same | same | same
    · exact absurd same (by decide +kernel)
    · exact absurd same (by decide +kernel)
    · exact same.symm
  have refused : Invocation.ofArguments (policyArguments separatorText) =
      .error (.misuse (.command .policy) (.expectedValue .policy)) := rfl
  rw [same, refused] at h
  cases h

/-- What the program does with a preset named behind the arguments that ask for the policy of a
file. -/
theorem outcome_append_modeArgument [CharacterNames] {files : Files} {file : Text} {path : Path}
    {mode : Text}
    (names : Invocation.ofArguments (policyArguments file) =
      .ok ⟨false, .policy (.file path) none⟩) :
    outcome files (policyArguments file ++ [modeArgument mode]) =
      servePolicy files false (.file path) (switchValue? mode) := by
  have read := ofArguments_append_modeArgument (separatorText_notMem_policyArguments names) names mode
  rw [outcome, read]
  rfl

/-- These arguments show the policy of the file. -/
theorem outcome_policyArguments [CharacterNames] {files : Files} {file : Text} {path : Path}
    (names : Invocation.ofArguments (policyArguments file) =
      .ok ⟨false, .policy (.file path) none⟩) :
    outcome files (policyArguments file) = servePolicy files false (.file path) none := by
  rw [outcome, names]
  rfl

/-- **A preset does the same by switch and in the document.** Take a document that is about flags
only, whatever it says about them, and the document that names a preset besides. Showing the policy
of the first with the preset given by a switch agrees with showing the policy of the second: both
succeed with the same output, or both are rejected, as they are whenever there is no such preset. The
exceptions are the empty name and the separator: as a switch they are no preset at all, so that the
policy of the first document is shown as it is, while the second document is rejected. -/
theorem mode_switch_agrees_with_mode_field [CharacterNames] {files : Files}
    {first second mode : Text} {path path' : Path} {members others : Members}
    (names : Invocation.ofArguments (policyArguments first) =
      .ok ⟨false, .policy (.file path) none⟩)
    (names' : Invocation.ofArguments (policyArguments second) =
      .ok ⟨false, .policy (.file path') none⟩)
    (stored : Policy.loadDocument files path = .ok (.object members))
    (document : Policy.FlagDocument members)
    (stored' : Policy.loadDocument files path' = .ok (.object others))
    (added : others.Perm ((Policy.modeField, .text mode) :: members)) :
    let given := outcome files (policyArguments first ++ [modeArgument mode])
    let written := outcome files (policyArguments second)
    (mode ≠ [] → mode ≠ separatorText → given.AgreesWith written ∧
      ((∀ preset : Preset, preset.name ≠ mode) → given.Rejected ∧ written.Rejected)) ∧
    (mode = [] ∨ mode = separatorText →
      given = outcome files (policyArguments first) ∧ written.Rejected) := by
  intro given written
  have shown' : written = servePolicy files false (.file path') none := outcome_policyArguments names'
  have shown : given = servePolicy files false (.file path) (switchValue? mode) :=
    outcome_append_modeArgument names
  have rejected (unknown : Preset.ofName? mode = none) : written.Rejected := by
    rw [shown']
    exact rejected_of_unknown_mode unknown document stored' added false
  constructor
  · intro named plain
    rw [switchValue?, if_neg plain] at shown
    have agrees : given.AgreesWith written := by
      rw [shown, shown']
      exact agreesWith_of_mode named stored document stored' added false false
    refine ⟨agrees, fun unknown => ?_⟩
    have none : Preset.ofName? mode = none := by
      refine Option.eq_none_iff_forall_ne_some.2 fun preset known => ?_
      exact unknown preset (Preset.name_of_ofName? known)
    -- They agree by success or by rejection, and the document with an unknown mode is rejected.
    rcases agrees with ⟨-, success, -⟩ | both
    · have failure := (rejected none).1
      rw [success] at failure
      cases failure
    · exact both
  · rw [outcome_policyArguments names, shown]
    rintro (rfl | rfl)
    · exact ⟨rfl, rejected (by decide +kernel)⟩
    · exact ⟨rfl, rejected (by decide +kernel)⟩

/-- A document that wants tests. -/
def testDocument : Members :=
  [(Policy.formatField, .text Policy.documentFormat),
    (Policy.versionField, .int Policy.documentVersion), (Policy.Flag.test.field, .bool true)]

section

open scoped CharacterNames.Unlisted

/-- A directory by switch and in a document that wants tests: both are shown in the same way. -/
theorem directory_switch_agrees_with_field :
    ∃ files : Files,
      (outcome files (policyArguments "flags.json" ++
        [modeArgument "filesystem-relative-only:lib"])).AgreesWith
          (outcome files (policyArguments "mode.json")) := by
  have flags : Json.AtomicMembers testDocument := by
    refine ⟨by decide +kernel, by decide +kernel, ?_⟩
    simp only [testDocument, List.forall_mem_cons]
    exact ⟨Json.atomic_text (by decide), Json.atomic_int (by decide), Json.atomic_bool true,
      List.forall_mem_nil _⟩
  have document : Policy.FlagDocument testDocument := by
    refine ⟨flags.distinct, by simp [testDocument, Bindings.get?_cons], ?_, ?_⟩
    · rw [testDocument, Bindings.get?_cons, if_neg (by decide +kernel), Bindings.get?_cons, if_pos rfl]
    · simp [testDocument, Policy.flagFields, Policy.Flag.all]
  have added : Json.AtomicMembers
      ((Policy.modeField, .text "filesystem-relative-only:lib") :: testDocument) := by
    refine ⟨by decide +kernel, by decide +kernel, List.forall_mem_cons.2 ⟨?_, flags.values⟩⟩
    exact Json.atomic_text (by decide +kernel)
  -- The files hold both documents as they are printed.
  obtain ⟨bytes, encoded⟩ := Policy.exists_encode_printed flags
  obtain ⟨bytes', encoded'⟩ := Policy.exists_encode_printed added
  let files : Files := fun path => .ok (if path = Path.ofText "mode.json" then bytes' else bytes)
  have perm := Json.order_perm Json.Layout.indented testDocument
  have perm' := Json.order_perm Json.Layout.indented
    ((Policy.modeField, .text "filesystem-relative-only:lib") :: testDocument)
  have stored : files (Path.ofText "flags.json") = .ok bytes :=
    congrArg Except.ok (if_neg (by decide +kernel))
  have stored' : files (Path.ofText "mode.json") = .ok bytes' := congrArg Except.ok (if_pos rfl)
  have names := ofArguments_policyArguments
    (by decide +kernel : ("flags.json" : Text).head? ≠ some (CodePoint.ofChar '-'))
  have names' := ofArguments_policyArguments
    (by decide +kernel : ("mode.json" : Text).head? ≠ some (CodePoint.ofChar '-'))
  have agrees := mode_switch_agrees_with_mode_field names names'
    (Policy.loadDocument_printed flags encoded stored) (document.of_perm perm)
    (Policy.loadDocument_printed added encoded' stored') (perm'.trans (perm.symm.cons _))
  exact ⟨files, (agrees.1 (by decide +kernel) (by decide +kernel)).1⟩

end

/-- The code with which a request was served, if it was. -/
def Ending.code? : Ending → Option Nat
  | .served code => some code
  | _ => none

/-- What ends with a code was served with it. -/
theorem Ending.eq_served_of_code? {ending : Ending} {code : Nat} (h : ending.code? = some code) :
    ending = .served code := by
  cases ending with
  | served other => rw [Option.some.inj h]
  | _ => cases h

/-- Two policy files, one of them with an empty name for a preset. -/
def emptyModeFiles : Files := fun path =>
  let header : Text := "\x7b\"format\": \"starpack-policy\", \"version\": 0"
  let document : Text :=
    if path = Path.ofText "mode.json" then
      Text.concat [header, ", \"resource_handling_mode\": \"\"\x7d"]
    else Text.concat [header, "\x7d"]
  .ok (document.flatMap Utf8.encodePoint)

section

open scoped CharacterNames.Unlisted

/-- An empty name is ignored as a switch and refused in a document. -/
theorem empty_mode_is_ignored :
    (outcome emptyModeFiles ["policy", "--policy", "flags.json", "--mode="]).ending =
        .served successCode ∧
      (outcome emptyModeFiles ["policy", "--policy", "mode.json"]).ending =
        .served diagnosticCode :=
  ⟨Ending.eq_served_of_code? (by decide +kernel), Ending.eq_served_of_code? (by decide +kernel)⟩

end

end Packaging.CommandLine
