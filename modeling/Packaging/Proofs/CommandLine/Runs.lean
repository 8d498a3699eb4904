import Packaging.CommandLine
import Packaging.FileSystem
import Packaging.Proofs.CommandLine.Invocations
import Packaging.Proofs.Session.Origins

/-! # Requests to run scripts
A request to run a script has three parts that can fail, one after the other: the policy is chosen,
the script is read, and the script is run. The first that fails decides how the request ends. Nothing
but a complete report is written to the output, and telling the steps changes only the error
output. -/

namespace Packaging.CommandLine

/-! ## Endings -/

/-- How the program ends if what takes its output may refuse to take a text. Where there is no output,
there is nothing to refuse. -/
def Outcome.endingOn (refusal? : Text → Option Failure) (o : Outcome) : Ending :=
  match o.output with
  | [] => o.ending
  | output =>
    match refusal? output with
    | none => o.ending
    | some failure => .escaped failure

/-- Whether what takes the output takes a text. -/
def Takes (refusal? : Text → Option Failure) (output : Text) : Prop :=
  output = [] ∨ refusal? output = none

section Endings

variable {refusal? : Text → Option Failure} {o : Outcome}

/-- Without output it does not matter what takes the output. -/
theorem Outcome.endingOn_of_nil (h : o.output = []) : o.endingOn refusal? = o.ending := by
  rw [endingOn, h]

/-- A request is served with a code exactly if it ends so and its output is taken. -/
theorem Outcome.endingOn_eq_served_iff {code : Nat} :
    o.endingOn refusal? = .served code ↔ o.ending = .served code ∧ Takes refusal? o.output := by
  rw [endingOn, Takes]
  cases o.output with
  | nil => simp
  | cons c output =>
    dsimp only
    cases refusal? (c :: output) with
    | none => simp
    | some failure => simp

end Endings

/-! ## The parts of a request -/

/-- How a failure ends a request: only a diagnostic is explained. -/
def failureEnding (failure : Failure) : Ending :=
  match failure.fault with
  | .diagnostic _ => .served diagnosticCode
  | _ => .escaped failure

/-- How a script that could not be read ends a request. -/
def scriptEnding : ScriptFault → Ending
  | .unreadable fault => if fault.isSystem then .served usageCode else .escaped fault.toFault
  | .undecodable _ => .served usageCode

/-- The session that a request to run a script leads to, or how the request ends before that. -/
def finalSession [CharacterNames] (files : Files) (script : Path) (policy : PolicySource) :
    Except Ending Session :=
  match (choosePolicy files policy).result with
  | .error failure => .error (failureEnding failure)
  | .ok p =>
    match readScript files script with
    | .error fault => .error (scriptEnding fault)
    | .ok source =>
      let run := ({ policy := p } : Session).run files source
      match run.value with
      | .error failure => .error (failureEnding failure)
      | .ok _ => .ok run.session

/-- Whether the policy of a request can be had and is this one: the default one, or that of a file. -/
inductive PolicySource.Gives (files : Files) : PolicySource → Policy → Prop
  /-- The default policy. -/
  | standard : Gives files .standard {}
  /-- The policy of a file that can be loaded. -/
  | file {path : Path} {p : Policy} (loads : Policy.load files path = .ok p) :
    Gives files (.file path) p

/-- The policy that a source gives is the one that is chosen. -/
theorem PolicySource.gives_iff {files : Files} {policy : PolicySource} {p : Policy} :
    policy.Gives files p ↔ (choosePolicy files policy).result = .ok p := by
  constructor
  · intro gives
    cases gives with
    | standard => rfl
    | file loads => exact (Policy.result_loadTraced files _).trans loads
  · intro chosen
    cases policy with
    | standard =>
      obtain rfl := Except.ok.inj chosen
      exact .standard
    | file path => exact .file ((Policy.result_loadTraced files path).symm.trans chosen)
    | missing => cases chosen

section Parts

variable {files : Files} {script : Path} {policy : PolicySource} {p : Policy} {source : Text}
  {failure : Failure}

variable [CharacterNames]

/-- Without a policy a request ends as the refusal says. -/
theorem finalSession_of_refusal (refused : (choosePolicy files policy).result = .error failure) :
    finalSession files script policy = .error (failureEnding failure) := by
  rw [finalSession, refused]

/-- Without a script a request ends as the fault of the script says. -/
theorem finalSession_of_fault {fault : ScriptFault} (gives : policy.Gives files p)
    (unread : readScript files script = .error fault) :
    finalSession files script policy = .error (scriptEnding fault) := by
  rw [finalSession, PolicySource.gives_iff.1 gives]
  dsimp only
  rw [unread]

variable (gives : policy.Gives files p) (read : readScript files script = .ok source)

include gives read

/-- A script that fails ends a request as the failure says. -/
theorem finalSession_of_failure
    (fails : (({ policy := p } : Session).run files source).value = .error failure) :
    finalSession files script policy = .error (failureEnding failure) := by
  rw [finalSession, PolicySource.gives_iff.1 gives]
  dsimp only
  rw [read]
  dsimp only
  rw [fails]

/-- A script that runs to its end leaves its session. -/
theorem finalSession_of_run (ran : (({ policy := p } : Session).run files source).value = .ok ()) :
    finalSession files script policy =
      .ok (({ policy := p } : Session).run files source).session := by
  rw [finalSession, PolicySource.gives_iff.1 gives]
  dsimp only
  rw [read]
  dsimp only
  rw [ran]

end Parts

/-- The report of a session, as JSON or as text. -/
def report (json : Bool) (s : Session) : Text := if json then jsonReport s else textReport s

/-- A failure leaves no output and ends as it says. -/
theorem failed_eq (told : Text) (failure : Failure) :
    (failed told failure).output = [] ∧ (failed told failure).ending = failureEnding failure := by
  rw [failed, failureEnding]
  cases failure.fault with
  | _ => exact ⟨rfl, rfl⟩

/-- A script that cannot be read leaves no output and ends as its fault says. -/
theorem scriptFailed_eq (told : Text) (path : Path) (fault : ScriptFault) :
    (scriptFailed told path fault).output = [] ∧
      (scriptFailed told path fault).ending = scriptEnding fault := by
  cases fault with
  | undecodable fault => exact ⟨rfl, rfl⟩
  | unreadable fault =>
    rw [scriptFailed, scriptEnding]
    split
    · exact ⟨rfl, rfl⟩
    · exact ⟨rfl, rfl⟩

/-- What is said about the program itself is never nothing. -/
theorem append_ownLine_ne_nil (told message : Text) : told ++ ownLine message ≠ [] := by
  intro none
  have empty := (List.append_eq_nil_iff.1 none).2
  exact absurd (List.append_eq_nil_iff.1 empty).1 (by decide +kernel)

/-- A failure that is served with a code is explained. -/
theorem errors_failed_ne_nil {told : Text} {failure : Failure} {code : Nat}
    (h : failureEnding failure = .served code) : (failed told failure).errors ≠ [] := by
  obtain ⟨fault, cause⟩ := failure
  cases fault with
  | diagnostic d => exact append_ownLine_ne_nil told d.human
  | _ => cases h

/-- A script that cannot be read is explained where a code is given. -/
theorem errors_scriptFailed_ne_nil {told : Text} {path : Path} {fault : ScriptFault} {code : Nat}
    (h : scriptEnding fault = .served code) : (scriptFailed told path fault).errors ≠ [] := by
  cases fault with
  | undecodable fault => exact append_ownLine_ne_nil told _
  | unreadable fault =>
    rw [scriptEnding] at h
    rw [scriptFailed]
    split at h
    next system =>
      rw [if_pos system]
      exact append_ownLine_ne_nil told _
    · cases h

/-- What a request to run a script comes to. -/
structure Serves [CharacterNames] (files : Files) (script : Path) (policy : PolicySource)
    (json verbose : Bool) (o : Outcome) : Prop where
  /-- With a final session, the output is its report and all is well. -/
  success : ∀ s, finalSession files script policy = .ok s →
    o.output = report json s ∧ o.ending = .served successCode
  /-- Without one there is no output. -/
  failure : ∀ ending, finalSession files script policy = .error ending →
    o.output = [] ∧ o.ending = ending ∧ ∀ code, ending = .served code → o.errors ≠ []
  /-- Where no steps are to be told, success is told in no way. -/
  quiet : ∀ s, finalSession files script policy = .ok s → verbose = false → o.errors = []

section Serves

variable {files : Files} {script : Path} {policy : PolicySource} {json verbose : Bool}

variable [CharacterNames]

/-- A failure serves a request that ends in it. -/
theorem Serves.of_failed {told : Text} {failure : Failure}
    (final : finalSession files script policy = .error (failureEnding failure)) :
    Serves files script policy json verbose (failed told failure) where
  success s h := by cases final.symm.trans h
  failure ending h := by
    obtain rfl := Except.error.inj (final.symm.trans h)
    obtain ⟨output, ending⟩ := failed_eq told failure
    exact ⟨output, ending, fun code => errors_failed_ne_nil⟩
  quiet s h := by cases final.symm.trans h

/-- A script that cannot be read serves a request that ends in that. -/
theorem Serves.of_scriptFailed {told : Text} {fault : ScriptFault}
    (final : finalSession files script policy = .error (scriptEnding fault)) :
    Serves files script policy json verbose (scriptFailed told script fault) where
  success s h := by cases final.symm.trans h
  failure ending h := by
    obtain rfl := Except.error.inj (final.symm.trans h)
    obtain ⟨output, ending⟩ := scriptFailed_eq told script fault
    exact ⟨output, ending, fun code => errors_scriptFailed_ne_nil⟩
  quiet s h := by cases final.symm.trans h

/-- **A request to run a script comes to what its parts come to.** -/
theorem serves_serveRun (files : Files) (verbose : Bool) (script : Path) (policy : PolicySource)
    (json : Bool) :
    Serves files script policy json verbose (serveRun files verbose script policy json) := by
  rw [serveRun]
  cases choice : (choosePolicy files policy).result with
  | error failure => exact .of_failed (finalSession_of_refusal choice)
  | ok p =>
    have gives := PolicySource.gives_iff.2 choice
    dsimp only
    cases read : readScript files script with
    | error fault => exact .of_scriptFailed (finalSession_of_fault gives read)
    | ok source =>
      dsimp only
      rw [runScript, Effect.failure]
      cases ran : (({ policy := p } : Session).run files source).value with
      | error failure => exact .of_failed (finalSession_of_failure gives read ran)
      | ok _ =>
        have final := finalSession_of_run gives read ran
        refine ⟨fun s h => ?_, fun ending h => ?_, fun s _ quiet => ?_⟩
        · obtain rfl := Except.ok.inj (final.symm.trans h)
          exact ⟨rfl, rfl⟩
        · cases final.symm.trans h
        · -- Nothing was told when the policy was chosen, and nothing by the run.
          rw [quiet]
          rfl

end Serves

/-! ## Where a request ends -/

/-- Whether a path leads to a script, of which this is the text with its line endings unified. -/
def HoldsScript (files : Files) (path : Path) (source : Text) : Prop :=
  ∃ bytes t, files path = .ok bytes ∧ Utf8.decode bytes = .ok t ∧ source = t.unifyLineEndings

/-- Whether the file system reports that the file of a path cannot be read, or the file is not
UTF-8. -/
def LacksScript (files : Files) (path : Path) : Prop :=
  (∃ fault, files path = .error fault ∧ fault.isSystem = true) ∨
    ∃ bytes fault, files path = .ok bytes ∧ Utf8.decode bytes = .error fault

section Endings

variable {files : Files} {script path : Path} {policy : PolicySource} {p : Policy} {source : Text}

/-- How a request comes to its end: at a failure, at its script, or with a session. -/
theorem finalSession_cases [CharacterNames] (files : Files) (script : Path)
    (policy : PolicySource) :
    (∃ failure, finalSession files script policy = .error (failureEnding failure)) ∨
      (∃ fault, finalSession files script policy = .error (scriptEnding fault)) ∨
      ∃ s, finalSession files script policy = .ok s := by
  cases choice : (choosePolicy files policy).result with
  | error failure => exact Or.inl ⟨failure, finalSession_of_refusal choice⟩
  | ok p =>
    have gives := PolicySource.gives_iff.2 choice
    cases read : readScript files script with
    | error fault => exact Or.inr (Or.inl ⟨fault, finalSession_of_fault gives read⟩)
    | ok source =>
      cases ran : (({ policy := p } : Session).run files source).value with
      | error failure => exact Or.inl ⟨failure, finalSession_of_failure gives read ran⟩
      | ok _ => exact Or.inr (Or.inr ⟨_, finalSession_of_run gives read ran⟩)

/-- Without a final session a request does not succeed. -/
theorem finalSession_ne_success [CharacterNames] :
    finalSession files script policy ≠ .error (.served successCode) := by
  intro final
  rcases finalSession_cases files script policy with ⟨failure, ends⟩ | ⟨fault, ends⟩ | ⟨s, ends⟩
  · have same := Except.error.inj (final.symm.trans ends)
    rw [failureEnding] at same
    split at same <;> cases same
  · have same := Except.error.inj (final.symm.trans ends)
    cases fault with
    | undecodable fault => cases same
    | unreadable fault =>
      rw [scriptEnding] at same
      split at same <;> cases same
  · cases final.symm.trans ends

/-- The script that a file holds is read. -/
theorem readScript_of_holdsScript (h : HoldsScript files script source) :
    readScript files script = .ok source := by
  obtain ⟨bytes, t, found, decoded, rfl⟩ := h
  rw [readScript, found]
  dsimp only
  rw [decoded]

/-- A path leads to one script at most. -/
theorem HoldsScript.unique {other : Text} (h : HoldsScript files script source)
    (h' : HoldsScript files script other) : source = other :=
  Except.ok.inj ((readScript_of_holdsScript h).symm.trans (readScript_of_holdsScript h'))

/-- A script is there, or it is not as far as the file system or its content goes, or it cannot even
be looked for. -/
theorem script_cases (files : Files) (script : Path) :
    (∃ source, HoldsScript files script source) ∨
      (LacksScript files script ∧ ∃ fault, readScript files script = .error fault ∧
        scriptEnding fault = .served usageCode) ∨
      ∃ fault, files script = .error fault ∧ fault.isSystem = false ∧
        readScript files script = .error (.unreadable fault) := by
  cases found : files script with
  | error fault =>
    have read : readScript files script = .error (.unreadable fault) := by rw [readScript, found]
    cases system : fault.isSystem with
    | true =>
      refine Or.inr (Or.inl ⟨Or.inl ⟨fault, found, system⟩, _, read, ?_⟩)
      rw [scriptEnding, if_pos system]
    | false => exact Or.inr (Or.inr ⟨fault, rfl, system, read⟩)
  | ok bytes =>
    cases decoded : Utf8.decode bytes with
    | error fault =>
      refine Or.inr (Or.inl ⟨Or.inr ⟨bytes, fault, found, decoded⟩, .undecodable fault, ?_, rfl⟩)
      rw [readScript, found]
      dsimp only
      rw [decoded]
    | ok t => exact Or.inl ⟨_, bytes, t, found, decoded, rfl⟩

/-- Where there is no script, none is held. -/
theorem LacksScript.not_holdsScript (h : LacksScript files script) :
    ¬ HoldsScript files script source := by
  rintro ⟨bytes, t, found, decoded, -⟩
  rcases h with ⟨fault, missing, -⟩ | ⟨bytes', fault, found', undecoded⟩
  · cases found.symm.trans missing
  · obtain rfl := Except.ok.inj (found.symm.trans found')
    cases decoded.symm.trans undecoded

variable [CharacterNames]

/-- A request that ends with a session has had its policy. -/
theorem exists_gives_of_finalSession {s : Session}
    (final : finalSession files script policy = .ok s) : ∃ p, policy.Gives files p := by
  cases choice : (choosePolicy files policy).result with
  | error failure => cases final.symm.trans (finalSession_of_refusal choice)
  | ok p => exact ⟨p, PolicySource.gives_iff.2 choice⟩

/-- A policy file that is refused with a diagnostic ends the request, whatever the script is. -/
theorem finalSession_of_refused {d : Diagnostic} {cause : Option Fault}
    (refused : Policy.load files path = .error ⟨.diagnostic d, cause⟩) :
    finalSession files script (.file path) = .error (.served diagnosticCode) := by
  have choice : (choosePolicy files (.file path)).result = .error ⟨.diagnostic d, cause⟩ :=
    (Policy.result_loadTraced files path).trans refused
  exact finalSession_of_refusal choice

/-- A request ends with a session if its script runs to the end. -/
theorem finalSession_eq_ok_iff (gives : policy.Gives files p) {s : Session} :
    finalSession files script policy = .ok s ↔
      ∃ source, HoldsScript files script source ∧
        (({ policy := p } : Session).run files source).value = .ok () ∧
        (({ policy := p } : Session).run files source).session = s := by
  constructor
  · intro h
    rcases script_cases files script with ⟨source, holds⟩ | ⟨-, fault, unread, -⟩ | ⟨fault, -, -, unread⟩
    · have read := readScript_of_holdsScript holds
      cases ran : (({ policy := p } : Session).run files source).value with
      | error failure => cases h.symm.trans (finalSession_of_failure gives read ran)
      | ok _ =>
        have same := (finalSession_of_run gives read ran).symm.trans h
        exact ⟨source, holds, ran, Except.ok.inj same⟩
    · cases h.symm.trans (finalSession_of_fault gives unread)
    · cases h.symm.trans (finalSession_of_fault gives unread)
  · rintro ⟨source, holds, ran, rfl⟩
    exact finalSession_of_run gives (readScript_of_holdsScript holds) ran

/-- A request ends with a code before there is a session if the script is not there, or if it fails
with a diagnostic of its own. -/
theorem finalSession_eq_served_iff (gives : policy.Gives files p) {code : Nat} :
    finalSession files script policy = .error (.served code) ↔
      code = usageCode ∧ LacksScript files script ∨
        code = diagnosticCode ∧ ∃ source failure, HoldsScript files script source ∧
          (({ policy := p } : Session).run files source).value = .error failure ∧
          failure.OfScript := by
  constructor
  · intro h
    rcases script_cases files script with
      ⟨source, holds⟩ | ⟨lacks, fault, unread, ends⟩ | ⟨fault, -, system, unread⟩
    · have read := readScript_of_holdsScript holds
      cases ran : (({ policy := p } : Session).run files source).value with
      | ok _ => cases h.symm.trans (finalSession_of_run gives read ran)
      | error failure =>
        have ends := Except.error.inj ((finalSession_of_failure gives read ran).symm.trans h)
        -- What a script passes on is never served.
        rcases endsScript_of_run ran with ⟨d, line, column, hfault, here⟩ | passes
        · rw [failureEnding, hfault] at ends
          exact Or.inr ⟨(Ending.served.inj ends).symm, source, failure, holds, ran, d, line, column,
            hfault, here⟩
        · obtain ⟨fault, cause⟩ := failure
          cases fault with
          | diagnostic d => exact passes.elim
          | _ => cases ends
    · have same := Except.error.inj ((finalSession_of_fault gives unread).symm.trans h)
      exact Or.inl ⟨(Ending.served.inj (ends.symm.trans same)).symm, lacks⟩
    · have ends := Except.error.inj ((finalSession_of_fault gives unread).symm.trans h)
      rw [scriptEnding, system] at ends
      cases ends
  · rintro (⟨rfl, lacks⟩ | ⟨rfl, source, failure, holds, ran, d, line, column, hfault, -⟩)
    · rcases script_cases files script with
        ⟨source, holds⟩ | ⟨-, fault, unread, ends⟩ | ⟨fault, found, system, -⟩
      · exact absurd holds lacks.not_holdsScript
      · rw [finalSession_of_fault gives unread, ends]
      · rcases lacks with ⟨fault', found', system'⟩ | ⟨bytes, -, found', -⟩
        · obtain rfl := Except.error.inj (found.symm.trans found')
          cases system.symm.trans system'
        · cases found.symm.trans found'
    · rw [finalSession_of_failure gives (readScript_of_holdsScript holds) ran, failureEnding, hfault]

/-- A path that the file system cannot be asked about lets its fault escape. -/
theorem finalSession_of_strange_path (gives : policy.Gives files p) {fault : FileFault}
    (found : files script = .error fault) (system : fault.isSystem = false) :
    finalSession files script policy = .error (.escaped fault.toFault) := by
  have unread : readScript files script = .error (.unreadable fault) := by rw [readScript, found]
  rw [finalSession_of_fault gives unread, scriptEnding, system]
  rfl

end Endings

/-- A request to run a script is served with a code exactly if its parts come to that. -/
theorem Serves.endingOn_eq_served_iff [CharacterNames] {files : Files} {script : Path}
    {policy : PolicySource} {json verbose : Bool} {o : Outcome}
    (serves : Serves files script policy json verbose o) {refusal? : Text → Option Failure}
    {code : Nat} :
    o.endingOn refusal? = .served code ↔
      (code = successCode ∧ ∃ s, finalSession files script policy = .ok s ∧
        Takes refusal? (report json s)) ∨
      finalSession files script policy = .error (.served code) := by
  -- Only a run that reached its end writes a report, so only there can the output be refused.
  cases final : finalSession files script policy with
  | ok s =>
    obtain ⟨output, ending⟩ := serves.success s final
    rw [Outcome.endingOn_eq_served_iff, output, ending]
    constructor
    · rintro ⟨same, takes⟩
      exact Or.inl ⟨(Ending.served.inj same).symm, s, rfl, takes⟩
    · rintro (⟨rfl, t, same, takes⟩ | none)
      · obtain rfl := Except.ok.inj same
        exact ⟨rfl, takes⟩
      · cases none
  | error ending =>
    obtain ⟨output, rfl, -⟩ := serves.failure ending final
    rw [Outcome.endingOn_of_nil output]
    constructor
    · intro same
      exact Or.inr (congrArg Except.error same)
    · rintro (⟨-, s, none, -⟩ | same)
      · cases none
      · exact Except.error.inj same

/-! ## Codes -/

section Codes

variable [CharacterNames] {files : Files} {script : Path} {policy : PolicySource} {p : Policy}
  {json verbose : Bool} {o : Outcome} (serves : Serves files script policy json verbose o)
  {refusal? : Text → Option Failure}

include serves

section

variable (gives : policy.Gives files p)

include gives

/-- The code of unusable arguments is given exactly where there is no script. -/
theorem Serves.usage_iff : o.endingOn refusal? = .served usageCode ↔ LacksScript files script := by
  rw [serves.endingOn_eq_served_iff, finalSession_eq_served_iff gives]
  simp [usageCode, successCode, diagnosticCode]

/-- The code of a failure is given exactly if the script fails with a diagnostic of its own. -/
theorem Serves.diagnostic_iff :
    o.endingOn refusal? = .served diagnosticCode ↔
      ∃ source failure, HoldsScript files script source ∧
        (({ policy := p } : Session).run files source).value = .error failure ∧
        failure.OfScript := by
  rw [serves.endingOn_eq_served_iff, finalSession_eq_served_iff gives]
  simp [usageCode, successCode, diagnosticCode]

/-- The code of success is given exactly if the script runs to its end and its report is taken. -/
theorem Serves.success_iff :
    o.endingOn refusal? = .served successCode ↔
      ∃ source, HoldsScript files script source ∧
        (({ policy := p } : Session).run files source).value = .ok () ∧
        Takes refusal? (report json (({ policy := p } : Session).run files source).session) := by
  rw [serves.endingOn_eq_served_iff]
  constructor
  · rintro (⟨-, _, final, takes⟩ | final)
    · obtain ⟨source, holds, ran, rfl⟩ := (finalSession_eq_ok_iff gives).1 final
      exact ⟨source, holds, ran, takes⟩
    · exact absurd final finalSession_ne_success
  · rintro ⟨source, holds, ran, takes⟩
    exact Or.inl ⟨rfl, _, (finalSession_eq_ok_iff gives).2 ⟨source, holds, ran, rfl⟩, takes⟩

/-- A name that the file system cannot be asked about lets its fault escape. -/
theorem Serves.escaped_of_strange_path {fault : FileFault} (found : files script = .error fault)
    (system : fault.isSystem = false) : o.endingOn refusal? = .escaped fault.toFault := by
  obtain ⟨output, ending, -⟩ := serves.failure _ (finalSession_of_strange_path gives found system)
  rw [Outcome.endingOn_of_nil output, ending]

end

/-- Without success there is no output, and something is said about that. -/
theorem Serves.silent {code : Nat} (ends : o.endingOn refusal? = .served code)
    (fails : code ≠ successCode) : o.output = [] ∧ o.errors ≠ [] := by
  rcases serves.endingOn_eq_served_iff.1 ends with ⟨rfl, -⟩ | final
  · exact absurd rfl fails
  · obtain ⟨output, -, errors⟩ := serves.failure _ final
    exact ⟨output, errors code rfl⟩

/-- Success is told in no way, unless the steps are. -/
theorem Serves.errors_eq_nil (ends : o.endingOn refusal? = .served successCode)
    (quiet : verbose = false) : o.errors = [] := by
  rcases serves.endingOn_eq_served_iff.1 ends with ⟨-, s, final, -⟩ | final
  · exact serves.quiet s final quiet
  · exact absurd final finalSession_ne_success

end Codes

/-- What a request comes to does not depend on whether its steps are told. -/
theorem Serves.endingOn_eq [CharacterNames] {files : Files} {script : Path} {policy : PolicySource}
    {json verbose verbose' : Bool} {o o' : Outcome}
    (serves : Serves files script policy json verbose o)
    (serves' : Serves files script policy json verbose' o') (refusal? : Text → Option Failure) :
    o'.output = o.output ∧ o'.endingOn refusal? = o.endingOn refusal? := by
  have same : o'.output = o.output ∧ o'.ending = o.ending := by
    cases final : finalSession files script policy with
    | ok s =>
      obtain ⟨output, ending⟩ := serves.success s final
      obtain ⟨output', ending'⟩ := serves'.success s final
      exact ⟨output'.trans output.symm, ending'.trans ending.symm⟩
    | error ending =>
      obtain ⟨output, here, -⟩ := serves.failure ending final
      obtain ⟨output', there, -⟩ := serves'.failure ending final
      exact ⟨output'.trans output.symm, there.trans here.symm⟩
  refine ⟨same.1, ?_⟩
  rw [Outcome.endingOn, Outcome.endingOn, same.1, same.2]

/-- Arguments that ask for a run are served as a run. -/
theorem serves_outcome [CharacterNames] {files : Files} {arguments : List Text}
    {verbose json : Bool} {script : Path} {policy : PolicySource}
    (reads : Invocation.ofArguments arguments = .ok ⟨verbose, .run script policy json⟩) :
    Serves files script policy json verbose (outcome files arguments) := by
  rw [outcome, reads]
  exact serves_serveRun files verbose script policy json

/-- **What becomes of a request to run a script,** whatever the files are and whatever takes the
output.
- If its policy is that of a file and is refused with a diagnostic, the code says so, whatever the
  script is.
- Otherwise, with the policy at hand, there are codes for a script that is not there or is not UTF-8,
  for one that fails with a diagnostic of its own, and for one that runs to the end and whose report is
  taken. Each is given in exactly these cases. A name that the file system cannot even be asked about
  lets its fault escape.
- With any code but that of success there is no output, and something on the error output. With that
  of success nothing is on the error output unless the steps are to be told.
- A switch in front that wants the steps to be told changes neither the output nor the ending. -/
theorem run_outcome_law [CharacterNames] {files : Files} {arguments : List Text}
    {verbose json : Bool} {script : Path} {policy : PolicySource}
    (reads : Invocation.ofArguments arguments = .ok ⟨verbose, .run script policy json⟩)
    (refusal? : Text → Option Failure) :
    let o := outcome files arguments
    let loud := outcome files ("-v" :: arguments)
    (∀ path d cause, policy = .file path → Policy.load files path = .error ⟨.diagnostic d, cause⟩ →
      o.endingOn refusal? = .served diagnosticCode) ∧
    (∀ p, policy.Gives files p →
      let run (source : Text) := ({ policy := p } : Session).run files source
      (o.endingOn refusal? = .served usageCode ↔ LacksScript files script) ∧
      (o.endingOn refusal? = .served diagnosticCode ↔
        ∃ source failure, HoldsScript files script source ∧ (run source).value = .error failure ∧
          failure.OfScript) ∧
      (o.endingOn refusal? = .served successCode ↔
        ∃ source, HoldsScript files script source ∧ (run source).value = .ok () ∧
          Takes refusal? (report json (run source).session)) ∧
      ∀ fault, files script = .error fault → fault.isSystem = false →
        o.endingOn refusal? = .escaped fault.toFault) ∧
    (∀ code, o.endingOn refusal? = .served code → code ≠ successCode →
      o.output = [] ∧ o.errors ≠ []) ∧
    (o.endingOn refusal? = .served successCode → verbose = false → o.errors = []) ∧
    loud.output = o.output ∧ loud.endingOn refusal? = o.endingOn refusal? := by
  intro o loud
  have serves : Serves files script policy json verbose o := serves_outcome reads
  -- The switch changes nothing but how much is told.
  have reads' : Invocation.ofArguments ("-v" :: arguments) = .ok ⟨true, .run script policy json⟩ := by
    rw [ofArguments_cons_verbose, reads]
    rfl
  refine ⟨?_, fun p gives => ?_, fun code => serves.silent, serves.errors_eq_nil,
    serves.endingOn_eq (serves_outcome reads') refusal?⟩
  · rintro path d cause rfl refused
    exact serves.endingOn_eq_served_iff.2 (Or.inr (finalSession_of_refused refused))
  · exact ⟨serves.usage_iff gives, serves.diagnostic_iff gives, serves.success_iff gives,
      fun fault => serves.escaped_of_strange_path gives⟩

section

open scoped CharacterNames.Unlisted

/-- A script that makes a module runs to the end. -/
theorem served_module_script :
    let source : Text := "m = make_source_module('a', 'b')"
    (outcome (fun _ => .ok (source.flatMap Utf8.encodePoint)) ["run", "s"]).endingOn
      (fun _ => none) = .served successCode := by
  intro source
  have reads : Invocation.ofArguments ["run", "s"] =
      .ok ⟨false, .run (Path.ofText "s") .standard false⟩ := rfl
  obtain ⟨-, served, -⟩ := run_outcome_law reads (fun _ => none)
  have decoded : Utf8.decode (source.flatMap Utf8.encodePoint) = .ok source := by decide +kernel
  exact (served {} .standard).2.2.1.2 ⟨source, ⟨_, source, rfl, decoded, by decide +kernel⟩,
    Effect.value_eq_ok_of_failure (by decide +kernel), Or.inr rfl⟩

end

section

open scoped CharacterNames.Unlisted

/-- A name with a null character names no script that could be read, and yet the request is not
answered with the code for that. -/
theorem null_in_script_name_escapes :
    FileSystem.empty.read (Path.ofText "a\x00b") = .error .nullInPath ∧
      (outcome FileSystem.empty.read ["run", "a\x00b"]).ending =
        .escaped FileFault.nullInPath.toFault := by
  have reads : Invocation.ofArguments ["run", "a\x00b"] =
      .ok ⟨false, .run (Path.ofText "a\x00b") .standard false⟩ := rfl
  have found : FileSystem.empty.read (Path.ofText "a\x00b") = .error .nullInPath := by
    decide +kernel
  have final := finalSession_of_strange_path .standard found rfl
  exact ⟨found, ((serves_outcome reads).failure _ final).2.1⟩

end

end Packaging.CommandLine
