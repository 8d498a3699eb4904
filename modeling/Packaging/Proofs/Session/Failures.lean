import Packaging.Proofs.Script.Violations
import Packaging.Proofs.Session.Constructors
import Packaging.Proofs.Session.Reachable
import Packaging.Proofs.Session.Sequels

/-! # How scripts fail
Whatever goes wrong in a script is meant to be reported as one of the script. In a session whose
policy has explicit places only, and whose wrappers were all made by scripts, this is so but for two
things that nothing catches: a numeral with too many digits, and a text without an encoding that is
given to a constructor as a content. -/

namespace Packaging

open Packaging.Action
open Script (Expr Statement)

/-! ## Failures of scripts -/

/-- Whether a failure is a diagnostic of a script with one of some reason codes. -/
def Failure.IsScript (codes : List Text) (failure : Failure) : Prop :=
  ∃ d line column, failure.fault = .diagnostic d ∧ d.kind = .script line column ∧
    d.reasonCode ∈ codes

/-- The reason codes of statements that fail. -/
def statementCodes : List Text := ["script", "script-call", "script-name"]

/-- Whether a fault is one that statements report as one of the script: a diagnostic, which is of a
script already only if a name is unknown, or a value of the wrong type. -/
def Fault.Reported : Fault → Prop
  | .diagnostic d => (∀ line column, d.kind ≠ .script line column) ∨
      ∃ line column, d.kind = .script line column ∧ d.reasonCode = "script-name"
  | .wrongType _ => True
  | _ => False

/-- A diagnostic that does not come from a script is reported as one of a script. -/
theorem Fault.Reported.of_diagnostic {d : Diagnostic}
    (h : ∀ line column, d.kind ≠ .script line column) : (Fault.diagnostic d).Reported :=
  Or.inl h

/-- What statements report is reported as one of the script. -/
theorem Fault.Reported.isScript {failure : Failure} (h : failure.fault.Reported) (label : Text)
    (spot : Spot) : (failure.inScript label spot).IsScript statementCodes := by
  obtain ⟨fault, cause⟩ := failure
  cases fault with
  | diagnostic d =>
    obtain ⟨kind, reasonCode, message, dlabel, typeName, attrName⟩ := d
    rcases h with other | ⟨line, column, rfl, rfl⟩
    · cases kind with
      | script line column => exact absurd rfl (other line column)
      | _ => exact ⟨_, _, _, rfl, rfl, by simp [statementCodes]⟩
    · exact ⟨_, line, column, rfl, rfl, by simp [statementCodes]⟩
  | wrongType message => exact ⟨_, _, _, rfl, rfl, by simp [statementCodes]⟩
  | _ => exact h.elim

/-- A text without an encoding is no failure of a script, whatever is said about it. -/
theorem Failure.not_isScript_encoding (codes : List Text) (fault : Utf8.EncodeFault) :
    ¬ Failure.IsScript codes (Fault.encoding fault) := by
  rintro ⟨_, _, _, h, -⟩
  cases h

/-! ## Attributes -/

namespace Wrapper

/-- Reading a source whose contents are at hand fails in reported ways only. -/
theorem reported_readSource {m : ModuleSource} {content : Utf8.Bytes}
    (held : m.source = .bytes content) (files : Files) :
    (readSource m files).ErrsIn fun failure => failure.fault.Reported := by
  rw [readSource, held, FileData.resolve]
  dsimp only
  split
  · exact Except.errsIn_error (.of_diagnostic (by rintro line column ⟨⟩))
  · exact Except.errsIn_ok _ _

/-- A wrapper whose content is at hand refuses to be read only with a diagnostic. -/
theorem reported_get {w : Wrapper} (held : w.record.AtHand) (files : Files) (attr : Text) :
    (w.get files attr).ErrsIn fun failure => failure.fault.Reported := by
  refine errsIn_get (fun m hm => ?_) (fun d other => .of_diagnostic other) attr
  obtain ⟨content, hcontent⟩ := held m hm
  exact reported_readSource hcontent files

/-- A wrapper refuses to be written only with a diagnostic. -/
theorem reported_set (w : Wrapper) (attr : Text) (new : Value) :
    (w.set attr new).ErrsIn fun failure => failure.fault.Reported := by
  rw [set]
  split
  · next known =>
    obtain ⟨has, isAttribute⟩ := Bool.and_eq_true_iff.1 known
    obtain ⟨a, ha⟩ := Option.isSome_iff_exists.1 isAttribute
    have place : w.hasPlace = true := by simp [hasPlace, has]
    rw [setCollection, ha]
    dsimp only
    split
    · rw [if_pos place]
      exact Except.errsIn_error (.of_diagnostic (by rintro line column ⟨⟩))
    · next c _ =>
      split
      · exact Except.errsIn_ok _ _
      · next d refused =>
        exact Except.errsIn_error
          (.of_diagnostic fun line column =>
            Attribute.lineless_write w.typeName c a new d refused d line column rfl)
  · exact Except.errsIn_error (.of_diagnostic (by rintro line column ⟨⟩))

end Wrapper

/-! ## Sessions of scripts -/

/-- A session whose policy has explicit places only and whose wrappers have their contents at
hand. -/
structure Session.Ordinary (s : Session) : Prop where
  /-- The policy has explicit places only. -/
  places : s.policy.Places
  /-- The wrappers have their contents at hand. -/
  contents : ∀ w ∈ s.store.wrappers, w.record.AtHand

/-- A session that is ordinary if another one is. -/
def Session.KeepsOrdinary (s t : Session) : Prop := s.Ordinary → t.Ordinary

instance : IsPreorder Session Session.KeepsOrdinary where
  refl _ := id
  trans _ _ _ first second := second ∘ first

/-- In an ordinary session every record gets its wrapper, and the session stays ordinary. -/
theorem makeWrapper_of_ordinary {s : Session} (ordinary : s.Ordinary) {record : Record}
    (held : record.AtHand) :
    (makeWrapper record s).session.Ordinary ∧
      ∃ value, (makeWrapper record s).value = .ok value := by
  obtain ⟨w, adapted, hrecord⟩ := ordinary.places.exists_adapt record
  obtain ⟨hsession, hvalue⟩ := makeWrapper_of_ok adapted
  rw [hsession, hvalue]
  refine ⟨⟨ordinary.places, ?_⟩, _, rfl⟩
  intro v hv
  rcases List.mem_append.1 hv with old | new
  · exact ordinary.contents v old
  · rw [List.mem_singleton.1 new, hrecord]
    exact held

/-- Calls keep a session ordinary. -/
theorem keepsOrdinary_call : CallsWithin Session.KeepsOrdinary := by
  intro k positional named s ordinary
  rw [Kind.call]
  cases made : (k.bindCall positional named).bind k.construct with
  | error fault => exact ordinary
  | ok record =>
    obtain ⟨arguments, -, hrecord⟩ := Except.bind_eq_ok_iff.1 made
    exact (makeWrapper_of_ordinary ordinary (Kind.atHand_of_construct hrecord)).1

/-- Evaluating an expression keeps a session ordinary. -/
theorem keepsOrdinary_evaluate (files : Files) (e : Expr) :
    (evaluate files e).Within Session.KeepsOrdinary :=
  within_evaluate keepsOrdinary_call files e

/-- Performing a statement keeps a session ordinary. -/
theorem keepsOrdinary_perform (files : Files) (statement : Statement) :
    (Session.perform files statement).Within Session.KeepsOrdinary := by
  apply within_perform keepsOrdinary_call
  · intro target value spot
    exact (keepsOrdinary_evaluate files value).bind fun _ _ ordinary =>
      ⟨ordinary.places, ordinary.contents⟩
  · intro value attr new s ordinary
    rcases writeAttribute_cases value attr new s with
      ⟨failure, refused⟩ | ⟨handle, w, w', -, found, hset, written⟩
    · rw [refused]
      exact ordinary
    · rw [written]
      refine ⟨ordinary.places, ?_⟩
      intro v hv
      rcases List.mem_or_eq_of_mem_set hv with old | rfl
      · exact ordinary.contents v old
      · obtain ⟨-, a, c, c', -, -, -, rfl⟩ := Wrapper.set_eq_ok_iff.1 hset
        exact ordinary.contents w (List.mem_of_getElem? found)

/-- Whether a step runs a script, evaluates an expression, or binds a name to plain data. -/
def Session.Step.IsPlain : Session.Step → Prop
  | .run _ _ | .eval _ _ | .bind _ _ => True
  | _ => False

/-- Plain steps lead to ordinary sessions. -/
theorem Session.ordinary_reached [CharacterNames] {p : Policy} (places : p.Places)
    {steps : List Session.Step} (plain : ∀ step ∈ steps, step.IsPlain) :
    (Session.reached p steps).Ordinary := by
  have keep (s : Session) (ordinary : s.Ordinary) : (steps.foldl Session.after s).Ordinary := by
    induction steps generalizing s with
    | nil => exact ordinary
    | cons step steps ih =>
      refine ih (fun other h => plain other (List.mem_cons_of_mem _ h)) _ ?_
      cases step with
      | run files source => exact within_run (keepsOrdinary_perform files) s source ordinary
      | eval files source => exact within_eval keepsOrdinary_call files s source ordinary
      | bind name data => exact ⟨ordinary.places, ordinary.contents⟩
      | setMode mode => exact (plain _ List.mem_cons_self).elim
      | bindResource name resource => exact (plain _ List.mem_cons_self).elim
      | dropContext name => exact (plain _ List.mem_cons_self).elim
  exact keep _ ⟨places, fun w h => absurd h List.not_mem_nil⟩

/-! ## Texts without an encoding -/

mutual

/-- The evaluation of an expression from a session comes to a call that is given a text without an
encoding as a content. -/
inductive MeetsUnencodable (files : Files) (fault : Utf8.EncodeFault) : Session → Expr → Prop
  /-- In the base of an attribute. -/
  | base {s : Session} {base : Expr} {attr : Text} {spot : Spot}
      (inside : MeetsUnencodable files fault s base) :
      MeetsUnencodable files fault s (.member base attr spot)
  /-- In an argument without a name. -/
  | positional {s : Session} {func : Text} {k : Kind} {args : List Expr}
      {keywords : List (Text × Expr)} {spot : Spot} (known : Kind.ofConstructorName? func = some k)
      (inside : MeetsUnencodableAll files fault s args) :
      MeetsUnencodable files fault s (.call func args keywords spot)
  /-- In an argument with a name, those without a name having values. -/
  | named {s : Session} {func : Text} {k : Kind} {args : List Expr}
      {keywords : List (Text × Expr)} {spot : Spot} {positional : List Value}
      (known : Kind.ofConstructorName? func = some k)
      (before : (evaluateAll files args s).value = .ok positional)
      (inside : MeetsUnencodableNamed files fault (evaluateAll files args s).session keywords) :
      MeetsUnencodable files fault s (.call func args keywords spot)
  /-- In the call itself, all arguments having values. -/
  | call {s : Session} {func : Text} {k : Kind} {args : List Expr}
      {keywords : List (Text × Expr)} {spot : Spot} {positional : List Value}
      {named : Bindings Value} {arguments : Bindings Value}
      (known : Kind.ofConstructorName? func = some k)
      (before : (evaluateAll files args s).value = .ok positional)
      (others : (evaluateNamed files keywords (evaluateAll files args s).session).value = .ok named)
      (bound : k.bindCall positional named = .ok arguments)
      (unencodable : k.Unencodable arguments fault) :
      MeetsUnencodable files fault s (.call func args keywords spot)

/-- The evaluation of some expressions one after the other comes to such a call. -/
inductive MeetsUnencodableAll (files : Files) (fault : Utf8.EncodeFault) :
    Session → List Expr → Prop
  /-- In the first. -/
  | first {s : Session} {e : Expr} {es : List Expr} (inside : MeetsUnencodable files fault s e) :
      MeetsUnencodableAll files fault s (e :: es)
  /-- In one after the first, which has a value. -/
  | rest {s : Session} {e : Expr} {es : List Expr} {value : Value}
      (before : (evaluate files e s).value = .ok value)
      (inside : MeetsUnencodableAll files fault (evaluate files e s).session es) :
      MeetsUnencodableAll files fault s (e :: es)

/-- The evaluation of some named expressions one after the other comes to such a call. -/
inductive MeetsUnencodableNamed (files : Files) (fault : Utf8.EncodeFault) :
    Session → List (Text × Expr) → Prop
  /-- In the first. -/
  | first {s : Session} {name : Text} {e : Expr} {es : List (Text × Expr)}
      (inside : MeetsUnencodable files fault s e) :
      MeetsUnencodableNamed files fault s ((name, e) :: es)
  /-- In one after the first, which has a value. -/
  | rest {s : Session} {name : Text} {e : Expr} {es : List (Text × Expr)} {value : Value}
      (before : (evaluate files e s).value = .ok value)
      (inside : MeetsUnencodableNamed files fault (evaluate files e s).session es) :
      MeetsUnencodableNamed files fault s ((name, e) :: es)

end

mutual

/-- Where such a call is come to, the evaluation fails, for that text has no encoding. -/
theorem value_of_meetsUnencodable {files : Files} {fault : Utf8.EncodeFault} {s : Session}
    (e : Expr) (h : MeetsUnencodable files fault s e) :
    (evaluate files e s).value = .error (Fault.encoding fault) := by
  cases e with
  | literal value spot => cases h
  | name ident spot => cases h
  | member base attr spot =>
    obtain ⟨inside⟩ := h
    rw [evaluate, bind_of_error (value_of_meetsUnencodable base inside)]
  | call func args keywords spot =>
    cases h with
    | positional known inside =>
      rw [evaluate, known]
      dsimp only
      rw [bind_of_error (value_of_meetsUnencodableAll args inside)]
    | named known before inside =>
      rw [evaluate, known]
      dsimp only
      rw [value_bind_of_ok before, bind_of_error (value_of_meetsUnencodableNamed keywords inside)]
    | call known before others bound unencodable =>
      rw [evaluate, known]
      dsimp only
      rw [value_bind_of_ok before, value_bind_of_ok others, Kind.call, bound]
      dsimp only [Except.bind]
      rw [Kind.construct_of_unencodable unencodable]
      rfl
termination_by structural e

/-- Expressions that come to a text without an encoding fail for it. -/
theorem value_of_meetsUnencodableAll {files : Files} {fault : Utf8.EncodeFault} {s : Session}
    (es : List Expr) (h : MeetsUnencodableAll files fault s es) :
    (evaluateAll files es s).value = .error (Fault.encoding fault) := by
  cases es with
  | nil => cases h
  | cons e es =>
    cases h with
    | first inside => rw [evaluateAll, bind_of_error (value_of_meetsUnencodable e inside)]
    | rest before inside =>
      rw [evaluateAll, value_bind_of_ok before,
        bind_of_error (value_of_meetsUnencodableAll es inside)]
termination_by structural es

/-- Named expressions that come to a text without an encoding fail for it. -/
theorem value_of_meetsUnencodableNamed {files : Files} {fault : Utf8.EncodeFault} {s : Session}
    (es : List (Text × Expr)) (h : MeetsUnencodableNamed files fault s es) :
    (evaluateNamed files es s).value = .error (Fault.encoding fault) := by
  cases es with
  | nil => cases h
  | cons e es =>
    obtain ⟨name, e⟩ := e
    cases h with
    | first inside => rw [evaluateNamed, bind_of_error (value_of_meetsUnencodable e inside)]
    | rest before inside =>
      rw [evaluateNamed, value_bind_of_ok before,
        bind_of_error (value_of_meetsUnencodableNamed es inside)]
termination_by structural es

end

/-! ## Evaluations that fail -/

/-- Whether a failure is one that statements report, or that of a text without an encoding of which
something else is known. -/
def Failure.ReportedOr (unencodable : Utf8.EncodeFault → Prop) (failure : Failure) : Prop :=
  failure.fault.Reported ∨ ∃ fault, failure = Fault.encoding fault ∧ unencodable fault

/-- A failure that is reported, or one of some sort, is so for every wider sort. -/
theorem Failure.ReportedOr.mono {P Q : Utf8.EncodeFault → Prop} {failure : Failure}
    (h : failure.ReportedOr P) (sub : ∀ fault, P fault → Q fault) : failure.ReportedOr Q := by
  rcases h with reported | ⟨fault, rfl, hp⟩
  · exact Or.inl reported
  · exact Or.inr ⟨fault, rfl, sub fault hp⟩

section Evaluation

variable {files : Files} {failure : Failure}

/-- Looking a name up fails in reported ways only. -/
theorem reported_lookUp {s : Session} {ident : Text} {spot : Spot}
    (h : (lookUp ident spot s).value = .error failure) : failure.fault.Reported := by
  rw [lookUp, bind_current] at h
  cases found : Bindings.get? s.globals ident with
  | some value =>
    rw [found] at h
    cases h
  | none =>
    rw [found] at h
    obtain rfl := Except.error.inj h
    exact Or.inr ⟨_, _, rfl, rfl⟩

/-- Reading an attribute in an ordinary session fails in reported ways only. -/
theorem reported_readAttribute {s : Session} (ordinary : s.Ordinary) {value : Value} {attr : Text}
    (h : (value.readAttribute files attr s).value = .error failure) :
    failure.fault.Reported := by
  rcases readAttribute_eq_error h with rfl | ⟨w, found, refused⟩
  · exact .of_diagnostic (by rintro line column ⟨⟩)
  · have inside : w ∈ s.store.wrappers := by
      cases value with
      | plain data => cases found
      | wrapper handle => exact List.mem_of_getElem? found
    exact Wrapper.reported_get (ordinary.contents w inside) files attr failure refused

/-- Writing an attribute fails in reported ways only. -/
theorem reported_writeAttribute {s : Session} {value new : Value} {attr : Text}
    (h : (value.writeAttribute attr new s).value = .error failure) : failure.fault.Reported := by
  rcases writeAttribute_eq_error h with rfl | ⟨w, refused⟩
  · exact .of_diagnostic (by rintro line column ⟨⟩)
  · exact Wrapper.reported_set w attr new failure refused

/-- A call is refused for the types of its arguments, or for a text without an encoding. -/
theorem reportedOr_call {s : Session} (ordinary : s.Ordinary) {k : Kind}
    {positional : List Value} {named : Bindings Value}
    (h : (k.call positional named s).value = .error failure) :
    failure.ReportedOr fun fault => ∃ arguments, k.bindCall positional named = .ok arguments ∧
      k.Unencodable arguments fault := by
  rcases call_eq_error h with ⟨fault, made, rfl⟩ | ⟨record, -, refused⟩
  · rcases Except.bind_eq_error_iff.1 made with refused | ⟨arguments, bound, refused⟩
    · obtain ⟨_, -, rfl⟩ := Except.mapError_eq_error_iff.1 refused
      exact Or.inl trivial
    · rcases Kind.construct_eq_error refused with
        ⟨message, rfl⟩ | ⟨encodeFault, rfl, unencodable⟩
      · exact Or.inl trivial
      · exact Or.inr ⟨encodeFault, rfl, arguments, bound, unencodable⟩
  · obtain ⟨w, adapted, -⟩ := ordinary.places.exists_adapt record
    cases adapted.symm.trans refused

mutual

/-- An evaluation in an ordinary session fails as statements report it, or because it comes to a
call that is given a text without an encoding. -/
theorem reportedOr_evaluate {s : Session} (ordinary : s.Ordinary) (e : Expr)
    (h : (evaluate files e s).value = .error failure) :
    failure.ReportedOr (MeetsUnencodable files · s e) := by
  cases e with
  | literal value spot =>
    rw [evaluate] at h
    cases h
  | name ident spot =>
    rw [evaluate] at h
    exact Or.inl (reported_lookUp h)
  | member base attr spot =>
    rw [evaluate] at h
    rcases value_bind_eq_error_iff.1 h with inside | ⟨value, -, refused⟩
    · exact (reportedOr_evaluate ordinary base inside).mono fun fault => .base
    · exact Or.inl (reported_readAttribute (keepsOrdinary_evaluate files base s ordinary) refused)
  | call func args keywords spot =>
    rw [evaluate] at h
    cases known : Kind.ofConstructorName? func with
    | none =>
      rw [known] at h
      obtain rfl := Except.error.inj h
      exact Or.inl (Or.inr ⟨_, _, rfl, rfl⟩)
    | some k =>
      rw [known] at h
      have between := within_evaluateAll keepsOrdinary_call files args s ordinary
      have behind := within_evaluateNamed keepsOrdinary_call files keywords _ between
      -- The arguments come one after the other, and the call comes after them.
      rcases value_bind_eq_error_iff.1 h with inside | ⟨positional, hpositional, h⟩
      · exact (reportedOr_evaluateAll ordinary args inside).mono fun fault => .positional known
      rcases value_bind_eq_error_iff.1 h with inside | ⟨named, hnamed, refused⟩
      · exact (reportedOr_evaluateNamed between keywords inside).mono fun fault =>
          .named known hpositional
      · refine (reportedOr_call behind refused).mono ?_
        rintro fault ⟨arguments, bound, unencodable⟩
        exact .call known hpositional hnamed bound unencodable
termination_by structural e

/-- Expressions fail in reported ways, or for a text without an encoding that they come to. -/
theorem reportedOr_evaluateAll {s : Session} (ordinary : s.Ordinary) (es : List Expr)
    (h : (evaluateAll files es s).value = .error failure) :
    failure.ReportedOr (MeetsUnencodableAll files · s es) := by
  cases es with
  | nil =>
    rw [evaluateAll] at h
    cases h
  | cons e es =>
    rw [evaluateAll] at h
    rcases value_bind_eq_error_iff.1 h with inside | ⟨value, before, h⟩
    · exact (reportedOr_evaluate ordinary e inside).mono fun fault => .first
    rcases value_bind_eq_error_iff.1 h with inside | ⟨values, -, h⟩
    · have between := keepsOrdinary_evaluate files e s ordinary
      exact (reportedOr_evaluateAll between es inside).mono fun fault => .rest before
    · cases h
termination_by structural es

/-- Named expressions fail in reported ways, or for a text without an encoding that they come to. -/
theorem reportedOr_evaluateNamed {s : Session} (ordinary : s.Ordinary)
    (es : List (Text × Expr))
    (h : (evaluateNamed files es s).value = .error failure) :
    failure.ReportedOr (MeetsUnencodableNamed files · s es) := by
  cases es with
  | nil =>
    rw [evaluateNamed] at h
    cases h
  | cons e es =>
    obtain ⟨name, e⟩ := e
    rw [evaluateNamed] at h
    rcases value_bind_eq_error_iff.1 h with inside | ⟨value, before, h⟩
    · exact (reportedOr_evaluate ordinary e inside).mono fun fault => .first
    rcases value_bind_eq_error_iff.1 h with inside | ⟨values, -, h⟩
    · have between := keepsOrdinary_evaluate files e s ordinary
      exact (reportedOr_evaluateNamed between es inside).mono fun fault => .rest before
    · cases h
termination_by structural es

end

end Evaluation

/-! ## Statements that fail -/

/-- The execution of a statement from a session comes to a call that is given a text without an
encoding. -/
inductive StatementMeets (files : Files) (fault : Utf8.EncodeFault) (s : Session) :
    Statement → Prop
  /-- In the value of an assignment. -/
  | assign {target : Text} {value : Expr} {spot : Spot}
      (inside : MeetsUnencodable files fault s value) :
      StatementMeets files fault s (.assign target value spot)
  /-- In what an attribute is written to. -/
  | target {target value : Expr} {attr : Text} {spot : Spot}
      (inside : MeetsUnencodable files fault s target) :
      StatementMeets files fault s (.write target attr value spot)
  /-- In what is written, after what it is written to has a value. -/
  | written {target value : Expr} {attr : Text} {spot : Spot} {base : Value}
      (before : (evaluate files target s).value = .ok base)
      (inside : MeetsUnencodable files fault (evaluate files target s).session value) :
      StatementMeets files fault s (.write target attr value spot)
  /-- In an expression that stands alone. -/
  | bare {value : Expr} {spot : Spot} (inside : MeetsUnencodable files fault s value) :
      StatementMeets files fault s (.bare value spot)

/-- Whether a failure is a diagnostic of a script with the code of a statement, or that of a text
without an encoding of which something else is known. -/
def Failure.ScriptOr (unencodable : Utf8.EncodeFault → Prop) (failure : Failure) : Prop :=
  failure.IsScript statementCodes ∨ ∃ fault, failure = Fault.encoding fault ∧ unencodable fault

/-- What is reported becomes a failure of the script, and what is not stays what it is. -/
theorem Failure.ReportedOr.inScript {P : Utf8.EncodeFault → Prop} {failure : Failure}
    (h : failure.ReportedOr P) (label : Text) (spot : Spot) :
    (failure.inScript label spot).ScriptOr P := by
  rcases h with reported | ⟨fault, rfl, hp⟩
  · exact Or.inl (reported.isScript label spot)
  · exact Or.inr ⟨fault, rfl, hp⟩

section Statements

variable {files : Files} {s : Session} {failure : Failure}

/-- A statement fails in reported ways, or for a text without an encoding that it comes to. -/
theorem reportedOr_perform (ordinary : s.Ordinary) {statement : Statement}
    (h : (Session.perform files statement s).value = .error failure) :
    failure.ReportedOr (StatementMeets files · s statement) := by
  cases statement with
  | assign target value spot =>
    rcases value_bind_eq_error_iff.1 h with inside | ⟨_, -, bound⟩
    · exact (reportedOr_evaluate ordinary value inside).mono fun fault => .assign
    · cases bound
  | write target attr value spot =>
    rcases value_bind_eq_error_iff.1 h with inside | ⟨base, before, h⟩
    · exact (reportedOr_evaluate ordinary target inside).mono fun fault => .target
    have between := keepsOrdinary_evaluate files target s ordinary
    rcases value_bind_eq_error_iff.1 h with inside | ⟨new, -, refused⟩
    · exact (reportedOr_evaluate between value inside).mono fun fault => .written before
    · exact Or.inl (reported_writeAttribute refused)
  | bare value spot =>
    rcases value_bind_eq_error_iff.1 h with inside | ⟨_, -, done⟩
    · exact (reportedOr_evaluate ordinary value inside).mono fun fault => .bare
    · cases done

/-- Performing a statement that comes to a text without an encoding fails for it. -/
theorem value_perform_of_meets {fault : Utf8.EncodeFault} {statement : Statement}
    (h : StatementMeets files fault s statement) :
    (Session.perform files statement s).value = .error (Fault.encoding fault) := by
  cases h with
  | assign inside =>
    rw [Session.perform, bind_of_error (value_of_meetsUnencodable _ inside)]
  | target inside =>
    rw [Session.perform, bind_of_error (value_of_meetsUnencodable _ inside)]
  | written before inside =>
    rw [Session.perform, value_bind_of_ok before,
      bind_of_error (value_of_meetsUnencodable _ inside)]
  | bare inside =>
    rw [Session.perform, bind_of_error (value_of_meetsUnencodable _ inside)]

/-- A statement fails as one of the script, but for texts without an encoding. -/
theorem scriptOr_execute (ordinary : s.Ordinary) {statement : Statement}
    (h : (Session.execute files statement s).value = .error failure) :
    failure.ScriptOr (StatementMeets files · s statement) := by
  obtain ⟨inner, refused, rfl⟩ := Except.mapError_eq_error_iff.1 h
  exact (reportedOr_perform ordinary refused).inScript _ _

/-- Executing a statement that comes to a text without an encoding fails for it, in no other words.
-/
theorem value_execute_of_meets {fault : Utf8.EncodeFault} {statement : Statement}
    (h : StatementMeets files fault s statement) :
    (Session.execute files statement s).value = .error (Fault.encoding fault) :=
  Except.mapError_eq_error_iff.2 ⟨_, value_perform_of_meets h, rfl⟩

/-- Statements that succeed leave an ordinary session. -/
theorem Executed.ordinary {statements : List Statement} {t : Session}
    (h : Executed files s statements t) (ordinary : s.Ordinary) : t.Ordinary := by
  obtain ⟨-, rfl⟩ := Executed.iff_executeAll.1 h
  exact within_executeAll (keepsOrdinary_perform files) statements s ordinary

end Statements

/-! ## Scripts that fail -/

/-- The execution of some statements from a session comes to a statement, all before it having
succeeded, and with it to a call that is given a text without an encoding. -/
def ScriptMeets (files : Files) (s : Session) (statements : List Statement)
    (fault : Utf8.EncodeFault) : Prop :=
  ∃ pre statement post t, statements = pre ++ statement :: post ∧ Executed files s pre t ∧
    StatementMeets files fault t statement

section Scripts

variable {files : Files} {s : Session}

/-- Statements fail as a script does, or for a text without an encoding that they come to. -/
theorem scriptOr_executeAll (ordinary : s.Ordinary) {statements : List Statement}
    {failure : Failure}
    (h : (Session.executeAll files statements s).value = .error failure) :
    failure.ScriptOr (ScriptMeets files s statements) := by
  rcases executed_or_exists_fails files s statements with
    ⟨t, executed⟩ | ⟨pre, statement, post, t, first, rfl, executed, fails⟩
  · rw [(Executed.iff_executeAll.1 executed).1] at h
    cases h
  · rw [executed.executeAll_of_fails fails] at h
    obtain rfl := Except.error.inj h
    rcases scriptOr_execute (executed.ordinary ordinary) fails with
      reported | ⟨fault, rfl, meets⟩
    · exact Or.inl reported
    · exact Or.inr ⟨fault, rfl, pre, statement, post, t, rfl, executed, meets⟩

/-- Statements that come to a text without an encoding fail for it. -/
theorem value_executeAll_of_meets {statements : List Statement} {fault : Utf8.EncodeFault}
    (h : ScriptMeets files s statements fault) :
    (Session.executeAll files statements s).value = .error (Fault.encoding fault) := by
  obtain ⟨pre, statement, post, t, rfl, executed, meets⟩ := h
  rw [executed.executeAll_of_fails (value_execute_of_meets meets)]

end Scripts

/-! ## Texts that are not read -/

/-- Whether a fault of a text is reported as one of the script, or is that of a numeral of the text
with too many digits. -/
def Script.SourceFault.ScriptOrLong (t : Text) (fault : Script.SourceFault) : Prop :=
  fault.failure.IsScript ["script-parse"] ∨
    ∃ digits, Script.HasLongNumeral t digits ∧ fault = .violation (.tooLong ⟨digits⟩)

section

variable [CharacterNames]

/-- A refusal is reported as one of the script unless the rule broken is that of the length of a
numeral, which then stands in the text. -/
theorem scriptOrLong_of_isAbout {t : Text} {fault : Script.SourceFault}
    (h : ∀ v, fault = .violation v → ∃ ls, Script.Lexes t ls ∧ v.IsAbout ls) :
    fault.ScriptOrLong t := by
  have mem : ("script-parse" : Text) ∈ [("script-parse" : Text)] := List.mem_cons_self
  cases fault with
  | unexpected excerpt spot => exact Or.inl ⟨_, _, _, rfl, rfl, mem⟩
  | violation v =>
    cases v with
    | tooLong fault =>
      obtain ⟨ls, lexes, about⟩ := h _ rfl
      exact Or.inr ⟨fault.digits, about.hasLongNumeral lexes, rfl⟩
    | _ => exact Or.inl ⟨_, _, _, rfl, rfl, mem⟩

/-- Why a script is not read is reported as a fault of the script, a numeral that is too long apart.
-/
theorem scriptOrLong_of_parse {source : Text} {fault : Script.SourceFault}
    (h : Script.parse source = .error fault) :
    fault.ScriptOrLong (Script.closeLastLine source) := by
  apply scriptOrLong_of_isAbout
  rintro v rfl
  exact Script.isAbout_of_parse h

/-- The same of an expression, which is read without the blanks around it. -/
theorem scriptOrLong_of_parseExpr {source : Text} {fault : Script.SourceFault}
    (h : Script.parseExpr source = .error fault) : fault.ScriptOrLong source.trim := by
  apply scriptOrLong_of_isAbout
  rintro v rfl
  exact Script.isAbout_of_parseExpr h

/-! ## Escapes -/

/-- **What escapes a script.** In a session that starts with a policy of explicit places and in
which only scripts have been run, expressions evaluated and names bound to plain data, a script that
is not read fails with a `script-parse` diagnostic unless a numeral in it has too many digits, and
one that is read fails with a `script`, `script-call` or `script-name` diagnostic unless its
execution comes to a call that is given a text without an encoding; if it does come to such a call,
the failure is that text's. The same holds for expressions. How deep a text is nested plays no part:
a host that gives up on texts nested beyond a limit of its own is left out. -/
theorem failures_of_plain_session {p : Policy} (places : p.Places) {steps : List Session.Step}
    (plain : ∀ step ∈ steps, step.IsPlain) (files : Files) (source : Text) :
    let s := Session.reached p steps
    (∀ fault, Script.parse source = .error fault →
      (s.run files source).value = .error fault.failure ∧
        fault.ScriptOrLong (Script.closeLastLine source)) ∧
    (∀ statements, Script.parse source = .ok statements →
      (∀ failure, (s.run files source).value = .error failure →
        failure.ScriptOr (ScriptMeets files s statements)) ∧
      ∀ fault, ScriptMeets files s statements fault →
        (s.run files source).value = .error (Fault.encoding fault)) ∧
    (∀ fault, Script.parseExpr source = .error fault →
      (s.eval files source).value = .error fault.failure ∧ fault.ScriptOrLong source.trim) ∧
    (∀ e, Script.parseExpr source = .ok e →
      (∀ failure, (s.eval files source).value = .error failure →
        failure.ScriptOr (MeetsUnencodable files · s e)) ∧
      ∀ fault, MeetsUnencodable files fault s e →
        (s.eval files source).value = .error (Fault.encoding fault)) := by
  intro s
  have ordinary : s.Ordinary := Session.ordinary_reached places plain
  refine ⟨?_, ?_, ?_, ?_⟩
  · intro fault hparse
    rw [Session.run, hparse]
    exact ⟨rfl, scriptOrLong_of_parse hparse⟩
  · intro statements hparse
    rw [run_of_parse hparse]
    exact ⟨fun failure h => scriptOr_executeAll ordinary h,
      fun fault meets => value_executeAll_of_meets meets⟩
  · intro fault hparse
    rw [Session.eval, hparse]
    exact ⟨rfl, scriptOrLong_of_parseExpr hparse⟩
  · intro e hparse
    rw [Session.eval, hparse]
    constructor
    · intro failure h
      -- An expression is evaluated without a statement around it, but reports like one.
      obtain ⟨inner, refused, rfl⟩ := Except.mapError_eq_error_iff.1 h
      exact (reportedOr_evaluate ordinary e refused).inScript _ _
    · intro fault meets
      exact Except.mapError_eq_error_iff.2 ⟨_, value_of_meetsUnencodable e meets, rfl⟩

end

section

open scoped CharacterNames.Unlisted

/-- An attribute of a number is asked for in a session in which the number was bound to a name: the
failure is a diagnostic of the script. -/
theorem failures_of_plain_session_member :
    let files : Files := fun _ => .error .nullInPath
    let steps : List Session.Step := [.bind "x" (.int 1)]
    let e : Expr := .member (.name "x" ⟨1, 1⟩) "name" ⟨1, 1⟩
    Policy.Places {} ∧ (∀ step ∈ steps, step.IsPlain) ∧ Script.parseExpr "x.name" = .ok e ∧
      ∃ failure, ((Session.reached {} steps).eval files "x.name").value = .error failure ∧
        failure.ScriptOr (MeetsUnencodable files · (Session.reached {} steps) e) := by
  intro files steps e
  have plain : ∀ step ∈ steps, step.IsPlain := by
    intro step h
    rw [List.mem_singleton.1 h]
    trivial
  have read : Script.parseExpr "x.name" = .ok e := by
    have lexes : Script.Lexes "x.name" [⟨.word, "x", ⟨0, 1, 1⟩⟩, ⟨.dot, ".", ⟨1, 1, 2⟩⟩,
        ⟨.word, "name", ⟨2, 1, 3⟩⟩] := Script.lexes_iff.2 (by decide +kernel)
    have trimmed : ("x.name" : Text).trim = "x.name" := by decide +kernel
    refine Script.parseExpr_ok_iff.2 ⟨.member (.name ⟨⟨.word, "x", ⟨0, 1, 1⟩⟩, by decide +kernel⟩)
      ⟨⟨.dot, ".", ⟨1, 1, 2⟩⟩, rfl⟩ ⟨⟨.word, "name", ⟨2, 1, 3⟩⟩, rfl⟩, ?_, .member .name⟩
    rwa [trimmed]
  have fails : ((Session.reached {} steps).eval files "x.name").value =
      .error ((noAttributes (.plain (.int 1)) "name" .get : Failure).inScript e.label e.spot) := by
    rw [Session.eval, read]
    rfl
  refine ⟨Policy.places_default, plain, read, _, fails, ?_⟩
  exact ((failures_of_plain_session Policy.places_default plain files "x.name").2.2.2 e read).1 _
    fails

end

section

open scoped CharacterNames.Unlisted

/-- A string with a lone surrogate is given to a constructor as the source of a module: it has no
encoding, and the failure is none of the script. -/
theorem surrogate_source_escapes :
    let source : Text := "make_source_module('n', '\\ud800')"
    let fault : Utf8.EncodeFault := ⟨.ofNat 0xd800, 0, 1⟩
    Policy.Places {} ∧ ∀ files : Files,
      ((Session.reached {} []).run files source).value = .error (Fault.encoding fault) ∧
        ∀ codes, ¬ Failure.IsScript codes (Fault.encoding fault) := by
  intro source fault
  refine ⟨Policy.places_default, fun files => ⟨?_, fun codes =>
    Failure.not_isScript_encoding codes fault⟩⟩
  -- The escape is read as a surrogate, which no encoding of the content can hold.
  have read : Script.parse source = .ok [.bare (.call "make_source_module"
      [.literal (.text "n") ⟨1, 20⟩, .literal (.text [.ofNat 0xd800]) ⟨1, 25⟩] [] ⟨1, 1⟩)
        ⟨1, 1⟩] := by
    have name : Script.Literal.decode "'n'" = .ok "n" := by decide +kernel
    have content : Script.Literal.decode "'\\ud800'" = .ok [.ofNat 0xd800] := by decide +kernel
    exact Script.parse_ok_iff.2
      ⟨[(some (.bare (.callWith ⟨⟨.word, "make_source_module", ⟨0, 1, 1⟩⟩, by decide +kernel⟩
          ⟨⟨.opening, "(", ⟨18, 1, 19⟩⟩, rfl⟩
          (.more (.positional (.string ⟨⟨.string, "'n'", ⟨19, 1, 20⟩⟩, rfl⟩))
            ⟨⟨.comma, ",", ⟨22, 1, 23⟩⟩, rfl⟩
            (.last (.positional (.string ⟨⟨.string, "'\\ud800'", ⟨24, 1, 25⟩⟩, rfl⟩))))
          ⟨⟨.closing, ")", ⟨32, 1, 33⟩⟩, rfl⟩)),
        ⟨⟨.newline, "\n", ⟨33, 1, 34⟩⟩, rfl⟩)],
      Script.lexes_iff.2 (by decide +kernel),
      .line (.bare (.callWith (.more (.last (.positional (.string content)))
        (.positional (.string name))) List.nodup_nil)) .nil⟩
  rw [run_of_parse read]
  apply value_executeAll_of_meets
  refine ⟨[], _, [], _, rfl, .nil, .bare (.call (k := .sourceModule) rfl rfl rfl rfl ?_)⟩
  refine ⟨?_, "source", rfl, _, rfl, by decide +kernel⟩
  intro name mem
  rw [List.mem_singleton.1 mem]
  exact ⟨_, rfl⟩

end

end Packaging
