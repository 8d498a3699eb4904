import Packaging.Proofs.Bindings
import Packaging.Proofs.Outcomes
import Packaging.Proofs.Script.Seams
import Packaging.Proofs.Session.Statements

/-! # Scripts as sequels
Where a script stands matters to nothing but the lines that are told about it. So a script that
stands below another is run as it is by itself, from the session that the other one leaves; lines in
failures and in told steps are those further down. -/

namespace Packaging

open Packaging.Action
open Script (Expr Statement)

/-! ## Lines further down -/

/-- A kind of diagnostic with the line of a script moved down. -/
def Diagnostic.Kind.lower (lines : Nat) : Diagnostic.Kind → Diagnostic.Kind
  | script (some line) column => script (some (line + lines)) column
  | kind => kind

/-- A diagnostic with the line of a script moved down. -/
def Diagnostic.lower (lines : Nat) (d : Diagnostic) : Diagnostic :=
  { d with kind := d.kind.lower lines }

/-- A fault with the line of a script moved down. -/
def Fault.lower (lines : Nat) : Fault → Fault
  | diagnostic d => diagnostic (d.lower lines)
  | fault => fault

/-- A failure with the line of a script moved down; what it was made from is no matter of lines. -/
def Failure.lower (lines : Nat) (failure : Failure) : Failure :=
  { failure with fault := failure.fault.lower lines }

/-- A step with the line of a script moved down. -/
def Event.lower (lines : Nat) : Event → Event
  | statementReached line form => statementReached (line + lines) form
  | event => event

/-- An effect with the lines of a script moved down. -/
def Effect.lower {α : Type} (lines : Nat) (o : Effect α) : Effect α where
  events := o.events.map (Event.lower lines)
  session := o.session
  value := o.value.mapError (Failure.lower lines)

/-- An action that tells lines further down. -/
def Action.lower {α : Type} (lines : Nat) (x : Action α) : Action α := fun s => (x s).lower lines

/-- A statement that stands some lines further down. -/
abbrev Script.Statement.lower (lines : Nat) : Statement → Statement :=
  Statement.relocate (Spot.lower lines)

/-! ## Sequencing -/

section Actions

variable {α β : Type} (lines : Nat)

/-- A value by itself is the same further down. -/
theorem Action.lower_pure (a : α) : (pure a : Action α).lower lines = pure a := rfl

/-- A failure further down is told further down. -/
theorem Action.lower_fail (failure : Failure) :
    (fail failure : Action α).lower lines = fail (failure.lower lines) := rfl

/-- To look at the session is the same further down. -/
theorem Action.lower_current : current.lower lines = current := rfl

/-- To change the session is the same further down. -/
theorem Action.lower_change (f : Session → Session) : (change f).lower lines = change f := rfl

/-- A step further down is told further down. -/
theorem Action.lower_tell (event : Event) : (tell event).lower lines = tell (event.lower lines) :=
  rfl

/-- The parts of a sequence are moved down one by one. -/
theorem Action.lower_bind (x : Action α) (f : α → Action β) :
    (x >>= f).lower lines = x.lower lines >>= fun a => (f a).lower lines := by
  funext s
  rw [Action.lower]
  cases h : (x s).value with
  | ok a =>
    have lowered : (x.lower lines s).value = .ok a := by
      show (x s).value.mapError (Failure.lower lines) = _
      rw [h]
      rfl
    rw [bind_of_ok h, bind_of_ok lowered]
    simp [Action.lower, Effect.lower]
  | error failure =>
    have lowered : (x.lower lines s).value = .error (failure.lower lines) := by
      show (x s).value.mapError (Failure.lower lines) = _
      rw [h]
      rfl
    rw [bind_of_error h, bind_of_error lowered]
    rfl

/-- A failure may be moved down before or after it is reported in other words. -/
theorem Action.lower_mapFailure {f g : Failure → Failure}
    (h : ∀ failure, (f failure).lower lines = g (failure.lower lines)) (x : Action α) :
    (x.mapFailure f).lower lines = (x.lower lines).mapFailure g := by
  funext s
  simp only [Action.lower, Action.mapFailure, Effect.lower]
  cases (x s).value with
  | ok a => rfl
  | error failure => exact congrArg (Effect.mk _ _) (congrArg Except.error (h failure))

end Actions

/-! ## Failures without a line -/

/-- Whether a fault tells no line of a script. -/
def Fault.Lineless (fault : Fault) : Prop :=
  ∀ d line column, fault = .diagnostic d → d.kind ≠ .script line column

/-- Whether a failure tells no line of a script. -/
def Failure.Lineless (failure : Failure) : Prop := failure.fault.Lineless

/-- A fault that is no diagnostic tells no line. -/
theorem Fault.lineless {fault : Fault} (h : ∀ d, fault ≠ .diagnostic d) : fault.Lineless :=
  fun d _ _ hd => absurd hd (h d)

/-- A diagnostic that does not come from a script has no line. -/
theorem Diagnostic.lineless {d : Diagnostic} (h : ∀ line column, d.kind ≠ .script line column) :
    (Fault.diagnostic d).Lineless := by
  rintro _ line column ⟨⟩
  exact h line column

/-- What tells no line stays as it is. -/
theorem Failure.Lineless.lower_eq {failure : Failure} (h : failure.Lineless) (lines : Nat) :
    failure.lower lines = failure := by
  obtain ⟨fault, cause⟩ := failure
  cases fault with
  | diagnostic d =>
    obtain ⟨kind, reasonCode, message, label, typeName, attrName⟩ := d
    cases kind with
    | script line column => exact absurd rfl (h _ line column rfl)
    | _ => rfl
  | _ => rfl

/-- A result whose failures have no line is the same further down. -/
theorem Action.lower_ofResult {α : Type} {result : Except Failure α}
    (h : result.ErrsIn Failure.Lineless) (lines : Nat) :
    (ofResult result).lower lines = ofResult result := by
  have same : result.mapError (Failure.lower lines) = result :=
    h.mapError_eq_self fun failure lineless => lineless.lower_eq lines
  funext s
  show Effect.mk [] s (result.mapError (Failure.lower lines)) = _
  rw [same]
  rfl

/-- Failures to read a source have no line. -/
theorem Wrapper.lineless_readSource (m : ModuleSource) (files : Files) :
    (readSource m files).ErrsIn Failure.Lineless := by
  rw [readSource]
  split
  · next fault _ =>
    apply Except.errsIn_error
    by_cases system : fault.isSystem = true
    · rw [if_pos system]
      exact Diagnostic.lineless nofun
    · rw [if_neg system]
      cases fault with
      | _ => exact Fault.lineless nofun
  · split
    · exact Except.errsIn_error (Diagnostic.lineless nofun)
    · exact Except.errsIn_ok _ _

/-- All that a record holds as it is can be read; only the source of a module may fail. -/
theorem Wrapper.errsIn_getter {P : Failure → Prop} {files : Files} {record : Record}
    (source : ∀ m, record = .moduleSource m → (readSource m files).ErrsIn P)
    {named : Text × Getter} (h : named ∈ intrinsics record) : (named.2 files).ErrsIn P := by
  have held (data : Json) : (constant data files).ErrsIn P := Except.errsIn_ok _ data
  cases record with
  | moduleSource m =>
    simp only [intrinsics, List.mem_cons, List.not_mem_nil, or_false] at h
    rcases h with rfl | rfl | rfl
    · exact held _
    · exact source m rfl
    · exact held _
  | packageResource r =>
    simp only [intrinsics, List.mem_cons, List.not_mem_nil, or_false] at h
    rcases h with rfl | rfl
    · exact held _
    · exact held _
  | distributionResource r =>
    simp only [intrinsics, List.mem_cons, List.not_mem_nil, or_false] at h
    rcases h with rfl | rfl
    · exact held _
    · exact held _
  | extensionModule m =>
    obtain rfl := List.mem_singleton.1 h
    exact held _

/-- Reading an attribute fails because there is no such attribute, or because the source of a module
cannot be read. -/
theorem Wrapper.errsIn_get {P : Failure → Prop} {files : Files} {w : Wrapper}
    (source : ∀ m, w.record = .moduleSource m → (readSource m files).ErrsIn P)
    (unsupported : ∀ d : Diagnostic, (∀ line column, d.kind ≠ .script line column) → P d)
    (attr : Text) : (w.get files attr).ErrsIn P := by
  rw [get]
  split
  · next getter found =>
    have known : (attr, getter) ∈ intrinsics w.record := Bindings.mem_of_get?_eq_some found
    exact errsIn_getter source known
  · split
    · next known =>
      -- A kind with contexts has a place for one, so its attributes can always be read.
      obtain ⟨has, isAttribute⟩ := Bool.and_eq_true_iff.1 known
      obtain ⟨a, ha⟩ := Option.isSome_iff_exists.1 isAttribute
      have place : w.hasPlace = true := by simp [hasPlace, has]
      rw [getCollection, ha]
      dsimp only
      rw [if_pos place]
      exact Except.errsIn_ok _ _
    · exact Except.errsIn_error (unsupported _ nofun)

/-- Reading an attribute fails without a line. -/
theorem Wrapper.lineless_get (files : Files) (w : Wrapper) (attr : Text) :
    (w.get files attr).ErrsIn Failure.Lineless :=
  errsIn_get (fun m _ => lineless_readSource m files) (fun _ => Diagnostic.lineless) attr

/-- Failures to write an attribute have no line. -/
theorem Attribute.lineless_write (typeName : Text) (c : Context) (a : Attribute) (value : Value) :
    (a.write typeName c value).ErrsIn fun d => (Fault.diagnostic d).Lineless := by
  cases a with
  | location =>
    rw [write]
    split
    · exact Except.errsIn_error (Diagnostic.lineless nofun)
    · exact Except.errsIn_ok _ _
    · exact Except.errsIn_error (Diagnostic.lineless nofun)
  | fallback =>
    rw [write]
    split
    · exact Except.errsIn_ok _ _
    · exact Except.errsIn_ok _ _
    · exact Except.errsIn_error (Diagnostic.lineless nofun)
  | _ => exact Except.errsIn_ok _ _

/-- Writing an attribute fails without a line. -/
theorem Wrapper.lineless_set (w : Wrapper) (attr : Text) (new : Value) :
    (w.set attr new).ErrsIn Failure.Lineless := by
  rw [set, setCollection]
  split
  · split
    · split
      · split
        · exact Except.errsIn_error (Diagnostic.lineless nofun)
        · exact Except.errsIn_error (Fault.lineless nofun)
      · split
        · exact Except.errsIn_ok _ _
        · next d refused =>
          exact Except.errsIn_error (Attribute.lineless_write _ _ _ _ d refused)
    · exact Except.errsIn_error (Fault.lineless nofun)
  · exact Except.errsIn_error (Diagnostic.lineless nofun)

/-- A wrapper is refused without a line. -/
theorem Resource.lineless_adapt (p : Policy) (r : Resource) :
    (r.adapt p).ErrsIn Failure.Lineless := by
  rw [adapt.eq_def]
  split
  · split
    · rw [Wrapper.applyPolicy]
      split
      · exact Except.errsIn_ok _ _
      · exact Except.errsIn_error (Fault.lineless nofun)
    · exact Except.errsIn_ok _ _
  · exact Except.errsIn_error (Fault.lineless nofun)

/-- Failures to take a text from a call have no line. -/
theorem Kind.lineless_textArgument (k : Kind) (arguments : Bindings Value) (name : Text) :
    (k.textArgument arguments name).ErrsIn Fault.Lineless := by
  rw [textArgument.eq_def]
  split
  · exact Except.errsIn_ok _ _
  · exact Except.errsIn_error (Fault.lineless nofun)

/-- Failures to take contents from a call have no line. -/
theorem Kind.lineless_contentArgument (k : Kind) (arguments : Bindings Value) (name : Text) :
    (k.contentArgument arguments name).ErrsIn Fault.Lineless := by
  apply (k.lineless_textArgument arguments name).bind
  intro t
  apply Except.errsIn_mapError
  intro fault
  exact Fault.lineless nofun

/-- Failures to bind the arguments of a call have no line. -/
theorem Kind.lineless_bindCall (k : Kind) (positional : List Value) (named : Bindings Value) :
    (k.bindCall positional named).ErrsIn Fault.Lineless := by
  apply Except.errsIn_mapError
  intro fault
  exact Fault.lineless nofun

/-- Arguments are refused without a line. -/
theorem Kind.lineless_construct (k : Kind) (arguments : Bindings Value) :
    (k.construct arguments).ErrsIn Fault.Lineless := by
  have text := k.lineless_textArgument arguments
  have content := k.lineless_contentArgument arguments
  have made (record : Record) : (pure record : Except Fault Record).ErrsIn Fault.Lineless :=
    Except.errsIn_ok _ record
  cases k with
  | sourceModule => exact (text _).bind fun _ => (content _).bind fun _ => made _
  | packageResource =>
    exact (text _).bind fun _ => (text _).bind fun _ => (content _).bind fun _ => made _
  | distributionResource =>
    exact (text _).bind fun _ => (text _).bind fun _ => (text _).bind fun _ =>
      (content _).bind fun _ => made _
  | extensionModule => exact (text _).bind fun _ => made _

/-! ## Evaluation -/

section Evaluation

variable (lines : Nat)

/-- Reading an attribute is the same further down. -/
theorem lower_readAttribute (files : Files) (value : Value) (attr : Text) :
    (value.readAttribute files attr).lower lines = value.readAttribute files attr := by
  rw [Value.readAttribute, lower_bind, lower_current]
  congr 1
  funext s
  split
  · rfl
  · next w _ => exact lower_ofResult ((w.lineless_get files attr).map Value.plain) lines

/-- Writing an attribute is the same further down. -/
theorem lower_writeAttribute (value : Value) (attr : Text) (new : Value) :
    (value.writeAttribute attr new).lower lines = value.writeAttribute attr new := by
  rw [Value.writeAttribute, lower_bind, lower_current]
  congr 1
  funext s
  split
  · rfl
  · split
    · rfl
    · next w _ =>
      rw [lower_bind, lower_ofResult (w.lineless_set attr new)]
      rfl

/-- Making a wrapper is the same further down. -/
theorem lower_makeWrapper (record : Record) :
    (makeWrapper record).lower lines = makeWrapper record := by
  rw [makeWrapper, lower_bind, lower_current]
  congr 1
  funext s
  rw [lower_bind, lower_ofResult (Resource.lineless_adapt s.policy (.record record))]
  congr 1
  funext w
  -- What is told about the policy has no line.
  split
  · rw [lower_bind]
    rfl
  · rfl

/-- A call is the same further down. -/
theorem lower_call (k : Kind) (positional : List Value) (named : Bindings Value) :
    (k.call positional named).lower lines = k.call positional named := by
  have made := (k.lineless_bindCall positional named).bind k.lineless_construct
  rw [Kind.call]
  split
  · next fault refused =>
    have lineless : Failure.Lineless fault := made fault refused
    rw [lower_fail, lineless.lower_eq]
  · exact lower_makeWrapper lines _

/-- To look a name up further down is told further down. -/
theorem lower_lookUp (ident : Text) (spot : Spot) :
    lookUp ident (spot.lower lines) = (lookUp ident spot).lower lines := by
  rw [lookUp, lookUp, lower_bind, lower_current]
  congr 1
  funext s
  split
  · rfl
  · rfl

mutual

/-- An expression further down has the same value, or the same failure further down. -/
theorem evaluate_lower (files : Files) (e : Expr) :
    evaluate files (e.relocate (Spot.lower lines)) = (evaluate files e).lower lines := by
  cases e with
  | literal value spot =>
    rw [Expr.relocate, evaluate, evaluate]
    rfl
  | name ident spot =>
    rw [Expr.relocate, evaluate, evaluate]
    exact lower_lookUp lines ident spot
  | member base attr spot =>
    rw [Expr.relocate, evaluate, evaluate, lower_bind, evaluate_lower files base]
    simp only [lower_readAttribute]
  | call func args keywords spot =>
    rw [Expr.relocate, evaluate, evaluate]
    cases Kind.ofConstructorName? func with
    | none => rfl
    | some k =>
      dsimp only
      rw [lower_bind, evaluateAll_lower files args]
      simp only [lower_bind, evaluateNamed_lower files keywords, lower_call]
termination_by structural e

/-- Evaluating expressions further down is told further down. -/
theorem evaluateAll_lower (files : Files) (es : List Expr) :
    evaluateAll files (Expr.relocateAll (Spot.lower lines) es) =
      (evaluateAll files es).lower lines := by
  cases es with
  | nil =>
    rw [Expr.relocateAll, evaluateAll]
    rfl
  | cons e es =>
    rw [Expr.relocateAll, evaluateAll, evaluateAll, evaluate_lower files e,
      evaluateAll_lower files es]
    simp only [lower_bind, lower_pure]
termination_by structural es

/-- Evaluating named expressions further down is told further down. -/
theorem evaluateNamed_lower (files : Files) (es : List (Text × Expr)) :
    evaluateNamed files (Expr.relocateNamed (Spot.lower lines) es) =
      (evaluateNamed files es).lower lines := by
  cases es with
  | nil =>
    rw [Expr.relocateNamed, evaluateNamed]
    rfl
  | cons e es =>
    obtain ⟨key, e⟩ := e
    rw [Expr.relocateNamed, evaluateNamed, evaluateNamed, evaluate_lower files e,
      evaluateNamed_lower files es]
    simp only [lower_bind, lower_pure]
termination_by structural es

end

end Evaluation

/-! ## Execution -/

section Execution

variable (lines : Nat)

/-- An expression further down has the same label. -/
theorem Script.Expr.label_lower (e : Expr) :
    (e.relocate (Spot.lower lines)).label = e.label := by
  cases e with
  | _ => rw [relocate]; rfl

/-- A statement further down has the same label. -/
theorem Script.Statement.label_lower (statement : Statement) :
    (statement.lower lines).label = statement.label := by
  cases statement with
  | assign target value spot => exact Expr.label_lower lines value
  | write target attr value spot => rfl
  | bare value spot => exact Expr.label_lower lines value

/-- A statement further down has the same form. -/
theorem Script.Statement.form_lower (statement : Statement) :
    (statement.lower lines).form = statement.form := by
  cases statement with
  | _ => rfl

/-- A failure is reported at a statement further down as it is at the statement. -/
theorem Failure.inScript_lower (label : Text) (spot : Spot) (failure : Failure) :
    (failure.inScript label spot).lower lines =
      (failure.lower lines).inScript label (spot.lower lines) := by
  obtain ⟨fault, cause⟩ := failure
  cases fault with
  | diagnostic d =>
    obtain ⟨kind, reasonCode, message, dlabel, typeName, attrName⟩ := d
    cases kind with
    | script line column =>
      cases line with
      | none => rfl
      | some line => rfl
    | _ => rfl
  | _ => rfl

/-- Performing a statement further down is told further down. -/
theorem perform_lower (files : Files) (statement : Statement) :
    Session.perform files (statement.lower lines) =
      (Session.perform files statement).lower lines := by
  cases statement with
  | assign target value spot =>
    simp only [Statement.relocate, Session.perform, evaluate_lower, lower_bind, lower_change]
  | write target attr value spot =>
    simp only [Statement.relocate, Session.perform, evaluate_lower, lower_bind,
      lower_writeAttribute]
  | bare value spot =>
    simp only [Statement.relocate, Session.perform, evaluate_lower, lower_bind, lower_pure]

/-- A statement further down does the same, and fails further down. -/
theorem execute_lower (files : Files) (statement : Statement) :
    Session.execute files (statement.lower lines) =
      (Session.execute files statement).lower lines := by
  have report := lower_mapFailure lines
    (Failure.inScript_lower lines statement.label statement.spot) (Session.perform files statement)
  rw [Session.execute, Session.execute, lower_bind, lower_tell, report, perform_lower,
    Script.Statement.label_lower, Script.Statement.form_lower, Script.Statement.spot_relocate]
  rfl

/-- Executing statements further down is told further down. -/
theorem executeAll_lower (files : Files) (statements : List Statement) :
    Session.executeAll files (statements.map (Statement.lower lines)) =
      (Session.executeAll files statements).lower lines := by
  induction statements with
  | nil => rfl
  | cons statement rest ih =>
    rw [List.map_cons, executeAll_cons, executeAll_cons, lower_bind, ih, execute_lower]

end Execution

/-! ## Scripts -/

/-- **Scripts one after the other.** Two texts, the first of which ends with a line feed, are a
script together exactly if each is one. Its statements are those of the first and, as many lines
further down as the first has, those of the second. It is run as the first is and then, if that
succeeds, as the second is from the session that the first has left, lines being those further
down. -/
theorem run_sequel [CharacterNames] (files : Files) (s : Session) {first second : Text}
    (closed : first.getLast? = some (CodePoint.ofChar '\n')) :
    (∀ statements, Script.parse (first ++ second) = .ok statements ↔
      ∃ a b, Script.parse first = .ok a ∧ Script.parse second = .ok b ∧
        statements = a ++ b.map (Statement.lower first.lineFeeds)) ∧
    ∀ a b, Script.parse first = .ok a → Script.parse second = .ok b →
      (∀ failure, (s.run files first).value = .error failure →
        s.run files (first ++ second) = s.run files first) ∧
      ((s.run files first).value = .ok () →
        let before := s.run files first
        let sequel := before.session.run files second
        s.run files (first ++ second) =
          { events := before.events ++ sequel.events.map (Event.lower first.lineFeeds)
            session := sequel.session
            value := sequel.value.mapError (Failure.lower first.lineFeeds) }) := by
  have nonempty : first ≠ [] := by
    rintro rfl
    cases closed
  have ends : first.EndsLine := Text.endsLine_of_getLast? closed
  refine ⟨fun statements => Script.parse_append_iff ends nonempty, ?_⟩
  intro a b ha hb
  have together := (Script.parse_append_iff ends nonempty).2 ⟨a, b, ha, hb, rfl⟩
  rw [run_of_parse together, run_of_parse ha, executeAll_append, executeAll_lower]
  constructor
  · intro failure fails
    rw [bind_of_error fails, ← fails]
  · intro succeeds
    dsimp only
    rw [bind_of_ok succeeds, run_of_parse hb]
    rfl

section

open scoped CharacterNames.Unlisted

/-- A name that is unknown in the only line of a script is reported in the second line if that
script follows another line, which has been executed. -/
theorem run_sequel_of_unknown_name :
    let files : Files := fun _ => .error .nullInPath
    ("x = 1\n" : Text).getLast? = some (CodePoint.ofChar '\n') ∧
      Script.parse ("x = 1\n" ++ "y") =
        .ok [.assign "x" (.literal (.int 1) ⟨1, 5⟩) ⟨1, 1⟩, .bare (.name "y" ⟨2, 1⟩) ⟨2, 1⟩] ∧
      Session.run files {} ("x = 1\n" ++ "y") =
        { events := [.statementReached 1 "AssignStmt", .statementReached 2 "ExprStmt"]
          session := { globals := [("x", .plain (.int 1))] }
          value := .error (unknownIdentifier "y" ⟨2, 1⟩) } := by
  intro files
  have closed : ("x = 1\n" : Text).getLast? = some (CodePoint.ofChar '\n') := by decide
  have first : Script.parse "x = 1\n" = .ok [.assign "x" (.literal (.int 1) ⟨1, 5⟩) ⟨1, 1⟩] := by
    have lexes : Script.Lexes "x = 1\n" [⟨.word, "x", ⟨0, 1, 1⟩⟩, ⟨.equals, "=", ⟨2, 1, 3⟩⟩,
        ⟨.integer, "1", ⟨4, 1, 5⟩⟩, ⟨.newline, "\n", ⟨5, 1, 6⟩⟩] :=
      Script.lexes_iff.2 (by decide +kernel)
    exact Script.parse_ok_iff_lines.2
      ⟨_, Script.readWith_ok_iff.2 ⟨_, lexes, _, rfl, rfl⟩, rfl⟩
  have second : Script.parse "y" = .ok [.bare (.name "y" ⟨1, 1⟩) ⟨1, 1⟩] := by
    have lexes : Script.Lexes "y\n" [⟨.word, "y", ⟨0, 1, 1⟩⟩, ⟨.newline, "\n", ⟨1, 1, 2⟩⟩] :=
      Script.lexes_iff.2 (by decide +kernel)
    exact Script.parse_ok_iff_lines.2
      ⟨_, Script.readWith_ok_iff.2 ⟨_, lexes, _, rfl, rfl⟩, rfl⟩
  have before : Session.run files {} "x = 1\n" =
      ⟨[.statementReached 1 "AssignStmt"], { globals := [("x", .plain (.int 1))] }, .ok ()⟩ := by
    rw [run_of_parse first]
    rfl
  have after : Session.run files { globals := [("x", .plain (.int 1))] } "y" =
      ⟨[.statementReached 1 "ExprStmt"], { globals := [("x", .plain (.int 1))] },
        .error (unknownIdentifier "y" ⟨1, 1⟩)⟩ := by
    rw [run_of_parse second]
    rfl
  obtain ⟨statements, sequel⟩ := @run_sequel _ files {} "x = 1\n" "y" closed
  refine ⟨closed, (statements _).2 ⟨_, _, first, second, rfl⟩, ?_⟩
  have runs := (sequel _ _ first second).2 (by rw [before])
  dsimp only at runs
  rw [before, after] at runs
  exact runs

end

end Packaging
