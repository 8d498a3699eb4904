import Packaging.Proofs.Script.Positions
import Packaging.Proofs.Session.Failures

/-! # Where failures come from
Evaluation goes through the nodes of an expression from session to session, and it fails exactly if
it comes to a node that fails by itself: a name without a value, a call of something that is no
function, an attribute or a call that is refused. A script fails at the first statement that fails.
What is reported points at that statement, or at the unknown name in it, and keeps all that was said
about the failure; a value that is refused and a text without an encoding are passed on as they
are. -/

namespace Packaging

open Packaging.Action
open Script (Expr Statement)

/-! ## What is reported and what is passed on -/

/-- Whether a fault is passed on by scripts as it is: a value that is not taken, or a text without an
encoding. -/
def Fault.PassesOn : Fault → Prop
  | .invalidValue _ | .encoding _ => True
  | _ => False

/-- Whether a fault is one of the values in a script and not of the script: a diagnostic about
something else than a script, a value of the wrong type, or a fault that is passed on. -/
def Fault.IsInner : Fault → Prop
  | .diagnostic d => ∀ line column, d.kind ≠ .script line column
  | .wrongType _ => True
  | fault => fault.PassesOn

/-- Whether a failure is a diagnostic of a script. -/
def Failure.OfScript (failure : Failure) : Prop :=
  ∃ d line column, failure.fault = .diagnostic d ∧ d.kind = .script line column

/-- Whether a failure is a diagnostic of a script or one that is passed on. -/
def Failure.EndsScript (failure : Failure) : Prop :=
  failure.OfScript ∨ failure.fault.PassesOn

/-- What statements report is a fault of the values if it tells no line of a script. -/
theorem Fault.IsInner.of_reported {fault : Fault} (reported : fault.Reported)
    (lineless : fault.Lineless) : fault.IsInner := by
  cases fault with
  | diagnostic d => exact fun line column => lineless d line column rfl
  | wrongType message => trivial
  | _ => exact reported.elim

/-- The label of a diagnostic, or another one if it has none or an empty one. -/
def Diagnostic.labelOr (d : Diagnostic) (label : Text) : Text :=
  match d.label with
  | none | some [] => label
  | some own => own

/-- How a failure inside an expression is reported at a spot under a label: the diagnostic of an
unknown name stays as it is, another diagnostic and a value of the wrong type become one of the
script that keeps what was said and has the first as its cause, and all else is passed on. -/
inductive Reports (label : Text) (spot : Spot) (unknown : Diagnostic → Prop) :
    Failure → Failure → Prop
  /-- The diagnostic of an unknown name. -/
  | unknown {d : Diagnostic} (meets : unknown d) :
    Reports label spot unknown ⟨.diagnostic d, none⟩ ⟨.diagnostic d, none⟩
  /-- Another diagnostic. -/
  | diagnostic {d : Diagnostic} {cause : Option Fault}
      (other : ∀ line column, d.kind ≠ .script line column) :
    Reports label spot unknown ⟨.diagnostic d, cause⟩
      ⟨.diagnostic
        { kind := .script (some spot.line) (some spot.column)
          reasonCode := "script"
          message := d.message
          label := some (d.labelOr label)
          typeName := d.typeName
          attrName := d.attrName },
        some (.diagnostic d)⟩
  /-- A value of the wrong type. -/
  | wrongType {message : Text} {cause : Option Fault} :
    Reports label spot unknown ⟨.wrongType message, cause⟩
      ⟨.diagnostic
        { kind := .script (some spot.line) (some spot.column)
          reasonCode := "script-call"
          message := message
          label := some label },
        some (.wrongType message)⟩
  /-- A fault that is passed on. -/
  | passed {failure : Failure} (passes : failure.fault.PassesOn) :
    Reports label spot unknown failure failure

/-- Taking a missing label for an empty one comes to the same. -/
theorem Diagnostic.labelOr_eq (d : Diagnostic) (label : Text) :
    (if (d.label.getD []).isEmpty then label else d.label.getD []) = d.labelOr label := by
  rw [labelOr]
  cases d.label with
  | none => rfl
  | some own =>
    cases own with
    | nil => rfl
    | cons c own => rfl

/-- What is of a script already is left alone. -/
theorem Failure.inScript_of_script (label : Text) (spot : Spot) (cause : Option Fault)
    {d : Diagnostic} {line column : Option Int} (h : d.kind = .script line column) :
    Failure.inScript label spot ⟨.diagnostic d, cause⟩ = ⟨.diagnostic d, cause⟩ := by
  rw [Failure.inScript]
  dsimp only
  rw [h]

/-- A failure inside an expression is that of an unknown name, or one of the values. -/
def Failure.UnknownOrInner (unknown : Diagnostic → Prop) (failure : Failure) : Prop :=
  (∃ d, unknown d ∧ failure = ⟨.diagnostic d, none⟩) ∨ failure.fault.IsInner

/-- A failure inside an expression is reported as it should be. -/
theorem Failure.UnknownOrInner.reports {unknown : Diagnostic → Prop} {failure : Failure}
    (h : failure.UnknownOrInner unknown)
    (script : ∀ d, unknown d → ∃ line column, d.kind = .script line column) (label : Text)
    (spot : Spot) : Reports label spot unknown failure (failure.inScript label spot) := by
  rcases h with ⟨d, meets, rfl⟩ | inner
  · obtain ⟨line, column, hkind⟩ := script d meets
    rw [Failure.inScript_of_script label spot none hkind]
    exact .unknown meets
  · obtain ⟨fault, cause⟩ := failure
    cases fault with
    | diagnostic d =>
      have told : Reports label spot unknown ⟨.diagnostic d, cause⟩ _ := .diagnostic inner
      rw [← d.labelOr_eq label] at told
      obtain ⟨kind, reasonCode, message, own, typeName, attrName⟩ := d
      cases kind with
      | script line column => exact absurd rfl (inner line column)
      | _ => exact told
    | wrongType message => exact .wrongType
    | invalidValue message => exact .passed inner
    | encoding fault => exact .passed inner
    | _ => exact inner.elim

/-- If unknown names are in the line of a spot, so is everything that is reported at it. -/
theorem Reports.line {label : Text} {spot : Spot} {unknown : Diagnostic → Prop}
    {inner failure : Failure} (h : Reports label spot unknown inner failure)
    (inLine : ∀ d, unknown d → ∃ column, d.kind = .script (some spot.line) (some column)) :
    ∀ d, failure.fault = .diagnostic d →
      ∃ column, d.kind = .script (some spot.line) (some column) := by
  rintro d hd
  cases h with
  | unknown meets =>
    obtain rfl := Fault.diagnostic.inj hd
    exact inLine _ meets
  | diagnostic other =>
    obtain rfl := Fault.diagnostic.inj hd
    exact ⟨_, rfl⟩
  | wrongType =>
    obtain rfl := Fault.diagnostic.inj hd
    exact ⟨_, rfl⟩
  | passed passes =>
    rw [hd] at passes
    exact passes.elim

/-- What is reported of a statement is a diagnostic of the script, or is passed on. -/
theorem Reports.endsScript {label : Text} {spot : Spot} {unknown : Diagnostic → Prop}
    {inner failure : Failure} (h : Reports label spot unknown inner failure)
    (script : ∀ d, unknown d → ∃ line column, d.kind = .script line column) :
    failure.EndsScript := by
  cases h with
  | unknown meets =>
    obtain ⟨line, column, hkind⟩ := script _ meets
    exact Or.inl ⟨_, line, column, rfl, hkind⟩
  | diagnostic other => exact Or.inl ⟨_, _, _, rfl, rfl⟩
  | wrongType => exact Or.inl ⟨_, _, _, rfl, rfl⟩
  | passed passes => exact Or.inr passes

/-! ## Values that fail -/

/-- What goes wrong while a source is read is a fault of the values. -/
theorem Wrapper.inner_readSource (m : ModuleSource) (files : Files) :
    (readSource m files).ErrsIn fun failure => failure.fault.IsInner := by
  rw [readSource]
  split
  · next fault _ =>
    apply Except.errsIn_error
    -- What the file system reports is told by a diagnostic, and the rest are faults of the path.
    cases fault with
    | nullInPath => trivial
    | unencodablePath fault => trivial
    | _ => rintro line column ⟨⟩
  · split
    · exact Except.errsIn_error (by rintro line column ⟨⟩)
    · exact Except.errsIn_ok _ _

/-- So is what goes wrong while an attribute is read. -/
theorem Wrapper.inner_get (files : Files) (w : Wrapper) (attr : Text) :
    (w.get files attr).ErrsIn fun failure => failure.fault.IsInner :=
  errsIn_get (fun m _ => inner_readSource m files) (fun _ other => other) attr

/-- So is what goes wrong while an attribute is set. -/
theorem Wrapper.inner_set (w : Wrapper) (attr : Text) (new : Value) :
    (w.set attr new).ErrsIn fun failure => failure.fault.IsInner :=
  fun failure h => .of_reported (w.reported_set attr new failure h) (w.lineless_set attr new failure h)

/-- A record is refused a wrapper only for a value that is not taken. -/
theorem Resource.inner_adapt (p : Policy) (record : Record) :
    (Resource.adapt p (.record record)).ErrsIn fun failure => failure.fault.IsInner := by
  rw [adapt]
  split
  · rw [Wrapper.applyPolicy]
    split
    · exact Except.errsIn_ok _ _
    · exact Except.errsIn_error trivial
  · exact Except.errsIn_ok _ _

section Values

variable {files : Files} {s : Session} {failure : Failure}

/-- Reading an attribute fails with a fault of its own, not with one of the script. -/
theorem inner_readAttribute {value : Value} {attr : Text}
    (h : (value.readAttribute files attr s).value = .error failure) : failure.fault.IsInner := by
  rcases readAttribute_eq_error h with rfl | ⟨w, -, refused⟩
  · rintro line column ⟨⟩
  · exact w.inner_get files attr failure refused

/-- Writing an attribute fails with a fault of its own, not with one of the script. -/
theorem inner_writeAttribute {value new : Value} {attr : Text}
    (h : (value.writeAttribute attr new s).value = .error failure) : failure.fault.IsInner := by
  rcases writeAttribute_eq_error h with rfl | ⟨w, refused⟩
  · rintro line column ⟨⟩
  · exact w.inner_set attr new failure refused

/-- A call fails with a fault of its own, not with one of the script. -/
theorem inner_call {k : Kind} {positional : List Value} {named : Bindings Value}
    (h : (k.call positional named s).value = .error failure) : failure.fault.IsInner := by
  rcases call_eq_error h with ⟨fault, made, rfl⟩ | ⟨record, -, refused⟩
  · rcases Except.bind_eq_error_iff.1 made with unbound | ⟨arguments, -, refused⟩
    · obtain ⟨_, -, rfl⟩ := Except.mapError_eq_error_iff.1 unbound
      trivial
    · rcases Kind.construct_eq_error refused with ⟨message, rfl⟩ | ⟨encodeFault, rfl, -⟩
      · trivial
      · trivial
  · exact Resource.inner_adapt s.policy record failure refused

end Values

/-! ## Nodes that fail -/

/-- A node is the use of an unknown name in a session: a name without a value, or the call of
something that is no function. The diagnostic of each is at the spot of the node. -/
inductive Script.Expr.Unknown (s : Session) : Expr → Diagnostic → Prop
  /-- A name without a value. -/
  | name {ident : Text} {spot : Spot} (unbound : Bindings.get? s.globals ident = none) :
    Unknown s (.name ident spot) (unknownIdentifier ident spot)
  /-- A call of something that is no function. -/
  | call {func : Text} {args : List Expr} {keywords : List (Text × Expr)} {spot : Spot}
      (undefined : Kind.ofConstructorName? func = none) :
    Unknown s (.call func args keywords spot) (unknownFunction func spot)

/-- What is told of an unknown name, at the spot of the node. -/
theorem Script.Expr.Unknown.told {s : Session} {node : Expr} {d : Diagnostic}
    (h : node.Unknown s d) :
    d.kind = .script (some node.spot.line) (some node.spot.column) ∧
      d.reasonCode = "script-name" := by
  cases h with
  | name => exact ⟨rfl, rfl⟩
  | call => exact ⟨rfl, rfl⟩

/-- A node fails by itself when evaluated from a session, all that it is made of having values. -/
inductive FailsAt (files : Files) (s : Session) : Expr → Failure → Prop
  /-- By an unknown name. -/
  | unknown {node : Expr} {d : Diagnostic} (meets : node.Unknown s d) :
    FailsAt files s node ⟨.diagnostic d, none⟩
  /-- By an attribute that cannot be read. -/
  | member {base : Expr} {attr : Text} {spot : Spot} {value : Value} {failure : Failure}
      (before : (evaluate files base s).value = .ok value)
      (refused : (value.readAttribute files attr (evaluate files base s).session).value =
        .error failure) :
    FailsAt files s (.member base attr spot) failure
  /-- By a call that is refused. -/
  | call {func : Text} {k : Kind} {args : List Expr} {keywords : List (Text × Expr)} {spot : Spot}
      {positional : List Value} {named : Bindings Value} {failure : Failure}
      (known : Kind.ofConstructorName? func = some k)
      (before : (evaluateAll files args s).value = .ok positional)
      (others : (evaluateNamed files keywords (evaluateAll files args s).session).value = .ok named)
      (refused : (k.call positional named
        (evaluateNamed files keywords (evaluateAll files args s).session).session).value =
        .error failure) :
    FailsAt files s (.call func args keywords spot) failure

/-- A node fails because it is unknown or with a fault of its own. -/
theorem FailsAt.unknownOrInner {files : Files} {s : Session} {node : Expr} {failure : Failure}
    (h : FailsAt files s node failure) : failure.UnknownOrInner (node.Unknown s) := by
  cases h with
  | unknown meets => exact Or.inl ⟨_, meets, rfl⟩
  | member before refused => exact Or.inr (inner_readAttribute refused)
  | call known before others refused => exact Or.inr (inner_call refused)

mutual

/-- The evaluation of an expression from a session comes to a node in it, in the session that is
there by then. -/
inductive ComesTo (files : Files) : Session → Expr → Session → Expr → Prop
  /-- The expression itself. -/
  | here {s : Session} {e : Expr} : ComesTo files s e s e
  /-- In the base of an attribute. -/
  | base {s t : Session} {base node : Expr} {attr : Text} {spot : Spot}
      (inside : ComesTo files s base t node) : ComesTo files s (.member base attr spot) t node
  /-- In an argument without a name. -/
  | positional {s t : Session} {func : Text} {k : Kind} {args : List Expr}
      {keywords : List (Text × Expr)} {spot : Spot} {node : Expr}
      (known : Kind.ofConstructorName? func = some k) (inside : ComesToAll files s args t node) :
    ComesTo files s (.call func args keywords spot) t node
  /-- In an argument with a name, those without a name having values. -/
  | named {s t : Session} {func : Text} {k : Kind} {args : List Expr}
      {keywords : List (Text × Expr)} {spot : Spot} {positional : List Value} {node : Expr}
      (known : Kind.ofConstructorName? func = some k)
      (before : (evaluateAll files args s).value = .ok positional)
      (inside : ComesToNamed files (evaluateAll files args s).session keywords t node) :
    ComesTo files s (.call func args keywords spot) t node

/-- The evaluation of some expressions one after the other comes to a node. -/
inductive ComesToAll (files : Files) : Session → List Expr → Session → Expr → Prop
  /-- In the first. -/
  | first {s t : Session} {e node : Expr} {es : List Expr} (inside : ComesTo files s e t node) :
    ComesToAll files s (e :: es) t node
  /-- In one after the first, which has a value. -/
  | rest {s t : Session} {e node : Expr} {es : List Expr} {value : Value}
      (before : (evaluate files e s).value = .ok value)
      (inside : ComesToAll files (evaluate files e s).session es t node) :
    ComesToAll files s (e :: es) t node

/-- The evaluation of some named expressions one after the other comes to a node. -/
inductive ComesToNamed (files : Files) : Session → List (Text × Expr) → Session → Expr → Prop
  /-- In the first. -/
  | first {s t : Session} {name : Text} {e node : Expr} {es : List (Text × Expr)}
      (inside : ComesTo files s e t node) : ComesToNamed files s ((name, e) :: es) t node
  /-- In one after the first, which has a value. -/
  | rest {s t : Session} {name : Text} {e node : Expr} {es : List (Text × Expr)} {value : Value}
      (before : (evaluate files e s).value = .ok value)
      (inside : ComesToNamed files (evaluate files e s).session es t node) :
    ComesToNamed files s ((name, e) :: es) t node

end

section Nodes

variable {files : Files} {t : Session} {node : Expr}

mutual

/-- Evaluation comes to nothing but nodes of the expression. -/
theorem ComesTo.mem_nodes {s : Session} (e : Expr) (h : ComesTo files s e t node) :
    node ∈ e.nodes := by
  cases e with
  | literal value spot =>
    cases h with
    | here => exact List.mem_singleton.2 rfl
  | name ident spot =>
    cases h with
    | here => exact List.mem_singleton.2 rfl
  | member base attr spot =>
    rw [Expr.nodes]
    cases h with
    | here => exact List.mem_cons_self
    | base inside => exact List.mem_cons_of_mem _ (ComesTo.mem_nodes base inside)
  | call func args keywords spot =>
    rw [Expr.nodes]
    cases h with
    | here => exact List.mem_cons_self
    | positional known inside =>
      exact List.mem_cons_of_mem _ (List.mem_append_left _ (ComesToAll.mem_nodes args inside))
    | named known before inside =>
      exact List.mem_cons_of_mem _ (List.mem_append_right _ (ComesToNamed.mem_nodes keywords inside))
termination_by structural e

/-- What expressions come to is one of their nodes. -/
theorem ComesToAll.mem_nodes {s : Session} (es : List Expr) (h : ComesToAll files s es t node) :
    node ∈ Expr.nodesAll es := by
  cases es with
  | nil => cases h
  | cons e es =>
    rw [Expr.nodesAll]
    cases h with
    | first inside => exact List.mem_append_left _ (ComesTo.mem_nodes e inside)
    | rest before inside => exact List.mem_append_right _ (ComesToAll.mem_nodes es inside)
termination_by structural es

/-- What named expressions come to is one of their nodes. -/
theorem ComesToNamed.mem_nodes {s : Session} (es : List (Text × Expr))
    (h : ComesToNamed files s es t node) : node ∈ Expr.nodesNamed es := by
  cases es with
  | nil => cases h
  | cons e es =>
    obtain ⟨name, e⟩ := e
    rw [Expr.nodesNamed]
    cases h with
    | first inside => exact List.mem_append_left _ (ComesTo.mem_nodes e inside)
    | rest before inside => exact List.mem_append_right _ (ComesToNamed.mem_nodes es inside)
termination_by structural es

end

/-- A node that fails by itself fails when it is evaluated. -/
theorem FailsAt.value_evaluate {s : Session} {failure : Failure}
    (h : FailsAt files s node failure) : (evaluate files node s).value = .error failure := by
  cases h with
  | unknown meets =>
    cases meets with
    | @name ident spot unbound =>
      rw [evaluate, lookUp, bind_current, unbound]
      rfl
    | call undefined =>
      rw [evaluate, undefined]
      rfl
  | member before refused => rw [evaluate, value_bind_of_ok before, refused]
  | call known before others refused =>
    rw [evaluate, known]
    dsimp only
    rw [value_bind_of_ok before, value_bind_of_ok others, refused]

mutual

/-- Where evaluation comes to a node that fails, all of it fails. -/
theorem ComesTo.value_of_failsAt {s : Session} (e : Expr) {failure : Failure}
    (h : ComesTo files s e t node) (fails : FailsAt files t node failure) :
    (evaluate files e s).value = .error failure := by
  cases e with
  | literal value spot =>
    cases h with
    | here => exact fails.value_evaluate
  | name ident spot =>
    cases h with
    | here => exact fails.value_evaluate
  | member base attr spot =>
    cases h with
    | here => exact fails.value_evaluate
    | base inside => rw [evaluate, bind_of_error (ComesTo.value_of_failsAt base inside fails)]
  | call func args keywords spot =>
    cases h with
    | here => exact fails.value_evaluate
    | positional known inside =>
      rw [evaluate, known]
      dsimp only
      rw [bind_of_error (ComesToAll.value_of_failsAt args inside fails)]
    | named known before inside =>
      rw [evaluate, known]
      dsimp only
      rw [value_bind_of_ok before,
        bind_of_error (ComesToNamed.value_of_failsAt keywords inside fails)]
termination_by structural e

/-- Expressions that come to a failing node fail as the node does. -/
theorem ComesToAll.value_of_failsAt {s : Session} (es : List Expr) {failure : Failure}
    (h : ComesToAll files s es t node) (fails : FailsAt files t node failure) :
    (evaluateAll files es s).value = .error failure := by
  cases es with
  | nil => cases h
  | cons e es =>
    rw [evaluateAll]
    cases h with
    | first inside => rw [bind_of_error (ComesTo.value_of_failsAt e inside fails)]
    | rest before inside =>
      rw [value_bind_of_ok before, bind_of_error (ComesToAll.value_of_failsAt es inside fails)]
termination_by structural es

/-- Named expressions that come to a failing node fail as the node does. -/
theorem ComesToNamed.value_of_failsAt {s : Session} (es : List (Text × Expr)) {failure : Failure}
    (h : ComesToNamed files s es t node) (fails : FailsAt files t node failure) :
    (evaluateNamed files es s).value = .error failure := by
  cases es with
  | nil => cases h
  | cons e es =>
    obtain ⟨name, e⟩ := e
    rw [evaluateNamed]
    cases h with
    | first inside => rw [bind_of_error (ComesTo.value_of_failsAt e inside fails)]
    | rest before inside =>
      rw [value_bind_of_ok before, bind_of_error (ComesToNamed.value_of_failsAt es inside fails)]
termination_by structural es

end

end Nodes

section Evaluation

variable {files : Files} {failure : Failure}

mutual

/-- What evaluation fails with is the failure of a node that it comes to. -/
theorem exists_failsAt_of_evaluate {s : Session} (e : Expr)
    (h : (evaluate files e s).value = .error failure) :
    ∃ t node, ComesTo files s e t node ∧ FailsAt files t node failure := by
  cases e with
  | literal value spot =>
    rw [evaluate] at h
    cases h
  | name ident spot =>
    rw [evaluate, lookUp, bind_current] at h
    cases found : Bindings.get? s.globals ident with
    | none =>
      rw [found] at h
      obtain rfl := Except.error.inj h
      exact ⟨s, _, .here, .unknown (.name found)⟩
    | some value =>
      rw [found] at h
      cases h
  | member base attr spot =>
    rw [evaluate] at h
    rcases value_bind_eq_error_iff.1 h with fails | ⟨value, before, refused⟩
    · obtain ⟨t, node, inside, fails⟩ := exists_failsAt_of_evaluate base fails
      exact ⟨t, node, .base inside, fails⟩
    · exact ⟨s, _, .here, .member before refused⟩
  | call func args keywords spot =>
    rw [evaluate] at h
    cases known : Kind.ofConstructorName? func with
    | none =>
      rw [known] at h
      obtain rfl := Except.error.inj h
      exact ⟨s, _, .here, .unknown (.call known)⟩
    | some k =>
      rw [known] at h
      dsimp only at h
      -- A part fails, positional ones first, or all parts have values and the call itself fails.
      rcases value_bind_eq_error_iff.1 h with fails | ⟨positional, before, h⟩
      · obtain ⟨t, node, inside, fails⟩ := exists_failsAt_of_evaluateAll args fails
        exact ⟨t, node, .positional known inside, fails⟩
      rcases value_bind_eq_error_iff.1 h with fails | ⟨named, others, refused⟩
      · obtain ⟨t, node, inside, fails⟩ := exists_failsAt_of_evaluateNamed keywords fails
        exact ⟨t, node, .named known before inside, fails⟩
      · exact ⟨s, _, .here, .call known before others refused⟩
termination_by structural e

/-- Expressions that fail come to a node that fails so. -/
theorem exists_failsAt_of_evaluateAll {s : Session} (es : List Expr)
    (h : (evaluateAll files es s).value = .error failure) :
    ∃ t node, ComesToAll files s es t node ∧ FailsAt files t node failure := by
  cases es with
  | nil =>
    rw [evaluateAll] at h
    cases h
  | cons e es =>
    rw [evaluateAll] at h
    rcases value_bind_eq_error_iff.1 h with fails | ⟨value, before, h⟩
    · obtain ⟨t, node, inside, fails⟩ := exists_failsAt_of_evaluate e fails
      exact ⟨t, node, .first inside, fails⟩
    rcases value_bind_eq_error_iff.1 h with fails | ⟨values, -, h⟩
    · obtain ⟨t, node, inside, fails⟩ := exists_failsAt_of_evaluateAll es fails
      exact ⟨t, node, .rest before inside, fails⟩
    · cases h
termination_by structural es

/-- Named expressions that fail come to a node that fails so. -/
theorem exists_failsAt_of_evaluateNamed {s : Session} (es : List (Text × Expr))
    (h : (evaluateNamed files es s).value = .error failure) :
    ∃ t node, ComesToNamed files s es t node ∧ FailsAt files t node failure := by
  cases es with
  | nil =>
    rw [evaluateNamed] at h
    cases h
  | cons e es =>
    obtain ⟨name, e⟩ := e
    rw [evaluateNamed] at h
    rcases value_bind_eq_error_iff.1 h with fails | ⟨value, before, h⟩
    · obtain ⟨t, node, inside, fails⟩ := exists_failsAt_of_evaluate e fails
      exact ⟨t, node, .first inside, fails⟩
    rcases value_bind_eq_error_iff.1 h with fails | ⟨values, -, h⟩
    · obtain ⟨t, node, inside, fails⟩ := exists_failsAt_of_evaluateNamed es fails
      exact ⟨t, node, .rest before inside, fails⟩
    · cases h
termination_by structural es

end

/-- **Where an evaluation fails.** It fails exactly if it comes to a node of the expression that
fails by itself, all before that node having values; and the failure is that of the node. -/
theorem evaluate_eq_error_iff {s : Session} {e : Expr} :
    (evaluate files e s).value = .error failure ↔
      ∃ t node, ComesTo files s e t node ∧ FailsAt files t node failure := by
  constructor
  · exact exists_failsAt_of_evaluate e
  · rintro ⟨t, node, comes, fails⟩
    exact comes.value_of_failsAt e fails

end Evaluation

/-! ## Expressions that fail -/

/-- The evaluation of an expression from a session comes to an unknown name. -/
def Script.Expr.MeetsUnknown (files : Files) (s : Session) (e : Expr) (d : Diagnostic) : Prop :=
  ∃ t node, ComesTo files s e t node ∧ node.Unknown t d

namespace Script.Expr.MeetsUnknown

variable {files : Files} {s : Session} {e : Expr} {d : Diagnostic}

/-- An expression that meets an unknown name fails for it. -/
theorem value_evaluate (h : e.MeetsUnknown files s d) :
    (evaluate files e s).value = .error ⟨.diagnostic d, none⟩ := by
  obtain ⟨t, node, comes, meets⟩ := h
  exact evaluate_eq_error_iff.2 ⟨t, node, comes, .unknown meets⟩

/-- A diagnostic about an unknown name comes from a script. -/
theorem script (h : e.MeetsUnknown files s d) : ∃ line column, d.kind = .script line column := by
  obtain ⟨t, node, -, meets⟩ := h
  exact ⟨_, _, meets.told.1⟩

/-- What is told of an unknown name points at the name. -/
theorem told (h : e.MeetsUnknown files s d) :
    ∃ node ∈ e.nodes, d.kind = .script (some node.spot.line) (some node.spot.column) ∧
      d.reasonCode = "script-name" := by
  obtain ⟨t, node, comes, meets⟩ := h
  exact ⟨node, comes.mem_nodes e, meets.told⟩

end Script.Expr.MeetsUnknown

/-- An evaluation fails by an unknown name that it comes to, or with a failure of the values. -/
theorem unknownOrInner_evaluate {files : Files} {s : Session} {e : Expr} {failure : Failure}
    (h : (evaluate files e s).value = .error failure) :
    failure.UnknownOrInner (e.MeetsUnknown files s) := by
  obtain ⟨t, node, comes, fails⟩ := evaluate_eq_error_iff.1 h
  rcases fails.unknownOrInner with ⟨d, meets, rfl⟩ | inner
  · exact Or.inl ⟨d, ⟨t, node, comes, meets⟩, rfl⟩
  · exact Or.inr inner

/-- A failure for something unknown or of an inner fault is so if more is unknown. -/
theorem Failure.UnknownOrInner.mono {unknown unknown' : Diagnostic → Prop} {failure : Failure}
    (h : failure.UnknownOrInner unknown) (sub : ∀ d, unknown d → unknown' d) :
    failure.UnknownOrInner unknown' := by
  rcases h with ⟨d, meets, rfl⟩ | inner
  · exact Or.inl ⟨d, sub d meets, rfl⟩
  · exact Or.inr inner

/-! ## Statements that fail -/

/-- A statement executed from a session comes to an unknown name. -/
inductive Script.Statement.MeetsUnknown (files : Files) (s : Session) :
    Statement → Diagnostic → Prop
  /-- In the value of an assignment. -/
  | assign {target : Text} {value : Expr} {spot : Spot} {d : Diagnostic}
      (inside : value.MeetsUnknown files s d) : MeetsUnknown files s (.assign target value spot) d
  /-- In what an attribute is written to. -/
  | target {target value : Expr} {attr : Text} {spot : Spot} {d : Diagnostic}
      (inside : target.MeetsUnknown files s d) :
    MeetsUnknown files s (.write target attr value spot) d
  /-- In what is written, after what it is written to has a value. -/
  | written {target value : Expr} {attr : Text} {spot : Spot} {base : Value} {d : Diagnostic}
      (before : (evaluate files target s).value = .ok base)
      (inside : value.MeetsUnknown files (evaluate files target s).session d) :
    MeetsUnknown files s (.write target attr value spot) d
  /-- In an expression that stands alone. -/
  | bare {value : Expr} {spot : Spot} {d : Diagnostic} (inside : value.MeetsUnknown files s d) :
    MeetsUnknown files s (.bare value spot) d

section Statements

variable {files : Files} {s : Session} {statement : Statement} {failure : Failure}
  {d : Diagnostic}

/-- An unknown name is told at a node of the statement that meets it. -/
theorem Script.Statement.MeetsUnknown.told (h : statement.MeetsUnknown files s d) :
    ∃ node ∈ statement.nodes, d.kind = .script (some node.spot.line) (some node.spot.column) ∧
      d.reasonCode = "script-name" := by
  cases h with
  | assign inside => exact inside.told
  | target inside =>
    obtain ⟨node, mem, told⟩ := inside.told
    exact ⟨node, List.mem_append_left _ mem, told⟩
  | written before inside =>
    obtain ⟨node, mem, told⟩ := inside.told
    exact ⟨node, List.mem_append_right _ mem, told⟩
  | bare inside => exact inside.told

/-- A diagnostic about an unknown name in a statement comes from a script. -/
theorem Script.Statement.MeetsUnknown.script (d : Diagnostic)
    (h : statement.MeetsUnknown files s d) : ∃ line column, d.kind = .script line column := by
  obtain ⟨node, -, hkind, -⟩ := h.told
  exact ⟨_, _, hkind⟩

/-- Performing a statement that meets an unknown name fails for it. -/
theorem value_perform_of_meetsUnknown (h : statement.MeetsUnknown files s d) :
    (Session.perform files statement s).value = .error ⟨.diagnostic d, none⟩ := by
  cases h with
  | assign inside => rw [Session.perform, bind_of_error inside.value_evaluate]
  | target inside => rw [Session.perform, bind_of_error inside.value_evaluate]
  | written before inside =>
    rw [Session.perform, value_bind_of_ok before, bind_of_error inside.value_evaluate]
  | bare inside => rw [Session.perform, bind_of_error inside.value_evaluate]

/-- A statement fails by an unknown name that it comes to, or with a failure of the values. -/
theorem unknownOrInner_perform (h : (Session.perform files statement s).value = .error failure) :
    failure.UnknownOrInner (statement.MeetsUnknown files s) := by
  cases statement with
  | assign target value spot =>
    rcases value_bind_eq_error_iff.1 h with inside | ⟨_, -, bound⟩
    · exact (unknownOrInner_evaluate inside).mono fun d => .assign
    · cases bound
  | write target attr value spot =>
    rcases value_bind_eq_error_iff.1 h with inside | ⟨base, before, h⟩
    · exact (unknownOrInner_evaluate inside).mono fun d => .target
    rcases value_bind_eq_error_iff.1 h with inside | ⟨new, -, refused⟩
    · exact (unknownOrInner_evaluate inside).mono fun d => .written before
    · exact Or.inr (inner_writeAttribute refused)
  | bare value spot =>
    rcases value_bind_eq_error_iff.1 h with inside | ⟨_, -, done⟩
    · exact (unknownOrInner_evaluate inside).mono fun d => .bare
    · cases done

/-- A statement that fails is reported as it should be. -/
theorem reports_perform (h : (Session.perform files statement s).value = .error failure) :
    Reports statement.label statement.spot (statement.MeetsUnknown files s) failure
      (failure.inScript statement.label statement.spot) :=
  (unknownOrInner_perform h).reports (fun d => Script.Statement.MeetsUnknown.script d) _ _

/-- Executing a statement fails exactly if performing it does, with the failure told as one of the
statement. -/
theorem value_execute_eq_error_iff :
    (Session.execute files statement s).value = .error failure ↔
      ∃ inner, (Session.perform files statement s).value = .error inner ∧
        failure = inner.inScript statement.label statement.spot :=
  Except.mapError_eq_error_iff

end Statements

/-! ## Scripts that fail -/

/-- A statement is the first of some statements that fails, in the session that those before it
lead to, and this is what it fails with. -/
structure FailsFirst (files : Files) (s : Session) (statements pre : List Statement)
    (statement : Statement) (t : Session) (inner : Failure) : Prop where
  /-- It is one of the statements. -/
  among : ∃ post, statements = pre ++ statement :: post
  /-- Those before it succeed. -/
  before : Executed files s pre t
  /-- It fails. -/
  fails : (Session.perform files statement t).value = .error inner

/-- What is told of a statement of a text that fails, in a session, with a failure: it points at the
statement, which is in a line of its own, below those before it. -/
structure PointsAt [CharacterNames] (files : Files) (source : Text) (pre : List Statement)
    (statement : Statement) (t : Session) (inner failure : Failure) : Prop where
  /-- The statement stands in the text at its first lexeme. -/
  located : ∃ stmt : Script.Derivation.Stmt, stmt.LocatedIn source statement
  /-- The statements before it are in lines before its own. -/
  below : ∀ earlier ∈ pre, earlier.spot.line < statement.spot.line
  /-- If it is told by a diagnostic, that is one of the script and tells the line of the
  statement. -/
  line : ∀ d, failure.fault = .diagnostic d →
    ∃ column, d.kind = .script (some statement.spot.line) (some column)
  /-- All that was said is kept. -/
  reports : Reports statement.label statement.spot (statement.MeetsUnknown files t) inner failure

section Scripts

variable {files : Files} {s t : Session} {statements pre : List Statement} {statement : Statement}
  {inner failure : Failure}

/-- A script fails with the failure of its first statement that fails. -/
theorem FailsFirst.value_executeAll (h : FailsFirst files s statements pre statement t inner) :
    (Session.executeAll files statements s).value =
      .error (inner.inScript statement.label statement.spot) := by
  obtain ⟨post, rfl⟩ := h.among
  rw [h.before.executeAll_of_fails (value_execute_eq_error_iff.2 ⟨inner, h.fails, rfl⟩)]

/-- Statements that fail have a first one that fails. -/
theorem exists_failsFirst (h : (Session.executeAll files statements s).value = .error failure) :
    ∃ pre statement t inner, FailsFirst files s statements pre statement t inner ∧
      failure = inner.inScript statement.label statement.spot := by
  rcases executed_or_exists_fails files s statements with
    ⟨t, executed⟩ | ⟨pre, statement, post, t, first, rfl, executed, fails⟩
  · rw [(Executed.iff_executeAll.1 executed).1] at h
    cases h
  · rw [executed.executeAll_of_fails fails] at h
    obtain ⟨inner, hinner, rfl⟩ := value_execute_eq_error_iff.1 fails
    exact ⟨pre, statement, t, inner, ⟨⟨post, rfl⟩, executed, hinner⟩, (Except.error.inj h).symm⟩

/-- The first statement of an accepted script that fails is pointed at. -/
theorem FailsFirst.pointsAt [CharacterNames] {source : Text}
    (parsed : Script.parse source = .ok statements)
    (h : FailsFirst files s statements pre statement t inner) :
    PointsAt files source pre statement t inner
      (inner.inScript statement.label statement.spot) := by
  obtain ⟨program, -, -, located⟩ := Script.exists_locatedIn_of_parse parsed
  obtain ⟨post, rfl⟩ := h.among
  obtain ⟨stmt, -, here⟩ :=
    Script.Derivation.exists_of_mem_right located.located
      (List.mem_append_right pre List.mem_cons_self)
  have reports := reports_perform h.fails
  refine ⟨⟨stmt, here⟩, ?_, reports.line ?_, reports⟩
  · intro earlier mem
    exact (List.pairwise_append.1 located.increasing).2.2 earlier mem statement List.mem_cons_self
  · intro d meets
    obtain ⟨node, mem, told, -⟩ := meets.told
    rw [told, (here.parts node mem).1]
    exact ⟨_, rfl⟩

/-- What ends a script that is not read is a diagnostic of it, or a numeral with too many digits. -/
theorem Script.SourceFault.endsScript (fault : Script.SourceFault) :
    fault.failure.EndsScript := by
  cases fault with
  | unexpected excerpt spot => exact Or.inl ⟨_, _, _, rfl, rfl⟩
  | violation v =>
    cases v with
    | tooLong fault => exact Or.inr trivial
    | _ => exact Or.inl ⟨_, _, _, rfl, rfl⟩

variable [CharacterNames]

/-- Nothing but diagnostics of scripts, refused values and texts without an encoding ends a
script. -/
theorem endsScript_of_run {source : Text} (h : (s.run files source).value = .error failure) :
    failure.EndsScript := by
  cases parsed : Script.parse source with
  | error fault =>
    rw [Session.run, parsed] at h
    obtain rfl := Except.error.inj h
    exact fault.endsScript
  | ok statements =>
    rw [run_of_parse parsed] at h
    obtain ⟨pre, statement, t, inner, first, rfl⟩ := exists_failsFirst h
    exact (reports_perform first.fails).endsScript fun d => Script.Statement.MeetsUnknown.script d

/-- An expression that is evaluated by itself is reported at its own spot. -/
theorem reports_eval {source : Text} {e : Expr} (parsed : Script.parseExpr source = .ok e)
    (h : (s.eval files source).value = .error failure) :
    ∃ inner, (evaluate files e s).value = .error inner ∧
      Reports e.label e.spot (e.MeetsUnknown files s) inner failure := by
  rw [Session.eval, parsed] at h
  obtain ⟨inner, hinner, rfl⟩ := Except.mapError_eq_error_iff.1 h
  refine ⟨inner, hinner, (unknownOrInner_evaluate hinner).reports ?_ _ _⟩
  exact fun d => Script.Expr.MeetsUnknown.script

/-- A failing evaluation ends as a script does. -/
theorem endsScript_of_eval {source : Text} (h : (s.eval files source).value = .error failure) :
    failure.EndsScript := by
  cases parsed : Script.parseExpr source with
  | error fault =>
    rw [Session.eval, parsed] at h
    obtain rfl := Except.error.inj h
    exact fault.endsScript
  | ok e =>
    obtain ⟨inner, -, reports⟩ := reports_eval parsed h
    exact reports.endsScript fun d => Script.Expr.MeetsUnknown.script

end Scripts

/-- **Failures point at the failing statement and keep what was said.** From whatever session an
accepted script is run, it fails exactly if one of its statements does; what is told then points at
the first that does. It is in the line in which the statement stands, statements before it being
further up, and it keeps message, type, attribute, label and cause of what went wrong. If the
statement comes to an unknown name or function, that is told at the name and has no cause. An
expression evaluated by itself is reported in the same way. Whatever the text, nothing but
diagnostics of the script, refused values and texts without an encoding escapes. -/
theorem run_points_at_first_failure [CharacterNames] (files : Files) (s : Session) (source : Text) :
    (∀ statements, Script.parse source = .ok statements →
      (∀ failure, (s.run files source).value = .error failure ↔
        ∃ pre statement t inner, FailsFirst files s statements pre statement t inner ∧
          failure = inner.inScript statement.label statement.spot) ∧
      ∀ pre statement t inner, FailsFirst files s statements pre statement t inner →
        PointsAt files source pre statement t inner
          (inner.inScript statement.label statement.spot) ∧
        ∀ d, statement.MeetsUnknown files t d →
          (s.run files source).value = .error ⟨.diagnostic d, none⟩ ∧
            d.reasonCode = "script-name" ∧ ∃ node ∈ statement.nodes,
              d.kind = .script (some statement.spot.line) (some node.spot.column)) ∧
    (∀ e, Script.parseExpr source = .ok e → ∀ failure,
      (s.eval files source).value = .error failure →
        ∃ inner, (evaluate files e s).value = .error inner ∧
          Reports e.label e.spot (e.MeetsUnknown files s) inner failure) ∧
    ∀ failure, (s.run files source).value = .error failure ∨
      (s.eval files source).value = .error failure → failure.EndsScript := by
  refine ⟨fun statements parsed => ?_, fun e parsed failure => reports_eval parsed, ?_⟩
  · rw [run_of_parse parsed]
    refine ⟨fun failure => ⟨exists_failsFirst, ?_⟩, ?_⟩
    · rintro ⟨pre, statement, t, inner, first, rfl⟩
      exact first.value_executeAll
    · intro pre statement t inner first
      have points := first.pointsAt parsed
      refine ⟨points, fun d meets => ?_⟩
      -- The statement fails in one way only, and so with the diagnostic of the unknown name.
      obtain rfl := Except.error.inj (first.fails.symm.trans (value_perform_of_meetsUnknown meets))
      obtain ⟨node, mem, hkind, code⟩ := meets.told
      obtain ⟨stmt, located⟩ := points.located
      rw [first.value_executeAll, Failure.inScript_of_script _ _ none hkind]
      refine ⟨rfl, code, node, mem, ?_⟩
      rw [hkind, (located.parts node mem).1]
  · rintro failure (h | h)
    · exact endsScript_of_run h
    · exact endsScript_of_eval h

end Packaging
