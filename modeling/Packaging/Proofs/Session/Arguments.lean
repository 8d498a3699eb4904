import Packaging.Proofs.Bindings
import Packaging.Proofs.Session.Origins

/-! # Arguments of calls
A call gives values to the parameters of a constructor, to the first of them by place and to others
by name. The arguments fit if each of them has a parameter of its own and every parameter without a
default gets a value. Which of the values stand without a name, and in what order the others come,
makes no difference to a call whose arguments fit. Arguments that do not fit are refused by their
number and their names alone, so that nothing is asked of their values and nothing is made. -/

namespace Packaging

open Packaging.Action
open Script (Expr Statement)

/-! ## Slots that get values by name -/

namespace Slots

variable {parameters : List Parameter} {values values' named : Bindings Value}
  {name : Text} {value : Value} {slots : Slots}

/-- The slots of some parameters, with the values under their names. -/
def given (parameters : List Parameter) (values : Bindings Value) : Slots :=
  parameters.map fun p => (p, values.get? p.name)

/-- The slots of parameters are the first one's and those of the others. -/
theorem given_cons (p : Parameter) (parameters : List Parameter) (values : Bindings Value) :
    given (p :: parameters) values = (p, values.get? p.name) :: given parameters values := rfl

/-- Slots depend on the values of their own parameters only. -/
theorem given_congr
    (same : ∀ name ∈ parameters.map (·.name), values.get? name = values'.get? name) :
    given parameters values = given parameters values' := by
  refine List.map_congr_left fun p mem => ?_
  rw [same p.name (List.mem_map_of_mem mem)]

/-- Positional arguments are given under the names of the first parameters. -/
theorem fill_eq_given (distinct : (parameters.map (·.name)).Nodup) (positional : List Value) :
    fill parameters positional =
      given parameters ((parameters.map (·.name)).zip positional) := by
  induction parameters generalizing positional with
  | nil => rfl
  | cons p rest ih =>
    obtain ⟨new, distinct⟩ := List.nodup_cons.1 distinct
    cases positional with
    | nil =>
      rw [fill, ih distinct, List.zip_nil_right, List.zip_nil_right, given_cons, Bindings.get?_nil]
    | cons value positional =>
      rw [fill, ih distinct, List.map_cons, List.zip_cons_cons, given_cons, Bindings.get?_cons,
        if_pos rfl]
      -- The other parameters have other names, and so they do not find the first value.
      congr 1
      refine given_congr fun name mem => ?_
      rw [Bindings.get?_cons, if_neg (ne_of_mem_of_not_mem mem new)]

/-- A named argument is taken if its name is that of a parameter without a value. -/
theorem giveIn_given_eq_ok_iff (distinct : (parameters.map (·.name)).Nodup) :
    giveIn name value (given parameters values) = .ok slots ↔
      name ∈ parameters.map (·.name) ∧ values.get? name = none ∧
        slots = given parameters (values ++ [(name, value)]) := by
  induction parameters generalizing slots with
  | nil => simp [given, giveIn]
  | cons p rest ih =>
    obtain ⟨new, distinct⟩ := List.nodup_cons.1 distinct
    rw [given_cons, given_cons, giveIn.eq_def, List.map_cons, List.mem_cons,
      Bindings.get?_append_singleton]
    dsimp only
    by_cases same : p.name = name
    · subst same
      rw [if_pos rfl, if_pos rfl]
      cases found : Bindings.get? values p.name with
      | some old => simp
      | none =>
        -- The other parameters have other names, and so they keep what they have.
        have others : given rest (values ++ [(p.name, value)]) = given rest values := by
          refine given_congr fun name mem => ?_
          rw [Bindings.get?_append_singleton, if_neg (ne_of_mem_of_not_mem mem new),
            Option.or_none]
        simp [others, eq_comm]
    · rw [if_neg same, if_neg same, Option.or_none, Except.map_eq_ok_iff]
      simp only [ih distinct, Ne.symm same, false_or]
      constructor
      · rintro ⟨_, ⟨mem, free, rfl⟩, rfl⟩
        exact ⟨mem, free, rfl⟩
      · rintro ⟨mem, free, rfl⟩
        exact ⟨_, ⟨mem, free, rfl⟩, rfl⟩

end Slots

/-! ## Arguments that are bound -/

/-- No two parameters have one name, and none has that of the receiver. -/
structure WellNamed (parameters : List Parameter) : Prop where
  distinct : (parameters.map (·.name)).Nodup
  noReceiver : receiverName ∉ parameters.map (·.name)

/-- The parameters of every constructor have different names, none of them the receiver's. -/
theorem Kind.wellNamed_parameters (k : Kind) : WellNamed k.parameters := by
  cases k <;> exact ⟨by decide +kernel, by decide +kernel⟩

/-- What arguments give to parameters, under their names: what is given by place comes first. -/
def assigned (parameters : List Parameter) (positional : List Value) (named : Bindings Value) :
    Bindings Value :=
  (parameters.map (·.name)).zip positional ++ named

/-- Values under the names of parameters, none given twice and none left out that is needed. -/
structure Covers (parameters : List Parameter) (values : Bindings Value) : Prop where
  once : (values.map (·.1)).Nodup
  known : ∀ name ∈ values.map (·.1), name ∈ parameters.map (·.name)
  filled : ∀ p ∈ parameters, p.default = none → p.name ∈ values.map (·.1)

/-- Arguments fit parameters: there are no more positional ones than parameters, a name is that of a
parameter that no positional one is given to, and no parameter is left out that is needed. -/
structure Fits (parameters : List Parameter) (positional : List Value) (named : Bindings Value) :
    Prop where
  few : positional.length ≤ parameters.length
  known : ∀ name ∈ named.map (·.1), name ∈ parameters.map (·.name) ∧
    name ∉ (parameters.take positional.length).map (·.name)
  filled : ∀ p ∈ parameters, p.default = none →
    p.name ∈ (assigned parameters positional named).map (·.1)

section Binding

variable {parameters : List Parameter} {values values' named named' : Bindings Value}
  {positional positional' : List Value} {arguments : Bindings Value} {slots : Slots}

/-- The order in which values are given does not matter to whether they cover the parameters. -/
theorem Covers.of_perm (covers : Covers parameters values) (perm : values'.Perm values) :
    Covers parameters values' := by
  have names : (values'.map (·.1)).Perm (values.map (·.1)) := perm.map _
  refine ⟨names.nodup_iff.2 covers.once, ?_, ?_⟩
  · intro name mem
    exact covers.known name (names.mem_iff.1 mem)
  · intro p mem needed
    exact names.mem_iff.2 (covers.filled p mem needed)

namespace Slots

/-- A named argument is taken by a parameter without a value, and the receiver is none. -/
theorem give_given_eq_ok_iff (wellNamed : WellNamed parameters) {name : Text} {value : Value} :
    (given parameters values).give (name, value) = .ok slots ↔
      name ∈ parameters.map (·.name) ∧ Bindings.get? values name = none ∧
        slots = given parameters (values ++ [(name, value)]) := by
  rw [give]
  by_cases receiver : name = receiverName
  · rw [if_pos receiver, receiver]
    simp [wellNamed.noReceiver]
  · rw [if_neg receiver]
    exact giveIn_given_eq_ok_iff wellNamed.distinct

/-- Named arguments are taken if all of them have a parameter of their own. -/
theorem foldlM_give_eq_ok_iff (wellNamed : WellNamed parameters)
    (once : (values.map (·.1)).Nodup) :
    named.foldlM give (given parameters values) = .ok slots ↔
      ((values ++ named).map (·.1)).Nodup ∧
        (∀ name ∈ named.map (·.1), name ∈ parameters.map (·.name)) ∧
        slots = given parameters (values ++ named) := by
  induction named generalizing values with
  | nil => simp [pure, Except.pure, once, eq_comm]
  | cons argument rest ih =>
    obtain ⟨name, value⟩ := argument
    -- The rest is taken where the first argument is among the values that are there already.
    have behind : values ++ (name, value) :: rest = values ++ [(name, value)] ++ rest := by simp
    rw [List.foldlM_cons, Except.bind_eq_ok_iff, behind, List.map_cons, List.forall_mem_cons]
    constructor
    · rintro ⟨_, taken, others⟩
      obtain ⟨mem, free, rfl⟩ := (give_given_eq_ok_iff wellNamed).1 taken
      have once := (Bindings.nodup_append_singleton_iff value).2 ⟨once, free⟩
      obtain ⟨distinct, known, rfl⟩ := (ih once).1 others
      exact ⟨distinct, ⟨mem, known⟩, rfl⟩
    · rintro ⟨distinct, ⟨mem, known⟩, rfl⟩
      have before : ((values ++ [(name, value)]).map (·.1)).Nodup := by
        rw [List.map_append] at distinct
        exact (List.nodup_append.1 distinct).1
      have free := ((Bindings.nodup_append_singleton_iff value).1 before).2
      exact ⟨_, (give_given_eq_ok_iff wellNamed).2 ⟨mem, free, rfl⟩,
        (ih before).2 ⟨distinct, known, rfl⟩⟩

/-- Nothing is missing exactly if every parameter without a default is given a value. -/
theorem missing_given_isEmpty_iff :
    (given parameters values).missing.isEmpty ↔
      ∀ p ∈ parameters, p.default = none → p.name ∈ values.map (·.1) := by
  rw [List.isEmpty_iff, missing, given, List.map_eq_nil_iff, List.filter_eq_nil_iff,
    List.forall_mem_map]
  refine forall₂_congr fun p _ => ?_
  rw [Bool.and_eq_true, Option.isNone_iff_eq_none, Option.isNone_iff_eq_none,
    Bindings.get?_eq_none_iff_notMem, not_and', not_not]

end Slots

/-- Positional arguments go to the first parameters. -/
theorem map_fst_zip_positional (parameters : List Parameter) (positional : List Value) :
    (((parameters.map (·.name)).zip positional).map (·.1)) =
      (parameters.take positional.length).map (·.name) := by
  induction parameters generalizing positional with
  | nil => simp
  | cons p rest ih =>
    cases positional with
    | nil => simp
    | cons value positional => simp [ih]

/-- Values by place are under the names of the first parameters. -/
theorem names_assigned (parameters : List Parameter) (positional : List Value)
    (named : Bindings Value) :
    (assigned parameters positional named).map (·.1) =
      (parameters.take positional.length).map (·.name) ++ named.map (·.1) := by
  rw [assigned, List.map_append, map_fst_zip_positional]

/-- The first parameters are among all. -/
theorem sublist_positional (parameters : List Parameter) (positional : List Value) :
    ((parameters.take positional.length).map (·.name)).Sublist (parameters.map (·.name)) :=
  (List.take_sublist _ _).map _

/-- Named arguments are accepted behind positional ones exactly if no parameter is given twice and
all their names are parameters'. -/
theorem Slots.foldlM_fill_eq_ok_iff (wellNamed : WellNamed parameters) :
    named.foldlM give (fill parameters positional) = .ok slots ↔
      ((assigned parameters positional named).map (·.1)).Nodup ∧
        (∀ name ∈ named.map (·.1), name ∈ parameters.map (·.name)) ∧
        slots = given parameters (assigned parameters positional named) := by
  rw [fill_eq_given wellNamed.distinct]
  refine foldlM_give_eq_ok_iff wellNamed ?_
  rw [map_fst_zip_positional]
  exact wellNamed.distinct.sublist (sublist_positional parameters positional)

/-- Arguments are bound exactly if they give each parameter one value or none, and none only where
there is a default. -/
theorem bindArguments_eq_ok_iff (wellNamed : WellNamed parameters) :
    bindArguments parameters positional named = .ok arguments ↔
      positional.length ≤ parameters.length ∧
        Covers parameters (assigned parameters positional named) ∧
        arguments = (Slots.given parameters (assigned parameters positional named)).values := by
  rw [bindArguments, Except.bind_eq_ok_iff]
  simp only [Slots.foldlM_fill_eq_ok_iff wellNamed]
  constructor
  · rintro ⟨_, ⟨once, known, rfl⟩, settled⟩
    split at settled
    · cases settled
    next few =>
      split at settled
      next filled =>
        refine ⟨not_lt.1 few, ⟨once, fun name mem => ?_, ?_⟩, (Except.ok.inj settled).symm⟩
        · have first := sublist_positional parameters positional
          rw [names_assigned, List.mem_append] at mem
          exact mem.elim (fun mem => first.subset mem) (known name)
        · exact Slots.missing_given_isEmpty_iff.1 filled
      · cases settled
  · rintro ⟨few, covers, rfl⟩
    refine ⟨_, ⟨covers.once, fun name mem => covers.known name ?_, rfl⟩, ?_⟩
    · rw [names_assigned]
      exact List.mem_append_right _ mem
    · rw [if_neg (not_lt.2 few), if_pos (Slots.missing_given_isEmpty_iff.2 covers.filled)]
      rfl

/-- Arguments with distinct names fit exactly if they give each parameter one value or none, and
none only where there is a default. -/
theorem fits_iff_covers (wellNamed : WellNamed parameters) (distinct : (named.map (·.1)).Nodup) :
    Fits parameters positional named ↔ positional.length ≤ parameters.length ∧
      Covers parameters (assigned parameters positional named) := by
  have first := sublist_positional parameters positional
  constructor
  · rintro ⟨few, known, filled⟩
    refine ⟨few, ?_, ?_, filled⟩
    · rw [names_assigned]
      refine List.nodup_append.2 ⟨wellNamed.distinct.sublist first, distinct, ?_⟩
      rintro name mem _ mem' rfl
      exact (known name mem').2 mem
    · intro name mem
      rw [names_assigned, List.mem_append] at mem
      exact mem.elim (fun mem => first.subset mem) fun mem => (known name mem).1
  · rintro ⟨few, ⟨once, known, filled⟩⟩
    rw [names_assigned] at once known
    refine ⟨few, fun name mem => ⟨known name (List.mem_append_right _ mem), fun mem' => ?_⟩, filled⟩
    exact (List.nodup_append.1 once).2.2 name mem' name mem rfl

/-- Values that are given to parameters in another way are bound to them alike. -/
theorem bindArguments_of_perm (wellNamed : WellNamed parameters)
    (bound : bindArguments parameters positional named = .ok arguments)
    (few : positional'.length ≤ parameters.length)
    (perm : (assigned parameters positional' named').Perm (assigned parameters positional named)) :
    bindArguments parameters positional' named' = .ok arguments := by
  obtain ⟨-, covers, rfl⟩ := (bindArguments_eq_ok_iff wellNamed).1 bound
  refine (bindArguments_eq_ok_iff wellNamed).2 ⟨few, covers.of_perm perm, ?_⟩
  rw [Slots.given_congr fun name _ => Bindings.get?_of_perm perm covers.once]

end Binding

/-! ## Arguments that are refused -/

namespace Slots

variable {parameters : List Parameter} {g : Value → Value} {slots : Slots}

/-- Slots with other values in place of those that were given. -/
def mapValues (g : Value → Value) (slots : Slots) : Slots :=
  slots.map fun (p, given) => (p, given.map g)

/-- To map the values of positional arguments is to map those of their slots. -/
theorem fill_map (parameters : List Parameter) (positional : List Value) :
    fill parameters (positional.map g) = (fill parameters positional).mapValues g := by
  induction parameters generalizing positional with
  | nil => rfl
  | cons p rest ih =>
    cases positional with
    | nil => exact congrArg ((p, none) :: ·) (ih [])
    | cons value positional => exact congrArg ((p, some (g value)) :: ·) (ih positional)

/-- To map a value before it is given is to map it in its slot. -/
theorem giveIn_map (slots : Slots) (name : Text) (value : Value) :
    (slots.mapValues g).giveIn name (g value) = (slots.giveIn name value).map (mapValues g) := by
  induction slots with
  | nil => rfl
  | cons slot rest ih =>
    obtain ⟨p, given⟩ := slot
    show giveIn name (g value) ((p, given.map g) :: mapValues g rest) = _
    rw [giveIn.eq_def, giveIn.eq_def name value]
    dsimp only
    by_cases same : p.name = name
    · rw [if_pos same, if_pos same]
      cases given <;> rfl
    · rw [if_neg same, if_neg same, ih]
      cases giveIn name value rest <;> rfl

/-- Whether named arguments are taken, and how they are refused, does not depend on their values. -/
theorem foldlM_give_map (slots : Slots) (named : Bindings Value) :
    (named.map fun argument => (argument.1, g argument.2)).foldlM give (slots.mapValues g) =
      (named.foldlM give slots).map (mapValues g) := by
  induction named generalizing slots with
  | nil => rfl
  | cons argument rest ih =>
    have first : (slots.mapValues g).give (argument.1, g argument.2) =
        (slots.give argument).map (mapValues g) := by
      rw [give, give]
      split
      · rfl
      · exact giveIn_map slots argument.1 argument.2
    rw [List.map_cons, List.foldlM_cons, List.foldlM_cons, first]
    cases slots.give argument with
    | error fault => rfl
    | ok slots => exact ih slots

/-- What is missing is a matter of which slots have values, not of the values. -/
theorem missing_map (slots : Slots) : (slots.mapValues g).missing = slots.missing := by
  simp [missing, mapValues, List.filter_map, Function.comp_def]

end Slots

/-- Whether arguments are bound, and how they are refused, does not depend on their values. -/
theorem bindArguments_map (g : Value → Value) (parameters : List Parameter)
    (positional : List Value) (named : Bindings Value) :
    (bindArguments parameters (positional.map g)
        (named.map fun argument => (argument.1, g argument.2))).map (fun _ => ()) =
      (bindArguments parameters positional named).map (fun _ => ()) := by
  rw [bindArguments, bindArguments, Slots.fill_map, Slots.foldlM_give_map]
  cases named.foldlM Slots.give (Slots.fill parameters positional) with
  | error fault => rfl
  | ok slots =>
    show Except.map _ (ite _ _ _) = Except.map _ (ite _ _ _)
    rw [List.length_map, Slots.missing_map]
    split
    · rfl
    · split
      · rfl
      · rfl

/-- Arguments are refused by their number and their names alone. -/
theorem bindArguments_eq_error_of_names {parameters : List Parameter}
    {positional positional' : List Value} {named named' : Bindings Value} {fault : BindingFault}
    (refused : bindArguments parameters positional named = .error fault)
    (number : positional'.length = positional.length)
    (names : named'.map (·.1) = named.map (·.1)) :
    bindArguments parameters positional' named' = .error fault := by
  -- With the same value everywhere, both calls have the same arguments.
  have nameless (values : List Value) :
      values.map (fun _ => Value.plain .null) = List.replicate values.length (.plain .null) :=
    List.map_const' ..
  have nameOnly (bindings : Bindings Value) :
      bindings.map (fun argument => (argument.1, Value.plain .null)) =
        (bindings.map (·.1)).map fun name => (name, Value.plain .null) := by
    rw [List.map_map]
    rfl
  have here := bindArguments_map (fun _ => .plain .null) parameters positional named
  have there := bindArguments_map (fun _ => .plain .null) parameters positional' named'
  rw [nameless, nameOnly, number, names, ← nameless, ← nameOnly, here, refused] at there
  exact Except.map_eq_error_iff.1 there.symm

namespace Kind

variable {k : Kind} {positional positional' : List Value} {named named' : Bindings Value}

/-- The arguments of a call are bound exactly if they fit the parameters of the constructor, each of
which gets what it is given, or its default. -/
theorem bindCall_eq_ok_iff {arguments : Bindings Value} (distinct : (named.map (·.1)).Nodup) :
    k.bindCall positional named = .ok arguments ↔ Fits k.parameters positional named ∧
      arguments = (Slots.given k.parameters (assigned k.parameters positional named)).values := by
  rw [bindCall, Except.mapError_eq_ok_iff, bindArguments_eq_ok_iff k.wellNamed_parameters,
    fits_iff_covers k.wellNamed_parameters distinct, and_assoc]

/-- Calls that give the same values to the parameters have the same effect. -/
theorem call_of_perm (distinct : (named.map (·.1)).Nodup)
    (fits : Fits k.parameters positional named) (few : positional'.length ≤ k.parameters.length)
    (perm : (assigned k.parameters positional' named').Perm
      (assigned k.parameters positional named)) :
    k.call positional' named' = k.call positional named := by
  have bound := (bindCall_eq_ok_iff distinct).2 ⟨fits, rfl⟩
  have bound' := bindArguments_of_perm k.wellNamed_parameters
    (Except.mapError_eq_ok_iff.1 bound) few perm
  rw [call, call, bound, bindCall, bound']
  rfl

/-- A call whose arguments do not fit is refused by their number and names, and does nothing. -/
theorem exists_call_eq_error (distinct : (named.map (·.1)).Nodup)
    (misfit : ¬ Fits k.parameters positional named) :
    ∃ message, ∀ positional' named', positional'.length = positional.length →
      named'.map (·.1) = named.map (·.1) → ∀ s,
        k.call positional' named' s = ⟨[], s, .error ⟨.wrongType message, none⟩⟩ := by
  cases bound : bindArguments k.parameters positional named with
  | ok arguments =>
    exact absurd ((bindCall_eq_ok_iff distinct).1 (Except.mapError_eq_ok_iff.2 bound)).1 misfit
  | error fault =>
    refine ⟨Text.concat ["ScriptSession._", k.constructorName, "()", fault.message],
      fun positional' named' number names s => ?_⟩
    rw [call, bindCall, bindArguments_eq_error_of_names bound number names]
    rfl

end Kind

/-! ## Statements that come to a call -/

section Nodes

variable {files : Files} {t : Session} {node : Expr} {failure : Failure}

mutual

/-- Where evaluation comes to a node that fails, it ends, and nothing is done after it. -/
theorem ComesTo.session_of_failsAt {s : Session} (e : Expr) (h : ComesTo files s e t node)
    (fails : FailsAt files t node failure) :
    (evaluate files e s).session = (evaluate files node t).session := by
  cases e with
  | literal value spot =>
    cases h with
    | here => rfl
  | name ident spot =>
    cases h with
    | here => rfl
  | member base attr spot =>
    cases h with
    | here => rfl
    | base inside =>
      rw [evaluate, bind_of_error (inside.value_of_failsAt base fails)]
      exact ComesTo.session_of_failsAt base inside fails
  -- Nothing is evaluated behind a failure, so the session stays as the failing node left it.
  | call func args keywords spot =>
    cases h with
    | here => rfl
    | positional known inside =>
      rw [evaluate, known]
      dsimp only
      rw [bind_of_error (inside.value_of_failsAt args fails)]
      exact ComesToAll.session_of_failsAt args inside fails
    | named known before inside =>
      rw [evaluate, known]
      dsimp only
      rw [session_bind_of_ok before, bind_of_error (inside.value_of_failsAt keywords fails)]
      exact ComesToNamed.session_of_failsAt keywords inside fails
termination_by structural e

/-- Expressions that come to a failing node leave the session as the node does. -/
theorem ComesToAll.session_of_failsAt {s : Session} (es : List Expr)
    (h : ComesToAll files s es t node) (fails : FailsAt files t node failure) :
    (evaluateAll files es s).session = (evaluate files node t).session := by
  cases es with
  | nil => cases h
  | cons e es =>
    rw [evaluateAll]
    cases h with
    | first inside =>
      rw [bind_of_error (inside.value_of_failsAt e fails)]
      exact ComesTo.session_of_failsAt e inside fails
    | rest before inside =>
      rw [session_bind_of_ok before, bind_of_error (inside.value_of_failsAt es fails)]
      exact ComesToAll.session_of_failsAt es inside fails
termination_by structural es

/-- Named expressions that come to a failing node leave the session as the node does. -/
theorem ComesToNamed.session_of_failsAt {s : Session} (es : List (Text × Expr))
    (h : ComesToNamed files s es t node) (fails : FailsAt files t node failure) :
    (evaluateNamed files es s).session = (evaluate files node t).session := by
  cases es with
  | nil => cases h
  | cons e es =>
    obtain ⟨name, e⟩ := e
    rw [evaluateNamed]
    cases h with
    | first inside =>
      rw [bind_of_error (inside.value_of_failsAt e fails)]
      exact ComesTo.session_of_failsAt e inside fails
    | rest before inside =>
      rw [session_bind_of_ok before, bind_of_error (inside.value_of_failsAt es fails)]
      exact ComesToNamed.session_of_failsAt es inside fails
termination_by structural es

end

end Nodes

/-- A statement performed from a session comes to a node of an expression in it, in the session that
is there by then. -/
inductive Script.Statement.Reaches (files : Files) (s : Session) :
    Statement → Session → Expr → Prop
  /-- In the value of an assignment. -/
  | assign {target : Text} {value node : Expr} {spot : Spot} {t : Session}
      (inside : ComesTo files s value t node) : Reaches files s (.assign target value spot) t node
  /-- In what an attribute is written to. -/
  | target {target value node : Expr} {attr : Text} {spot : Spot} {t : Session}
      (inside : ComesTo files s target t node) :
    Reaches files s (.write target attr value spot) t node
  /-- In what is written, after what it is written to has a value. -/
  | written {target value node : Expr} {attr : Text} {spot : Spot} {base : Value} {t : Session}
      (before : (evaluate files target s).value = .ok base)
      (inside : ComesTo files (evaluate files target s).session value t node) :
    Reaches files s (.write target attr value spot) t node
  /-- In an expression that stands alone. -/
  | bare {value node : Expr} {spot : Spot} {t : Session} (inside : ComesTo files s value t node) :
    Reaches files s (.bare value spot) t node

/-- A statement executed from a session comes to a call of a constructor with some values, in the
session in which its arguments have been evaluated. -/
inductive Script.Statement.Calls (files : Files) (s : Session) (statement : Statement) (k : Kind) :
    List Value → Bindings Value → Session → Prop
  /-- At a node with these arguments. -/
  | intro {u : Session} {args : List Expr} {keywords : List (Text × Expr)} {spot : Spot}
      {positional : List Value} {named : Bindings Value}
      (reaches : statement.Reaches files s u (.call k.constructorName args keywords spot))
      (before : (evaluateAll files args u).value = .ok positional)
      (others : (evaluateNamed files keywords (evaluateAll files args u).session).value =
        .ok named) :
    Calls files s statement k positional named
      (evaluateNamed files keywords (evaluateAll files args u).session).session

section Statements

variable {files : Files} {s t : Session} {statement : Statement} {node : Expr} {failure : Failure}

/-- Where a statement comes to a node that fails, it ends with that failure, and nothing is done
after it. -/
theorem perform_of_failsAt (reaches : statement.Reaches files s t node)
    (fails : FailsAt files t node failure) :
    (Session.perform files statement s).value = .error failure ∧
      (Session.perform files statement s).session = (evaluate files node t).session := by
  cases reaches with
  | assign inside =>
    rw [Session.perform, bind_of_error (inside.value_of_failsAt _ fails)]
    exact ⟨rfl, inside.session_of_failsAt _ fails⟩
  | target inside =>
    rw [Session.perform, bind_of_error (inside.value_of_failsAt _ fails)]
    exact ⟨rfl, inside.session_of_failsAt _ fails⟩
  | written before inside =>
    rw [Session.perform, value_bind_of_ok before, session_bind_of_ok before,
      bind_of_error (inside.value_of_failsAt _ fails)]
    exact ⟨rfl, inside.session_of_failsAt _ fails⟩
  | bare inside =>
    rw [Session.perform, bind_of_error (inside.value_of_failsAt _ fails)]
    exact ⟨rfl, inside.session_of_failsAt _ fails⟩

/-- A statement that comes to a call that is refused and does nothing fails as the call does. -/
theorem Script.Statement.Calls.execute_of_refused {k : Kind} {positional : List Value}
    {named : Bindings Value} (calls : statement.Calls files s k positional named t)
    (refused : k.call positional named t = ⟨[], t, .error failure⟩) :
    (Session.execute files statement s).value =
        .error (failure.inScript statement.label statement.spot) ∧
      (Session.execute files statement s).session = t := by
  cases calls with
  | @intro u args keywords spot _ _ reaches before others =>
    have known := Kind.ofConstructorName?_constructorName k
    obtain ⟨value, session⟩ := perform_of_failsAt reaches
      (.call known before others (congrArg Effect.value refused))
    refine ⟨value_execute_eq_error_iff.2 ⟨failure, value, rfl⟩, session.trans ?_⟩
    rw [evaluate, known]
    dsimp only
    rw [session_bind_of_ok before, session_bind_of_ok others, refused]

end Statements

/-- **Calls depend on what each parameter gets.** Arguments with distinct names are bound exactly if
they fit: no more of them stand by place than there are parameters, each name is that of a parameter
that no value by place is given to, never the receiver, and no parameter without a default is left
out. Then each parameter gets what it is given or its default, and the effect of the call is the same
whichever of the values stand by place and in whatever order the others come. Otherwise the call is
refused by the number and names of its arguments, whatever their values, and does nothing; the
statement that comes to it fails as a bad call, with the session as it was before the call. -/
theorem call_depends_on_assignment (k : Kind) (positional : List Value) (named : Bindings Value)
    (distinct : (named.map (·.1)).Nodup) :
    ((∃ arguments, k.bindCall positional named = .ok arguments) ↔
      Fits k.parameters positional named) ∧
    (receiverName ∈ named.map (·.1) → ¬ Fits k.parameters positional named) ∧
    (Fits k.parameters positional named →
      k.bindCall positional named =
        .ok (Slots.given k.parameters (assigned k.parameters positional named)).values ∧
      ∀ positional' named', positional'.length ≤ k.parameters.length →
        (assigned k.parameters positional' named').Perm (assigned k.parameters positional named) →
        ∀ s, k.call positional' named' s = k.call positional named s) ∧
    (¬ Fits k.parameters positional named → ∃ message,
      (∀ positional' named', positional'.length = positional.length →
        named'.map (·.1) = named.map (·.1) →
          ∀ s, k.call positional' named' s = ⟨[], s, .error ⟨.wrongType message, none⟩⟩) ∧
      ∀ files s (statement : Statement) t, statement.Calls files s k positional named t →
        (Session.execute files statement s).value =
          .error ⟨.diagnostic
            { kind := .script (some statement.spot.line) (some statement.spot.column)
              reasonCode := "script-call"
              message := message
              label := some statement.label },
            some (.wrongType message)⟩ ∧
        (Session.execute files statement s).session = t) := by
  refine ⟨?_, fun receiver fits => ?_, fun fits => ⟨?_, ?_⟩, fun misfit => ?_⟩
  · simp only [Kind.bindCall_eq_ok_iff distinct, exists_and_left, exists_eq, and_true]
  -- The receiver is no parameter of any constructor.
  · exact k.wellNamed_parameters.noReceiver (fits.known receiverName receiver).1
  · exact (Kind.bindCall_eq_ok_iff distinct).2 ⟨fits, rfl⟩
  · intro positional' named' few perm s
    rw [Kind.call_of_perm distinct fits few perm]
  · obtain ⟨message, refused⟩ := Kind.exists_call_eq_error distinct misfit
    refine ⟨message, refused, fun files s statement t calls => ?_⟩
    exact calls.execute_of_refused (refused positional named rfl rfl t)

/-- A module is made of the same values by place and by name; an extension module is refused a
receiver. -/
theorem module_called_by_place_and_by_name :
    let name : Value := .plain (.text "m")
    let source : Value := .plain (.text "x = 1")
    let flag : Value := .plain (.bool true)
    let spot : Spot := ⟨1, 1⟩
    (∀ s, Kind.sourceModule.call [] [("is_package", flag), ("source", source), ("name", name)] s =
      Kind.sourceModule.call [name, source] [("is_package", flag)] s) ∧
    ∀ s, ∃ message, (Session.execute (fun _ => .ok []) (.bare (.call
      Kind.extensionModule.constructorName [.literal (.text "e") spot]
        [("self", .literal .null spot)] spot) spot) s).value =
      .error ⟨.diagnostic
        { kind := .script (some 1) (some 1)
          reasonCode := "script-call"
          message := message
          label := some "make_extension_module()" }, some (.wrongType message)⟩ := by
  intro name source flag spot
  constructor
  · have bound := call_depends_on_assignment .sourceModule [name, source] [("is_package", flag)]
      (List.nodup_singleton _)
    refine (bound.2.2.1 (bound.1.1 ⟨_, rfl⟩)).2 _ _ (Nat.zero_le _) ?_
    let values : Bindings Value := [("name", name), ("source", source), ("is_package", flag)]
    exact List.reverse_perm values
  · intro s
    obtain ⟨-, receiver, -, refused⟩ := call_depends_on_assignment .extensionModule
      [.plain (.text "e")] [("self", .plain .null)] (List.nodup_singleton _)
    obtain ⟨message, -, fails⟩ := refused (receiver (List.mem_singleton.2 rfl))
    exact ⟨message, (fails _ s _ _ (.intro (.bare .here) rfl rfl)).1⟩

end Packaging
