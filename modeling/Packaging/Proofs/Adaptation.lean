import Packaging.Proofs.Session.Constructors

/-! # Adapting many resources
Whether a resource is compatible is asked before it is adapted, and the two questions are answered
alike: no compatible resource is ever refused as one that should not have been asked for. Resources
of a kind without contexts never look at the policy, so a policy with places that are not explicit
fails exactly with the first resource that needs a context. -/

namespace Packaging

/-- Whether a result is the failure of a caller that did not keep its part of a contract. -/
def BreaksContract {α : Type} (result : Except Failure α) : Prop :=
  ∃ message cause, result = .error ⟨.precondition message, cause⟩

/-- A result breaks no contract. -/
theorem not_breaksContract_ok {α : Type} (a : α) :
    ¬ BreaksContract (.ok a : Except Failure α) := by
  rintro ⟨message, cause, failed⟩
  cases failed

/-- An invalid value breaks no contract. -/
theorem not_breaksContract_invalidValue {α : Type} (message : Text) :
    ¬ BreaksContract (.error (Fault.invalidValue message) : Except Failure α) := by
  rintro ⟨_, _, failed⟩
  cases failed

namespace Resource

/-! ## One resource -/

/-- Whether a resource is a record of a kind with contexts: a module, a file of a package, or a file
of a distribution. -/
def NeedsContext (r : Resource) : Prop :=
  ∃ record, r = .record record ∧
    record.kind ∈ [Kind.sourceModule, Kind.packageResource, Kind.distributionResource]

/-- A record needs a context exactly if its kind has one. -/
theorem needsContext_record_iff {record : Record} :
    NeedsContext (.record record) ↔ record.kind.hasContext = true := by
  constructor
  · rintro ⟨_, same, kind⟩
    obtain rfl := Resource.record.inj same
    revert kind
    cases record.kind with
    | _ => decide
  · intro has
    refine ⟨record, rfl, ?_⟩
    revert has
    cases record.kind with
    | _ => decide

/-- The compatible resources are the records of kinds that scripts can handle. -/
theorem isCompatible_iff {r : Resource} : r.isCompatible = true ↔ ∃ record, r = .record record := by
  cases r with
  | record record => simp [isCompatible]
  | _ => simp [isCompatible]

variable {p : Policy}

/-- A record gets its wrapper, or it needs a context and the policy has a place that is not
explicit. -/
theorem adapt_record_cases (p : Policy) (record : Record) :
    (∃ w, adapt p (.record record) = .ok w ∧ w.record = record) ∨
      ¬ p.Places ∧ NeedsContext (.record record) ∧
        ∃ message, adapt p (.record record) = .error (Fault.invalidValue message) := by
  by_cases places : p.Places
  · exact Or.inl (places.exists_adapt record)
  · cases has : record.kind.hasContext with
    | false => exact Or.inl ⟨_, adapt_eq_ok_iff.2 ⟨record, rfl, Or.inr ⟨has, rfl⟩⟩, rfl⟩
    | true =>
      cases derived : p.derive (.record record) with
      | ok c => exact absurd (Policy.exists_derive_iff.1 ⟨c, derived⟩) places
      | error fault =>
        refine Or.inr ⟨places, needsContext_record_iff.2 has, fault.message, ?_⟩
        rw [adapt, if_pos has, Wrapper.applyPolicy, derived]

/-- The wrapper of a resource wraps that resource. -/
theorem record_of_adapt {r : Resource} {w : Wrapper} (h : r.adapt p = .ok w) :
    r = .record w.record := by
  obtain ⟨record, rfl, ⟨-, c, -, rfl⟩ | ⟨-, rfl⟩⟩ := adapt_eq_ok_iff.1 h
  · rfl
  · rfl

/-- A resource is compatible exactly if it may be asked to be adapted. -/
theorem isCompatible_iff_not_breaksContract (p : Policy) (r : Resource) :
    r.isCompatible = true ↔ ¬ BreaksContract (r.adapt p) := by
  cases r with
  | record record =>
    refine iff_of_true rfl ?_
    rcases adapt_record_cases p record with ⟨w, adapted, -⟩ | ⟨-, -, message, refused⟩
    · rw [adapted]
      exact not_breaksContract_ok w
    · rw [refused]
      exact not_breaksContract_invalidValue message
  | _ => exact iff_of_false Bool.false_ne_true (not_not.2 ⟨_, none, rfl⟩)

/-! ## Many resources -/

section Many

variable {rs : List Resource}

/-- Whether wrappers are those of the compatible ones among some resources, one for each, in order,
and each the one that its resource gets by itself. -/
structure Adapted (p : Policy) (rs : List Resource) (ws : List Wrapper) : Prop where
  /-- The wrappers wrap the compatible resources, in order. -/
  resources : ws.map (fun w => .record w.record) = rs.filter isCompatible
  /-- Each is the wrapper of its resource alone. -/
  alone : ∀ w ∈ ws, adapt p (.record w.record) = .ok w

/-- Wrappers in the order of their resources wrap these resources. -/
theorem map_record_of_forall₂ {ws : List Wrapper}
    (h : List.Forall₂ (fun r w => adapt p r = .ok w) rs ws) :
    ws.map (fun w => .record w.record) = rs ∧ ∀ w ∈ ws, adapt p (.record w.record) = .ok w := by
  induction h with
  | nil => exact ⟨rfl, List.forall_mem_nil _⟩
  | @cons r w rs ws adapted _ ih =>
    obtain rfl := record_of_adapt adapted
    exact ⟨congrArg _ ih.1, List.forall_mem_cons.2 ⟨adapted, ih.2⟩⟩

/-- What comes out of adapting many resources is what comes out of adapting each. -/
theorem adapted_of_adaptAll {ws : List Wrapper} (h : adaptAll p rs = .ok ws) : Adapted p rs ws := by
  obtain ⟨resources, alone⟩ := map_record_of_forall₂ (Except.mapM_eq_ok_iff.1 h)
  exact ⟨resources, alone⟩

/-- Resources are all adapted, or one of them needs a context and the policy has a place that is not
explicit. -/
theorem adaptAll_cases (p : Policy) (rs : List Resource) :
    (∃ ws, adaptAll p rs = .ok ws ∧ Adapted p rs ws) ∨
      ¬ p.Places ∧ (∃ r ∈ rs, r.NeedsContext) ∧
        ∃ message, adaptAll p rs = .error (Fault.invalidValue message) := by
  cases outcome : adaptAll p rs with
  | ok ws => exact Or.inl ⟨ws, rfl, adapted_of_adaptAll outcome⟩
  | error failure =>
    obtain ⟨r, kept, fails⟩ := Except.exists_of_mapM_eq_error outcome
    obtain ⟨mem, compatible⟩ := List.mem_filter.1 kept
    obtain ⟨record, rfl⟩ := isCompatible_iff.1 compatible
    rcases adapt_record_cases p record with ⟨w, adapted, -⟩ | ⟨places, needs, message, refused⟩
    · cases adapted.symm.trans fails
    · obtain rfl := Except.error.inj (refused.symm.trans fails)
      exact Or.inr ⟨places, ⟨_, mem, needs⟩, message, rfl⟩

/-- Resources one of which needs a context are not all adapted unless the places of the policy are
explicit. -/
theorem places_of_adaptAll {ws : List Wrapper} {r : Resource} (h : adaptAll p rs = .ok ws)
    (mem : r ∈ rs) (needs : r.NeedsContext) : p.Places := by
  obtain ⟨record, rfl, -⟩ := id needs
  -- The record is among those that are adapted, so there is a context for it.
  have kept : Resource.record record ∈ rs.filter isCompatible := List.mem_filter.2 ⟨mem, rfl⟩
  have adapted := adapted_of_adaptAll h
  rw [← adapted.resources] at kept
  obtain ⟨w, hw, same⟩ := List.mem_map.1 kept
  have has := needsContext_record_iff.1 needs
  obtain rfl := Resource.record.inj same
  obtain ⟨_, same, ⟨-, c, derived, -⟩ | ⟨hasNot, -⟩⟩ := adapt_eq_ok_iff.1 (adapted.alone w hw)
  · exact Policy.exists_derive_iff.1 ⟨c, derived⟩
  · rw [← Resource.record.inj same, has] at hasNot
    cases hasNot

end Many

/-- **Resources are adapted in order, each as it is by itself.** The compatible resources are the
records of kinds that scripts can handle. A resource is one of them exactly if asking for its
wrapper breaks no contract, and asking for the wrappers of many never does. From a policy with
explicit places each compatible resource gets the wrapper that it gets alone, in order and as often
as it comes. Any other policy is refused exactly if a module, a file of a package or a file of a
distribution is among the resources; if there is none, they are adapted all the same. -/
theorem adapted_in_order (p : Policy) (rs : List Resource) :
    (∀ r : Resource, (r.isCompatible = true ↔ ∃ record, r = .record record) ∧
      (r.isCompatible = true ↔ ¬ BreaksContract (r.adapt p))) ∧
    ¬ BreaksContract (adaptAll p rs) ∧
    (p.Places → ∃ ws, adaptAll p rs = .ok ws ∧ Adapted p rs ws) ∧
    (¬ p.Places →
      ((∃ message, adaptAll p rs = .error (Fault.invalidValue message)) ↔
        ∃ r ∈ rs, r.NeedsContext) ∧
      ((¬ ∃ r ∈ rs, r.NeedsContext) → ∃ ws, adaptAll p rs = .ok ws ∧ Adapted p rs ws)) := by
  refine ⟨fun r => ⟨isCompatible_iff, isCompatible_iff_not_breaksContract p r⟩, ?_, ?_, ?_⟩
  -- Adapting many ends in one of two ways, and neither breaks the contract.
  · rcases adaptAll_cases p rs with ⟨ws, succeeds, -⟩ | ⟨-, -, message, refused⟩
    · rw [succeeds]
      exact not_breaksContract_ok ws
    · rw [refused]
      exact not_breaksContract_invalidValue message
  · intro places
    exact (adaptAll_cases p rs).resolve_right fun refused => refused.1 places
  · intro strange
    constructor
    · constructor
      · rintro ⟨message, refused⟩
        rcases adaptAll_cases p rs with ⟨ws, succeeds, -⟩ | ⟨-, needs, -⟩
        · cases succeeds.symm.trans refused
        · exact needs
      · rintro ⟨r, mem, needs⟩
        rcases adaptAll_cases p rs with ⟨ws, succeeds, -⟩ | ⟨-, -, refused⟩
        · exact absurd (places_of_adaptAll succeeds mem needs) strange
        · exact refused
    · intro none
      exact (adaptAll_cases p rs).resolve_right fun refused => none refused.2.1

/-- A module that comes twice gets two wrappers, with an extension module between them; a packed
distribution and a number get none. Where the location of the policy is the default one, all of them
are refused because of the module, but without it the extension module still gets its wrapper. -/
theorem module_adapted_twice :
    let module : Resource := .record (.moduleSource { name := "m", source := .bytes [] })
    let extension : Resource := .record (.extensionModule { name := "e" })
    let others : List Resource := [.eggFile (.bytes []), extension, .stray (.plain (.int 3))]
    let strange : Policy := { location := .location .default }
    Policy.Places {} ∧ ¬ strange.Places ∧
      (∃ ws, adaptAll {} (module :: others ++ [module]) = .ok ws ∧
        ws.map (fun w => Resource.record w.record) = [module, extension, module]) ∧
      (∃ message, adaptAll strange (module :: others) = .error (Fault.invalidValue message)) ∧
      ∃ ws, adaptAll strange others = .ok ws ∧
        ws.map (fun w => Resource.record w.record) = [extension] := by
  intro module extension others strange
  have noPlaces : ¬ strange.Places := by
    rintro ⟨⟨place, same⟩, -⟩
    cases same
  have needsModule : module.NeedsContext := ⟨_, rfl, List.mem_cons_self⟩
  have needsNone : ¬ ∃ r ∈ others, r.NeedsContext := by
    rintro ⟨r, mem, record, rfl, kind⟩
    simp only [others, List.mem_cons, List.not_mem_nil, or_false, reduceCtorEq, false_or] at mem
    rw [Resource.record.inj mem] at kind
    exact absurd kind (by decide)
  refine ⟨Policy.places_default, noPlaces, ?_, ?_, ?_⟩
  · obtain ⟨ws, succeeds, adapted⟩ :=
      (adapted_in_order {} (module :: others ++ [module])).2.2.1 Policy.places_default
    exact ⟨ws, succeeds, adapted.resources⟩
  · exact ((adapted_in_order strange (module :: others)).2.2.2 noPlaces).1.2
      ⟨module, List.mem_cons_self, needsModule⟩
  · obtain ⟨ws, succeeds, adapted⟩ :=
      ((adapted_in_order strange others).2.2.2 noPlaces).2 needsNone
    exact ⟨ws, succeeds, adapted.resources⟩

end Resource

end Packaging
