import Mathlib.Data.List.Nodup
import Packaging.Bindings

/-! # Names and what they are bound to
Binding a name never makes it come twice. Where no name comes twice, what is found under a name is
what stands with it, in whatever order the bindings are. -/

namespace Packaging

namespace Bindings

variable {α : Type} {bindings : Bindings α} {name : Text}

/-- A new name comes last. -/
theorem set_of_notMem (h : name ∉ bindings.map (·.1)) (value : α) :
    bindings.set name value = bindings ++ [(name, value)] := by
  induction bindings with
  | nil => rfl
  | cons b rest ih =>
    obtain ⟨other, _⟩ := b
    rw [List.map_cons, List.mem_cons, not_or] at h
    rw [set, if_neg (Ne.symm h.1), ih h.2]
    rfl

/-- A name that comes once among others is new to those before it. -/
theorem set_of_nodup {b : Text × α} {rest : Bindings α}
    (distinct : ((bindings ++ b :: rest).map (·.1)).Nodup) :
    bindings.set b.1 b.2 = bindings ++ [b] := by
  refine set_of_notMem (fun old => ?_) b.2
  rw [List.map_append] at distinct
  exact (List.nodup_append.1 distinct).2.2 _ old _ List.mem_cons_self rfl

/-- Setting a name keeps the names different. -/
theorem nodup_set (h : (bindings.map (·.1)).Nodup) (name : Text) (value : α) :
    ((bindings.set name value).map (·.1)).Nodup := by
  rw [names_set]
  split
  · exact h
  next new =>
    refine List.nodup_append.2 ⟨h, List.pairwise_singleton _ name, fun a ha b hb same => new ?_⟩
    rw [← List.mem_singleton.1 hb, ← same]
    exact ha

/-- What is bound after a name was set was bound before, or is what the name was set to. -/
theorem mem_set {value : α} {b : Text × α} (h : b ∈ bindings.set name value) :
    b ∈ bindings ∨ b = (name, value) := by
  induction bindings with
  | nil => exact .inr (List.mem_singleton.1 h)
  | cons a rest ih =>
    obtain ⟨other, old⟩ := a
    rw [set] at h
    split at h
    next same =>
      rcases List.mem_cons.1 h with rfl | h
      · right
        rw [same]
      · exact .inl (List.mem_cons_of_mem _ h)
    next =>
      rcases List.mem_cons.1 h with rfl | h
      · exact .inl List.mem_cons_self
      · exact (ih h).imp_left (List.mem_cons_of_mem _)

/-- A name is found with a value that is bound to it. -/
theorem mem_of_get?_eq_some {value : α} (h : bindings.get? name = some value) :
    (name, value) ∈ bindings := by
  obtain ⟨before, after, rfl, -⟩ := List.lookup_eq_some_iff.1 h
  exact List.mem_append_right _ List.mem_cons_self

/-- With different names, a name has exactly the values that stand beside it. -/
theorem get?_eq_some_iff_mem (distinct : (bindings.map (·.1)).Nodup) {value : α} :
    bindings.get? name = some value ↔ (name, value) ∈ bindings := by
  refine ⟨mem_of_get?_eq_some, fun h => ?_⟩
  -- A binding further back is not hidden by the first, whose name does not come again.
  induction bindings with
  | nil => cases h
  | cons b rest ih =>
    obtain ⟨other, _⟩ := b
    obtain ⟨new, distinct⟩ := List.nodup_cons.1 distinct
    rw [get?_cons]
    rcases List.mem_cons.1 h with same | h
    · obtain ⟨rfl, rfl⟩ := Prod.mk.inj same
      exact if_pos rfl
    · have later : name ∈ rest.map (·.1) := List.mem_map.2 ⟨_, h, rfl⟩
      have differs : name ≠ other := by
        rintro rfl
        exact new later
      rw [if_neg differs, ih distinct h]

/-- A name without a value is one that does not occur. -/
theorem get?_eq_none_iff_notMem : bindings.get? name = none ↔ name ∉ bindings.map (·.1) := by
  induction bindings with
  | nil => simp
  | cons b rest ih =>
    obtain ⟨other, _⟩ := b
    rw [get?_cons, List.map_cons, List.mem_cons, not_or, ← ih]
    split
    next same => simp [same]
    next other => simp [other]

/-- A binding that comes last is found where no other is. -/
theorem get?_append_singleton {value : α} (other : Text) :
    get? (bindings ++ [(name, value)]) other =
      (bindings.get? other).or (if other = name then some value else none) := by
  rw [get?, List.lookup_append]
  exact congrArg _ (get?_cons name value [] other)

/-- One more binding keeps the names different exactly if they were different and its name is new.
-/
theorem nodup_append_singleton_iff (value : α) :
    ((bindings ++ [(name, value)]).map (·.1)).Nodup ↔
      (bindings.map (·.1)).Nodup ∧ bindings.get? name = none := by
  rw [get?_eq_none_iff_notMem, List.map_append, List.map_singleton, ← List.concat_eq_append,
    List.nodup_concat, and_comm]

/-- The order of distinct names does not matter. -/
theorem get?_of_perm {others : Bindings α} (perm : bindings.Perm others)
    (distinct : (others.map (·.1)).Nodup) : bindings.get? name = others.get? name := by
  have distinct' : (bindings.map (·.1)).Nodup := (perm.map (·.1)).nodup_iff.2 distinct
  apply Option.ext
  intro value
  rw [get?_eq_some_iff_mem distinct, get?_eq_some_iff_mem distinct', perm.mem_iff]

end Bindings

end Packaging
