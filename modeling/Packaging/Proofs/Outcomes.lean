import Mathlib.Data.List.Forall2

/-! # Successful results
When a result that is made from others is a success. -/

namespace Except

variable {ε ε' α β : Type}

/-- What a mapped result holds comes from a result. -/
theorem map_eq_ok_iff {f : α → β} {x : Except ε α} {b : β} :
    x.map f = .ok b ↔ ∃ a, x = .ok a ∧ b = f a := by
  cases x with
  | ok a =>
    constructor
    · intro h
      exact ⟨a, rfl, (Except.ok.inj h).symm⟩
    · rintro ⟨_, ha, rfl⟩
      rw [Except.ok.inj ha]
      rfl
  | error e =>
    constructor
    · intro h
      cases h
    · rintro ⟨_, ha, _⟩
      cases ha

/-- A sequence of two computations succeeds exactly if both do, the second from the first one's
result. -/
theorem bind_eq_ok_iff {x : Except ε α} {f : α → Except ε β} {b : β} :
    x >>= f = .ok b ↔ ∃ a, x = .ok a ∧ f a = .ok b := by
  cases x with
  | ok a =>
    constructor
    · intro h
      exact ⟨a, rfl, h⟩
    · rintro ⟨_, ha, hb⟩
      obtain rfl := Except.ok.inj ha
      exact hb
  | error e =>
    constructor
    · intro h
      cases h
    · rintro ⟨_, ha, _⟩
      cases ha

/-- Forgetting the failure keeps the results. -/
theorem toOption_eq_some_iff {x : Except ε α} {a : α} : x.toOption = some a ↔ x = .ok a := by
  cases x with
  | ok b => exact ⟨fun h => congrArg Except.ok (Option.some.inj h),
      fun h => congrArg some (Except.ok.inj h)⟩
  | error e => simp [Except.toOption]

/-- Forgetting the failure commutes with mapping results. -/
theorem toOption_map (f : α → β) (x : Except ε α) : (x.map f).toOption = x.toOption.map f := by
  cases x <;> rfl

/-- Failures in other words leave the results as they are. -/
theorem mapError_eq_ok_iff {f : ε → ε'} {x : Except ε α} {a : α} :
    x.mapError f = .ok a ↔ x = .ok a := by
  cases x with
  | ok b => exact ⟨fun h => congrArg Except.ok (Except.ok.inj h),
      fun h => congrArg Except.ok (Except.ok.inj h)⟩
  | error e => simp [Except.mapError]

/-! ## Errors -/

/-- A sequence is an error exactly if one of its parts is, the other having succeeded. -/
theorem bind_eq_error_iff {x : Except ε α} {f : α → Except ε β} {e : ε} :
    x >>= f = .error e ↔ x = .error e ∨ ∃ a, x = .ok a ∧ f a = .error e := by
  cases x with
  | ok a => simp [bind, Except.bind]
  | error e' => simp [bind, Except.bind]

/-- Mapping results keeps the failures. -/
theorem map_eq_error_iff {f : α → β} {x : Except ε α} {e : ε} :
    x.map f = .error e ↔ x = .error e := by
  cases x with
  | ok a => simp [Except.map]
  | error e' => simp [Except.map]

/-- A failure in other words comes from a failure. -/
theorem mapError_eq_error_iff {f : ε → ε'} {x : Except ε α} {e : ε'} :
    x.mapError f = .error e ↔ ∃ e', x = .error e' ∧ e = f e' := by
  cases x with
  | ok a => simp [Except.mapError]
  | error e' => simp [Except.mapError, eq_comm]

/-- Whether the error of a result is of a certain sort, if the result is an error. -/
def ErrsIn (P : ε → Prop) (x : Except ε α) : Prop := ∀ e, x = .error e → P e

/-- A result fails in no way. -/
theorem errsIn_ok (P : ε → Prop) (a : α) : (ok a : Except ε α).ErrsIn P := by
  intro e he
  cases he

/-- A failure of some sort fails in that way only. -/
theorem errsIn_error {P : ε → Prop} {e : ε} (h : P e) : (error e : Except ε α).ErrsIn P := by
  intro e' he
  obtain rfl := Except.error.inj he
  exact h

/-- Mapping results keeps the ways to fail. -/
theorem ErrsIn.map {P : ε → Prop} {x : Except ε α} (h : x.ErrsIn P) (f : α → β) :
    (x.map f).ErrsIn P := by
  intro e he
  cases x with
  | ok a => cases he
  | error e' =>
    obtain rfl := Except.error.inj he
    exact h e' rfl

/-- The error of a sequence is that of one of its parts. -/
theorem ErrsIn.bind {P : ε → Prop} {x : Except ε α} {f : α → Except ε β} (h : x.ErrsIn P)
    (hf : ∀ a, (f a).ErrsIn P) : (x >>= f).ErrsIn P := by
  intro e he
  cases x with
  | ok a => exact hf a e he
  | error e' =>
    obtain rfl := Except.error.inj he
    exact h e' rfl

/-- If all other words are of some sort, so is every failure in other words. -/
theorem errsIn_mapError {P : ε' → Prop} {f : ε → ε'} (h : ∀ e, P (f e)) (x : Except ε α) :
    (x.mapError f).ErrsIn P := by
  intro e he
  cases x with
  | ok a => cases he
  | error e' =>
    obtain rfl := Except.error.inj he
    exact h e'

/-- Other words that keep the failures of some sort keep computations that fail in that way only. -/
theorem ErrsIn.mapError_eq_self {P : ε → Prop} {f : ε → ε} {x : Except ε α} (h : x.ErrsIn P)
    (hf : ∀ e, P e → f e = e) : x.mapError f = x := by
  cases x with
  | ok a => rfl
  | error e => exact congrArg Except.error (hf e (h e rfl))

/-! ## One result for each element of a list -/

/-- A list is gone through to its end exactly if each of its elements has a successful result. -/
theorem mapM_eq_ok_iff {f : α → Except ε β} {xs : List α} {ys : List β} :
    xs.mapM f = .ok ys ↔ List.Forall₂ (fun x y => f x = .ok y) xs ys := by
  induction xs generalizing ys with
  | nil =>
    rw [List.mapM_nil, List.forall₂_nil_left_iff]
    exact ⟨fun h => (Except.ok.inj h).symm, fun h => congrArg Except.ok h.symm⟩
  | cons x xs ih =>
    rw [List.mapM_cons, bind_eq_ok_iff, List.forall₂_cons_left_iff]
    constructor
    · rintro ⟨y, hy, h⟩
      obtain ⟨rest, hrest, h⟩ := bind_eq_ok_iff.1 h
      exact ⟨y, rest, hy, ih.1 hrest, (Except.ok.inj h).symm⟩
    · rintro ⟨y, rest, hy, hrest, rfl⟩
      exact ⟨y, hy, bind_eq_ok_iff.2 ⟨rest, ih.2 hrest, rfl⟩⟩

/-- What ends a list early is the error of one of its elements. -/
theorem exists_of_mapM_eq_error {f : α → Except ε β} {xs : List α} {e : ε}
    (h : xs.mapM f = .error e) : ∃ x ∈ xs, f x = .error e := by
  induction xs with
  | nil => cases h
  | cons x xs ih =>
    rw [List.mapM_cons] at h
    rcases bind_eq_error_iff.1 h with here | ⟨y, -, h⟩
    · exact ⟨x, List.mem_cons_self, here⟩
    · rcases bind_eq_error_iff.1 h with later | ⟨rest, -, h⟩
      · obtain ⟨x', mem, fails⟩ := ih later
        exact ⟨x', List.mem_cons_of_mem x mem, fails⟩
      · cases h

end Except
