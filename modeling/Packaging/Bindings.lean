import Packaging.Text

/-! # Bindings
Values under names, in the order in which the names first came. -/

namespace Packaging

/-- Values under names. -/
abbrev Bindings (α : Type) := List (Text × α)

namespace Bindings

variable {α : Type}

/-- The value under a name. -/
def get? (bindings : Bindings α) (name : Text) : Option α := bindings.lookup name

/-- Bindings with a name bound to a value: an old name keeps its place, a new one comes last. -/
def set (name : Text) (value : α) : Bindings α → Bindings α
  | [] => [(name, value)]
  | (n, v) :: rest => if n = name then (n, value) :: rest else (n, v) :: set name value rest

/-- No name is bound where nothing is bound. -/
@[simp] theorem get?_nil (n : Text) : get? ([] : Bindings α) n = none := rfl

/-- The first binding of a name counts. -/
theorem get?_cons (m : Text) (v : α) (rest : Bindings α) (n : Text) :
    get? ((m, v) :: rest) n = if n = m then some v else rest.get? n := by
  by_cases h : n = m
  · simp [get?, h]
  · simp [get?, List.lookup_cons, beq_eq_false_iff_ne.2 h, h]

/-- What was set is what is found, and nothing else changes. -/
theorem get?_set (bindings : Bindings α) (name : Text) (value : α) (n : Text) :
    (bindings.set name value).get? n = if n = name then some value else bindings.get? n := by
  induction bindings with
  | nil => exact get?_cons name value [] n
  | cons b rest ih =>
    obtain ⟨m, v⟩ := b
    by_cases hm : m = name
    · by_cases h : n = name <;> simp [set, get?_cons, hm, h]
    · by_cases h : n = m
      · simp [set, get?_cons, hm, h]
      · simp [set, get?_cons, hm, h, ih]

/-- An old name keeps its place and a new one comes last. -/
theorem names_set (bindings : Bindings α) (name : Text) (value : α) :
    (bindings.set name value).map (·.1) =
      if name ∈ bindings.map (·.1) then bindings.map (·.1)
      else bindings.map (·.1) ++ [name] := by
  induction bindings with
  | nil => simp [set]
  | cons b rest ih =>
    obtain ⟨m, v⟩ := b
    by_cases h : m = name
    · simp [set, h]
    · simp only [set, if_neg h, List.map_cons, ih, List.mem_cons, Ne.symm h, false_or]
      split <;> simp

end Bindings

end Packaging
