import Packaging.Wrapper

/-! # Stores
The wrappers of a session. Names share a wrapper by holding the same handle, so that a change made
through one name is seen through all of them. -/

namespace Packaging

/-- All wrappers of a session, in the order in which they were made. -/
structure Store where
  /-- The wrappers. -/
  wrappers : List Wrapper := []

namespace Store

/-- The wrapper behind a handle. -/
def get? (s : Store) (h : Handle) : Option Wrapper := s.wrappers[h.index]?

/-- A new wrapper: its handle, and the store with it. -/
def add (s : Store) (w : Wrapper) : Handle × Store :=
  (⟨w.kind, s.wrappers.length⟩, ⟨s.wrappers ++ [w]⟩)

/-- A store with another wrapper behind a handle. -/
def set (s : Store) (h : Handle) (w : Wrapper) : Store := ⟨s.wrappers.set h.index w⟩

/-- A new wrapper is found behind its handle. -/
@[simp] theorem get?_add_self (s : Store) (w : Wrapper) :
    (s.add w).2.get? (s.add w).1 = some w := by
  simp [add, get?]

/-- A new wrapper hides no old one. -/
theorem get?_add_of_get? {s : Store} {h : Handle} {v : Wrapper} (w : Wrapper)
    (found : s.get? h = some v) : (s.add w).2.get? h = some v := by
  have inside : h.index < s.wrappers.length := (List.getElem?_eq_some_iff.1 found).1
  simpa [add, get?, List.getElem?_append_left inside] using found

/-- What was put behind a handle is found there, and nothing else changes. -/
theorem get?_set (s : Store) (h i : Handle) (w : Wrapper) :
    (s.set h w).get? i =
      if i.index = h.index then (s.get? h).map fun _ => w else s.get? i := by
  by_cases same : i.index = h.index
  · simp only [set, get?, same, List.getElem?_set_self', if_pos]
    rfl
  · simp [set, get?, same, List.getElem?_set_ne (Ne.symm same)]

end Store

end Packaging
