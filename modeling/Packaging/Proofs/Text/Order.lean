import Mathlib.Data.List.Sort
import Packaging.Text

/-! # The order of texts
Texts are ordered by their first code points that differ. The order is total, so the same texts are
sorted in one way only. -/

namespace Packaging.Text

/-- Texts are ordered by their first code points and then by what follows them. -/
theorem le_cons_cons {a b : CodePoint} {s t : Text} :
    le (a :: s) (b :: t) = true ↔ a.val < b.val ∨ a.val = b.val ∧ s.le t = true := by
  simp [le]

/-- Of any two texts one comes first. -/
theorem le_total (s t : Text) : (s.le t || t.le s) = true := by
  rw [Bool.or_eq_true]
  induction s generalizing t with
  | nil => exact Or.inl rfl
  | cons a s ih =>
    cases t with
    | nil => exact Or.inr rfl
    | cons b t =>
      rw [le_cons_cons, le_cons_cons]
      have rest := ih t
      grind

/-- The order of texts is transitive. -/
theorem le_trans {s t r : Text} (hst : s.le t = true) (htr : t.le r = true) : s.le r = true := by
  induction s generalizing t r with
  | nil => rfl
  | cons a s ih =>
    cases t with
    | nil => cases hst
    | cons b t =>
      cases r with
      | nil => cases htr
      | cons c r =>
        rw [le_cons_cons] at hst htr ⊢
        have rest := @ih t r
        grind

/-- Texts of which each comes before the other are equal. -/
theorem le_antisymm {s t : Text} (hst : s.le t = true) (hts : t.le s = true) : s = t := by
  induction s generalizing t with
  | nil =>
    cases t with
    | nil => rfl
    | cons b t => cases hts
  | cons a s ih =>
    cases t with
    | nil => cases hst
    | cons b t =>
      rw [le_cons_cons] at hst hts
      -- Neither first code point is below the other.
      obtain ⟨first, rest⟩ : a.val = b.val ∧ Text.le s t = true := by grind
      have rest' : Text.le t s = true := by grind
      rw [CodePoint.ext first, ih rest rest']

/-- Sorted texts are in order. -/
theorem pairwise_mergeSort_le (texts : List Text) :
    (texts.mergeSort le).Pairwise fun s t => s.le t = true :=
  @List.pairwise_mergeSort Text le (fun _ _ _ => le_trans) le_total texts

/-- The same texts are sorted in only one way. -/
theorem eq_of_perm_of_sorted {texts others : List Text} (perm : texts.Perm others)
    (sorted : texts.Pairwise fun s t => s.le t = true)
    (sorted' : others.Pairwise fun s t => s.le t = true) : texts = others :=
  List.Perm.eq_of_pairwise (fun _ _ _ _ => le_antisymm) sorted sorted' perm

end Packaging.Text
