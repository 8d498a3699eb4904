import Packaging.Proofs.Json.RoundTrip

/-! # What writing writes
Outside what the layout puts between the parts, a written value without doubles is made of printable
ASCII: everything else is escaped. -/

namespace Packaging.Json

/-- The escape of a unit is printable. -/
theorem isBetween_of_mem_escapeUnit {n : Nat} :
    ∀ c ∈ escapeUnit n, c.isBetween 0x20 0x7e = true := by
  rw [escapeUnit]
  exact List.forall_mem_append.2 ⟨by decide, Text.isBetween_of_mem_ofHex⟩

/-- However a code point is written, it is printable. -/
theorem isBetween_of_mem_escape (c : CodePoint) :
    ∀ d ∈ escape c, d.isBetween 0x20 0x7e = true := by
  have escaped := escaped_escape c
  generalize escape c = t at escaped
  cases escaped with
  | simple _ _ printable _ =>
    exact List.forall_mem_cons.2 ⟨by decide, List.forall_mem_singleton.2 printable⟩
  | plain _ _ printable => exact List.forall_mem_singleton.2 printable
  | unit _ => exact isBetween_of_mem_escapeUnit
  | pair _ =>
    exact List.forall_mem_append.2 ⟨isBetween_of_mem_escapeUnit, isBetween_of_mem_escapeUnit⟩

/-- Written texts are printable. -/
theorem isBetween_of_mem_writeText (t : Text) :
    ∀ c ∈ writeText t, c.isBetween 0x20 0x7e = true := by
  have quote : ∀ c ∈ ("\"" : Text), c.isBetween 0x20 0x7e = true := by decide
  have body : ∀ c ∈ t.flatMap escape, c.isBetween 0x20 0x7e = true := by
    intro c hc
    obtain ⟨d, _, hc⟩ := List.mem_flatMap.1 hc
    exact isBetween_of_mem_escape d c hc
  intro c hc
  simp only [writeText, Text.concat, List.flatten_cons, List.flatten_nil, List.append_nil,
    List.mem_append] at hc
  rcases hc with hc | hc | hc
  · exact quote c hc
  · exact body c hc
  · exact quote c hc

/-- Numerals are printable. -/
theorem isBetween_of_mem_ofInt (n : Int) :
    ∀ c ∈ Text.ofInt n, c.isBetween 0x20 0x7e = true := by
  have digits (n : Nat) : ∀ c ∈ Text.ofNat n, c.isBetween 0x20 0x7e = true := by
    intro c hc
    have digit := Text.isDigit_of_mem_ofNat hc
    rw [CodePoint.isDigit, CodePoint.isBetween, Bool.and_eq_true, decide_eq_true_eq,
      decide_eq_true_eq] at digit
    rw [CodePoint.isBetween, Bool.and_eq_true, decide_eq_true_eq, decide_eq_true_eq]
    omega
  cases n with
  | ofNat n => exact digits n
  | negSucc n => exact List.forall_mem_cons.2 ⟨by decide, digits (n + 1)⟩

/-- What a layout puts between and around the parts. -/
structure Layout.Uses (layout : Layout) (P : CodePoint → Prop) : Prop where
  /-- Between two items or members. -/
  item : ∀ c ∈ layout.itemSeparator, P c
  /-- Between a key and its value. -/
  key : ∀ c ∈ layout.keySeparator, P c
  /-- At a line break. -/
  lineBreak : ∀ depth, ∀ c ∈ layout.lineBreak depth, P c

section Written

variable {P : CodePoint → Prop}

/-- What holds of a separator and of parts holds of the parts with the separator between them. -/
theorem forall_mem_join {separator : Text} {parts : List Text} (hseparator : ∀ c ∈ separator, P c)
    (hparts : ∀ part ∈ parts, ∀ c ∈ part, P c) : ∀ c ∈ Text.join separator parts, P c := by
  induction parts with
  | nil => exact List.forall_mem_nil _
  | cons part parts ih =>
    obtain ⟨first, rest⟩ := List.forall_mem_cons.1 hparts
    cases parts with
    | nil => simpa [Text.join, List.intercalate] using first
    | cons next parts =>
      have whole : Text.join separator (part :: next :: parts) =
          part ++ (separator ++ Text.join separator (next :: parts)) := by
        simp [Text.join, List.intercalate]
      rw [whole]
      exact List.forall_mem_append.2 ⟨first, List.forall_mem_append.2 ⟨hseparator, ih rest⟩⟩

variable {layout : Layout} (uses : layout.Uses P)

include uses

/-- What holds of a layout, of two signs and of parts holds of the parts between the signs. -/
theorem forall_mem_enclose (depth : Nat) {opening closing : Text} {parts : List Text}
    (hopening : ∀ c ∈ opening, P c) (hclosing : ∀ c ∈ closing, P c)
    (hparts : ∀ part ∈ parts, ∀ c ∈ part, P c) :
    ∀ c ∈ layout.enclose depth opening closing parts, P c := by
  have rows := forall_mem_join
    (List.forall_mem_append.2 ⟨uses.item, uses.lineBreak (depth + 1)⟩) hparts
  rw [Layout.enclose]
  split
  · exact List.forall_mem_append.2 ⟨hopening, hclosing⟩
  · intro c hc
    simp only [Text.concat, List.flatten_cons, List.flatten_nil, List.append_nil,
      List.mem_append] at hc
    rcases hc with hc | hc | hc | hc | hc
    · exact hopening c hc
    · exact uses.lineBreak _ c hc
    · exact rows c hc
    · exact uses.lineBreak _ c hc
    · exact hclosing c hc

/-- **A written value is printable,** but for what the layout puts between its parts. -/
theorem forall_mem_writeAt (printable : ∀ c, c.isBetween 0x20 0x7e = true → P c) {v : Json}
    (plain : DoubleFree v) (depth : Nat) : ∀ c ∈ writeAt layout depth v, P c := by
  have fixed {t : Text} (h : ∀ c ∈ t, c.isBetween 0x20 0x7e = true) : ∀ c ∈ t, P c :=
    fun c hc => printable c (h c hc)
  induction plain generalizing depth with
  | null =>
    rw [writeAt]
    exact fixed (by decide)
  | bool b => cases b <;> exact fixed (t := Text.ofString _) (by decide)
  | int n => exact fixed (isBetween_of_mem_ofInt n)
  | text t => exact fixed (isBetween_of_mem_writeText t)
  | @array items _ ih =>
    rw [writeAt, writeItems_eq_map]
    refine forall_mem_enclose uses depth (fixed (by decide)) (fixed (by decide)) ?_
    exact List.forall_mem_map.2 fun v hv => ih v hv (depth + 1)
  | @object members _ ih =>
    rw [writeAt_object, List.map_map]
    refine forall_mem_enclose uses depth (fixed (by decide)) (fixed (by decide)) ?_
    refine List.forall_mem_map.2 fun m hm c hc => ?_
    -- The members are those of the object in another order.
    have hm := (order_perm layout members).mem_iff.1 hm
    simp only [Function.comp_apply, Layout.writeMember, Text.concat, List.flatten_cons,
      List.flatten_nil, List.append_nil, List.mem_append] at hc
    rcases hc with hc | hc | hc
    · exact fixed (isBetween_of_mem_writeText m.1) c hc
    · exact uses.key c hc
    · exact ih m hm (depth + 1) c hc

end Written

/-- The indented layout uses blanks and separators, and line feeds to break lines. -/
theorem Layout.uses_indented :
    Layout.indented.Uses fun c => c.isBetween 0x20 0x7e = true ∨ c = CodePoint.ofChar '\n' where
  item := List.forall_mem_singleton.2 (.inl rfl)
  key := by decide
  lineBreak depth c hc := by
    rcases List.mem_cons.1 hc with rfl | hc
    · exact .inr rfl
    · rw [List.eq_of_mem_replicate hc]
      exact .inl rfl

/-- The compact layout uses separators only. -/
theorem Layout.uses_compact : Layout.compact.Uses fun c => c.isBetween 0x20 0x7e = true where
  item := List.forall_mem_singleton.2 rfl
  key := List.forall_mem_singleton.2 rfl
  lineBreak _ _ hc := by cases hc

end Packaging.Json
