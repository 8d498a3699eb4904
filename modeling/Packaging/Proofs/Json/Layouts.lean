import Mathlib.Data.List.TakeWhile
import Packaging.Proofs.Json.Integers

/-! # Layouts
How written items and members stand between their brackets, as a reader meets them: blanks, the
first part, and before each further part a comma and blanks. -/

namespace Packaging.Json

/-- A layout whose separators read as a comma and a colon, perhaps with blanks after them. -/
structure Layout.Legible (layout : Layout) : Prop where
  /-- The separator of items is a comma and blanks. -/
  item : ∃ blanks, layout.itemSeparator = CodePoint.ofChar ',' :: blanks ∧
    ∀ c ∈ blanks, isBlank c = true
  /-- The separator between a key and its value is a colon and blanks. -/
  key : ∃ blanks, layout.keySeparator = CodePoint.ofChar ':' :: blanks ∧
    ∀ c ∈ blanks, isBlank c = true

/-- The layout with indentation can be read. -/
theorem Layout.legible_indented : Layout.indented.Legible where
  item := ⟨[], rfl, List.forall_mem_nil _⟩
  key := ⟨" ", rfl, by decide⟩

/-- The layout on one line can be read. -/
theorem Layout.legible_compact : Layout.compact.Legible where
  item := ⟨[], rfl, List.forall_mem_nil _⟩
  key := ⟨[], rfl, List.forall_mem_nil _⟩

/-- A line break is made of blanks. -/
theorem isBlank_of_mem_lineBreak {layout : Layout} {depth : Nat} :
    ∀ c ∈ layout.lineBreak depth, isBlank c = true := by
  intro c hc
  rw [Layout.lineBreak] at hc
  split at hc
  · cases hc
  · rcases List.mem_cons.1 hc with rfl | hc
    · rfl
    · rw [List.eq_of_mem_replicate hc]
      rfl

/-- Nothing is skipped where no blanks are. -/
theorem skipBlanks_cons {c : CodePoint} (h : isBlank c = false) (t : Text) :
    skipBlanks (c :: t) = c :: t := by
  rw [skipBlanks, List.dropWhile_cons, h, if_neg Bool.false_ne_true]

/-- Reading skips the blanks before anything else. -/
theorem skipBlanks_append {blanks t : Text} (h : ∀ c ∈ blanks, isBlank c = true)
    (starts : ∀ c ∈ t.head?, isBlank c = false) : skipBlanks (blanks ++ t) = t := by
  rw [skipBlanks, List.dropWhile_append_of_pos h]
  cases t with
  | nil => rfl
  | cons c t => exact skipBlanks_cons (starts c rfl) t

/-- Written items or members with what separates them. -/
def Layout.rows (layout : Layout) (depth : Nat) (parts : List Text) : Text :=
  Text.join (layout.itemSeparator ++ layout.lineBreak (depth + 1)) parts

/-- Written items or members, the closing bracket, and what follows it. -/
def Layout.block (layout : Layout) (depth : Nat) (parts : List Text) (closing : CodePoint)
    (r : Text) : Text :=
  layout.rows depth parts ++ (layout.lineBreak depth ++ closing :: r)

section Blocks

variable {layout : Layout} {depth : Nat} {closing : CodePoint} {r : Text}

/-- What separates two parts reads as a comma, with only blanks after it. -/
theorem exists_separator_eq (legible : layout.Legible) (depth : Nat) :
    ∃ blanks, layout.itemSeparator ++ layout.lineBreak depth = CodePoint.ofChar ',' :: blanks ∧
      ∀ c ∈ blanks, isBlank c = true := by
  obtain ⟨blanks, separator, all⟩ := legible.item
  refine ⟨blanks ++ layout.lineBreak depth, by rw [separator]; rfl, ?_⟩
  exact List.forall_mem_append.2 ⟨all, isBlank_of_mem_lineBreak⟩

/-- One part is a row by itself. -/
theorem rows_singleton (part : Text) : layout.rows depth [part] = part := by
  simp [Layout.rows, Text.join, List.intercalate]

/-- A separator and a line break stand between one part and the next. -/
theorem rows_cons_cons (part next : Text) (parts : List Text) :
    layout.rows depth (part :: next :: parts) =
      part ++ (layout.itemSeparator ++ layout.lineBreak (depth + 1) ++
        layout.rows depth (next :: parts)) := by
  simp [Layout.rows, Text.join, List.intercalate]

/-- A block of one part is the part before the closing sign. -/
theorem block_singleton (part : Text) :
    layout.block depth [part] closing r = part ++ (layout.lineBreak depth ++ closing :: r) := by
  rw [Layout.block, rows_singleton]

variable (depth closing r) in
/-- Between the first part and the others a comma is read, and then blanks. -/
theorem exists_block_eq (legible : layout.Legible) (part next : Text) (parts : List Text) :
    ∃ blanks, layout.block depth (part :: next :: parts) closing r =
        part ++ CodePoint.ofChar ',' :: (blanks ++ layout.block depth (next :: parts) closing r) ∧
      ∀ c ∈ blanks, isBlank c = true := by
  obtain ⟨blanks, separator, all⟩ := exists_separator_eq legible (depth + 1)
  refine ⟨blanks, ?_, all⟩
  rw [Layout.block, rows_cons_cons, separator, Layout.block]
  simp

variable (layout depth closing r) in
/-- A block starts with what its first part starts with. -/
theorem exists_block_cons_eq (c : CodePoint) (t : Text) (parts : List Text) :
    ∃ u, layout.block depth ((c :: t) :: parts) closing r = c :: u := by
  cases parts with
  | nil => exact ⟨_, block_singleton _⟩
  | cons next parts => exact ⟨_, congrArg (· ++ _) (rows_cons_cons _ next parts)⟩

/-- No blanks are skipped but those before a block. -/
theorem skipBlanks_block {blanks : Text} (all : ∀ c ∈ blanks, isBlank c = true) {c : CodePoint}
    (blank : isBlank c = false) (t : Text) (parts : List Text) :
    skipBlanks (blanks ++ layout.block depth ((c :: t) :: parts) closing r) =
      layout.block depth ((c :: t) :: parts) closing r := by
  obtain ⟨u, starts⟩ := exists_block_cons_eq layout depth closing r c t parts
  rw [starts]
  refine skipBlanks_append all ?_
  intro d hd
  rwa [← Option.some.inj hd]

variable (depth) in
/-- The first of several rows leaves room for the others. -/
theorem length_rows_cons_cons (legible : layout.Legible) (part next : Text) (parts : List Text) :
    part.length + (layout.rows depth (next :: parts)).length <
      (layout.rows depth (part :: next :: parts)).length := by
  obtain ⟨blanks, separator, -⟩ := exists_separator_eq legible (depth + 1)
  rw [rows_cons_cons, separator, List.length_append, List.length_append, List.length_cons]
  omega

/-- A line break and a closing bracket end a numeral. -/
theorem endsNumeral_lineBreak (h : closing = CodePoint.ofChar ']' ∨ closing.val = 0x7d) :
    EndsNumeral (layout.lineBreak depth ++ closing :: r) := by
  -- A layout without line breaks puts the bracket right behind the numeral.
  cases blanks : layout.lineBreak depth with
  | nil => exact endsNumeral_cons (.inr (.inr h)) r
  | cons b _ =>
    have inside : b ∈ layout.lineBreak depth := by
      rw [blanks]
      exact List.mem_cons_self
    exact endsNumeral_cons (.inl (isBlank_of_mem_lineBreak b inside)) _

/-- The closing sign is found behind its line break. -/
theorem skipBlanks_lineBreak (h : isBlank closing = false) :
    skipBlanks (layout.lineBreak depth ++ closing :: r) = closing :: r := by
  refine skipBlanks_append isBlank_of_mem_lineBreak ?_
  intro c hc
  rwa [← Option.some.inj hc]

/-- Parts between two signs are a block behind the first sign and a line break. -/
theorem enclose_of_ne_nil {opening : CodePoint} {parts : List Text} (h : parts ≠ []) :
    layout.enclose depth [opening] [closing] parts =
      opening :: (layout.lineBreak (depth + 1) ++ layout.block depth parts closing []) := by
  have some_parts : parts.isEmpty = false := List.isEmpty_eq_false_iff.2 h
  rw [Layout.enclose, some_parts, if_neg Bool.false_ne_true]
  simp [Text.concat, Layout.block, Layout.rows]

/-- What follows a block may be counted to it. -/
theorem block_append (parts : List Text) (s : Text) :
    layout.block depth parts closing r ++ s = layout.block depth parts closing (r ++ s) := by
  simp [Layout.block]

variable (layout depth closing r) in
/-- A block is longer than its rows. -/
theorem length_rows_lt_block (parts : List Text) :
    (layout.rows depth parts).length < (layout.block depth parts closing r).length := by
  rw [Layout.block, List.length_append, List.length_append, List.length_cons]
  omega

end Blocks

end Packaging.Json
