import Mathlib.Data.List.Induction
import Packaging.Text.Line

/-! # Where a text leads
The place after a text is a matter of counting: its line is one more than the line feeds of the
text, and its column one more than what stands behind the last of them. Text put in front of a text
that starts a line moves every place of it down by the same number of lines and leaves the
columns. -/

namespace Packaging

/-! ## Counting -/

/-- How many line feeds a text has. -/
def Text.lineFeeds (t : Text) : Nat := t.count (CodePoint.ofChar '\n')

/-- What stands in a text behind its last line feed. -/
def Text.lastLine (t : Text) : Text :=
  (t.reverse.takeWhile (· ≠ CodePoint.ofChar '\n')).reverse

/-- Whether a text is empty or ends with a line feed. -/
def Text.EndsLine (t : Text) : Prop := ∀ c ∈ t.getLast?, c = CodePoint.ofChar '\n'

namespace Text

/-- The empty text has no line feeds. -/
@[simp] theorem lineFeeds_nil : lineFeeds [] = 0 := rfl

/-- Two texts have the line feeds of both. -/
@[simp] theorem lineFeeds_append (s t : Text) :
    lineFeeds (s ++ t) = s.lineFeeds + t.lineFeeds := List.count_append

/-- The last line of the empty text is empty. -/
@[simp] theorem lastLine_nil : lastLine [] = [] := rfl

/-- A line feed at the end leaves nothing of the last line. -/
theorem lastLine_concat_lineFeed (t : Text) : lastLine (t ++ [CodePoint.ofChar '\n']) = [] := by
  simp [lastLine]

/-- Anything else at the end is the end of the last line. -/
theorem lastLine_concat {c : CodePoint} (h : c ≠ '\n') (t : Text) :
    lastLine (t ++ [c]) = t.lastLine ++ [c] := by
  simp [lastLine, h]

/-- A text that ends in a line feed ends a line. -/
theorem endsLine_of_getLast? {t : Text} (h : t.getLast? = some (CodePoint.ofChar '\n')) :
    t.EndsLine := by
  intro c last
  rw [h] at last
  exact (Option.some.inj last).symm

/-- A line feed at the end ends a line. -/
theorem endsLine_concat_lineFeed (t : Text) : EndsLine (t ++ [CodePoint.ofChar '\n']) :=
  endsLine_of_getLast? List.getLast?_concat

/-- A text that ends with a line feed is some text and that line feed. -/
theorem EndsLine.exists_concat {t : Text} (h : t.EndsLine) (nonempty : t ≠ []) :
    ∃ s : Text, t = s ++ [CodePoint.ofChar '\n'] := by
  rcases List.eq_nil_or_concat t with rfl | ⟨s, c, rfl⟩
  · exact absurd rfl nonempty
  · have last : c = '\n' := h c (by simp)
    exact ⟨s, by rw [last, List.concat_eq_append]⟩

/-- What a text ends with ends like the text. -/
theorem EndsLine.of_append {s t : Text} (h : EndsLine (s ++ t)) : t.EndsLine := by
  intro c hc
  apply h
  rw [Option.mem_def] at hc ⊢
  rw [List.getLast?_append, hc]
  rfl

/-- Two texts that end lines end one together. -/
theorem EndsLine.append {s t : Text} (hs : s.EndsLine) (ht : t.EndsLine) :
    EndsLine (s ++ t) := by
  intro c hc
  rw [Option.mem_def, List.getLast?_append, Option.or_eq_some_iff] at hc
  rcases hc with last | ⟨-, last⟩
  · exact ht c last
  · exact hs c last

/-- A text that ends a line has begun no other. -/
theorem EndsLine.lastLine_eq_nil {t : Text} (h : t.EndsLine) : t.lastLine = [] := by
  by_cases nonempty : t = []
  · rw [nonempty, lastLine_nil]
  · obtain ⟨s, rfl⟩ := h.exists_concat nonempty
    exact lastLine_concat_lineFeed s

end Text

/-! ## The place after a text -/

namespace Place

/-- A line feed leads to the start of the next line. -/
theorem next_lineFeed (p : Place) : p.next '\n' = ⟨p.offset + 1, p.spot.line + 1, 1⟩ :=
  if_pos rfl

/-- Any other code point leads one column on. -/
theorem next_of_ne {c : CodePoint} (h : c ≠ '\n') (p : Place) :
    p.next c = ⟨p.offset + 1, p.spot.line, p.spot.column + 1⟩ :=
  if_neg h

/-- The place after one code point more is the next one. -/
theorem after_concat (p : Place) (t : Text) (c : CodePoint) :
    p.after (t ++ [c]) = (p.after t).next c := by
  rw [after_append]
  rfl

/-- The place after a text from the start on: its offset, its line and its column are counted in the
text. -/
theorem after_origin (t : Text) :
    origin.after t = ⟨t.length, 1 + t.lineFeeds, 1 + t.lastLine.length⟩ := by
  -- By induction from the end, for the last code point decides whether the column starts anew.
  induction t using List.reverseRecOn with
  | nil => rfl
  | append_singleton t c ih =>
    rw [after_concat, ih]
    by_cases h : c = '\n'
    · rw [h, next_lineFeed, Text.lastLine_concat_lineFeed]
      simp [Text.lineFeeds, Nat.add_assoc]
    · rw [next_of_ne h, Text.lastLine_concat h]
      have none : Text.lineFeeds [c] = 0 := List.count_singleton.trans (if_neg (by simpa using h))
      simp [none, Nat.add_assoc]

/-- The spot after a text is a matter of the spot before it. -/
theorem spot_after_congr {p q : Place} (h : p.spot = q.spot) (t : Text) :
    (p.after t).spot = (q.after t).spot := by
  induction t generalizing p q with
  | nil => exact h
  | cons c t ih =>
    refine ih (?_ : (p.next c).spot = (q.next c).spot)
    by_cases feed : c = '\n'
    · rw [feed, next_lineFeed, next_lineFeed, h]
    · rw [next_of_ne feed, next_of_ne feed, h]

/-- The place after a text is as many code points on as the text has. -/
theorem offset_after (p : Place) (t : Text) :
    (p.after t).offset = p.offset + t.length := by
  induction t generalizing p with
  | nil => rfl
  | cons c t ih =>
    show ((p.next c).after t).offset = _
    have next : (p.next c).offset = p.offset + 1 := by
      rw [Place.next]
      split_ifs <;> rfl
    rw [ih, next, List.length_cons]
    omega

end Place

/-! ## Nowhere -/

/-- Forgets a spot. -/
def Spot.forget (_ : Spot) : Spot := ⟨1, 1⟩

/-- Forgets a place. -/
def Place.forget (_ : Place) : Place := .origin

/-- Forgets of a place all but its spot. -/
def Place.forgetOffset (p : Place) : Place := ⟨0, p.spot⟩

/-! ## Moving down -/

/-- A spot some lines further down. -/
def Spot.lower (lines : Nat) (s : Spot) : Spot := ⟨s.line + lines, s.column⟩

/-- A place in a text that comes to stand below a text before it. -/
def Place.below (before : Text) (p : Place) : Place :=
  ⟨p.offset + before.length, p.spot.lower before.lineFeeds⟩

namespace Place

/-- Places move down together. -/
theorem next_below (before : Text) (p : Place) (c : CodePoint) :
    (p.below before).next c = (p.next c).below before := by
  by_cases h : c = '\n'
  · rw [h, next_lineFeed, next_lineFeed]
    simp [below, Spot.lower]
    omega
  · rw [next_of_ne h, next_of_ne h]
    simp [below, Spot.lower]
    omega

/-- Behind the end of a line, places are those from the start on, moved down. -/
theorem after_origin_of_endsLine {t : Text} (h : t.EndsLine) :
    origin.after t = origin.below t := by
  rw [after_origin, h.lastLine_eq_nil]
  simp only [below, origin, Spot.lower, List.length_nil, Nat.zero_add, Nat.add_zero]

end Place

/-! ## Moving right -/

/-- A spot some columns further right. -/
def Spot.rightward (columns : Nat) (s : Spot) : Spot := ⟨s.line, s.column + columns⟩

/-- A place in a line that comes to stand behind a text before it in the line. -/
def Place.behind (before : Text) (p : Place) : Place :=
  ⟨p.offset + before.length, p.spot.rightward before.length⟩

namespace Place

/-- Within a line, places move right together. -/
theorem next_behind (before : Text) {c : CodePoint} (h : c ≠ '\n') (p : Place) :
    (p.behind before).next c = (p.next c).behind before := by
  rw [next_of_ne h, next_of_ne h]
  simp [behind, Spot.rightward]
  omega

/-- A text without line feeds leads to the right. -/
theorem after_of_oneLine {t : Text} (h : CodePoint.ofChar '\n' ∉ t) (p : Place) :
    p.after t = p.behind t := by
  induction t generalizing p with
  | nil => rfl
  | cons c t ih =>
    rw [List.mem_cons, not_or] at h
    show (p.next c).after t = _
    rw [ih h.2, next_of_ne (Ne.symm h.1)]
    simp [behind, Spot.rightward]
    omega

end Place

end Packaging
