import Packaging.Text

/-! # Lines
Reading a file as text turns every line ending into a single line feed. A place in a text is a line
and a column, both counted from one, together with the number of code points before it. -/

namespace Packaging

/-- Unifies the line endings of what is left of a text; `returned` says that the code point before it
was a carriage return, whose line feed is already written. -/
def Text.unifyLineEndingsAfter (returned : Bool) : Text → Text
  | [] => []
  | c :: r =>
    if c = '\r' then '\n' :: unifyLineEndingsAfter true r
    else if c = '\n' ∧ returned then unifyLineEndingsAfter false r
    else c :: unifyLineEndingsAfter false r

/-- A text with each carriage return, and the line feed after it if there is one, turned into a
single line feed. -/
def Text.unifyLineEndings (t : Text) : Text := unifyLineEndingsAfter false t

/-- A line and a column, both counted from one. -/
structure Spot where
  /-- The line. -/
  line : Nat
  /-- The column, in code points. -/
  column : Nat
  deriving DecidableEq

/-- A place in a text. -/
structure Place where
  /-- How many code points come before it. -/
  offset : Nat
  /-- Its line and column. -/
  spot : Spot
  deriving DecidableEq

namespace Place

/-- The place before any text. -/
def origin : Place := ⟨0, 1, 1⟩

/-- The place after one more code point: a line feed starts a line, all else moves a column. -/
def next (p : Place) (c : CodePoint) : Place :=
  if c = '\n' then ⟨p.offset + 1, p.spot.line + 1, 1⟩
  else ⟨p.offset + 1, p.spot.line, p.spot.column + 1⟩

/-- The place after some more text. -/
def after (p : Place) (t : Text) : Place := t.foldl next p

/-- The place after nothing is the same place. -/
@[simp] theorem after_nil (p : Place) : p.after [] = p := rfl

/-- The place after two texts is the place after the second, counted from the place after the first.
-/
@[simp] theorem after_append (p : Place) (s t : Text) : p.after (s ++ t) = (p.after s).after t :=
  List.foldl_append

end Place

end Packaging
