import Packaging.Text

/-! # Blank code points
The code points that trimming removes: the space separators, the line and paragraph separators, and
the control codes that a terminal treats as layout or as separators of records. -/

namespace Packaging

/-- Whether trimming removes a code point at either end of a text. -/
def CodePoint.isBlank (c : CodePoint) : Bool :=
  c.isBetween 0x09 0x0d || c.isBetween 0x1c 0x20 || c.val == 0x85 || c.val == 0xa0 ||
    c.val == 0x1680 || c.isBetween 0x2000 0x200a || c.isBetween 0x2028 0x2029 ||
    c.val == 0x202f || c.val == 0x205f || c.val == 0x3000

namespace Text

/-- A text without the blanks at its start. -/
def trimStart (t : Text) : Text := t.dropWhile CodePoint.isBlank

/-- A text without the blanks at its end. -/
def trimEnd (t : Text) : Text := (t.reverse.dropWhile CodePoint.isBlank).reverse

/-- A text without the blanks at either end. -/
def trim (t : Text) : Text := t.trimStart.trimEnd

/-- There is nothing to trim at the start of the empty text. -/
@[simp] theorem trimStart_nil : trimStart [] = [] := rfl

/-- There is nothing to trim at the end of the empty text. -/
@[simp] theorem trimEnd_nil : trimEnd [] = [] := rfl

/-- There is nothing to trim from the empty text. -/
@[simp] theorem trim_nil : trim [] = [] := rfl

end Text

end Packaging
