import Packaging.Text.Printable

/-! # Quoted texts
How a message shows a text exactly: between quotes, with the quote, the backslash and everything
unprintable escaped. -/

namespace Packaging.Text

/-- The quote around a shown text: a single one, unless the text holds a single but no double quote. -/
def quoteMark (t : Text) : CodePoint :=
  if t.contains (CodePoint.ofChar '\'') && !t.contains (CodePoint.ofChar '"') then '"' else '\''

/-- One code point of a shown text, inside the given quotes. -/
def quotePoint (mark c : CodePoint) : Text :=
  if c = mark ∨ c = '\\' then ['\\', c]
  else if c = '\t' then "\\t"
  else if c = '\n' then "\\n"
  else if c = '\r' then "\\r"
  else if c.isPrintable then [c]
  else if c.val < 0x100 then "\\x" ++ ofHex 2 c.val
  else if c.val < 0x10000 then "\\u" ++ ofHex 4 c.val
  else "\\U" ++ ofHex 8 c.val

/-- A text between quotes, with escapes where it could not be shown as itself. -/
def quoted (t : Text) : Text :=
  let mark := t.quoteMark
  mark :: t.flatMap (quotePoint mark) ++ [mark]

end Packaging.Text
