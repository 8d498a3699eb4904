import Packaging.Json
import Packaging.Number.Shortest

/-! # Writing JSON
Values as JSON in ASCII: every code point outside the printable ASCII range is escaped, and one
outside the basic plane as two surrogates. A layout decides the separators, the indentation and
whether keys are sorted. -/

namespace Packaging.Json

/-- The escape of a unit of four hexadecimal digits. -/
def escapeUnit (n : Nat) : Text := "\\u" ++ Text.ofHex 4 n

/-- One code point inside a JSON string. -/
def escape (c : CodePoint) : Text :=
  if c = '"' then "\\\""
  else if c = '\\' then "\\\\"
  else if c = '\n' then "\\n"
  else if c = '\r' then "\\r"
  else if c = '\t' then "\\t"
  else if c.val = 0x08 then "\\b"
  else if c.val = 0x0c then "\\f"
  else if c.isBetween 0x20 0x7e then [c]
  else if c.val < 0x10000 then escapeUnit c.val
  else
    let n := c.val - 0x10000
    escapeUnit (0xd800 + n / 0x400) ++ escapeUnit (0xdc00 + n % 0x400)

/-- A text as a JSON string. -/
def writeText (t : Text) : Text := Text.concat ["\"", t.flatMap escape, "\""]

/-- How values are laid out. -/
structure Layout where
  /-- What comes between two items or members of one line. -/
  itemSeparator : Text
  /-- What comes between a key and its value. -/
  keySeparator : Text
  /-- The indentation of each level, or none to write all in one line. -/
  indent : Option Nat
  /-- Whether members are written in the order of their keys. -/
  sorted : Bool

/-- The layout without any blank, sorted by key. -/
def Layout.compact : Layout := ⟨",", ":", none, true⟩

/-- The layout of one line with a blank after each separator. -/
def Layout.inline : Layout := ⟨", ", ": ", none, false⟩

/-- The layout with one member a line, indented by two, sorted by key. -/
def Layout.indented : Layout := ⟨",", ": ", some 2, true⟩

/-- A line break and the indentation of a level, where the layout has them. -/
def Layout.lineBreak (layout : Layout) (depth : Nat) : Text :=
  match layout.indent with
  | none => []
  | some width => '\n' :: List.replicate (width * depth) (CodePoint.ofChar ' ')

/-- Written items between brackets. -/
def Layout.enclose (layout : Layout) (depth : Nat) (opening closing : Text) (parts : List Text) :
    Text :=
  if parts.isEmpty then opening ++ closing
  else
    Text.concat [opening, layout.lineBreak (depth + 1),
      Text.join (layout.itemSeparator ++ layout.lineBreak (depth + 1)) parts,
      layout.lineBreak depth, closing]

/-- The names of the doubles that JSON has no numeral for. -/
def writeDouble : Double → Text
  | .infinite negative => if negative then "-Infinity" else "Infinity"
  | .notANumber => "NaN"
  | x => x.text

mutual

/-- A value at some depth in a given layout. -/
def writeAt (layout : Layout) (depth : Nat) : Json → Text
  | null => "null"
  | bool b => if b then "true" else "false"
  | int n => Text.ofInt n
  | float x => writeDouble x
  | text t => writeText t
  | array items => layout.enclose depth "[" "]" (writeItems layout (depth + 1) items)
  | object members =>
    let written := writeMembers layout (depth + 1) members
    let ordered :=
      if layout.sorted then written.mergeSort fun a b => a.1.le b.1 else written
    layout.enclose depth "\x7b" "\x7d"
      (ordered.map fun (k, v) => Text.concat [writeText k, layout.keySeparator, v])

/-- The items of a list, each written. -/
def writeItems (layout : Layout) (depth : Nat) : List Json → List Text
  | [] => []
  | v :: rest => writeAt layout depth v :: writeItems layout depth rest

/-- The members of an object with their values written. -/
def writeMembers (layout : Layout) (depth : Nat) : List (Text × Json) → List (Text × Text)
  | [] => []
  | (k, v) :: rest => (k, writeAt layout depth v) :: writeMembers layout depth rest

end

/-- A value in a given layout. -/
def write (layout : Layout) (v : Json) : Text := writeAt layout 0 v

end Packaging.Json
