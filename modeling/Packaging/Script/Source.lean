import Packaging.Failure
import Packaging.Script.Machine
import Packaging.Script.Tree
import Packaging.Text.Blank

/-! # Sources
From the text of a script, or of a single expression, to its trees. A text that the grammar does not
allow is refused at its first impossible lexeme, whatever else is wrong with it; only then do the
rules about strings, numerals and arguments count. -/

namespace Packaging.Script

/-- Why a text is no script. -/
inductive SourceFault
  /-- The grammar allows nothing like it: an excerpt around a spot. -/
  | unexpected (excerpt : Text) (spot : Spot)
  /-- A rule about strings, numerals or arguments is broken. -/
  | violation (v : Violation)

/-- A script that could not be read, as a diagnostic. -/
def unreadable (label message : Text) (spot : Spot) : Diagnostic where
  kind := .script (some spot.line) (some spot.column)
  reasonCode := "script-parse"
  message := message
  label := some label

/-- A fault as a failure. A numeral with too many digits is no matter of the script language. -/
def SourceFault.failure : SourceFault → Failure
  | unexpected excerpt spot => unreadable "parse" ("syntax error: " ++ excerpt) spot
  | violation (.badString raw fault spot) =>
    unreadable "string" (Text.concat ["invalid string literal ", raw, ": ", fault.message]) spot
  | violation (.tooLong fault) => Fault.invalidValue fault.message
  | violation (.duplicateKeyword name func spot) =>
    unreadable func
      (Text.concat ["duplicate keyword argument '", name, "' in call to ", func]) spot
  | violation (.positionalAfterKeyword func spot) =>
    unreadable func ("positional argument follows keyword argument in call to " ++ func) spot

/-- How many code points an excerpt shows on each side of a place. -/
def excerptWidth : Nat := 40

/-- The distance of tab stops. -/
def tabWidth : Nat := 8

/-- How many columns a text fills from a given column on, a tab reaching to the next tab stop. -/
def columnsFrom (column : Nat) : Text → Nat
  | [] => 0
  | c :: r =>
    if c = '\t' then
      let width := tabWidth - column % tabWidth
      width + columnsFrom (column + width) r
    else if c = '\n' ∨ c = '\r' then 1 + columnsFrom 0 r
    else 1 + columnsFrom (column + 1) r

/-- The surroundings of a place in its line, with a mark below the place. -/
def excerpt (source : Text) (offset : Nat) : Text :=
  let near := (source.take offset).drop (offset - excerptWidth)
  let before := (near.reverse.takeWhile (· ≠ CodePoint.ofChar '\n')).reverse
  let after := ((source.drop offset).take excerptWidth).takeWhile (· ≠ CodePoint.ofChar '\n')
  let indent : Text := List.replicate (columnsFrom 0 before) (CodePoint.ofChar ' ')
  (Text.concat [before, after, "\n", indent, "^\n"]).trim

/-- The fault of a text that becomes impossible at a place. -/
def unexpectedAt (source : Text) (place : Place) : SourceFault :=
  .unexpected (excerpt source place.offset) place.spot

/-- Reads the lexemes of a text with a machine, and takes what it has read. If the lexemes run out
too early, the last of them is the place of the fault. -/
def readWith {α : Type} (m : Machine) (result? : Machine → Option α) (source : Text) :
    Except SourceFault α :=
  let scan := scan source
  match m.run scan.lexemes with
  | .error (l :: _) => .error (unexpectedAt source l.place)
  | .error [] => .error (unexpectedAt source .origin)
  | .ok m =>
    if scan.rest.isEmpty then
      match result? m with
      | some a => .ok a
      | none =>
        .error (unexpectedAt source ((scan.lexemes.getLast?.map (·.place)).getD .origin))
    else .error (unexpectedAt source scan.stop)

/-- A text that ends in a line feed. -/
def closeLastLine (source : Text) : Text :=
  if source.getLast? = some (CodePoint.ofChar '\n') then source else Text.concat [source, "\n"]

variable [CharacterNames]

/-- The statements of a script. -/
def parse (source : Text) : Except SourceFault (List Statement) :=
  match readWith .script Machine.lines? (closeLastLine source) with
  | .error fault => .error fault
  | .ok lines => (lines.mapM Line.toStatement).mapError .violation

/-- The expression that a text is, blanks around it aside. -/
def parseExpr (source : Text) : Except SourceFault Expr :=
  match readWith .expression Machine.phrase? source.trim with
  | .error fault => .error fault
  | .ok phrase => phrase.toExpr.mapError .violation

end Packaging.Script
