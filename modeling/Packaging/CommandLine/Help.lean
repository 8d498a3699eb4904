import Packaging.CommandLine.Form

/-! # Help
The usage line of each form, and its explanation: what may be given, one entry a row, with the
summaries in a column of their own. -/

namespace Packaging.CommandLine

/-- One of several words, as a usage line shows the choice. -/
def oneOf (words : List Text) : Text := Text.concat ["\x7b", Text.join "," words, "\x7d"]

/-- The names of all commands, as a choice. -/
def commandChoice : Text := oneOf (Command.all.map Command.name)

/-- A name of a switch, with what its value is called. -/
def Switch.withValue (s : Switch) (name : Text) : Text :=
  match s.valueName? with
  | none => name
  | some value => Text.concat [name, " ", value]

/-- A switch in a usage line. -/
def Switch.usage (s : Switch) : Text := Text.concat ["[", s.withValue (s.names.headD []), "]"]

/-- What a form takes besides switches, in its usage line. -/
def Form.operands : Form → List Text
  | .program => [commandChoice, "..."]
  | .command c => if c.takesScript then [scriptArgument] else []

/-- The usage line of a form. -/
def Form.usage (f : Form) : Text :=
  Text.concat ["usage: ",
    Text.join " " (f.title :: f.switches.map Switch.usage ++ f.operands), "\n"]

/-- A row of an explanation. -/
structure Row where
  /-- How far the row is indented. -/
  indent : Nat
  /-- What may be given. -/
  label : Text
  /-- What it does. -/
  summary : Text := []

/-- Blanks. -/
def blanks (count : Nat) : Text := List.replicate count (CodePoint.ofChar ' ')

/-- The column in which the summaries of some rows begin: two blanks after the longest label. -/
def summaryColumn (rows : List Row) : Nat :=
  rows.foldl (fun column row => max column (row.indent + row.label.length)) 0 + 2

/-- How wide an explanation is. -/
def helpWidth : Nat := 78

/-- Puts words into lines of a width, a word going to a new line if it does not fit. -/
def wrapWords (width : Nat) (line : Text) : List Text → List Text
  | [] => [line]
  | word :: rest =>
    if line.isEmpty then wrapWords width word rest
    else if line.length + 1 + word.length ≤ width then
      wrapWords width (Text.concat [line, " ", word]) rest
    else line :: wrapWords width word rest

/-- A row as lines, with its summary in the given column. -/
def Row.lines (row : Row) (column : Nat) : Text :=
  let label := blanks row.indent ++ row.label
  if row.summary.isEmpty then label ++ "\n"
  else
    let summary := wrapWords (helpWidth - column) [] (Text.splitAt ' ' row.summary)
    Text.concat [label, blanks (column - label.length),
      Text.join ("\n" ++ blanks column) summary, "\n"]

/-- The row of a switch. -/
def Switch.row (s : Switch) : Row where
  indent := 2
  label := Text.join ", " (s.names.map s.withValue)
  summary := s.summary

/-- The row of a command. -/
def Command.row (c : Command) : Row := ⟨4, c.name, c.summary⟩

/-- The rows of what a form takes besides switches. -/
def Form.operandRows : Form → List Row
  | .program => ⟨2, commandChoice, []⟩ :: Command.all.map Command.row
  | .command c =>
    if c.takesScript then [⟨2, scriptArgument, "Path to the configuration script"⟩] else []

/-- What the program is for. -/
def description : Text := "Evaluate resource configuration scripts"

/-- The explanation of a form. -/
def Form.help (f : Form) : Text :=
  let switchRows := f.switches.map Switch.row
  let column := summaryColumn (f.operandRows ++ switchRows)
  let lines (rows : List Row) : Text := Text.concat (rows.map (·.lines column))
  let opening : Text := if f = .program then Text.concat [description, "\n\n"] else []
  let operands : Text :=
    if f.operandRows.isEmpty then []
    else Text.concat ["positional arguments:\n", lines f.operandRows, "\n"]
  Text.concat [f.usage, "\n", opening, operands, "options:\n", lines switchRows]

end Packaging.CommandLine
