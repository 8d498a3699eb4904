import Packaging.CommandLine.Form
import Packaging.Text.Quoted

/-! # Misuse
The ways in which arguments can be wrong. -/

namespace Packaging.CommandLine

/-- Why arguments fit no form. -/
inductive Misuse
  /-- An abbreviation fits several names of switches. -/
  | ambiguous (argument : Text) (names : List Text)
  /-- A switch without a value was given one. -/
  | ignoredValue (s : Switch) (value : Text)
  /-- A switch was not given its value. -/
  | expectedValue (s : Switch)
  /-- An argument that has to be there is missing. -/
  | missing (argument : Text)
  /-- No command has the name given. -/
  | invalidCommand (word : Text)
  /-- Arguments are left over. -/
  | unrecognized (arguments : List Text)
  deriving DecidableEq

/-- Names the argument that a message is about. -/
def aboutArgument (argument message : Text) : Text :=
  Text.concat ["argument ", argument, ": ", message]

/-- The wording of a misuse. -/
def Misuse.message : Misuse → Text
  | ambiguous argument names =>
    Text.concat ["ambiguous option: ", argument, " could match ", Text.join ", " names]
  | ignoredValue s value =>
    aboutArgument (Text.join "/" s.names) ("ignored explicit argument " ++ value.quoted)
  | expectedValue s => aboutArgument (Text.join "/" s.names) "expected one argument"
  | missing argument => "the following arguments are required: " ++ argument
  | invalidCommand word =>
    aboutArgument commandArgument
      (Text.concat ["invalid choice: ", word.quoted, " (choose from ",
        Text.join ", " (Command.all.map fun c => c.name.quoted), ")"])
  | unrecognized arguments => "unrecognized arguments: " ++ Text.join " " arguments

end Packaging.CommandLine
