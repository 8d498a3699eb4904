import Packaging.Text

/-! # Forms
What the program can be asked to do, and in which form: the switches that stand before a command, the
commands, and the switches and other arguments that follow each of them. -/

namespace Packaging.CommandLine

/-- A switch. -/
inductive Switch
  /-- Explains a form. -/
  | help
  /-- Tells the steps of a run. -/
  | verbose
  /-- Gives a policy document. -/
  | policy
  /-- Asks for a report as JSON. -/
  | json
  /-- Gives a preset for the policy. -/
  | mode
  deriving DecidableEq

/-- A command. -/
inductive Command
  /-- Runs a script and reports its resources. -/
  | run
  /-- Shows a policy. -/
  | policy
  deriving DecidableEq

/-- A form of arguments: those of the program as a whole, or those that follow a command. -/
inductive Form
  /-- What stands before a command. -/
  | program
  /-- What follows a command. -/
  | command (c : Command)
  deriving DecidableEq

namespace Switch

/-- The names of a switch, short ones first. -/
def names : Switch → List Text
  | help => ["-h", "--help"]
  | verbose => ["-v", "--verbose"]
  | policy => ["--policy"]
  | json => ["--json"]
  | mode => ["--mode"]

/-- What the value of a switch is called, if the switch takes one. -/
def valueName? : Switch → Option Text
  | policy => some "POLICY"
  | mode => some "MODE"
  | _ => none

/-- What a switch does, for people to read. -/
def summary : Switch → Text
  | help => "show this help message and exit"
  | verbose => "Enable debug logging"
  | policy => "Path to a starpack-policy JSON file"
  | json => "Emit machine-readable JSON"
  | mode => "Resource handling mode applied on top of the policy (e.g. in-memory-only)"

end Switch

namespace Command

/-- All commands. -/
def all : List Command := [run, policy]

/-- The name of a command. -/
def name : Command → Text
  | run => "run"
  | policy => "policy"

/-- The command with a given name. -/
def ofName? (word : Text) : Option Command := all.find? (·.name = word)

/-- What a command does, for people to read. -/
def summary : Command → Text
  | run => "Run a configuration script and report the resulting resources"
  | policy => "Print the effective packaging policy as JSON"

/-- Whether a command needs the path of a script. -/
def takesScript : Command → Bool
  | run => true
  | policy => false

/-- A command is found by its name. -/
@[simp] theorem ofName?_name (c : Command) : ofName? c.name = some c := by
  cases c <;> decide +kernel

end Command

/-- The name of the program. -/
def programName : Text := "starpack"

/-- What a message calls the argument that names a script. -/
def scriptArgument : Text := "script"

/-- What a message calls the argument that names a command. -/
def commandArgument : Text := "cmd"

namespace Form

/-- How a form is called: the program, and the command if there is one. -/
def title : Form → Text
  | program => programName
  | command c => Text.concat [programName, " ", c.name]

/-- The switches of a form. -/
def switches : Form → List Switch
  | program => [.help, .verbose]
  | command .run => [.help, .policy, .json]
  | command .policy => [.help, .policy, .mode]

/-- The switches of a form by name. -/
def names (f : Form) : List (Text × Switch) :=
  f.switches.flatMap fun s => s.names.map fun name => (name, s)

end Form

end Packaging.CommandLine
