import Packaging.CommandLine.Argument
import Packaging.Path

/-! # Invocations
Reading the arguments of the program: switches up to a command, and then what follows the command, in
the command's own form. Arguments are read from left to right, so that a request for help counts only
if nothing before it is wrong. -/

namespace Packaging.CommandLine

/-- Where the policy of a request comes from. -/
inductive PolicySource
  /-- It is the default policy. -/
  | standard
  /-- It is described by a document in a file. -/
  | file (path : Path)
  /-- A document was asked for, but its path is missing. -/
  | missing

/-- What the program is asked to do. -/
inductive Request
  /-- A script is to be run under a policy and its resources reported. -/
  | run (script : Path) (policy : PolicySource) (json : Bool)
  /-- A policy is to be shown, with a preset on top of it. -/
  | policy (policy : PolicySource) (mode : Option Text)

/-- A request, and whether its steps are to be told. -/
structure Invocation where
  /-- Whether steps are to be told. -/
  verbose : Bool
  /-- What is asked. -/
  request : Request

/-- Why arguments are no invocation. -/
inductive Refusal
  /-- A form is to be explained instead. -/
  | help (f : Form)
  /-- They do not fit a form. -/
  | misuse (f : Form) (m : Misuse)

/-- What the arguments read so far say. -/
structure Settings where
  /-- Whether steps are to be told. -/
  verbose : Bool := false
  /-- Whether the report is to be JSON. -/
  json : Bool := false
  /-- Where the policy comes from. -/
  policy : PolicySource := .standard
  /-- The name of a preset. -/
  mode : Option Text := none
  /-- The path of a script. -/
  script : Option Text := none
  /-- Arguments that fit nothing. -/
  leftOver : List Text := []

/-- Settings after a switch that takes no value. -/
def Settings.turnOn (settings : Settings) (f : Form) : Switch → Except Refusal Settings
  | .help => .error (.help f)
  | .verbose => .ok { settings with verbose := true }
  | .json => .ok { settings with json := true }
  | .policy => .error (.misuse f (.expectedValue .policy))
  | .mode => .error (.misuse f (.expectedValue .mode))

/-- The value of a switch, unless it is the separator, which stands for no value even there. -/
def switchValue? (value : Text) : Option Text := if value = separatorText then none else some value

/-- The policy that the value of a switch asks for. -/
def PolicySource.ofValue (value : Text) : PolicySource :=
  match switchValue? value with
  | some path => .file (Path.ofText path)
  | none => .missing

/-- Settings after a switch with a value. The last value counts, even if it is none. -/
def Settings.give (settings : Settings) (f : Form) (value : Text) :
    Switch → Except Refusal Settings
  | .policy => .ok { settings with policy := .ofValue value }
  | .mode => .ok { settings with mode := switchValue? value }
  | s => .error (.misuse f (.ignoredValue s value))

/-- The short name that a character makes. -/
def shortName (c : CodePoint) : Text := [CodePoint.ofChar '-', c]

/-- The switches that one argument turns on: the one that it names, and more after a short name, one
for each character of what is attached. -/
def Form.cluster (f : Form) (s : Switch) : (attached : Text) → Except Misuse (List Switch)
  | [] => .ok [s]
  | c :: rest =>
    match f.names.lookup (shortName c) with
    | some next => (f.cluster next rest).map (s :: ·)
    | none => .error (.ignoredValue s (c :: rest))

/-- The switches that an argument turns on, none of which takes a value. Only a short name can have
more switches attached to it. -/
def Form.turnedOn (f : Form) (s : Switch) (name : Text) :
    (attached : Option Text) → Except Misuse (List Switch)
  | none => .ok [s]
  | some [] => .error (.ignoredValue s [])
  | some value =>
    if separatorText.isPrefixOf name then .error (.ignoredValue s value) else f.cluster s value

/-- Settings after an argument that turns switches on. -/
def Settings.turnAllOn (settings : Settings) (f : Form) (s : Switch) (name : Text)
    (attached : Option Text) : Except Refusal Settings :=
  match f.turnedOn s name attached with
  | .error misuse => .error (.misuse f misuse)
  | .ok switches => switches.foldlM (fun settings s => settings.turnOn f s) settings

/-- Settings with one more argument left over. -/
def Settings.leave (settings : Settings) (t : Text) : Settings :=
  { settings with leftOver := settings.leftOver ++ [t] }

/-- Reads the arguments of the program up to a command: the settings, the command's name, and what
follows it. The separator, if something follows it, is taken for the name. -/
def readProgram (settings : Settings) :
    List Argument → Except Refusal (Settings × Text × List Text)
  | [] => .error (.misuse .program (.missing commandArgument))
  | a :: rest =>
    match a.role with
    | .value => .ok (settings, a.text, rest.map (·.text))
    | .separator =>
      if rest.isEmpty then .error (.misuse .program (.missing commandArgument))
      else .ok (settings, a.text, rest.map (·.text))
    | .unknown => readProgram (settings.leave a.text) rest
    | .switch s name attached =>
      match settings.turnAllOn .program s name attached with
      | .error refusal => .error refusal
      | .ok settings => readProgram settings rest

/-- Reads the arguments that follow a command. A separator next to the script's path says nothing;
anywhere else it is left over. -/
def readCommand (c : Command) (settings : Settings) (afterScript : Bool) :
    List Argument → Except Refusal Settings
  | [] =>
    if c.takesScript ∧ settings.script.isNone then
      .error (.misuse (.command c) (.missing scriptArgument))
    else .ok settings
  | a :: rest =>
    let wantsScript := c.takesScript && settings.script.isNone
    match a.role with
    | .value =>
      if wantsScript then readCommand c { settings with script := some a.text } true rest
      else readCommand c (settings.leave a.text) false rest
    | .separator =>
      if afterScript || wantsScript && !rest.isEmpty then readCommand c settings false rest
      else readCommand c (settings.leave a.text) false rest
    | .unknown => readCommand c (settings.leave a.text) false rest
    | .switch s name attached =>
      if s.valueName?.isNone then
        match settings.turnAllOn (.command c) s name attached with
        | .error refusal => .error refusal
        | .ok settings => readCommand c settings false rest
      else
        match attached, rest with
        | some value, rest =>
          match settings.give (.command c) value s with
          | .error refusal => .error refusal
          | .ok settings => readCommand c settings false rest
        | none, ⟨value, .value⟩ :: rest =>
          match settings.give (.command c) value s with
          | .error refusal => .error refusal
          | .ok settings => readCommand c settings false rest
        | none, _ => .error (.misuse (.command c) (.expectedValue s))

/-- The request that settings make for a command. -/
def Settings.request (settings : Settings) : Command → Request
  | .run => .run (Path.ofText (settings.script.getD [])) settings.policy settings.json
  | .policy => .policy settings.policy settings.mode

/-- Some arguments with their roles; a misuse is one of the form. -/
def Form.read (f : Form) (arguments : List Text) : Except Refusal (List Argument) :=
  (f.classify arguments).mapError (.misuse f)

/-- Reads the arguments of the program. -/
def Invocation.ofArguments (arguments : List Text) : Except Refusal Invocation := do
  let (settings, word, rest) ← readProgram {} (← Form.program.read arguments)
  match Command.ofName? word with
  | none => .error (.misuse .program (.invalidCommand word))
  | some c =>
    let settings ← readCommand c settings false (← (Form.command c).read rest)
    if settings.leftOver.isEmpty then
      return ⟨settings.verbose, settings.request c⟩
    else .error (.misuse .program (.unrecognized settings.leftOver))

end Packaging.CommandLine
