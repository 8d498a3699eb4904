import Packaging.CommandLine.Help
import Packaging.CommandLine.Invocation
import Packaging.CommandLine.Report
import Packaging.Policy.Traced
import Packaging.Text.Line

/-! # The command line
What the program does with its arguments: what it writes to its two outputs, and how it ends. Nothing
but a complete report goes to the first output. -/

namespace Packaging.CommandLine

/-- How the program ends. -/
inductive Ending
  /-- The request was served, with a code that tells how. -/
  | served (code : Nat)
  /-- The arguments ended it. -/
  | stopped (code : Nat)
  /-- A fault ended it that is told to nobody in particular. -/
  | escaped (failure : Failure)

/-- What the program does. -/
structure Outcome where
  /-- What it writes to its output. -/
  output : Text := []
  /-- What it writes to its error output. -/
  errors : Text := []
  /-- How it ends. -/
  ending : Ending

/-- The code of success. -/
def successCode : Nat := 0

/-- The code of a failure that a diagnostic explains. -/
def diagnosticCode : Nat := 1

/-- The code of arguments that cannot be used. -/
def usageCode : Nat := 2

/-- A line of the program about itself. -/
def ownLine (message : Text) : Text := Text.concat [programName, ": ", message, "\n"]

/-- The steps of a run, as far as they are to be told. -/
def journal (verbose : Bool) (events : List Event) : Text :=
  if verbose then Text.concat (events.map Event.line) else []

/-- A failure of a request: a diagnostic is explained, any other fault is not. -/
def failed (told : Text) (failure : Failure) : Outcome :=
  match failure.fault with
  | .diagnostic d =>
    { errors := told ++ ownLine d.human, ending := .served diagnosticCode }
  | _ => { errors := told, ending := .escaped failure }

/-- No document can be read without a path. -/
def pathMissing : Fault := Fault.lacksAttribute "list" "read_text"

/-- The policy that a request asks for. -/
def choosePolicy (files : Files) : PolicySource → Traced Policy
  | .standard => pure {}
  | .file path => Policy.loadTraced files path
  | .missing => .fail pathMissing

/-- Why a script could not be read. -/
inductive ScriptFault
  /-- The file could not be read. -/
  | unreadable (fault : FileFault)
  /-- The file is not UTF-8. -/
  | undecodable (fault : Utf8.DecodeFault)

/-- The text of a script, with line endings unified. -/
def readScript (files : Files) (path : Path) : Except ScriptFault Text :=
  match files path with
  | .error fault => .error (.unreadable fault)
  | .ok bytes =>
    match Utf8.decode bytes with
    | .error fault => .error (.undecodable fault)
    | .ok t => .ok t.unifyLineEndings

/-- A script that could not be read. What the file system does not report is no matter of the script
and escapes. -/
def scriptFailed (told : Text) (path : Path) : ScriptFault → Outcome
  | .unreadable fault =>
    if fault.isSystem then
      { errors := told ++ ownLine
          (Text.concat ["unable to read script ", path.text, ": ", fault.message])
        ending := .served usageCode }
    else { errors := told, ending := .escaped fault.toFault }
  | .undecodable fault =>
    { errors := told ++ ownLine
        (Text.concat ["script ", path.text, " is not valid UTF-8: ", fault.message])
      ending := .served usageCode }

variable [CharacterNames]

/-- Runs a script under a policy and reports its resources. -/
def runScript (files : Files) (verbose : Bool) (policy : Policy) (told : Text) (json : Bool)
    (source : Text) : Outcome :=
  let run := ({ policy := policy } : Session).run files source
  let told := told ++ journal verbose run.events
  match run.failure with
  | some failure => failed told failure
  | none =>
    { output := if json then jsonReport run.session else textReport run.session
      errors := told
      ending := .served successCode }

/-- Serves the request to run a script. The policy comes first: if it cannot be had, the script is not
even read. -/
def serveRun (files : Files) (verbose : Bool) (script : Path) (policy : PolicySource)
    (json : Bool) : Outcome :=
  let choice := choosePolicy files policy
  let told := journal verbose choice.events
  match choice.result with
  | .error failure => failed told failure
  | .ok p =>
    match readScript files script with
    | .error fault => scriptFailed told script fault
    | .ok source => runScript files verbose p told json source

/-- The policy to show, with a preset on top of it. An empty name is no preset. -/
def shownPolicy (files : Files) (policy : PolicySource) (mode : Option Text) : Traced Policy := do
  let p ← choosePolicy files policy
  match mode with
  | none | some [] => return p
  | some mode => p.setModeTraced mode

/-- Serves the request to show a policy. -/
def servePolicy (files : Files) (verbose : Bool) (policy : PolicySource) (mode : Option Text) :
    Outcome :=
  let shown := shownPolicy files policy mode
  let told := journal verbose shown.events
  match shown.result.bind Policy.toJson with
  | .error failure => failed told failure
  | .ok document =>
    { output := document.write .indented ++ "\n"
      errors := told
      ending := .served successCode }

/-- Serves a request. -/
def serve (files : Files) (i : Invocation) : Outcome :=
  match i.request with
  | .run script policy json => serveRun files i.verbose script policy json
  | .policy policy mode => servePolicy files i.verbose policy mode

/-- What the program does with arguments that it refuses. -/
def refuse : Refusal → Outcome
  | .help f => { output := f.help, ending := .stopped successCode }
  | .misuse f m =>
    { errors := f.usage ++ Text.concat [f.title, ": error: ", m.message, "\n"]
      ending := .stopped usageCode }

/-- What the program does with its arguments. -/
def outcome (files : Files) (arguments : List Text) : Outcome :=
  match Invocation.ofArguments arguments with
  | .error refusal => refuse refusal
  | .ok i => serve files i

end Packaging.CommandLine
