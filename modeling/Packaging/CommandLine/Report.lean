import Packaging.Json.Writer
import Packaging.Session

/-! # Reports
What the program says about the resources of a session: as text with one attribute a line, or as JSON
in one line. -/

namespace Packaging.CommandLine

/-- The line of an attribute. -/
def attributeLine (name : Text) (value : Json) : Text :=
  Text.concat ["  ", name, ": ", value.write .inline, "\n"]

/-- The lines of a wrapper under a name: the wrapper itself, and its report without the type. -/
def resourceLines (name : Text) (w : Wrapper) : Text :=
  let held := w.report.filter fun (key, _) => key ≠ Wrapper.typeKey
  Text.concat (Text.concat [name, " = ", w.text, "\n"] ::
    held.map fun (key, value) => attributeLine key value)

/-- The report of the resources of a session as text. -/
def textReport (s : Session) : Text :=
  Text.concat (s.resources.map fun (name, w) => resourceLines name w)

/-- The report of the resources of a session as one value. -/
def reportValue (s : Session) : Json :=
  .object (s.resources.map fun (name, w) => (name, .object w.report))

/-- The report of the resources of a session as JSON. -/
def jsonReport (s : Session) : Text := (reportValue s).write .compact ++ "\n"

end Packaging.CommandLine
