import Packaging.Json.Reader
import Packaging.Policy.Document
import Packaging.Text.Line

/-! # Policy files
Policy documents in files. Whatever is wrong with the file or with the document is a diagnostic that
names the path. -/

namespace Packaging.Policy

/-- The value that a file's bytes hold: UTF-8, with line endings unified, and JSON. An integer with
too many digits is no defect of the document and stays a fault of its own. -/
def readDocument (path : Path) (bytes : Utf8.Bytes) : Except Failure Json :=
  match Utf8.decode bytes with
  | .error fault =>
    .error (invalidDocument path.text ("policy file is not valid UTF-8: " ++ fault.message))
  | .ok t =>
    match Json.read t.unifyLineEndings with
    | .ok data => .ok data
    | .error (.tooLong fault) => .error (Fault.invalidValue fault.message)
    | .error fault =>
      .error (invalidDocument path.text ("policy file is not valid JSON: " ++ fault.message))

/-- The failure of a file that could not be read: a diagnostic, if the file system reports it. -/
def unreadableFile (path : Path) (fault : FileFault) : Failure :=
  if fault.isSystem then invalidDocument path.text ("unable to read policy file: " ++ fault.message)
  else fault.toFault

/-- The document in a file. -/
def loadDocument (files : Files) (path : Path) : Except Failure Json :=
  match files path with
  | .error fault => .error (unreadableFile path fault)
  | .ok bytes => readDocument path bytes

/-- The policy that the document in a file describes. -/
def load (files : Files) (path : Path) : Except Failure Policy :=
  (loadDocument files path).bind (ofJson path.text)

end Packaging.Policy
