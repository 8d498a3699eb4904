import Packaging.Diagnostic
import Packaging.Files

/-! # Failures
Everything that can go wrong, by its nature: a diagnostic for the author of a script or a policy, or
a fault that no author can be told about in those terms. A failure may carry the fault that it was
made from. -/

namespace Packaging

/-- What went wrong. -/
inductive Fault
  /-- A failure that the author of a script or of a policy can act on. -/
  | diagnostic (d : Diagnostic)
  /-- Something was given a value of a type that it does not take, or the wrong arguments. -/
  | wrongType (message : Text)
  /-- Something was given a value of the right type that it does not take. -/
  | invalidValue (message : Text)
  /-- A caller did not keep its part of a contract. -/
  | precondition (message : Text)
  /-- Something was asked for what it does not have. -/
  | lacking (message : Text)
  /-- A file could not be read. -/
  | file (fault : FileFault)
  /-- A text has no encoding. -/
  | encoding (fault : Utf8.EncodeFault)

/-- The fault of a file that could not be read: what the file system does not report is a fault of
the path given. -/
def FileFault.toFault : FileFault → Fault
  | nullInPath => .invalidValue nullInPath.message
  | unencodablePath fault => .encoding fault
  | fault => .file fault

/-- A value of some kind was asked for an attribute that it does not have. -/
def Fault.lacksAttribute (kindName attr : Text) : Fault :=
  .lacking (Text.concat ["'", kindName, "' object has no attribute '", attr, "'"])

/-- The wording of a fault. -/
def Fault.message : Fault → Text
  | diagnostic d => d.human
  | wrongType message => message
  | invalidValue message => message
  | precondition message => message
  | lacking message => message
  | file fault => fault.message
  | encoding fault => fault.message

/-- A fault together with the fault that it was made from, if any. -/
structure Failure where
  /-- What went wrong. -/
  fault : Fault
  /-- What it was made from. -/
  cause : Option Fault := none

instance : Coe Fault Failure := ⟨fun fault => ⟨fault, none⟩⟩

instance : Coe Diagnostic Failure := ⟨fun d => ⟨.diagnostic d, none⟩⟩

/-- A diagnostic made from another fault. -/
def Diagnostic.causedBy (d : Diagnostic) (cause : Fault) : Failure := ⟨.diagnostic d, some cause⟩

end Packaging
