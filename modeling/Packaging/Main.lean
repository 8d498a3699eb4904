import Packaging.CommandLine

/-! # The program
Reads the files that the arguments name, and carries out what the command line says. -/

namespace Packaging.CommandLine

/-- The files that a policy comes from. -/
def PolicySource.paths : PolicySource → List Path
  | .file path => [path]
  | .standard | .missing => []

/-- The files that a request names. -/
def Request.paths : Request → List Path
  | .run script source _ => source.paths ++ [script]
  | .policy source _ => source.paths

/-- Files that have been read already, by their paths. -/
def readAlready (table : List (Path × Except FileFault Utf8.Bytes)) : Files := fun path =>
  (table.lookup path).getD (.error (.notFound path.text))

/-- The string of a text that came from strings. -/
def stringOf (t : Text) : String := String.ofList (t.map fun c => Char.ofNat c.val)

/-- The number by which the system says that a directory was found in place of a file. -/
def directoryCode : UInt32 := 21

/-- Reads a file. Arguments hold no null character, so all that the system can find invalid in a path is
its length. -/
def readFile (path : Path) : IO (Except FileFault Utf8.Bytes) := do
  try
    let content ← IO.FS.readBinFile (stringOf path.text)
    return .ok content.toList
  catch
    | .noFileOrDirectory _ _ _ => return .error (.notFound path.text)
    | .inappropriateType _ code _ =>
      if code = directoryCode then return .error (.isDirectory path.text)
      else return .error (.notDirectory path.text)
    | .invalidArgument _ _ _ => return .error (.nameTooLong path.text)
    | other => throw other

/-- Writes a text as UTF-8. -/
def put (stream : IO.FS.Stream) (t : Text) : IO Unit := do
  match Utf8.encode t with
  | .ok bytes => stream.write ⟨bytes.toArray⟩
  | .error fault => throw (IO.userError (stringOf fault.message))
  stream.flush

/-- Carries out what the program does, and gives the code that it ends with. -/
def carryOut (o : Outcome) : IO UInt32 := do
  put (← IO.getStdout) o.output
  put (← IO.getStderr) o.errors
  match o.ending with
  | .served code | .stopped code => return code.toUInt32
  | .escaped failure =>
    put (← IO.getStderr) (ownLine failure.fault.message)
    return diagnosticCode.toUInt32

end Packaging.CommandLine

open Packaging Packaging.CommandLine in
open scoped CharacterNames.Unlisted in
/-- Runs the program with its arguments. It brings no table of the names of characters along. -/
def main (args : List String) : IO UInt32 := do
  match Invocation.ofArguments (args.map Text.ofString) with
  | .error refusal => carryOut (refuse refusal)
  | .ok invocation =>
    let table ← invocation.request.paths.mapM fun path => do
      return (path, ← readFile path)
    carryOut (serve (readAlready table) invocation)
