import Packaging.Path
import Packaging.Text.Quoted
import Packaging.Text.Utf8

/-! # Files
Reading files by their paths, and the ways in which it fails. -/

namespace Packaging

open Utf8 (Bytes)

/-- Why a file could not be read. -/
inductive FileFault
  /-- Nothing has this path. -/
  | notFound (path : Text)
  /-- The path leads to a directory. -/
  | isDirectory (path : Text)
  /-- The path goes through a file as if it were a directory. -/
  | notDirectory (path : Text)
  /-- The path, or a name in it, takes more bytes than the file system allows. -/
  | nameTooLong (path : Text)
  /-- The path holds a null character, which no file name can hold. -/
  | nullInPath
  /-- The path holds surrogates that stand for no byte. -/
  | unencodablePath (fault : Utf8.EncodeFault)
  deriving DecidableEq

/-- Whether the file system itself reports the fault. -/
def FileFault.isSystem : FileFault → Bool
  | notFound _ | isDirectory _ | notDirectory _ | nameTooLong _ => true
  | nullInPath | unencodablePath _ => false

/-- The wording of a fault. -/
def FileFault.message : FileFault → Text
  | notFound path => "[Errno 2] No such file or directory: " ++ path.quoted
  | isDirectory path => "[Errno 21] Is a directory: " ++ path.quoted
  | notDirectory path => "[Errno 20] Not a directory: " ++ path.quoted
  | nameTooLong path => "[Errno 36] File name too long: " ++ path.quoted
  | nullInPath => "embedded null byte"
  | unencodablePath fault => fault.message

/-- The files that a program can read: the content of each, or why it has none. -/
abbrev Files := Path → Except FileFault Bytes

end Packaging
