import Packaging.Files

/-! # File systems
The files and directories below the current directory, as a table from names to contents. Reading
fails in the ways a file system fails: nothing is there, a directory is there, a file stands where a
directory is needed, or a name is too long to be looked up. A path that the system cannot even be
asked about fails before that. -/

namespace Packaging

open Utf8 (Bytes)

/-- What a path can lead to. -/
inductive Node
  /-- A file with its content. -/
  | file (content : Bytes)
  /-- A directory. -/
  | directory

/-- The files and directories below the current directory, by the names that lead to them. -/
structure FileSystem where
  /-- The entries; every directory above an entry exists too. -/
  entries : List (List Text × Node)

namespace FileSystem

/-- Nothing but the current directory. -/
def empty : FileSystem := ⟨[]⟩

/-- A file system with one more entry. -/
def insert (fs : FileSystem) (path : Text) (node : Node) : FileSystem :=
  ⟨((Path.ofText path).names, node) :: fs.entries⟩

/-- What some names lead to from the current directory, none of them being two dots. -/
def node? (fs : FileSystem) (names : List Text) : Option Node :=
  if names.isEmpty then some .directory
  else
    match fs.entries.lookup names with
    | some node => some node
    | none => if fs.entries.any fun e => names.isPrefixOf e.1 then some .directory else none

/-- Whether a surrogate stands for a byte of a file name that is not UTF-8. -/
def isEscapedByte (c : CodePoint) : Bool := c.isBetween 0xdc80 0xdcff

/-- The bytes by which a file name holds a code point. -/
def nameBytes (c : CodePoint) : Bytes :=
  if isEscapedByte c then [(c.val % 0x100).toUInt8] else Utf8.encodePoint c

/-- How many bytes a name or a path takes. -/
def byteCount (t : Text) : Nat := (t.flatMap nameBytes).length

/-- The most bytes that a name can take. -/
def longestName : Nat := 255

/-- The most bytes that a path can take. -/
def longestPath : Nat := 4095

/-- Follows names from a directory, given by the names that lead to it in reverse order. Nothing is
known of what lies outside the current directory, which is written as no directory at all. -/
def follow (fs : FileSystem) (path : Text) :
    (directory : Option (List Text)) → List Text → Except FileFault Bytes
  | _, [] => .error (.isDirectory path)
  | none, name :: rest =>
    if name = Path.parentName then fs.follow path none rest
    else if longestName < byteCount name then .error (.nameTooLong path)
    else .error (.notFound path)
  | some directory, name :: rest =>
    if name = Path.parentName then
      match directory with
      | [] => fs.follow path none rest
      | _ :: above => fs.follow path (some above) rest
    else if longestName < byteCount name then .error (.nameTooLong path)
    else
      match fs.node? (name :: directory).reverse with
      | none => .error (.notFound path)
      | some .directory => fs.follow path (some (name :: directory)) rest
      | some (.file content) =>
        if rest.isEmpty then .ok content else .error (.notDirectory path)

/-- What keeps a path from being handed to the file system. -/
def pathFault? (path : Text) : Option FileFault :=
  let writable (c : CodePoint) : Bool := !c.isSurrogate || isEscapedByte c
  match path.dropWhile writable with
  | c :: r =>
    some (.unencodablePath {
      first := c
      start := (path.takeWhile writable).length
      count := 1 + (r.takeWhile (·.isSurrogate)).length })
  | [] =>
    if path.any (·.val == 0) then some .nullInPath
    else if longestPath < byteCount path then some (.nameTooLong path)
    else none

/-- The content of the file that a path leads to. -/
def read (fs : FileSystem) : Files := fun p =>
  match pathFault? p.text with
  | some fault => .error fault
  | none => fs.follow p.text (if p.root.isEmpty then some [] else none) p.names

end FileSystem

end Packaging
