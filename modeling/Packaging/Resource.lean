import Packaging.Files
import Packaging.Value

/-! # Resource records
The resources that the discovery of an application finds. Records never change; only some kinds can
be handled by scripts. -/

namespace Packaging

open Utf8 (Bytes)

/-- The content of a resource: bytes at hand, or the file that holds them. -/
inductive FileData
  /-- Bytes at hand. -/
  | bytes (content : Bytes)
  /-- The path of a file. -/
  | file (path : Path)
  deriving DecidableEq

namespace FileData

/-- Bytes or a path make a content; both or neither do not. -/
def make? : Option Bytes → Option Path → Option FileData
  | some content, none => some (bytes content)
  | none, some path => some (file path)
  | _, _ => none

/-- The wording of the refusal to make a content of both or neither. -/
def makeMessage : Text := "FileData requires exactly one of data or path"

/-- The content that holds a text. -/
def ofText (t : Text) : Except Utf8.EncodeFault FileData := (Utf8.encode t).map bytes

/-- The bytes of a content. -/
def resolve (files : Files) : FileData → Except FileFault Bytes
  | bytes content => .ok content
  | file path => files path

end FileData

/-- A module in source form. -/
structure ModuleSource where
  /-- The dotted name. -/
  name : Text
  /-- The source. -/
  source : FileData
  /-- Whether the module is a package. -/
  isPackage : Bool := false
  /-- Whether the module belongs to the standard distribution. -/
  isStdlib : Bool := false
  /-- Whether the module is a test. -/
  isTest : Bool := false
  deriving DecidableEq

/-- A file inside a package. -/
structure PackageResource where
  /-- The package that holds the file. -/
  leafPackage : Text
  /-- The name of the file inside the package. -/
  relativeName : Text
  /-- The content. -/
  data : FileData
  /-- Whether the package belongs to the standard distribution. -/
  isStdlib : Bool := false
  /-- Whether the package is a test. -/
  isTest : Bool := false
  deriving DecidableEq

/-- A file of a distribution's metadata. -/
structure DistributionResource where
  /-- The distribution. -/
  package : Text
  /-- Its version. -/
  version : Text
  /-- The name of the file. -/
  name : Text
  /-- The content. -/
  data : FileData
  deriving DecidableEq

/-- A compiled extension module. -/
structure ExtensionModule where
  /-- The dotted name. -/
  name : Text
  /-- The function that initialises the module. -/
  initFn : Option Text := none
  /-- The suffix of the module's file. -/
  fileSuffix : Text := []
  /-- The shared library that holds the module. -/
  sharedLibrary : Option FileData := none
  /-- Whether the module is a package. -/
  isPackage : Bool := false
  /-- Whether the module belongs to the standard distribution. -/
  isStdlib : Bool := false
  /-- Whether the module is built in by default. -/
  builtinDefault : Bool := false
  /-- Whether the module is required. -/
  required : Bool := false
  deriving DecidableEq

/-- A compiled module, or the request to compile one: its code or source, and how to optimise it. -/
structure ModuleBytecode where
  /-- The dotted name. -/
  name : Text
  /-- The bytecode, or the source to compile. -/
  content : FileData
  /-- The optimisation level. -/
  optimizeLevel : Int := 0
  /-- Whether the module is a package. -/
  isPackage : Bool := false
  deriving DecidableEq

/-- A shared library. -/
structure SharedLibrary where
  /-- The name. -/
  name : Text
  /-- The content. -/
  data : FileData
  /-- The name of the library's file. -/
  filename : Option Text := none
  deriving DecidableEq

/-- A record of a kind that scripts can handle. -/
inductive Record
  /-- A module in source form. -/
  | moduleSource (m : ModuleSource)
  /-- A file inside a package. -/
  | packageResource (r : PackageResource)
  /-- A file of a distribution's metadata. -/
  | distributionResource (r : DistributionResource)
  /-- A compiled extension module. -/
  | extensionModule (m : ExtensionModule)
  deriving DecidableEq

/-- The kind of a record. -/
def Record.kind : Record → Kind
  | moduleSource _ => .sourceModule
  | packageResource _ => .packageResource
  | distributionResource _ => .distributionResource
  | extensionModule _ => .extensionModule

/-- Anything that is offered for collection. -/
inductive Resource
  /-- A record of a kind that scripts can handle. -/
  | record (r : Record)
  /-- A compiled module. -/
  | moduleBytecode (m : ModuleBytecode)
  /-- The request to compile a module. -/
  | moduleBytecodeRequest (m : ModuleBytecode)
  /-- A shared library. -/
  | sharedLibrary (l : SharedLibrary)
  /-- A packed distribution. -/
  | eggFile (data : FileData)
  /-- A file that extends the search path. -/
  | pathExtension (data : FileData)
  /-- Any other value, which is no record at all. -/
  | stray (value : Value)

namespace Record

/-- The name of a record's kind, as messages give it. -/
def kindName : Record → Text
  | moduleSource _ => "ModuleSource"
  | packageResource _ => "PackageResource"
  | distributionResource _ => "PackageDistributionResource"
  | extensionModule _ => "ExtensionModule"

end Record

namespace Resource

/-- The name of a resource's kind, as messages give it. -/
def kindName : Resource → Text
  | record r => r.kindName
  | moduleBytecode _ => "ModuleBytecode"
  | moduleBytecodeRequest _ => "ModuleBytecodeRequest"
  | sharedLibrary _ => "SharedLibrary"
  | eggFile _ => "EggFile"
  | pathExtension _ => "PathExtension"
  | stray value => value.kindName

end Resource

end Packaging
