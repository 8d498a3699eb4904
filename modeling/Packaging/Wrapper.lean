import Packaging.Attribute
import Packaging.Failure
import Packaging.Policy

/-! # Wrappers
A wrapper makes a record a value of the script language. Its intrinsic attributes belong to the
record and can only be read; the collection attributes belong to its context. A wrapper without a
context reads every collection attribute as null and refuses to write any. A wrapper of a kind that has
no context does not even have a place for one, until a policy fills it or a removal leaves it empty. -/

namespace Packaging

/-- A record as a value of the script language. -/
structure Wrapper where
  /-- The record. -/
  record : Record
  /-- How the resource is added to a collection, if that has been decided. -/
  context : Option Context := none
  /-- Whether the context was ever taken away. -/
  emptied : Bool := false

namespace Wrapper

/-- The kind of a wrapper is the kind of its record. -/
def kind (w : Wrapper) : Kind := w.record.kind

/-- The type name of a wrapper. -/
def typeName (w : Wrapper) : Text := w.kind.typeName

/-- The text of a wrapper. -/
def text (w : Wrapper) : Text :=
  match w.record with
  | .moduleSource m => Text.concat [w.typeName, "<name=", m.name, ">"]
  | .packageResource r =>
    Text.concat [w.typeName, "<package=", r.leafPackage, ", name=", r.relativeName, ">"]
  | .distributionResource r =>
    Text.concat [w.typeName, "<package=", r.package, ", name=", r.name, ">"]
  | .extensionModule m => Text.concat [w.typeName, "<name=", m.name, ">"]

/-- The name of the attribute that reads a module's source. -/
def sourceName : Text := "source"

/-- The source of a module could not be read. -/
def sourceUnreadable (fault : FileFault) : Diagnostic where
  kind := .sourceResolution
  reasonCode := "source-resolution"
  message := "error resolving source code: " ++ fault.message
  label := some sourceName
  typeName := some Kind.sourceModule.typeName
  attrName := some sourceName

/-- The source of a module is not UTF-8. -/
def sourceUndecodable : Diagnostic where
  kind := .textDecoding
  reasonCode := "source-decode"
  message := "error converting source code to UTF-8"
  label := some sourceName
  typeName := some Kind.sourceModule.typeName
  attrName := some sourceName

/-- The source of a module as a text. -/
def readSource (m : ModuleSource) (files : Files) : Except Failure Json :=
  match m.source.resolve files with
  | .error fault =>
    .error (if fault.isSystem then sourceUnreadable fault else fault.toFault)
  | .ok bytes =>
    match Utf8.decode bytes with
    | .error _ => .error sourceUndecodable
    | .ok t => .ok (.text t)

/-- How an intrinsic attribute is read. -/
abbrev Getter := Files → Except Failure Json

/-- An attribute that the record holds as it is. -/
def constant (data : Json) : Getter := fun _ => .ok data

/-- The intrinsic attributes of a record, in the order of messages and reports. -/
def intrinsics : Record → List (Text × Getter)
  | .moduleSource m =>
    [("name", constant (.text m.name)), (sourceName, readSource m),
      ("is_package", constant (.bool m.isPackage))]
  | .packageResource r =>
    [("package", constant (.text r.leafPackage)), ("name", constant (.text r.relativeName))]
  | .distributionResource r =>
    [("package", constant (.text r.package)), ("name", constant (.text r.name))]
  | .extensionModule m => [("name", constant (.text m.name))]

/-- The collection attributes that a wrapper has, by name. -/
def collectionNames (w : Wrapper) : List Text :=
  if w.kind.hasContext then Attribute.names else []

/-- The names of all attributes of a wrapper. -/
def names (w : Wrapper) : List Text := (intrinsics w.record).map (·.1) ++ w.collectionNames

/-- Whether a wrapper has an attribute. -/
def has (w : Wrapper) (attr : Text) : Bool :=
  ((intrinsics w.record).lookup attr).isSome ||
    (w.kind.hasContext && (Attribute.ofName? attr).isSome)

/-- What the context of a wrapper holds in a collection attribute; null without a context. -/
def read (w : Wrapper) (a : Attribute) : Json :=
  match w.context with
  | none => .null
  | some c => a.read c

/-- Whether a wrapper has a place for a context, be it empty. -/
def hasPlace (w : Wrapper) : Bool := w.kind.hasContext || w.emptied || w.context.isSome

/-- A wrapper was asked for the place of its context and has none. -/
def noPlace (w : Wrapper) : Fault := Fault.lacksAttribute w.kind.valueName "add_context"

/-- Reads a collection attribute by name. Only names of collection attributes may be asked for. -/
def getCollection (w : Wrapper) (attr : Text) : Except Failure Json :=
  match Attribute.ofName? attr with
  | some a => if w.hasPlace then .ok (w.read a) else .error w.noPlace
  | none =>
    .error (Fault.precondition
      (Text.concat ["get_context_attr(", attr, ") called for a non-context attribute"]))

/-- Writes a collection attribute by name. Only names of collection attributes may be asked for. -/
def setCollection (w : Wrapper) (attr : Text) (value : Value) : Except Failure Wrapper :=
  match Attribute.ofName? attr with
  | some a =>
    match w.context with
    | none =>
      if w.hasPlace then .error (Diagnostic.missingContext w.typeName attr) else .error w.noPlace
    | some c =>
      match a.write w.typeName c value with
      | .ok c => .ok { w with context := some c }
      | .error d => .error d
  | none =>
    .error (Fault.precondition
      (Text.concat ["set_context_attr(", attr, ") called for a non-context attribute"]))

/-- Reads an attribute by name. -/
def get (files : Files) (w : Wrapper) (attr : Text) : Except Failure Json :=
  match (intrinsics w.record).lookup attr with
  | some getter => getter files
  | none =>
    if w.kind.hasContext && (Attribute.ofName? attr).isSome then w.getCollection attr
    else
      .error (Diagnostic.unsupportedAttribute w.typeName attr Diagnostic.Access.get.operation w.names)

/-- Writes an attribute by name. Intrinsic attributes cannot be written. -/
def set (w : Wrapper) (attr : Text) (value : Value) : Except Failure Wrapper :=
  if w.kind.hasContext && (Attribute.ofName? attr).isSome then w.setCollection attr value
  else
    .error (Diagnostic.unsupportedAttribute w.typeName attr Diagnostic.Access.set.operation
      w.collectionNames)

/-- A wrapper with its context taken away. -/
def dropContext (w : Wrapper) : Wrapper := { w with context := none, emptied := true }

/-- The intrinsic attributes that a record holds as they are. -/
def heldAttributes : Record → Members
  | .moduleSource m => [("name", .text m.name), ("is_package", .bool m.isPackage)]
  | .packageResource r => [("package", .text r.leafPackage), ("name", .text r.relativeName)]
  | .distributionResource r => [("package", .text r.package), ("name", .text r.name)]
  | .extensionModule m => [("name", .text m.name)]

/-- The key of a wrapper's type name in its report. -/
def typeKey : Text := "type"

/-- The report of a wrapper: its type, and every attribute but the source of a module. -/
def report (w : Wrapper) : Members :=
  (typeKey, .text w.typeName) :: heldAttributes w.record ++
    if w.kind.hasContext then Attribute.all.map fun a => (a.name, w.read a) else []

/-- A wrapper with the context that a policy derives for its record. An earlier context is lost. -/
def applyPolicy (p : Policy) (w : Wrapper) : Except Failure Wrapper :=
  match p.derive (.record w.record) with
  | .ok c => .ok { w with context := some c }
  | .error fault => .error (Fault.invalidValue fault.message)

end Wrapper

end Packaging
