import Packaging.Location

/-! # Diagnostics
A diagnostic is a failure that the author of a script or of a policy can act on. It carries a stable
reason code, a message, and what the failure is about; each kind adds fields of its own. -/

namespace Packaging

/-- The kinds of diagnostics, with the fields that only they have. -/
inductive Diagnostic.Kind
  /-- A failure of no special kind. -/
  | general
  /-- A value is no location. -/
  | locationDecode (value : Value)
  /-- An attribute does not exist, or cannot be written. -/
  | unsupportedAttribute (operation : Text)
  /-- An attribute was written that has no collection context to keep it. -/
  | missingContext
  /-- The source of a module could not be read. -/
  | sourceResolution
  /-- The source of a module is not UTF-8. -/
  | textDecoding
  /-- A policy is not valid; the path names the document. -/
  | policyConfig (path : Option Text)
  /-- A script failed; the line and column point into it. -/
  | script (line column : Option Int)

/-- A failure that the author of a script or of a policy can act on. -/
structure Diagnostic where
  /-- The kind of the failure. -/
  kind : Diagnostic.Kind
  /-- The stable code of the reason. -/
  reasonCode : Text
  /-- What went wrong. -/
  message : Text
  /-- What it went wrong at. -/
  label : Option Text := none
  /-- The type of the value concerned. -/
  typeName : Option Text := none
  /-- The attribute concerned. -/
  attrName : Option Text := none

namespace Diagnostic

/-- Where a diagnostic of this kind says that it arose, before its message. -/
def Kind.whereText : Kind → Text
  | script (some line) _ => Text.concat ["line ", Text.ofInt line, ": "]
  | _ => []

/-- What a diagnostic of this kind says about its document, after everything else. -/
def Kind.pathText : Kind → Text
  | policyConfig (some path) => if path.isEmpty then [] else " path=" ++ path
  | _ => []

/-- A diagnostic in one line for people to read. -/
def human (d : Diagnostic) : Text :=
  let labelText : Text :=
    match d.label with
    | some label => if label.isEmpty then [] else " label=" ++ label
    | none => []
  Text.concat ["[", d.reasonCode, "] ", d.kind.whereText, d.message, labelText, d.kind.pathText]

/-- The fields that every diagnostic has, under their names. -/
def fields (d : Diagnostic) : Members :=
  [("reason_code", .text d.reasonCode), ("message", .text d.message),
    ("label", Json.ofText? d.label), ("type_name", Json.ofText? d.typeName),
    ("attribute", Json.ofText? d.attrName)]

/-- Whether two kinds agree, a refused value aside. -/
def Kind.agrees : Kind → Kind → Bool
  | general, general => true
  | locationDecode _, locationDecode _ => true
  | unsupportedAttribute a, unsupportedAttribute b => a == b
  | missingContext, missingContext => true
  | sourceResolution, sourceResolution => true
  | textDecoding, textDecoding => true
  | policyConfig a, policyConfig b => a == b
  | script a b, script c d => a == c && b == d
  | _, _ => false

/-- Whether two diagnostics agree in everything but a refused value. -/
def agrees (a b : Diagnostic) : Bool :=
  a.kind.agrees b.kind && a.reasonCode == b.reasonCode && a.message == b.message &&
    a.label == b.label && a.typeName == b.typeName && a.attrName == b.attrName

/-- The operations on attributes, as labels name them. -/
inductive Access
  /-- Reading an attribute. -/
  | get
  /-- Writing an attribute. -/
  | set
  deriving DecidableEq

/-- The name of an operation in labels. -/
def Access.operation : Access → Text
  | .get => "getattr"
  | .set => "setattr"

/-- The label of an operation on an attribute. -/
def Access.label (a : Access) (attr : Text) : Text :=
  Text.concat [a.operation, "(", attr, ")"]

/-- An attribute that does not exist on a type, or does not allow the operation named. -/
def unsupportedAttribute (typeName attr operation : Text) (expected : List Text) :
    Diagnostic where
  kind := .unsupportedAttribute operation
  reasonCode := "unsupported-attribute"
  message :=
    let verb : Text := if operation = Access.set.operation then "set" else "get"
    let names : Text := if expected.isEmpty then "<none>" else Text.join ", " expected
    Text.concat ["cannot ", verb, " attribute '", attr, "' on ", typeName,
      "; expected one of: ", names]
  label := some (Text.concat [operation, "(", attr, ")"])
  typeName := some typeName
  attrName := some attr

/-- An attribute was written on a wrapper that has no collection context. -/
def missingContext (typeName attr : Text) : Diagnostic where
  kind := .missingContext
  reasonCode := "missing-context"
  message := Text.concat ["cannot set ", attr, " on ", typeName,
    ": no collection context to configure"]
  label := some (Access.set.label attr)
  typeName := some typeName
  attrName := some attr

/-- A policy is not valid. -/
def policyConfig (label : Text) (path : Option Text) (message : Text) : Diagnostic where
  kind := .policyConfig path
  reasonCode := "policy-config"
  message := message
  label := some label

end Diagnostic

/-- A refused location as a diagnostic. -/
def Location.Refusal.diagnostic (r : Location.Refusal) : Diagnostic where
  kind := .locationDecode r.value
  reasonCode := "location-decode"
  message := r.message
  label := some r.label

end Packaging
