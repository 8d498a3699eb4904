import Packaging.Failure
import Packaging.Policy.Preset

/-! # Policy documents
A policy as a versioned JSON object. Reading a document checks its parts in a fixed order and stops
at the first that is wrong: the object itself, its format and version, unknown fields, the preset,
the two locations, the flags. -/

namespace Packaging.Policy

/-- The format that every policy document names. -/
def documentFormat : Text := "starpack-policy"

/-- The version of the format. -/
def documentVersion : Int := 0

/-- The field for the format. -/
def formatField : Text := "format"

/-- The field for the version. -/
def versionField : Text := "version"

/-- The field for the location. -/
def locationField : Text := "resources_location"

/-- The field for the fallback. -/
def fallbackField : Text := "resources_location_fallback"

/-- The field for a preset. -/
def modeField : Text := "resource_handling_mode"

/-- The field for a flag. -/
def Flag.field : Flag → Text
  | distributionSources => "include_distribution_sources"
  | nonDistributionSources => "include_non_distribution_sources"
  | distributionResources => "include_distribution_resources"
  | test => "include_test"
  | optimizeLevelZero => "bytecode_optimize_level_zero"
  | optimizeLevelOne => "bytecode_optimize_level_one"
  | optimizeLevelTwo => "bytecode_optimize_level_two"

/-- All fields that a policy document may have. -/
def knownFields : List Text :=
  [formatField, versionField, modeField, locationField, fallbackField] ++ Flag.all.map Flag.field

/-- A document that is no valid policy, as a diagnostic. -/
def invalidDocument (path : Option Text) (message : Text) : Diagnostic :=
  Diagnostic.policyConfig "policy" path message

/-- The members of a document whose format, version and fields are as they must be. -/
def checkHeader (path : Option Text) : Json → Except Failure Members
  | .object members =>
    match Bindings.get? members formatField, Bindings.get? members versionField with
    | some (.text format), some (.int version) =>
      if format = documentFormat ∧ version = documentVersion then
        let unknown := (members.map (·.1)).filter fun key => !knownFields.contains key
        if unknown.isEmpty then .ok members
        else
          .error (invalidDocument path ("policy has unknown fields: " ++
            Text.join ", " (unknown.mergeSort Text.le)))
      else .error (invalidDocument path "unsupported policy format/version (upgrade starpack?)")
    | _, _ => .error (invalidDocument path "unsupported policy format/version (upgrade starpack?)")
  | _ => .error (invalidDocument path "policy file must be a JSON object")

/-- A policy with the preset that a document names, if it names one. -/
def readMode (path : Option Text) (members : Members) (p : Policy) : Except Failure Policy :=
  match members.get? modeField with
  | none | some .null => .ok p
  | some (.text mode) =>
    match p.setMode mode with
    | .ok p => .ok p
    | .error d => .error ((invalidDocument path d.message).causedBy (.diagnostic d))
  | some _ =>
    .error (invalidDocument path
      (Text.concat ["policy field '", modeField, "' must be a string"]))

/-- A refused location in a document. -/
def invalidLocation (path : Option Text) (r : Location.Refusal) : Failure :=
  (invalidDocument path ("invalid policy location: " ++ r.message)).causedBy
    (.diagnostic r.diagnostic)

/-- A policy with the location that a document gives, if it gives one. -/
def readLocation (path : Option Text) (members : Members) (p : Policy) : Except Failure Policy :=
  match members.get? locationField with
  | none => .ok p
  | some data =>
    match Location.decodeConcrete locationField data with
    | .ok place => .ok { p with location := .location (.concrete place) }
    | .error r => .error (invalidLocation path r)

/-- A policy with the fallback that a document gives, if it gives one. -/
def readFallback (path : Option Text) (members : Members) (p : Policy) : Except Failure Policy :=
  match members.get? fallbackField with
  | none => .ok p
  | some data =>
    match Location.decode data with
    | .ok .default => .ok { p with fallback := .none }
    | .ok location => .ok { p with fallback := .location location }
    | .error r => .error (invalidLocation path r)

/-- A policy with a flag that a document gives, if it gives it. -/
def readFlag (path : Option Text) (members : Members) (p : Policy) (f : Flag) :
    Except Failure Policy :=
  match members.get? f.field with
  | none => .ok p
  | some (.bool b) => .ok (p.setFlag f (.bool b))
  | some _ =>
    .error (invalidDocument path (Text.concat ["policy field '", f.field, "' must be a boolean"]))

/-- The policy that a document describes; `path` says where the document is from. -/
def ofJson (path : Option Text) (data : Json) : Except Failure Policy := do
  let members ← checkHeader path data
  let p ← readMode path members {}
  let p ← readLocation path members p
  let p ← readFallback path members p
  Flag.all.foldlM (readFlag path members) p

/-- The preset that reading a document sets, whether or not the rest of the document is valid. -/
def presetMode? (data : Json) : Option Text :=
  match checkHeader none data with
  | .ok members =>
    match members.get? modeField with
    | some (.text mode) => (Preset.ofName? mode).map fun _ => mode
    | _ => none
  | .error _ => none

/-- A location field as a document holds it. -/
def encodePlacement : Placement → Except Failure Json
  | .location l => .ok l.toJson
  | .other .null => .ok .null
  | .other data => .error (Fault.wrongType ("not a resource location: " ++ data.display))

/-- The document that describes a policy. -/
def toMembers (p : Policy) : Except Failure Members := do
  let location ← encodePlacement p.location
  let fallback ← encodePlacement p.fallback
  return [(formatField, .text documentFormat), (versionField, .int documentVersion),
    (locationField, location), (fallbackField, fallback)] ++
    Flag.all.map fun f => (f.field, p.flag f)

/-- The document that describes a policy, as one value. -/
def toJson (p : Policy) : Except Failure Json := (toMembers p).map .object

end Packaging.Policy
