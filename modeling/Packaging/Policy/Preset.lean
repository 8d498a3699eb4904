import Packaging.Diagnostic
import Packaging.Policy

/-! # Presets
A preset names a common choice of the two locations of a policy. -/

namespace Packaging

/-- A named choice of locations. -/
inductive Preset
  /-- Everything in memory. -/
  | inMemoryOnly
  /-- Everything in a directory. -/
  | filesystemOnly (directory : Text)
  /-- In memory where that works, else in a directory. -/
  | preferInMemory (directory : Text)
  deriving DecidableEq

namespace Preset

/-- The name of the preset for memory. -/
def inMemoryName : Text := "in-memory-only"

/-- The beginning of the names of presets for a directory. -/
def filesystemName : Text := "filesystem-relative-only:"

/-- The beginning of the names of presets for memory with a directory behind it. -/
def preferName : Text := "prefer-in-memory-fallback-filesystem-relative:"

/-- The name of a preset. -/
def name : Preset → Text
  | inMemoryOnly => inMemoryName
  | filesystemOnly directory => filesystemName ++ directory
  | preferInMemory directory => preferName ++ directory

/-- The preset of a given name. -/
def ofName? (mode : Text) : Option Preset :=
  if mode = inMemoryName then some inMemoryOnly
  else
    match Text.dropBeginning? filesystemName mode with
    | some directory => some (filesystemOnly directory)
    | none => (Text.dropBeginning? preferName mode).map preferInMemory

/-- The wording of the refusal of a name. -/
def unknownMessage (mode : Text) : Text :=
  Text.concat ["unknown resource handling mode '", mode, "'; expected `", inMemoryName, "`, `",
    filesystemName, "<prefix>`, or `", preferName, "<prefix>`"]

end Preset

namespace Policy

/-- A policy with the locations of a preset. -/
def withPreset (p : Policy) : Preset → Policy
  | .inMemoryOnly => { p with location := .inMemory, fallback := .none }
  | .filesystemOnly directory =>
    { p with
      location := .location (.concrete (.filesystemRelative directory)), fallback := .none }
  | .preferInMemory directory =>
    { p with
      location := .inMemory
      fallback := .location (.concrete (.filesystemRelative directory)) }

/-- A policy with the locations of the preset of a given name. -/
def setMode (p : Policy) (mode : Text) : Except Diagnostic Policy :=
  match Preset.ofName? mode with
  | some preset => .ok (p.withPreset preset)
  | none =>
    .error (Diagnostic.policyConfig "resource_handling_mode" none (Preset.unknownMessage mode))

end Policy

end Packaging
