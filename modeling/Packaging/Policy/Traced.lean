import Packaging.Journal
import Packaging.Policy.File

/-! # Policies with a journal
Choosing presets and loading policy files, telling each step. The journal changes nothing about what
comes out. -/

namespace Packaging.Policy

/-- A policy with the locations of a preset, telling that they were given to it. -/
def setModeTraced (p : Policy) (mode : Text) : Traced Policy :=
  match p.setMode mode with
  | .ok p => (Traced.ofResult (.ok p)).after (.presetApplied mode)
  | .error d => .fail d

/-- The policy of a file, telling that it was loaded. A preset that the document names is told about
as soon as it is given to the policy, even if the document is refused later. -/
def loadTraced (files : Files) (path : Path) : Traced Policy :=
  match loadDocument files path with
  | .error failure => .fail failure
  | .ok data =>
    let presets := ((presetMode? data).map Event.presetApplied).toList
    match ofJson path.text data with
    | .error failure => ⟨presets, .error failure⟩
    | .ok p => ⟨presets ++ [.policyLoaded path.text], .ok p⟩

/-- Telling that a preset was applied does not change what comes of applying it. -/
theorem result_setModeTraced (p : Policy) (mode : Text) :
    (p.setModeTraced mode).result =
      (p.setMode mode).mapError fun d => ⟨.diagnostic d, none⟩ := by
  unfold setModeTraced
  cases p.setMode mode <;> rfl

/-- Telling that a policy was loaded does not change what comes of loading it. -/
theorem result_loadTraced (files : Files) (path : Path) :
    (loadTraced files path).result = load files path := by
  unfold loadTraced load
  cases loadDocument files path with
  | error failure => rfl
  | ok data =>
    simp only [Except.bind]
    cases ofJson path.text data <;> rfl

end Packaging.Policy
