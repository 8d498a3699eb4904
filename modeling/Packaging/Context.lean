import Packaging.Location

/-! # Collection contexts
How one resource is added to a collection. A context has a location, and perhaps a second one to fall
back on; that both are explicit places is checked when a context is placed and when either is written.
Flags hold whatever a policy gave them, so they are plain data; scripts write truth values to them. -/

namespace Packaging

/-- What a location field holds before anything has checked it. -/
inductive Placement
  /-- A location. -/
  | location (l : Location)
  /-- Plain data of any other kind; null stands for no location. -/
  | other (data : Json)

namespace Placement

instance : Coe Location Placement := ⟨location⟩

/-- No location. -/
def none : Placement := other .null

/-- The location in memory. -/
def inMemory : Placement := location (.concrete .inMemory)

/-- The explicit place that a field holds, if it holds one. -/
def concrete? : Placement → Option ConcreteLocation
  | location (.concrete place) => some place
  | _ => Option.none

/-- How a message shows what a field holds. -/
def display : Placement → Text
  | location l => l.display
  | other data => data.display

end Placement

/-- How one resource is added to a collection. -/
structure Context where
  /-- Whether the resource is collected. -/
  included : Json := .bool true
  /-- Where it is placed. -/
  location : Location := .concrete .inMemory
  /-- Where it is placed if the first place does not work. -/
  fallback : Option Location := none
  /-- Whether source is kept beside bytecode. -/
  storeSource : Json := .bool false
  /-- Whether bytecode of optimisation level zero is made. -/
  optimizeLevelZero : Json := .bool false
  /-- Whether bytecode of optimisation level one is made. -/
  optimizeLevelOne : Json := .bool false
  /-- Whether bytecode of optimisation level two is made. -/
  optimizeLevelTwo : Json := .bool false

/-- Why a context cannot be placed. -/
inductive PlacementFault
  /-- The location is no explicit place. -/
  | location (given : Placement)
  /-- The fallback is neither absent nor an explicit place. -/
  | fallback (given : Placement)

/-- The wording of a fault. -/
def PlacementFault.message : PlacementFault → Text
  | location given => "collection context location must be concrete, got " ++ given.display
  | fallback given => "collection context fallback must be concrete or None, got " ++ given.display

namespace Context

/-- A fallback as a context keeps it, if it is absent or an explicit place. -/
def fallbackOf? : Placement → Option (Option Location)
  | .other .null => some none
  | given => given.concrete?.map fun place => some (.concrete place)

/-- A context with its location and fallback taken from unchecked fields. -/
def placedAt (c : Context) (location fallback : Placement) : Except PlacementFault Context :=
  match location.concrete? with
  | none => .error (.location location)
  | some place =>
    match fallbackOf? fallback with
    | none => .error (.fallback fallback)
    | some second => .ok { c with location := place, fallback := second }

end Context

end Packaging
