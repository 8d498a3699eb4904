import Packaging.Context
import Packaging.Diagnostic

/-! # Collection attributes
The attributes through which scripts read and change a collection context. They are the same for
every kind of resource that has a context. A write decodes its value before it changes anything, so a
refused value leaves the context as it was. -/

namespace Packaging

/-- An attribute of a collection context. -/
inductive Attribute
  /-- Whether the resource is collected. -/
  | included
  /-- Where it is placed. -/
  | location
  /-- Where it is placed if the first place does not work. -/
  | fallback
  /-- Whether source is kept beside bytecode. -/
  | source
  /-- Whether bytecode of optimisation level zero is made. -/
  | optimizeLevelZero
  /-- Whether bytecode of optimisation level one is made. -/
  | optimizeLevelOne
  /-- Whether bytecode of optimisation level two is made. -/
  | optimizeLevelTwo
  deriving DecidableEq

namespace Attribute

/-- All collection attributes, in the order of messages and reports. -/
def all : List Attribute :=
  [included, location, fallback, source, optimizeLevelZero, optimizeLevelOne, optimizeLevelTwo]

/-- The name of a collection attribute. -/
def name : Attribute → Text
  | included => "add_include"
  | location => "add_location"
  | fallback => "add_location_fallback"
  | source => "add_source"
  | optimizeLevelZero => "add_bytecode_optimization_level_zero"
  | optimizeLevelOne => "add_bytecode_optimization_level_one"
  | optimizeLevelTwo => "add_bytecode_optimization_level_two"

/-- The names of all collection attributes. -/
def names : List Text := all.map name

/-- The collection attribute of a given name. -/
def ofName? (attr : Text) : Option Attribute := all.find? fun a => a.name = attr

/-- Every collection attribute is found by its name. -/
@[simp] theorem ofName?_name (a : Attribute) : ofName? a.name = some a := by
  cases a <;> decide +kernel

/-- What a context holds in an attribute: a text or null for locations. -/
def read (c : Context) : Attribute → Json
  | included => c.included
  | location => c.location.toJson
  | fallback => Json.ofText? (c.fallback.bind Location.encode)
  | source => c.storeSource
  | optimizeLevelZero => c.optimizeLevelZero
  | optimizeLevelOne => c.optimizeLevelOne
  | optimizeLevelTwo => c.optimizeLevelTwo

/-- The default location was written where an explicit place is needed. -/
def placeRequired (typeName : Text) (value : Value) : Diagnostic where
  kind := .locationDecode value
  reasonCode := "location-decode"
  message := Text.concat [location.name, " on ", typeName,
    " requires a concrete location; got ", value.display]
  label := some (Diagnostic.Access.set.label location.name)
  typeName := some typeName
  attrName := some location.name

/-- A context with a value written to an attribute: locations are decoded, and flags take the truth
of the value. -/
def write (typeName : Text) (c : Context) (a : Attribute) (value : Value) :
    Except Diagnostic Context :=
  let flag := Json.bool value.isTrue
  match a with
  | included => .ok { c with included := flag }
  | location =>
    match Location.decode value with
    | .ok .default => .error (placeRequired typeName value)
    | .ok place => .ok { c with location := place }
    | .error refusal => .error refusal.diagnostic
  | fallback =>
    match Location.decode value with
    | .ok .default => .ok { c with fallback := none }
    | .ok place => .ok { c with fallback := some place }
    | .error refusal => .error refusal.diagnostic
  | source => .ok { c with storeSource := flag }
  | optimizeLevelZero => .ok { c with optimizeLevelZero := flag }
  | optimizeLevelOne => .ok { c with optimizeLevelOne := flag }
  | optimizeLevelTwo => .ok { c with optimizeLevelTwo := flag }

end Attribute

end Packaging
