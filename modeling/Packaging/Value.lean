import Packaging.Json.Display

/-! # Values
What names are bound to and attributes are set to: plain data, or a wrapper around a resource. A
wrapper is referred to by a handle, so that several names can share one wrapper. -/

namespace Packaging

/-- The kinds of resources that scripts can handle. -/
inductive Kind
  /-- A module in source form. -/
  | sourceModule
  /-- A file inside a package. -/
  | packageResource
  /-- A file of a distribution's metadata. -/
  | distributionResource
  /-- A compiled extension module. -/
  | extensionModule
  deriving DecidableEq

/-- The type name that scripts and reports show for a kind. -/
def Kind.typeName : Kind → Text
  | .sourceModule => "PythonSourceModule"
  | .packageResource => "PythonPackageResource"
  | .distributionResource => "PythonPackageDistributionResource"
  | .extensionModule => "PythonExtensionModule"

/-- The name of a kind where a message speaks of a wrapper as of any value. -/
def Kind.valueName (k : Kind) : Text := k.typeName ++ "Value"

/-- Whether wrappers of a kind have a collection context. -/
def Kind.hasContext : Kind → Bool
  | .extensionModule => false
  | _ => true

/-- A reference to a wrapper: its number in the order of creation, and its kind. -/
structure Handle where
  /-- The kind of the wrapper. -/
  kind : Kind
  /-- How many wrappers were created before it. -/
  index : Nat
  deriving DecidableEq

/-- A value. -/
inductive Value
  /-- Plain data. -/
  | plain (data : Json)
  /-- A wrapper around a resource. -/
  | wrapper (handle : Handle)

namespace Value

instance : Inhabited Value := ⟨plain .null⟩

instance : Coe Json Value := ⟨plain⟩

/-- Whether a value counts as true; wrappers always do. -/
def isTrue : Value → Bool
  | plain data => data.isTrue
  | wrapper _ => true

/-- The name of a value's kind, as conversions name it in their messages. -/
def kindName : Value → Text
  | plain data => data.kindName
  | wrapper handle => handle.kind.valueName

/-- The type name of a value, as attribute access names it in its messages. -/
def typeName : Value → Text
  | plain data => data.kindName
  | wrapper handle => handle.kind.typeName

/-- How a message shows a value. -/
def display : Value → Text
  | plain data => data.display
  | wrapper handle => handle.kind.valueName

/-- Every wrapper is true. -/
@[simp] theorem isTrue_wrapper (h : Handle) : (wrapper h).isTrue = true := rfl

/-- Plain data is as true as it is by itself. -/
@[simp] theorem isTrue_plain (data : Json) : (plain data).isTrue = data.isTrue := rfl

end Value

end Packaging
