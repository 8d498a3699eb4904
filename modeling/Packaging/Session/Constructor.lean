import Packaging.Failure
import Packaging.Resource
import Packaging.Session.Arguments

/-! # Constructors
The functions of the script language. There is one for each kind of resource, and it makes a record
of that kind from its arguments. -/

namespace Packaging

namespace Kind

/-- All kinds, in the order in which messages list their constructors. -/
def all : List Kind := [.sourceModule, .packageResource, .distributionResource, .extensionModule]

/-- The name of the constructor of a kind. -/
def constructorName : Kind → Text
  | sourceModule => "make_source_module"
  | packageResource => "make_package_resource"
  | distributionResource => "make_distribution_resource"
  | extensionModule => "make_extension_module"

/-- The kind whose constructor has a given name. -/
def ofConstructorName? (name : Text) : Option Kind := all.find? (·.constructorName = name)

/-- A kind is found by the name of its constructor. -/
@[simp] theorem ofConstructorName?_constructorName (k : Kind) :
    ofConstructorName? k.constructorName = some k := by
  cases k <;> decide +kernel

/-- The parameters of the constructor of a kind. -/
def parameters : Kind → List Parameter
  | sourceModule => [{ name := "name" }, { name := "source" },
      { name := "is_package", default := some (.bool false) }]
  | packageResource => [{ name := "package" }, { name := "name" },
      { name := "data", default := some (.text []) }]
  | distributionResource => [{ name := "package" }, { name := "name" },
      { name := "data", default := some (.text []) },
      { name := "version", default := some (.text "0.0.0") }]
  | extensionModule => [{ name := "name" }]

/-- The values that a call of the constructor gives to its parameters. -/
def bindCall (k : Kind) (positional : List Value) (named : Bindings Value) :
    Except Fault (Bindings Value) :=
  (bindArguments k.parameters positional named).mapError fun fault =>
    .wrongType (Text.concat ["ScriptSession._", k.constructorName, "()", fault.message])

/-- The text that a parameter of the constructor was given; no other value will do. -/
def textArgument (k : Kind) (arguments : Bindings Value) (name : Text) : Except Fault Text :=
  match (Bindings.get? arguments name).getD (.plain .null) with
  | .plain (.text t) => .ok t
  | value =>
    .error (.wrongType (Text.concat [k.constructorName, "() argument '", name,
      "' must be a string, got ", value.kindName]))

/-- The content that a parameter of the constructor was given as a text. -/
def contentArgument (k : Kind) (arguments : Bindings Value) (name : Text) :
    Except Fault FileData := do
  let t ← k.textArgument arguments name
  (FileData.ofText t).mapError .encoding

/-- The record that the constructor of a kind makes of its arguments, which are checked in the order
of the record's fields. -/
def construct (k : Kind) (arguments : Bindings Value) : Except Fault Record :=
  match k with
  | sourceModule => do
    let name ← k.textArgument arguments "name"
    let source ← k.contentArgument arguments "source"
    let isPackage := ((Bindings.get? arguments "is_package").getD (.plain .null)).isTrue
    return .moduleSource { name, source, isPackage }
  | packageResource => do
    let leafPackage ← k.textArgument arguments "package"
    let relativeName ← k.textArgument arguments "name"
    let data ← k.contentArgument arguments "data"
    return .packageResource { leafPackage, relativeName, data }
  | distributionResource => do
    let package ← k.textArgument arguments "package"
    let version ← k.textArgument arguments "version"
    let name ← k.textArgument arguments "name"
    let data ← k.contentArgument arguments "data"
    return .distributionResource { package, version, name, data }
  | extensionModule => do
    let name ← k.textArgument arguments "name"
    return .extensionModule { name }

end Kind

end Packaging
