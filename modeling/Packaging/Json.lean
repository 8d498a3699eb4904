import Packaging.Bindings
import Packaging.Number.Double

/-! # JSON values
The values of policy documents, and the plain values of scripts: integers and doubles are different
kinds, and the members of an object keep the order in which their keys first came. -/

namespace Packaging

/-- A JSON value. -/
inductive Json
  /-- The absent value. -/
  | null
  /-- A truth value. -/
  | bool (b : Bool)
  /-- An integer. -/
  | int (n : Int)
  /-- A number with a fraction or an exponent. -/
  | float (x : Double)
  /-- A text. -/
  | text (t : Text)
  /-- A list of values. -/
  | array (items : List Json)
  /-- An object: keys and their values. -/
  | object (members : List (Text × Json))

namespace Json

instance : Inhabited Json := ⟨null⟩

instance : Coe Bool Json := ⟨bool⟩

instance : Coe Text Json := ⟨text⟩

/-- Whether a value counts as true: nulls, zeros and everything empty do not. -/
def isTrue : Json → Bool
  | null => false
  | bool b => b
  | int n => n != 0
  | float x => !x.isZero
  | text t => !t.isEmpty
  | array items => !items.isEmpty
  | object members => !members.isEmpty

/-- The name of a value's kind, as messages give it. -/
def kindName : Json → Text
  | null => "NoneType"
  | bool _ => "bool"
  | int _ => "int"
  | float _ => "float"
  | text _ => "str"
  | array _ => "list"
  | object _ => "dict"

/-- An absent text is the null value. -/
def ofText? : Option Text → Json
  | none => null
  | some t => text t

/-- A truth value is true exactly if it says so. -/
@[simp] theorem isTrue_bool (b : Bool) : (bool b).isTrue = b := rfl

end Json

/-- The members of an object. -/
abbrev Members := Bindings Json

end Packaging
