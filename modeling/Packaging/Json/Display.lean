import Packaging.Json
import Packaging.Number.Shortest
import Packaging.Text.Quoted

/-! # Values in messages
How a message shows a value exactly: texts are quoted, and the constants have the spelling that
scripts use. -/

namespace Packaging.Json

mutual

/-- The text that shows a value. -/
def display : Json → Text
  | null => "None"
  | bool b => if b then "True" else "False"
  | int n => Text.ofInt n
  | float x => x.text
  | text t => t.quoted
  | array items => Text.concat ["[", Text.join ", " (displayItems items), "]"]
  | object members => Text.concat ["\x7b", Text.join ", " (displayMembers members), "\x7d"]

/-- The texts that show the items of a list. -/
def displayItems : List Json → List Text
  | [] => []
  | v :: rest => display v :: displayItems rest

/-- The texts that show the members of an object. -/
def displayMembers : List (Text × Json) → List Text
  | [] => []
  | (k, v) :: rest => Text.concat [k.quoted, ": ", display v] :: displayMembers rest

end

end Packaging.Json
