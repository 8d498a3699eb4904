import Packaging.Text

/-! # Paths
A path is a root, which may be empty, and a list of names. Repeated slashes, a slash at the end and
names that are a single dot say nothing and are dropped; two dots are kept, because where they lead
depends on the file system. -/

namespace Packaging

/-- A path in normal form. -/
structure Path where
  /-- The root: empty, one slash, or two slashes, which are kept apart. -/
  root : Text
  /-- The names after the root. -/
  names : List Text
  deriving DecidableEq

namespace Path

/-- The name that leads to the directory above. -/
def parentName : Text := ".."

/-- The root of a path: exactly two slashes count as such, any other number as one. -/
def rootOf (t : Text) : Text :=
  match (t.takeWhile (· = CodePoint.ofChar '/')).length with
  | 0 => []
  | 2 => "//"
  | _ => "/"

/-- The path that a text names. -/
def ofText (t : Text) : Path where
  root := rootOf t
  names := (Text.splitAt '/' t).filter fun name => !name.isEmpty && name != Text.ofString "."

/-- The text of a path; the empty path is written as a dot. -/
def text (p : Path) : Text :=
  if p.root.isEmpty ∧ p.names.isEmpty then "."
  else p.root ++ Text.join "/" p.names

/-- The path of the current directory. -/
@[simp] theorem text_ofText_nil : (ofText []).text = Text.ofString "." := by
  decide +kernel

end Path

end Packaging
