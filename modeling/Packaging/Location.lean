import Packaging.Value

/-! # Locations
Where a resource is placed: in memory, or in a directory relative to the application; or no explicit
place at all. Scripts and policy documents write locations as texts, and the default one also as the
null value. -/

namespace Packaging

/-- An explicit place for a resource. -/
inductive ConcreteLocation
  /-- The resource is loaded from memory. -/
  | inMemory
  /-- The resource is a file under a directory next to the application. -/
  | filesystemRelative (directory : Text)
  deriving DecidableEq

/-- A place for a resource, or none. -/
inductive Location
  /-- No explicit place. -/
  | default
  /-- An explicit place. -/
  | concrete (place : ConcreteLocation)
  deriving DecidableEq

namespace Location

instance : Coe ConcreteLocation Location := ⟨concrete⟩

/-- The text of the default location. -/
def defaultText : Text := "default"

/-- The text of the location in memory. -/
def inMemoryText : Text := "in-memory"

/-- The beginning of the text of every location in the file system. -/
def filesystemText : Text := "filesystem-relative:"

/-- Why a value is no location, or not one that may stand where it was given. -/
inductive Refusal
  /-- The value is neither null nor a text. -/
  | notText (value : Value)
  /-- The text has none of the known shapes. -/
  | unknownText (text : Text)
  /-- The value is the default location where an explicit place is asked for. -/
  | notConcrete (what : Text) (value : Json)

/-- The shapes that a location's text may have, as messages list them. -/
def expectedShapes : Text :=
  Text.concat ["expected `", defaultText, "`, `", inMemoryText, "`, or `", filesystemText, "*`"]

/-- The wording of a refusal. -/
def Refusal.message : Refusal → Text
  | notText value =>
    Text.concat ["unable to convert value of type ", value.kindName, " to a resource location"]
  | unknownText text => Text.concat ["unable to convert value ", text, " to a resource location"]
  | notConcrete what value =>
    Text.concat [what, " must be `", inMemoryText, "` or `", filesystemText, "*`; got ",
      value.display]

/-- The label of a refusal. -/
def Refusal.label : Refusal → Text
  | notText value => Text.concat [expectedShapes, "; got ", value.kindName]
  | unknownText text => Text.concat [expectedShapes, "; got ", text]
  | notConcrete what _ => what

/-- The value that was refused. -/
def Refusal.value : Refusal → Value
  | notText value => value
  | unknownText text => Json.text text
  | notConcrete _ value => value

end Location

/-- The text of an explicit place. -/
def ConcreteLocation.encode : ConcreteLocation → Text
  | inMemory => Location.inMemoryText
  | filesystemRelative directory => Location.filesystemText ++ directory

namespace Location

/-- The text of a location; the default one has none. -/
def encode : Location → Option Text
  | default => none
  | concrete place => some place.encode

/-- The location that a text stands for. -/
def ofText? (t : Text) : Option Location :=
  if t = defaultText then some default
  else if t = inMemoryText then some (concrete .inMemory)
  else (Text.dropBeginning? filesystemText t).map fun directory =>
    concrete (.filesystemRelative directory)

/-- The location that a value stands for. -/
def decode : Value → Except Refusal Location
  | .plain .null => .ok default
  | .plain (.text t) =>
    match ofText? t with
    | some location => .ok location
    | none => .error (.unknownText t)
  | value => .error (.notText value)

/-- The explicit place that plain data stands for, `what` naming it in the refusal. -/
def decodeConcrete (what : Text) (data : Json) : Except Refusal ConcreteLocation :=
  match decode data with
  | .error refusal => .error refusal
  | .ok (concrete place) => .ok place
  | .ok default => .error (.notConcrete what data)

/-- How a message shows a location. -/
def display : Location → Text
  | default => "DefaultLocation()"
  | concrete .inMemory => "InMemory()"
  | concrete (.filesystemRelative directory) =>
    Text.concat ["FilesystemRelative(prefix=", directory.quoted, ")"]

/-- The value that stands for a location: its text, or null. -/
def toJson (l : Location) : Json := Json.ofText? l.encode

/-- The text of an explicit place is read as that place. -/
@[simp] theorem ofText?_encode (place : ConcreteLocation) :
    ofText? place.encode = some (concrete place) := by
  cases place with
  | inMemory => rfl
  | filesystemRelative directory =>
    have hd : filesystemText ++ directory ≠ defaultText := by
      intro h
      have := congrArg List.head? h
      simp [filesystemText, defaultText, Text.ofString, CodePoint.ofChar] at this
    have hm : filesystemText ++ directory ≠ inMemoryText := by
      intro h
      have := congrArg List.head? h
      simp [filesystemText, inMemoryText, Text.ofString, CodePoint.ofChar] at this
    simp [ofText?, ConcreteLocation.encode, hd, hm]

/-- Every location is read back from the value that stands for it. -/
@[simp] theorem decode_toJson (l : Location) : decode l.toJson = .ok l := by
  cases l with
  | default => rfl
  | concrete place => simp [toJson, encode, Json.ofText?, decode]

end Location

end Packaging
