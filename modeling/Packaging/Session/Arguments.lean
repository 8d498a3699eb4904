import Packaging.Value

/-! # Arguments
Giving the arguments of a call to the parameters of a function: positional ones from the front, named
ones by name, and defaults for what is left out. The receiver of a call stands before all parameters.
It is filled already, and the counts in messages include it. -/

namespace Packaging

/-- A parameter of a function. -/
structure Parameter where
  /-- Its name. -/
  name : Text
  /-- What it gets when it is left out; without this it has to be given. -/
  default : Option Json := none

/-- Why arguments do not fit some parameters. -/
inductive BindingFault
  /-- A parameter is given twice. -/
  | repeated (name : Text)
  /-- A named argument belongs to no parameter. -/
  | unknown (name : Text)
  /-- There are more positional arguments than parameters. -/
  | tooMany (least most given : Nat)
  /-- Parameters without a default are not given. -/
  | missing (names : List Text)

namespace BindingFault

/-- Names in quotes, as a message lists them. -/
def listed (names : List Text) : Text :=
  match names.map fun name => Text.concat ["'", name, "'"] with
  | [] => []
  | [a] => a
  | [a, b] => Text.concat [a, " and ", b]
  | quoted =>
    Text.concat [Text.join ", " quoted.dropLast, ", and ", quoted.getLast?.getD []]

/-- The ending of a noun that is counted. -/
def plural (count : Nat) : Text := if count = 1 then [] else "s"

/-- The wording of a fault, after the name of the function. -/
def message : BindingFault → Text
  | repeated name => Text.concat [" got multiple values for argument '", name, "'"]
  | unknown name => Text.concat [" got an unexpected keyword argument '", name, "'"]
  | tooMany least most given =>
    let verb : Text := if given = 1 then "was" else "were"
    if least = most then
      Text.concat [" takes ", Text.ofNat most, " positional argument", plural most, " but ",
        Text.ofNat given, " ", verb, " given"]
    else
      Text.concat [" takes from ", Text.ofNat least, " to ", Text.ofNat most,
        " positional arguments but ", Text.ofNat given, " ", verb, " given"]
  | missing names =>
    Text.concat [" missing ", Text.ofNat names.length, " required positional argument",
      plural names.length, ": ", listed names]

end BindingFault

/-- The name of the receiver of a call. -/
def receiverName : Text := "self"

/-- Parameters, with the values of those that were given one. -/
abbrev Slots := List (Parameter × Option Value)

namespace Slots

/-- Parameters with positional arguments given to the first of them. -/
def fill : List Parameter → List Value → Slots
  | [], _ => []
  | p :: ps, [] => (p, none) :: fill ps []
  | p :: ps, v :: vs => (p, some v) :: fill ps vs

/-- Slots with a named argument given to its parameter, which must not have a value yet. -/
def giveIn (name : Text) (value : Value) : Slots → Except BindingFault Slots
  | [] => .error (.unknown name)
  | (p, given) :: rest =>
    if p.name = name then
      match given with
      | some _ => .error (.repeated name)
      | none => .ok ((p, some value) :: rest)
    else (giveIn name value rest).map ((p, given) :: ·)

/-- Slots with a named argument given to its parameter. The receiver has a value already. -/
def give (slots : Slots) (argument : Text × Value) : Except BindingFault Slots :=
  if argument.1 = receiverName then .error (.repeated argument.1)
  else slots.giveIn argument.1 argument.2

/-- The parameters that have no default and were not given. -/
def missing (slots : Slots) : List Text :=
  (slots.filter fun (p, given) => given.isNone && p.default.isNone).map (·.1.name)

/-- The values of all parameters by name, those left out with their defaults. -/
def values (slots : Slots) : Bindings Value :=
  slots.map fun (p, given) => (p.name, given.getD (p.default.getD .null))

end Slots

/-- The values that a call gives to the parameters of a function. Named arguments are looked at
first, in order, then the number of positional ones, then what is missing. -/
def bindArguments (parameters : List Parameter) (positional : List Value)
    (named : Bindings Value) : Except BindingFault (Bindings Value) := do
  let slots ← named.foldlM Slots.give (Slots.fill parameters positional)
  let most := parameters.length
  if most < positional.length then
    let least := (parameters.filter (·.default.isNone)).length
    throw (.tooMany (least + 1) (most + 1) (positional.length + 1))
  let missing := slots.missing
  if missing.isEmpty then return slots.values
  else throw (.missing missing)

end Packaging
