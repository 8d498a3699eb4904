import Packaging.CommandLine.Misuse
import Packaging.Text.DecimalDigit

/-! # Arguments
What each argument is to a form, seen by itself: a switch, written out or abbreviated, with a value
attached or not; something that looks like a switch but is none; the separator; or a plain value.
Everything after the separator is a plain value. -/

namespace Packaging.CommandLine

/-- What an argument is to a form. -/
inductive Role
  /-- A plain value. -/
  | value
  /-- The separator. -/
  | separator
  /-- A switch, the name that it was given by, and the value attached to it. -/
  | switch (s : Switch) (name : Text) (attached : Option Text)
  /-- It looks like a switch but is none. -/
  | unknown

/-- An argument with its role. -/
structure Argument where
  /-- The argument as given. -/
  text : Text
  /-- What it is. -/
  role : Role

/-- The argument that makes plain values of all that follow. -/
def separatorText : Text := "--"

/-- The part of an argument before its first equals sign, and the part after it. -/
def splitValue? (t : Text) : Option (Text × Text) :=
  match t.dropWhile (· ≠ CodePoint.ofChar '=') with
  | [] => none
  | _ :: value => some (t.takeWhile (· ≠ CodePoint.ofChar '='), value)

/-- Whether an argument is a negative number in decimal notation. A line feed at the end does not
count. -/
def isNegativeNumber (t : Text) : Bool :=
  let numeral : Text := if t.getLast? = some (CodePoint.ofChar '\n') then t.dropLast else t
  match numeral with
  | [] => false
  | sign :: r =>
    let fraction := r.dropWhile CodePoint.isDecimalDigit
    sign = '-' &&
      match fraction with
      | [] => !r.isEmpty
      | point :: digits =>
        point = '.' && !digits.isEmpty && digits.all CodePoint.isDecimalDigit

/-- The switches that an argument can mean besides those whose whole name it gives: those that it
abbreviates, or, after a single dash, the one whose short name it begins with. -/
def Form.candidates (f : Form) (t : Text) : List (Text × Switch × Option Text) :=
  if separatorText.isPrefixOf t then
    let (beginning, attached) :=
      match splitValue? t with
      | some (beginning, value) => (beginning, some value)
      | none => (t, none)
    f.names.filterMap fun (name, s) =>
      if beginning.isPrefixOf name then some (name, s, attached) else none
  else
    f.names.filterMap fun (name, s) =>
      if name = t.take 2 then some (name, s, some (t.drop 2))
      else if t.isPrefixOf name then some (name, s, none)
      else none

/-- The switch whose whole name an argument gives, alone or before an equals sign. -/
def Form.named? (f : Form) (t : Text) : Option (Text × Switch × Option Text) :=
  match f.names.lookup t with
  | some s => some (t, s, none)
  | none =>
    match splitValue? t with
    | none => none
    | some (name, value) => (f.names.lookup name).map fun s => (name, s, some value)

/-- What an argument that begins with a dash is, the separator aside. -/
def Form.roleOfDashed (f : Form) (t : Text) : Except Misuse Role :=
  match f.named? t with
  | some (name, s, attached) => .ok (.switch s name attached)
  | none =>
    if t.length = 1 then .ok .value
    else
      match f.candidates t with
      | [(name, s, attached)] => .ok (.switch s name attached)
      | [] =>
        if isNegativeNumber t || t.contains (CodePoint.ofChar ' ') then .ok .value
        else .ok .unknown
      | several => .error (.ambiguous t (several.map (·.1)))

/-- What an argument is to a form, the separator aside. -/
def Form.roleOf (f : Form) (t : Text) : Except Misuse Role :=
  if t.head? = some (CodePoint.ofChar '-') then f.roleOfDashed t else .ok .value

/-- Some arguments with their roles. -/
def Form.classify (f : Form) : List Text → Except Misuse (List Argument)
  | [] => .ok []
  | t :: rest =>
    if t = separatorText then .ok (⟨t, .separator⟩ :: rest.map (⟨·, .value⟩))
    else
      match f.roleOf t with
      | .error misuse => .error misuse
      | .ok role => (f.classify rest).map (⟨t, role⟩ :: ·)

end Packaging.CommandLine
