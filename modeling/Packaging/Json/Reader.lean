import Packaging.Json
import Packaging.Number.Integer
import Packaging.Text.Line

/-! # Reading JSON
A reader that stops at the first code point it cannot accept and says why and where. Of two members
with one key the last counts. Escaped surrogates that form a pair are joined; others stay as they
are. -/

namespace Packaging.Json

/-- Why a text is no JSON document. -/
inductive Defect
  /-- The text starts with a byte order mark. -/
  | byteOrderMark
  /-- No value starts here. -/
  | expectingValue
  /-- No quoted key starts here. -/
  | expectingKey
  /-- A key is not followed by a colon. -/
  | expectingColon
  /-- A value is followed neither by a comma nor by the closing bracket. -/
  | expectingComma
  /-- The text ends inside the string that starts here. -/
  | unterminatedString
  /-- A control code inside a string. -/
  | controlCode
  /-- A backslash that starts no escape. -/
  | invalidEscape
  /-- An escape without four hexadecimal digits, or the text ends right after it. -/
  | invalidUnicodeEscape
  /-- Something follows the value. -/
  | extraData
  deriving DecidableEq

/-- The wording of a defect. -/
def Defect.message : Defect → Text
  | .byteOrderMark => "Unexpected UTF-8 BOM (decode using utf-8-sig)"
  | .expectingValue => "Expecting value"
  | .expectingKey => "Expecting property name enclosed in double quotes"
  | .expectingColon => "Expecting ':' delimiter"
  | .expectingComma => "Expecting ',' delimiter"
  | .unterminatedString => "Unterminated string starting at"
  | .controlCode => "Invalid control character at"
  | .invalidEscape => "Invalid \\escape"
  | .invalidUnicodeEscape => "Invalid \\uXXXX escape"
  | .extraData => "Extra data"

/-- What stops the reader. -/
inductive Stop
  /-- A defect, and the text from the faulty place on. -/
  | malformed (defect : Defect) (rest : Text)
  /-- An integer numeral with too many digits. -/
  | tooLong (fault : Integer.TooLong)

/-- Why a document could not be read. -/
inductive ReadFault
  /-- A defect at a place of the document. -/
  | malformed (defect : Defect) (place : Place)
  /-- An integer numeral with too many digits. -/
  | tooLong (fault : Integer.TooLong)

/-- The wording of a fault. -/
def ReadFault.message : ReadFault → Text
  | .malformed defect place =>
    Text.concat [defect.message, ": line ", Text.ofNat place.spot.line, " column ",
      Text.ofNat place.spot.column, " (char ", Text.ofNat place.offset, ")"]
  | .tooLong fault => fault.message

/-- The blanks that JSON allows between its symbols. -/
def isBlank (c : CodePoint) : Bool := c.val == 0x20 || c.val == 0x09 || c.val == 0x0a || c.val == 0x0d

/-- A text without the blanks at its start. -/
def skipBlanks (t : Text) : Text := t.dropWhile isBlank

/-- What an escape of a single code point stands for. -/
def simpleEscape? (c : CodePoint) : Option CodePoint :=
  if c = '"' ∨ c = '\\' ∨ c = '/' then some c
  else if c = 'b' then some (.ofNat 0x08)
  else if c = 'f' then some (.ofNat 0x0c)
  else if c = 'n' then some '\n'
  else if c = 'r' then some '\r'
  else if c = 't' then some '\t'
  else none

/-- The code point of four hexadecimal digits. -/
def unitOf? (a b c d : CodePoint) : Option CodePoint :=
  (Text.hexValue? [a, b, c, d]).map CodePoint.ofNat

/-- The code points of a string read so far, in reverse order. -/
structure Partial where
  /-- The code points. -/
  done : Text
  /-- Whether the last one is a leading surrogate that an escape wrote. -/
  pending : Bool

/-- Adds a code point that stands for itself or was written by a simple escape. -/
def Partial.push (p : Partial) (c : CodePoint) : Partial := ⟨c :: p.done, false⟩

/-- Adds the code point of four hexadecimal digits: a trailing surrogate is joined to the leading one
that the escape right before it wrote. -/
def Partial.pushUnit (p : Partial) (unit : CodePoint) : Partial :=
  match p.pending && unit.isLowSurrogate, p.done with
  | true, high :: rest => ⟨high.joinSurrogates unit :: rest, false⟩
  | _, _ => ⟨unit :: p.done, unit.isHighSurrogate⟩

/-- Reads the rest of a string up to its closing quote. `start` is the text from the opening quote
on. -/
def readString (start : Text) (p : Partial) : Text → Except Stop (Text × Text)
  | [] => .error (.malformed .unterminatedString start)
  | c :: r =>
    if c = '"' then .ok (p.done.reverse, r)
    else if c = '\\' then
      match r with
      | [] => .error (.malformed .unterminatedString start)
      | e :: r₁ =>
        if e = 'u' then
          match r₁ with
          | a₁ :: a₂ :: a₃ :: a₄ :: r₂ =>
            match unitOf? a₁ a₂ a₃ a₄, r₂.isEmpty with
            | some unit, false => readString start (p.pushUnit unit) r₂
            | _, _ => .error (.malformed .invalidUnicodeEscape (e :: r₁))
          | _ => .error (.malformed .invalidUnicodeEscape (e :: r₁))
        else
          match simpleEscape? e with
          | some c => readString start (p.push c) r₁
          | none => .error (.malformed .invalidEscape (c :: e :: r₁))
    else if c.val < 0x20 then .error (.malformed .controlCode (c :: r))
    else readString start (p.push c) r

/-- The constants and their values. -/
def constants : List (Text × Json) :=
  [("null", null), ("true", bool true), ("false", bool false), ("NaN", float .notANumber),
    ("Infinity", float (.infinite false)), ("-Infinity", float (.infinite true))]

/-- The digits before the point of a number: a zero, or digits that do not start with one. -/
def wholeDigits : Text → Text
  | [] => []
  | c :: r => if c = '0' then [c] else if c.isDigit then c :: r.takeWhile (·.isDigit) else []

/-- The digits after the point of a number, empty if there is no point with a digit after it. -/
def fractionDigits : Text → Text
  | [] => []
  | c :: r => if c = '.' then r.takeWhile (·.isDigit) else []

/-- The sign and the digits of an exponent, with the length of its text, if it has any digit. -/
def exponentOf? : Text → Option (Int × Nat)
  | [] => none
  | e :: r =>
    if e = 'e' ∨ e = 'E' then
      let (negative, signs, r) : Bool × Nat × Text :=
        match r with
        | s :: r' => if s = '-' then (true, 1, r') else if s = '+' then (false, 1, r') else (false, 0, r)
        | [] => (false, 0, [])
      let digits := r.takeWhile (·.isDigit)
      if digits.isEmpty then none
      else
        let n : Int := Text.decimalValue digits
        some (if negative then -n else n, 1 + signs + digits.length)
    else none

/-- Reads a number. -/
def readNumber (t : Text) : Except Stop (Json × Text) :=
  let (negative, unsigned) : Bool × Text :=
    match t with
    | c :: r => if c = '-' then (true, r) else (false, t)
    | [] => (false, [])
  let whole := wholeDigits unsigned
  if whole.isEmpty then .error (.malformed .expectingValue t)
  else
    let r := unsigned.drop whole.length
    let fraction := fractionDigits r
    let r := if fraction.isEmpty then r else r.drop (1 + fraction.length)
    match exponentOf? r with
    | some (exponent, size) =>
      .ok (float (.ofDecimal negative (Text.decimalValue (whole ++ fraction)) (exponent - fraction.length)),
        r.drop size)
    | none =>
      if fraction.isEmpty then
        match Integer.read negative whole with
        | .ok n => .ok (int n, r)
        | .error fault => .error (.tooLong fault)
      else
        .ok (float (.ofDecimal negative (Text.decimalValue (whole ++ fraction)) (-fraction.length)), r)

/-- Reads a constant or a number. -/
def readScalar (t : Text) : Except Stop (Json × Text) :=
  match constants.findSome? fun (name, value) => (Text.dropBeginning? name t).map (value, ·) with
  | some read => .ok read
  | none => readNumber t

mutual

/-- Reads a value at the start of a text, with the given number of steps to spend. -/
def readValue : (fuel : Nat) → Text → Except Stop (Json × Text)
  | 0, t => .error (.malformed .expectingValue t)
  | _ + 1, [] => .error (.malformed .expectingValue [])
  | fuel + 1, c :: r =>
    if c = '"' then
      match readString (c :: r) ⟨[], false⟩ r with
      | .ok (t, r) => .ok (text t, r)
      | .error stop => .error stop
    else if c.val = 0x7b then
      match skipBlanks r with
      | [] => .error (.malformed .expectingKey [])
      | d :: r =>
        if d.val = 0x7d then .ok (object [], r) else readMembers fuel [] (d :: r)
    else if c = '[' then
      match skipBlanks r with
      | [] => .error (.malformed .expectingValue [])
      | d :: r =>
        if d = ']' then .ok (array [], r) else readItems fuel [] (d :: r)
    else readScalar (c :: r)

/-- Reads the items of a list from one item on, `done` holding the items before it in reverse
order. -/
def readItems : (fuel : Nat) → (done : List Json) → Text → Except Stop (Json × Text)
  | 0, _, t => .error (.malformed .expectingValue t)
  | fuel + 1, done, t =>
    match readValue fuel t with
    | .error stop => .error stop
    | .ok (v, r) =>
      match skipBlanks r with
      | [] => .error (.malformed .expectingComma [])
      | d :: r =>
        if d = ']' then .ok (array (v :: done).reverse, r)
        else if d = ',' then readItems fuel (v :: done) (skipBlanks r)
        else .error (.malformed .expectingComma (d :: r))

/-- Reads the members of an object from one key on, `done` holding the members before it. -/
def readMembers : (fuel : Nat) → (done : Members) → Text → Except Stop (Json × Text)
  | 0, _, t => .error (.malformed .expectingValue t)
  | _ + 1, _, [] => .error (.malformed .expectingKey [])
  | fuel + 1, done, c :: r =>
    if c = '"' then
      match readString (c :: r) ⟨[], false⟩ r with
      | .error stop => .error stop
      | .ok (key, r) =>
        match skipBlanks r with
        | [] => .error (.malformed .expectingColon [])
        | d :: r =>
          if d = ':' then
            match readValue fuel (skipBlanks r) with
            | .error stop => .error stop
            | .ok (v, r) =>
              match skipBlanks r with
              | [] => .error (.malformed .expectingComma [])
              | d :: r =>
                if d.val = 0x7d then .ok (object (done.set key v), r)
                else if d = ',' then readMembers fuel (done.set key v) (skipBlanks r)
                else .error (.malformed .expectingComma (d :: r))
          else .error (.malformed .expectingColon (d :: r))
    else .error (.malformed .expectingKey (c :: r))

end

/-- Reads a whole text as one value. -/
def readAll (t : Text) : Except Stop Json :=
  match t with
  | [] => .error (.malformed .expectingValue [])
  | c :: _ =>
    if c.val = 0xfeff then .error (.malformed .byteOrderMark t)
    else
      match readValue (t.length + 1) (skipBlanks t) with
      | .error stop => .error stop
      | .ok (v, r) =>
        match skipBlanks r with
        | [] => .ok v
        | d :: r => .error (.malformed .extraData (d :: r))

/-- The value that a document holds. -/
def read (t : Text) : Except ReadFault Json :=
  match readAll t with
  | .ok v => .ok v
  | .error (.malformed defect rest) =>
    .error (.malformed defect (Place.origin.after (t.take (t.length - rest.length))))
  | .error (.tooLong fault) => .error (.tooLong fault)

end Packaging.Json
