import Packaging.Script.Lexeme
import Packaging.Text.Utf8

/-! # String literals
What a quoted string of a script stands for. A backslash starts an escape; one that starts no known
escape stands for itself, and one before a carriage return makes both vanish. Escapes are decoded in
a form of the body in which everything outside ASCII is itself written as an escape, and faults count
positions in that form. Escapes may call characters by name; which names there are is a parameter. -/

namespace Packaging

/-- The names of characters. The tables of the Unicode standard tell them; they belong to the host of
the program, so whatever decodes strings is a function of them. -/
class CharacterNames where
  /-- The character with a name, if there is one. -/
  named? : Text → Option CodePoint

namespace CharacterNames

/-- The names that a table lists. -/
@[reducible] def ofTable (table : List (Text × CodePoint)) : CharacterNames where
  named? name := table.lookup name

namespace Unlisted

/-- A host without tables: no character has a name. -/
scoped instance : CharacterNames := ofTable []

end Unlisted

end CharacterNames

namespace Script.Literal

/-- What is wrong with an escape. -/
inductive Defect
  /-- `\x` without two hexadecimal digits. -/
  | shortByte
  /-- `\u` without four hexadecimal digits. -/
  | shortUnit
  /-- `\U` without eight hexadecimal digits. -/
  | shortPoint
  /-- `\U` with a number outside the code space. -/
  | outOfRange
  /-- `\N` without a name in braces. -/
  | malformedName
  /-- `\N` with a name that no character has. -/
  | unknownName
  /-- A backslash with nothing after it. -/
  | trailingBackslash
  deriving DecidableEq

/-- The wording of a defect. -/
def Defect.message : Defect → Text
  | shortByte => "truncated \\xXX escape"
  | shortUnit => "truncated \\uXXXX escape"
  | shortPoint => "truncated \\UXXXXXXXX escape"
  | outOfRange => "illegal Unicode character"
  | malformedName => "malformed \\N character escape"
  | unknownName => "unknown Unicode character name"
  | trailingBackslash => "\\ at end of string"

/-- A faulty escape: where it starts, how far it was read, and what is wrong. -/
structure EscapeFault where
  /-- What is wrong. -/
  defect : Defect
  /-- The position of the backslash. -/
  start : Nat
  /-- How many positions were read, the backslash included. -/
  count : Nat
  deriving DecidableEq

/-- Why a quoted string stands for no text. -/
inductive Fault
  /-- It holds surrogates, which no source file can hold. -/
  | surrogate (fault : Utf8.EncodeFault)
  /-- It holds a null character. -/
  | nullCharacter
  /-- A carriage return ends it on the line with this number. -/
  | unterminated (line : Nat)
  /-- An escape is faulty; the string ends on the line with this number. -/
  | escape (fault : EscapeFault) (line : Nat)
  deriving DecidableEq

/-- Where in the string a fault is said to be found. -/
def whereText (line : Nat) : Text := Text.concat [" (<unknown>, line ", Text.ofNat line, ")"]

/-- The wording of a faulty escape. -/
def EscapeFault.message (f : EscapeFault) : Text :=
  if f.count = 1 then
    Text.concat ["(unicode error) 'unicodeescape' codec can't decode byte 0x5c in position ",
      Text.ofNat f.start, ": ", f.defect.message]
  else
    Text.concat ["(unicode error) 'unicodeescape' codec can't decode bytes in position ",
      Utf8.spanText f.start f.count, ": ", f.defect.message]

/-- The wording of a fault. -/
def Fault.message : Fault → Text
  | surrogate fault => fault.message
  | nullCharacter => "source code string cannot contain null bytes"
  | unterminated line =>
    Text.concat ["unterminated string literal (detected at line ", Text.ofNat line, ")", whereText 1]
  | escape fault line => fault.message ++ whereText line

/-- The first line on which a carriage return ends a string, if one does; `line` is the line on which
the body starts. A carriage return after a backslash continues the string on the next line. -/
def brokenLine? (line : Nat) : Text → Option Nat
  | [] => none
  | c :: r =>
    if c = '\r' then some line
    else if c = '\\' then
      match r with
      | [] => none
      | d :: r => brokenLine? (if d = '\r' then line + 1 else line) r
    else brokenLine? line r

/-- A code point outside ASCII as an escape. -/
def spelled (c : CodePoint) : Text := if c.isAscii then [c] else "\\U" ++ Text.ofHex 8 c.val

/-- The form of a body in which escapes are decoded: what is outside ASCII is written as an escape,
and so is a backslash right before it. -/
def expand : Text → Text
  | [] => []
  | c :: r =>
    if c = '\\' then
      match r with
      | [] => [c]
      | d :: r =>
        if d.isAscii then c :: d :: expand r else "\\u005c" ++ spelled d ++ expand r
    else spelled c ++ expand r

/-- The code point that an escape of a single code point stands for. -/
def simpleEscape? (e : CodePoint) : Option CodePoint :=
  if e = '\\' ∨ e = '\'' ∨ e = '"' then some e
  else if e = 'a' then some (.ofNat 0x07)
  else if e = 'b' then some (.ofNat 0x08)
  else if e = 't' then some (.ofNat 0x09)
  else if e = 'n' then some (.ofNat 0x0a)
  else if e = 'v' then some (.ofNat 0x0b)
  else if e = 'f' then some (.ofNat 0x0c)
  else if e = 'r' then some (.ofNat 0x0d)
  else none

/-- How many hexadecimal digits an escape asks for, and what is wrong when there are fewer. -/
def hexEscape? (e : CodePoint) : Option (Nat × Defect) :=
  if e = 'x' then some (2, .shortByte)
  else if e = 'u' then some (4, .shortUnit)
  else if e = 'U' then some (8, .shortPoint)
  else none

/-- What one escape means: some code points, and how many code points after the backslash it takes;
or a defect and how many it had taken when that showed. -/
abbrev Meaning := Except (Defect × Nat) (Text × Nat)

/-- The meaning of an escape of hexadecimal digits, `r` being the text after its letter. -/
def hexMeaning (width : Nat) (short : Defect) (r : Text) : Meaning :=
  let digits := (r.take width).takeWhile fun c => c.hexValue?.isSome
  if digits.length < width then .error (short, 1 + digits.length)
  else
    match CodePoint.ofNat? ((Text.hexValue? digits).getD 0) with
    | some c => .ok ([c], 1 + width)
    | none => .error (.outOfRange, 1 + width)

/-- The meaning of an escape by name, `r` being the text after its letter. -/
def nameMeaning [CharacterNames] (r : Text) : Meaning :=
  match r with
  | [] => .error (.malformedName, 1)
  | c :: r =>
    if c.val = 0x7b then
      let name := r.takeWhile fun c => c.val != 0x7d
      if name.length = r.length then .error (.malformedName, 2 + name.length)
      else if name.isEmpty then .error (.malformedName, 2)
      else
        match CharacterNames.named? name with
        | some c => .ok ([c], 3 + name.length)
        | none => .error (.unknownName, 3 + name.length)
    else .error (.malformedName, 1)

/-- The meaning of the escape whose backslash stands before a text. -/
def meaning [CharacterNames] : Text → Meaning
  | [] => .error (.trailingBackslash, 0)
  | e :: r =>
    match simpleEscape? e, hexEscape? e with
    | some c, _ => .ok ([c], 1)
    | none, some (width, short) => hexMeaning width short r
    | none, none =>
      if e.isOctalDigit then
        let digits := e :: (r.take 2).takeWhile (·.isOctalDigit)
        let value := digits.foldl (fun n c => 8 * n + (c.val - 0x30)) 0
        .ok ([.ofNat value], digits.length)
      else if e = '\r' then .ok ([], 1)
      else if e = 'N' then nameMeaning r
      else .ok (['\\', e], 1)

/-- Decodes the escapes of an expanded body that starts at a given position. -/
def decodeFrom [CharacterNames] (position : Nat) : Text → Except EscapeFault Text
  | [] => .ok []
  | c :: r =>
    if c = '\\' then
      match meaning r with
      | .error (defect, taken) => .error ⟨defect, position, 1 + taken⟩
      | .ok (t, taken) => (decodeFrom (position + 1 + taken) (r.drop taken)).map (t ++ ·)
    else (decodeFrom (position + 1) r).map (c :: ·)
termination_by t => t.length
decreasing_by
  all_goals simp only [List.length_drop, List.length_cons]; omega

/-- The body of a quoted string: all but the quotes. -/
def body (raw : Text) : Text := (raw.drop 1).dropLast

/-- How many lines a body goes on after its first. -/
def continuations (body : Text) : Nat := body.count (CodePoint.ofChar '\r')

/-- The text that a quoted string stands for. -/
def decode [CharacterNames] (raw : Text) : Except Fault Text :=
  let body := body raw
  match Utf8.surrogateRun? raw with
  | some fault => .error (.surrogate fault)
  | none =>
    if body.any (·.val == 0) then .error .nullCharacter
    else
      match brokenLine? 1 body with
      | some line => .error (.unterminated line)
      | none =>
        match decodeFrom 0 (expand body) with
        | .ok t => .ok t
        | .error fault => .error (.escape fault (1 + continuations body))

end Script.Literal

end Packaging
