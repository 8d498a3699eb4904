/-! # Texts
A text is a list of code points. Unlike a `String` it may hold surrogates, alone or in any order,
because escapes in scripts and in policy documents can write them. The module also holds the small
vocabulary that the rest of the library speaks about texts: joining, decimal and hexadecimal
numerals, and the order by code point. -/

namespace Packaging

/-- A code point: any number below `0x110000`, the surrogates included. -/
structure CodePoint where
  /-- The number of the code point. -/
  val : Nat
  /-- Every code point lies below the end of the code space. -/
  isLt : val < 0x110000
  deriving DecidableEq

/-- A text is a list of code points. -/
abbrev Text := List CodePoint

namespace CodePoint

/-- The code point of a character. -/
def ofChar (c : Char) : CodePoint where
  val := c.toNat
  isLt := by
    rcases c.valid with h | ⟨_, h⟩
    · exact Nat.lt_trans h (by decide)
    · exact h

instance : Coe Char CodePoint := ⟨ofChar⟩

instance : Inhabited CodePoint := ⟨ofChar ' '⟩

/-- The number of a character's code point is that of the character. -/
@[simp] theorem val_ofChar (c : Char) : (ofChar c).val = c.toNat := rfl

/-- The code point with a given number, if there is one. -/
def ofNat? (n : Nat) : Option CodePoint :=
  if h : n < 0x110000 then some ⟨n, h⟩ else none

/-- The code point with the given number modulo the size of the code space. -/
def ofNat (n : Nat) : CodePoint := ⟨n % 0x110000, Nat.mod_lt _ (by decide)⟩

/-- A number inside the code space is the number of its code point. -/
@[simp] theorem val_ofNat {n : Nat} (h : n < 0x110000) : (ofNat n).val = n := Nat.mod_eq_of_lt h

/-- Code points with one number are one code point. -/
@[ext] theorem ext {a b : CodePoint} (h : a.val = b.val) : a = b := by
  cases a; cases b; cases h; rfl

/-- Whether the number of a code point lies between two bounds, both included. -/
def isBetween (c : CodePoint) (low high : Nat) : Bool := low ≤ c.val && c.val ≤ high

/-- The decimal digits `0` to `9`. -/
def isDigit (c : CodePoint) : Bool := c.isBetween 0x30 0x39

/-- The octal digits `0` to `7`. -/
def isOctalDigit (c : CodePoint) : Bool := c.isBetween 0x30 0x37

/-- The ASCII letters of both cases and the underscore. -/
def isWordStart (c : CodePoint) : Bool :=
  c.isBetween 0x41 0x5a || c.isBetween 0x61 0x7a || c.val == 0x5f

/-- The ASCII letters, the underscore and the decimal digits. -/
def isWordPart (c : CodePoint) : Bool := c.isWordStart || c.isDigit

/-- A code point of the ASCII range. -/
def isAscii (c : CodePoint) : Bool := c.val < 0x80

/-- A leading surrogate, which UTF-16 writes first. -/
def isHighSurrogate (c : CodePoint) : Bool := c.isBetween 0xd800 0xdbff

/-- A trailing surrogate, which UTF-16 writes second. -/
def isLowSurrogate (c : CodePoint) : Bool := c.isBetween 0xdc00 0xdfff

/-- A surrogate of either kind: a code point that is no character. -/
def isSurrogate (c : CodePoint) : Bool := c.isBetween 0xd800 0xdfff

/-- The value of a hexadecimal digit of either case. -/
def hexValue? (c : CodePoint) : Option Nat :=
  if c.isDigit then some (c.val - 0x30)
  else if c.isBetween 0x61 0x66 then some (c.val - 0x57)
  else if c.isBetween 0x41 0x46 then some (c.val - 0x37)
  else none

/-- The code point that a leading and a trailing surrogate stand for together. -/
def joinSurrogates (high low : CodePoint) : CodePoint :=
  ofNat (0x10000 + (high.val % 0x400) * 0x400 + low.val % 0x400)

end CodePoint

namespace Text

/-- The text of a string. -/
def ofString (s : String) : Text := s.toList.map CodePoint.ofChar

instance : Coe String Text := ⟨ofString⟩

/-- Several texts one after the other. -/
def concat (parts : List Text) : Text := parts.flatten

/-- Several texts with a separator between each and the next. -/
def join (separator : Text) (parts : List Text) : Text := separator.intercalate parts

/-- The decimal numeral of a natural number. -/
def ofNat (n : Nat) : Text := (Nat.toDigits 10 n).map CodePoint.ofChar

/-- The decimal numeral of an integer, with a minus sign when it is negative. -/
def ofInt : Int → Text
  | .ofNat n => ofNat n
  | .negSucc n => '-' :: ofNat (n + 1)

/-- The lower-case hexadecimal numeral of a number, padded with zeros to a least width. -/
def ofHex (width n : Nat) : Text :=
  let digits := (Nat.toDigits 16 n).map CodePoint.ofChar
  List.replicate (width - digits.length) (CodePoint.ofChar '0') ++ digits

/-- The number that a run of hexadecimal digits stands for, if all are such digits. -/
def hexValue? (digits : Text) : Option Nat :=
  digits.foldlM (fun n c => (c.hexValue?).map (16 * n + ·)) 0

/-- The number that a run of decimal digits stands for. -/
def decimalValue (digits : Text) : Nat := digits.foldl (fun n c => 10 * n + (c.val - 0x30)) 0

/-- The order of texts by code point, a proper beginning coming first. -/
def le : Text → Text → Bool
  | [], _ => true
  | _ :: _, [] => false
  | a :: s, b :: t => a.val < b.val || (a.val == b.val && le s t)

/-- What follows a given beginning of a text, if the text has that beginning. -/
def dropBeginning? : (beginning : Text) → Text → Option Text
  | [], t => some t
  | _ :: _, [] => none
  | a :: s, b :: t => if a = b then dropBeginning? s t else none

/-- A text that starts with `s` is `s` and what `dropBeginning?` leaves. -/
theorem dropBeginning?_eq_some_iff {s t r : Text} : dropBeginning? s t = some r ↔ t = s ++ r := by
  induction s generalizing t with
  | nil => simp [dropBeginning?]
  | cons a s ih =>
    cases t with
    | nil => simp [dropBeginning?]
    | cons b t =>
      by_cases h : a = b
      · simp [dropBeginning?, h, ih]
      · simp [dropBeginning?, h, Ne.symm h]

/-- A text has every beginning that it was put together from. -/
@[simp] theorem dropBeginning?_append (s r : Text) : dropBeginning? s (s ++ r) = some r :=
  dropBeginning?_eq_some_iff.2 rfl

/-- The pieces of a text between the occurrences of a code point, at least one. -/
def splitAt (separator : CodePoint) : Text → List Text
  | [] => [[]]
  | c :: t =>
    if c = separator then [] :: splitAt separator t
    else
      match splitAt separator t with
      | [] => [[c]]
      | piece :: pieces => (c :: piece) :: pieces

end Text

end Packaging
