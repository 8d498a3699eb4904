import Packaging.Text.Line

/-! # Lexemes
A script is cut from left to right into lexemes and skipped pieces, which are blanks and comments.
What a piece is shows in its first code point, so the cut never depends on what a reader of the
lexemes expects. Each piece is as long as its shape allows. -/

namespace Packaging.Script

/-- The shapes of lexemes. -/
inductive Terminal
  /-- A quoted string. -/
  | string
  /-- A decimal numeral, perhaps with a minus sign. -/
  | integer
  /-- A name or a keyword. -/
  | word
  /-- The end of a line. -/
  | newline
  /-- The sign `=`. -/
  | equals
  /-- The sign `.`. -/
  | dot
  /-- The sign `,`. -/
  | comma
  /-- The sign `(`. -/
  | opening
  /-- The sign `)`. -/
  | closing
  deriving DecidableEq

/-- A lexeme of a script. -/
structure Lexeme where
  /-- Its shape. -/
  terminal : Terminal
  /-- Its text. -/
  text : Text
  /-- The place where it starts. -/
  place : Place
  deriving DecidableEq

/-- The shapes of pieces: lexemes, and what is skipped between them. -/
inductive Shape
  /-- A lexeme. -/
  | lexeme (terminal : Terminal)
  /-- A run of spaces and tabs. -/
  | blank
  /-- A comment, which reaches to the end of its line. -/
  | comment
  deriving DecidableEq

/-- A piece of a script. -/
structure Piece where
  /-- Its shape. -/
  shape : Shape
  /-- Its text. -/
  text : Text
  /-- The place where it starts. -/
  place : Place
  deriving DecidableEq

/-- Whether a code point is a space or a tab. -/
def isSpace (c : CodePoint) : Bool := c.val == 0x20 || c.val == 0x09

/-- How many code points of a text a string takes up to its closing quote, `taken` of them being
before the text. A backslash takes the code point after it along; no line feed is taken. -/
def stringLength? (quote : CodePoint) (taken : Nat) : Text → Option Nat
  | [] => none
  | c :: r =>
    if c = quote then some (taken + 1)
    else if c = '\n' then none
    else if c = '\\' then
      match r with
      | [] => none
      | d :: r => if d = '\n' then none else stringLength? quote (taken + 2) r
    else stringLength? quote (taken + 1) r

/-- The signs and their shapes. -/
def signs : List (CodePoint × Terminal) :=
  [('=', .equals), ('.', .dot), (',', .comma), ('(', .opening), (')', .closing), ('\n', .newline)]

/-- The shape of the piece that starts with a code point, and how many further code points of the
text after it the piece takes. -/
def cut? (c : CodePoint) (r : Text) : Option (Shape × Nat) :=
  if isSpace c then some (.blank, (r.takeWhile isSpace).length)
  else if c = '#' then some (.comment, (r.takeWhile (· ≠ CodePoint.ofChar '\n')).length)
  else if c.isWordStart then some (.lexeme .word, (r.takeWhile (·.isWordPart)).length)
  else if c.isDigit then some (.lexeme .integer, (r.takeWhile (·.isDigit)).length)
  else if c = '-' then
    let digits := r.takeWhile (·.isDigit)
    if digits.isEmpty then none else some (.lexeme .integer, digits.length)
  else if c = '"' ∨ c = '\'' then (stringLength? c 0 r).map (.lexeme .string, ·)
  else if c = '\r' then
    if r.head? = some (CodePoint.ofChar '\n') then some (.lexeme .newline, 1) else none
  else (signs.lookup c).map (.lexeme ·, 0)

/-- A script cut into pieces. -/
structure Scan where
  /-- The pieces, in order. -/
  pieces : List Piece
  /-- What is left: it is empty, or no piece starts with its first code point. -/
  rest : Text
  /-- The place where the rest starts. -/
  stop : Place

/-- Cuts a text that starts at a given place. -/
def scanFrom (place : Place) : Text → Scan
  | [] => ⟨[], [], place⟩
  | c :: r =>
    match cut? c r with
    | none => ⟨[], c :: r, place⟩
    | some (shape, more) =>
      let text := c :: r.take more
      let scan := scanFrom (place.after text) (r.drop more)
      { scan with pieces := ⟨shape, text, place⟩ :: scan.pieces }
termination_by t => t.length
decreasing_by
  simp only [List.length_drop, List.length_cons]
  omega

/-- Cuts a whole text. -/
def scan (t : Text) : Scan := scanFrom .origin t

/-- The lexeme that a piece is, unless it is skipped. -/
def Piece.lexeme? (p : Piece) : Option Lexeme :=
  match p.shape with
  | .lexeme terminal => some ⟨terminal, p.text, p.place⟩
  | _ => none

/-- The lexemes of a cut script, in order. -/
def Scan.lexemes (s : Scan) : List Lexeme := s.pieces.filterMap Piece.lexeme?

/-- The empty text is cut into no pieces, with nothing left over. -/
@[simp] theorem scanFrom_nil (place : Place) : scanFrom place [] = ⟨[], [], place⟩ := by
  rw [scanFrom]

/-- The pieces and what is left, in order, are the whole text. -/
theorem flatten_pieces_scanFrom (place : Place) (t : Text) :
    ((scanFrom place t).pieces.map (·.text)).flatten ++ (scanFrom place t).rest = t := by
  fun_induction scanFrom place t with
  | case1 => rfl
  | case2 => rfl
  | case3 place c r shape more _ text scan ih =>
    simp only [List.map_cons, List.flatten_cons, List.append_assoc]
    rw [ih]
    simp [text]

end Packaging.Script
