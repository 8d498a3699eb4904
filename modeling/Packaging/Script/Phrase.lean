import Packaging.Json
import Packaging.Script.Lexeme

/-! # Phrases
What the lexemes of a script say, before strings and numerals are evaluated and before the arguments
of calls are checked. Parentheses leave no phrase behind. -/

namespace Packaging.Script

mutual

/-- An expression as it is written. -/
inductive Phrase
  /-- A string, a numeral or a keyword. -/
  | literal (lexeme : Lexeme)
  /-- A name. -/
  | name (lexeme : Lexeme)
  /-- The reading of an attribute; it starts where its base starts, with any parentheses. -/
  | member (base : Phrase) (attr : Lexeme) (start : Place)
  /-- The call of a function. -/
  | call (func : Lexeme) (arguments : List Argument)

/-- An argument of a call as it is written. -/
inductive Argument
  /-- An argument that is known by its position. -/
  | positional (value : Phrase)
  /-- An argument that is known by a name. -/
  | keyword (name : Lexeme) (value : Phrase)

end

/-- A statement as it is written. -/
inductive Line
  /-- A value is bound to a name. -/
  | assign (target : Lexeme) (value : Phrase)
  /-- A value is written to an attribute; the statement starts at a given place. -/
  | write (target : Phrase) (attr : Lexeme) (value : Phrase) (start : Place)
  /-- An expression stands alone; the statement starts at a given place. -/
  | bare (value : Phrase) (start : Place)

/-- The place of a phrase: its own first lexeme, not the parentheses around it. -/
def Phrase.place : Phrase → Place
  | literal lexeme => lexeme.place
  | name lexeme => lexeme.place
  | member _ _ start => start
  | call func _ => func.place

/-- The place of a statement: its first lexeme, parentheses included. -/
def Line.place : Line → Place
  | assign target _ => target.place
  | write _ _ _ start => start
  | bare _ start => start

/-- The words that are constants and no names, with their values. -/
def keywords : List (Text × Json) := [("True", .bool true), ("False", .bool false), ("None", .null)]

/-- Whether a word is a keyword; only a word that follows a dot never is. -/
def isKeyword (word : Text) : Bool := (keywords.lookup word).isSome

end Packaging.Script
