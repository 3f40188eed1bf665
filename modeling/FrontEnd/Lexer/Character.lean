/-
Module: FrontEnd.Lexer.Character
Layer: Lexer
Purpose: The classes of characters that decide how a text falls into tokens. All of them are within
  ASCII; no other character is blank or part of a word or a number.
Imports: none
Trusted boundary: none
Main exports: Lexer.isBlank, Lexer.isWordStart, Lexer.isWordPart, Lexer.isNumberPart
Open obligations: none
-/

namespace FrontEnd

namespace Lexer

/-- The characters that only separate tokens: space, tab, carriage return, vertical tab and form
    feed. A newline is not among them, because it is a token. -/
def isBlank (c : Char) : Bool :=
  c = ' ' || c = '\t' || c = '\r' || c = '\x0b' || c = '\x0c'

/-- The characters that start a word: the letters of ASCII and the underscore. -/
def isWordStart (c : Char) : Bool :=
  c.isAlpha || c = '_'

/-- The characters that continue a word: those that start one, and the digits. -/
def isWordPart (c : Char) : Bool :=
  c.isAlphanum || c = '_'

/-- The characters of a run of number fragments: digits and points. -/
def isNumberPart (c : Char) : Bool :=
  c.isDigit || c = '.'

end Lexer

end FrontEnd
