/-
Module: FrontEnd.Lexer.Lexeme
Layer: Lexer
Purpose: The lexeme at the front of a text: which characters belong to the first token, what kind it
  is, and what is left. One character of lookahead decides where a lexeme ends.
Imports: FrontEnd.Lexer.Character, FrontEnd.Token.Kind
Trusted boundary: none
Main exports: Lexeme, Lexeme.read, Lexeme.text_append_rest, Lexeme.text_ne_nil
Open obligations: none
-/
import FrontEnd.Lexer.Character
import FrontEnd.Token.Kind

namespace FrontEnd

/-- The first token of a text, as a kind and characters, and the characters behind it. -/
structure Lexeme where
  kind : TokenKind
  text : List Char
  rest : List Char
deriving DecidableEq, Repr

namespace Lexeme

/-- A lexeme that begins with digits. A point behind them makes it a float, which takes the digits
    behind the point as well; a second point does not belong to it. -/
def number (input : List Char) : Lexeme :=
  let whole := input.takeWhile Char.isDigit
  match input.dropWhile Char.isDigit with
  | '.' :: rest =>
      { kind := .floatLiteral
        text := whole ++ '.' :: rest.takeWhile Char.isDigit
        rest := rest.dropWhile Char.isDigit }
  | rest => { kind := .intLiteral, text := whole, rest }

/-- The kind of a word: reserved, or a name. -/
def wordKind (word : String) : TokenKind :=
  ((Keyword.lookup? word).map .keyword).getD .identifier

/-- A lexeme that begins like a word. -/
def word (input : List Char) : Lexeme :=
  let text := input.takeWhile Lexer.isWordPart
  { kind := wordKind (String.ofList text), text, rest := input.dropWhile Lexer.isWordPart }

/-- The kind of a single character that begins neither a number nor a word. -/
def charKind (c : Char) : TokenKind :=
  match Symbol.ofChar? c with
  | some sign => .symbol sign
  | none => .invalid

/-- A lexeme that begins with any other character: two characters that form a symbol together, or
    else one character, a symbol or invalid. -/
def mark (c : Char) : List Char → Lexeme
  | [] => { kind := charKind c, text := [c], rest := [] }
  | d :: rest =>
      match Symbol.ofPair? c d with
      | some sign => { kind := .symbol sign, text := [c, d], rest }
      | none => { kind := charKind c, text := [c], rest := d :: rest }

/-- The lexeme at the front of the text `c :: input`, where `c` is not blank. -/
def read (c : Char) (input : List Char) : Lexeme :=
  if c = '\n' then { kind := .newline, text := [c], rest := input }
  else if c.isDigit then number (c :: input)
  else if Lexer.isWordStart c then word (c :: input)
  else mark c input

/-- Digits, point and digits are cut off the front of the text, and nothing is lost. -/
theorem number_text_append_rest (input : List Char) :
    (number input).text ++ (number input).rest = input := by
  unfold number
  have split := List.takeWhile_append_dropWhile (p := Char.isDigit) (l := input)
  cases back : input.dropWhile Char.isDigit with
  | nil => simpa [back] using split
  | cons d rest =>
      by_cases point : d = '.'
      · subst point
        rw [back] at split
        simpa using split
      · rw [back] at split
        simp [point, split]

/-- Reading cuts the text in two: the lexeme and the rest. -/
theorem text_append_rest (c : Char) (input : List Char) :
    (read c input).text ++ (read c input).rest = c :: input := by
  unfold read
  split
  · rfl
  · split
    · exact number_text_append_rest (c :: input)
    · split
      · simp [word]
      · cases input with
        | nil => rfl
        | cons d rest =>
            simp only [mark]
            split <;> rfl

/-- A lexeme has at least one character. -/
theorem text_ne_nil (c : Char) (input : List Char) : (read c input).text ≠ [] := by
  unfold read
  split
  · simp
  · split
    · rename_i digit
      unfold number
      split <;> simp [digit]
    · split
      · rename_i start
        have part : Lexer.isWordPart c = true := by
          simp only [Lexer.isWordStart, Lexer.isWordPart, Char.isAlphanum] at start ⊢
          grind
        simp [word, part]
      · cases input with
        | nil => simp [mark]
        | cons d rest =>
            simp only [mark]
            split <;> simp

/-- The text behind a lexeme is shorter than the text before it. -/
theorem rest_length_lt (c : Char) (input : List Char) :
    (read c input).rest.length < (c :: input).length := by
  have cut := congrArg List.length (text_append_rest c input)
  have filled := List.length_pos_iff.mpr (text_ne_nil c input)
  rw [List.length_append] at cut
  omega

end Lexeme

end FrontEnd
