/-
Module: FrontEnd.Lexer.Scanner
Layer: Lexer
Purpose: The lexer at the level of bytes: a cursor walks through the text, and the next byte decides
  what to read. No step trusts the text; each stops with a misstep where one of its assumptions does
  not hold.
Imports: FrontEnd.Token.Basic, FrontEnd.Diagnostic.Log, FrontEnd.Lexer.Lexeme, FrontEnd.Lexer.Error,
  FrontEnd.Lexer.Cursor
Trusted boundary: none
Main exports: Scanner, Scanner.start, Scanner.malformedFloat, Scanner.number, Scanner.identifier,
  Scanner.punctuation, Scanner.unexpectedCharacter, Scanner.nextToken, Scanner.next?
Open obligations: none
-/
import FrontEnd.Token.Basic
import FrontEnd.Diagnostic.Log
import FrontEnd.Lexer.Lexeme
import FrontEnd.Lexer.Error
import FrontEnd.Lexer.Cursor

namespace FrontEnd

/-! ### Marks -/

/-- What a byte can begin that begins no number and no word: a symbol of its own; a symbol `one`
    that becomes `two` if `second` follows; a symbol only if `second` follows; or nothing. -/
inductive Lead where
  | single (sign : Symbol)
  | oneOrTwo (second : Char) (two one : Symbol)
  | twoOnly (second : Char) (two : Symbol)
  | none
deriving DecidableEq, Repr

namespace Lead

def ofChar : Char → Lead
  | '(' => .single .leftParen
  | ')' => .single .rightParen
  | '\x7b' => .single .leftBrace
  | '\x7d' => .single .rightBrace
  | '[' => .single .leftBracket
  | ']' => .single .rightBracket
  | ',' => .single .comma
  | ':' => .single .colon
  | ';' => .single .semicolon
  | '.' => .single .dot
  | '+' => .single .plus
  | '*' => .single .star
  | '/' => .single .slash
  | '%' => .single .percent
  | '-' => .oneOrTwo '>' .arrow .minus
  | '=' => .oneOrTwo '=' .equalEqual .equal
  | '!' => .oneOrTwo '=' .bangEqual .bang
  | '<' => .oneOrTwo '=' .lessEqual .less
  | '>' => .oneOrTwo '=' .greaterEqual .greater
  | '&' => .twoOnly '&' .andAnd
  | '|' => .twoOnly '|' .orOr
  | _ => .none

/-- A byte stands for the character with its number. -/
def ofByte (byte : UInt8) : Lead :=
  ofChar (Char.ofUInt8 byte)

end Lead

/-! ### Number fragments -/

/-- How many bytes at the front of others are number fragments, each a point with the digits behind
    it, and the digits of all of them. -/
def fragmentBytes : List UInt8 → Nat × List Char
  | [] => (0, [])
  | byte :: rest =>
      if byte = '.'.toUInt8 then
        let digits := rest.takeWhile Byte.isDigit
        let (count, more) := fragmentBytes (rest.dropWhile Byte.isDigit)
        (1 + digits.length + count, digits.map Char.ofUInt8 ++ more)
      else (0, [])
termination_by bytes => bytes.length
decreasing_by
  have shorter := (List.dropWhile_suffix Byte.isDigit (l := rest)).length_le
  simp only [List.length_cons]
  omega

/-- A count as a distance of offsets. -/
def Offset.ofCount (count : Nat) : Except Misstep Nat :=
  if count ≤ Offset.limit then .ok count else .error (.countCutOff count)

/-! ### Scanning -/

/-- A scanner in the middle of a text. What its fields mean is what they mean for a lexer, which
    holds the characters left in place of a cursor. -/
structure Scanner where
  file : FileId
  cursor : Cursor
  reportedUntil : Nat := 0
  finished : Bool := false
  log : Log
deriving DecidableEq, Repr

namespace Scanner

/-- A scanner at the front of a text. -/
def start (file : FileId) (text : String) (log : Log) : Except Fault Scanner := do
  return { file, cursor := ← Cursor.start text, log }

/-- Add a finding to the log that the scanner reports to. -/
def emit (scanner : Scanner) (diagnostic : Diagnostic) : Scanner :=
  { scanner with log := scanner.log.emit diagnostic }

/-- Report an error in the text. -/
def report (scanner : Scanner) (error : LexError) : Scanner :=
  scanner.emit (error.toDiagnostic scanner.file)

/-- Move the cursor. -/
def move (scanner : Scanner) (how : Cursor → Except Misstep Cursor) : Except Misstep Scanner := do
  return { scanner with cursor := ← how scanner.cursor }

/-- Report the number fragments that the cursor stands in front of, behind the float that begins at
    an offset. The cursor stays where it is. -/
def malformedFloat (scanner : Scanner) (start : Nat) : Except Misstep Scanner := do
  let point := scanner.cursor.position
  let (count, digits) := fragmentBytes (← scanner.cursor.unread)
  let stop ← Offset.add point (← Offset.ofCount count)
  let kept ← scanner.cursor.slice start point
  let literal ← scanner.cursor.slice start stop
  let merged := if digits.isEmpty then none else some (kept ++ String.ofList digits)
  let span ← Span.ofBounds point (← Offset.add point 1)
  let reported := scanner.report { span, problem := .malformedFloat literal kept merged }
  return { reported with reportedUntil := stop }

/-- Report the number fragments behind the float that begins at an offset, if there are any and they
    belong to no run that was reported already. -/
def inspectFloat (scanner : Scanner) (start : Nat) : Except Misstep Scanner :=
  if scanner.cursor.current = '.'.toUInt8 ∧ scanner.reportedUntil ≤ scanner.cursor.position then
    scanner.malformedFloat start
  else .ok scanner

/-- Read a number: digits, and a point with the digits behind it. -/
def number (scanner : Scanner) (start : Nat) : Except Misstep (TokenKind × Scanner) := do
  let scanner ← scanner.move (·.eatWhile Byte.isDigit)
  if scanner.cursor.current ≠ '.'.toUInt8 then
    return (.intLiteral, scanner)
  else
    let scanner ← scanner.move (·.advance)
    let scanner ← scanner.move (·.eatWhile Byte.isDigit)
    return (.floatLiteral, ← scanner.inspectFloat start)

/-- Read a word. -/
def identifier (scanner : Scanner) (start : Nat) : Except Misstep (TokenKind × Scanner) := do
  let scanner ← scanner.move (·.eatWhile Byte.isWordPart)
  let word ← scanner.cursor.slice start scanner.cursor.position
  return (((Keyword.lookup? word).map .keyword).getD .identifier, scanner)

/-- Read and report a character that starts no token. -/
def unexpectedCharacter (scanner : Scanner) (start : Nat) :
    Except Misstep (TokenKind × Scanner) := do
  let scanner ← scanner.move (·.advanceChar)
  let stop := scanner.cursor.position
  match (← scanner.cursor.slice start stop).toList with
  | [] => .error .noCharacter
  | c :: _ =>
      let span ← Span.ofBounds start stop
      return (.invalid, scanner.report { span, problem := .unexpectedCharacter c })

/-- Read a symbol, the longer one of two that are possible. -/
def punctuation (scanner : Scanner) (start : Nat) : Except Misstep (TokenKind × Scanner) := do
  match Lead.ofByte scanner.cursor.current with
  | .single sign => return (.symbol sign, ← scanner.move (·.advance))
  | .oneOrTwo second two one =>
      if (← scanner.cursor.peek) = second.toUInt8 then
        return (.symbol two, ← scanner.move (·.advanceBy 2))
      else
        return (.symbol one, ← scanner.move (·.advance))
  | .twoOnly second two =>
      if (← scanner.cursor.peek) = second.toUInt8 then
        return (.symbol two, ← scanner.move (·.advanceBy 2))
      else
        scanner.unexpectedCharacter start
  | .none => scanner.unexpectedCharacter start

/-- Read what the next byte begins, which is not blank. -/
def lexeme (scanner : Scanner) (start : Nat) : Except Misstep (TokenKind × Scanner) := do
  let lead := scanner.cursor.current
  if lead = '\n'.toUInt8 then return (.newline, ← scanner.move (·.advance))
  else if Byte.isDigit lead then scanner.number start
  else if Byte.isWordStart lead then scanner.identifier start
  else scanner.punctuation start

/-- Read the next token. At the end of the text this is the token that ends it, on every call. -/
def nextToken (scanner : Scanner) : Except Misstep (Token × Scanner) := do
  let scanner ← scanner.move (·.eatWhile Byte.isBlank)
  let start := scanner.cursor.position
  if scanner.cursor.isAtEnd then
    return (.endOfFile start, scanner)
  else
    let (kind, scanner) ← scanner.lexeme start
    let stop := scanner.cursor.position
    let span ← Span.ofBounds start stop
    let text ← scanner.cursor.slice start stop
    return ({ kind, span, text }, scanner)

/-- The next token of the iteration, which ends behind the token that ends the text. -/
def next? (scanner : Scanner) : Except Misstep (Option Token × Scanner) := do
  if scanner.finished then
    return (none, scanner)
  else
    let (token, scanner) ← scanner.nextToken
    return (some token, { scanner with finished := token.isEndOfFile })

end Scanner

end FrontEnd
