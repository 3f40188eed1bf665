/-
Module: FrontEnd.Lexer.Basic
Layer: Lexer
Purpose: The lexer: it walks through a text once, hands out one token at a time, and reports what it
  cannot read to a log without ever stopping for it.
Imports: FrontEnd.Offset.Arithmetic, FrontEnd.Token.Basic, FrontEnd.Diagnostic.Log,
  FrontEnd.Lexer.Lexeme, FrontEnd.Lexer.Error
Trusted boundary: none
Main exports: Lexer, Lexer.start, Lexer.nextToken, Lexer.next?, Lexer.take, Lexer.remaining, lex
Open obligations: none
-/
import FrontEnd.Offset.Arithmetic
import FrontEnd.Token.Basic
import FrontEnd.Diagnostic.Log
import FrontEnd.Lexer.Lexeme
import FrontEnd.Lexer.Error

namespace FrontEnd

/-- A lexer in the middle of a text: the characters not yet read, the offset at which they start,
    and the log that it reports to. Points before `reportedUntil` belong to a run of number
    fragments that was reported already. `finished` holds once the iteration has handed out the end
    of the text. -/
structure Lexer where
  file : FileId
  rest : List Char
  position : Nat := 0
  reportedUntil : Nat := 0
  finished : Bool := false
  log : Log
deriving DecidableEq, Repr

namespace Lexer

/-- A lexer at the front of a text. A text whose end has no offset is a fault of the caller. -/
def start (file : FileId) (text : String) (log : Log) : Except Fault Lexer :=
  if text.utf8ByteSize ≤ Offset.limit then .ok { file, rest := text.toList, log }
  else .error (.textTooLong text.utf8ByteSize)

/-- Add a finding to the log that the lexer reports to. -/
def emit (lexer : Lexer) (diagnostic : Diagnostic) : Lexer :=
  { lexer with log := lexer.log.emit diagnostic }

/-- Report an error in the text. -/
def report (lexer : Lexer) (error : LexError) : Lexer :=
  lexer.emit (error.toDiagnostic lexer.file)

/-- Report the run of number fragments that a float at the front of it and a point after the float
    begin. The lexer remembers where the run ends, so that it is reported once. -/
def reportFragments (lexer : Lexer) (lexeme : Lexeme) (point : Nat) : Except Fault Lexer := do
  let tail := lexeme.rest.takeWhile isNumberPart
  let runEnd ← Offset.add point (Text.utf8Size tail)
  let pointEnd ← Offset.add point 1
  let span ← Span.ofBounds point pointEnd
  let reported := lexer.report { span, problem := .ofFragments lexeme.text tail }
  return { reported with reportedUntil := runEnd }

/-- Report what is wrong with the lexeme at a span, if anything is: it is a character that starts no
    token, or a float with a point behind it that no earlier report covers. -/
def inspect (lexer : Lexer) (lexeme : Lexeme) (span : Span) : Except Fault Lexer :=
  match lexeme.kind, lexeme.text, lexeme.rest with
  | .invalid, c :: _, _ => .ok (lexer.report { span, problem := .unexpectedCharacter c })
  | .floatLiteral, _, '.' :: _ =>
      if lexer.reportedUntil ≤ span.stop then lexer.reportFragments lexeme span.stop
      else .ok lexer
  | _, _, _ => .ok lexer

/-- Read the next token. At the end of the text this is the token that ends it, on every call. -/
def nextToken (lexer : Lexer) : Except Fault (Token × Lexer) := do
  let start ← Offset.add lexer.position (Text.utf8Size (lexer.rest.takeWhile isBlank))
  match lexer.rest.dropWhile isBlank with
  | [] => return (.endOfFile start, { lexer with rest := [], position := start })
  | c :: input =>
      let lexeme := Lexeme.read c input
      let stop ← Offset.add start (Text.utf8Size lexeme.text)
      let span ← Span.ofBounds start stop
      let inspected ← lexer.inspect lexeme span
      return ({ kind := lexeme.kind, span, text := String.ofList lexeme.text },
        { inspected with rest := lexeme.rest, position := stop })

/-- The next token of the iteration, which ends behind the token that ends the text. -/
def next? (lexer : Lexer) : Except Fault (Option Token × Lexer) := do
  if lexer.finished then
    return (none, lexer)
  let (token, lexer) ← lexer.nextToken
  return (some token, { lexer with finished := token.isEndOfFile })

/-- At most `count` further tokens of the iteration. -/
def take (lexer : Lexer) : Nat → Except Fault (List Token × Lexer)
  | 0 => .ok ([], lexer)
  | count + 1 => do
      match ← lexer.next? with
      | (none, lexer) => return ([], lexer)
      | (some token, lexer) =>
          let (tokens, lexer) ← lexer.take count
          return (token :: tokens, lexer)

/-- A token other than the end of the text leaves fewer characters to read. -/
theorem nextToken_rest_length_lt {lexer next : Lexer} {token : Token}
    (step : lexer.nextToken = .ok (token, next)) (more : token.isEndOfFile = false) :
    next.rest.length < lexer.rest.length := by
  unfold nextToken at step
  simp only [bind, Except.bind, pure, Except.pure] at step
  have skipped := (List.dropWhile_suffix isBlank (l := lexer.rest)).length_le
  split at step
  · cases step
  · split at step
    · cases step
      simp [Token.endOfFile, Token.isEndOfFile] at more
    · rename_i c input found
      have shorter := Lexeme.rest_length_lt c input
      rw [found] at skipped
      repeat' split at step
      all_goals cases step
      exact Nat.lt_of_lt_of_le shorter skipped

/-- All further tokens of the iteration, the end of the text included. -/
def remaining (lexer : Lexer) : Except Fault (List Token × Lexer) :=
  if lexer.finished then .ok ([], lexer)
  else
    match _step : lexer.nextToken with
    | .error fault => .error fault
    | .ok (token, next) =>
        if _last : token.isEndOfFile then .ok ([token], { next with finished := true })
        else
          match remaining next with
          | .error fault => .error fault
          | .ok (tokens, after) => .ok (token :: tokens, after)
termination_by lexer.rest.length
decreasing_by exact nextToken_rest_length_lt _step (by simpa using _last)

end Lexer

/-- The tokens of a whole text, the end included, and the log with what was reported on the way. -/
def lex (file : FileId) (text : String) (log : Log) : Except Fault (List Token × Log) := do
  let lexer ← Lexer.start file text log
  let (tokens, lexer) ← lexer.remaining
  return (tokens, lexer.log)

end FrontEnd
