/-
Module: FrontEnd.Lexer.Error
Layer: Lexer
Purpose: The errors of the lexer, their wording, and the advice that goes with them.
Imports: FrontEnd.Diagnostic.Basic
Trusted boundary: none
Main exports: LexProblem, LexError, LexError.toDiagnostic
Open obligations: none
-/
import FrontEnd.Diagnostic.Basic

namespace FrontEnd

/-- What is wrong with a text that the lexer reads. In `malformedFloat`, `literal` is the whole run
    of number fragments, `kept` the float at its front, and `merged` the float that has the digits
    of all fragments behind its point; there is none when no digit follows the second point. -/
inductive LexProblem where
  | unexpectedCharacter (c : Char)
  | malformedFloat (literal kept : String) (merged : Option String)
deriving DecidableEq, Repr

/-- A problem and the place that its label marks: the character, or the second point of the run. -/
structure LexError where
  span : Span
  problem : LexProblem
deriving DecidableEq, Repr

namespace LexProblem

/-- The code of each problem. -/
def code : LexProblem → ErrorCode
  | .unexpectedCharacter _ => .unexpectedCharacter
  | .malformedFloat .. => .malformedFloat

/-- What the header line says. -/
def message : LexProblem → String
  | .unexpectedCharacter c => "unexpected character '" ++ String.singleton c ++ "'"
  | .malformedFloat literal _ _ => "malformed float literal `" ++ literal ++ "`"

/-- What the label says. -/
def labelText : LexProblem → String
  | .unexpectedCharacter _ => "unexpected character"
  | .malformedFloat .. => "a number literal can have only one decimal point"

/-- Advice on a repair. Of the characters only two have any; a run of fragments can always be cut to
    its first float, and merged into one when there is something to merge. -/
def help : LexProblem → Option String
  | .unexpectedCharacter '@' => some "remove '@' or replace it with a valid identifier character"
  | .unexpectedCharacter '#' => some "remove '#' or start a preprocessor directive if supported"
  | .unexpectedCharacter _ => none
  | .malformedFloat _ kept (some merged) => some ("use `" ++ kept ++ "` or `" ++ merged ++ "`")
  | .malformedFloat _ kept none => some ("remove the trailing `.` to write `" ++ kept ++ "`")

/-- The problem of a run of number fragments: the float `kept` and the rest `tail` of the run, which
    begins with a point. -/
def ofFragments (kept tail : List Char) : LexProblem :=
  let digits := tail.filter Char.isDigit
  .malformedFloat (String.ofList (kept ++ tail)) (String.ofList kept)
    (if digits.isEmpty then none else some (String.ofList (kept ++ digits)))

end LexProblem

namespace LexError

/-- The error as a finding with one primary label in a file. -/
def toDiagnostic (error : LexError) (file : FileId) : Diagnostic where
  severity := .error
  message := error.problem.message
  code := some error.problem.code
  labels := [(Label.primary file error.span).withMessage error.problem.labelText]
  help := error.problem.help

end LexError

end FrontEnd
