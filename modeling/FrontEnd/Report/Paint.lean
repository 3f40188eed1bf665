/-
Module: FrontEnd.Report.Paint
Layer: Report
Purpose: Texts with colors. A report is built of pieces that each have at most one color, and is
  written with the colors or without them.
Imports: FrontEnd.Diagnostic.Basic
Trusted boundary: none
Main exports: Paint, Paint.escape, Piece, Piece.write, Row, Row.write
Open obligations: none
-/
import FrontEnd.Diagnostic.Basic

namespace FrontEnd

/-- What a color stands for: a severity, the code of an error, or the frame of a snippet and the
    marks of related places. -/
inductive Paint where
  | severity (severity : Severity)
  | code
  | frame
deriving DecidableEq, Repr, Inhabited

namespace Paint

/-- The escape sequence that starts each color. All colors are bold. -/
def escape : Paint → String
  | .severity .error => "\x1b[1;31m"
  | .severity .warning => "\x1b[1;33m"
  | .severity .note => "\x1b[1;36m"
  | .severity .help => "\x1b[1;32m"
  | .code => "\x1b[1m"
  | .frame => "\x1b[1;34m"

/-- The escape sequence that ends any color. -/
def reset : String := "\x1b[0m"

end Paint

/-- A part of a row, in one color or in none. -/
structure Piece where
  paint : Option Paint
  text : String
deriving DecidableEq, Repr, Inhabited

namespace Piece

/-- A part in no color. -/
def plain (text : String) : Piece where
  paint := none
  text := text

/-- A part in a color. -/
def painted (paint : Paint) (text : String) : Piece where
  paint := some paint
  text := text

/-- A part as it is written. Without colors, only its text is. -/
def write (colored : Bool) (piece : Piece) : String :=
  match piece.paint, colored with
  | some paint, true => paint.escape ++ piece.text ++ Paint.reset
  | _, _ => piece.text

end Piece

/-- The parts of one row from left to right. -/
abbrev Row := List Piece

namespace Row

/-- A row as it is written, with the end of its line. -/
def write (colored : Bool) (row : Row) : String :=
  Text.concat (row.map (Piece.write colored)) ++ "\n"

end Row

end FrontEnd
