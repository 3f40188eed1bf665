/-
Module: FrontEnd.Proofs.ReportLayout
Layer: Proofs
Purpose: The rows of a report as they are written without colors. Each kind of row is a margin that
  depends on the width of the line numbers, and a text.
Imports: FrontEnd.Report.Basic
Trusted boundary: none
Main exports: paddingOf, Report.decimalWidth_eq, Row.text, Report.text_placeRow,
  Report.text_sourceRow, Report.text_markRow, Report.text_helpRow, Report.render_of_snippets
Open obligations: none
-/
import FrontEnd.Report.Basic

namespace FrontEnd

/-! ### Rows without colors -/

/-- The blank under a part of a line: tabs under tabs, and spaces under all other characters. -/
def paddingOf (ahead : List Char) : String :=
  String.ofList (ahead.map fun c => if c = '\t' then '\t' else ' ')

theorem length_paddingOf (ahead : List Char) : (paddingOf ahead).length = ahead.length := by
  rw [paddingOf, String.length_ofList, List.length_map]

namespace Row

/-- The text of a row. -/
def text (row : Row) : String :=
  Text.concat (row.map Piece.text)

theorem write_eq_text (row : Row) : Row.write false row = row.text ++ "\n" := by
  have plain : Piece.write false = Piece.text := by
    funext piece
    cases piece with
    | mk paint text =>
        cases paint with
        | none => rfl
        | some paint => rfl
  rw [write, plain, text]

end Row

namespace Report

/-- The width of a number is the length of its decimal form. -/
theorem decimalWidth_eq (number : Nat) : decimalWidth number = (toString number).length := by
  rw [Nat.toString_eq_ofList_toDigits, String.length_ofList]
  induction number using decimalWidth.induct with
  | case1 number small =>
      rw [decimalWidth, if_pos small, Nat.toDigits_of_lt_base small]
      rfl
  | case2 number large ih =>
      rw [decimalWidth, if_neg large, Nat.toDigits_of_base_le (by omega) (by omega), ih,
        List.length_append]
      rfl

theorem length_blanks (count : Nat) : (blanks count).length = count := by
  rw [blanks, Text.repeated, String.length_ofList, List.length_replicate]

/-! ### The text of each kind of row -/

variable (width : Nat) (paint : Paint) (snippet : Snippet)

theorem text_header (diagnostic : Diagnostic) :
    Row.text (header diagnostic) =
      diagnostic.severity.text
        ++ ((diagnostic.code.map fun code => "[" ++ code.text ++ "]").getD "")
        ++ ": " ++ diagnostic.message := by
  cases code : diagnostic.code with
  | none =>
      simp [header, code, Row.text, Text.concat, Piece.plain, Piece.painted, String.append_assoc]
  | some number =>
      have colon : "]: " = "]" ++ ": " := rfl
      simp [header, code, Row.text, Text.concat, Piece.plain, Piece.painted, String.append_assoc]
      rw [colon, String.append_assoc]

theorem text_margin (sign : String) :
    Row.text (margin width sign) = blanks (width + 2) ++ sign := by
  simp [margin, Row.text, Text.concat, Piece.plain, Piece.painted]

theorem text_placeRow :
    Row.text (placeRow width snippet) =
      blanks (width + 1) ++ snippet.label.marker ++ " " ++ snippet.fileName ++ ":"
        ++ snippet.place.text := by
  simp [placeRow, Row.text, Text.concat, Piece.plain, Piece.painted, String.append_assoc]

/-- What stands behind the bar of a source row. There is no blank before an empty line. -/
def shownLine (line : List Char) : String :=
  if line = [] then "" else " " ++ String.ofList line

theorem text_sourceRow :
    Row.text (sourceRow width snippet) =
      " " ++ blanks (width - (toString snippet.place.line).length)
        ++ toString snippet.place.line ++ " |" ++ shownLine snippet.line := by
  by_cases empty : snippet.line = []
  · simp [sourceRow, shownLine, empty, Row.text, Text.concat, Piece.painted, String.append_assoc]
  · simp [sourceRow, shownLine, empty, Row.text, Text.concat, Piece.plain, Piece.painted,
      String.append_assoc]

theorem text_sourceRow_of_ne_nil (filled : snippet.line ≠ []) :
    Row.text (sourceRow width snippet) =
      " " ++ blanks (width - (toString snippet.place.line).length)
        ++ toString snippet.place.line ++ " | " ++ String.ofList snippet.line := by
  have bar : " | " = " |" ++ " " := rfl
  rw [text_sourceRow, shownLine, if_neg filled, bar]
  simp only [String.append_assoc]

theorem text_markRow (text : String) :
    Row.text (markRow width paint snippet text) =
      blanks (width + 2) ++ "| " ++ snippet.padding ++ text := by
  have bar : "| " = "|" ++ " " := rfl
  simp [markRow, margin, Row.text, Text.concat, Piece.plain, Piece.painted, String.append_assoc]
  rw [bar, String.append_assoc]

theorem text_helpRow (help : String) :
    Row.text (helpRow width help) = blanks (width + 2) ++ "= help: " ++ help := by
  have sign : "= help: " = "=" ++ (" " ++ ("help" ++ ": ")) := rfl
  simp [helpRow, margin, Row.text, Text.concat, Piece.plain, Piece.painted, String.append_assoc]
  rw [sign, String.append_assoc, String.append_assoc, String.append_assoc]

/-! ### Reports -/

/-- A report is the layout of its snippets, row by row. -/
theorem render_of_snippets {diagnostic : Diagnostic} {sources : SourceMap}
    {resolved : List Snippet} (found : snippets diagnostic sources = .ok resolved) :
    render false diagnostic sources =
      .ok (Text.concat ((layout diagnostic resolved).map fun row => row.text ++ "\n")) := by
  have written : Row.write false = fun row : Row => row.text ++ "\n" := by
    funext row
    exact row.write_eq_text
  simp only [render, rows, found, written, bind, Except.bind, pure, Except.pure]

/-- A single label has a single snippet, if its file is known. -/
theorem snippets_of_label {diagnostic : Diagnostic} {sources : SourceMap} {label : Label}
    {snippet : Snippet} (labels : diagnostic.labels = [label])
    (resolved : Snippet.resolve sources label = .ok (some snippet)) :
    snippets diagnostic sources = .ok [snippet] := by
  simp [snippets, labels, List.mapM_cons, resolved, bind, Except.bind, pure, Except.pure]

/-- Line numbers are as wide as the widest of them. -/
theorem numberWidth_singleton : numberWidth [snippet] = (toString snippet.place.line).length := by
  rw [← decimalWidth_eq]
  rfl

end Report

end FrontEnd
