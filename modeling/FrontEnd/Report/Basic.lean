/-
Module: FrontEnd.Report.Basic
Layer: Report
Purpose: Full reports of findings: a header, a snippet of the source for each label whose file is
  known, and the advice. A report depends on nothing but the finding and the sources.
Imports: FrontEnd.Report.Paint, FrontEnd.Report.Snippet
Trusted boundary: none
Main exports: Report.rows, Report.render
Open obligations: none
-/
import FrontEnd.Report.Paint
import FrontEnd.Report.Snippet

namespace FrontEnd

namespace Report

/-- The number of decimal digits of a number. -/
def decimalWidth (number : Nat) : Nat :=
  if number < 10 then 1 else decimalWidth (number / 10) + 1

/-- A number of blanks. -/
def blanks (count : Nat) : String :=
  Text.repeated count ' '

/-- The header: the severity, the code, if there is one, and the message. -/
def header (diagnostic : Diagnostic) : Row :=
  [.painted (.severity diagnostic.severity) diagnostic.severity.text]
    ++ (diagnostic.code.map fun code => Piece.painted .code ("[" ++ code.text ++ "]")).toList
    ++ [.plain (": " ++ diagnostic.message)]

/-- The start of a row without line number: the margin and a sign of the frame. -/
def margin (width : Nat) (sign : String) : Row :=
  [.plain (blanks (width + 2)), .painted .frame sign]

/-- The row that says where a label stands. -/
def placeRow (width : Nat) (snippet : Snippet) : Row :=
  [.plain (blanks (width + 1)), .painted .frame snippet.label.marker,
    .plain (" " ++ snippet.fileName ++ ":" ++ snippet.place.text)]

/-- The row of the source line. Line numbers end in the same column. -/
def sourceRow (width : Nat) (snippet : Snippet) : Row :=
  let number := toString snippet.place.line
  [.painted .frame (" " ++ blanks (width - number.length) ++ number ++ " |")]
    ++ if snippet.line.isEmpty then [] else [.plain (" " ++ String.ofList snippet.line)]

/-- A row below the source line, whose text starts under the start of the label. -/
def markRow (width : Nat) (paint : Paint) (snippet : Snippet) (text : String) : Row :=
  margin width "|" ++ [.plain (" " ++ snippet.padding), .painted paint text]

/-- The rows of a snippet: its place, an empty row, the source line, the mark and the message of the
    label, if there is one. The marks of primary labels have the color of the severity. -/
def snippetRows (severity : Severity) (width : Nat) (snippet : Snippet) : List Row :=
  let (sign, paint) :=
    if snippet.label.isPrimary then ('^', Paint.severity severity) else ('-', .frame)
  [placeRow width snippet, margin width "|", sourceRow width snippet,
    markRow width paint snippet (Text.repeated snippet.width sign)]
    ++ (snippet.label.message.map (markRow width paint snippet)).toList

/-- The row of the advice. -/
def helpRow (width : Nat) (help : String) : Row :=
  margin width "=" ++ [.plain " ", .painted (.severity .help) "help", .plain (": " ++ help)]

/-- The snippets for those labels of a finding whose files are known. -/
def snippets (diagnostic : Diagnostic) (sources : SourceMap) : Except Fault (List Snippet) :=
  return (← diagnostic.labels.mapM (Snippet.resolve sources)).filterMap id

/-- The width of the column of line numbers: that of the widest one. -/
def numberWidth (snippets : List Snippet) : Nat :=
  (snippets.map fun snippet => decimalWidth snippet.place.line).max?.getD 1

/-- The rows of the report of a finding whose labels have the given snippets. -/
def layout (diagnostic : Diagnostic) (snippets : List Snippet) : List Row :=
  let width := numberWidth snippets
  header diagnostic :: snippets.flatMap (snippetRows diagnostic.severity width)
    ++ (diagnostic.help.map (helpRow width)).toList

/-- The rows of the report of a finding. -/
def rows (diagnostic : Diagnostic) (sources : SourceMap) : Except Fault (List Row) :=
  return layout diagnostic (← snippets diagnostic sources)

/-- The report of a finding, with colors or without. -/
def render (colored : Bool) (diagnostic : Diagnostic) (sources : SourceMap) : Except Fault String :=
  return Text.concat ((← rows diagnostic sources).map (Row.write colored))

end Report

end FrontEnd
