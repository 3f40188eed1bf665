/-
Module: FrontEnd.Proofs.CaretPlacement
Layer: Proofs
Purpose: Carets under the characters that findings are about. A finding of the lexer marks one
  character; its report shows the line of this character, and below it a caret in the same column.
Imports: FrontEnd.Proofs.FindingPlaces, FrontEnd.Proofs.SnippetCuts, FrontEnd.Proofs.ReportLayout
Trusted boundary: none
Main exports: Snippet.ofFile_eq, OneSnippet, ShowsCaret, lex_reports_show_carets
Open obligations: none
-/
import FrontEnd.Proofs.FindingPlaces
import FrontEnd.Proofs.SnippetCuts
import FrontEnd.Proofs.ReportLayout

namespace FrontEnd

open Text (utf8Size)

/-! ### The snippet of a character -/

/-- The snippet for a label at a single character has the part of the line before it, the character,
    and what is shown of the part behind it. -/
theorem Snippet.ofFile_eq {file : SourceFile} {label : Label} {above ahead behind : List Char}
    {c : Char} {ending : LineEnd}
    (isLine : IsLine file.text.toList above (ahead ++ c :: behind) ending) (notReturn : c ≠ '\r')
    (start : label.span.start = utf8Size (above ++ ahead))
    (stop : label.span.stop = utf8Size (above ++ ahead) + c.utf8Size) :
    ofFile label file =
      .ok
        { label
          fileName := file.name
          place := { line := above.count '\n' + 1, column := utf8Size ahead + 1 }
          line := ahead ++ c :: ending.shown behind
          before := ahead
          marked := [c] } := by
  obtain ⟨below, split, -⟩ := isLine.split
  have textSplit : file.text.toList
      = above ++ ahead ++ (c :: (behind ++ (ending.text ++ below))) := by
    simp [split]
  have inside : '\n' ∉ ahead := by
    intro member
    exact isLine.inside (List.mem_append_left _ member)
  -- The character takes a byte of the file, so its place is before the limit of the offsets.
  have filled := c.utf8Size_pos
  have limit : file.size ≤ Offset.limit := file.size_le
  have size := file.size_eq
  rw [textSplit, Text.utf8Size_append, Text.utf8Size_cons] at size
  have startIn : label.startIn file = utf8Size (above ++ ahead) := by
    rw [Label.startIn, start]
    omega
  have stopIn : label.stopIn file = utf8Size (above ++ (ahead ++ [c])) := by
    rw [Label.stopIn, stop, ← List.append_assoc, Text.utf8Size_append (above ++ ahead)]
    simp only [Text.utf8Size_cons, Text.utf8Size_nil]
    omega
  have place := SourceFile.lineColumn_eq textSplit isLine.opens inside (by omega)
  rw [← startIn] at place
  have lines := Text.count_le_utf8Size '\n' above
  have numbered : above.count '\n' < Offset.limit := by
    rw [Text.utf8Size_append] at size
    omega
  have lineText := SourceFile.lineText?_of_isLine isLine numbered
  rw [LineEnd.shown_append_cons notReturn] at lineText
  have lineStart := SourceFile.lineStart?_eq split isLine.opens numbered
  have startBehind : utf8Size above ≤ label.startIn file := by
    rw [startIn, Text.utf8Size_append]
    exact Nat.le_add_right _ _
  have stopBehind := Nat.le_trans startBehind (label.startIn_le_stopIn file)
  -- Both ends of the character are boundaries of the line, so they stay where they are.
  have floorStart : Text.floorBoundary (ahead ++ c :: ending.shown behind)
      (label.startIn file - utf8Size above) = .ok (utf8Size ahead) := by
    rw [startIn, Text.utf8Size_append, Nat.add_sub_cancel_left, Text.floorBoundary_eq_ok_iff]
    exact Text.isFloor_utf8Size ahead _
  have floorStop : Text.floorBoundary (ahead ++ c :: ending.shown behind)
      (label.stopIn file - utf8Size above) = .ok (utf8Size (ahead ++ [c])) := by
    rw [stopIn, Text.utf8Size_append above, Nat.add_sub_cancel_left, List.append_cons,
      Text.floorBoundary_eq_ok_iff]
    exact Text.isFloor_utf8Size (ahead ++ [c]) _
  have sliceBefore : Text.slice? (ahead ++ c :: ending.shown behind) 0 (utf8Size ahead)
      = some ahead :=
    Text.slice?_eq_some_iff.mpr ⟨[], _, rfl, rfl, Nat.zero_add _⟩
  have sliceMarked : Text.slice? (ahead ++ c :: ending.shown behind) (utf8Size ahead)
      (max (utf8Size (ahead ++ [c])) (utf8Size ahead)) = some [c] :=
    Text.slice?_eq_some_iff.mpr ⟨ahead, ending.shown behind, by simp, rfl, by simp⟩
  exact ofFile_of_slices place lineText lineStart startBehind stopBehind floorStart floorStop
    sliceBefore sliceMarked

/-! ### The report of a finding -/

/-- There is no caret in the blank under a part of a line. -/
theorem count_paddingOf (ahead : List Char) : (paddingOf ahead).toList.count '^' = 0 := by
  rw [paddingOf, String.toList_ofList, List.count_eq_zero]
  intro member
  obtain ⟨d, -, same⟩ := List.mem_map.mp member
  split at same
  · exact absurd same (by decide)
  · exact absurd same (by decide)

/-- The rows of a report with one snippet: the header, the place of the label, an empty row, the
    source line, the mark below it, the message of the label, and the advice. -/
structure OneSnippet where
  header : String
  arrow : String
  bar : String
  source : String
  mark : String
  message : String
  help : Option String

namespace OneSnippet

/-- The report that the rows make up. -/
def text (rows : OneSnippet) : String :=
  Text.concat
    (([rows.header, rows.arrow, rows.bar, rows.source, rows.mark, rows.message]
      ++ rows.help.toList).map (· ++ "\n"))

/-- The rows are those of a finding with one label. The snippet names the place of the label and
    shows the line `ahead ++ c :: shown`. The mark row has one caret, with as many characters before
    it as the source row has before `c`. -/
structure PointsAt (rows : OneSnippet) (finding : Diagnostic) (fileName : String)
    (line column : Nat) (ahead : List Char) (c : Char) (shown : List Char) : Prop where
  header : rows.header =
    finding.severity.text ++ (finding.code.map fun code => "[" ++ code.text ++ "]").getD ""
      ++ ": " ++ finding.message
  arrow : rows.arrow =
    Report.blanks ((toString line).length + 1) ++ "-->" ++ " " ++ fileName ++ ":"
      ++ (toString line ++ ":" ++ toString column)
  bar : rows.bar = Report.blanks ((toString line).length + 2) ++ "|"
  source : rows.source =
    " " ++ toString line ++ " | " ++ String.ofList ahead ++ String.ofList (c :: shown)
  caret : rows.mark =
    Report.blanks ((toString line).length + 2) ++ "| " ++ paddingOf ahead ++ "^"
  aligned : (Report.blanks ((toString line).length + 2) ++ "| " ++ paddingOf ahead).length
    = (" " ++ toString line ++ " | " ++ String.ofList ahead).length
  once : rows.mark.toList.count '^' = 1
  message : ∃ label text, finding.labels = [label] ∧ label.message = some text ∧
    rows.message =
      Report.blanks ((toString line).length + 2) ++ "| " ++ paddingOf ahead ++ text
  help : rows.help = finding.help.map fun help =>
    Report.blanks ((toString line).length + 2) ++ "= help: " ++ help

end OneSnippet

/-- The rows of the report of an error whose label has a snippet. -/
def LexError.reportRows (error : LexError) (file : FileId) (snippet : Snippet) : OneSnippet :=
  let finding := error.toDiagnostic file
  let width := (toString snippet.place.line).length
  { header := Row.text (Report.header finding)
    arrow := Row.text (Report.placeRow width snippet)
    bar := Row.text (Report.margin width "|")
    source := Row.text (Report.sourceRow width snippet)
    mark := Row.text (Report.markRow width (.severity .error) snippet
      (Text.repeated snippet.width '^'))
    message := Row.text (Report.markRow width (.severity .error) snippet error.problem.labelText)
    help := error.problem.help.map fun help => Row.text (Report.helpRow width help) }

/-- The report of an error has one snippet, that of its label. -/
theorem LexError.render_eq {error : LexError} {file : FileId} {sources : SourceMap}
    {snippet : Snippet}
    (resolved : Snippet.resolve sources
      ((Label.primary file error.span).withMessage error.problem.labelText) = .ok (some snippet))
    (label : snippet.label =
      (Label.primary file error.span).withMessage error.problem.labelText) :
    Report.render false (error.toDiagnostic file) sources =
      .ok (error.reportRows file snippet).text := by
  have found : Report.snippets (error.toDiagnostic file) sources = .ok [snippet] :=
    Report.snippets_of_label rfl resolved
  have primary : snippet.label.isPrimary = true := by
    rw [label]
    rfl
  have message : snippet.label.message = some error.problem.labelText := by
    rw [label]
    rfl
  have help : (error.toDiagnostic file).help = error.problem.help := rfl
  have severity : (error.toDiagnostic file).severity = .error := rfl
  rw [Report.render_of_snippets found]
  cases advice : error.problem.help with
  | none =>
      simp [Report.layout, Report.snippetRows, Report.numberWidth_singleton, primary, message,
        help, severity, advice, OneSnippet.text, LexError.reportRows]
  | some text =>
      simp [Report.layout, Report.snippetRows, Report.numberWidth_singleton, primary, message,
        help, severity, advice, OneSnippet.text, LexError.reportRows]

/-- Those rows point at the character that the label is about. -/
theorem LexError.reportRows_pointsAt {error : LexError} {file : FileId} {snippet : Snippet}
    {c : Char} {shown : List Char}
    (label : snippet.label =
      (Label.primary file error.span).withMessage error.problem.labelText)
    (line : snippet.line = snippet.before ++ c :: shown) (marked : snippet.marked = [c]) :
    (error.reportRows file snippet).PointsAt (error.toDiagnostic file) snippet.fileName
      snippet.place.line snippet.place.column snippet.before c shown := by
  have marker : snippet.label.marker = "-->" := by
    rw [label]
    rfl
  have filled : snippet.line ≠ [] := by simp [line]
  have width : Text.repeated snippet.width '^' = "^" := by
    rw [Snippet.width, marked]
    rfl
  have padding : snippet.padding = paddingOf snippet.before := rfl
  have mark : (error.reportRows file snippet).mark =
      Report.blanks ((toString snippet.place.line).length + 2) ++ "| "
        ++ paddingOf snippet.before ++ "^" := by
    simp only [reportRows, width, Report.text_markRow, padding]
  constructor
  · exact Report.text_header _
  · simp only [reportRows, Report.text_placeRow, marker, LineColumn.text]
  · exact Report.text_margin _ "|"
  · have none : Report.blanks 0 = "" := rfl
    simp only [reportRows, Report.text_sourceRow_of_ne_nil _ _ filled, line, Nat.sub_self, none,
      String.append_empty, String.ofList_append, String.append_assoc]
  · exact mark
  · have bar : "| ".length = 2 := rfl
    have gutter : " ".length + " | ".length = 4 := rfl
    simp only [paddingOf, String.length_append, Report.length_blanks, String.length_ofList,
      List.length_map]
    omega
  · have frame (count : Nat) : (Report.blanks count).toList.count '^' = 0 := by
      rw [Report.blanks, Text.repeated, String.toList_ofList, List.count_replicate]
      rfl
    have bar : "| ".toList.count '^' = 0 := rfl
    have caret : "^".toList.count '^' = 1 := rfl
    simp only [mark, String.toList_append, List.count_append, frame, bar, caret, count_paddingOf]
  · refine ⟨_, error.problem.labelText, rfl, rfl, ?_⟩
    simp only [reportRows, Report.text_markRow, padding]
  · simp only [reportRows, Report.text_helpRow, toDiagnostic]

/-- A report shows a caret under the character that a finding is about. All of the line of the
    character is shown, unless it is the last line and ends with a carriage return. -/
structure ShowsCaret (file : SourceFile) (finding : Diagnostic) (report : String)
    (above ahead : List Char) (c : Char) (behind shown : List Char) (ending : LineEnd) : Prop where
  isLine : IsLine file.text.toList above (ahead ++ c :: behind) ending
  label : ∃ label, finding.primarySpan? = some label ∧
    label.start = utf8Size (above ++ ahead) ∧ label.stop = label.start + c.utf8Size
  report : ∃ rows : OneSnippet, report = rows.text ∧
    rows.PointsAt finding file.name ((above ++ ahead).count '\n' + 1) (utf8Size ahead + 1) ahead c
      shown
  whole : ahead ++ c :: shown = ahead ++ c :: behind ↔
    ¬ (ending = .endOfText ∧ (ahead ++ c :: behind).getLast? = some '\r')
  lost : ending = .endOfText → (ahead ++ c :: behind).getLast? = some '\r' →
    ahead ++ c :: behind = ahead ++ c :: shown ++ ['\r']

/-- Carets stand under the characters that findings are about: a registered text is read to its end,
    and the report of each finding that this adds to the log shows a caret under its character. -/
theorem lex_reports_show_carets (sources : SourceMap) (id : FileId) (file : SourceFile) (log : Log)
    (known : sources.get? id = some file) :
    ∃ tokens after found, lex id file.text log = .ok (tokens, after) ∧
      after.toList = log.toList ++ found ∧
      ∀ finding ∈ found, ∃ report above ahead c behind shown ending,
        Report.render false finding sources = .ok report ∧
        ShowsCaret file finding report above ahead c behind shown ending := by
  obtain ⟨tokens, found, lexed, run⟩ := lex_run id log file.size_le
  refine ⟨tokens, log.emitAll found, found, lexed, log.toList_emitAll found, ?_⟩
  intro finding member
  obtain ⟨error, front, c, rfl, marks⟩ := run.marksChar finding member
  obtain ⟨above, ahead, behind, ending, rfl, inside, isLine⟩ :=
    exists_isLine marks.split marks.notNewline marks.notReturn
  let label := (Label.primary id error.span).withMessage error.problem.labelText
  have resolved : Snippet.resolve sources label = .ok (some
      { label
        fileName := file.name
        place := { line := above.count '\n' + 1, column := utf8Size ahead + 1 }
        line := ahead ++ c :: ending.shown behind
        before := ahead
        marked := [c] }) := by
    have ofFile : Snippet.ofFile label file = _ :=
      Snippet.ofFile_eq isLine marks.notReturn marks.start marks.stop
    have found : sources.get? label.file = some file := known
    rw [Snippet.resolve, found]
    simp only [ofFile, Except.map]
  refine ⟨_, above, ahead, c, behind, ending.shown behind, ending,
    LexError.render_eq resolved rfl, ?_⟩
  constructor
  · exact isLine
  · exact ⟨error.span, rfl, marks.start, by rw [marks.start, marks.stop]⟩
  · refine ⟨_, rfl, ?_⟩
    rw [count_newline_append inside]
    exact LexError.reportRows_pointsAt rfl rfl rfl
  · rw [← LineEnd.shown_append_cons marks.notReturn]
    exact LineEnd.shown_eq_self_iff
  · rw [← LineEnd.shown_append_cons marks.notReturn]
    exact LineEnd.eq_shown_append

/-- A file whose last line ends with a carriage return. -/
def returnFile : SourceFile where
  name := "a"
  text := "@\r"
  lineStarts := #[0]
  lineStarts_eq := rfl
  size_le := by decide

/-- The error in that file. -/
def returnError : LexError where
  span := { start := 0, stop := 1, start_le_stop := Nat.le_succ 0 }
  problem := .unexpectedCharacter '@'

theorem lex_reports_show_carets_return :
    ({ files := #[returnFile] } : SourceMap).get? ⟨0⟩ = some returnFile ∧
      ∃ tokens after found, lex ⟨0⟩ returnFile.text .empty = .ok (tokens, after) ∧
        after.toList = Log.empty.toList ++ found ∧
        ∀ finding ∈ found, ∃ report above ahead c behind shown ending,
          Report.render false finding { files := #[returnFile] } = .ok report ∧
          ShowsCaret returnFile finding report above ahead c behind shown ending :=
  ⟨rfl, lex_reports_show_carets { files := #[returnFile] } ⟨0⟩ returnFile .empty rfl⟩

/-- The last line of the file is all of its text, and the report shows only the first character. -/
theorem report_loses_return :
    IsLine returnFile.text.toList [] ['@', '\r'] .endOfText ∧
      (lex ⟨0⟩ returnFile.text .empty).map (·.2.toList) = .ok [returnError.toDiagnostic ⟨0⟩] ∧
      Report.render false (returnError.toDiagnostic ⟨0⟩) { files := #[returnFile] } =
        .ok ("error[E0001]: unexpected character '@'\n  --> a:1:1\n   |\n 1 | @\n   | ^\n"
          ++ "   | unexpected character\n"
          ++ "   = help: remove '@' or replace it with a valid identifier character\n") := by
  refine ⟨⟨Or.inl rfl, ⟨[], rfl, fun _ => rfl⟩, by decide, nofun⟩, ?_, ?_⟩
  · decide +kernel
  · decide +kernel

end FrontEnd
