/-
Module: FrontEnd.Proofs.RowAlignment
Layer: Proofs
Purpose: The rows of a report and their columns. A report is a header, the rows of each label whose
  file is known, and the advice. All bars stand in one column, all line numbers end in one column,
  and the mark and the message of a label start below the start of the label.
Imports: FrontEnd.Proofs.ReportLayout, FrontEnd.Proofs.SnippetCuts
Trusted boundary: none
Main exports: Text.splitOn_concat, Label.lineIn, Label.Parts, Diagnostic.numberWidth,
  LabelRows.Shows, LabelRows.Aligned, ReportRows.Aligned, report_rows_align
Open obligations: none
-/
import FrontEnd.Proofs.ReportLayout
import FrontEnd.Proofs.SnippetCuts

namespace FrontEnd

open Text (utf8Size newlineByte)

/-! ### Texts on one line -/

namespace Text

/-- A text without newlines. -/
def OneLine (text : String) : Prop :=
  '\n' ∉ text.toList

instance (text : String) : Decidable (OneLine text) :=
  inferInstanceAs (Decidable (¬ '\n' ∈ text.toList))

theorem oneLine_append {left right : String} :
    OneLine (left ++ right) ↔ OneLine left ∧ OneLine right := by
  rw [OneLine, String.toList_append, List.mem_append, not_or]
  exact Iff.rfl

theorem oneLine_repeated {c : Char} (other : c ≠ '\n') (count : Nat) :
    OneLine (repeated count c) := by
  rw [OneLine, repeated, String.toList_ofList]
  intro member
  exact other (List.eq_of_mem_replicate member).symm

/-- Rows on one line each are the lines of the text that they make up. The text ends behind the
    newline of the last row, so it has an empty last line. -/
theorem splitOn_concat {rows : List String} (oneLine : ∀ row ∈ rows, OneLine row) :
    (concat (rows.map (· ++ "\n"))).toList.splitOn '\n' = rows.map String.toList ++ [[]] := by
  induction rows with
  | nil =>
      rfl
  | cons row rows ih =>
      have split : (concat ((row :: rows).map (· ++ "\n"))).toList
          = row.toList ++ '\n' :: (concat (rows.map (· ++ "\n"))).toList := by
        simp [concat]
      obtain ⟨first, rest⟩ := List.forall_mem_cons.mp oneLine
      rw [split, List.splitOn_append_cons_self_of_not_mem first, ih rest]
      rfl

end Text

open Text (OneLine oneLine_append oneLine_repeated)

theorem oneLine_paddingOf (ahead : List Char) : OneLine (paddingOf ahead) := by
  rw [OneLine, paddingOf, String.toList_ofList]
  intro member
  obtain ⟨c, -, same⟩ := List.mem_map.mp member
  split at same
  · exact absurd same (by decide)
  · exact absurd same (by decide)

/-! ### Where labels start -/

namespace Label

/-- The number of the line on which a label starts: there is a newline byte before the label for
    each line above. -/
def lineIn (label : Label) (file : SourceFile) : Nat :=
  1 + (file.bytes.take (label.startIn file)).count newlineByte

/-- Where the line on which a label starts begins. -/
def lineStartIn (label : Label) (file : SourceFile) : Nat :=
  lineStartBefore file.bytes (label.startIn file)

/-- The column in which a label starts, counted from one, in bytes. -/
def columnIn (label : Label) (file : SourceFile) : Nat :=
  label.startIn file - label.lineStartIn file + 1

/-- The parts of the line on which a label starts: what is before the label and what is under it.
    The ends of the label, brought back into the line, come down to the boundaries below them. -/
structure Parts (label : Label) (file : SourceFile) (line before marked : List Char) : Prop where
  lineText : file.lineText? (label.lineIn file) = some line
  cuts : ∃ start stop,
    Text.IsFloor line (min (label.startIn file - label.lineStartIn file) (utf8Size line)) start ∧
    Text.IsFloor line (min (label.stopIn file - label.lineStartIn file) (utf8Size line)) stop ∧
    Text.slice? line 0 start = some before ∧
    Text.slice? line start (max stop start) = some marked

/-- What a label is marked with: carets at the place of the problem, hyphens at a related place. -/
def sign (label : Label) : Char :=
  if label.isPrimary then '^' else '-'

theorem oneLine_marker (label : Label) : OneLine label.marker := by
  unfold marker
  split
  · decide
  · decide

theorem sign_ne_newline (label : Label) : label.sign ≠ '\n' := by
  unfold sign
  split
  · decide
  · decide

end Label

section Cuts

variable {snippet : Snippet} {label : Label} {file : SourceFile} {beginning start stop : Nat}

/-- A snippet names the place at which its label starts. -/
theorem Snippet.CutAt.place_eq (cut : snippet.CutAt label file beginning start stop)
    (short : file.size < Offset.limit) :
    snippet.place = { line := label.lineIn file, column := label.columnIn file } := by
  have place := (SourceFile.lineColumn_eq_of_bytes cut.inFile short).2
  rw [cut.place] at place
  exact Except.ok.inj place

/-- A snippet has the parts of the line of its label. -/
theorem Snippet.CutAt.parts (cut : snippet.CutAt label file beginning start stop)
    (short : file.size < Offset.limit) :
    label.Parts file snippet.line snippet.before snippet.marked := by
  have place := cut.place_eq short
  have lineText := cut.lineText
  have lineStart := cut.lineStart
  rw [place] at lineText lineStart
  have numbered := SourceFile.count_lt_of_short cut.inFile short
  obtain rfl : label.lineStartIn file = beginning :=
    Option.some.inj ((SourceFile.lineStart?_of_bytes cut.inFile numbered).symm.trans lineStart)
  obtain ⟨reached, stopReached, rfl⟩ := cut.stopReached
  refine ⟨lineText, start, reached, ?_, ?_, cut.before, cut.marked⟩
  · exact Text.stepBack_eq_ok_iff.mp cut.startReached
  · exact Text.stepBack_eq_ok_iff.mp stopReached

end Cuts

namespace Diagnostic

/-- The numbers of the lines on which the labels in known files start. -/
def lineNumbers (diagnostic : Diagnostic) (sources : SourceMap) : List Nat :=
  diagnostic.labels.filterMap fun label => (sources.get? label.file).map label.lineIn

/-- The largest number of digits among them, and one if there are none. -/
def numberWidth (diagnostic : Diagnostic) (sources : SourceMap) : Nat :=
  ((diagnostic.lineNumbers sources).map fun number => (toString number).length).max?.getD 1

variable {diagnostic : Diagnostic} {sources : SourceMap} {label : Label} {file : SourceFile}

theorem length_toString_lineIn_le (listed : label ∈ diagnostic.labels)
    (known : sources.get? label.file = some file) :
    (toString (label.lineIn file)).length ≤ diagnostic.numberWidth sources := by
  have number : label.lineIn file ∈ diagnostic.lineNumbers sources :=
    List.mem_filterMap.mpr ⟨label, listed, by rw [known]; rfl⟩
  exact List.le_max?_getD_of_mem
    (List.mem_map_of_mem (f := fun number => (toString number).length) number)

/-- There is no newline in what a finding says, nor in the names of the files. -/
structure OneLine (diagnostic : Diagnostic) (sources : SourceMap) : Prop where
  message : Text.OneLine diagnostic.message
  labels : ∀ label ∈ diagnostic.labels, ∀ text ∈ label.message, Text.OneLine text
  help : ∀ text ∈ diagnostic.help, Text.OneLine text
  names : ∀ file ∈ sources.files, Text.OneLine file.name

end Diagnostic

/-! ### The rows of a label -/

/-- A part of a row starts in a column, counted from zero in characters. -/
def StandsAt (row : String) (column : Nat) (part : String) : Prop :=
  ∃ front back, row = front ++ part ++ back ∧ front.length = column

/-- The rows of a label: its place, an empty row, the source line, the mark and the message. -/
structure LabelRows where
  place : String
  bar : String
  source : String
  mark : String
  message : Option String

namespace LabelRows

open Report (blanks shownLine)

def toList (rows : LabelRows) : List String :=
  [rows.place, rows.bar, rows.source, rows.mark] ++ rows.message.toList

/-- The rows show a label, in a report whose line numbers take `width` characters. There is a row
    for the message of the label just if it has one. -/
structure Shows (rows : LabelRows) (label : Label) (file : SourceFile) (width : Nat)
    (line before marked : List Char) : Prop where
  place : rows.place =
    blanks (width + 1) ++ label.marker ++ " " ++ file.name ++ ":"
      ++ (toString (label.lineIn file) ++ ":" ++ toString (label.columnIn file))
  bar : rows.bar = blanks (width + 2) ++ "|"
  source : rows.source =
    " " ++ blanks (width - (toString (label.lineIn file)).length)
      ++ toString (label.lineIn file) ++ " |" ++ shownLine line
  mark : rows.mark =
    blanks (width + 2) ++ "| " ++ paddingOf before
      ++ Text.repeated (max marked.length 1) label.sign
  message : rows.message = label.message.map fun text =>
    blanks (width + 2) ++ "| " ++ paddingOf before ++ text

/-- The rows are aligned: all bars stand in one column, the line number ends in the column `width`,
    and the mark and the message start below the first character behind `before`. -/
structure Aligned (rows : LabelRows) (label : Label) (file : SourceFile) (width : Nat)
    (line before marked : List Char) : Prop where
  bars : ∀ row ∈ [rows.bar, rows.source, rows.mark] ++ rows.message.toList,
    StandsAt row (width + 2) "|"
  number : ∃ column, StandsAt rows.source column (toString (label.lineIn file)) ∧
    column + (toString (label.lineIn file)).length = width + 1
  source : line ≠ [] → StandsAt rows.source (width + 4) (String.ofList line)
  mark : StandsAt rows.mark (width + 4 + before.length)
    (Text.repeated (max marked.length 1) label.sign)
  message : ∀ text ∈ label.message, ∃ row ∈ rows.message,
    StandsAt row (width + 4 + before.length) text

variable {rows : LabelRows} {label : Label} {file : SourceFile} {width : Nat}
  {line before marked : List Char}

/-- In a row below the source line, the bar and what is behind the padding have their columns. -/
theorem standsAt_below (width : Nat) (before : List Char) (text : String) :
    StandsAt (blanks (width + 2) ++ "| " ++ paddingOf before ++ text) (width + 2) "|" ∧
      StandsAt (blanks (width + 2) ++ "| " ++ paddingOf before ++ text)
        (width + 4 + before.length) text := by
  have bar : "| " = "|" ++ " " := rfl
  have size : "| ".length = 2 := rfl
  constructor
  · refine ⟨blanks (width + 2), " " ++ paddingOf before ++ text, ?_, Report.length_blanks _⟩
    simp only [bar, String.append_assoc]
  · refine ⟨blanks (width + 2) ++ "| " ++ paddingOf before, "", ?_, ?_⟩
    · rw [String.append_empty]
    · simp only [String.length_append, Report.length_blanks, length_paddingOf, size]

/-- In a source row, the number ends in the column `width`, and the bar and the line have the
    columns behind it. -/
theorem standsAt_source {number : String} (fits : number.length ≤ width) (line : List Char) :
    StandsAt (" " ++ blanks (width - number.length) ++ number ++ " |" ++ shownLine line)
        (width + 1 - number.length) number ∧
      StandsAt (" " ++ blanks (width - number.length) ++ number ++ " |" ++ shownLine line)
        (width + 2) "|" ∧
      (line ≠ [] →
        StandsAt (" " ++ blanks (width - number.length) ++ number ++ " |" ++ shownLine line)
          (width + 4) (String.ofList line)) := by
  have blank : " ".length = 1 := rfl
  have gutter : " |".length = 2 := rfl
  have bar : " |" = " " ++ "|" := rfl
  refine ⟨⟨" " ++ blanks (width - number.length), " |" ++ shownLine line, ?_, ?_⟩,
    ⟨" " ++ blanks (width - number.length) ++ number ++ " ", shownLine line, ?_, ?_⟩, ?_⟩
  · rw [String.append_assoc]
  · simp only [String.length_append, Report.length_blanks, blank]
    omega
  · rw [bar, ← String.append_assoc]
  · simp only [String.length_append, Report.length_blanks, blank]
    omega
  · intro filled
    refine ⟨" " ++ blanks (width - number.length) ++ number ++ " |" ++ " ", "", ?_, ?_⟩
    · rw [shownLine, if_neg filled, String.append_empty, ← String.append_assoc]
    · simp only [String.length_append, Report.length_blanks, blank, gutter]
      omega

/-- The rows of a label are aligned, if the line number fits. -/
theorem Shows.aligned (shows : rows.Shows label file width line before marked)
    (fits : (toString (label.lineIn file)).length ≤ width) :
    rows.Aligned label file width line before marked := by
  obtain ⟨number, bar, source⟩ := standsAt_source fits line
  rw [← shows.source] at number bar source
  have below (text : String) := standsAt_below width before text
  constructor
  · intro row member
    simp only [List.mem_append, List.mem_cons, List.not_mem_nil, or_false, Option.mem_toList]
      at member
    rcases member with (rfl | rfl | rfl) | member
    · rw [shows.bar]
      exact ⟨_, "", by rw [String.append_empty], Report.length_blanks _⟩
    · exact bar
    · rw [shows.mark]
      exact (below _).1
    · rw [shows.message] at member
      obtain ⟨text, -, rfl⟩ := Option.map_eq_some_iff.mp member
      exact (below text).1
  · exact ⟨_, number, by omega⟩
  · exact source
  · rw [shows.mark]
    exact (below _).2
  · intro text found
    rw [shows.message, Option.mem_def.mp found]
    exact ⟨_, rfl, (below text).2⟩

/-- The rows of a label are on one line each. -/
theorem Shows.oneLine (shows : rows.Shows label file width line before marked)
    (parts : label.Parts file line before marked) (name : OneLine file.name)
    (message : ∀ text ∈ label.message, OneLine text) : ∀ row ∈ rows.toList, OneLine row := by
  have frame (count : Nat) : OneLine (blanks count) := oneLine_repeated (by decide) count
  have number (number : Nat) : OneLine (toString number) := Text.newline_not_mem_toString number
  have padding := oneLine_paddingOf before
  have shown : OneLine (shownLine line) := by
    unfold shownLine
    split
    · decide
    · rw [oneLine_append]
      refine ⟨by decide, ?_⟩
      rw [OneLine, String.toList_ofList]
      exact SourceFile.newline_not_mem_of_lineText? parts.lineText
  have blank : OneLine " " := by decide
  have colon : OneLine ":" := by decide
  have bar : OneLine "|" := by decide
  have bars : OneLine "| " ∧ OneLine " |" := by decide
  intro row member
  simp only [toList, List.mem_append, List.mem_cons, List.not_mem_nil, or_false,
    Option.mem_toList] at member
  rcases member with (rfl | rfl | rfl | rfl) | member
  · rw [shows.place]
    simp only [oneLine_append, frame, number, name, label.oneLine_marker, blank, colon, and_self]
  · rw [shows.bar]
    simp only [oneLine_append, frame, bar, and_self]
  · rw [shows.source]
    simp only [oneLine_append, frame, number, shown, blank, bars, and_self]
  · rw [shows.mark]
    simp only [oneLine_append, frame, padding, bars, oneLine_repeated label.sign_ne_newline,
      and_self]
  · rw [shows.message] at member
    obtain ⟨text, found, rfl⟩ := Option.map_eq_some_iff.mp member
    simp only [oneLine_append, frame, padding, bars, message text found, and_self]

end LabelRows

/-! ### The rows of a report -/

/-- The rows of a report: the header, the rows of each label, and the advice. -/
structure ReportRows where
  header : String
  labels : List LabelRows
  help : Option String

namespace ReportRows

open Report (blanks)

def toList (rows : ReportRows) : List String :=
  rows.header :: rows.labels.flatMap LabelRows.toList ++ rows.help.toList

/-- The rows are those of a finding: labels whose files are known have their rows in the order of
    the labels, all for the same width of the line numbers, and there is a row of advice just if
    there is advice. -/
structure Aligned (rows : ReportRows) (diagnostic : Diagnostic) (sources : SourceMap) : Prop where
  header : rows.header =
    diagnostic.severity.text ++ ((diagnostic.code.map fun code => "[" ++ code.text ++ "]").getD "")
      ++ ": " ++ diagnostic.message
  labels : List.Forall₂
    (fun label shown => ∃ file line before marked, sources.get? label.file = some file ∧
      label.Parts file line before marked ∧
      shown.Shows label file (diagnostic.numberWidth sources) line before marked ∧
      shown.Aligned label file (diagnostic.numberWidth sources) line before marked)
    (diagnostic.labels.filter sources.knows) rows.labels
  help : rows.help = diagnostic.help.map fun help =>
    blanks (diagnostic.numberWidth sources + 2) ++ "= help: " ++ help
  advice : ∀ row ∈ rows.help, StandsAt row (diagnostic.numberWidth sources + 2) "="

end ReportRows

namespace Report

/-- The rows of the label of a snippet. -/
def labelRows (width : Nat) (snippet : Snippet) : LabelRows where
  place := Row.text (placeRow width snippet)
  bar := Row.text (margin width "|")
  source := Row.text (sourceRow width snippet)
  mark := blanks (width + 2) ++ "| " ++ snippet.padding
    ++ Text.repeated snippet.width snippet.label.sign
  message := snippet.label.message.map fun text =>
    blanks (width + 2) ++ "| " ++ snippet.padding ++ text

theorem map_text_snippetRows (severity : Severity) (width : Nat) (snippet : Snippet) :
    (snippetRows severity width snippet).map Row.text = (labelRows width snippet).toList := by
  have below (paint : Paint) :
      Row.text ∘ markRow width paint snippet =
        fun text => blanks (width + 2) ++ "| " ++ snippet.padding ++ text := by
    funext text
    exact text_markRow width paint snippet text
  cases primary : snippet.label.isPrimary with
  | false =>
      simp [snippetRows, labelRows, LabelRows.toList, Label.sign, primary, text_markRow, below,
        Option.toList_map]
  | true =>
      simp [snippetRows, labelRows, LabelRows.toList, Label.sign, primary, text_markRow, below,
        Option.toList_map]

/-- The rows of the snippet of a label show the label. -/
theorem labelRows_shows {snippet : Snippet} {label : Label} {file : SourceFile}
    {beginning start stop : Nat} (width : Nat)
    (cut : snippet.CutAt label file beginning start stop) (short : file.size < Offset.limit) :
    (labelRows width snippet).Shows label file width snippet.line snippet.before
      snippet.marked := by
  have place := cut.place_eq short
  constructor
  · simp only [labelRows, text_placeRow, cut.ofLabel, cut.ofFile, place, LineColumn.text]
  · exact text_margin width "|"
  · simp only [labelRows, text_sourceRow, place]
  · rw [← cut.ofLabel]
    rfl
  · rw [← cut.ofLabel]
    rfl

/-- The rows of a report whose labels have the given snippets. -/
def reportRows (diagnostic : Diagnostic) (snippets : List Snippet) : ReportRows where
  header := Row.text (header diagnostic)
  labels := snippets.map (labelRows (numberWidth snippets))
  help := diagnostic.help.map fun help => Row.text (helpRow (numberWidth snippets) help)

theorem map_text_layout (diagnostic : Diagnostic) (snippets : List Snippet) :
    (layout diagnostic snippets).map Row.text = (reportRows diagnostic snippets).toList := by
  simp only [layout, reportRows, ReportRows.toList, List.map_cons, List.map_append,
    List.map_flatMap, List.flatMap_map, map_text_snippetRows, ← Option.toList_map, Option.map_map]
  rfl

section Sources

variable {diagnostic : Diagnostic} {sources : SourceMap} {shown : List Snippet}

/-- The line numbers of the snippets are those of the labels. -/
theorem map_line_eq (short : sources.Short) (labels : List Label)
    (pairs : Snippet.Resolved sources labels shown) :
    (shown.map fun snippet => snippet.place.line) =
      labels.filterMap fun label => (sources.get? label.file).map label.lineIn := by
  induction pairs with
  | nil =>
      rfl
  | cons resolved pairs ih =>
      obtain ⟨file, _, _, _, known, shortFile, cut⟩ := Snippet.cutAt_of_resolve short resolved
      rw [List.map_cons, List.filterMap_cons, ih, known, cut.place_eq shortFile]
      rfl

/-- The width of the line numbers is that of the widest line number of a label. -/
theorem numberWidth_eq (short : sources.Short)
    (pairs : Snippet.Resolved sources (diagnostic.labels.filter sources.knows) shown) :
    numberWidth shown = diagnostic.numberWidth sources := by
  have numbers : (shown.map fun snippet => snippet.place.line)
      = diagnostic.lineNumbers sources := by
    rw [map_line_eq short _ pairs, List.filterMap_filter, Diagnostic.lineNumbers]
    congr 1
    funext label
    cases known : sources.get? label.file with
    | none =>
        simp
    | some file =>
        simp [SourceMap.knows, known]
  rw [numberWidth, Diagnostic.numberWidth, ← numbers, List.map_map]
  simp only [decimalWidth_eq]
  rfl

/-- The rows of a report are those of the finding, and they are aligned. -/
theorem reportRows_aligned (short : sources.Short)
    (pairs : Snippet.Resolved sources (diagnostic.labels.filter sources.knows) shown) :
    (reportRows diagnostic shown).Aligned diagnostic sources := by
  have width := numberWidth_eq short pairs
  have listed : ∀ label ∈ diagnostic.labels.filter sources.knows, label ∈ diagnostic.labels :=
    fun label member => (List.mem_filter.mp member).1
  constructor
  · exact text_header diagnostic
  · rw [reportRows, width, List.forall₂_map_right_iff]
    refine List.Forall₂.imp ?_ ((List.forall₂_and_left _ _).mpr ⟨listed, pairs⟩)
    rintro label snippet ⟨member, resolved⟩
    obtain ⟨file, _, _, _, known, shortFile, cut⟩ := Snippet.cutAt_of_resolve short resolved
    have shows := labelRows_shows (diagnostic.numberWidth sources) cut shortFile
    exact ⟨file, snippet.line, snippet.before, snippet.marked, known, cut.parts shortFile, shows,
      shows.aligned (Diagnostic.length_toString_lineIn_le member known)⟩
  · simp only [reportRows, width, text_helpRow]
  · intro row member
    have sign : "= help: " = "=" ++ " help: " := rfl
    simp only [reportRows, width, text_helpRow] at member
    obtain ⟨help, -, rfl⟩ := Option.map_eq_some_iff.mp member
    refine ⟨blanks (diagnostic.numberWidth sources + 2), " help: " ++ help, ?_, length_blanks _⟩
    simp only [sign, String.append_assoc]

end Sources

end Report

/-- A member of the second of two lists that are related one by one has a partner. -/
theorem exists_mem_of_forall₂ {α β : Type} {related : α → β → Prop} {left : List α}
    {right : List β} (pairs : List.Forall₂ related left right) :
    ∀ b ∈ right, ∃ a ∈ left, related a b := by
  induction pairs with
  | nil =>
      exact fun b member => absurd member List.not_mem_nil
  | cons here pairs ih =>
      intro b member
      rcases List.mem_cons.mp member with rfl | member
      · exact ⟨_, List.mem_cons_self .., here⟩
      · obtain ⟨a, listed, related⟩ := ih b member
        exact ⟨a, List.mem_cons_of_mem _ listed, related⟩

/-- The rows of a report are on one line each, if nothing that the finding says and no name of a
    file has a newline. -/
theorem ReportRows.Aligned.oneLine {rows : ReportRows} {diagnostic : Diagnostic}
    {sources : SourceMap} (aligned : rows.Aligned diagnostic sources)
    (plain : diagnostic.OneLine sources) : ∀ row ∈ rows.toList, OneLine row := by
  intro row member
  simp only [toList, List.mem_append, List.mem_cons, List.mem_flatMap, Option.mem_toList] at member
  rcases member with (rfl | ⟨shown, listed, member⟩) | member
  · have severity : OneLine diagnostic.severity.text := by
      cases diagnostic.severity <;> decide
    have code : OneLine ((diagnostic.code.map fun code => "[" ++ code.text ++ "]").getD "") := by
      cases diagnostic.code with
      | none => decide
      | some code => cases code <;> decide
    have colon : OneLine ": " := by decide
    rw [aligned.header]
    simp only [oneLine_append, severity, code, colon, plain.message, and_self]
  · obtain ⟨label, known, file, line, before, marked, found, parts, shows, -⟩ :=
      exists_mem_of_forall₂ aligned.labels shown listed
    exact shows.oneLine parts (plain.names file (Array.mem_of_getElem? found))
      (plain.labels label (List.mem_filter.mp known).1) row member
  · have sign : OneLine "= help: " := by decide
    rw [aligned.help] at member
    obtain ⟨help, found, rfl⟩ := Option.map_eq_some_iff.mp member
    simp only [oneLine_append, oneLine_repeated (by decide : ' ' ≠ '\n'), Report.blanks, sign,
      plain.help help found, and_self]

/-- The lines of a report are its rows, which are aligned: the header, the rows of each label whose
    file is known, in the order of the labels, and a row for the advice, if there is any. -/
theorem report_rows_align (diagnostic : Diagnostic) (sources : SourceMap) (short : sources.Short)
    (plain : diagnostic.OneLine sources) :
    ∃ text rows, Report.render false diagnostic sources = .ok text ∧
      text.toList.splitOn '\n' = rows.toList.map String.toList ++ [[]] ∧
      ReportRows.Aligned rows diagnostic sources := by
  obtain ⟨shown, found, pairs⟩ := Report.exists_snippets diagnostic short
  have aligned := Report.reportRows_aligned short pairs
  have written : (Report.layout diagnostic shown).map (fun row => row.text ++ "\n")
      = (Report.reportRows diagnostic shown).toList.map (· ++ "\n") := by
    rw [← Report.map_text_layout, List.map_map]
    rfl
  refine ⟨_, _, Report.render_of_snippets found, ?_, aligned⟩
  rw [written, Text.splitOn_concat (aligned.oneLine plain)]

/-- A file with a tab and a character of three bytes on its second line. -/
def tabbedFile : SourceFile where
  name := "a"
  text := "x y\n\t€y z"
  lineStarts := #[0, 4]
  lineStarts_eq := rfl
  size_le := by decide

/-- A file whose tenth line has a single character, and whose other lines are empty. -/
def tallFile : SourceFile where
  name := "bb"
  text := "\n\n\n\n\n\n\n\n\nq"
  lineStarts := #[0, 1, 2, 3, 4, 5, 6, 7, 8, 9]
  lineStarts_eq := rfl
  size_le := by decide

/-- A finding with labels in both files, on an empty line, and in a file that is not there. -/
def spreadFinding : Diagnostic where
  severity := .error
  message := "m"
  code := some .malformedFloat
  labels :=
    [(Label.primary ⟨0⟩ ⟨8, 11, by decide⟩).withMessage "here",
      .primary ⟨7⟩ ⟨0, 4, by decide⟩, .secondary ⟨1⟩ ⟨9, 10, by decide⟩,
      (Label.secondary ⟨1⟩ ⟨3, 3, by decide⟩).withMessage "there"]
  help := some "h"

theorem report_rows_align_spread :
    SourceMap.Short { files := #[tabbedFile, tallFile] } ∧
      spreadFinding.OneLine { files := #[tabbedFile, tallFile] } ∧
      ∃ text rows,
        Report.render false spreadFinding { files := #[tabbedFile, tallFile] } = .ok text ∧
        text.toList.splitOn '\n' = rows.toList.map String.toList ++ [[]] ∧
        ReportRows.Aligned rows spreadFinding { files := #[tabbedFile, tallFile] } := by
  have short : SourceMap.Short { files := #[tabbedFile, tallFile] } := by
    intro file member
    obtain rfl | rfl : file = tabbedFile ∨ file = tallFile := by simpa using member
    · decide
    · decide
  have plain : spreadFinding.OneLine { files := #[tabbedFile, tallFile] } := by
    refine ⟨by decide, by decide, by decide, ?_⟩
    intro file member
    obtain rfl | rfl : file = tabbedFile ∨ file = tallFile := by simpa using member
    · decide
    · decide
  exact ⟨short, plain,
    report_rows_align spreadFinding { files := #[tabbedFile, tallFile] } short plain⟩

/-- The bars of both files are in one column. -/
example :
    Report.render false spreadFinding { files := #[tabbedFile, tallFile] } =
      .ok ("error[E0002]: m\n   --> a:2:5\n    |\n  2 | \t€y z\n    | \t ^^^\n    | \t here\n"
        ++ "   ::: bb:10:1\n    |\n 10 | q\n    | -\n"
        ++ "   ::: bb:4:1\n    |\n  4 |\n    | -\n    | there\n    = help: h\n") := by
  decide +kernel

end FrontEnd
