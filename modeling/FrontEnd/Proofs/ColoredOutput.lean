/-
Module: FrontEnd.Proofs.ColoredOutput
Layer: Proofs
Purpose: Colors add escape sequences and nothing else. Reports and whole outputs are written from
  rows that do not depend on the colors, and what the rows show is taken from findings and sources;
  where these have no escape characters, removing the escape sequences gives the plain output.
Imports: FrontEnd.Report.Terminal, FrontEnd.Proofs.EscapeSequences
Trusted boundary: none
Main exports: exists_of_mapM_eq_ok, Snippet.ofFile_contents, Report.render_eq_rows,
  Terminal.Request.rows, Terminal.write_eq_rows, colors_strip_to_plain
Open obligations: none
-/
import FrontEnd.Report.Terminal
import FrontEnd.Proofs.EscapeSequences

namespace FrontEnd

/-! ### Checked steps -/

section Checked

variable {α β : Type}

theorem map_eq_ok_iff {step : Except Fault α} {f : α → β} {result : β} :
    step.map f = .ok result ↔ ∃ value, step = .ok value ∧ f value = result := by
  cases step with
  | error fault => simp [Except.map]
  | ok value => simp [Except.map]

/-- Each result of a series of steps is that of a step. -/
theorem exists_of_mapM_eq_ok {step : α → Except Fault β} {items : List α} {results : List β}
    (done : items.mapM step = .ok results) :
    ∀ result ∈ results, ∃ item ∈ items, step item = .ok result := by
  induction items generalizing results with
  | nil =>
      cases done
      exact List.forall_mem_nil _
  | cons item items ih =>
      rw [List.mapM_cons] at done
      obtain ⟨first, here, done⟩ := bind_eq_ok_iff.mp done
      obtain ⟨later, there, done⟩ := bind_eq_ok_iff.mp done
      cases done
      intro result member
      rcases List.mem_cons.mp member with rfl | member
      · exact ⟨item, List.mem_cons_self .., here⟩
      · obtain ⟨other, inItems, same⟩ := ih there result member
        exact ⟨other, List.mem_cons_of_mem _ inItems, same⟩

/-- What is done to each result can be done to all of them at the end. -/
theorem mapM_map {γ : Type} {step : α → Except Fault β} (f : β → γ) (items : List α) :
    items.mapM (fun item => (step item).map f) = (items.mapM step).map (List.map f) := by
  induction items with
  | nil =>
      rfl
  | cons item items ih =>
      rw [List.mapM_cons, List.mapM_cons, ih]
      cases step item with
      | error fault => rfl
      | ok first =>
          cases items.mapM step with
          | error fault => rfl
          | ok later => rfl

end Checked

open Text (EscapeFree StripsTo escapeChar)

/-! ### What a snippet shows -/

/-- There is no escape character in what a finding says. -/
structure Diagnostic.EscapeFree (diagnostic : Diagnostic) : Prop where
  message : Text.EscapeFree diagnostic.message
  labels : ∀ label ∈ diagnostic.labels, ∀ text ∈ label.message, Text.EscapeFree text
  help : ∀ text ∈ diagnostic.help, Text.EscapeFree text

/-- There is no escape character in the names and texts of the files. -/
def SourceMap.EscapeFree (sources : SourceMap) : Prop :=
  ∀ file ∈ sources.files, Text.EscapeFree file.name ∧ Text.EscapeFree file.text

/-- A line shows only characters of its file. -/
theorem SourceFile.mem_text_of_lineText? {file : SourceFile} {number : Nat} {line : List Char}
    (found : file.lineText? number = some line) : ∀ c ∈ line, c ∈ file.text.toList := by
  have stripped (text : List Char) : ∀ c ∈ stripReturn text, c ∈ text := by
    intro c member
    rw [stripReturn] at member
    split at member
    · exact (List.dropLast_sublist text).subset member
    · exact member
  simp only [lineText?, Option.bind_eq_bind, Option.bind_eq_some_iff, Option.pure_def,
    Option.some.injEq] at found
  obtain ⟨start, -, ⟨front, rest⟩, cut, rfl⟩ := found
  intro c member
  rw [(Text.eq_append_of_cut? cut).1]
  exact List.mem_append_right _ ((List.takeWhile_sublist _).subset (stripped _ c member))

namespace Snippet

/-- A snippet has the label that it is for, the name of the file, and a line of the file or none. -/
theorem ofFile_contents {label : Label} {file : SourceFile} {snippet : Snippet}
    (found : ofFile label file = .ok snippet) :
    snippet.label = label ∧ snippet.fileName = file.name ∧
      snippet.line = (file.lineText? snippet.place.line).getD [] := by
  obtain ⟨place, -, found⟩ := bind_eq_ok_iff.mp found
  obtain ⟨startDistance, -, found⟩ := bind_eq_ok_iff.mp found
  obtain ⟨start, -, found⟩ := bind_eq_ok_iff.mp found
  obtain ⟨stopDistance, -, found⟩ := bind_eq_ok_iff.mp found
  obtain ⟨stop, -, found⟩ := bind_eq_ok_iff.mp found
  obtain ⟨before, -, found⟩ := bind_eq_ok_iff.mp found
  obtain ⟨marked, -, found⟩ := bind_eq_ok_iff.mp found
  cases found
  exact ⟨rfl, rfl, rfl⟩

/-- There is no escape character in what a snippet shows. -/
structure EscapeFree (snippet : Snippet) : Prop where
  fileName : Text.EscapeFree snippet.fileName
  line : ∀ c ∈ snippet.line, c ≠ escapeChar
  message : ∀ text ∈ snippet.label.message, Text.EscapeFree text

theorem escapeFree_of_resolve {sources : SourceMap} {label : Label} {snippet : Snippet}
    (free : sources.EscapeFree) (freeLabel : ∀ text ∈ label.message, Text.EscapeFree text)
    (resolved : resolve sources label = .ok (some snippet)) : snippet.EscapeFree := by
  unfold resolve at resolved
  split at resolved
  · cases resolved
  · rename_i file known
    obtain ⟨snippet', found, same⟩ := map_eq_ok_iff.mp resolved
    cases same
    obtain ⟨freeName, freeText⟩ := free file (Array.mem_of_getElem? known)
    obtain ⟨labelEq, nameEq, lineEq⟩ := ofFile_contents found
    constructor
    · rw [nameEq]
      exact freeName
    · rw [lineEq]
      cases text : file.lineText? snippet.place.line with
      | none =>
          exact List.forall_mem_nil _
      | some line =>
          rintro c member rfl
          exact freeText (SourceFile.mem_text_of_lineText? text _ member)
    · rw [labelEq]
      exact freeLabel

/-- The blank before a mark has spaces and tabs. -/
theorem escapeFree_padding (snippet : Snippet) : Text.EscapeFree snippet.padding := by
  apply Text.escapeFree_ofList
  intro c member
  obtain ⟨d, -, rfl⟩ := List.mem_map.mp member
  split
  · decide
  · decide

end Snippet

/-! ### Rows -/

namespace Report

theorem escapeFree_header {diagnostic : Diagnostic} (free : diagnostic.EscapeFree) :
    (header diagnostic).EscapeFree := by
  have severity : EscapeFree diagnostic.severity.text := by
    cases diagnostic.severity <;> decide
  have code : ∀ code : ErrorCode, EscapeFree ("[" ++ code.text ++ "]") := by
    intro code
    cases code <;> decide
  have colon : EscapeFree (": " ++ diagnostic.message) := .append (by decide) free.message
  intro piece member
  simp only [header, List.mem_append, List.mem_singleton, Option.mem_toList,
    Option.map_eq_some_iff] at member
  rcases member with (rfl | ⟨number, -, rfl⟩) | rfl
  · exact severity
  · exact code number
  · exact colon

theorem escapeFree_blanks (count : Nat) : EscapeFree (blanks count) :=
  Text.escapeFree_repeated count (by decide)

theorem escapeFree_margin (width : Nat) {sign : String} (free : EscapeFree sign) :
    (margin width sign).EscapeFree := by
  intro piece member
  simp only [margin, List.mem_cons, List.not_mem_nil, or_false] at member
  rcases member with rfl | rfl
  · exact escapeFree_blanks _
  · exact free

theorem escapeFree_markRow (width : Nat) (paint : Paint) (snippet : Snippet) {text : String}
    (free : EscapeFree text) : (markRow width paint snippet text).EscapeFree := by
  intro piece member
  simp only [markRow, List.mem_append, List.mem_cons, List.not_mem_nil, or_false] at member
  rcases member with inMargin | rfl | rfl
  · have bar : EscapeFree "|" := by decide
    exact escapeFree_margin width bar piece inMargin
  · exact .append (by decide) snippet.escapeFree_padding
  · exact free

theorem escapeFree_placeRow (width : Nat) {snippet : Snippet} (free : snippet.EscapeFree) :
    (placeRow width snippet).EscapeFree := by
  have marker : EscapeFree snippet.label.marker := by
    rw [Label.marker]
    split <;> decide
  have place : EscapeFree snippet.place.text :=
    .append (.append (Text.escapeFree_toString _) (by decide)) (Text.escapeFree_toString _)
  have space : EscapeFree " " := by decide
  intro piece member
  simp only [placeRow, List.mem_cons, List.not_mem_nil, or_false] at member
  rcases member with rfl | rfl | rfl
  · exact escapeFree_blanks _
  · exact marker
  · exact ((space.append free.fileName).append (by decide)).append place

theorem escapeFree_sourceRow (width : Nat) {snippet : Snippet} (free : snippet.EscapeFree) :
    (sourceRow width snippet).EscapeFree := by
  have space : EscapeFree " " := by decide
  intro piece member
  simp only [sourceRow, List.mem_append, List.mem_singleton] at member
  rcases member with rfl | inLine
  · exact ((space.append (escapeFree_blanks _)).append (Text.escapeFree_toString _)).append
      (by decide)
  · split at inLine
    · cases inLine
    · rw [List.mem_singleton.mp inLine]
      exact space.append (Text.escapeFree_ofList free.line)

theorem escapeFree_snippetRows (severity : Severity) (width : Nat) {snippet : Snippet}
    (free : snippet.EscapeFree) :
    ∀ row ∈ snippetRows severity width snippet, row.EscapeFree := by
  have bar : EscapeFree "|" := by decide
  have caret : EscapeFree (Text.repeated snippet.width '^') :=
    Text.escapeFree_repeated _ (by decide)
  have dash : EscapeFree (Text.repeated snippet.width '-') :=
    Text.escapeFree_repeated _ (by decide)
  have sign : ∀ sign paint, (if snippet.label.isPrimary then ('^', Paint.severity severity)
      else ('-', .frame)) = (sign, paint) → EscapeFree (Text.repeated snippet.width sign) := by
    intro sign paint chosen
    split at chosen
    · cases chosen
      exact caret
    · cases chosen
      exact dash
  intro row member
  unfold snippetRows at member
  split at member
  rename_i mark paint chosen
  simp only [List.mem_append, List.mem_cons, List.not_mem_nil, or_false, Option.mem_toList,
    Option.map_eq_some_iff] at member
  rcases member with (rfl | rfl | rfl | rfl) | ⟨text, found, rfl⟩
  · exact escapeFree_placeRow width free
  · exact escapeFree_margin width bar
  · exact escapeFree_sourceRow width free
  · exact escapeFree_markRow width paint snippet (sign mark paint chosen)
  · exact escapeFree_markRow width paint snippet (free.message text found)

theorem escapeFree_helpRow (width : Nat) {help : String} (free : EscapeFree help) :
    (helpRow width help).EscapeFree := by
  have sign : EscapeFree "=" := by decide
  have space : EscapeFree " " := by decide
  have word : EscapeFree "help" := by decide
  intro piece member
  simp only [helpRow, List.mem_append, List.mem_cons, List.not_mem_nil, or_false] at member
  rcases member with inMargin | rfl | rfl | rfl
  · exact escapeFree_margin width sign piece inMargin
  · exact space
  · exact word
  · exact .append (by decide) free

/-- The rows of a report have no escape characters where finding and sources have none. -/
theorem escapeFree_rows {diagnostic : Diagnostic} {sources : SourceMap} {found : List Row}
    (free : diagnostic.EscapeFree) (freeSources : sources.EscapeFree)
    (done : rows diagnostic sources = .ok found) : ∀ row ∈ found, row.EscapeFree := by
  obtain ⟨shown, resolved, done⟩ := bind_eq_ok_iff.mp done
  cases done
  obtain ⟨options, results, resolved⟩ := bind_eq_ok_iff.mp resolved
  cases resolved
  have freeSnippets : ∀ snippet ∈ options.filterMap id, snippet.EscapeFree := by
    intro snippet member
    rw [List.mem_filterMap] at member
    obtain ⟨option, inOptions, rfl⟩ := member
    obtain ⟨label, inLabels, found⟩ := exists_of_mapM_eq_ok results _ inOptions
    exact Snippet.escapeFree_of_resolve freeSources (free.labels label inLabels) found
  intro row member
  simp only [layout, List.mem_append, List.mem_cons, List.mem_flatMap, Option.mem_toList,
    Option.map_eq_some_iff] at member
  rcases member with (rfl | ⟨snippet, inSnippets, inRows⟩) | ⟨help, found, rfl⟩
  · exact escapeFree_header free
  · exact escapeFree_snippetRows _ _ (freeSnippets snippet inSnippets) row inRows
  · exact escapeFree_helpRow _ (free.help help found)

/-- With colors or without, the same rows are written. -/
theorem render_eq_rows (colored : Bool) (diagnostic : Diagnostic) (sources : SourceMap) :
    render colored diagnostic sources = (rows diagnostic sources).map (Row.writeAll colored) := by
  rw [render]
  cases rows diagnostic sources with
  | error fault => rfl
  | ok found => rfl

end Report

/-! ### Outputs -/

namespace Terminal

namespace Request

/-- The findings that a request is about. -/
def diagnostics : Request → List Diagnostic
  | .emit diagnostic => [diagnostic]
  | .emitAll diagnostics => diagnostics
  | .emitLog log => log.toList
  | .summary _ _ | .flush => []

/-- The rows of a finding in an output: those of its report and an empty one. -/
def rowsOf (sources : SourceMap) (diagnostic : Diagnostic) : Except Fault (List Row) :=
  (Report.rows diagnostic sources).map (· ++ [[]])

/-- The rows that a request comes to. -/
def rows (sources : SourceMap) : Request → Except Fault (List Row)
  | .emit diagnostic => rowsOf sources diagnostic
  | .emitAll diagnostics => (diagnostics.mapM (rowsOf sources)).map List.flatten
  | .emitLog log =>
      (log.toList.mapM (rowsOf sources)).map fun found =>
        found.flatten ++ summaryRows (log.countOf .error) (log.countOf .warning)
  | .summary errors warnings => .ok (summaryRows errors warnings)
  | .flush => .ok []

end Request

theorem report_eq_rows (terminal : Terminal) (diagnostic : Diagnostic) :
    terminal.report diagnostic =
      (Request.rowsOf terminal.sources diagnostic).map (Row.writeAll terminal.colored) := by
  rw [report, Report.render_eq_rows, Request.rowsOf]
  cases Report.rows diagnostic terminal.sources with
  | error fault => rfl
  | ok found =>
      have written : Row.writeAll terminal.colored (found ++ [[]])
          = Row.writeAll terminal.colored found ++ "\n" := by
        rw [Row.writeAll_append]
        rfl
      simp only [Except.map, written, bind, Except.bind, pure, Except.pure]

theorem reports_eq_rows (terminal : Terminal) (diagnostics : List Diagnostic) :
    terminal.reports diagnostics =
      (diagnostics.mapM (Request.rowsOf terminal.sources)).map fun found =>
        Row.writeAll terminal.colored found.flatten := by
  have each : terminal.report = fun diagnostic =>
      (Request.rowsOf terminal.sources diagnostic).map (Row.writeAll terminal.colored) := by
    funext diagnostic
    exact terminal.report_eq_rows diagnostic
  rw [reports, each, mapM_map]
  cases diagnostics.mapM (Request.rowsOf terminal.sources) with
  | error fault => rfl
  | ok found => simp only [Except.map, Row.writeAll_flatten, bind, Except.bind, pure, Except.pure]

/-- With colors or without, a request writes the same rows. -/
theorem write_eq_rows (terminal : Terminal) (request : Request) :
    terminal.write request =
      (request.rows terminal.sources).map (Row.writeAll terminal.colored) := by
  cases request with
  | emit diagnostic =>
      exact terminal.report_eq_rows diagnostic
  | emitAll diagnostics =>
      rw [write, reports_eq_rows, Request.rows]
      cases diagnostics.mapM (Request.rowsOf terminal.sources) with
      | error fault => rfl
      | ok found => rfl
  | emitLog log =>
      rw [write, reports_eq_rows, Request.rows]
      cases log.toList.mapM (Request.rowsOf terminal.sources) with
      | error fault => rfl
      | ok found =>
          simp only [Except.map, Row.writeAll_append, bind, Except.bind, pure, Except.pure]
          rfl
  | summary errors warnings => rfl
  | flush => rfl

theorem escapeFree_summaryRows (errors warnings : Nat) :
    ∀ row ∈ summaryRows errors warnings, row.EscapeFree := by
  have count : EscapeFree (warningCount warnings) := by
    have word : EscapeFree (if warnings = 1 then " warning" else " warnings") := by
      split <;> decide
    exact ((Text.escapeFree_toString _).append word).append (by decide)
  have number : EscapeFree (errorCount errors) := by
    rw [errorCount]
    split
    · decide
    · exact (Text.escapeFree_toString _).append (by decide)
  have tail : EscapeFree (if warnings = 0 then "" else "; " ++ warningCount warnings) := by
    split
    · decide
    · exact .append (by decide) count
  have aborting : EscapeFree ": aborting due to " := by decide
  intro row member piece inRow
  unfold summaryRows at member
  split at member
  · cases member
  · rw [List.mem_singleton.mp member] at inRow
    simp only [List.mem_cons, List.not_mem_nil, or_false] at inRow
    rcases inRow with rfl | rfl
    · decide
    · exact .append (by decide) count
  · rw [List.mem_singleton.mp member] at inRow
    simp only [List.mem_cons, List.not_mem_nil, or_false] at inRow
    rcases inRow with rfl | rfl
    · decide
    · exact (aborting.append number).append tail

/-- The rows of a request have no escape characters where its findings and the sources have none. -/
theorem escapeFree_rows {sources : SourceMap} {request : Request} {found : List Row}
    (free : ∀ diagnostic ∈ request.diagnostics, diagnostic.EscapeFree)
    (freeSources : sources.EscapeFree) (done : request.rows sources = .ok found) :
    ∀ row ∈ found, row.EscapeFree := by
  have one {diagnostic : Diagnostic} {own : List Row} (free : diagnostic.EscapeFree)
      (done : Request.rowsOf sources diagnostic = .ok own) : ∀ row ∈ own, row.EscapeFree := by
    obtain ⟨report, doneReport, rfl⟩ := map_eq_ok_iff.mp done
    intro row member
    rcases List.mem_append.mp member with inReport | last
    · exact Report.escapeFree_rows free freeSources doneReport row inReport
    · rw [List.mem_singleton.mp last]
      exact List.forall_mem_nil _
  have several {diagnostics : List Diagnostic} {owns : List (List Row)}
      (free : ∀ diagnostic ∈ diagnostics, diagnostic.EscapeFree)
      (done : diagnostics.mapM (Request.rowsOf sources) = .ok owns) :
      ∀ row ∈ owns.flatten, row.EscapeFree := by
    intro row member
    obtain ⟨own, inOwns, inOwn⟩ := List.mem_flatten.mp member
    obtain ⟨diagnostic, inDiagnostics, done⟩ := exists_of_mapM_eq_ok done own inOwns
    exact one (free diagnostic inDiagnostics) done row inOwn
  cases request with
  | emit diagnostic =>
      exact one (free diagnostic (List.mem_singleton_self diagnostic)) done
  | emitAll diagnostics =>
      obtain ⟨owns, doneAll, rfl⟩ := map_eq_ok_iff.mp done
      exact several free doneAll
  | emitLog log =>
      obtain ⟨owns, doneAll, rfl⟩ := map_eq_ok_iff.mp done
      intro row member
      rcases List.mem_append.mp member with inReports | inSummary
      · exact several free doneAll row inReports
      · exact escapeFree_summaryRows _ _ row inSummary
  | summary errors warnings =>
      cases done
      exact escapeFree_summaryRows errors warnings
  | flush =>
      cases done
      exact List.forall_mem_nil _

end Terminal

/-- Colors add escape sequences and nothing else. Where neither findings nor sources have escape
    characters, a colored report without its escape sequences is the plain report, which has no
    escape character; and the same holds of all that an output writes for any requests. -/
theorem colors_strip_to_plain (sources : SourceMap) (freeSources : sources.EscapeFree) :
    (∀ diagnostic : Diagnostic, diagnostic.EscapeFree →
      (Report.render true diagnostic sources).map Text.withoutEscapes =
          Report.render false diagnostic sources ∧
        ∀ text, Report.render false diagnostic sources = .ok text → EscapeFree text) ∧
    ∀ requests : List Terminal.Request,
      (∀ request ∈ requests, ∀ diagnostic ∈ request.diagnostics, diagnostic.EscapeFree) →
      (Terminal.writeAll { sources, colored := true } requests).map
            (fun texts => Text.withoutEscapes (Text.concat texts)) =
          (Terminal.writeAll { sources, colored := false } requests).map Text.concat ∧
        ∀ texts, Terminal.writeAll { sources, colored := false } requests = .ok texts →
          EscapeFree (Text.concat texts) := by
  constructor
  · intro diagnostic free
    simp only [Report.render_eq_rows]
    cases done : Report.rows diagnostic sources with
    | error fault => exact ⟨rfl, nofun⟩
    | ok rows =>
        have freeRows := Report.escapeFree_rows free freeSources done
        refine ⟨congrArg Except.ok (Row.writeAll_stripsTo freeRows).withoutEscapes_eq, ?_⟩
        rintro text ⟨⟩
        exact Row.escapeFree_writeAll freeRows
  · intro requests free
    have each (colored : Bool) : Terminal.writeAll { sources, colored } requests
        = (requests.mapM (Terminal.Request.rows sources)).map
            (List.map (Row.writeAll colored)) := by
      rw [← mapM_map]
      exact congrArg requests.mapM (funext fun request => Terminal.write_eq_rows _ request)
    rw [each, each]
    cases done : requests.mapM (Terminal.Request.rows sources) with
    | error fault => exact ⟨rfl, nofun⟩
    | ok outputs =>
        have freeRows : ∀ rows ∈ outputs, ∀ row ∈ rows, row.EscapeFree := by
          intro rows member
          obtain ⟨request, inRequests, done⟩ := exists_of_mapM_eq_ok done rows member
          exact Terminal.escapeFree_rows (free request inRequests) freeSources done
        have strips : ∀ rows ∈ outputs,
            StripsTo (Row.writeAll true rows) (Row.writeAll false rows) :=
          fun rows member => Row.writeAll_stripsTo (freeRows rows member)
        refine ⟨congrArg Except.ok (StripsTo.concat strips).withoutEscapes_eq, ?_⟩
        rintro texts ⟨⟩
        apply Text.EscapeFree.concat
        intro text member
        obtain ⟨rows, inOutputs, rfl⟩ := List.mem_map.mp member
        exact Row.escapeFree_writeAll (freeRows rows inOutputs)

/-- A file whose name and text look like the rest of an escape sequence. -/
def bracketFile : SourceFile where
  name := "[1m"
  text := "a\n[0;1m @"
  lineStarts := #[0, 2]
  lineStarts_eq := rfl
  size_le := by decide

/-- A finding in that file, with a label of either kind. -/
def bracketFinding : Diagnostic where
  severity := .error
  message := "[0m"
  code := some .unexpectedCharacter
  labels :=
    [(Label.primary ⟨0⟩ (.point 2)).withMessage "[1;31m", Label.secondary ⟨0⟩ (.point 0)]
  help := some "m"

theorem colors_strip_to_plain_brackets :
    SourceMap.EscapeFree { files := #[bracketFile] } ∧ bracketFinding.EscapeFree ∧
      (Report.render true bracketFinding { files := #[bracketFile] }).map Text.withoutEscapes =
          Report.render false bracketFinding { files := #[bracketFile] } ∧
      (Terminal.writeAll { sources := { files := #[bracketFile] }, colored := true }
            [.emit bracketFinding, .summary 1 2]).map
          (fun texts => Text.withoutEscapes (Text.concat texts)) =
        (Terminal.writeAll { sources := { files := #[bracketFile] }, colored := false }
            [.emit bracketFinding, .summary 1 2]).map Text.concat := by
  have freeSources : SourceMap.EscapeFree { files := #[bracketFile] } := by
    intro file member
    obtain rfl : file = bracketFile := by simpa using member
    decide
  have free : bracketFinding.EscapeFree := by
    constructor
    · decide
    · decide
    · decide
  have freeRequests : ∀ request ∈ [Terminal.Request.emit bracketFinding, .summary 1 2],
      ∀ diagnostic ∈ request.diagnostics, diagnostic.EscapeFree := by
    intro request member diagnostic found
    rcases List.mem_cons.mp member with rfl | member
    · rw [List.mem_singleton.mp found]
      exact free
    · rw [List.mem_singleton.mp member] at found
      cases found
  obtain ⟨reports, outputs⟩ := colors_strip_to_plain { files := #[bracketFile] } freeSources
  exact ⟨freeSources, free, (reports bracketFinding free).1, (outputs _ freeRequests).1⟩

end FrontEnd
