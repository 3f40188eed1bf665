/-
Module: FrontEnd.Proofs.SnippetCuts
Layer: Proofs
Purpose: Snippets of arbitrary labels. Wherever a label lies, also past the end of its file, inside
  of a character, on a terminator or across lines, the line on which it starts is found, both of
  its ends come down to boundaries of this line, and the report is written.
Imports: FrontEnd.Report.Basic, FrontEnd.Proofs.CharacterBoundaries, FrontEnd.Proofs.OffsetPlaces,
  Mathlib.Data.List.Forall2
Trusted boundary: none
Main exports: Label.startIn, Label.stopIn, Snippet.CutAt, Snippet.exists_cutAt_of_place,
  Snippet.exists_cutAt, SourceMap.Short, Snippet.Resolved, Report.exists_snippets,
  every_report_renders
Open obligations: none
-/
import FrontEnd.Report.Basic
import FrontEnd.Proofs.CharacterBoundaries
import FrontEnd.Proofs.OffsetPlaces
import Mathlib.Data.List.Forall2

namespace FrontEnd

open Text (utf8Size newlineByte)

/-! ### The cuts of a snippet -/

/-- The offset at which a label starts, brought back into a file. -/
def Label.startIn (label : Label) (file : SourceFile) : Nat :=
  min label.span.start file.size

/-- The offset at which a label stops, brought back into a file. -/
def Label.stopIn (label : Label) (file : SourceFile) : Nat :=
  min label.span.stop file.size

theorem Label.startIn_le_stopIn (label : Label) (file : SourceFile) :
    label.startIn file ≤ label.stopIn file := by
  have order := label.span.start_le_stop
  unfold startIn stopIn
  omega

/-- How a snippet is cut out of the file of its label. The label starts on the line that begins at
    `beginning`; its ends, brought back into this line, are at `start` and `stop` there. -/
structure Snippet.CutAt (snippet : Snippet) (label : Label) (file : SourceFile)
    (beginning start stop : Nat) : Prop where
  ofLabel : snippet.label = label
  ofFile : snippet.fileName = file.name
  /-- The start of the label is an offset of the file and has a place. -/
  inFile : label.startIn file ≤ file.size
  place : file.lineColumn (label.startIn file) = .ok snippet.place
  lineStart : file.lineStart? snippet.place.line = some beginning
  lineText : file.lineText? snippet.place.line = some snippet.line
  /-- Neither end of the label is before the line. -/
  startBehind : beginning ≤ label.startIn file
  stopBehind : beginning ≤ label.stopIn file
  /-- Stepping back from each end, brought back into the line, comes to a boundary. -/
  startReached : Text.stepBack snippet.line
    (min (label.startIn file - beginning) (utf8Size snippet.line)) = .ok start
  stopReached : ∃ reached, Text.stepBack snippet.line
    (min (label.stopIn file - beginning) (utf8Size snippet.line)) = .ok reached ∧
    stop = max reached start
  /-- Both slices end at boundaries of the line, which are in order. -/
  boundaries : Text.isBoundary snippet.line start = true ∧ Text.isBoundary snippet.line stop = true
  order : start ≤ stop ∧ stop ≤ utf8Size snippet.line
  before : Text.slice? snippet.line 0 start = some snippet.before
  marked : Text.slice? snippet.line start stop = some snippet.marked

/-- A slice that exists is found. -/
theorem Snippet.slice_eq {text part : List Char} {start stop : Nat}
    (found : Text.slice? text start stop = some part) : slice text start stop = .ok part := by
  rw [slice, found]

/-- The snippet of a label, when its place, its line and both slices of the line are known. -/
theorem Snippet.ofFile_of_slices {label : Label} {file : SourceFile} {place : LineColumn}
    {line before marked : List Char} {beginning start reached : Nat}
    (place_eq : file.lineColumn (label.startIn file) = .ok place)
    (lineText : file.lineText? place.line = some line)
    (lineStart : file.lineStart? place.line = some beginning)
    (startBehind : beginning ≤ label.startIn file) (stopBehind : beginning ≤ label.stopIn file)
    (floorStart : Text.floorBoundary line (label.startIn file - beginning) = .ok start)
    (floorStop : Text.floorBoundary line (label.stopIn file - beginning) = .ok reached)
    (sliceBefore : Text.slice? line 0 start = some before)
    (sliceMarked : Text.slice? line start (max reached start) = some marked) :
    ofFile label file = .ok { label, fileName := file.name, place, line, before, marked } := by
  have startDistance : Offset.sub (label.startIn file) beginning
      = .ok (label.startIn file - beginning) :=
    Offset.sub_eq_ok_iff.mpr ⟨startBehind, rfl⟩
  have stopDistance : Offset.sub (label.stopIn file) beginning
      = .ok (label.stopIn file - beginning) :=
    Offset.sub_eq_ok_iff.mpr ⟨stopBehind, rfl⟩
  have sliceStart := slice_eq sliceBefore
  have sliceStop := slice_eq sliceMarked
  rw [Label.startIn] at place_eq startDistance floorStart
  rw [Label.stopIn] at stopDistance floorStop
  simp only [ofFile, place_eq, lineText, lineStart, Option.getD_some, startDistance, stopDistance,
    floorStart, floorStop, sliceStart, sliceStop, bind, Except.bind, pure, Except.pure]

/-- A label has a snippet if its start, brought back into the file, has a place. -/
theorem Snippet.exists_cutAt_of_place {file : SourceFile} {label : Label} {column : Nat}
    (place : file.lineColumn (label.startIn file) =
      .ok { line := 1 + (file.bytes.take (label.startIn file)).count newlineByte, column }) :
    ∃ snippet beginning start stop, ofFile label file = .ok snippet ∧
      snippet.CutAt label file beginning start stop := by
  have inFile : label.startIn file ≤ file.size := Nat.min_le_right _ _
  have startBehind := SourceFile.lineStartBefore_le file.bytes (label.startIn file)
  have numbered := SourceFile.count_lt_of_lineColumn inFile place
  have lineStart := SourceFile.lineStart?_of_bytes inFile numbered
  obtain ⟨line, lineText⟩ := SourceFile.exists_lineText? lineStart
  generalize lineStartBefore file.bytes (label.startIn file) = beginning at *
  -- The label starts on this line, so its end is not before the line either.
  have stopBehind := Nat.le_trans startBehind (label.startIn_le_stopIn file)
  obtain ⟨start, startReached, floorStart⟩ :=
    Text.exists_floorBoundary line (label.startIn file - beginning)
  obtain ⟨reached, stopReached, floorStop⟩ :=
    Text.exists_floorBoundary line (label.stopIn file - beginning)
  have stopBoundary := Text.isBoundary_max floorStop.reached floorStart.reached
  have order := Nat.le_max_right reached start
  obtain ⟨before, sliceBefore⟩ :=
    Text.exists_slice? (Text.isBoundary_zero line) floorStart.reached (Nat.zero_le _)
  obtain ⟨marked, sliceMarked⟩ := Text.exists_slice? floorStart.reached stopBoundary order
  exact ⟨_, beginning, _, _,
    ofFile_of_slices place lineText lineStart startBehind stopBehind startReached stopReached
      sliceBefore sliceMarked,
    { ofLabel := rfl
      ofFile := rfl
      inFile
      place
      lineStart
      lineText
      startBehind
      stopBehind
      startReached
      stopReached := ⟨reached, stopReached, rfl⟩
      boundaries := ⟨floorStart.reached, stopBoundary⟩
      order := ⟨order, Text.le_utf8Size_of_isBoundary stopBoundary⟩
      before := sliceBefore
      marked := sliceMarked }⟩

/-- Any label has a snippet in any file whose end has an offset before the limit. -/
theorem Snippet.exists_cutAt {file : SourceFile} (label : Label)
    (short : file.size < Offset.limit) :
    ∃ snippet beginning start stop, ofFile label file = .ok snippet ∧
      snippet.CutAt label file beginning start stop :=
  exists_cutAt_of_place (SourceFile.lineColumn_eq_of_bytes (Nat.min_le_right _ _) short).2

/-! ### Reports -/

/-- The ends of all files have offsets before the limit. -/
def SourceMap.Short (sources : SourceMap) : Prop :=
  ∀ file ∈ sources.files, file.size < Offset.limit

/-- Whether the file of a label is registered. -/
def SourceMap.knows (sources : SourceMap) (label : Label) : Bool :=
  (sources.get? label.file).isSome

/-- The snippets of some labels, one by one. -/
def Snippet.Resolved (sources : SourceMap) (labels : List Label) (shown : List Snippet) : Prop :=
  List.Forall₂ (fun label snippet => resolve sources label = .ok (some snippet)) labels shown

section Sources

variable {sources : SourceMap} {label : Label}

/-- A label in an unknown file has no snippet. -/
theorem Snippet.resolve_of_unknown (unknown : sources.get? label.file = none) :
    resolve sources label = .ok none := by
  rw [resolve, unknown]

/-- A label in a registered file has a snippet. -/
theorem Snippet.exists_resolve {file : SourceFile} (short : sources.Short)
    (known : sources.get? label.file = some file) :
    ∃ snippet beginning start stop, resolve sources label = .ok (some snippet) ∧
      snippet.CutAt label file beginning start stop := by
  have shortFile := short file (Array.mem_of_getElem? known)
  obtain ⟨snippet, beginning, start, stop, found, cut⟩ := exists_cutAt label shortFile
  refine ⟨snippet, beginning, start, stop, ?_, cut⟩
  simp only [resolve, known, found, Except.map]

/-- A resolved label has a file, and its snippet is cut out of this file. -/
theorem Snippet.cutAt_of_resolve {snippet : Snippet} (short : sources.Short)
    (resolved : resolve sources label = .ok (some snippet)) :
    ∃ file beginning start stop, sources.get? label.file = some file ∧
      file.size < Offset.limit ∧ snippet.CutAt label file beginning start stop := by
  cases known : sources.get? label.file with
  | none =>
      rw [resolve_of_unknown known] at resolved
      cases resolved
  | some file =>
      obtain ⟨other, beginning, start, stop, found, cut⟩ := exists_resolve short known
      rw [resolved] at found
      cases found
      exact ⟨file, beginning, start, stop, rfl, short file (Array.mem_of_getElem? known), cut⟩

/-- Resolving labels gives the snippets of those whose files are known, in the order of the
    labels. -/
theorem Snippet.exists_mapM_resolve (short : sources.Short) (labels : List Label) :
    ∃ options, labels.mapM (resolve sources) = .ok options ∧
      Resolved sources (labels.filter sources.knows) (options.filterMap id) := by
  induction labels with
  | nil =>
      exact ⟨[], rfl, .nil⟩
  | cons label labels ih =>
      obtain ⟨options, later, pairs⟩ := ih
      cases known : sources.get? label.file with
      | none =>
          have here := resolve_of_unknown known
          refine ⟨none :: options, ?_, ?_⟩
          · simp only [List.mapM_cons, here, later, bind, Except.bind, pure, Except.pure]
          · rw [List.filter_cons_of_neg (by simp [SourceMap.knows, known])]
            exact pairs
      | some file =>
          obtain ⟨snippet, -, -, -, here, -⟩ := exists_resolve short known
          refine ⟨some snippet :: options, ?_, ?_⟩
          · simp only [List.mapM_cons, here, later, bind, Except.bind, pure, Except.pure]
          · rw [List.filter_cons_of_pos (by simp [SourceMap.knows, known])]
            exact .cons here pairs

/-- A finding has the snippets of its labels in known files. -/
theorem Report.exists_snippets (diagnostic : Diagnostic) (short : sources.Short) :
    ∃ shown, snippets diagnostic sources = .ok shown ∧
      Snippet.Resolved sources (diagnostic.labels.filter sources.knows) shown := by
  obtain ⟨options, resolved, pairs⟩ := Snippet.exists_mapM_resolve short diagnostic.labels
  refine ⟨options.filterMap id, ?_, pairs⟩
  simp only [snippets, resolved, bind, Except.bind, pure, Except.pure]

end Sources

/-- Every report is written, with colors and without, whatever the labels of the finding are. A
    label in an unknown file is left out, and any other one has a snippet of the line on which it
    starts. -/
theorem every_report_renders (diagnostic : Diagnostic) (sources : SourceMap)
    (short : sources.Short) :
    (∀ colored, ∃ text, Report.render colored diagnostic sources = .ok text) ∧
      ∀ label ∈ diagnostic.labels,
        (sources.get? label.file = none → Snippet.resolve sources label = .ok none) ∧
        ∀ file, sources.get? label.file = some file → ∃ snippet beginning start stop,
          Snippet.resolve sources label = .ok (some snippet) ∧
          snippet.CutAt label file beginning start stop := by
  constructor
  · intro colored
    obtain ⟨shown, found, -⟩ := Report.exists_snippets diagnostic short
    refine ⟨Text.concat ((Report.layout diagnostic shown).map (Row.write colored)), ?_⟩
    simp only [Report.render, Report.rows, found, bind, Except.bind, pure, Except.pure]
  · intro label _
    exact ⟨Snippet.resolve_of_unknown, fun _ known => Snippet.exists_resolve short known⟩

/-- A file with a line that ends with a carriage return and a newline, and a character of three
    bytes on the next line. -/
def mixedLinesFile : SourceFile where
  name := "a"
  text := "a\r\nb€c\n"
  lineStarts := #[0, 3, 9]
  lineStarts_eq := rfl
  size_le := by decide

/-- A finding with labels past the end of that file, from inside its longest character to inside of
    it, on its carriage return, across all of its lines, and in a file that is not there. -/
def scatteredFinding : Diagnostic where
  severity := .warning
  message := "m"
  labels :=
    [.primary ⟨0⟩ ⟨100, 200, by decide⟩, .secondary ⟨0⟩ ⟨5, 6, by decide⟩,
      .secondary ⟨0⟩ ⟨1, 2, by decide⟩, .primary ⟨0⟩ ⟨0, 9, by decide⟩,
      .primary ⟨7⟩ ⟨0, 1, by decide⟩]

theorem every_report_renders_scattered :
    SourceMap.Short { files := #[mixedLinesFile] } ∧
      (∀ colored, ∃ text,
        Report.render colored scatteredFinding { files := #[mixedLinesFile] } = .ok text) ∧
      ∀ label ∈ scatteredFinding.labels,
        (({ files := #[mixedLinesFile] } : SourceMap).get? label.file = none →
          Snippet.resolve { files := #[mixedLinesFile] } label = .ok none) ∧
        ∀ file, ({ files := #[mixedLinesFile] } : SourceMap).get? label.file = some file →
          ∃ snippet beginning start stop,
            Snippet.resolve { files := #[mixedLinesFile] } label = .ok (some snippet) ∧
            snippet.CutAt label file beginning start stop := by
  have short : SourceMap.Short { files := #[mixedLinesFile] } := by
    intro file member
    obtain rfl : file = mixedLinesFile := by simpa using member
    decide
  exact ⟨short, every_report_renders scatteredFinding { files := #[mixedLinesFile] } short⟩

end FrontEnd
