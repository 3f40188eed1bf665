/-
Module: FrontEnd.Report.Snippet
Layer: Report
Purpose: What a report shows for a label: the line on which the label starts, and the part of that
  line that is marked. A label may lie anywhere; whatever of it is outside its line is cut off.
Imports: FrontEnd.Source.Map, FrontEnd.Diagnostic.Basic, FrontEnd.Text.Boundary
Trusted boundary: none
Main exports: Snippet, Snippet.resolve, Snippet.padding, Snippet.width
Open obligations: none
-/
import FrontEnd.Source.Map
import FrontEnd.Diagnostic.Basic
import FrontEnd.Text.Boundary

namespace FrontEnd

/-- A label with the line that it starts on. `before` is the part of the line up to the label and
    `marked` the part under it. -/
structure Snippet where
  label : Label
  fileName : String
  place : LineColumn
  line : List Char
  before : List Char
  marked : List Char
deriving DecidableEq, Repr

namespace Snippet

/-- A slice that has to exist. That it does not would be a fault of this module. -/
def slice (text : List Char) (start stop : Nat) : Except Fault (List Char) :=
  match Text.slice? text start stop with
  | some part => .ok part
  | none => .error (.notASlice start stop)

/-- The snippet for a label in a file. Both ends of the label are brought back into the file, then
    into the line, and then to the character boundary below. -/
def ofFile (label : Label) (file : SourceFile) : Except Fault Snippet := do
  let start := min label.span.start file.size
  let stop := min label.span.stop file.size
  let place ← file.lineColumn start
  let line := (file.lineText? place.line).getD []
  let lineStart := (file.lineStart? place.line).getD 0
  let startInLine ← Text.floorBoundary line (← Offset.sub start lineStart)
  let stopInLine := max (← Text.floorBoundary line (← Offset.sub stop lineStart)) startInLine
  let before ← slice line 0 startInLine
  let marked ← slice line startInLine stopInLine
  return { label, fileName := file.name, place, line, before, marked }

/-- The snippet for a label, if its file is registered. -/
def resolve (sources : SourceMap) (label : Label) : Except Fault (Option Snippet) :=
  match sources.get? label.file with
  | none => .ok none
  | some file => (ofFile label file).map some

/-- The blank that brings a mark under its label. Tabs stay tabs, so that a terminal gives them the
    same width as in the line above. -/
def padding (snippet : Snippet) : String :=
  String.ofList (snippet.before.map fun c => if c = '\t' then '\t' else ' ')

/-- The width of the mark in characters. Even an empty label gets one, so as to be seen. -/
def width (snippet : Snippet) : Nat :=
  max snippet.marked.length 1

end Snippet

end FrontEnd
