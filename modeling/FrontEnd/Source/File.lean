/-
Module: FrontEnd.Source.File
Layer: Source
Purpose: Source files. A file is a name, a text that fits the offsets, and the table of its line
  starts; from these follow lines, columns and the text of a single line.
Imports: FrontEnd.Offset.Arithmetic, FrontEnd.Source.LineTable
Trusted boundary: none
Main exports: LineColumn, SourceFile, SourceFile.ofText, SourceFile.lineColumn,
  SourceFile.lineStart?, SourceFile.lineText?
Open obligations: none
-/
import FrontEnd.Offset.Arithmetic
import FrontEnd.Source.LineTable

namespace FrontEnd

/-- A place for readers: line and column, both counted from one, the column in bytes. -/
structure LineColumn where
  line : Nat
  column : Nat
deriving DecidableEq, Repr, Inhabited

namespace LineColumn

/-- Places are ordered by line, and within a line by column. -/
instance : Ord LineColumn where
  compare left right := (compare left.line right.line).then (compare left.column right.column)

/-- The written form of a place, such as `3:14`. -/
def text (place : LineColumn) : String :=
  toString place.line ++ ":" ++ toString place.column

end LineColumn

/-- A registered text with its name and line starts. -/
structure SourceFile where
  name : String
  text : String
  lineStarts : Array Nat
  lineStarts_eq : lineStarts = LineTable.starts text.toList
  size_le : text.utf8ByteSize ≤ Offset.limit

namespace SourceFile

/-- The file of a text, unless the end of the text has no offset. -/
def ofText (name text : String) : Except SourceError SourceFile :=
  if fits : text.utf8ByteSize ≤ Offset.limit then
    .ok
      { name, text, lineStarts := LineTable.starts text.toList, lineStarts_eq := rfl,
        size_le := fits }
  else .error (.tooLarge name text.utf8ByteSize)

/-- The number of bytes in the file. -/
def size (file : SourceFile) : Nat :=
  file.text.utf8ByteSize

/-- Whether the file holds no byte. -/
def isEmpty (file : SourceFile) : Bool :=
  file.size == 0

/-- The number of lines. There is always one, and a newline at the end opens an empty last line. -/
def lineCount (file : SourceFile) : Nat :=
  file.lineStarts.size

/-- The offset at which a line starts. Lines are counted from one, and their numbers, like offsets,
    go up to the limit. -/
def lineStart? (file : SourceFile) : Nat → Option Nat
  | 0 => none
  | index + 1 => if index + 1 ≤ Offset.limit then file.lineStarts[index]? else none

/-- The place of an offset. The end of the file is a place on the last line; past it there is none,
    and asking for one is a fault. -/
def lineColumn (file : SourceFile) (offset : Nat) : Except Fault LineColumn := do
  if file.size < offset then
    throw (.offsetPastEnd offset file.name file.size)
  let index := LineTable.indexAt file.lineStarts offset
  let line ← Offset.add index 1
  let distance ← Offset.sub offset (file.lineStarts[index]?.getD 0)
  let column ← Offset.add distance 1
  return { line, column }

/-- A line without one carriage return at its end. -/
def stripReturn (line : List Char) : List Char :=
  if line.getLast? = some '\r' then line.dropLast else line

/-- The text of a line, counted from one: up to its newline or the end of the file, and without a
    carriage return that ends it. -/
def lineText? (file : SourceFile) (line : Nat) : Option (List Char) := do
  let start ← file.lineStart? line
  let (_, rest) ← Text.cut? file.text.toList start
  return stripReturn (rest.takeWhile (· ≠ '\n'))

end SourceFile

end FrontEnd
