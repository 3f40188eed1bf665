/-
Module: FrontEnd.Source.Map
Layer: Source
Purpose: The files of a session. Handles are given out in the order of registration and are never
  used again.
Imports: FrontEnd.Source.File
Trusted boundary: none
Main exports: SourceMap, SourceMap.addFile, SourceMap.tryAddFile, SourceMap.get?,
  SourceMap.lineColumn, SourceMap.tryLineColumn
Open obligations: none
-/
import FrontEnd.Source.File

namespace FrontEnd

/-- The registered files, each at the index of its handle. -/
structure SourceMap where
  files : Array SourceFile := #[]
deriving Inhabited

namespace SourceMap

/-- No files. -/
def empty : SourceMap := {}

/-- The number of registered files. -/
def size (sources : SourceMap) : Nat :=
  sources.files.size

/-- Whether no file is registered. -/
def isEmpty (sources : SourceMap) : Bool :=
  sources.files.isEmpty

/-- The file of a handle, if the handle was given out. -/
def get? (sources : SourceMap) (id : FileId) : Option SourceFile :=
  sources.files[id.index]?

/-- Register a text, reporting one that is too large. Running out of handles is a fault. -/
def tryAddFile (sources : SourceMap) (name text : String) :
    Except Fault (Except SourceError (FileId × SourceMap)) :=
  match SourceFile.ofText name text with
  | .error reason => .ok (.error reason)
  | .ok file =>
      if sources.size ≤ Offset.limit then
        .ok (.ok (⟨sources.size⟩, { sources with files := sources.files.push file }))
      else .error .tooManyFiles

/-- Register a text that the caller knows to fit. -/
def addFile (sources : SourceMap) (name text : String) : Except Fault (FileId × SourceMap) := do
  match ← sources.tryAddFile name text with
  | .ok registered => return registered
  | .error reason => throw (.sourceRejected reason)

/-- The place of an offset in a file that may be unknown. -/
def tryLineColumn (sources : SourceMap) (id : FileId) (offset : Nat) :
    Except Fault (Option LineColumn) :=
  match sources.get? id with
  | none => .ok none
  | some file => (file.lineColumn offset).map some

/-- The place of an offset in a file that the caller knows to be registered. -/
def lineColumn (sources : SourceMap) (id : FileId) (offset : Nat) : Except Fault LineColumn := do
  match ← sources.tryLineColumn id offset with
  | some place => return place
  | none => throw (.unknownFile id sources.size)

/-- The files with their handles, in the order of registration. -/
def toList (sources : SourceMap) : List (FileId × SourceFile) :=
  sources.files.toList.zipIdx.map fun (file, index) => (⟨index⟩, file)

end SourceMap

end FrontEnd
