/-
Module: FrontEnd.Source.FileId
Layer: Source
Purpose: Handles for registered files.
Imports: none
Trusted boundary: none
Main exports: FileId, FileId.text
Open obligations: none
-/

namespace FrontEnd

/-- The handle of a registered file: its place in the order of registration, counted from zero. -/
structure FileId where
  index : Nat
deriving DecidableEq, Repr, Inhabited

namespace FileId

instance : Ord FileId where
  compare left right := compare left.index right.index

/-- The written form of a handle, such as `FileId(3)`. -/
def text (id : FileId) : String :=
  "FileId(" ++ toString id.index ++ ")"

end FileId

end FrontEnd
