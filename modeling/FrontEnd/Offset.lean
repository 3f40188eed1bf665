/-
Module: FrontEnd.Offset
Layer: Source
Purpose: The width of source positions. Byte offsets, line numbers and columns are held in 32 bits,
  so there is a largest one, and every text the front end works on has to fit below it.
Imports: none
Trusted boundary: none
Main exports: Offset.limit
Open obligations: none
-/

namespace FrontEnd

/-- The largest byte offset, line number or column. -/
def Offset.limit : Nat := 4294967295

end FrontEnd
