/-
Module: FrontEnd.Text.Boundary
Layer: Text
Purpose: Character boundaries of a text, and the loop that steps back to one, a byte at a time.
Imports: FrontEnd.Fault, FrontEnd.Text.Basic
Trusted boundary: none
Main exports: Text.isBoundary, Text.stepBack, Text.floorBoundary
Open obligations: none
-/
import FrontEnd.Fault
import FrontEnd.Text.Basic

namespace FrontEnd

namespace Text

/-- Whether a byte position is a character boundary: a character starts there, or the text ends. -/
def isBoundary (text : List Char) (position : Nat) : Bool :=
  (cut? text position).isSome

/-- The first character boundary that is met on the way back from a byte position. A step back from
    the front of the text is a fault. -/
def stepBack (text : List Char) : Nat → Except Fault Nat
  | 0 => if isBoundary text 0 then .ok 0 else .error .subtractionOverflow
  | position + 1 =>
      if isBoundary text (position + 1) then .ok (position + 1) else stepBack text position

/-- The character boundary to which a byte position comes down. A position past the end of the text
    comes down to the end first. -/
def floorBoundary (text : List Char) (position : Nat) : Except Fault Nat :=
  stepBack text (min position (utf8Size text))

end Text

end FrontEnd
