/-
Module: FrontEnd.Dump.Outline
Layer: Dump
Purpose: Outlines: headers with what belongs to them below. A syntax tree is dumped by way of its
  outline, and the outline alone says how deep each line stands.
Imports: none
Trusted boundary: none
Main exports: Outline, Outline.lines, Outline.listLines
Open obligations: none
-/

namespace FrontEnd

/-- A header and the outlines below it. -/
inductive Outline where
  | node (header : String) (children : List Outline)
deriving Repr, Inhabited

namespace Outline

/-- A header with nothing below. -/
def leaf (header : String) : Outline :=
  .node header []

mutual

/-- The lines of an outline from top to bottom, each with its depth. What is below a header stands
    one level deeper. -/
def lines (depth : Nat) : Outline → List (Nat × String)
  | .node header children => (depth, header) :: listLines (depth + 1) children

/-- The lines of several outlines at one depth. -/
def listLines (depth : Nat) : List Outline → List (Nat × String)
  | [] => []
  | outline :: outlines => lines depth outline ++ listLines depth outlines

end

end Outline

end FrontEnd
