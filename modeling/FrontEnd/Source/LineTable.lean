/-
Module: FrontEnd.Source.LineTable
Layer: Source
Purpose: Where the lines of a text start, and the search for the line that holds an offset.
Imports: FrontEnd.Text.Basic
Trusted boundary: none
Main exports: LineTable.startsAfter, LineTable.starts, LineTable.Hit, LineTable.search,
  LineTable.indexAt
Open obligations: none
-/
import FrontEnd.Text.Basic

namespace FrontEnd

namespace LineTable

/-- The line starts that the newlines of a text open, when the text itself begins at `offset`. -/
def startsAfter (offset : Nat) : List Char → List Nat
  | [] => []
  | c :: text =>
      if c = '\n' then (offset + 1) :: startsAfter (offset + 1) text
      else startsAfter (offset + c.utf8Size) text

/-- All line starts of a text: the first line starts at zero, every other behind a newline. -/
def starts (text : List Char) : Array Nat :=
  (0 :: startsAfter 0 text).toArray

/-- What a search in a sorted table comes to: an entry, or the place at which one would have to be
    inserted. -/
inductive Hit where
  | found (index : Nat)
  | missing (index : Nat)
deriving DecidableEq, Repr

/-- Search a sorted table for an offset between `low` and `high`. Each step halves the distance of
    the two. -/
def search (table : Array Nat) (offset low high : Nat) : Hit :=
  if low < high then
    let middle := (low + high) / 2
    let entry := table[middle]?.getD 0
    if entry < offset then search table offset (middle + 1) high
    else if offset < entry then search table offset low middle
    else .found middle
  else .missing low
termination_by high - low

/-- The index of the line of an offset. An offset that starts no line is on the line before the
    place of its own entry. -/
def indexAt (table : Array Nat) (offset : Nat) : Nat :=
  match search table offset 0 table.size with
  | .found index => index
  | .missing index => index - 1

end LineTable

end FrontEnd
