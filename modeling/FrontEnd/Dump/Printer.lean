/-
Module: FrontEnd.Dump.Printer
Layer: Dump
Purpose: Printing outlines into a sink that may run full. The printer keeps its depth as state,
  raises it for what is below a header, and brings it back even when the sink refuses a character in
  between.
Imports: FrontEnd.Dump.Outline
Trusted boundary: none
Main exports: Sink, Printer, Print, Outline.print, Outline.text
Open obligations: none
-/
import FrontEnd.Dump.Outline

namespace FrontEnd

/-- The text received so far, and how many more characters are accepted; no number means no limit.
    -/
structure Sink where
  text : String := ""
  room : Option Nat := none
deriving DecidableEq, Repr, Inhabited

/-- The answer of a sink that accepts no more characters. -/
inductive SinkFull where
  | full
deriving DecidableEq, Repr, Inhabited

namespace Sink

/-- Send characters to a sink. It takes as many as it has room for, and says whether it took all. -/
def write (sink : Sink) (text : List Char) : EStateM.Result SinkFull Sink Unit :=
  match sink.room with
  | none => .ok () { sink with text := sink.text ++ String.ofList text }
  | some room =>
      let after : Sink :=
        { text := sink.text ++ String.ofList (text.take room), room := some (room - text.length) }
      if text.length ≤ room then .ok () after else .error .full after

end Sink

/-- A sink and the depth at which the next line will stand. -/
structure Printer where
  sink : Sink := {}
  depth : Nat := 0
deriving DecidableEq, Repr, Inhabited

/-- Printing changes a printer, and stops when the sink is full. -/
abbrev Print := EStateM SinkFull Printer

namespace Print

/-- Send characters to the sink of the printer. -/
def write (text : List Char) : Print Unit := fun printer =>
  match printer.sink.write text with
  | .ok _ sink => .ok () { printer with sink }
  | .error refusal sink => .error refusal { printer with sink }

/-- Indent by two blanks for each level. -/
def indent : Nat → Print Unit
  | 0 => pure ()
  | levels + 1 => do
      write [' ', ' ']
      indent levels

/-- Print a line at the depth of the printer. -/
def line (text : String) : Print Unit := do
  indent (← get).depth
  write text.toList
  write ['\n']

/-- Print one level deeper, and come back afterwards in any case. -/
def nested (body : Print Unit) : Print Unit := fun printer =>
  match body { printer with depth := printer.depth + 1 } with
  | .ok _ printer => .ok () { printer with depth := printer.depth - 1 }
  | .error refusal printer => .error refusal { printer with depth := printer.depth - 1 }

end Print

namespace Printer

/-- The printer with room for a number of further characters in its sink, or for any number. -/
def withRoom (printer : Printer) (room : Option Nat) : Printer :=
  { printer with sink := { printer.sink with room } }

end Printer

namespace Outline

mutual

/-- Print an outline: its header, and what is below it one level deeper. -/
def print : Outline → Print Unit
  | .node header children => do
      Print.line header
      Print.nested (printList children)

/-- Print outlines in order. -/
def printList : List Outline → Print Unit
  | [] => pure ()
  | outline :: outlines => do
      print outline
      printList outlines

end

/-- The text of an outline, printed into a sink without limit. -/
def text (outline : Outline) : String :=
  match outline.print {} with
  | .ok _ printer => printer.sink.text
  | .error _ printer => printer.sink.text

end Outline

end FrontEnd
