/-
Module: FrontEnd.Dump.Node
Layer: Dump
Purpose: The nodes of syntax trees that are printed by themselves, and series of prints with one
  printer. A print that the sink cuts short does not keep those behind it from being made.
Imports: FrontEnd.Dump.Ast, FrontEnd.Dump.Printer
Trusted boundary: none
Main exports: Node, Node.outline, Printer.print, Printer.printAll, Node.textAt
Open obligations: none
-/
import FrontEnd.Dump.Ast
import FrontEnd.Dump.Printer

namespace FrontEnd

/-- A node that can be printed. Types and parameters only occur inside of lines. -/
inductive Node where
  | module (tree : Module)
  | function (tree : FunctionDecl)
  | expr (tree : Expr)
  | block (tree : Block)
  | stmt (tree : Stmt)

namespace Node

/-- The outline of a node. -/
def outline : Node → Outline
  | .module tree => tree.outline
  | .function tree => tree.outline
  | .expr tree => tree.outline
  | .block tree => tree.outline
  | .stmt tree => tree.outline

end Node

namespace Printer

/-- Print a node into the sink of a printer, which accepts a number of characters meanwhile, or any
    number. -/
def print (printer : Printer) (node : Node) (room : Option Nat) :
    EStateM.Result SinkFull Printer Unit :=
  node.outline.print (printer.withRoom room)

/-- The printer that is left when a print ends, whether in full or not. -/
def ofResult : EStateM.Result SinkFull Printer Unit → Printer
  | .ok _ printer | .error _ printer => printer

/-- Print several nodes one after the other, each with room of its own. -/
def printAll (printer : Printer) : List (Node × Option Nat) → Printer
  | [] => printer
  | (node, room) :: requests => (ofResult (printer.print node room)).printAll requests

end Printer

/-- What an unlimited sink receives when a node is printed at a depth. -/
def Node.textAt (node : Node) (depth : Nat) : String :=
  (Printer.ofResult (({ depth } : Printer).print node none)).sink.text

end FrontEnd
