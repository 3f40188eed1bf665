/-
Module: FrontEnd.Diagnostic.Log
Layer: Diagnostic
Purpose: The log of a session's findings. It keeps what is reported in the order of the reports and
  never drops, merges or changes an entry.
Imports: FrontEnd.Diagnostic.Basic
Trusted boundary: none
Main exports: Log, Log.emit, Log.countOf, Log.hasError, Log.hasErrors
Open obligations: none
-/
import FrontEnd.Diagnostic.Basic

namespace FrontEnd

/-- Findings in the order in which they were reported. -/
structure Log where
  entries : Array Diagnostic := #[]
deriving DecidableEq, Repr, Inhabited

namespace Log

/-- The log before the first report. -/
def empty : Log := {}

/-- The log with one more finding. -/
def emit (log : Log) (diagnostic : Diagnostic) : Log :=
  { log with entries := log.entries.push diagnostic }

/-- The findings in the order of their reports. -/
def toList (log : Log) : List Diagnostic :=
  log.entries.toList

@[simp] theorem toList_empty : empty.toList = [] := rfl

@[simp] theorem toList_emit (log : Log) (diagnostic : Diagnostic) :
    (log.emit diagnostic).toList = log.toList ++ [diagnostic] := by
  simp [emit, toList]

/-- The number of findings. -/
def size (log : Log) : Nat :=
  log.entries.size

/-- Whether nothing was reported. -/
def isEmpty (log : Log) : Bool :=
  log.entries.isEmpty

/-- The finding that was reported at a place of the order, counted from zero. -/
def get? (log : Log) (index : Nat) : Option Diagnostic :=
  log.entries[index]?

/-- How many findings have a severity. -/
def countOf (log : Log) (severity : Severity) : Nat :=
  log.toList.countP (·.severity == severity)

/-- Whether anything was reported, however harmless. -/
def hasError (log : Log) : Bool :=
  !log.isEmpty

/-- Whether an error was reported. -/
def hasErrors (log : Log) : Bool :=
  log.toList.any Diagnostic.isError

/-- What the findings say, in their order. -/
def messages (log : Log) : List String :=
  log.toList.map Diagnostic.message

end Log

end FrontEnd
