/-
Module: FrontEnd.Report.Terminal
Layer: Report
Purpose: What a terminal is sent: reports one below the other, and a summary of their number.
Imports: FrontEnd.Report.Basic, FrontEnd.Diagnostic.Log
Trusted boundary: none
Main exports: ColorMode, Terminal, Terminal.Request, Terminal.write, Terminal.writeAll
Open obligations: none
-/
import FrontEnd.Report.Basic
import FrontEnd.Diagnostic.Log

namespace FrontEnd

/-- When output is colored. -/
inductive ColorMode where
  | auto
  | always
  | never
deriving DecidableEq, Repr, Inhabited

namespace ColorMode

/-- Whether output is colored, given whether it goes to a terminal. Only `auto` asks for that. -/
def colored (mode : ColorMode) (isTerminal : Bool) : Bool :=
  match mode with
  | .auto => isTerminal
  | .always => true
  | .never => false

end ColorMode

/-- An output with its sources, colored or not. -/
structure Terminal where
  sources : SourceMap
  colored : Bool

namespace Terminal

/-- What an output can be asked to write. -/
inductive Request where
  | emit (diagnostic : Diagnostic)
  | emitAll (diagnostics : List Diagnostic)
  | emitLog (log : Log)
  | summary (errors warnings : Nat)
  | flush
deriving Repr

/-- An output in a color mode. -/
def ofMode (sources : SourceMap) (mode : ColorMode) (isTerminal : Bool) : Terminal where
  sources := sources
  colored := mode.colored isTerminal

/-- The number of warnings in words. -/
def warningCount (warnings : Nat) : String :=
  toString warnings ++ (if warnings = 1 then " warning" else " warnings") ++ " emitted"

/-- The number of errors in words. -/
def errorCount (errors : Nat) : String :=
  if errors = 1 then "previous error" else toString errors ++ " previous errors"

/-- The summary of a number of errors and warnings. Where there is neither, there is no summary. -/
def summaryRows (errors warnings : Nat) : List Row :=
  match errors, warnings with
  | 0, 0 => []
  | 0, warnings =>
      [[.painted (.severity .warning) "warning", .plain (": " ++ warningCount warnings)]]
  | errors, warnings =>
      [[.painted (.severity .error) "error",
        .plain (": aborting due to " ++ errorCount errors
          ++ if warnings = 0 then "" else "; " ++ warningCount warnings)]]

/-- The text of a finding: its report and an empty line. -/
def report (terminal : Terminal) (diagnostic : Diagnostic) : Except Fault String :=
  return (← Report.render terminal.colored diagnostic terminal.sources) ++ "\n"

/-- The texts of several findings one after the other. -/
def reports (terminal : Terminal) (diagnostics : List Diagnostic) : Except Fault String :=
  return Text.concat (← diagnostics.mapM terminal.report)

/-- The text of a summary. -/
def summary (terminal : Terminal) (errors warnings : Nat) : String :=
  Text.concat ((summaryRows errors warnings).map (Row.write terminal.colored))

/-- What a request writes. A log is written as its findings and the summary of its errors and
    warnings; flushing writes nothing. -/
def write (terminal : Terminal) : Request → Except Fault String
  | .emit diagnostic => terminal.report diagnostic
  | .emitAll diagnostics => terminal.reports diagnostics
  | .emitLog log =>
      return (← terminal.reports log.toList)
        ++ terminal.summary (log.countOf .error) (log.countOf .warning)
  | .summary errors warnings => .ok (terminal.summary errors warnings)
  | .flush => .ok ""

/-- What each of several requests writes. -/
def writeAll (terminal : Terminal) (requests : List Request) : Except Fault (List String) :=
  requests.mapM terminal.write

end Terminal

end FrontEnd
