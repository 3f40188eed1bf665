/-
Module: FrontEnd.Fault
Layer: Core
Purpose: Broken promises of a caller. An operation whose preconditions do not hold stops with a
  fault; a fault is no finding about the source text and never reaches the diagnostic log.
Imports: FrontEnd.Source.FileId, FrontEnd.Source.Error
Trusted boundary: none
Main exports: Fault, Fault.message, bind_eq_ok_iff
Open obligations: none
-/
import FrontEnd.Source.FileId
import FrontEnd.Source.Error

namespace FrontEnd

/-- What a caller, or an internal computation, got wrong. -/
inductive Fault where
  | reversedSpan
  | offsetPastEnd (offset : Nat) (name : String) (size : Nat)
  | unknownFile (id : FileId) (registered : Nat)
  | textTooLong (size : Nat)
  | sourceRejected (reason : SourceError)
  | tooManyFiles
  | additionOverflow
  | subtractionOverflow
  | notASlice (start stop : Nat)
deriving DecidableEq, Repr

namespace Fault

/-- The wording of each fault. -/
def message : Fault → String
  | .reversedSpan => "span start must not be after span end"
  | .offsetPastEnd offset name size =>
      "offset " ++ toString offset ++ " is past the end of `" ++ name ++ "` (" ++ toString size
        ++ " bytes)"
  | .unknownFile id registered =>
      "unknown " ++ id.text ++ " (" ++ toString registered ++ " files registered)"
  | .textTooLong size =>
      "source text of " ++ toString size ++ " bytes exceeds the u32 offset range"
  | .sourceRejected reason => reason.message
  | .tooManyFiles => "too many source files registered"
  | .additionOverflow => "attempt to add with overflow"
  | .subtractionOverflow => "attempt to subtract with overflow"
  | .notASlice start stop =>
      "bytes " ++ toString start ++ ".." ++ toString stop ++ " are no slice of the text"

end Fault

/-- Two steps have a result if the first one has a result with which the second one has it. -/
theorem bind_eq_ok_iff {α β : Type} {first : Except Fault α} {next : α → Except Fault β}
    {result : β} :
    first >>= next = .ok result ↔ ∃ value, first = .ok value ∧ next value = .ok result := by
  cases first with
  | error fault => simp [bind, Except.bind]
  | ok value => simp [bind, Except.bind]

end FrontEnd
