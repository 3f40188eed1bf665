/-
Module: FrontEnd.Source.Error
Layer: Source
Purpose: Why a text cannot be registered as a source file.
Imports: FrontEnd.Offset
Trusted boundary: none
Main exports: SourceError, SourceError.message
Open obligations: none
-/
import FrontEnd.Offset

namespace FrontEnd

/-- The ways in which a text is refused as a source file. -/
inductive SourceError where
  | tooLarge (name : String) (size : Nat)
deriving DecidableEq, Repr

namespace SourceError

/-- The wording of each refusal. A text is too large when its end has no offset. -/
def message : SourceError → String
  | .tooLarge name size =>
      "source file `" ++ name ++ "` is " ++ toString size ++ " bytes, which exceeds the "
        ++ toString Offset.limit ++ " byte limit"

end SourceError

end FrontEnd
