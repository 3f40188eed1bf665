/-
Module: FrontEnd.Diagnostic.Basic
Layer: Diagnostic
Purpose: Findings about a source text: how severe one is, what it says, and which places it marks.
Imports: FrontEnd.Source.FileId, FrontEnd.Span.Basic
Trusted boundary: none
Main exports: Severity, ErrorCode, Label, Diagnostic, Diagnostic.primaryLabel?, Diagnostic.text
Open obligations: none
-/
import FrontEnd.Source.FileId
import FrontEnd.Span.Basic

namespace FrontEnd

/-- How severe a finding is. -/
inductive Severity where
  | error
  | warning
  | note
  | help
deriving DecidableEq, Repr, Inhabited

namespace Severity

/-- The word for a severity. -/
def text : Severity → String
  | .error => "error"
  | .warning => "warning"
  | .note => "note"
  | .help => "help"

end Severity

/-- The codes under which errors can be looked up. -/
inductive ErrorCode where
  | unexpectedCharacter
  | malformedFloat
deriving DecidableEq, Repr, Inhabited

namespace ErrorCode

/-- The code as it is written. -/
def text : ErrorCode → String
  | .unexpectedCharacter => "E0001"
  | .malformedFloat => "E0002"

/-- What a code means. -/
def description : ErrorCode → String
  | .unexpectedCharacter => "unexpected character"
  | .malformedFloat => "malformed float literal"

/-- Whether the code belongs to an error of the lexer. -/
def isLexerError : ErrorCode → Bool
  | .unexpectedCharacter | .malformedFloat => true

end ErrorCode

/-- A marked place. Primary labels mark the place of the problem itself, the others what it relates
    to; the labels of one finding may stand in different files. -/
structure Label where
  file : FileId
  span : Span
  message : Option String
  isPrimary : Bool
deriving DecidableEq, Repr, Inhabited

namespace Label

/-- A label at the place of the problem. -/
def primary (file : FileId) (span : Span) : Label where
  file := file
  span := span
  message := none
  isPrimary := true

/-- A label at a related place. -/
def secondary (file : FileId) (span : Span) : Label :=
  { primary file span with isPrimary := false }

/-- The label with a message to be shown below its mark. -/
def withMessage (label : Label) (message : String) : Label :=
  { label with message := some message }

/-- What introduces a label: an arrow to the problem itself, colons to a related place. -/
def marker (label : Label) : String :=
  if label.isPrimary then "-->" else ":::"

/-- The line for a label in the compact form of a finding. -/
def text (label : Label) : String :=
  "\n  " ++ label.marker ++ " " ++ label.file.text ++ " " ++ label.span.text
    ++ (label.message.map (": " ++ ·)).getD ""

end Label

/-- A finding: its severity and message, and perhaps a code, labels in the order in which they are
    shown, and advice. -/
structure Diagnostic where
  severity : Severity
  message : String
  code : Option ErrorCode := none
  labels : List Label := []
  help : Option String := none
deriving DecidableEq, Repr, Inhabited

namespace Diagnostic

/-- The finding with a code. -/
def withCode (diagnostic : Diagnostic) (code : ErrorCode) : Diagnostic :=
  { diagnostic with code := some code }

/-- The finding with advice. -/
def withHelp (diagnostic : Diagnostic) (help : String) : Diagnostic :=
  { diagnostic with help := some help }

/-- The finding with further labels behind those it has. -/
def addLabels (diagnostic : Diagnostic) (labels : List Label) : Diagnostic :=
  { diagnostic with labels := diagnostic.labels ++ labels }

/-- The finding with one more label. -/
def addLabel (diagnostic : Diagnostic) (label : Label) : Diagnostic :=
  diagnostic.addLabels [label]

/-- The finding with a primary label that has a message. -/
def withLabel (diagnostic : Diagnostic) (file : FileId) (span : Span) (message : String) :
    Diagnostic :=
  diagnostic.addLabel ((Label.primary file span).withMessage message)

/-- The finding with a secondary label that has a message. -/
def withSecondaryLabel (diagnostic : Diagnostic) (file : FileId) (span : Span) (message : String) :
    Diagnostic :=
  diagnostic.addLabel ((Label.secondary file span).withMessage message)

/-- The first primary label. -/
def primaryLabel? (diagnostic : Diagnostic) : Option Label :=
  diagnostic.labels.find? Label.isPrimary

/-- The span of the first primary label. -/
def primarySpan? (diagnostic : Diagnostic) : Option Span :=
  diagnostic.primaryLabel?.map Label.span

/-- Whether the finding is an error. -/
def isError (diagnostic : Diagnostic) : Bool :=
  diagnostic.severity == .error

/-- The compact form of a finding, which needs no source text: a header line, a line for each label
    and a line for the advice. -/
def text (diagnostic : Diagnostic) : String :=
  diagnostic.severity.text
    ++ (diagnostic.code.map fun code => "[" ++ code.text ++ "]").getD ""
    ++ ": " ++ diagnostic.message
    ++ Text.concat (diagnostic.labels.map Label.text)
    ++ (diagnostic.help.map ("\n  = help: " ++ ·)).getD ""

end Diagnostic

end FrontEnd
