/-
Module: FrontEnd.Token.Basic
Layer: Token
Purpose: Tokens: a kind, the span it was read from and the text found there.
Imports: FrontEnd.Token.Kind, FrontEnd.Span.Covering, FrontEnd.Text.Quoted
Trusted boundary: none
Main exports: Token, Token.endOfFile, Token.listing
Open obligations: none
-/
import FrontEnd.Token.Kind
import FrontEnd.Span.Covering
import FrontEnd.Text.Quoted

namespace FrontEnd

/-- One token of a text. -/
structure Token where
  kind : TokenKind
  span : Span
  text : String
deriving DecidableEq, Repr, Inhabited

namespace Token

instance : HasSpan Token :=
  ⟨Token.span⟩

/-- The token that ends a text: it is empty and stands at the offset of the end. -/
def endOfFile (offset : Nat) : Token where
  kind := .endOfFile
  span := .point offset
  text := ""

/-- Whether the token ends its text. -/
def isEndOfFile (token : Token) : Bool :=
  token.kind == .endOfFile

/-- The token in a listing: its kind, its text in quotes where the kind leaves it open, and its
    span. -/
def listing (token : Token) : String :=
  let text := if token.kind.showsText then "(" ++ Text.quoted token.text ++ ")" else ""
  token.kind.label ++ text ++ " @ " ++ token.span.text

end Token

end FrontEnd
