/-
Module: FrontEnd.Span.Covering
Layer: Source
Purpose: The span around a list of things that have spans.
Imports: FrontEnd.Span.Basic
Trusted boundary: none
Main exports: HasSpan, coveringSpan?
Open obligations: none
-/
import FrontEnd.Span.Basic

namespace FrontEnd

/-- The things that stand somewhere in a source text. -/
class HasSpan (α : Type) where
  /-- Where the thing stands. -/
  span : α → Span

/-- The smallest span around all the items; an empty list has none. -/
def coveringSpan? {α : Type} [HasSpan α] : List α → Option Span
  | [] => none
  | item :: items =>
      some (items.foldl (fun covered next => covered.merge (HasSpan.span next)) (HasSpan.span item))

end FrontEnd
