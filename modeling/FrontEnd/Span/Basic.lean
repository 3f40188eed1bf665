/-
Module: FrontEnd.Span.Basic
Layer: Source
Purpose: Byte ranges of one file. A span never runs backwards, and two spans always have a smallest
  span around both.
Imports: FrontEnd.Fault, FrontEnd.Text.Basic
Trusted boundary: none
Main exports: Span, Span.ofBounds, Span.ofRange?, Span.merge, Span.containsSpan, SpanError
Open obligations: none
-/
import FrontEnd.Fault
import FrontEnd.Text.Basic

namespace FrontEnd

/-- A half-open range of byte offsets. It holds no file: a label pairs it with one. -/
structure Span where
  start : Nat
  stop : Nat
  start_le_stop : start ≤ stop
deriving DecidableEq, Repr

/-- Why a range of machine words is no span: a bound does not fit an offset. -/
inductive SpanError where
  | startTooLarge (bound : Nat)
  | stopTooLarge (bound : Nat)
deriving DecidableEq, Repr

namespace SpanError

/-- A number in hexadecimal, in capitals. -/
def hexadecimal (number : Nat) : String :=
  "0x" ++ String.ofList ((Nat.toDigits 16 number).map Char.toUpper)

/-- The wording of each error, with the bound and the limit it passes. -/
def message (error : SpanError) : String :=
  let excess (bound : Nat) : String :=
    toString bound ++ " (" ++ hexadecimal bound ++ ") exceeds u32::MAX ("
      ++ hexadecimal Offset.limit ++ ")"
  match error with
  | .startTooLarge bound => "span start " ++ excess bound
  | .stopTooLarge bound => "span end " ++ excess bound

end SpanError

namespace Span

/-- A span is determined by its bounds. -/
theorem ext_bounds {span span' : Span} (start : span.start = span'.start)
    (stop : span.stop = span'.stop) : span = span' := by
  cases span
  cases span'
  cases start
  cases stop
  rfl

/-- The span between two offsets. Reversed bounds are a fault of the caller. -/
def ofBounds (start stop : Nat) : Except Fault Span :=
  if order : start ≤ stop then .ok ⟨start, stop, order⟩ else .error .reversedSpan

/-- Bounds in order are those of a span. -/
theorem ofBounds_eq_ok (span : Span) : ofBounds span.start span.stop = .ok span :=
  dif_pos span.start_le_stop

/-- The empty span at an offset. -/
def point (offset : Nat) : Span :=
  ⟨offset, offset, Nat.le_refl offset⟩

/-- The span of what stands in no file: the empty one at the start. -/
def dummy : Span :=
  point 0

instance : Inhabited Span :=
  ⟨dummy⟩

/-- The span of a range of machine words. The start is checked against the limit first, then the
    end, and a range within the limit has still to be in order. -/
def ofRange? (start stop : Nat) : Except Fault (Except SpanError Span) :=
  if Offset.limit < start then .ok (.error (.startTooLarge start))
  else if Offset.limit < stop then .ok (.error (.stopTooLarge stop))
  else (ofBounds start stop).map .ok

/-- The number of bytes in the span. -/
def size (span : Span) : Nat :=
  span.stop - span.start

/-- Whether the span holds no byte. -/
def isEmpty (span : Span) : Bool :=
  span.start == span.stop

/-- Whether the byte at an offset lies in the span. -/
def contains (span : Span) (offset : Nat) : Bool :=
  span.start ≤ offset && offset < span.stop

/-- Whether another span lies within the bounds of this one. -/
def containsSpan (outer inner : Span) : Bool :=
  outer.start ≤ inner.start && inner.stop ≤ outer.stop

/-- The smallest span around two spans. -/
def merge (left right : Span) : Span where
  start := min left.start right.start
  stop := max left.stop right.stop
  start_le_stop := by
    have := left.start_le_stop
    omega

/-- The characters of a text inside the span, if its bounds are character boundaries of the text. -/
def slice? (span : Span) (text : List Char) : Option (List Char) :=
  Text.slice? text span.start span.stop

/-- The written form of a span, such as `3..7`. -/
def text (span : Span) : String :=
  toString span.start ++ ".." ++ toString span.stop

end Span

end FrontEnd
