/-
Module: FrontEnd.Lexer.Cursor
Layer: Lexer
Purpose: A cursor over the bytes of a text. It moves forward only, by single bytes or by whole
  characters, and every assumption that a move or a look makes is checked, so that a broken one
  shows as a misstep.
Imports: FrontEnd.Offset.Arithmetic, FrontEnd.Text.Basic, FrontEnd.Lexer.ByteClass
Trusted boundary: none
Main exports: Misstep, Cursor, Cursor.start, Cursor.current, Cursor.peek, Cursor.moveTo,
  Cursor.advance, Cursor.advanceBy, Cursor.advanceChar, Cursor.slice, Cursor.unread, Cursor.eatWhile
Open obligations: none
-/
import FrontEnd.Offset.Arithmetic
import FrontEnd.Text.Basic
import FrontEnd.Lexer.ByteClass

namespace FrontEnd

/-- What can go wrong in a scan of bytes: a fault, a move past the end or into a character, a count
    that would be cut off to fit an offset, or a place where a character should be and is not. -/
inductive Misstep where
  | fault (fault : Fault)
  | pastEnd
  | insideCharacter (offset : Nat)
  | countCutOff (count : Nat)
  | noCharacter
deriving DecidableEq, Repr

/-- A computation that can fault can be a step of a scan. -/
instance : MonadLift (Except Fault) (Except Misstep) :=
  ⟨Except.mapError Misstep.fault⟩

/-- A cursor in a text, at the offset of the next byte. -/
structure Cursor where
  text : String
  position : Nat := 0
deriving DecidableEq, Repr

namespace Cursor

/-- A cursor at the front of a text. A text whose end has no offset is a fault of the caller. -/
def start (text : String) : Except Fault Cursor :=
  if text.utf8ByteSize ≤ Offset.limit then .ok { text } else .error (.textTooLong text.utf8ByteSize)

/-- The number of bytes of the text. -/
def size (cursor : Cursor) : Nat :=
  cursor.text.utf8ByteSize

/-- The byte at an offset. Past the end it is zero, as it can be within the text, too. -/
def byteAt (cursor : Cursor) (offset : Nat) : UInt8 :=
  cursor.text.toUTF8.data[offset]?.getD 0

/-- The next byte. -/
def current (cursor : Cursor) : UInt8 :=
  cursor.byteAt cursor.position

/-- The byte behind the next one. -/
def peek (cursor : Cursor) : Except Fault UInt8 := do
  return cursor.byteAt (← Offset.add cursor.position 1)

/-- Whether no byte is left. -/
def isAtEnd (cursor : Cursor) : Bool :=
  cursor.size ≤ cursor.position

/-- Move to an offset, which has to be the end of a character or the front of the text. -/
def moveTo (cursor : Cursor) (offset : Nat) : Except Misstep Cursor :=
  if (Text.cut? cursor.text.toList offset).isSome then .ok { cursor with position := offset }
  else .error (.insideCharacter offset)

/-- Move over the next byte. -/
def step (cursor : Cursor) : Except Misstep Cursor := do
  cursor.moveTo (← Offset.add cursor.position 1)

/-- Move over the next byte, which has to be there. -/
def advance (cursor : Cursor) : Except Misstep Cursor :=
  if cursor.position < cursor.size then cursor.step else .error .pastEnd

/-- Move over a number of bytes, which have to be there. -/
def advanceBy (cursor : Cursor) (count : Nat) : Except Misstep Cursor := do
  let stop ← Offset.add cursor.position count
  if stop ≤ cursor.size then cursor.moveTo stop else .error .pastEnd

/-- Move over the next character. Its first byte tells how long it is. -/
def advanceChar (cursor : Cursor) : Except Misstep Cursor := do
  let left ← Offset.sub cursor.size cursor.position
  cursor.advanceBy (min (Byte.width cursor.current) left)

/-- The text between two offsets. -/
def slice (cursor : Cursor) (start stop : Nat) : Except Fault String :=
  match Text.slice? cursor.text.toList start stop with
  | some part => .ok (String.ofList part)
  | none => .error (.notASlice start stop)

/-- The bytes that are left. -/
def unread (cursor : Cursor) : Except Fault (List UInt8) :=
  if cursor.position ≤ cursor.size then .ok (cursor.text.toUTF8.data.toList.drop cursor.position)
  else .error (.notASlice cursor.position cursor.size)

/-- A byte that is moved over is behind the cursor. -/
theorem position_of_step {cursor next : Cursor} (stepped : cursor.step = .ok next) :
    next.size = cursor.size ∧ next.position = cursor.position + 1 := by
  unfold step at stepped
  cases sum : Offset.add cursor.position 1 with
  | error fault =>
      rw [sum] at stepped
      cases stepped
  | ok stop =>
      rw [sum] at stepped
      obtain ⟨-, rfl⟩ := Offset.add_eq_ok_iff.mp sum
      change cursor.moveTo (cursor.position + 1) = .ok next at stepped
      unfold moveTo at stepped
      split at stepped
      · cases stepped
        exact ⟨rfl, rfl⟩
      · cases stepped

/-- Move over bytes as long as they are of a class. -/
def eatWhile (holds : UInt8 → Bool) (cursor : Cursor) : Except Misstep Cursor :=
  if _more : cursor.isAtEnd = false ∧ holds cursor.current = true then
    match _stepped : cursor.step with
    | .error misstep => .error misstep
    | .ok next => eatWhile holds next
  else .ok cursor
termination_by cursor.size - cursor.position
decreasing_by
  have moved := position_of_step _stepped
  have inside : ¬ cursor.size ≤ cursor.position := by simpa [isAtEnd] using _more.1
  omega

end Cursor

end FrontEnd
