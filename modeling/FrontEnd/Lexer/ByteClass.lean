/-
Module: FrontEnd.Lexer.ByteClass
Layer: Lexer
Purpose: The classes of bytes that a scanner of bytes goes by. Every byte has its classes in a table
  with one entry for each; bytes outside of ASCII have none.
Imports: none
Trusted boundary: none
Main exports: ByteClass, ByteClass.ofByte, Byte.isBlank, Byte.isDigit, Byte.isWordStart,
  Byte.isWordPart, Byte.width
Open obligations: none
-/

namespace FrontEnd

/-- The classes that a byte belongs to. The newline is not blank, because it is a token. -/
structure ByteClass where
  blank : Bool
  digit : Bool
  wordStart : Bool
  wordPart : Bool
deriving DecidableEq, Repr

namespace ByteClass

/-- Work out the classes of a byte: the blanks are space, tab, carriage return, vertical tab and
    form feed; words consist of letters, digits and underscores, and begin with no digit. -/
def classify (byte : UInt8) : ByteClass :=
  let digit := 0x30 ≤ byte && byte ≤ 0x39
  let letter := (0x61 ≤ byte && byte ≤ 0x7a) || (0x41 ≤ byte && byte ≤ 0x5a)
  let wordStart := letter || byte == 0x5f
  { blank := byte == 0x20 || byte == 0x09 || byte == 0x0d || byte == 0x0b || byte == 0x0c
    digit
    wordStart
    wordPart := digit || wordStart }

/-- The classes of all bytes. -/
def table : Vector ByteClass 256 :=
  Vector.ofFn fun index => classify (UInt8.ofNat index)

/-- The classes of a byte, looked up in the table. -/
def ofByte (byte : UInt8) : ByteClass :=
  table.get ⟨byte.toNat, byte.toNat_lt⟩

/-- The table holds the classes of each byte in the place of the byte. -/
theorem ofByte_eq_classify (byte : UInt8) : ofByte byte = classify byte := by
  have found : ofByte byte = classify (UInt8.ofNat byte.toNat) := Vector.getElem_ofFn byte.toNat_lt
  rw [found, UInt8.ofNat_toNat]

end ByteClass

namespace Byte

def isBlank (byte : UInt8) : Bool :=
  (ByteClass.ofByte byte).blank

def isDigit (byte : UInt8) : Bool :=
  (ByteClass.ofByte byte).digit

def isWordStart (byte : UInt8) : Bool :=
  (ByteClass.ofByte byte).wordStart

def isWordPart (byte : UInt8) : Bool :=
  (ByteClass.ofByte byte).wordPart

/-- The number of bytes of the character that a byte begins. A byte that begins none counts as a
    character by itself. -/
def width (byte : UInt8) : Nat :=
  if 0xf0 ≤ byte && byte ≤ 0xf7 then 4
  else if 0xe0 ≤ byte && byte ≤ 0xef then 3
  else if 0xc0 ≤ byte && byte ≤ 0xdf then 2
  else 1

end Byte

end FrontEnd
