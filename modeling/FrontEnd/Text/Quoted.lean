/-
Module: FrontEnd.Text.Quoted
Layer: Text
Purpose: Quoted texts, in which every control character is visible.
Imports: FrontEnd.Text.Basic
Trusted boundary: none
Main exports: Text.quoted
Open obligations: none
-/
import FrontEnd.Text.Basic

namespace FrontEnd

namespace Text

/-- The control characters: the first block of ASCII, its last character, and the block after it. -/
def isControl (c : Char) : Bool :=
  c.toNat < 0x20 || (0x7f ≤ c.toNat && c.toNat < 0xa0)

/-- A character inside quotes. Backslash and double quote stand behind a backslash, four controls
    have a letter of their own, and any other control is written by its code in hexadecimal. -/
def quotedChar (c : Char) : List Char :=
  if c = '"' then ['\\', '"']
  else if c = '\\' then ['\\', '\\']
  else if c = '\n' then ['\\', 'n']
  else if c = '\r' then ['\\', 'r']
  else if c = '\t' then ['\\', 't']
  else if c.toNat = 0 then ['\\', '0']
  else if isControl c then ['\\', 'u', '{'] ++ Nat.toDigits 16 c.toNat ++ ['}']
  else [c]

/-- The text between double quotes. -/
def quoted (text : String) : String :=
  String.ofList ('"' :: text.toList.flatMap quotedChar ++ ['"'])

end Text

end FrontEnd
