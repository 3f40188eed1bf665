/-
Module: FrontEnd.Text.Basic
Layer: Text
Purpose: Texts measured in bytes. Positions in a source text count the bytes of its UTF-8 form,
  while the scanner reads characters; the functions here measure and cut a list of characters by
  bytes.
Imports: none
Trusted boundary: none
Main exports: Text.utf8Size, Text.cut?, Text.slice?, Text.concat
Open obligations: none
-/

namespace FrontEnd

namespace Text

/-- The number of bytes that the characters take in UTF-8. -/
def utf8Size : List Char → Nat
  | [] => 0
  | c :: text => c.utf8Size + utf8Size text

@[simp] theorem utf8Size_nil : utf8Size [] = 0 := rfl

@[simp] theorem utf8Size_cons (c : Char) (text : List Char) :
    utf8Size (c :: text) = c.utf8Size + utf8Size text := rfl

@[simp] theorem utf8Size_append (left right : List Char) :
    utf8Size (left ++ right) = utf8Size left + utf8Size right := by
  induction left with
  | nil =>
      simp
  | cons c text ih =>
      simp [ih, Nat.add_assoc]

/-- Cut a text after its first `count` bytes. There is no cut past the end or inside a character. -/
def cut? : List Char → Nat → Option (List Char × List Char)
  | text, 0 => some ([], text)
  | [], _ + 1 => none
  | c :: text, count + 1 =>
      if c.utf8Size ≤ count + 1 then
        (cut? text (count + 1 - c.utf8Size)).map fun (front, back) => (c :: front, back)
      else none

/-- The characters between two byte positions, if both are character boundaries in order. -/
def slice? (text : List Char) (start stop : Nat) : Option (List Char) :=
  if start ≤ stop then do
    let (_, back) ← cut? text start
    let (front, _) ← cut? back (stop - start)
    some front
  else none

/-- The texts one after the other. -/
def concat (texts : List String) : String :=
  texts.foldr (· ++ ·) ""

/-- A character written `count` times. -/
def repeated (count : Nat) (c : Char) : String :=
  String.ofList (List.replicate count c)

end Text

end FrontEnd
