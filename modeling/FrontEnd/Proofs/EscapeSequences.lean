/-
Module: FrontEnd.Proofs.EscapeSequences
Layer: Proofs
Purpose: Escape sequences and their removal. What is written in colors is, piece by piece, what is
  written without them between two escape sequences, so that removing the sequences gives it back as
  long as the pieces contain no escape character of their own.
Imports: FrontEnd.Report.Paint, FrontEnd.Proofs.TextCuts
Trusted boundary: none
Main exports: Text.behindEscape?, Text.stripEscapes, Text.withoutEscapes, Text.EscapeFree,
  Text.StripsTo, Piece.write_stripsTo, Row.writeAll, Row.writeAll_stripsTo
Open obligations: none
-/
import FrontEnd.Report.Paint
import FrontEnd.Proofs.TextCuts

namespace FrontEnd

namespace Text

/-! ### Removing escape sequences -/

/-- The character that begins an escape sequence. -/
def escapeChar : Char := '\x1b'

/-- The characters between the bracket of an escape sequence and its last letter. -/
def isEscapeParameter (c : Char) : Bool :=
  c.isDigit || c = ';'

/-- The text behind the escape sequence at the front of a text, if there is one: an escape
    character, a bracket, any number of digits and semicolons, and the letter `m`. -/
def behindEscape? : List Char → Option (List Char)
  | c :: '[' :: text =>
      if c = escapeChar then
        match text.dropWhile isEscapeParameter with
        | 'm' :: rest => some rest
        | _ => none
      else none
  | _ => none

/-- There is less text behind an escape sequence. -/
theorem length_lt_of_behindEscape? {text rest : List Char}
    (found : behindEscape? text = some rest) : rest.length < text.length := by
  unfold behindEscape? at found
  split at found
  · rename_i c text
    split at found
    · split at found
      · rename_i rest' behind
        cases found
        have dropped := (List.dropWhile_suffix isEscapeParameter (l := text)).length_le
        rw [behind] at dropped
        simp only [List.length_cons] at dropped ⊢
        omega
      · cases found
    · cases found
  · cases found

/-- A text without the escape sequences in it. -/
def stripEscapes (text : List Char) : List Char :=
  match _found : behindEscape? text with
  | some rest => stripEscapes rest
  | none =>
      match text with
      | [] => []
      | c :: text => c :: stripEscapes text
termination_by text.length
decreasing_by
  · exact length_lt_of_behindEscape? _found
  · exact Nat.lt_succ_self _

/-- A string without the escape sequences in it. -/
def withoutEscapes (text : String) : String :=
  String.ofList (stripEscapes text.toList)

theorem stripEscapes_nil : stripEscapes [] = [] := by
  rw [stripEscapes]
  rfl

/-- An escape sequence at the front is removed. -/
theorem stripEscapes_of_behindEscape? {text rest : List Char}
    (found : behindEscape? text = some rest) : stripEscapes text = stripEscapes rest := by
  rw [stripEscapes]
  split
  · rename_i rest' found'
    cases found.symm.trans found'
    rfl
  · rename_i notFound
    cases found.symm.trans notFound

/-- A character that begins no escape sequence stays. -/
theorem stripEscapes_cons {c : Char} (text : List Char) (other : c ≠ escapeChar) :
    stripEscapes (c :: text) = c :: stripEscapes text := by
  have none : behindEscape? (c :: text) = none := by
    unfold behindEscape?
    split
    · rename_i c' text' same
      cases same
      exact if_neg other
    · rfl
  rw [stripEscapes]
  split
  · rename_i found
    cases none.symm.trans found
  · rfl

theorem stripEscapes_append {front : List Char} (rest : List Char)
    (others : ∀ c ∈ front, c ≠ escapeChar) :
    stripEscapes (front ++ rest) = front ++ stripEscapes rest := by
  induction front with
  | nil =>
      rfl
  | cons c front ih =>
      have other : c ≠ escapeChar := others c (List.mem_cons_self ..)
      have later := ih fun d member => others d (List.mem_cons_of_mem _ member)
      rw [List.cons_append, stripEscapes_cons _ other, later]
      rfl

/-! ### Texts without escape characters -/

/-- There is no escape character in a text. -/
def EscapeFree (text : String) : Prop :=
  escapeChar ∉ text.toList

instance (text : String) : Decidable (EscapeFree text) :=
  inferInstanceAs (Decidable (_ ∉ _))

theorem EscapeFree.append {first second : String} (free : EscapeFree first)
    (freeSecond : EscapeFree second) : EscapeFree (first ++ second) := by
  rw [EscapeFree, String.toList_append, List.mem_append]
  rintro (inFirst | inSecond)
  · exact free inFirst
  · exact freeSecond inSecond

theorem escapeFree_ofList {text : List Char} (free : ∀ c ∈ text, c ≠ escapeChar) :
    EscapeFree (String.ofList text) := by
  rw [EscapeFree, String.toList_ofList]
  intro member
  exact free _ member rfl

theorem EscapeFree.concat {texts : List String} (free : ∀ text ∈ texts, EscapeFree text) :
    EscapeFree (Text.concat texts) := by
  induction texts with
  | nil =>
      exact List.not_mem_nil
  | cons text texts ih =>
      exact (free text (List.mem_cons_self ..)).append
        (ih fun other member => free other (List.mem_cons_of_mem _ member))

theorem escapeFree_repeated {c : Char} (count : Nat) (other : c ≠ escapeChar) :
    EscapeFree (repeated count c) := by
  apply escapeFree_ofList
  intro d member
  rw [List.eq_of_mem_replicate member]
  exact other

theorem escapeFree_toString (number : Nat) : EscapeFree (toString number) := by
  rw [Nat.toString_eq_ofList_toDigits]
  apply escapeFree_ofList
  rintro c member rfl
  exact absurd (isDigit_toDigits number escapeChar member) (by decide)

/-! ### Colored texts and plain ones -/

/-- Whatever stands behind it, the first text comes down to the second when escape sequences are
    removed: none of its own stays, and none is begun at its end. -/
def StripsTo (colored plain : String) : Prop :=
  ∀ rest, stripEscapes (colored.toList ++ rest) = plain.toList ++ stripEscapes rest

namespace StripsTo

variable {colored plain colored' plain' : String}

theorem withoutEscapes_eq (strips : StripsTo colored plain) : withoutEscapes colored = plain := by
  have alone := strips []
  rw [List.append_nil, stripEscapes_nil, List.append_nil] at alone
  rw [withoutEscapes, alone, String.ofList_toList]

theorem append (strips : StripsTo colored plain) (strips' : StripsTo colored' plain') :
    StripsTo (colored ++ colored') (plain ++ plain') := by
  intro rest
  rw [String.toList_append, String.toList_append, List.append_assoc, strips, strips',
    List.append_assoc]

/-- A text without escape characters stays what it is. -/
theorem of_escapeFree {text : String} (free : EscapeFree text) : StripsTo text text := by
  intro rest
  apply stripEscapes_append
  rintro c member rfl
  exact free member

/-- Texts one after the other come down to what each of them comes down to. -/
theorem concat {α : Type} {items : List α} {colored plain : α → String}
    (strips : ∀ item ∈ items, StripsTo (colored item) (plain item)) :
    StripsTo (Text.concat (items.map colored)) (Text.concat (items.map plain)) := by
  induction items with
  | nil =>
      intro rest
      rfl
  | cons item items ih =>
      exact (strips item (List.mem_cons_self ..)).append
        (ih fun other member => strips other (List.mem_cons_of_mem _ member))

end StripsTo

end Text

open Text (EscapeFree StripsTo)

/-- The escape sequence of a color is removed. -/
theorem Paint.escape_stripsTo (paint : Paint) : StripsTo paint.escape "" := by
  intro rest
  apply Text.stripEscapes_of_behindEscape?
  cases paint with
  | severity severity => cases severity <;> rfl
  | code => rfl
  | frame => rfl

/-- So is the one that ends any color. -/
theorem Paint.reset_stripsTo : StripsTo Paint.reset "" := by
  intro rest
  exact Text.stripEscapes_of_behindEscape? rfl

/-! ### Pieces and rows -/

/-- There is no escape character in the pieces of a row. -/
def Row.EscapeFree (row : Row) : Prop :=
  ∀ piece ∈ row, Text.EscapeFree piece.text

/-- Without its escape sequences a colored piece is the plain one. -/
theorem Piece.write_stripsTo {piece : Piece} (free : EscapeFree piece.text) :
    StripsTo (piece.write true) (piece.write false) := by
  obtain ⟨paint, text⟩ := piece
  cases paint with
  | none =>
      exact .of_escapeFree free
  | some paint =>
      have whole := (paint.escape_stripsTo.append (.of_escapeFree free)).append
        Paint.reset_stripsTo
      rwa [String.empty_append, String.append_empty] at whole

namespace Row

theorem write_stripsTo {row : Row} (free : row.EscapeFree) :
    StripsTo (Row.write true row) (Row.write false row) :=
  (StripsTo.concat fun piece member => Piece.write_stripsTo (free piece member)).append
    (.of_escapeFree (by decide))

/-- A row that is written without colors has no escape character. -/
theorem escapeFree_write {row : Row} (free : row.EscapeFree) :
    Text.EscapeFree (Row.write false row) := by
  refine Text.EscapeFree.append (Text.EscapeFree.concat ?_) (by decide)
  intro text member
  obtain ⟨piece, inRow, rfl⟩ := List.mem_map.mp member
  obtain ⟨paint, text⟩ := piece
  cases paint with
  | none => exact free _ inRow
  | some paint => exact free _ inRow

/-- Rows as they are written. -/
def writeAll (colored : Bool) (rows : List Row) : String :=
  Text.concat (rows.map (Row.write colored))

theorem writeAll_append (colored : Bool) (first second : List Row) :
    writeAll colored (first ++ second) = writeAll colored first ++ writeAll colored second := by
  induction first with
  | nil =>
      exact String.empty_append.symm
  | cons row rows ih =>
      have step (later : List Row) :
          writeAll colored (row :: later) = Row.write colored row ++ writeAll colored later := rfl
      rw [List.cons_append, step, step, ih, String.append_assoc]

theorem writeAll_flatten (colored : Bool) (groups : List (List Row)) :
    writeAll colored groups.flatten = Text.concat (groups.map (writeAll colored)) := by
  induction groups with
  | nil =>
      rfl
  | cons rows groups ih =>
      rw [List.flatten_cons, writeAll_append, ih]
      rfl

theorem writeAll_stripsTo {rows : List Row} (free : ∀ row ∈ rows, row.EscapeFree) :
    StripsTo (writeAll true rows) (writeAll false rows) :=
  StripsTo.concat fun row member => write_stripsTo (free row member)

theorem escapeFree_writeAll {rows : List Row} (free : ∀ row ∈ rows, row.EscapeFree) :
    Text.EscapeFree (writeAll false rows) := by
  apply Text.EscapeFree.concat
  intro text member
  obtain ⟨row, inRows, rfl⟩ := List.mem_map.mp member
  exact escapeFree_write (free row inRows)

end Row

end FrontEnd
