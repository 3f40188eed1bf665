/-
Module: FrontEnd.Proofs.CursorMoves
Layer: Proofs
Purpose: What a cursor sees and where it moves. Between a front and a back of a text it sees the
  first byte of the back, and a move over a part of the back takes it behind that part; all checks
  on the way hold, in a text of any size for which there are offsets.
Imports: FrontEnd.Proofs.LeadBytes
Trusted boundary: none
Main exports: Cursor.between, Cursor.current_between, Cursor.peek_between, Cursor.advance_between,
  Cursor.advanceBy_between, Cursor.advanceChar_between, Cursor.slice_between, Cursor.unread_between,
  Cursor.eatWhile_between
Open obligations: none
-/
import FrontEnd.Proofs.LeadBytes

namespace FrontEnd

open Text (encode firstByte leadByte utf8Size)

/-- A step that does not fault is a step of a scan. -/
@[simp] theorem liftM_ok {α : Type} (value : α) :
    (liftM (Except.ok value : Except Fault α) : Except Misstep α) = .ok value := rfl

/-- In a text that fits, the end of a part has an offset. -/
theorem Offset.add_utf8Size {front part back : List Char}
    (fits : utf8Size (front ++ (part ++ back)) ≤ limit) :
    add (utf8Size front) (utf8Size part) = .ok (utf8Size (front ++ part)) := by
  simp only [Text.utf8Size_append] at fits
  exact add_eq_ok_iff.mpr ⟨by omega, Text.utf8Size_append ..⟩

/-- The end of a character of one byte has an offset. -/
theorem Offset.add_one {front back : List Char} {c : Char} (one : c.utf8Size = 1)
    (fits : utf8Size (front ++ c :: back) ≤ limit) :
    add (utf8Size front) 1 = .ok (utf8Size (front ++ [c])) := by
  have size : utf8Size [c] = 1 := by rw [Text.utf8Size_cons, one, Text.utf8Size_nil]
  rw [← size]
  exact add_utf8Size fits

namespace Cursor

/-- The cursor between a front and a back of a text. -/
def between (front back : List Char) : Cursor where
  text := String.ofList (front ++ back)
  position := utf8Size front

variable {front part back : List Char} {c : Char}

@[simp] theorem position_between (front back : List Char) :
    (between front back).position = utf8Size front := rfl

@[simp] theorem toList_text_between (front back : List Char) :
    (between front back).text.toList = front ++ back :=
  String.toList_ofList

@[simp] theorem size_between (front back : List Char) :
    (between front back).size = utf8Size front + utf8Size back := by
  rw [size, between, Text.utf8ByteSize_ofList, Text.utf8Size_append]

theorem bytes_between (front back : List Char) :
    (between front back).text.toUTF8.data.toList = encode (front ++ back) :=
  Text.bytes_ofList (front ++ back)

/-- Moved over a part, the cursor is in the same text. -/
theorem between_append (front part back : List Char) :
    between (front ++ part) back =
      { between front (part ++ back) with position := utf8Size (front ++ part) } := by
  simp only [between, List.append_assoc]

/-! ### What a cursor sees -/

/-- The byte at the size of a prefix is the first byte of what follows. -/
theorem byteAt_between (front part back : List Char) :
    (between front (part ++ back)).byteAt (utf8Size (front ++ part)) = firstByte back := by
  rw [byteAt, ← Array.getElem?_toList, bytes_between, ← List.append_assoc, Text.encode_append,
    List.getElem?_append_right (by simp), Text.length_encode, Nat.sub_self]
  cases back with
  | nil =>
      rfl
  | cons c back =>
      obtain ⟨others, bytes⟩ := Text.utf8EncodeChar_eq_cons c
      rw [Text.encode_cons, bytes]
      rfl

theorem current_between (front back : List Char) :
    (between front back).current = firstByte back := by
  have byte := byteAt_between front [] back
  rwa [List.nil_append, List.append_nil] at byte

theorem isAtEnd_between (front back : List Char) :
    (between front back).isAtEnd = true ↔ back = [] := by
  rw [isAtEnd, decide_eq_true_iff, size_between, position_between]
  constructor
  · intro past
    by_contra filled
    have := Text.utf8Size_pos filled
    omega
  · rintro rfl
    exact Nat.le_refl _

/-- Behind a byte that is a character, a look ahead sees the next character. -/
theorem peek_between (one : c.utf8Size = 1) (fits : utf8Size (front ++ c :: back) ≤ Offset.limit) :
    (between front (c :: back)).peek = .ok (firstByte back) := by
  rw [peek, position_between, Offset.add_one one fits]
  exact congrArg Except.ok (byteAt_between front [c] back)

/-- A part of the text is a slice of it, wherever the cursor is. -/
theorem slice_of_text {cursor : Cursor} (text : cursor.text.toList = front ++ part ++ back) :
    cursor.slice (utf8Size front) (utf8Size (front ++ part)) = .ok (String.ofList part) := by
  have sliced : Text.slice? (front ++ part ++ back) (utf8Size front) (utf8Size (front ++ part))
      = some part :=
    Text.slice?_eq_some_iff.mpr ⟨front, back, rfl, rfl, (Text.utf8Size_append ..).symm⟩
  rw [slice, text, sliced]

theorem slice_between (front part back : List Char) :
    (between (front ++ part) back).slice (utf8Size front) (utf8Size (front ++ part)) =
      .ok (String.ofList part) :=
  slice_of_text (toList_text_between (front ++ part) back)

theorem unread_between (front back : List Char) :
    (between front back).unread = .ok (encode back) := by
  rw [unread, if_pos (by simp), bytes_between, Text.encode_append, position_between,
    ← Text.length_encode front, List.drop_left]

/-! ### Where a cursor moves -/

/-- The size of a prefix is no place within a character. -/
theorem moveTo_between (front part back : List Char) :
    (between front (part ++ back)).moveTo (utf8Size (front ++ part)) =
      .ok (between (front ++ part) back) := by
  have cut := Text.cut?_append (front ++ part) back
  rw [List.append_assoc] at cut
  rw [moveTo, toList_text_between, cut, Option.isSome_some, if_pos rfl, between_append]

/-- A move over bytes that make up characters. -/
theorem advanceBy_between (part : List Char)
    (fits : utf8Size (front ++ (part ++ back)) ≤ Offset.limit) :
    (between front (part ++ back)).advanceBy (utf8Size part) =
      .ok (between (front ++ part) back) := by
  have inside : utf8Size (front ++ part) ≤ (between front (part ++ back)).size := by
    simp only [size_between, Text.utf8Size_append]
    omega
  rw [advanceBy, position_between, Offset.add_utf8Size fits]
  simp only [liftM_ok, bind, Except.bind, if_pos inside]
  exact moveTo_between front part back

theorem step_between (one : c.utf8Size = 1) (fits : utf8Size (front ++ c :: back) ≤ Offset.limit) :
    (between front (c :: back)).step = .ok (between (front ++ [c]) back) := by
  rw [step, position_between, Offset.add_one one fits]
  exact moveTo_between front [c] back

theorem advance_between (one : c.utf8Size = 1)
    (fits : utf8Size (front ++ c :: back) ≤ Offset.limit) :
    (between front (c :: back)).advance = .ok (between (front ++ [c]) back) := by
  have inside : (between front (c :: back)).position < (between front (c :: back)).size := by
    rw [position_between, size_between, Text.utf8Size_cons, one]
    omega
  rw [advance, if_pos inside, step_between one fits]

/-- A move over a character, however many bytes it has. -/
theorem advanceChar_between (fits : utf8Size (front ++ c :: back) ≤ Offset.limit) :
    (between front (c :: back)).advanceChar = .ok (between (front ++ [c]) back) := by
  have left : Offset.sub (between front (c :: back)).size (between front (c :: back)).position
      = .ok (utf8Size (c :: back)) :=
    Offset.sub_eq_ok_iff.mpr ⟨by simp, by simp⟩
  have width : min (Byte.width (between front (c :: back)).current) (utf8Size (c :: back))
      = utf8Size [c] := by
    rw [current_between, firstByte, Byte.width_leadByte]
    simp
  rw [advanceChar, left]
  simp only [liftM_ok, bind, Except.bind, width]
  exact advanceBy_between [c] fits

/-- A move over all characters of a class, up to the first that is not in it. -/
theorem eatWhile_between {holds : UInt8 → Bool} {ofChar : Char → Bool} {run : List Char}
    (tells : Byte.Tells holds ofChar) (inside : ∀ d ∈ run, ofChar d = true)
    (stop : ∀ d ∈ back.head?, ofChar d = false)
    (fits : utf8Size (front ++ (run ++ back)) ≤ Offset.limit) :
    (between front (run ++ back)).eatWhile holds = .ok (between (front ++ run) back) := by
  induction run generalizing front with
  | nil =>
      have ended : ¬ ((between front back).isAtEnd = false ∧
          holds (between front back).current = true) := by
        rintro ⟨more, member⟩
        cases back with
        | nil =>
            rw [(isAtEnd_between front []).mpr rfl] at more
            cases more
        | cons c back =>
            rw [current_between, firstByte, tells.lead, stop c rfl] at member
            cases member
      rw [List.nil_append, List.append_nil, eatWhile, dif_neg ended]
  | cons c run ih =>
      have member : ofChar c = true := inside c (List.mem_cons_self ..)
      have more : (between front (c :: (run ++ back))).isAtEnd = false ∧
          holds (between front (c :: (run ++ back))).current = true := by
        refine ⟨?_, ?_⟩
        · rw [← Bool.not_eq_true, isAtEnd_between]
          exact List.cons_ne_nil _ _
        · rw [current_between, firstByte, tells.lead, member]
      have stepped : (between front (c :: (run ++ back))).step
          = .ok (between (front ++ [c]) (run ++ back)) :=
        step_between (Text.utf8Size_of_ascii (tells.ascii c member)) fits
      have rest : (between (front ++ [c]) (run ++ back)).eatWhile holds
          = .ok (between (front ++ [c] ++ run) back) :=
        ih (fun d later => inside d (List.mem_cons_of_mem c later)) (by rwa [List.append_assoc])
      rw [List.cons_append, eatWhile, dif_pos more]
      split
      · rename_i failed
        cases failed.symm.trans stepped
      · rename_i next found
        cases found.symm.trans stepped
        rw [rest, List.append_assoc]
        rfl

end Cursor

end FrontEnd
