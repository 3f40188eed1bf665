/-
Module: FrontEnd.Proofs.OffsetPlaces
Layer: Proofs
Purpose: Offsets and places. In a file whose end has an offset before the limit, each offset has a
  place and each place comes from one offset, also inside of characters and at the end of the file;
  and the order of the places is the order of the offsets.
Imports: FrontEnd.Source.Map, FrontEnd.Proofs.SourceLines, FrontEnd.Proofs.TextBytes,
  Mathlib.Data.List.Basic
Trusted boundary: none
Main exports: Text.newlineByte, LineTable.startsAfter_eq_map, lineStartBefore,
  LineColumn.compare_eq_lt_iff, SourceFile.indexAt_lineStarts, SourceFile.lineColumn_eq_add,
  PlacesMatchOffsets, registered_places_match_offsets
Open obligations: none
-/
import FrontEnd.Source.Map
import FrontEnd.Proofs.SourceLines
import FrontEnd.Proofs.TextBytes
import Mathlib.Data.List.Basic

namespace FrontEnd

open Text (utf8Size)

/-! ### Newlines as bytes -/

namespace Text

/-- The byte of a newline. -/
def newlineByte : UInt8 :=
  0x0a

/-- The byte of a newline belongs to no other character. -/
theorem newlineByte_not_mem {c : Char} (other : c ≠ '\n') :
    newlineByte ∉ String.utf8EncodeChar c := by
  intro member
  have newline : newlineByte.toNat = '\n'.toNat := rfl
  have small : '\n'.toNat = 10 := rfl
  rcases toNat_of_mem_utf8EncodeChar member with code | ⟨large, -⟩
  · exact other (Lexer.eq_iff_toNat.mpr (code.symm.trans newline))
  · omega

end Text

open Text (newlineByte)

/-- The lines that a text opens start behind its newline bytes. -/
theorem LineTable.startsAfter_eq_map (offset : Nat) (text : List Char) :
    startsAfter offset text = ((Text.encode text).idxsOf newlineByte offset).map (· + 1) := by
  induction text generalizing offset with
  | nil =>
      rfl
  | cons c text ih =>
      rw [Text.encode_cons, List.idxsOf_append, String.length_utf8EncodeChar, List.map_append]
      by_cases newline : c = '\n'
      · subst newline
        rw [startsAfter, if_pos rfl, ih]
        rfl
      · have none : (String.utf8EncodeChar c).idxsOf newlineByte offset = [] := by
          apply List.idxsOf_eq_nil_iff.mpr
          intro byte member
          apply beq_eq_false_iff_ne.mpr
          rintro rfl
          exact Text.newlineByte_not_mem newline member
        rw [startsAfter, if_neg newline, ih, none]
        rfl

/-- Where the line of an offset starts: behind the last newline byte before the offset, or at the
    front of the text. -/
def lineStartBefore (bytes : List UInt8) (offset : Nat) : Nat :=
  (((bytes.take offset).idxsOf newlineByte).getLast?.map (· + 1)).getD 0

/-! ### The order of places -/

/-- Places are ordered by their lines, and on one line by their columns. -/
theorem LineColumn.compare_eq_lt_iff {place place' : LineColumn} :
    compare place place' = .lt ↔
      place.line < place'.line ∨ (place.line = place'.line ∧ place.column < place'.column) := by
  have unfolded : compare place place' =
      (compare place.line place'.line).then (compare place.column place'.column) := rfl
  rw [unfolded, Ordering.then_eq_lt, Nat.compare_eq_lt, Nat.compare_eq_eq, Nat.compare_eq_lt]

/-! ### Places of offsets -/

/-- The bytes of a file. -/
def SourceFile.bytes (file : SourceFile) : List UInt8 :=
  Text.bytes file.text

/-- Offsets and places of a file correspond to each other. -/
structure PlacesMatchOffsets (file : SourceFile) : Prop where
  increasing : file.lineStarts.toList.Pairwise (· < ·)
  starts : file.lineStarts.toList =
    0 :: (file.bytes.idxsOf newlineByte).map (· + 1)
  place : ∀ offset ≤ file.size,
    lineStartBefore file.bytes offset ≤ offset ∧
    file.lineColumn offset =
      .ok
        { line := 1 + (file.bytes.take offset).count newlineByte
          column := offset - lineStartBefore file.bytes offset + 1 }
  /-- The place of an offset leads back to the offset. -/
  inverse : ∀ offset ≤ file.size, ∃ place start, file.lineColumn offset = .ok place ∧
    file.lineStart? place.line = some start ∧ start + place.column - 1 = offset
  order : ∀ offset ≤ file.size, ∀ offset' ≤ file.size, ∃ place place',
    file.lineColumn offset = .ok place ∧ file.lineColumn offset' = .ok place' ∧
    (offset < offset' ↔ compare place place' = .lt)
  /-- All offsets from the start of a line up to the start of the next line, or up to the end of the
      file, have their places on this line. -/
  within : ∀ line, 1 ≤ line → line ≤ file.lineCount → ∃ start,
    file.lineStart? line = some start ∧ ∀ offset, start ≤ offset →
      ((∃ next, file.lineStart? (line + 1) = some next ∧ offset < next) ∨
        (line = file.lineCount ∧ offset ≤ file.size)) →
      file.lineColumn offset = .ok { line, column := offset - start + 1 }

namespace SourceFile

variable {file : SourceFile} {offset offset' : Nat}

/-- The table of line starts lists the offsets behind the newline bytes. -/
theorem lineStarts_eq_cons (file : SourceFile) :
    file.lineStarts.toList = 0 :: (file.bytes.idxsOf newlineByte).map (· + 1) := by
  rw [file.lineStarts_eq, LineTable.starts, LineTable.startsAfter_eq_map, bytes, Text.bytes_eq]

theorem length_bytes (file : SourceFile) : file.bytes.length = file.size := by
  rw [bytes, Text.bytes_eq, Text.length_encode, size_eq]

/-- The newlines of a file before an offset, and those from the offset on. -/
theorem idxsOf_bytes (inFile : offset ≤ file.size) :
    file.bytes.idxsOf newlineByte =
      (file.bytes.take offset).idxsOf newlineByte ++
        (file.bytes.drop offset).idxsOf newlineByte offset := by
  have size : (file.bytes.take offset).length = offset := by
    rw [List.length_take, length_bytes, Nat.min_eq_left inFile]
  calc file.bytes.idxsOf newlineByte
      = (file.bytes.take offset ++ file.bytes.drop offset).idxsOf newlineByte := by
        rw [List.take_append_drop]
    _ = _ := by
        rw [List.idxsOf_append, size, Nat.zero_add]

/-- A table of line starts begins with those up to an offset, and the last of these is the start of
    the line of the offset. -/
theorem lineStarts_at (inFile : offset ≤ file.size) :
    ∃ earlier : List Nat,
      file.lineStarts.toList =
        earlier ++ lineStartBefore file.bytes offset
          :: ((file.bytes.drop offset).idxsOf newlineByte offset).map (· + 1) ∧
      earlier.length = (file.bytes.take offset).count newlineByte := by
  have starts := file.lineStarts_eq_cons
  rw [idxsOf_bytes inFile, List.map_append, ← List.cons_append] at starts
  have count : ((file.bytes.take offset).idxsOf newlineByte).length
      = (file.bytes.take offset).count newlineByte := List.length_idxsOf
  unfold lineStartBefore
  rcases List.eq_nil_or_concat ((file.bytes.take offset).idxsOf newlineByte)
    with none | ⟨newlines, last, some⟩
  · refine ⟨[], ?_, ?_⟩
    · simpa [none] using starts
    · rw [← count, none]
  · refine ⟨0 :: newlines.map (· + 1), ?_, ?_⟩
    · simpa [some] using starts
    · rw [← count, some]
      simp

/-- The line of an offset does not start behind the offset. -/
theorem lineStartBefore_le (bytes : List UInt8) (offset : Nat) :
    lineStartBefore bytes offset ≤ offset := by
  unfold lineStartBefore
  cases found : ((bytes.take offset).idxsOf newlineByte).getLast? with
  | none =>
      exact Nat.zero_le _
  | some newline =>
      have before := List.lt_add_of_mem_idxsOf newline (List.mem_of_getLast? found)
      have size := List.length_take_le offset bytes
      change newline + 1 ≤ offset
      omega

/-- The lines below that of an offset start behind the offset. -/
theorem exists_starts_around (inFile : offset ≤ file.size) :
    ∃ earlier later : List Nat,
      file.lineStarts.toList = earlier ++ lineStartBefore file.bytes offset :: later ∧
      (∀ entry ∈ later, offset < entry) ∧
      earlier.length = (file.bytes.take offset).count newlineByte := by
  obtain ⟨earlier, starts, count⟩ := lineStarts_at inFile
  refine ⟨earlier, _, starts, ?_, count⟩
  intro entry member
  obtain ⟨newline, listed, rfl⟩ := List.mem_map.mp member
  exact Nat.lt_succ_of_le (List.ge_of_mem_idxsOf newline listed)

/-- The search in the table finds the number of newline bytes before the offset. -/
theorem indexAt_lineStarts (inFile : offset ≤ file.size) :
    LineTable.indexAt file.lineStarts offset = (file.bytes.take offset).count newlineByte := by
  obtain ⟨earlier, later, starts, above, count⟩ := exists_starts_around inFile
  rw [LineTable.indexAt_eq_length file.lineStarts_pairwise starts (lineStartBefore_le _ _) above,
    count]

/-- A place has one more line than there are newline bytes before the offset, and its column counts
    from the last of them. -/
theorem lineColumn_eq_add (inFile : offset ≤ file.size) :
    file.lineColumn offset = do
      let line ← Offset.add ((file.bytes.take offset).count newlineByte) 1
      let column ← Offset.add (offset - lineStartBefore file.bytes offset) 1
      return { line, column } := by
  obtain ⟨earlier, later, starts, above, count⟩ := exists_starts_around inFile
  rw [lineColumn_of_between starts (lineStartBefore_le _ _) above inFile, count]

/-- There are no more newlines before an offset than bytes. -/
theorem count_take_le (bytes : List UInt8) (offset : Nat) :
    (bytes.take offset).count newlineByte ≤ offset :=
  Nat.le_trans List.count_le_length (List.length_take_le _ _)

/-- The line of a place has a number. -/
theorem count_lt_of_lineColumn {place : LineColumn} (inFile : offset ≤ file.size)
    (found : file.lineColumn offset = .ok place) :
    (file.bytes.take offset).count newlineByte < Offset.limit := by
  rw [lineColumn_eq_add inFile] at found
  obtain ⟨line, numbered, -⟩ := bind_eq_ok_iff.mp found
  exact (Offset.add_eq_ok_iff.mp numbered).1

/-- In a file that ends before the limit all lines have numbers. -/
theorem count_lt_of_short (inFile : offset ≤ file.size) (short : file.size < Offset.limit) :
    (file.bytes.take offset).count newlineByte < Offset.limit := by
  have lines := count_take_le file.bytes offset
  omega

/-- In a file that ends before the limit no place passes it. -/
theorem lineColumn_eq_of_bytes (inFile : offset ≤ file.size) (short : file.size < Offset.limit) :
    lineStartBefore file.bytes offset ≤ offset ∧
    file.lineColumn offset =
      .ok
        { line := 1 + (file.bytes.take offset).count newlineByte
          column := offset - lineStartBefore file.bytes offset + 1 } := by
  have line : Offset.add ((file.bytes.take offset).count newlineByte) 1
      = .ok (1 + (file.bytes.take offset).count newlineByte) :=
    Offset.add_eq_ok_iff.mpr ⟨count_lt_of_short inFile short, Nat.add_comm ..⟩
  have column : Offset.add (offset - lineStartBefore file.bytes offset) 1
      = .ok (offset - lineStartBefore file.bytes offset + 1) :=
    Offset.add_eq_ok_iff.mpr ⟨by omega, rfl⟩
  refine ⟨lineStartBefore_le _ _, ?_⟩
  rw [lineColumn_eq_add inFile, line, column]
  rfl

/-- The entry for the line of an offset is where this line starts. -/
theorem getElem?_lineStarts_of_bytes (inFile : offset ≤ file.size) :
    file.lineStarts[(file.bytes.take offset).count newlineByte]? =
      some (lineStartBefore file.bytes offset) := by
  obtain ⟨earlier, starts, count⟩ := lineStarts_at inFile
  rw [← Array.getElem?_toList, starts, ← count]
  simp

/-- The line of a place starts as many bytes before the offset as its column says, if the line has
    a number. -/
theorem lineStart?_of_bytes (inFile : offset ≤ file.size)
    (numbered : (file.bytes.take offset).count newlineByte < Offset.limit) :
    file.lineStart? (1 + (file.bytes.take offset).count newlineByte) =
      some (lineStartBefore file.bytes offset) := by
  rw [Nat.add_comm, lineStart?, if_pos (Nat.succ_le_of_lt numbered)]
  exact getElem?_lineStarts_of_bytes inFile

/-- There are no fewer newlines before a later offset. -/
theorem count_take_mono {bytes : List UInt8} (order : offset ≤ offset') :
    (bytes.take offset).count newlineByte ≤ (bytes.take offset').count newlineByte :=
  (List.take_sublist_take_left order).count_le newlineByte

/-- Places are ordered like their offsets. -/
theorem lt_iff_compare (inFile : offset ≤ file.size) (inFile' : offset' ≤ file.size)
    (short : file.size < Offset.limit) :
    ∃ place place', file.lineColumn offset = .ok place ∧ file.lineColumn offset' = .ok place' ∧
      (offset < offset' ↔ compare place place' = .lt) := by
  obtain ⟨behind, place⟩ := lineColumn_eq_of_bytes inFile short
  obtain ⟨behind', place'⟩ := lineColumn_eq_of_bytes inFile' short
  have start := getElem?_lineStarts_of_bytes inFile
  have start' := getElem?_lineStarts_of_bytes inFile'
  refine ⟨_, _, place, place', ?_⟩
  rw [LineColumn.compare_eq_lt_iff]
  -- On one line both columns count from the same start, so it is enough to compare lines.
  have sameStart
      (same : (file.bytes.take offset).count newlineByte =
        (file.bytes.take offset').count newlineByte) :
      lineStartBefore file.bytes offset
        = lineStartBefore file.bytes offset' := by
    rw [same, start'] at start
    exact (Option.some.inj start).symm
  constructor
  · intro before
    have lines := @count_take_mono _ _ file.bytes (Nat.le_of_lt before)
    rcases Nat.lt_or_eq_of_le lines with less | same
    · exact Or.inl (Nat.add_lt_add_left less 1)
    · have starts := sameStart same
      right
      refine ⟨congrArg (1 + ·) same, ?_⟩
      change offset - _ + 1 < offset' - _ + 1
      omega
  · rintro (less | ⟨same, less⟩)
    · by_contra later
      have lines := @count_take_mono _ _ file.bytes (Nat.le_of_not_lt later)
      exact absurd (Nat.lt_of_add_lt_add_left less) (Nat.not_lt_of_le lines)
    · have starts := sameStart (Nat.add_left_cancel same)
      change offset - _ + 1 < offset' - _ + 1 at less
      omega

/-- A file has at most one more line than bytes. -/
theorem lineCount_le (file : SourceFile) : file.lineCount ≤ file.size + 1 := by
  have count := congrArg List.length file.lineStarts_eq_cons
  rw [List.length_cons, List.length_map, List.length_idxsOf, Array.length_toList] at count
  have most : file.bytes.count newlineByte ≤ file.bytes.length := List.count_le_length
  rw [length_bytes] at most
  rw [lineCount, count]
  exact Nat.succ_le_succ most

/-- No line starts behind the end of the file. -/
theorem le_size_of_mem_lineStarts {start : Nat} (member : start ∈ file.lineStarts.toList) :
    start ≤ file.size := by
  rw [lineStarts_eq_cons] at member
  rcases List.mem_cons.mp member with rfl | member
  · exact Nat.zero_le _
  · obtain ⟨newline, listed, rfl⟩ := List.mem_map.mp member
    have before := List.lt_add_of_mem_idxsOf newline listed
    rw [length_bytes] at before
    exact before

/-- Each line has a start, and the offsets up to the next start, or up to the end of the file, have
    their places on the line. -/
theorem lineColumn_within {line : Nat} (short : file.size < Offset.limit) (first : 1 ≤ line)
    (last : line ≤ file.lineCount) :
    ∃ start, file.lineStart? line = some start ∧ ∀ offset, start ≤ offset →
      ((∃ next, file.lineStart? (line + 1) = some next ∧ offset < next) ∨
        (line = file.lineCount ∧ offset ≤ file.size)) →
      file.lineColumn offset = .ok { line, column := offset - start + 1 } := by
  obtain ⟨index, rfl⟩ := Nat.exists_eq_add_of_le' first
  have count := file.lineCount_le
  have listed : index < file.lineStarts.toList.length := last
  have sorted := file.lineStarts_pairwise
  obtain ⟨split, -, -⟩ := LineTable.around_entry sorted listed
  have length : (file.lineStarts.toList.take index).length = index :=
    List.length_take_of_le (Nat.le_of_lt listed)
  refine ⟨file.lineStarts.toList[index], ?_, ?_⟩
  · rw [lineStart?, if_pos (by omega), ← Array.getElem?_toList, List.getElem?_eq_getElem listed]
  · intro offset behind ends
    have above : (∀ entry ∈ file.lineStarts.toList.drop (index + 1), offset < entry) ∧
        offset ≤ file.size := by
      rcases ends with ⟨next, known, before⟩ | ⟨lastLine, inFile⟩
      · rw [lineStart?, ← Array.getElem?_toList, Option.ite_none_right_eq_some] at known
        obtain ⟨inTable, rfl⟩ := List.getElem?_eq_some_iff.mp known.2
        constructor
        · intro entry member
          rw [List.drop_eq_getElem_cons inTable] at member
          rcases List.mem_cons.mp member with rfl | member
          · exact before
          · exact Nat.lt_trans before ((LineTable.around_entry sorted inTable).2.2 entry member)
        · have bound := le_size_of_mem_lineStarts (List.getElem_mem inTable)
          omega
      · constructor
        · intro entry member
          rw [List.drop_eq_nil_of_le (Nat.le_of_eq lastLine.symm)] at member
          cases member
        · exact inFile
    have place :=
      lineColumn_of_between_of_short split behind above.1 above.2 (by omega) (by omega)
    rwa [length] at place

end SourceFile

/-- Offsets and places of a registered file correspond to each other, if the end of the file has an
    offset before the limit; and the map of the files gives the same places. -/
theorem registered_places_match_offsets (sources : SourceMap) (id : FileId) (file : SourceFile)
    (known : sources.get? id = some file) (short : file.size < Offset.limit) :
    PlacesMatchOffsets file ∧
      ∀ offset, sources.lineColumn id offset = file.lineColumn offset := by
  constructor
  · constructor
    · exact file.lineStarts_pairwise
    · exact file.lineStarts_eq_cons
    · intro offset inFile
      exact SourceFile.lineColumn_eq_of_bytes inFile short
    · intro offset inFile
      obtain ⟨behind, place⟩ := SourceFile.lineColumn_eq_of_bytes inFile short
      have numbered := SourceFile.count_lt_of_short inFile short
      refine ⟨_, _, place, SourceFile.lineStart?_of_bytes inFile numbered, ?_⟩
      change _ + (offset - _ + 1) - 1 = offset
      omega
    · intro offset inFile offset' inFile'
      exact SourceFile.lt_iff_compare inFile inFile' short
    · intro line first last
      exact SourceFile.lineColumn_within short first last
  · intro offset
    simp only [SourceMap.lineColumn, SourceMap.tryLineColumn, known]
    cases file.lineColumn offset with
    | error fault => rfl
    | ok place => rfl

/-- A file with an empty line, a character of two bytes and a newline at its end. -/
def linesFile : SourceFile where
  name := "a"
  text := "é

x
"
  lineStarts := #[0, 3, 4, 6]
  lineStarts_eq := rfl
  size_le := by decide

theorem registered_places_match_offsets_lines :
    ({ files := #[linesFile] } : SourceMap).get? ⟨0⟩ = some linesFile ∧
      linesFile.size < Offset.limit ∧ PlacesMatchOffsets linesFile ∧
      ∀ offset, ({ files := #[linesFile] } : SourceMap).lineColumn ⟨0⟩ offset
        = linesFile.lineColumn offset :=
  have short : linesFile.size < Offset.limit := by decide
  ⟨rfl, short,
    registered_places_match_offsets { files := #[linesFile] } ⟨0⟩ linesFile rfl short⟩

end FrontEnd
