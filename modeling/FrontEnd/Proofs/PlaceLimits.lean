/-
Module: FrontEnd.Proofs.PlaceLimits
Layer: Proofs
Purpose: Places at the limit. The places of a file of any accepted size are numbers of 32 bits, with
  one exception: a file that ends at the limit and has one line only, or newlines only, has no place
  for its end, though the end is an offset of the file.
Imports: FrontEnd.Proofs.OffsetPlaces, FrontEnd.Proofs.SessionHistory
Trusted boundary: none
Main exports: SourceFile.wrappedPlace, SourceFile.PastLimit, PlacesFit, SourceFile.placesFit,
  accepted_places_fit, largest_files_overflow
Open obligations: none
-/
import FrontEnd.Proofs.OffsetPlaces
import FrontEnd.Proofs.SessionHistory

namespace FrontEnd

open Text (newlineByte)

/-! ### Numbers of 32 bits -/

namespace Offset

variable {left right number : Nat}

/-- No number up to the limit loses anything in 32 bits. -/
theorem toNat_toUInt32 (fits : number ≤ limit) : number.toUInt32.toNat = number :=
  UInt32.toNat_ofNat_of_lt' (Nat.lt_succ_of_le fits)

/-- The number behind one below the limit comes out right in 32 bits too. -/
theorem toNat_toUInt32_succ (fits : number < limit) : (number.toUInt32 + 1).toNat = number + 1 := by
  have exact : number.toUInt32.toNat = number := toNat_toUInt32 (Nat.le_of_lt fits)
  have small : limit = 4294967295 := rfl
  rw [UInt32.toNat_add, exact, UInt32.toNat_one]
  omega

/-- Behind the limit comes zero. -/
theorem toNat_toUInt32_limit : (limit.toUInt32 + 1).toNat = 0 :=
  rfl

theorem toUInt32_sub (behind : left ≤ right) (fits : right ≤ limit) :
    right.toUInt32 - left.toUInt32 = (right - left).toUInt32 := by
  apply UInt32.toNat_inj.mp
  have small : limit = 4294967295 := rfl
  rw [UInt32.toNat_sub, toNat_toUInt32 fits, toNat_toUInt32 (by omega), toNat_toUInt32 (by omega)]
  omega

end Offset

/-! ### Sums that pass the limit -/

/-- The line of an offset starts at the front of the text if no newline stands before the offset. -/
theorem lineStartBefore_eq_zero_iff {bytes : List UInt8} {offset : Nat} :
    lineStartBefore bytes offset = 0 ↔ newlineByte ∉ bytes.take offset := by
  have none : (bytes.take offset).idxsOf newlineByte = [] ↔ newlineByte ∉ bytes.take offset := by
    rw [← List.length_eq_zero_iff, List.length_idxsOf, List.count_eq_zero]
  rw [← none, lineStartBefore]
  cases (bytes.take offset).idxsOf newlineByte using List.reverseRecOn with
  | nil => simp
  | append_singleton newlines last => simp

namespace SourceFile

variable {file : SourceFile} {offset : Nat}

/-- The place of an offset, as it comes out where numbers have 32 bits and sums wrap around. -/
def wrappedPlace (file : SourceFile) (offset : Nat) : LineColumn :=
  let index := LineTable.indexAt file.lineStarts offset
  let start := file.lineStarts[index]?.getD 0
  { line := (index.toUInt32 + 1).toNat, column := (offset.toUInt32 - start.toUInt32 + 1).toNat }

/-- The offset behind the last byte of a file that ends at the limit and has one line only, or
    newlines only. -/
def PastLimit (file : SourceFile) (offset : Nat) : Prop :=
  offset = Offset.limit ∧
    (newlineByte ∉ file.bytes ∨ ∀ byte ∈ file.bytes, byte = newlineByte)

/-- All bytes of a file are before the limit. -/
theorem take_limit_bytes (file : SourceFile) : file.bytes.take Offset.limit = file.bytes := by
  apply List.take_of_length_le
  rw [length_bytes]
  exact file.size_le

/-- Only a file of nothing but newlines has as many of them before an offset as the limit says. -/
theorem count_eq_limit_iff (inFile : offset ≤ file.size) :
    (file.bytes.take offset).count newlineByte = Offset.limit ↔
      offset = Offset.limit ∧ ∀ byte ∈ file.bytes, byte = newlineByte := by
  have size : file.size ≤ Offset.limit := file.size_le
  have most : (file.bytes.take offset).count newlineByte ≤ (file.bytes.take offset).length :=
    List.count_le_length
  have length : (file.bytes.take offset).length ≤ offset := List.length_take_le ..
  constructor
  · intro count
    obtain rfl : offset = Offset.limit := by omega
    rw [take_limit_bytes] at count most length
    have all : file.bytes.count newlineByte = file.bytes.length := by omega
    exact ⟨rfl, fun byte member => (List.count_eq_length.mp all byte member).symm⟩
  · rintro ⟨rfl, all⟩
    have count : file.bytes.count newlineByte = file.bytes.length :=
      List.count_eq_length.mpr fun byte member => (all byte member).symm
    rw [take_limit_bytes, count, length_bytes]
    exact Nat.le_antisymm size inFile

/-- Only in a file of one line is the start of the line as far ahead of an offset as the limit
    says. -/
theorem distance_eq_limit_iff (inFile : offset ≤ file.size) :
    offset - lineStartBefore file.bytes offset = Offset.limit ↔
      offset = Offset.limit ∧ newlineByte ∉ file.bytes := by
  have size : file.size ≤ Offset.limit := file.size_le
  have positive : 0 < Offset.limit := Nat.succ_pos _
  constructor
  · intro distance
    obtain rfl : offset = Offset.limit := by omega
    have first : lineStartBefore file.bytes Offset.limit = 0 := by omega
    rw [lineStartBefore_eq_zero_iff, take_limit_bytes] at first
    exact ⟨rfl, first⟩
  · rintro ⟨rfl, none⟩
    have first : lineStartBefore file.bytes Offset.limit = 0 := by
      rwa [lineStartBefore_eq_zero_iff, take_limit_bytes]
    rw [first, Nat.sub_zero]

/-- Past the limit are the offsets that have one of these two numbers at the limit. -/
theorem pastLimit_iff (inFile : offset ≤ file.size) :
    file.PastLimit offset ↔
      offset - lineStartBefore file.bytes offset = Offset.limit ∨
        (file.bytes.take offset).count newlineByte = Offset.limit := by
  rw [PastLimit, and_or_left, distance_eq_limit_iff inFile, count_eq_limit_iff inFile]

/-- No more newlines stand before an offset than the limit says, and no more bytes before it on its
    line. -/
theorem sums_le_limit (inFile : offset ≤ file.size) :
    (file.bytes.take offset).count newlineByte ≤ Offset.limit ∧
      offset - lineStartBefore file.bytes offset ≤ Offset.limit := by
  have size : file.size ≤ Offset.limit := file.size_le
  have lines := count_take_le file.bytes offset
  omega

/-- In 32 bits a place is computed from the same two numbers. -/
theorem wrappedPlace_eq (inFile : offset ≤ file.size) :
    file.wrappedPlace offset =
      { line := (((file.bytes.take offset).count newlineByte).toUInt32 + 1).toNat
        column := ((offset - lineStartBefore file.bytes offset).toUInt32 + 1).toNat } := by
  have size : offset ≤ Offset.limit := Nat.le_trans inFile file.size_le
  simp only [wrappedPlace, indexAt_lineStarts inFile, getElem?_lineStarts_of_bytes inFile,
    Option.getD_some, Offset.toUInt32_sub (lineStartBefore_le _ _) size]

/-- An offset that is not past the limit has its place, and 32 bits are enough for it. -/
theorem lineColumn_of_not_pastLimit (inFile : offset ≤ file.size)
    (within : ¬ file.PastLimit offset) :
    file.lineColumn offset = .ok (file.wrappedPlace offset) ∧
    file.wrappedPlace offset =
      { line := (file.bytes.take offset).count newlineByte + 1
        column := offset - lineStartBefore file.bytes offset + 1 } := by
  rw [pastLimit_iff inFile, not_or] at within
  obtain ⟨linesLe, columnsLe⟩ := sums_le_limit inFile
  have lines := Nat.lt_of_le_of_ne linesLe within.2
  have columns := Nat.lt_of_le_of_ne columnsLe within.1
  have line : Offset.add ((file.bytes.take offset).count newlineByte) 1 = .ok _ :=
    Offset.add_eq_ok_iff.mpr ⟨lines, rfl⟩
  have column : Offset.add (offset - lineStartBefore file.bytes offset) 1 = .ok _ :=
    Offset.add_eq_ok_iff.mpr ⟨columns, rfl⟩
  rw [wrappedPlace_eq inFile, Offset.toNat_toUInt32_succ lines, Offset.toNat_toUInt32_succ columns,
    lineColumn_eq_add inFile, line, column]
  exact ⟨rfl, rfl⟩

/-- Past the limit a sum overflows, and in 32 bits it wraps around to zero. -/
theorem lineColumn_of_pastLimit (inFile : offset ≤ file.size) (past : file.PastLimit offset) :
    file.lineColumn offset = .error .additionOverflow ∧
      ((file.wrappedPlace offset).line = 0 ∨ (file.wrappedPlace offset).column = 0) := by
  rw [lineColumn_eq_add inFile, wrappedPlace_eq inFile]
  have overflow : Offset.add Offset.limit 1 = .error .additionOverflow :=
    if_neg (Nat.not_succ_le_self _)
  by_cases lines : (file.bytes.take offset).count newlineByte = Offset.limit
  · rw [lines, overflow]
    exact ⟨rfl, Or.inl Offset.toNat_toUInt32_limit⟩
  · have columns := ((pastLimit_iff inFile).mp past).resolve_right lines
    have line : Offset.add ((file.bytes.take offset).count newlineByte) 1 = .ok _ :=
      Offset.add_eq_ok_iff.mpr ⟨Nat.lt_of_le_of_ne (sums_le_limit inFile).1 lines, rfl⟩
    rw [columns, line, overflow]
    exact ⟨rfl, Or.inr Offset.toNat_toUInt32_limit⟩

end SourceFile

/-- The places of a file are numbers of 32 bits, but for those that are past the limit. -/
structure PlacesFit (file : SourceFile) : Prop where
  starts : file.lineStarts.toList =
    0 :: (file.bytes.idxsOf newlineByte).map fun newline => (newline + 1).toUInt32.toNat
  index : ∀ offset ≤ file.size,
    (LineTable.indexAt file.lineStarts offset).toUInt32.toNat
      = LineTable.indexAt file.lineStarts offset
  place : ∀ offset ≤ file.size, ¬ file.PastLimit offset →
    file.lineColumn offset = .ok (file.wrappedPlace offset) ∧
    file.wrappedPlace offset =
      { line := (file.bytes.take offset).count newlineByte + 1
        column := offset - lineStartBefore file.bytes offset + 1 }
  overflow : ∀ offset ≤ file.size, file.PastLimit offset →
    file.lineColumn offset = .error .additionOverflow ∧
      ((file.wrappedPlace offset).line = 0 ∨ (file.wrappedPlace offset).column = 0)

/-- The places of every file fit as far as they are not past the limit. -/
theorem SourceFile.placesFit (file : SourceFile) : PlacesFit file where
  starts := by
    rw [lineStarts_eq_cons]
    refine congrArg (0 :: ·) (List.map_congr_left fun newline listed => ?_)
    have start : newline + 1 ∈ file.lineStarts.toList := by
      rw [lineStarts_eq_cons]
      exact List.mem_cons_of_mem _ (List.mem_map_of_mem listed)
    have fits := Nat.le_trans (le_size_of_mem_lineStarts start) file.size_le
    exact (Offset.toNat_toUInt32 fits).symm
  index offset inFile := by
    rw [indexAt_lineStarts inFile]
    exact Offset.toNat_toUInt32 (sums_le_limit inFile).1
  place _ inFile within := lineColumn_of_not_pastLimit inFile within
  overflow _ inFile past := lineColumn_of_pastLimit inFile past

/-! ### Accepted texts -/

/-- A handle leads to the places of its file. -/
theorem SourceMap.lineColumn_of_known {sources : SourceMap} {id : FileId} {file : SourceFile}
    (known : sources.get? id = some file) (offset : Nat) :
    sources.lineColumn id offset = file.lineColumn offset := by
  simp only [lineColumn, tryLineColumn, known]
  cases file.lineColumn offset with
  | error fault => rfl
  | ok place => rfl

/-- An accepted text can be found under its handle. -/
theorem SourceMap.exists_file_of_accepted {sources sources' : SourceMap} {id : FileId}
    {name text : String} (accepted : sources.tryAddFile name text = .ok (.ok (id, sources'))) :
    ∃ file, sources'.get? id = some file ∧ file.text = text := by
  rcases sources.tryAddFile_cases name text
    with ⟨-, refused⟩ | ⟨-, -, file, -, known, registered⟩ | ⟨-, -, stopped⟩
  · rw [refused] at accepted
    cases accepted
  · rw [registered] at accepted
    cases accepted
    refine ⟨file, ?_, known⟩
    simp [get?, size]
  · rw [stopped] at accepted
    cases accepted

/-- Every place of an accepted text fits into 32 bits, line, column and start of the line, unless
    the text is as large as the limit allows and has one line only, or newlines only: then there is
    no place for the offset behind its last byte. -/
theorem accepted_places_fit (sources sources' : SourceMap) (id : FileId) (name text : String)
    (accepted : sources.tryAddFile name text = .ok (.ok (id, sources'))) :
    ∃ file, sources'.get? id = some file ∧ file.text = text ∧ PlacesFit file ∧
      ∀ offset, sources'.lineColumn id offset = file.lineColumn offset := by
  obtain ⟨file, known, same⟩ := SourceMap.exists_file_of_accepted accepted
  exact ⟨file, known, same, file.placesFit, SourceMap.lineColumn_of_known known⟩

theorem accepted_places_fit_lines :
    SourceMap.empty.tryAddFile linesFile.name linesFile.text
        = .ok (.ok (⟨0⟩, { files := #[linesFile] })) ∧
      ∃ file, ({ files := #[linesFile] } : SourceMap).get? ⟨0⟩ = some file ∧
        file.text = linesFile.text ∧ PlacesFit file ∧
        ∀ offset, ({ files := #[linesFile] } : SourceMap).lineColumn ⟨0⟩ offset
          = file.lineColumn offset :=
  have accepted : SourceMap.empty.tryAddFile linesFile.name linesFile.text
      = .ok (.ok (⟨0⟩, { files := #[linesFile] })) := rfl
  ⟨accepted, accepted_places_fit _ _ _ _ _ accepted⟩

/-! ### Texts up to the limit -/

/-- The bytes of a repeated character are those of the character. -/
theorem Text.mem_bytes_repeated {count : Nat} {c : Char} {byte : UInt8}
    (member : byte ∈ bytes (repeated count c)) : byte ∈ String.utf8EncodeChar c := by
  rw [repeated, bytes_ofList, encode] at member
  obtain ⟨other, repeated, inside⟩ := List.mem_flatMap.mp member
  rwa [List.eq_of_mem_replicate repeated] at inside

theorem Text.utf8ByteSize_repeated {c : Char} (single : c.utf8Size = 1) (count : Nat) :
    (repeated count c).utf8ByteSize = count := by
  rw [repeated, Text.utf8ByteSize_ofList]
  induction count with
  | zero => rfl
  | succ count ih => rw [List.replicate_succ, Text.utf8Size_cons, single, ih, Nat.add_comm]

/-- A text of one-byte characters, all the same, is accepted up to the limit, and then there is no
    place for its end. -/
theorem SourceMap.exists_repeated_overflow {c : Char} (single : c.utf8Size = 1)
    (same : c ≠ '\n' ∨ String.utf8EncodeChar c = [newlineByte]) :
    ∃ sources', SourceMap.empty.tryAddFile "a" (Text.repeated Offset.limit c)
        = .ok (.ok (⟨0⟩, sources')) ∧
      sources'.lineColumn ⟨0⟩ Offset.limit = .error .additionOverflow := by
  have size := Text.utf8ByteSize_repeated single Offset.limit
  rcases SourceMap.empty.tryAddFile_cases "a" (Text.repeated Offset.limit c)
    with ⟨large, -⟩ | ⟨-, -, file, -, known, registered⟩ | ⟨-, full, -⟩
  · rw [size] at large
    exact absurd large (Nat.lt_irrefl _)
  · refine ⟨_, registered, ?_⟩
    have found : SourceMap.get? { files := SourceMap.empty.files.push file } ⟨0⟩ = some file := rfl
    rw [lineColumn_of_known found]
    have inFile : Offset.limit ≤ file.size := by
      rw [SourceFile.size, known, size]
    refine (SourceFile.lineColumn_of_pastLimit inFile ⟨rfl, ?_⟩).1
    rw [SourceFile.bytes, known]
    rcases same with other | newline
    · exact Or.inl fun member =>
        Text.newlineByte_not_mem other (Text.mem_bytes_repeated member)
    · refine Or.inr fun byte member => List.mem_singleton.mp ?_
      rw [← newline]
      exact Text.mem_bytes_repeated member
  · exact absurd full (Nat.not_lt_zero _)

/-- The largest file of one line, and the largest file of newlines, have no place for their ends. -/
theorem largest_files_overflow :
    (∃ sources, SourceMap.empty.tryAddFile "a" (Text.repeated Offset.limit 'a')
        = .ok (.ok (⟨0⟩, sources)) ∧
      sources.lineColumn ⟨0⟩ Offset.limit = .error .additionOverflow) ∧
    ∃ sources, SourceMap.empty.tryAddFile "a" (Text.repeated Offset.limit '\n')
        = .ok (.ok (⟨0⟩, sources)) ∧
      sources.lineColumn ⟨0⟩ Offset.limit = .error .additionOverflow :=
  ⟨SourceMap.exists_repeated_overflow rfl (Or.inl (by decide)),
    SourceMap.exists_repeated_overflow rfl (Or.inr rfl)⟩

end FrontEnd
