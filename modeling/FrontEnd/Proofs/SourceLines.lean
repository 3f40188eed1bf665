/-
Module: FrontEnd.Proofs.SourceLines
Layer: Proofs
Purpose: Lines of a source file. The search in the table of line starts finds what a scan of the
  text finds: the line of an offset counts the newlines before it, and the column the bytes behind
  the last of them.
Imports: FrontEnd.Source.File, FrontEnd.Proofs.TextCuts
Trusted boundary: none
Main exports: LineTable.startsAfter_append, LineTable.Stands, LineTable.stands_search,
  LineTable.indexAt_eq_countP, LineTable.indexAt_eq_length, LineEnd, IsLine, exists_isLine,
  SourceFile.lineColumn_of_between, SourceFile.lineColumn_eq, SourceFile.lineStart?_eq,
  SourceFile.exists_lineText?, SourceFile.newline_not_mem_of_lineText?,
  SourceFile.lineText?_of_isLine
Open obligations: none
-/
import FrontEnd.Source.File
import FrontEnd.Proofs.TextCuts

namespace FrontEnd

open Text (utf8Size)

/-! ### Line starts -/

namespace LineTable

variable {offset : Nat} {text : List Char}

/-- The line starts of a text are those of its front and those of its back. -/
theorem startsAfter_append (offset : Nat) (front back : List Char) :
    startsAfter offset (front ++ back) =
      startsAfter offset front ++ startsAfter (offset + utf8Size front) back := by
  induction front generalizing offset with
  | nil =>
      rfl
  | cons c front ih =>
      by_cases newline : c = '\n'
      · subst newline
        have size : utf8Size ('\n' :: front) = 1 + utf8Size front := rfl
        simp only [List.cons_append, startsAfter, if_true, ih, size, Nat.add_assoc]
      · simp only [List.cons_append, startsAfter, if_neg newline, ih, Text.utf8Size_cons,
          Nat.add_assoc]

/-- There is a line start for each newline. -/
theorem length_startsAfter (offset : Nat) (text : List Char) :
    (startsAfter offset text).length = text.count '\n' := by
  induction text generalizing offset with
  | nil =>
      rfl
  | cons c text ih =>
      by_cases newline : c = '\n'
      · subst newline
        simp [startsAfter, ih]
      · simp [startsAfter, newline, ih]

/-- A text without newlines opens no line. -/
theorem startsAfter_of_not_mem (offset : Nat) (none : '\n' ∉ text) :
    startsAfter offset text = [] := by
  apply List.eq_nil_of_length_eq_zero
  rw [length_startsAfter, List.count_eq_zero_of_not_mem none]

/-- A line start stands behind the first byte of the text, and not behind its end. -/
theorem bounds_of_mem_startsAfter {start : Nat} (member : start ∈ startsAfter offset text) :
    offset < start ∧ start ≤ offset + utf8Size text := by
  induction text generalizing offset with
  | nil =>
      cases member
  | cons c text ih =>
      have filled := c.utf8Size_pos
      rw [Text.utf8Size_cons]
      by_cases newline : c = '\n'
      · subst newline
        have size : '\n'.utf8Size = 1 := rfl
        rw [startsAfter, if_pos rfl] at member
        rcases List.mem_cons.mp member with rfl | member
        · omega
        · have later := ih member
          omega
      · rw [startsAfter, if_neg newline] at member
        have later := ih member
        omega

/-- A line starts at a character boundary. -/
theorem exists_front_of_mem_startsAfter {start : Nat}
    (member : start ∈ startsAfter offset text) :
    ∃ front back, text = front ++ back ∧ offset + utf8Size front = start := by
  induction text generalizing offset with
  | nil =>
      cases member
  | cons c text ih =>
      have size : utf8Size [c] = c.utf8Size := rfl
      by_cases newline : c = '\n'
      · subst newline
        rw [startsAfter, if_pos rfl] at member
        rcases List.mem_cons.mp member with rfl | member
        · exact ⟨['\n'], text, rfl, rfl⟩
        · obtain ⟨front, back, rfl, rfl⟩ := ih member
          exact ⟨'\n' :: front, back, rfl, (Nat.add_assoc ..).symm⟩
      · rw [startsAfter, if_neg newline] at member
        obtain ⟨front, back, rfl, rfl⟩ := ih member
        exact ⟨c :: front, back, rfl, (Nat.add_assoc ..).symm⟩

/-- The line starts of a text are in order. -/
theorem pairwise_startsAfter (offset : Nat) (text : List Char) :
    (startsAfter offset text).Pairwise (· < ·) := by
  induction text generalizing offset with
  | nil =>
      exact .nil
  | cons c text ih =>
      rw [startsAfter]
      split
      · exact .cons (fun start member => (bounds_of_mem_startsAfter member).1) (ih _)
      · exact ih _

theorem pairwise_starts (text : List Char) : (starts text).toList.Pairwise (· < ·) :=
  .cons (fun _ member => (bounds_of_mem_startsAfter member).1) (pairwise_startsAfter 0 text)

/-! ### The search for a line -/

/-- Where an offset stands in a sorted list of entries: at one of them, or behind all smaller and
    before all larger ones. -/
inductive Stands (entries : List Nat) (offset : Nat) : Hit → Prop where
  | found {earlier later : List Nat} (split : entries = earlier ++ offset :: later) :
      Stands entries offset (.found earlier.length)
  | missing {earlier later : List Nat} (split : entries = earlier ++ later)
      (below : ∀ entry ∈ earlier, entry < offset) (above : ∀ entry ∈ later, offset < entry) :
      Stands entries offset (.missing earlier.length)

/-- In a sorted list, the entries around one of them are smaller before it and larger behind it. -/
theorem around_of_sorted {earlier later : List Nat} {entry : Nat}
    (sorted : (earlier ++ entry :: later).Pairwise (· < ·)) :
    (∀ other ∈ earlier, other < entry) ∧ ∀ other ∈ later, entry < other := by
  rw [List.pairwise_append, List.pairwise_cons] at sorted
  exact ⟨fun other member => sorted.2.2 other member _ (List.mem_cons_self ..), sorted.2.1.1⟩

/-- A list is cut around the entry at an index. -/
theorem around_entry {entries : List Nat} {index : Nat} (sorted : entries.Pairwise (· < ·))
    (listed : index < entries.length) :
    entries = entries.take index ++ entries[index] :: entries.drop (index + 1) ∧
      (∀ other ∈ entries.take index, other < entries[index]) ∧
      ∀ other ∈ entries.drop (index + 1), entries[index] < other := by
  have split : entries = entries.take index ++ entries[index] :: entries.drop (index + 1) := by
    rw [← List.drop_eq_getElem_cons listed, List.take_append_drop]
  rw [split] at sorted
  exact ⟨split, around_of_sorted sorted⟩

theorem exists_entry (table : Array Nat) {index : Nat} (inTable : index < table.size) :
    ∃ listed : index < table.toList.length, table[index]?.getD 0 = table.toList[index] :=
  ⟨inTable, by rw [Array.getElem?_eq_getElem inTable, Option.getD_some, Array.getElem_toList]⟩

/-- The search comes to where the offset stands, if the entries before `low` are smaller and those
    from `high` on are larger. -/
theorem stands_search_of_window {table : Array Nat} {low high : Nat}
    (sorted : table.toList.Pairwise (· < ·)) (order : low ≤ high) (inTable : high ≤ table.size)
    (below : ∀ entry ∈ table.toList.take low, entry < offset)
    (above : ∀ entry ∈ table.toList.drop high, offset < entry) :
    Stands table.toList offset (search table offset low high) := by
  -- A step leaves those entries out of the window that the middle one, by the order of the table,
  -- shows to be smaller or larger than the offset.
  induction low, high using search.induct table offset with
  | case1 low high searching middle entry less ih =>
      obtain ⟨listed, known⟩ := exists_entry table (show middle < table.size by omega)
      rw [search, if_pos searching, if_pos less]
      refine ih (by omega) inTable ?_ above
      intro other member
      rw [List.take_succ_eq_append_getElem listed, List.mem_append, List.mem_singleton] at member
      rcases member with member | rfl
      · exact Nat.lt_trans ((around_entry sorted listed).2.1 other member) (known ▸ less)
      · exact known ▸ less
  | case2 low high searching middle entry notLess less ih =>
      obtain ⟨listed, known⟩ := exists_entry table (show middle < table.size by omega)
      rw [search, if_pos searching, if_neg notLess, if_pos less]
      refine ih (by omega) (by omega) below ?_
      intro other member
      rw [List.drop_eq_getElem_cons listed, List.mem_cons] at member
      rcases member with rfl | member
      · exact known ▸ less
      · exact Nat.lt_trans (known ▸ less) ((around_entry sorted listed).2.2 other member)
  | case3 low high searching middle entry notLess notMore =>
      obtain ⟨listed, known⟩ := exists_entry table (show middle < table.size by omega)
      have same : table.toList[middle] = offset := by omega
      rw [search, if_pos searching, if_neg notLess, if_neg notMore]
      have stands := Stands.found (same ▸ (around_entry sorted listed).1)
      rwa [List.length_take_of_le (Nat.le_of_lt listed)] at stands
  | case4 low high closed =>
      obtain rfl : low = high := by omega
      rw [search, if_neg closed]
      have stands := Stands.missing (List.take_append_drop low table.toList).symm below above
      rwa [List.length_take_of_le (by rwa [Array.length_toList])] at stands

/-- A search in a sorted table comes to where the offset stands. -/
theorem stands_search {table : Array Nat} (sorted : table.toList.Pairwise (· < ·)) (offset : Nat) :
    Stands table.toList offset (search table offset 0 table.size) := by
  apply stands_search_of_window sorted (Nat.zero_le _) (Nat.le_refl _)
  · rw [List.take_zero]
    exact List.forall_mem_nil _
  · rw [← Array.length_toList, List.drop_length]
    exact List.forall_mem_nil _

theorem countP_eq_length {front back : List Nat} (atMost : ∀ entry ∈ front, entry ≤ offset)
    (above : ∀ entry ∈ back, offset < entry) :
    (front ++ back).countP (· ≤ offset) = front.length := by
  have all : front.countP (· ≤ offset) = front.length :=
    List.countP_eq_length.mpr fun entry member => decide_eq_true (atMost entry member)
  have none : back.countP (· ≤ offset) = 0 :=
    List.countP_eq_zero.mpr fun entry member => by
      rw [decide_eq_true_eq]
      exact Nat.not_le_of_lt (above entry member)
  rw [List.countP_append, all, none, Nat.add_zero]

/-- In a sorted list, the entries up to one that is at most the offset are those that are, if all
    entries behind it are above the offset. -/
theorem countP_eq_succ {earlier later : List Nat} {start : Nat}
    (sorted : (earlier ++ start :: later).Pairwise (· < ·)) (behind : start ≤ offset)
    (above : ∀ entry ∈ later, offset < entry) :
    (earlier ++ start :: later).countP (· ≤ offset) = earlier.length + 1 := by
  have before := (around_of_sorted sorted).1
  rw [List.append_cons, countP_eq_length _ above, List.length_append, List.length_singleton]
  intro entry member
  rcases List.mem_append.mp member with member | member
  · exact Nat.le_trans (Nat.le_of_lt (before entry member)) behind
  · rwa [List.mem_singleton.mp member]

/-- Whether an offset starts a line or not, its line is the last of those that start at most at the
    offset. -/
theorem indexAt_eq_countP {table : Array Nat} (sorted : table.toList.Pairwise (· < ·))
    (offset : Nat) : indexAt table offset = table.toList.countP (· ≤ offset) - 1 := by
  have stands := stands_search sorted offset
  rw [indexAt]
  generalize search table offset 0 table.size = hit at *
  cases stands with
  | found split =>
      rw [split] at sorted ⊢
      rw [countP_eq_succ sorted (Nat.le_refl offset) (around_of_sorted sorted).2,
        Nat.add_sub_cancel]
  | missing split below above =>
      rw [split, countP_eq_length (fun entry member => Nat.le_of_lt (below entry member)) above]

/-- The search finds the last line start that is at most the offset. -/
theorem indexAt_eq_length {table : Array Nat} {earlier later : List Nat} {start : Nat}
    (sorted : table.toList.Pairwise (· < ·)) (split : table.toList = earlier ++ start :: later)
    (behind : start ≤ offset) (above : ∀ entry ∈ later, offset < entry) :
    indexAt table offset = earlier.length := by
  rw [indexAt_eq_countP sorted, split]
  rw [split] at sorted
  rw [countP_eq_succ sorted behind above, Nat.add_sub_cancel]

end LineTable

/-! ### Lines -/

/-- How a line of a text ends. The last line has no terminator. -/
inductive LineEnd where
  | newline
  | returnNewline
  | endOfText
deriving DecidableEq, Repr

/-- The terminator of a line. -/
def LineEnd.text : LineEnd → List Char
  | .newline => ['\n']
  | .returnNewline => ['\r', '\n']
  | .endOfText => []

/-- A line starts behind a text that is empty or ends with a newline. -/
def OpensLine (above : List Char) : Prop :=
  above = [] ∨ ∃ earlier, above = earlier ++ ['\n']

/-- So it does behind two such texts. -/
theorem OpensLine.append {above below : List Char} (opens : OpensLine above)
    (opensBelow : OpensLine below) : OpensLine (above ++ below) := by
  rcases opensBelow with rfl | ⟨earlier, rfl⟩
  · rw [List.append_nil]
    exact opens
  · exact Or.inr ⟨above ++ earlier, (List.append_assoc ..).symm⟩

/-- A line of a text without its terminator, and what stands above it. -/
structure IsLine (text above line : List Char) (ending : LineEnd) : Prop where
  opens : OpensLine above
  split : ∃ below, text = above ++ (line ++ (ending.text ++ below)) ∧
    (ending = .endOfText → below = [])
  inside : '\n' ∉ line
  /-- A carriage return before the newline belongs to the terminator. -/
  noReturn : ending = .newline → line.getLast? ≠ some '\r'

/-- A text is cut behind its last newline. -/
theorem exists_opensLine (front : List Char) :
    ∃ above ahead, front = above ++ ahead ∧ OpensLine above ∧ '\n' ∉ ahead := by
  induction front with
  | nil =>
      exact ⟨[], [], rfl, Or.inl rfl, List.not_mem_nil⟩
  | cons c front ih =>
      obtain ⟨above, ahead, rfl, opens, inside⟩ := ih
      rcases opens with rfl | ⟨earlier, rfl⟩
      · by_cases newline : c = '\n'
        · subst newline
          exact ⟨['\n'], ahead, rfl, Or.inr ⟨[], rfl⟩, inside⟩
        · refine ⟨[], c :: ahead, rfl, Or.inl rfl, ?_⟩
          intro member
          rcases List.mem_cons.mp member with same | member
          · exact newline same.symm
          · exact inside member
      · exact ⟨c :: earlier ++ ['\n'], ahead, by simp, Or.inr ⟨c :: earlier, rfl⟩, inside⟩

/-- Within a line no newline is counted. -/
theorem count_newline_append {above ahead : List Char} (inside : '\n' ∉ ahead) :
    (above ++ ahead).count '\n' = above.count '\n' := by
  rw [List.count_append, List.count_eq_zero_of_not_mem inside, Nat.add_zero]

/-- A text begins with the rest of a line and its terminator. -/
theorem exists_lineEnd (rest : List Char) :
    ∃ behind ending below, rest = behind ++ (LineEnd.text ending ++ below) ∧ '\n' ∉ behind ∧
      (ending = .newline → behind.getLast? ≠ some '\r') ∧
      (ending = .endOfText → below = []) := by
  induction rest with
  | nil =>
      exact ⟨[], .endOfText, [], rfl, List.not_mem_nil, nofun, fun _ => rfl⟩
  | cons c rest ih =>
      by_cases newline : c = '\n'
      · subst newline
        exact ⟨[], .newline, rest, rfl, List.not_mem_nil, by simp, nofun⟩
      · obtain ⟨behind, ending, below, rfl, inside, noReturn, last⟩ := ih
        have insideCons : '\n' ∉ c :: behind := by
          intro member
          rcases List.mem_cons.mp member with same | member
          · exact newline same.symm
          · exact inside member
        by_cases alone : c = '\r' ∧ behind = [] ∧ ending = .newline
        · obtain ⟨rfl, rfl, rfl⟩ := alone
          exact ⟨[], .returnNewline, below, rfl, List.not_mem_nil, nofun, nofun⟩
        · refine ⟨c :: behind, ending, below, rfl, insideCons, ?_, last⟩
          intro plain
          cases behind with
          | nil =>
              intro found
              cases found
              exact alone ⟨rfl, rfl, plain⟩
          | cons d behind =>
              rw [List.getLast?_cons_cons]
              exact noReturn plain

/-- A character that belongs to no terminator stands in a line. -/
theorem exists_isLine {text front : List Char} {c : Char}
    (split : ∃ back, text = front ++ c :: back) (notNewline : c ≠ '\n') (notReturn : c ≠ '\r') :
    ∃ above ahead behind ending, front = above ++ ahead ∧ '\n' ∉ ahead ∧
      IsLine text above (ahead ++ c :: behind) ending := by
  obtain ⟨back, rfl⟩ := split
  obtain ⟨above, ahead, rfl, opens, insideAhead⟩ := exists_opensLine front
  obtain ⟨behind, ending, below, rfl, insideBehind, noReturn, last⟩ := exists_lineEnd back
  refine ⟨above, ahead, behind, ending, rfl, insideAhead, opens, ⟨below, by simp, last⟩, ?_, ?_⟩
  · intro member
    rcases List.mem_append.mp member with member | member
    · exact insideAhead member
    · rcases List.mem_cons.mp member with same | member
      · exact notNewline same.symm
      · exact insideBehind member
  · intro plain
    rw [List.getLast?_append]
    cases behind with
    | nil =>
        intro found
        cases found
        exact notReturn rfl
    | cons d behind =>
        rw [List.getLast?_cons_cons, List.getLast?_cons, Option.some_or, ← List.getLast?_cons]
        exact noReturn plain

/-! ### Lines of a file -/

namespace SourceFile

variable {file : SourceFile} {above ahead front back rest : List Char}

/-- The size of a file is that of its characters. -/
theorem size_eq (file : SourceFile) : file.size = utf8Size file.text.toList :=
  Text.utf8ByteSize_eq file.text

/-- The line starts of a file are those above a line, the start of the line, and those that the
    text behind it opens. -/
theorem lineStarts_split (split : file.text.toList = above ++ rest) (opens : OpensLine above) :
    ∃ earlier : List Nat,
      file.lineStarts.toList =
        earlier ++ utf8Size above :: LineTable.startsAfter (utf8Size above) rest ∧
      earlier.length = above.count '\n' := by
  have starts : file.lineStarts.toList =
      (0 :: LineTable.startsAfter 0 above) ++ LineTable.startsAfter (utf8Size above) rest := by
    rw [file.lineStarts_eq, LineTable.starts, split, LineTable.startsAfter_append, Nat.zero_add]
    rfl
  rcases opens with rfl | ⟨earlier, rfl⟩
  · exact ⟨[], starts, rfl⟩
  · have last : LineTable.startsAfter 0 (earlier ++ ['\n'])
        = LineTable.startsAfter 0 earlier ++ [utf8Size (earlier ++ ['\n'])] := by
      rw [LineTable.startsAfter_append, Nat.zero_add, Text.utf8Size_append]
      rfl
    refine ⟨0 :: LineTable.startsAfter 0 earlier, ?_, ?_⟩
    · simp [starts, last]
    · simp [LineTable.length_startsAfter, List.count_append]

theorem lineStarts_pairwise (file : SourceFile) : file.lineStarts.toList.Pairwise (· < ·) := by
  rw [file.lineStarts_eq]
  exact LineTable.pairwise_starts file.text.toList

/-- The entry for a line in the table is where the line starts. -/
theorem getElem?_lineStarts (split : file.text.toList = above ++ rest) (opens : OpensLine above) :
    file.lineStarts[above.count '\n']? = some (utf8Size above) := by
  obtain ⟨earlier, starts, count⟩ := lineStarts_split split opens
  rw [← Array.getElem?_toList, starts, ← count]
  simp

/-- Lines are counted from one, as far as there are numbers for them. -/
theorem lineStart?_eq (split : file.text.toList = above ++ rest) (opens : OpensLine above)
    (numbered : above.count '\n' < Offset.limit) :
    file.lineStart? (above.count '\n' + 1) = some (utf8Size above) := by
  rw [lineStart?, if_pos (Nat.succ_le_of_lt numbered)]
  exact getElem?_lineStarts split opens

/-- The place of an offset that lies between two neighbours in the table of line starts, or behind
    the last entry: line and column are counted from one, and either sum can pass the limit. -/
theorem lineColumn_of_between {offset start : Nat} {earlier later : List Nat}
    (split : file.lineStarts.toList = earlier ++ start :: later) (behind : start ≤ offset)
    (above : ∀ entry ∈ later, offset < entry) (inFile : offset ≤ file.size) :
    file.lineColumn offset = do
      let line ← Offset.add earlier.length 1
      let column ← Offset.add (offset - start) 1
      return { line, column } := by
  have index : LineTable.indexAt file.lineStarts offset = earlier.length :=
    LineTable.indexAt_eq_length file.lineStarts_pairwise split behind above
  have entry : file.lineStarts[earlier.length]? = some start := by
    rw [← Array.getElem?_toList, split]
    simp
  have distance : Offset.sub offset start = .ok (offset - start) :=
    Offset.sub_eq_ok_iff.mpr ⟨behind, rfl⟩
  simp only [lineColumn, if_neg (Nat.not_lt_of_le inFile), index, entry, Option.getD_some,
    distance, bind, Except.bind, pure, Except.pure]

/-- Before the limit no sum passes it. -/
theorem lineColumn_of_between_of_short {offset start : Nat} {earlier later : List Nat}
    (split : file.lineStarts.toList = earlier ++ start :: later) (behind : start ≤ offset)
    (above : ∀ entry ∈ later, offset < entry) (inFile : offset ≤ file.size)
    (lines : earlier.length < Offset.limit) (short : offset < Offset.limit) :
    file.lineColumn offset =
      .ok { line := earlier.length + 1, column := offset - start + 1 } := by
  have line : Offset.add earlier.length 1 = .ok (earlier.length + 1) :=
    Offset.add_eq_ok_iff.mpr ⟨lines, rfl⟩
  have column : Offset.add (offset - start) 1 = .ok (offset - start + 1) :=
    Offset.add_eq_ok_iff.mpr ⟨by omega, rfl⟩
  rw [lineColumn_of_between split behind above inFile, line, column]
  rfl

/-- The place of an offset before the limit: its line is one more than the newlines before it, and
    its column one more than the bytes between the start of the line and the offset. -/
theorem lineColumn_eq (split : file.text.toList = above ++ ahead ++ back)
    (opens : OpensLine above) (inside : '\n' ∉ ahead)
    (short : utf8Size (above ++ ahead) < Offset.limit) :
    file.lineColumn (utf8Size (above ++ ahead)) =
      .ok { line := above.count '\n' + 1, column := utf8Size ahead + 1 } := by
  have size := file.size_eq
  rw [split, Text.utf8Size_append] at size
  rw [List.append_assoc] at split
  obtain ⟨earlier, starts, count⟩ := lineStarts_split split opens
  have lines := Text.count_le_utf8Size '\n' above
  have within : utf8Size above ≤ utf8Size (above ++ ahead) := by
    rw [Text.utf8Size_append]
    exact Nat.le_add_right _ _
  have none := LineTable.startsAfter_of_not_mem (utf8Size above) inside
  rw [LineTable.startsAfter_append, none, List.nil_append, ← Text.utf8Size_append] at starts
  have place := lineColumn_of_between_of_short starts within
    (fun entry member => (LineTable.bounds_of_mem_startsAfter member).1) (by omega) (by omega)
    short
  rw [place, count, Text.utf8Size_append, Nat.add_sub_cancel_left]

/-- The text of a line, taken from where the line starts. -/
theorem lineText?_eq (split : file.text.toList = above ++ rest) (opens : OpensLine above)
    (numbered : above.count '\n' < Offset.limit) :
    file.lineText? (above.count '\n' + 1) = some (stripReturn (rest.takeWhile (· ≠ '\n'))) := by
  simp only [lineText?, lineStart?_eq split opens numbered, split, Text.cut?_append,
    Option.bind_eq_bind, Option.bind_some]
  rfl

theorem mem_lineStarts_of_lineStart? {line start : Nat}
    (known : file.lineStart? line = some start) :
    start ∈ file.lineStarts.toList := by
  cases line with
  | zero =>
      cases known
  | succ index =>
      rw [lineStart?, ← Array.getElem?_toList, Option.ite_none_right_eq_some] at known
      exact List.mem_of_getElem? known.2

/-- A line that has a start has a text. -/
theorem exists_lineText? {line start : Nat}
    (known : file.lineStart? line = some start) :
    ∃ text, file.lineText? line = some text := by
  have listed := mem_lineStarts_of_lineStart? known
  rw [file.lineStarts_eq] at listed
  obtain ⟨front, back, split, rfl⟩ :
      ∃ front back, file.text.toList = front ++ back ∧ utf8Size front = start := by
    rcases List.mem_cons.mp listed with rfl | member
    · exact ⟨[], _, rfl, rfl⟩
    · simpa using LineTable.exists_front_of_mem_startsAfter member
  refine ⟨stripReturn (back.takeWhile (· ≠ '\n')), ?_⟩
  simp only [lineText?, known, split, Text.cut?_append, Option.bind_eq_bind, Option.bind_some]
  rfl

/-- A carriage return at the end of a line is stripped, and only there. -/
theorem stripReturn_append_cons {c : Char} {behind : List Char} (other : c ≠ '\r') :
    stripReturn (ahead ++ c :: behind) = ahead ++ c :: stripReturn behind := by
  unfold stripReturn
  cases behind with
  | nil =>
      simp [other]
  | cons d behind =>
      have last : (ahead ++ c :: d :: behind).getLast? = (d :: behind).getLast? := by
        rw [List.getLast?_append, List.getLast?_cons_cons, List.getLast?_cons, Option.some_or]
      have init : (ahead ++ c :: d :: behind).dropLast = ahead ++ c :: (d :: behind).dropLast := by
        rw [List.dropLast_append_of_ne_nil (List.cons_ne_nil _ _), List.dropLast_cons_cons]
      rw [last, init]
      split <;> rfl

theorem stripReturn_of_last {line : List Char} (last : line.getLast? = some '\r') :
    line = stripReturn line ++ ['\r'] := by
  obtain ⟨init, rfl⟩ := List.getLast?_eq_some_iff.mp last
  rw [stripReturn, if_pos last, List.dropLast_concat]

theorem stripReturn_eq_self {line : List Char} (other : line.getLast? ≠ some '\r') :
    stripReturn line = line :=
  if_neg other

theorem stripReturn_sublist (line : List Char) : (stripReturn line).Sublist line := by
  unfold stripReturn
  split
  · exact List.dropLast_sublist line
  · exact List.Sublist.refl line

/-- There is no newline in the text of a line. -/
theorem newline_not_mem_of_lineText? {line : Nat} {text : List Char}
    (shown : file.lineText? line = some text) : '\n' ∉ text := by
  simp only [lineText?, Option.bind_eq_bind, Option.bind_eq_some_iff] at shown
  obtain ⟨start, -, ⟨passed, rest⟩, -, stripped⟩ := shown
  cases stripped
  intro member
  have taken := List.mem_takeWhile_imp ((stripReturn_sublist _).subset member)
  simp at taken

end SourceFile

/-- What is shown of a line that ends in a certain way. -/
def LineEnd.shown (ending : LineEnd) (line : List Char) : List Char :=
  if ending = .endOfText then SourceFile.stripReturn line else line

namespace LineEnd

variable {ending : LineEnd} {line : List Char}

/-- All of a line is shown, unless it is the last line and ends with a carriage return. -/
theorem shown_eq_self_iff :
    ending.shown line = line ↔ ¬ (ending = .endOfText ∧ line.getLast? = some '\r') := by
  unfold shown
  constructor
  · rintro same ⟨last, found⟩
    rw [if_pos last] at same
    have longer := congrArg List.length (SourceFile.stripReturn_of_last found)
    rw [same, List.length_append] at longer
    simp at longer
  · intro other
    split
    · rename_i last
      exact SourceFile.stripReturn_eq_self fun found => other ⟨last, found⟩
    · rfl

/-- In that case only the carriage return is missing. -/
theorem eq_shown_append (last : ending = .endOfText) (found : line.getLast? = some '\r') :
    line = ending.shown line ++ ['\r'] := by
  rw [shown, if_pos last]
  exact SourceFile.stripReturn_of_last found

theorem shown_append_cons {ahead behind : List Char} {c : Char} (other : c ≠ '\r') :
    ending.shown (ahead ++ c :: behind) = ahead ++ c :: ending.shown behind := by
  unfold shown
  split
  · exact SourceFile.stripReturn_append_cons other
  · rfl

end LineEnd

/-- The text of a line is what is shown of it. -/
theorem SourceFile.lineText?_of_isLine {file : SourceFile} {above line : List Char}
    {ending : LineEnd} (isLine : IsLine file.text.toList above line ending)
    (numbered : above.count '\n' < Offset.limit) :
    file.lineText? (above.count '\n' + 1) = some (ending.shown line) := by
  obtain ⟨below, split, last⟩ := isLine.split
  have inside : ∀ c ∈ line, decide (c ≠ '\n') = true := by
    intro c member
    rw [decide_eq_true_eq]
    rintro rfl
    exact isLine.inside member
  rw [lineText?_eq split isLine.opens numbered, List.takeWhile_append_of_pos inside]
  cases ending with
  | newline =>
      have taken : (LineEnd.newline.text ++ below).takeWhile (· ≠ '\n') = [] := rfl
      rw [taken, List.append_nil, stripReturn_eq_self (isLine.noReturn rfl)]
      rfl
  | returnNewline =>
      have taken : (LineEnd.returnNewline.text ++ below).takeWhile (· ≠ '\n') = ['\r'] := rfl
      rw [taken, stripReturn, if_pos List.getLast?_concat, List.dropLast_concat]
      rfl
  | endOfText =>
      rw [last rfl]
      have taken : (LineEnd.endOfText.text ++ []).takeWhile (· ≠ '\n') = [] := rfl
      rw [taken, List.append_nil]
      rfl

end FrontEnd
