/-
Module: FrontEnd.Proofs.LineRebuilding
Layer: Proofs
Purpose: Files put together again from their lines. Each line has a text without newlines, and the
  texts with their terminators are the text of the file. A carriage return at the end of a file
  counts as a terminator there, though no newline follows it, so without it such a file cannot be
  put together.
Imports: FrontEnd.Proofs.SourceLines
Trusted boundary: none
Main exports: SourceFile.getD_lineText?_of_isLine, SourceFile.linesFrom, SourceFile.RebuiltWith,
  LinesRebuild, file_lines_rebuild
Open obligations: none
-/
import FrontEnd.Proofs.SourceLines

namespace FrontEnd

open Text (utf8Size)

namespace SourceFile

/-! ### Texts of lines -/

variable {file : SourceFile}

/-- A number is that of a line with a start if and only if it is one of the lines of the file. -/
theorem isSome_lineStart?_iff {line : Nat} (numbered : line ≤ Offset.limit) :
    (file.lineStart? line).isSome ↔ 1 ≤ line ∧ line ≤ file.lineCount := by
  cases line with
  | zero =>
      simp [lineStart?]
  | succ index =>
      have listed : (file.lineStart? (index + 1)).isSome = true ↔ index < file.lineCount := by
        rw [lineStart?, if_pos numbered]
        simp [lineCount]
      rw [listed]
      omega

/-- The line has a text in the same case. -/
theorem isSome_lineText?_iff {line : Nat} (numbered : line ≤ Offset.limit) :
    (file.lineText? line).isSome ↔ 1 ≤ line ∧ line ≤ file.lineCount := by
  rw [← isSome_lineStart?_iff numbered]
  constructor
  · intro text
    cases start : file.lineStart? line with
    | none => simp [lineText?, start] at text
    | some _ => rfl
  · intro start
    obtain ⟨start, known⟩ := Option.isSome_iff_exists.mp start
    obtain ⟨text, shown⟩ := exists_lineText? known
    rw [shown]
    rfl

/-- What is shown of a line is its text. A line behind so many newlines that there is no number for
    it has no text, but then it is empty. -/
theorem getD_lineText?_of_isLine {above line : List Char} {ending : LineEnd}
    (isLine : IsLine file.text.toList above line ending) :
    (file.lineText? (above.count '\n' + 1)).getD [] = ending.shown line := by
  by_cases numbered : above.count '\n' < Offset.limit
  · rw [lineText?_of_isLine isLine numbered, Option.getD_some]
  · have unnumbered : file.lineText? (above.count '\n' + 1) = none := by
      rw [lineText?, lineStart?, if_neg (by omega)]
      rfl
    obtain ⟨below, split, -⟩ := isLine.split
    have size := file.size_eq
    have limit : file.size ≤ Offset.limit := file.size_le
    have lines := Text.count_le_utf8Size '\n' above
    rw [split, Text.utf8Size_append, Text.utf8Size_append] at size
    obtain rfl : line = [] := by
      by_contra filled
      have := Text.utf8Size_pos filled
      omega
    rw [unnumbered, LineEnd.shown]
    split
    · rfl
    · rfl

/-! ### Lines with terminators -/

/-- The texts of the lines from a number on, each with a terminator behind it. A line past the last
    number counts as empty. -/
def linesFrom (file : SourceFile) : Nat → List (List Char) → List Char
  | _, [] => []
  | line, terminator :: terminators =>
      (file.lineText? line).getD [] ++ terminator ++ linesFrom file (line + 1) terminators

/-- The text of the file is that of its lines with a newline, or a carriage return and a newline,
    behind each line but the last, and with the given terminator behind the last. -/
def RebuiltWith (file : SourceFile) (last : List Char) : Prop :=
  ∃ terminators : List (List Char), terminators.length + 1 = file.lineCount ∧
    (∀ terminator ∈ terminators, terminator = ['\n'] ∨ terminator = ['\r', '\n']) ∧
    file.text.toList = file.linesFrom 1 (terminators ++ [last])

/-- What `lineText?` takes for the terminator of the last line. -/
def lastTerminator (text : List Char) : List Char :=
  if text.getLast? = some '\r' then ['\r'] else []

theorem stripReturn_append_lastTerminator (line : List Char) :
    stripReturn line ++ lastTerminator line = line := by
  unfold lastTerminator
  split
  · rename_i last
    exact (stripReturn_of_last last).symm
  · rename_i other
    rw [stripReturn_eq_self other, List.append_nil]

/-- It is not looked for above the last line. -/
theorem lastTerminator_append {above below : List Char} (opens : OpensLine above) :
    lastTerminator (above ++ below) = lastTerminator below := by
  rcases opens with rfl | ⟨earlier, rfl⟩
  · rfl
  · unfold lastTerminator
    rw [List.getLast?_append, List.getLast?_concat]
    cases below.getLast? with
    | none => rfl
    | some last => rfl

/-- A file has one more line than newlines. -/
theorem lineCount_eq (file : SourceFile) :
    file.lineCount = file.text.toList.count '\n' + 1 := by
  rw [lineCount, file.lineStarts_eq, LineTable.starts, List.size_toArray, List.length_cons,
    LineTable.length_startsAfter]

/-- All lines of a file have numbers, unless the file is made of as many newlines as the limit
    says. -/
theorem lineCount_le_limit_or (file : SourceFile) :
    file.lineCount ≤ Offset.limit ∨ file.text.toList = List.replicate Offset.limit '\n' := by
  have size := file.size_eq
  have limit : file.size ≤ Offset.limit := file.size_le
  have lines : file.text.toList.count '\n' ≤ file.text.toList.length := List.count_le_length
  have length := Text.length_le_utf8Size file.text.toList
  rw [lineCount_eq]
  by_cases numbered : file.text.toList.count '\n' < Offset.limit
  · exact Or.inl numbered
  · right
    have all : file.text.toList.count '\n' = file.text.toList.length := by omega
    refine List.eq_replicate_iff.mpr ⟨by omega, fun c member => ?_⟩
    exact (List.count_eq_length.mp all c member).symm

/-- A line that is not the last one, with its terminator: a newline is at the end of it and nowhere
    else. -/
theorem exists_terminated {line : List Char} {ending : LineEnd} (inside : '\n' ∉ line)
    (more : ending ≠ .endOfText) :
    (ending.text = ['\n'] ∨ ending.text = ['\r', '\n']) ∧ OpensLine (line ++ ending.text) ∧
      (line ++ ending.text).count '\n' = 1 := by
  have none : line.count '\n' = 0 := List.count_eq_zero_of_not_mem inside
  cases ending with
  | newline =>
      exact ⟨Or.inl rfl, Or.inr ⟨line, rfl⟩, by rw [List.count_append, none]; rfl⟩
  | returnNewline =>
      exact ⟨Or.inr rfl, Or.inr ⟨line ++ ['\r'], by simp [LineEnd.text]⟩,
        by rw [List.count_append, none]; rfl⟩
  | endOfText =>
      exact absurd rfl more

/-- The rest of a file from the start of a line on is made of its lines and terminators. -/
theorem exists_terminators {above rest : List Char} (split : file.text.toList = above ++ rest)
    (opens : OpensLine above) :
    ∃ terminators : List (List Char), terminators.length = rest.count '\n' ∧
      (∀ terminator ∈ terminators, terminator = ['\n'] ∨ terminator = ['\r', '\n']) ∧
      rest = file.linesFrom (above.count '\n' + 1) (terminators ++ [lastTerminator rest]) := by
  -- Each step takes one line with its terminator off the rest.
  induction size : rest.length using Nat.strong_induction_on generalizing above rest with
  | _ length ih =>
      obtain ⟨line, ending, below, rfl, inside, noReturn, last⟩ := exists_lineEnd rest
      have shown := getD_lineText?_of_isLine ⟨opens, ⟨below, split, last⟩, inside, noReturn⟩
      by_cases ends : ending = .endOfText
      · subst ends
        rw [last rfl]
        refine ⟨[], ?_, List.forall_mem_nil _, ?_⟩
        · simp [LineEnd.text, List.count_eq_zero_of_not_mem inside]
        · simp [linesFrom, shown, LineEnd.shown, LineEnd.text, stripReturn_append_lastTerminator]
      · obtain ⟨known, opensBelow, one⟩ := exists_terminated inside ends
        rw [← List.append_assoc] at size ⊢
        have shorter : below.length < length := by
          have filled := List.count_pos_iff.mp (Nat.lt_of_lt_of_eq Nat.one_pos one.symm)
          have positive := List.length_pos_of_mem filled
          rw [← size, List.length_append]
          omega
        have splitBelow : file.text.toList = above ++ (line ++ ending.text) ++ below := by
          simp [split]
        obtain ⟨terminators, count, all, rebuilt⟩ :=
          ih below.length shorter splitBelow (opens.append opensBelow) rfl
        rw [List.count_append, one] at rebuilt
        refine ⟨ending.text :: terminators, ?_, ?_, ?_⟩
        · rw [List.length_cons, count, List.count_append, one, Nat.add_comm]
        · rintro terminator (_ | ⟨_, member⟩)
          · exact known
          · exact all terminator member
        · rw [lastTerminator_append opensBelow, List.cons_append, linesFrom, ← rebuilt, shown,
            LineEnd.shown, if_neg ends]

/-- The last line has the text behind the last newline, without a carriage return at its end. -/
theorem exists_lastLine (file : SourceFile) :
    ∃ above line, file.text.toList = above ++ line ∧ OpensLine above ∧ '\n' ∉ line ∧
      (file.lineText? file.lineCount).getD [] = stripReturn line := by
  obtain ⟨above, line, split, opens, inside⟩ := exists_opensLine file.text.toList
  have isLine : IsLine file.text.toList above line .endOfText :=
    ⟨opens, ⟨[], by simp [split, LineEnd.text], fun _ => rfl⟩, inside, nofun⟩
  have shown := getD_lineText?_of_isLine isLine
  rw [← count_newline_append inside, ← split, ← lineCount_eq] at shown
  exact ⟨above, line, split, opens, inside, shown⟩

/-- Where the last line begins can be told from the text. -/
theorem lastLine_unique {above above' line line' : List Char} (opens : OpensLine above)
    (opens' : OpensLine above') (inside : '\n' ∉ line) (inside' : '\n' ∉ line')
    (same : above ++ line = above' ++ line') : line = line' := by
  -- Read from its end, the last line is the run of characters up to a newline.
  have run {line : List Char} (inside : '\n' ∉ line) :
      ∀ c ∈ line.reverse, decide (c ≠ '\n') = true := by
    intro c member
    rw [decide_eq_true_eq]
    rintro rfl
    exact inside (List.mem_reverse.mp member)
  have stop {above : List Char} (opens : OpensLine above) :
      ∀ c ∈ above.reverse.head?, decide (c ≠ '\n') = false := by
    rcases opens with rfl | ⟨earlier, rfl⟩
    · simp
    · simp
  have reversed := congrArg List.reverse same
  rw [List.reverse_append, List.reverse_append] at reversed
  have lines := Text.append_inj_of_stop (run inside) (run inside') (stop opens) (stop opens')
    reversed
  exact List.reverse_inj.mp lines.1

theorem linesFrom_concat (file : SourceFile) (line : Nat) (terminators : List (List Char))
    (last : List Char) :
    file.linesFrom line (terminators ++ [last]) =
      file.linesFrom line terminators
        ++ ((file.lineText? (line + terminators.length)).getD [] ++ last) := by
  induction terminators generalizing line with
  | nil =>
      simp [linesFrom]
  | cons terminator terminators ih =>
      have next : line + (terminators.length + 1) = line + 1 + terminators.length := by omega
      rw [List.cons_append, linesFrom, ih, linesFrom, List.length_cons, next]
      simp only [List.append_assoc]

/-- Behind lines that are all terminated a line starts. -/
theorem opensLine_linesFrom (file : SourceFile) (line : Nat) {terminators : List (List Char)}
    (all : ∀ terminator ∈ terminators, terminator = ['\n'] ∨ terminator = ['\r', '\n']) :
    OpensLine (file.linesFrom line terminators) := by
  induction terminators generalizing line with
  | nil =>
      exact Or.inl rfl
  | cons terminator terminators ih =>
      have rest := ih (line + 1) fun other member => all other (List.mem_cons_of_mem _ member)
      refine OpensLine.append ?_ rest
      rcases all terminator (List.mem_cons_self ..) with rfl | rfl
      · exact Or.inr ⟨_, rfl⟩
      · exact Or.inr ⟨(file.lineText? line).getD [] ++ ['\r'], by simp⟩

/-- Every file is its lines with their terminators, if a carriage return at its end is one. -/
theorem rebuiltWith_lastTerminator (file : SourceFile) :
    file.RebuiltWith (lastTerminator file.text.toList) := by
  obtain ⟨terminators, count, all, rebuilt⟩ :=
    @exists_terminators file [] file.text.toList rfl (Or.inl rfl)
  exact ⟨terminators, by rw [count, lineCount_eq], all, rebuilt⟩

/-- Without a terminator behind the last line, these are the files that do not end with a carriage
    return. -/
theorem rebuiltWith_nil_iff (file : SourceFile) :
    file.RebuiltWith [] ↔ file.text.toList.getLast? ≠ some '\r' := by
  constructor
  · rintro ⟨terminators, count, all, rebuilt⟩ ends
    obtain ⟨above, line, split, opens, inside, shown⟩ := file.exists_lastLine
    rw [linesFrom_concat, Nat.add_comm 1, count, shown, List.append_nil, split] at rebuilt
    have insideShown : '\n' ∉ stripReturn line :=
      fun member => inside ((stripReturn_sublist line).subset member)
    have same := lastLine_unique opens (file.opensLine_linesFrom 1 all) inside insideShown rebuilt
    -- The carriage return belongs to the last line, and the text of the line is without it.
    have last : lastTerminator (above ++ line) = lastTerminator line := lastTerminator_append opens
    rw [← split, lastTerminator, if_pos ends] at last
    have whole := stripReturn_append_lastTerminator line
    rw [← last, ← same] at whole
    simp at whole
  · intro other
    have rebuilt := file.rebuiltWith_lastTerminator
    rwa [lastTerminator, if_neg other] at rebuilt

end SourceFile

/-- The lines of a file: which numbers they have, what their texts are, and how they make up the
    text of the file. -/
structure LinesRebuild (file : SourceFile) : Prop where
  numbers : ∀ line ≤ Offset.limit,
    ((file.lineText? line).isSome ↔ 1 ≤ line ∧ line ≤ file.lineCount)
  /-- Only the last, empty line of the largest file of newlines has no number. -/
  numbered : file.lineCount ≤ Offset.limit ∨
    file.text.toList = List.replicate Offset.limit '\n'
  inside : ∀ line text, file.lineText? line = some text → '\n' ∉ text
  rebuilt : file.RebuiltWith (SourceFile.lastTerminator file.text.toList)
  lossless : file.RebuiltWith [] ↔ file.text.toList.getLast? ≠ some '\r'

/-- Lines make up their file: the lines of every file have texts without newlines, and these with
    their terminators are the text of the file. The last line is without terminator, and nothing is
    lost, if and only if the file does not end with a carriage return; if it does, just this
    character is missing. -/
theorem file_lines_rebuild (file : SourceFile) : LinesRebuild file where
  numbers _ := SourceFile.isSome_lineText?_iff
  numbered := file.lineCount_le_limit_or
  inside _ _ := SourceFile.newline_not_mem_of_lineText?
  rebuilt := file.rebuiltWith_lastTerminator
  lossless := file.rebuiltWith_nil_iff

/-- A file of a carriage return, which no newline follows. -/
def lonelyReturnFile : SourceFile where
  name := "a"
  text := "\r"
  lineStarts := #[0]
  lineStarts_eq := by decide
  size_le := by decide

/-- Its only line is shown empty, so the file is lost. -/
theorem lonelyReturn_lost :
    lonelyReturnFile.lineCount = 1 ∧ lonelyReturnFile.lineText? 1 = some [] ∧
      lonelyReturnFile.text = "\r" ∧ ¬ lonelyReturnFile.RebuiltWith [] := by
  refine ⟨rfl, by decide, rfl, ?_⟩
  rw [SourceFile.rebuiltWith_nil_iff]
  decide

end FrontEnd
