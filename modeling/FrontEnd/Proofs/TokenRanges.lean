/-
Module: FrontEnd.Proofs.TokenRanges
Layer: Proofs
Purpose: Ranges of tokens by themselves. The tokens from an offset on are those of the text behind
  the offset, unless the offset lies in the middle of a token; and the tokens up to the end of one
  of them are those of the text before this end. So any part of a text that begins and ends with a
  token can be lexed alone.
Imports: FrontEnd.Proofs.RunTransport, FrontEnd.Proofs.LeadBytes
Trusted boundary: none
Main exports: Between, Run.exists_behind, Run.exists_part, Run.exists_range, StandsAlone,
  LeftAlone, lex_ranges_alone
Open obligations: none
-/
import FrontEnd.Proofs.RunTransport
import FrontEnd.Proofs.LeadBytes

namespace FrontEnd

open Lexer (isBlank)
open Text (utf8Size)

/-! ### Cuts within blanks -/

theorem Lexer.utf8Size_of_isBlank {c : Char} (blank : isBlank c = true) : c.utf8Size = 1 := by
  apply Text.utf8Size_of_ascii
  rw [isBlank_iff] at blank
  omega

/-- Blanks can be cut at any byte. -/
theorem exists_blank_cut {blanks : List Char} {count : Nat}
    (blank : ∀ c ∈ blanks, isBlank c = true) (within : count ≤ utf8Size blanks) :
    ∃ front back, blanks = front ++ back ∧ utf8Size front = count := by
  induction blanks generalizing count with
  | nil =>
      exact ⟨[], [], rfl, (Nat.le_zero.mp within).symm⟩
  | cons c blanks ih =>
      have one : c.utf8Size = 1 := Lexer.utf8Size_of_isBlank (blank c (List.mem_cons_self ..))
      rw [Text.utf8Size_cons, one] at within
      cases count with
      | zero =>
          exact ⟨[], c :: blanks, rfl, rfl⟩
      | succ count =>
          obtain ⟨front, back, rfl, size⟩ :=
            @ih count (fun d member => blank d (List.mem_cons_of_mem _ member)) (by omega)
          refine ⟨c :: front, back, rfl, ?_⟩
          rw [Text.utf8Size_cons, one, size, Nat.add_comm]

/-- Blanks that stand behind a text can be cut at any offset within them. -/
theorem exists_blank_cut_at {before blanks : List Char} {offset : Nat}
    (blank : ∀ c ∈ blanks, isBlank c = true) (behind : utf8Size before ≤ offset)
    (within : offset ≤ utf8Size before + utf8Size blanks) :
    ∃ passed left, blanks = passed ++ left ∧ utf8Size (before ++ passed) = offset ∧
      (∀ c ∈ left, isBlank c = true) ∧
      utf8Size before + utf8Size blanks = utf8Size (before ++ passed) + utf8Size left := by
  obtain ⟨passed, left, rfl, size⟩ :=
    @exists_blank_cut blanks (offset - utf8Size before) blank (by omega)
  refine ⟨passed, left, rfl, ?_, fun c member => blank c (List.mem_append_right _ member), ?_⟩
  · rw [Text.utf8Size_append]
    omega
  · simp only [Text.utf8Size_append, Nat.add_assoc]

/-! ### Tokens behind an offset -/

/-- An offset lies between the tokens of a front and those of a back. -/
structure Between (front back : List Token) (offset : Nat) : Prop where
  behind : ∀ token ∈ front, token.span.stop ≤ offset
  ahead : ∀ token ∈ back, offset ≤ token.span.start

/-- A token of a list in order starts between those before it and the rest. -/
theorem between_start {front back : List Token} {token : Token}
    (ordered : (front ++ token :: back).Pairwise fun first second =>
      first.span.stop ≤ second.span.start) :
    Between front (token :: back) token.span.start := by
  obtain ⟨-, orderedBehind, across⟩ := List.pairwise_append.mp ordered
  constructor
  · intro other member
    exact across other member token (List.mem_cons_self ..)
  · rintro other (_ | ⟨_, member⟩)
    · exact Nat.le_refl _
    · have later := (List.pairwise_cons.mp orderedBehind).1 other member
      exact Nat.le_trans token.span.start_le_stop later

/-- It ends between itself, with those before it, and those behind it. -/
theorem between_stop {front back : List Token} {token : Token}
    (ordered : (front ++ token :: back).Pairwise fun first second =>
      first.span.stop ≤ second.span.start) :
    Between (front ++ [token]) back token.span.stop := by
  obtain ⟨-, orderedBehind, across⟩ := List.pairwise_append.mp ordered
  constructor
  · intro other member
    rcases List.mem_append.mp member with member | last
    · have before := across other member token (List.mem_cons_self ..)
      exact Nat.le_trans before token.span.start_le_stop
    · rw [List.mem_singleton.mp last]
  · exact (List.pairwise_cons.mp orderedBehind).1

namespace Run

variable {file : FileId} {reported : Nat} {before text : List Char} {tokens : List Token}
  {found : List Diagnostic}

/-- The tokens behind an offset that lies between two tokens are those of the text behind it. -/
theorem exists_behind (run : Run file reported before text tokens found) {front back : List Token}
    {offset : Nat} (split : tokens = front ++ back) (more : back ≠ [])
    (between : Between front back offset) (within : utf8Size before ≤ offset) :
    ∃ passed rest reported' found', text = passed ++ rest ∧
      utf8Size (before ++ passed) = offset ∧
      Run file reported' (before ++ passed) rest back found' := by
  induction run generalizing front with
  | @finish reported before blanks blank =>
      obtain ⟨token, later, rfl⟩ := List.exists_cons_of_ne_nil more
      obtain ⟨rfl, last⟩ : front = [] ∧
          [Token.endOfFile (utf8Size before + utf8Size blanks)] = token :: later := by
        cases front with
        | nil => exact ⟨rfl, split⟩
        | cons first front => simp at split
      obtain ⟨rfl, rfl⟩ := List.cons.inj last
      obtain ⟨passed, left, cut, size, blank', total⟩ :=
        exists_blank_cut_at blank within (between.ahead _ (List.mem_cons_self ..))
      refine ⟨passed, left, reported, [], cut, size, ?_⟩
      rw [total]
      exact .finish blank'
  | @step reported after before text blanks lexeme error tokens found textSplit blank shape verdict
      next ih =>
      cases front with
      | nil =>
          rw [List.nil_append] at split
          subst split
          obtain ⟨passed, left, cut, size, blank', total⟩ :=
            exists_blank_cut_at blank within (between.ahead _ (List.mem_cons_self ..))
          refine ⟨passed, left ++ (lexeme.text ++ lexeme.rest), reported,
            error.toList.map (·.toDiagnostic file) ++ found, ?_, size, ?_⟩
          · rw [textSplit, cut, List.append_assoc]
          · rw [total] at verdict ⊢
            rw [cut, ← List.append_assoc] at next
            exact .step rfl blank' shape verdict next
      | cons first front =>
          obtain ⟨rfl, rest⟩ := List.cons.inj split
          have stop : utf8Size (before ++ blanks ++ lexeme.text) ≤ offset := by
            have first := between.behind _ (List.mem_cons_self ..)
            simp only [Text.utf8Size_append]
            exact first
          obtain ⟨passed, left, reported', found', restSplit, size, run'⟩ :=
            ih rest
              { behind := fun token member => between.behind token (List.mem_cons_of_mem _ member)
                ahead := between.ahead }
              stop
          refine ⟨blanks ++ lexeme.text ++ passed, left, reported', found', ?_, ?_, ?_⟩
          · simp [textSplit, restSplit]
          · simpa only [List.append_assoc] using size
          · simpa only [List.append_assoc] using run'

end Run

/-! ### Tokens up to an offset -/

/-- Where the last of some tokens ends; without a token this is a given offset. -/
def stopBehind (start : Nat) (tokens : List Token) : Nat :=
  (tokens.getLast?.map (·.span.stop)).getD start

theorem stopBehind_cons (start : Nat) (token : Token) (tokens : List Token) :
    stopBehind start (token :: tokens) = stopBehind token.span.stop tokens := by
  rw [stopBehind, stopBehind, List.getLast?_cons]
  cases tokens.getLast? with
  | none => rfl
  | some last => rfl

/-- The tokens up to the end of one of them are those of the text up to there. -/
theorem Run.exists_part {file : FileId} {reported : Nat} {before text : List Char}
    {tokens : List Token} {found : List Diagnostic}
    (run : Run file reported before text tokens found) {range back : List Token}
    (split : tokens = range ++ back) (proper : ∀ token ∈ range, token.kind ≠ .endOfFile) :
    ∃ part rest reported' found', text = part ++ rest ∧
      utf8Size (before ++ part) = stopBehind (utf8Size before) range ∧
      Run file reported' before part (range ++ [.endOfFile (utf8Size (before ++ part))])
        found' := by
  induction run generalizing range with
  | @finish reported before blanks blank =>
      cases range with
      | nil =>
          refine ⟨[], blanks, reported, [], rfl, by rw [List.append_nil]; rfl, ?_⟩
          rw [List.append_nil]
          exact .finish (List.forall_mem_nil _)
      | cons first range =>
          obtain ⟨rfl, -⟩ := List.cons.inj split
          exact absurd rfl (proper _ (List.mem_cons_self ..))
  | @step reported after before text blanks lexeme error tokens found textSplit blank shape verdict
      next ih =>
      cases range with
      | nil =>
          refine ⟨[], text, reported, [], rfl, by rw [List.append_nil]; rfl, ?_⟩
          rw [List.append_nil]
          exact .finish (List.forall_mem_nil _)
      | cons first range =>
          obtain ⟨rfl, rest⟩ := List.cons.inj split
          obtain ⟨part, left, reported', found', restSplit, size, run'⟩ :=
            ih rest fun token member => proper token (List.mem_cons_of_mem _ member)
          -- What is cut off begins behind the first character behind the lexeme, or the lexeme is
          -- the last one.
          have shape' : Lexeme.Shape { lexeme with rest := part } := by
            apply shape.with_rest
            intro d head
            left
            rw [restSplit, List.head?_append, Option.mem_def.mp head]
            rfl
          obtain ⟨error', after', verdict'⟩ :=
            shape'.exists_verdict (utf8Size before + utf8Size blanks) reported
          obtain ⟨found'', run''⟩ := run'.with_reported file after'
          refine ⟨blanks ++ (lexeme.text ++ part), left, reported,
            error'.toList.map (·.toDiagnostic file) ++ found'', ?_, ?_, ?_⟩
          · simp [textSplit, restSplit]
          · rw [stopBehind_cons, Lexeme.span_tokenAt, Lexeme.stop_spanAt,
              ← Text.utf8Size_append, ← Text.utf8Size_append, ← size]
            simp only [List.append_assoc]
          · have whole := Run.step rfl blank shape' verdict' run''
            have same : before ++ (blanks ++ (lexeme.text ++ part))
                = before ++ blanks ++ lexeme.text ++ part := by simp
            rw [same]
            exact whole

/-- A range of tokens of a text has a part of the text under it, with the same tokens. -/
theorem Run.exists_range {file : FileId} {reported : Nat} {text : List Char} {tokens : List Token}
    {found : List Diagnostic} (run : Run file reported [] text tokens found)
    {front others back : List Token} {first : Token}
    (split : tokens = front ++ (first :: others) ++ back)
    (proper : ∀ token ∈ first :: others, token.kind ≠ .endOfFile) :
    ∃ passed part rest reported' found', text = passed ++ part ++ rest ∧
      utf8Size passed = first.span.start ∧
      utf8Size (passed ++ part) = stopBehind first.span.stop others ∧
      Run file reported' passed part
        (first :: others ++ [.endOfFile (utf8Size (passed ++ part))]) found' := by
  rw [List.append_assoc] at split
  have ordered := run.ordered
  rw [split] at ordered
  obtain ⟨passed, left, reported', found', rfl, start, behind⟩ :=
    run.exists_behind split (List.cons_ne_nil _ _) (between_start ordered) (Nat.zero_le _)
  obtain ⟨part, rest, reported'', found'', rfl, stop, partRun⟩ := behind.exists_part rfl proper
  rw [stopBehind_cons] at stop
  exact ⟨passed, part, rest, reported'', found'', (List.append_assoc ..).symm, start, stop,
    partRun⟩

/-! ### Lexing alone -/

/-- A run over a text that stands behind another is the run over the text alone, with all places
    moved. -/
theorem Run.exists_alone {file : FileId} {reported : Nat} {before text : List Char}
    {tokens : List Token} {found : List Diagnostic}
    (run : Run file reported before text tokens found) :
    ∃ alone, tokens = alone.map (Token.shift (utf8Size before)) ∧
      ∀ other, ∃ found', Run other 0 [] text alone found' := by
  obtain ⟨alone, foundAlone, runAlone⟩ := exists_run file 0 [] text
  have moved := runAlone.shift before (ReportedAlike.add 0 (utf8Size before) 0)
  rw [List.append_nil] at moved
  obtain ⟨found', run'⟩ := run.with_reported file (utf8Size before + 0)
  exact ⟨alone, (run'.unique moved).1, fun other => runAlone.with_reported other 0⟩

/-- A span merged with those of tokens behind it, one after the other, goes to the end of the last
    of them. -/
theorem foldl_merge {covered : Span} {tokens : List Token}
    (behind : ∀ token ∈ tokens, covered.stop ≤ token.span.start)
    (ordered : tokens.Pairwise fun token next => token.span.stop ≤ next.span.start) :
    (tokens.foldl (fun covered next => covered.merge (HasSpan.span next)) covered).start
        = covered.start ∧
      (tokens.foldl (fun covered next => covered.merge (HasSpan.span next)) covered).stop
        = stopBehind covered.stop tokens := by
  induction tokens generalizing covered with
  | nil =>
      exact ⟨rfl, rfl⟩
  | cons token tokens ih =>
      obtain ⟨behindToken, ordered⟩ := List.pairwise_cons.mp ordered
      have step := behind token (List.mem_cons_self ..)
      have forward := covered.start_le_stop
      have forwardToken := token.span.start_le_stop
      have start : (covered.merge token.span).start = covered.start := Nat.min_eq_left (by omega)
      have stop : (covered.merge token.span).stop = token.span.stop := Nat.max_eq_right (by omega)
      have rest := @ih (covered.merge token.span) (by rw [stop]; exact behindToken) ordered
      rw [start, stop] at rest
      rw [stopBehind_cons]
      exact rest

/-- Tokens in order are covered from the start of the first to the end of the last. -/
theorem coveringSpan?_of_ordered {first : Token} {others : List Token}
    (ordered : (first :: others).Pairwise fun token next => token.span.stop ≤ next.span.start) :
    ∃ span, coveringSpan? (first :: others) = some span ∧
      span.start = first.span.start ∧ span.stop = stopBehind first.span.stop others := by
  obtain ⟨behind, ordered⟩ := List.pairwise_cons.mp ordered
  exact ⟨_, rfl, foldl_merge behind ordered⟩

/-- A range of tokens by itself: its tokens are covered by one span, and lexing the text there gives
    just these tokens, as many bytes earlier as the range starts, and the end of the text. -/
structure StandsAlone (text : String) (range : List Token) (span : Span) (part : String)
    (alone : List Token) : Prop where
  covers : coveringSpan? range = some span
  start : range.head?.map (·.span.start) = some span.start
  stop : range.getLast?.map (·.span.stop) = some span.stop
  slice : span.slice? text.toList = some part.toList
  same : range = alone.map (Token.shift span.start)
  lexes : ∀ file, ∃ found,
    Lexes file part (alone ++ [.endOfFile part.utf8ByteSize]) found

/-- The tokens behind an offset: lexing the text behind it gives just these tokens, moved to the
    front. -/
structure LeftAlone (text : String) (back : List Token) (offset : Nat) (rest : String)
    (alone : List Token) : Prop where
  cut : ∃ passed, Text.cut? text.toList offset = some (passed, rest.toList)
  same : back = alone.map (Token.shift offset)
  lexes : ∀ file, ∃ found, Lexes file rest alone found

namespace Run

variable {file : FileId} {reported : Nat} {text : String} {tokens : List Token}
  {found : List Diagnostic}

/-- The tokens of a run behind an offset between two of them are those of the text behind it. -/
theorem exists_leftAlone (run : Run file reported [] text.toList tokens found)
    (fits : text.utf8ByteSize ≤ Offset.limit) {front back : List Token} {offset : Nat}
    (split : tokens = front ++ back) (more : back ≠ []) (between : Between front back offset) :
    ∃ rest alone, LeftAlone text back offset rest alone := by
  obtain ⟨passed, rest, reported', found', textSplit, size, run'⟩ :=
    run.exists_behind split more between (Nat.zero_le _)
  rw [List.nil_append] at size run'
  obtain ⟨alone, same, lexed⟩ := run'.exists_alone
  rw [size] at same
  have inText : rest <:+ text.toList := ⟨passed, textSplit.symm⟩
  have restFits : (String.ofList rest).utf8ByteSize ≤ Offset.limit := by
    rw [Text.utf8ByteSize_ofList]
    exact Nat.le_trans (Text.utf8Size_le_of_infix inText.isInfix) fits
  refine ⟨String.ofList rest, alone, ⟨passed, ?_⟩, same, fun other => ?_⟩
  · rw [textSplit, ← size, Text.cut?_append, String.toList_ofList]
  · obtain ⟨foundAlone, runAlone⟩ := lexed other
    exact ⟨foundAlone, lexes_of_run restFits (by rwa [String.toList_ofList])⟩

/-- A range of tokens of a run stands alone. -/
theorem exists_standsAlone (run : Run file reported [] text.toList tokens found)
    (fits : text.utf8ByteSize ≤ Offset.limit) {front range back : List Token}
    (split : tokens = front ++ range ++ back) (filled : range ≠ [])
    (proper : ∀ token ∈ range, token.kind ≠ .endOfFile) :
    ∃ span part alone, StandsAlone text range span part alone := by
  obtain ⟨first, others, rfl⟩ := List.exists_cons_of_ne_nil filled
  have ordered := run.ordered
  rw [split, List.append_assoc] at ordered
  obtain ⟨span, covers, spanStart, spanStop⟩ :=
    coveringSpan?_of_ordered (ordered.sublist
      ((List.sublist_append_left (first :: others) back).trans (List.sublist_append_right ..)))
  obtain ⟨passed, part, rest, reported', found', textSplit, start, stop, partRun⟩ :=
    run.exists_range split proper
  have partFits : (String.ofList part).utf8ByteSize ≤ Offset.limit := by
    rw [Text.utf8ByteSize_ofList]
    exact Nat.le_trans (Text.utf8Size_le_of_infix ⟨passed, rest, textSplit.symm⟩) fits
  -- Alone, the part has the tokens of the range and then the end of the text.
  obtain ⟨whole, same, lexed⟩ := partRun.exists_alone
  obtain ⟨foundFile, runFile⟩ := lexed file
  obtain ⟨alone, rfl, -⟩ := runFile.eq_append_endOfFile
  rw [List.map_append] at same
  obtain ⟨sameRange, -⟩ := List.append_inj' same rfl
  refine ⟨span, String.ofList part, alone, covers, ?_, ?_, ?_, ?_, fun other => ?_⟩
  · rw [spanStart]
    rfl
  · rw [spanStop, stopBehind, List.getLast?_cons]
    cases others.getLast? with
    | none => rfl
    | some last => rfl
  · rw [String.toList_ofList]
    refine Text.slice?_eq_some_iff.mpr ⟨passed, rest, textSplit, ?_, ?_⟩
    · rw [spanStart, start]
    · rw [spanStart, spanStop, ← stop, Text.utf8Size_append, start]
  · rw [spanStart, ← start]
    exact sameRange
  · obtain ⟨foundAlone, runAlone⟩ := lexed other
    refine ⟨foundAlone, lexes_of_run partFits ?_⟩
    rw [String.toList_ofList, Text.utf8ByteSize_ofList]
    simpa using runAlone

end Run

/-- Ranges of tokens stand alone: a text that fits is read to its end; each range of its tokens
    without the end of the text is what lexing the part of the text under it gives; and the tokens
    behind an offset between two tokens, such as the start or the end of a token, are what lexing
    the text behind the offset gives. -/
theorem lex_ranges_alone (file : FileId) (text : String) (log : Log)
    (fits : text.utf8ByteSize ≤ Offset.limit) :
    ∃ tokens after, lex file text log = .ok (tokens, after) ∧
      (∀ front range back, tokens = front ++ range ++ back → range ≠ [] →
        (∀ token ∈ range, token.kind ≠ .endOfFile) →
        ∃ span part alone, StandsAlone text range span part alone) ∧
      (∀ front token back, tokens = front ++ token :: back →
        Between front (token :: back) token.span.start ∧
        Between (front ++ [token]) back token.span.stop) ∧
      ∀ front back offset, tokens = front ++ back → back ≠ [] → Between front back offset →
        ∃ rest alone, LeftAlone text back offset rest alone := by
  obtain ⟨tokens, found, lexed, run⟩ := lex_run file log fits
  refine ⟨tokens, log.emitAll found, lexed, ?_, ?_, ?_⟩
  · intro front range back split filled proper
    exact run.exists_standsAlone fits split filled proper
  · intro front token back split
    have ordered := run.ordered
    rw [split] at ordered
    exact ⟨between_start ordered, between_stop ordered⟩
  · intro front back offset split more between
    exact run.exists_leftAlone fits split more between

/-- The tokens of `x=1.2.3 -é&`: the malformed number has three fragments, and neither the
    character of two bytes nor the last one begins a token. -/
def fragmentTokens : List Token :=
  [Lexeme.tokenAt ⟨.identifier, "x".toList, []⟩ 0,
    Lexeme.tokenAt ⟨.symbol .equal, "=".toList, []⟩ 1,
    Lexeme.tokenAt ⟨.floatLiteral, "1.2".toList, []⟩ 2,
    Lexeme.tokenAt ⟨.symbol .dot, ".".toList, []⟩ 5,
    Lexeme.tokenAt ⟨.intLiteral, "3".toList, []⟩ 6,
    Lexeme.tokenAt ⟨.symbol .minus, "-".toList, []⟩ 8,
    Lexeme.tokenAt ⟨.invalid, "é".toList, []⟩ 9,
    Lexeme.tokenAt ⟨.invalid, "&".toList, []⟩ 11,
    .endOfFile 12]

/-- The range from the second fragment of the number to the character of two bytes stands alone, and
    so do all tokens from this fragment on. -/
theorem lex_ranges_alone_fragments :
    "x=1.2.3 -é&".utf8ByteSize ≤ Offset.limit ∧
      (∃ after, lex ⟨0⟩ "x=1.2.3 -é&" .empty = .ok (fragmentTokens, after)) ∧
      fragmentTokens =
        fragmentTokens.take 3 ++ (fragmentTokens.drop 3).take 4 ++ fragmentTokens.drop 7 ∧
      (∀ token ∈ (fragmentTokens.drop 3).take 4, token.kind ≠ .endOfFile) ∧
      (∃ alone, StandsAlone "x=1.2.3 -é&" ((fragmentTokens.drop 3).take 4) ⟨5, 11, by decide⟩
        ".3 -é" alone) ∧
      Between (fragmentTokens.take 3) (fragmentTokens.drop 3) 5 ∧
      ∃ rest alone, LeftAlone "x=1.2.3 -é&" (fragmentTokens.drop 3) 5 rest alone := by
  have fits : "x=1.2.3 -é&".utf8ByteSize ≤ Offset.limit := by decide
  have computed : (lex ⟨0⟩ "x=1.2.3 -é&" .empty).toOption.map Prod.fst = some fragmentTokens := by
    decide +kernel
  have proper : ∀ token ∈ (fragmentTokens.drop 3).take 4, token.kind ≠ .endOfFile := by decide
  obtain ⟨tokens, after, lexed, ranges, ends, behind⟩ := lex_ranges_alone ⟨0⟩ _ .empty fits
  rw [lexed] at computed
  obtain rfl := Option.some.inj computed
  obtain ⟨between, -⟩ := ends (fragmentTokens.take 3) _ (fragmentTokens.drop 4) rfl
  obtain ⟨span, part, alone, stands⟩ :=
    ranges (fragmentTokens.take 3) _ (fragmentTokens.drop 7) rfl (by decide) proper
  obtain rfl := Option.some.inj (stands.covers.symm.trans rfl)
  obtain rfl : part = ".3 -é" :=
    String.toList_inj.mp (Option.some.inj (stands.slice.symm.trans (by decide)))
  exact ⟨fits, ⟨after, lexed⟩, rfl, proper, ⟨alone, stands⟩, between,
    behind _ _ 5 rfl (by decide) between⟩

end FrontEnd
