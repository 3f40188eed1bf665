/-
Module: FrontEnd.Proofs.TokenTiling
Layer: Proofs
Purpose: Tokens tile their text. They follow each other without overlap, each has the text found at
  its span, and what is left between them is blank, so the text can be put together again from the
  tokens and the gaps.
Imports: FrontEnd.Proofs.LexerRuns, FrontEnd.Proofs.TextBytes
Trusted boundary: none
Main exports: Run.eq_append_endOfFile, Run.le_start, Run.ordered, Run.slice?_eq, weave, Tiles,
  lex_tiles
Open obligations: none
-/
import FrontEnd.Proofs.LexerRuns
import FrontEnd.Proofs.TextBytes

namespace FrontEnd

open Lexer (isBlank)
open Text (utf8Size)

theorem Span.contains_iff {span : Span} {offset : Nat} :
    span.contains offset = true ↔ span.start ≤ offset ∧ offset < span.stop := by
  simp [contains]

/-! ### Tokens of a run -/

namespace Run

variable {file : FileId} {reported : Nat} {before text : List Char} {tokens : List Token}
  {found : List Diagnostic}

/-- The last token of a run, and only the last, is the end of the text. -/
theorem eq_append_endOfFile (run : Run file reported before text tokens found) :
    ∃ front, tokens = front ++ [.endOfFile (utf8Size before + utf8Size text)] ∧
      ∀ token ∈ front, token.kind ≠ .endOfFile ∧ token.span.start < token.span.stop := by
  induction run with
  | finish =>
      exact ⟨[], rfl, by simp⟩
  | @step _ _ before text blanks lexeme _ tokens _ split blank shape _ _ ih =>
      obtain ⟨front, rfl, filled⟩ := ih
      refine ⟨lexeme.tokenAt (utf8Size before + utf8Size blanks) :: front, ?_, ?_⟩
      · simp [split, Nat.add_assoc]
      · rintro token (_ | ⟨_, member⟩)
        · exact ⟨shape.kind_ne_endOfFile,
            Nat.lt_add_of_pos_right (Text.utf8Size_pos shape.text_ne_nil)⟩
        · exact filled token member

/-- No token of a run stands before the text of the run. -/
theorem le_start (run : Run file reported before text tokens found) :
    ∀ token ∈ tokens, utf8Size before ≤ token.span.start := by
  induction run with
  | finish =>
      rintro token (_ | ⟨_, ⟨⟩⟩)
      exact Nat.le_add_right _ _
  | @step _ _ before text blanks lexeme _ tokens _ _ _ _ _ _ ih =>
      rintro token (_ | ⟨_, member⟩)
      · exact Nat.le_add_right _ _
      · have later := ih token member
        simp only [Text.utf8Size_append] at later
        omega

/-- Tokens follow each other without overlap. -/
theorem ordered (run : Run file reported before text tokens found) :
    tokens.Pairwise fun first second => first.span.stop ≤ second.span.start := by
  induction run with
  | finish =>
      exact List.pairwise_singleton _ _
  | @step _ _ before text blanks lexeme _ tokens _ _ _ _ _ more ih =>
      refine List.pairwise_cons.mpr ⟨fun token member => ?_, ih⟩
      have later := more.le_start token member
      simp only [Text.utf8Size_append] at later
      exact later

/-- Each token has the text that stands at its span. -/
theorem slice?_eq (run : Run file reported before text tokens found) :
    ∀ token ∈ tokens, token.span.slice? (before ++ text) = some token.text.toList := by
  induction run with
  | @finish _ before blanks blank =>
      rintro token (_ | ⟨_, ⟨⟩⟩)
      exact Text.slice?_eq_some_iff.mpr ⟨before ++ blanks, [], by simp, by simp, rfl⟩
  | @step _ _ before text blanks lexeme _ tokens _ split _ _ _ _ ih =>
      have whole : before ++ text = before ++ blanks ++ lexeme.text ++ lexeme.rest := by
        simp [split]
      rw [whole]
      rintro token (_ | ⟨_, member⟩)
      · refine Text.slice?_eq_some_iff.mpr ⟨before ++ blanks, lexeme.rest, ?_, by simp, ?_⟩
        · simp [Lexeme.tokenAt]
        · simp [Lexeme.tokenAt, Lexeme.spanAt]
      · exact ih token member

/-- No character of a token is blank. -/
theorem isBlank_eq_false (run : Run file reported before text tokens found) :
    ∀ token ∈ tokens, ∀ c ∈ token.text.toList, isBlank c = false := by
  intro token member
  rcases run.eq_endOfFile_or_exists_shape token member with
    ⟨offset, rfl⟩ | ⟨lexeme, start, shape, rfl⟩
  · rintro c ⟨⟩
  · simpa [Lexeme.tokenAt] using shape.isBlank_eq_false

/-- A byte behind `before` that no token covers belongs to a blank. -/
theorem mem_blankBytes (run : Run file reported before text tokens found) :
    ∀ index byte, utf8Size before ≤ index →
      (Text.encode (before ++ text))[index]? = some byte →
      (∀ token ∈ tokens, token.span.contains index = false) → byte ∈ Text.blankBytes := by
  induction run with
  | finish blank =>
      intro index byte behind found _
      exact Text.mem_blankBytes_of_blank blank byte (Text.mem_encode_of_le behind found)
  | @step _ _ before text blanks lexeme _ tokens _ split blank _ _ _ ih =>
      have whole : before ++ text = before ++ blanks ++ lexeme.text ++ lexeme.rest := by
        simp [split]
      rw [whole]
      intro index byte behind found uncovered
      by_cases inBlanks : index < utf8Size (before ++ blanks)
      · rw [List.append_assoc _ lexeme.text, Text.getElem?_encode_of_lt inBlanks] at found
        exact Text.mem_blankBytes_of_blank blank byte (Text.mem_encode_of_le behind found)
      · have notFirst := uncovered _ (List.mem_cons_self ..)
        have behindLexeme : utf8Size (before ++ blanks ++ lexeme.text) ≤ index := by
          rw [← Bool.not_eq_true, Span.contains_iff] at notFirst
          simp only [Lexeme.span_tokenAt, Lexeme.start_spanAt, Lexeme.stop_spanAt] at notFirst
          simp only [Text.utf8Size_append] at inBlanks ⊢
          omega
        exact ih index byte behindLexeme found fun token member =>
          uncovered token (List.mem_cons_of_mem _ member)

end Run

/-! ### Putting the text together again -/

/-- The gaps and the texts of tokens one after the other, from a position of the source on. -/
def weave (source : List UInt8) : Nat → List Token → List UInt8
  | position, [] => source.drop position
  | position, token :: tokens =>
      (source.drop position).take (token.span.start - position) ++ Text.bytes token.text
        ++ weave source token.span.stop tokens

/-- Tokens in order that have the bytes at their spans are woven into the source. -/
theorem weave_eq_drop {source : List UInt8} {position : Nat} {tokens : List Token}
    (behind : ∀ token ∈ tokens, position ≤ token.span.start)
    (ordered : tokens.Pairwise fun first second => first.span.stop ≤ second.span.start)
    (slices : ∀ token ∈ tokens, Text.bytes token.text =
      (source.drop token.span.start).take (token.span.stop - token.span.start)) :
    weave source position tokens = source.drop position := by
  induction tokens generalizing position with
  | nil =>
      rfl
  | cons token tokens ih =>
      obtain ⟨later, orderedRest⟩ := List.pairwise_cons.mp ordered
      have start := behind token (List.mem_cons_self ..)
      have stop := token.span.start_le_stop
      have rest := ih later orderedRest fun other member =>
        slices other (List.mem_cons_of_mem _ member)
      have gap : (source.drop position).drop (token.span.start - position)
          = source.drop token.span.start := by
        rw [List.drop_drop, Nat.add_sub_cancel' start]
      have behindToken : (source.drop token.span.start).drop (token.span.stop - token.span.start)
          = source.drop token.span.stop := by
        rw [List.drop_drop, Nat.add_sub_cancel' stop]
      calc weave source position (token :: tokens)
          = (source.drop position).take (token.span.start - position)
              ++ ((source.drop token.span.start).take (token.span.stop - token.span.start)
                ++ source.drop token.span.stop) := by
            rw [weave, rest, slices token (List.mem_cons_self ..), List.append_assoc]
        _ = (source.drop position).take (token.span.start - position)
              ++ source.drop token.span.start := by
            rw [← behindToken, List.take_append_drop]
        _ = source.drop position := by
            rw [← gap, List.take_append_drop]

/-- Two tokens are the same, or one of them stands behind the other. -/
def Token.Apart (token token' : Token) : Prop :=
  token = token' ∨ token.span.stop ≤ token'.span.start ∨ token'.span.stop ≤ token.span.start

/-- The tokens of a text tile it. -/
structure Tiles (text : String) (tokens : List Token) : Prop where
  /-- One token ends the text: the last one, which is empty and stands at the end. All others have
      at least one byte. -/
  ends : ∃ front, tokens = front ++ [.endOfFile text.utf8ByteSize] ∧
    ∀ token ∈ front, token.kind ≠ .endOfFile ∧ token.span.start < token.span.stop
  ordered : tokens.Pairwise fun first second => first.span.stop ≤ second.span.start
  slices : ∀ token ∈ tokens, token.span.slice? text.toList = some token.text.toList
  /-- A byte outside of all tokens is blank. -/
  between : ∀ index byte, (Text.bytes text)[index]? = some byte →
    (∀ token ∈ tokens, token.span.contains index = false) → byte ∈ Text.blankBytes
  /-- A byte inside of a token is not blank. -/
  within : ∀ token ∈ tokens, ∀ index byte, token.span.contains index = true →
    (Text.bytes text)[index]? = some byte → byte ∉ Text.blankBytes
  rebuilt : weave (Text.bytes text) 0 tokens = Text.bytes text

/-- The bytes of a slice are those between the ends of its span. -/
theorem bytes_of_slice? {text part : String} {span : Span}
    (slice : span.slice? text.toList = some part.toList) :
    Text.bytes part = ((Text.bytes text).drop span.start).take (span.stop - span.start) := by
  obtain ⟨front, back, split, start, stop⟩ := Text.slice?_eq_some_iff.mp slice
  have size : span.stop - span.start = utf8Size part.toList := by omega
  rw [Text.bytes_eq, Text.bytes_eq, split, size, ← start, Text.encode_slice]

/-- A byte inside of a slice belongs to a character of the slice. -/
theorem mem_bytes_of_slice? {text part : String} {span : Span} {index : Nat} {byte : UInt8}
    (slice : span.slice? text.toList = some part.toList) (inside : span.contains index = true)
    (found : (Text.bytes text)[index]? = some byte) : byte ∈ Text.bytes part := by
  obtain ⟨start, stop⟩ := Span.contains_iff.mp inside
  rw [bytes_of_slice? slice]
  apply List.mem_of_getElem? (i := index - span.start)
  rw [List.getElem?_take_of_lt (by omega), List.getElem?_drop, Nat.add_sub_cancel' start, found]

/-- The tokens of a run over a whole text tile it. -/
theorem Run.tiles {file : FileId} {reported : Nat} {text : String} {tokens : List Token}
    {found : List Diagnostic} (run : Run file reported [] text.toList tokens found) :
    Tiles text tokens := by
  have slices : ∀ token ∈ tokens, token.span.slice? text.toList = some token.text.toList :=
    run.slice?_eq
  constructor
  · rw [Text.utf8ByteSize_eq]
    simpa using run.eq_append_endOfFile
  · exact run.ordered
  · exact slices
  · intro index byte byteAt uncovered
    rw [Text.bytes_eq] at byteAt
    exact run.mem_blankBytes index byte (Nat.zero_le _) byteAt uncovered
  · intro token member index byte inside byteAt
    have ofToken := mem_bytes_of_slice? (slices token member) inside byteAt
    rw [Text.bytes_eq] at ofToken
    obtain ⟨c, ofText, ofChar⟩ := List.mem_flatMap.mp ofToken
    exact Text.not_mem_blankBytes (run.isBlank_eq_false token member c ofText) byte ofChar
  · apply weave_eq_drop
    · intro token _
      exact Nat.zero_le _
    · exact run.ordered
    · intro token member
      exact bytes_of_slice? (slices token member)

namespace Tiles

variable {text : String} {tokens : List Token}

/-- Only the end of the text is an empty token. -/
theorem start_lt_stop (tiles : Tiles text tokens) {token : Token} (member : token ∈ tokens)
    (more : token.kind ≠ .endOfFile) : token.span.start < token.span.stop := by
  obtain ⟨front, rfl, filled⟩ := tiles.ends
  rcases List.mem_append.mp member with inFront | last
  · exact (filled token inFront).2
  · rw [List.mem_singleton.mp last] at more
    exact absurd rfl more

theorem apart (tiles : Tiles text tokens) {token token' : Token} (member : token ∈ tokens)
    (member' : token' ∈ tokens) : token.Apart token' := by
  have forward : tokens.Pairwise Token.Apart :=
    tiles.ordered.imp fun order => Or.inr (Or.inl order)
  have backward : tokens.Pairwise (flip Token.Apart) :=
    tiles.ordered.imp fun order => Or.inr (Or.inr order)
  have same : ∀ token ∈ tokens, token.Apart token := fun _ _ => Or.inl rfl
  exact List.Pairwise.forall_of_forall_of_flip same forward backward member member'

end Tiles

/-- Lexing tiles the text: a text that fits is read to its end, and its tokens tile it. -/
theorem lex_tiles (file : FileId) (text : String) (log : Log)
    (fits : text.utf8ByteSize ≤ Offset.limit) :
    ∃ tokens after, lex file text log = .ok (tokens, after) ∧ Tiles text tokens := by
  obtain ⟨tokens, found, lexed, run⟩ := lex_run file log fits
  exact ⟨tokens, log.emitAll found, lexed, run.tiles⟩

/-- A text that starts and ends with blanks and has a null and a character of several bytes. -/
theorem lex_tiles_mixed :
    "\t1.5..\x00é && \r".utf8ByteSize ≤ Offset.limit ∧
      ∃ tokens after, lex ⟨0⟩ "\t1.5..\x00é && \r" .empty = .ok (tokens, after) ∧
        Tiles "\t1.5..\x00é && \r" tokens :=
  have fits : "\t1.5..\x00é && \r".utf8ByteSize ≤ Offset.limit := by decide
  ⟨fits, lex_tiles ⟨0⟩ _ .empty fits⟩

end FrontEnd
