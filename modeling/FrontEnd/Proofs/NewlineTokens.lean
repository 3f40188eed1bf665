/-
Module: FrontEnd.Proofs.NewlineTokens
Layer: Proofs
Purpose: Lines of a file and newlines of its tokens. No newline of a text is skipped as a blank or
  hidden in a longer token, so the lines of the file start where its newline tokens end, and a token
  stands on the line that the newline tokens before it have opened.
Imports: FrontEnd.Proofs.SourceLines, FrontEnd.Proofs.TokenTiling
Trusted boundary: none
Main exports: Lexeme.Shape.newline_not_mem, Run.startsAfter_eq, Run.exists_front,
  SourceFile.exists_line, LinesAgree, newline_tokens_open_lines
Open obligations: none
-/
import FrontEnd.Proofs.SourceLines
import FrontEnd.Proofs.TokenTiling

namespace FrontEnd

open Lexer (isBlank)
open Text (utf8Size)

/-! ### Where newlines stand -/

/-- Whether a token is a newline. -/
def Token.isNewline (token : Token) : Bool :=
  token.kind == .newline

namespace Lexeme.Shape

variable {lexeme : Lexeme}

/-- A lexeme that is a newline is nothing but the newline. -/
theorem text_of_newline (shape : lexeme.Shape) (newline : lexeme.kind = .newline) :
    lexeme.text = ['\n'] := by
  cases shape with
  | newline => rfl
  | word =>
      exact absurd newline (wordKind_ne _ (by simp) (by simp))
  | _ => cases newline

/-- There is no newline in any other lexeme. -/
theorem newline_not_mem (shape : lexeme.Shape) (other : lexeme.kind ≠ .newline) :
    '\n' ∉ lexeme.text := by
  cases shape with
  | newline =>
      exact absurd rfl other
  | integer _ inside =>
      intro member
      exact Lexer.ne_newline_of_isDigit (inside _ member) rfl
  | float _ insideWhole insideFraction =>
      intro member
      rcases List.mem_append.mp member with member | member
      · exact Lexer.ne_newline_of_isDigit (insideWhole _ member) rfl
      · rcases List.mem_cons.mp member with point | member
        · exact absurd point (by decide)
        · exact Lexer.ne_newline_of_isDigit (insideFraction _ member) rfl
  | word start inside =>
      intro member
      rcases List.mem_cons.mp member with rfl | member
      · exact Lexer.ne_newline_of_isWordStart start rfl
      · exact absurd (inside _ member) (by decide)
  | pair known =>
      obtain ⟨first, second⟩ := Symbol.isMark_of_ofPair? known
      intro member
      rcases List.mem_cons.mp member with rfl | member
      · exact first.1 rfl
      · exact second.1 (List.mem_singleton.mp member).symm
  | single known =>
      intro member
      exact (Symbol.isMark_of_ofChar? known).1 (List.mem_singleton.mp member).symm
  | invalid mark =>
      intro member
      exact mark.1 (List.mem_singleton.mp member).symm

/-- A lexeme has as many newlines as its token says. -/
theorem count_newline (shape : lexeme.Shape) (start : Nat) :
    lexeme.text.count '\n' = [lexeme.tokenAt start].countP Token.isNewline := by
  by_cases newline : lexeme.kind = .newline
  · rw [shape.text_of_newline newline, List.countP_cons_of_pos (by simp [Token.isNewline, newline])]
    rfl
  · rw [List.count_eq_zero_of_not_mem (shape.newline_not_mem newline),
      List.countP_cons_of_neg (by simpa [Token.isNewline] using newline)]
    rfl

end Lexeme.Shape

/-- A newline is no blank. -/
theorem newline_not_mem_of_blank {blanks : List Char} (blank : ∀ c ∈ blanks, isBlank c = true) :
    '\n' ∉ blanks := by
  intro member
  have newline := blank '\n' member
  rw [Lexer.isBlank_newline] at newline
  cases newline

/-! ### Newlines of a run -/

namespace Run

variable {file : FileId} {reported : Nat} {before text : List Char} {tokens : List Token}
  {found : List Diagnostic}

/-- The lines that the text of a run opens start behind the newline tokens. -/
theorem startsAfter_eq (run : Run file reported before text tokens found) :
    LineTable.startsAfter (utf8Size before) text =
      (tokens.filter Token.isNewline).map (·.span.stop) := by
  induction run with
  | finish blank =>
      rw [LineTable.startsAfter_of_not_mem _ (newline_not_mem_of_blank blank)]
      rfl
  | @step _ _ before text blanks lexeme _ tokens _ split blank shape _ _ ih =>
      rw [Text.utf8Size_append, Text.utf8Size_append] at ih
      rw [split, LineTable.startsAfter_append,
        LineTable.startsAfter_of_not_mem _ (newline_not_mem_of_blank blank), List.nil_append,
        LineTable.startsAfter_append, ih]
      by_cases newline : lexeme.kind = .newline
      · rw [List.filter_cons_of_pos (by simpa [Token.isNewline] using newline), List.map_cons,
          Lexeme.span_tokenAt, Lexeme.stop_spanAt, shape.text_of_newline newline]
        rfl
      · rw [List.filter_cons_of_neg (by simpa [Token.isNewline] using newline),
          LineTable.startsAfter_of_not_mem _ (shape.newline_not_mem newline)]
        rfl

/-- The text before a token of a run has as many newlines as there are newline tokens before it. -/
theorem exists_front (run : Run file reported before text tokens found) :
    ∀ front token back, tokens = front ++ token :: back →
      ∃ ahead behind, text = ahead ++ behind ∧ token.span.start = utf8Size (before ++ ahead) ∧
        ahead.count '\n' = front.countP Token.isNewline := by
  induction run with
  | @finish _ before blanks blank =>
      intro front token back split
      obtain ⟨rfl, same⟩ : front = [] ∧ token = .endOfFile (utf8Size before + utf8Size blanks) := by
        cases front with
        | nil =>
            obtain ⟨same, -⟩ := List.cons.inj split
            exact ⟨rfl, same.symm⟩
        | cons other front =>
            obtain ⟨-, rest⟩ := List.cons.inj split
            simp at rest
      refine ⟨blanks, [], by simp, ?_, ?_⟩
      · rw [same, Text.utf8Size_append]
        rfl
      · exact List.count_eq_zero_of_not_mem (newline_not_mem_of_blank blank)
  | @step _ _ before text blanks lexeme _ tokens _ split blank shape _ _ ih =>
      have noneBlank := List.count_eq_zero_of_not_mem (newline_not_mem_of_blank blank)
      intro front token back tokensSplit
      cases front with
      | nil =>
          obtain ⟨rfl, -⟩ := List.cons.inj tokensSplit
          refine ⟨blanks, lexeme.text ++ lexeme.rest, split, ?_, noneBlank⟩
          rw [Text.utf8Size_append]
          rfl
      | cons first front =>
          obtain ⟨rfl, rest⟩ := List.cons.inj tokensSplit
          obtain ⟨ahead, behind, restSplit, start, count⟩ := ih front token back rest
          refine ⟨blanks ++ lexeme.text ++ ahead, behind, ?_, ?_, ?_⟩
          · simp [split, restSplit]
          · rw [start]
            simp
          · rw [List.count_append, List.count_append, noneBlank, Nat.zero_add,
              shape.count_newline (utf8Size before + utf8Size blanks), count,
              ← List.countP_append]
            rfl

/-- The text of a token that is no newline has no newline. -/
theorem newline_not_mem (run : Run file reported before text tokens found) :
    ∀ token ∈ tokens, token.kind ≠ .newline → '\n' ∉ token.text.toList := by
  induction run with
  | finish =>
      rintro token (_ | ⟨_, ⟨⟩⟩) _
      simp
  | step _ _ shape _ _ ih =>
      rintro token (_ | ⟨_, member⟩) other
      · simpa using shape.newline_not_mem other
      · exact ih token member other

end Run

/-! ### Lines of tokens -/

/-- The line of an offset at a character boundary counts the newlines before it. -/
theorem SourceFile.exists_line {file : SourceFile} {front back : List Char}
    (split : file.text.toList = front ++ back) (short : file.size < Offset.limit) :
    ∃ place, file.lineColumn (utf8Size front) = .ok place ∧ place.line = 1 + front.count '\n' := by
  obtain ⟨above, ahead, rfl, opens, inside⟩ := exists_opensLine front
  have size := file.size_eq
  rw [split, Text.utf8Size_append] at size
  refine ⟨_, lineColumn_eq split opens inside (by omega), ?_⟩
  rw [count_newline_append inside, Nat.add_comm]

/-- The lines of a file and the newline tokens among its tokens agree. -/
structure LinesAgree (file : SourceFile) (tokens : List Token) : Prop where
  /-- The first line starts at zero, and each other one where a newline token ends. -/
  starts : file.lineStarts.toList = 0 :: (tokens.filter Token.isNewline).map (·.span.stop)
  /-- A token stands on the line that the newline tokens before it have opened. -/
  line : ∀ front token back, tokens = front ++ token :: back → ∃ place,
    file.lineColumn token.span.start = .ok place ∧
    place.line = 1 + front.countP Token.isNewline
  /-- A token that is no newline stays on its line. -/
  within : ∀ token ∈ tokens, token.kind ≠ .newline → ∃ place place',
    file.lineColumn token.span.start = .ok place ∧
    file.lineColumn token.span.stop = .ok place' ∧ place.line = place'.line

/-- The lines of a file agree with the tokens of a run over its text. -/
theorem Run.linesAgree {id : FileId} {reported : Nat} {file : SourceFile} {tokens : List Token}
    {found : List Diagnostic} (run : Run id reported [] file.text.toList tokens found)
    (short : file.size < Offset.limit) : LinesAgree file tokens := by
  constructor
  · have starts : file.lineStarts.toList = 0 :: LineTable.startsAfter 0 file.text.toList := by
      rw [file.lineStarts_eq]
      rfl
    rw [starts]
    exact congrArg (0 :: ·) run.startsAfter_eq
  · intro front token back split
    obtain ⟨ahead, behind, textSplit, start, count⟩ := run.exists_front front token back split
    rw [start, ← count]
    exact SourceFile.exists_line textSplit short
  · intro token member other
    obtain ⟨front, back, split, start, stop⟩ :=
      Text.slice?_eq_some_iff.mp (run.slice?_eq token member)
    rw [List.nil_append] at split
    obtain ⟨place', found', line'⟩ := SourceFile.exists_line split short
    rw [List.append_assoc] at split
    obtain ⟨place, found, line⟩ := SourceFile.exists_line split short
    rw [Text.utf8Size_append, start, stop] at found'
    rw [start] at found
    refine ⟨place, place', found, found', ?_⟩
    rw [line, line', count_newline_append (run.newline_not_mem token member other)]

/-- Newline tokens open lines: a text whose end has an offset before the limit is a file, lexing it
    gives tokens, and the lines of the file agree with the tokens. -/
theorem newline_tokens_open_lines (id : FileId) (name text : String) (log : Log)
    (short : text.utf8ByteSize < Offset.limit) :
    ∃ file tokens after, SourceFile.ofText name text = .ok file ∧
      lex id text log = .ok (tokens, after) ∧ LinesAgree file tokens := by
  obtain ⟨tokens, found, lexed, run⟩ := lex_run id log (Nat.le_of_lt short)
  refine ⟨_, tokens, log.emitAll found, dif_pos (Nat.le_of_lt short), lexed, ?_⟩
  exact Run.linesAgree run short

/-- A text with a carriage return and a character of two bytes before newlines, an empty line, and a
    newline at its end. -/
theorem newline_tokens_open_lines_mixed :
    "a @\r\n\n1.2é\n".utf8ByteSize < Offset.limit ∧
      ∃ file tokens after, SourceFile.ofText "a" "a @\r\n\n1.2é\n" = .ok file ∧
        lex ⟨0⟩ "a @\r\n\n1.2é\n" .empty = .ok (tokens, after) ∧ LinesAgree file tokens :=
  have short : "a @\r\n\n1.2é\n".utf8ByteSize < Offset.limit := by decide
  ⟨short, newline_tokens_open_lines ⟨0⟩ "a" _ .empty short⟩

end FrontEnd
