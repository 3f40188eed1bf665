/-
Module: FrontEnd.Proofs.LineIndependence
Layer: Proofs
Purpose: Newlines separate what is lexed. The tokens and the findings of two texts with a newline
  between them are those of the texts by themselves: no lexeme, no run of fragments and nothing that
  the lexer remembers reaches across the newline.
Imports: FrontEnd.Proofs.RunTransport
Trusted boundary: none
Main exports: Token.newlineAt, Run.append_newline, lex_append_newline
Open obligations: none
-/
import FrontEnd.Proofs.RunTransport

namespace FrontEnd

open Lexer (isNumberPart)
open Text (utf8Size)

/-- The token of a newline at an offset. -/
def Token.newlineAt (offset : Nat) : Token where
  kind := .newline
  span := ⟨offset, offset + 1, Nat.le_succ offset⟩
  text := "\n"

/-- The verdict on a lexeme reaches no further than the text. -/
theorem Lexeme.Verdict.after_le {lexeme : Lexeme} {start reported after : Nat}
    {error : Option LexError} (verdict : lexeme.Verdict start reported error after)
    (within : reported ≤ start + utf8Size (lexeme.text ++ lexeme.rest)) :
    after ≤ start + utf8Size (lexeme.text ++ lexeme.rest) := by
  cases verdict with
  | unexpected => exact within
  | fragments =>
      have inRest : utf8Size lexeme.fragments ≤ utf8Size lexeme.rest :=
        Text.utf8Size_takeWhile_le isNumberPart lexeme.rest
      rw [Text.utf8Size_append]
      omega
  | quiet => exact within

/-- A run over a text is continued by a newline and the run of what stands behind the newline. -/
theorem Run.append_newline {file : FileId} {reported : Nat} {before text : List Char}
    {tokens : List Token} {found : List Diagnostic}
    (run : Run file reported before text tokens found)
    (within : reported ≤ utf8Size (before ++ text)) :
    ∃ front, tokens = front ++ [.endOfFile (utf8Size (before ++ text))] ∧
      ∀ {behind : List Char} {later : List Token} {foundLater : List Diagnostic},
        Run file 0 [] behind later foundLater →
        Run file reported before (text ++ '\n' :: behind)
          (front ++ .newlineAt (utf8Size (before ++ text))
            :: later.map (Token.shift (utf8Size (before ++ text) + 1)))
          (found ++ foundLater.map (Diagnostic.shift (utf8Size (before ++ text) + 1))) := by
  induction run with
  | @finish reported before blanks blank =>
      refine ⟨[], by simp, ?_⟩
      intro behind later foundLater next
      have newline : Lexeme.Shape { kind := .newline, text := ['\n'], rest := behind } := .newline
      have quiet : Lexeme.Verdict { kind := .newline, text := ['\n'], rest := behind }
          (utf8Size before + utf8Size blanks) reported none reported :=
        .quiet (by simp) (by simp)
      have size : utf8Size (before ++ blanks ++ ['\n']) = utf8Size (before ++ blanks) + 1 :=
        Text.utf8Size_append ..
      -- What was reported ends before the newline, so nothing of it is left behind the newline.
      have alike : ReportedAlike 0 (utf8Size (before ++ blanks ++ ['\n'])) 0 reported :=
        .of_le (Nat.le_refl 0) (by rw [size]; omega)
      have more := next.shift (before ++ blanks ++ ['\n']) alike
      rw [size, List.append_nil] at more
      have whole := Run.step rfl blank newline quiet more
      rw [← Text.utf8Size_append] at whole
      exact whole
  | @step reported after before text blanks lexeme error tokens found split blank shape verdict
      more ih =>
      have whole : before ++ blanks ++ lexeme.text ++ lexeme.rest = before ++ text := by
        simp [split]
      have size : utf8Size before + utf8Size blanks + utf8Size (lexeme.text ++ lexeme.rest)
          = utf8Size (before ++ text) := by
        rw [← whole]
        simp only [Text.utf8Size_append, Nat.add_assoc]
      have afterLe := verdict.after_le (by omega)
      obtain ⟨front, last, continued⟩ := ih (by rw [whole]; omega)
      rw [whole] at last continued
      refine ⟨lexeme.tokenAt (utf8Size before + utf8Size blanks) :: front, by rw [last]; rfl, ?_⟩
      intro behind later foundLater next
      have head : ∀ d ∈ (lexeme.rest ++ '\n' :: behind).head?,
          d ∈ lexeme.rest.head? ∨ Lexeme.IsBreak d := by
        intro d found
        cases rest : lexeme.rest with
        | nil =>
            rw [rest] at found
            cases found
            exact Or.inr Lexeme.isBreak_newline
        | cons c rest' =>
            rw [rest] at found
            exact Or.inl found
      have sameFragments : (lexeme.rest ++ '\n' :: behind).takeWhile isNumberPart
          = lexeme.fragments := by
        apply Text.takeWhile_append_of_head
        rintro d ⟨⟩
        exact Lexeme.isBreak_newline.isNumberPart_eq_false
      have splitWhole : text ++ '\n' :: behind
          = blanks ++ (lexeme.text ++ (lexeme.rest ++ '\n' :: behind)) := by
        simp [split]
      have joined := Run.step splitWhole blank (shape.with_rest head)
        (verdict.with_rest sameFragments) (continued next)
      rw [List.append_assoc]
      exact joined

/-- Newlines separate what is lexed: a text, a newline and a second text have the tokens of the
    first text without its end, a newline, and the tokens of the second text moved behind it; and
    the findings are those of the first text and the moved ones of the second. -/
theorem lex_append_newline (file : FileId) (first second : String)
    (fits : first.utf8ByteSize + 1 + second.utf8ByteSize ≤ Offset.limit) :
    ∃ tokens found tokensSecond foundSecond,
      Lexes file first (tokens ++ [.endOfFile first.utf8ByteSize]) found ∧
      Lexes file second tokensSecond foundSecond ∧
      Lexes file (first ++ "\n" ++ second)
        (tokens ++ .newlineAt first.utf8ByteSize
          :: tokensSecond.map (Token.shift (first.utf8ByteSize + 1)))
        (found ++ foundSecond.map (Diagnostic.shift (first.utf8ByteSize + 1))) := by
  have fitsFirst : first.utf8ByteSize ≤ Offset.limit := by omega
  have fitsSecond : second.utf8ByteSize ≤ Offset.limit := by omega
  obtain ⟨tokensFirst, found, -, runFirst⟩ := lex_run file .empty fitsFirst
  obtain ⟨tokensSecond, foundSecond, -, runSecond⟩ := lex_run file .empty fitsSecond
  obtain ⟨tokens, last, continued⟩ := runFirst.append_newline (Nat.zero_le _)
  have size : first.utf8ByteSize = utf8Size ([] ++ first.toList) := Text.utf8ByteSize_eq first
  rw [← size] at last continued
  have joined := continued runSecond
  have whole : (first ++ "\n" ++ second).toList = first.toList ++ '\n' :: second.toList := by
    simp [String.toList_append]
  have fitsWhole : (first ++ "\n" ++ second).utf8ByteSize ≤ Offset.limit := by
    rw [String.utf8ByteSize_append, String.utf8ByteSize_append]
    exact fits
  rw [← whole] at joined
  rw [last] at runFirst
  exact ⟨tokens, found, tokensSecond, foundSecond, lexes_of_run fitsFirst runFirst,
    lexes_of_run fitsSecond runSecond, lexes_of_run fitsWhole joined⟩

/-- A malformed number and an operator on either side of the newline that separates them. -/
theorem lex_append_newline_fragments :
    "x =1.2.".utf8ByteSize + 1 + ".5.6= @".utf8ByteSize ≤ Offset.limit ∧
      ∃ tokens found tokensSecond foundSecond,
        Lexes ⟨0⟩ "x =1.2." (tokens ++ [.endOfFile "x =1.2.".utf8ByteSize]) found ∧
        Lexes ⟨0⟩ ".5.6= @" tokensSecond foundSecond ∧
        Lexes ⟨0⟩ ("x =1.2." ++ "\n" ++ ".5.6= @")
          (tokens ++ .newlineAt "x =1.2.".utf8ByteSize
            :: tokensSecond.map (Token.shift ("x =1.2.".utf8ByteSize + 1)))
          (found ++ foundSecond.map (Diagnostic.shift ("x =1.2.".utf8ByteSize + 1))) :=
  have fits : "x =1.2.".utf8ByteSize + 1 + ".5.6= @".utf8ByteSize ≤ Offset.limit := by decide
  ⟨fits, lex_append_newline ⟨0⟩ _ _ fits⟩

end FrontEnd
