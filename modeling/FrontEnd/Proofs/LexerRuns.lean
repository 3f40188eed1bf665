/-
Module: FrontEnd.Proofs.LexerRuns
Layer: Proofs
Purpose: Runs of the lexer without its checks. A text that fits is read to its end without a fault,
  and its tokens and findings are those of a run: blanks and lexemes in turn, each lexeme with the
  verdict on it. What holds of every lexing is proved by induction on the run.
Imports: FrontEnd.Lexer.Basic, FrontEnd.Proofs.LexemeShapes
Trusted boundary: none
Main exports: Log.emitAll, Lexeme.tokenAt, Lexeme.Verdict, Run, Run.eq_endOfFile_or_exists_shape,
  Lexer.nextToken_of_blank, Lexer.nextToken_of_lexeme, Lexer.remaining_run, lex_run
Open obligations: none
-/
import FrontEnd.Lexer.Basic
import FrontEnd.Proofs.LexemeShapes

namespace FrontEnd

open Lexer (isBlank isNumberPart)
open Text (utf8Size)

/-! ### Logs -/

namespace Log

/-- The log with several more findings. -/
def emitAll (log : Log) (found : List Diagnostic) : Log :=
  found.foldl emit log

@[simp] theorem emitAll_nil (log : Log) : log.emitAll [] = log := rfl

theorem emitAll_append (log : Log) (first second : List Diagnostic) :
    log.emitAll (first ++ second) = (log.emitAll first).emitAll second :=
  List.foldl_append

@[simp] theorem toList_emitAll (log : Log) (found : List Diagnostic) :
    (log.emitAll found).toList = log.toList ++ found := by
  induction found generalizing log with
  | nil =>
      simp
  | cons diagnostic found ih =>
      have step : log.emitAll (diagnostic :: found) = (log.emit diagnostic).emitAll found := rfl
      rw [step, ih, toList_emit, List.append_assoc]
      rfl

end Log

/-! ### Tokens -/

namespace Token

@[simp] theorem span_endOfFile (offset : Nat) : (endOfFile offset).span = .point offset := rfl

@[simp] theorem text_endOfFile (offset : Nat) : (endOfFile offset).text = "" := rfl

end Token

@[simp] theorem Span.start_point (offset : Nat) : (point offset).start = offset := rfl

/-! ### What a lexeme comes to -/

namespace Lexeme

/-- Where a lexeme stands that starts at an offset. -/
def spanAt (lexeme : Lexeme) (start : Nat) : Span where
  start := start
  stop := start + utf8Size lexeme.text
  start_le_stop := Nat.le_add_right _ _

/-- Where the point stands that follows a lexeme which starts at an offset. -/
def pointAfter (lexeme : Lexeme) (start : Nat) : Span where
  start := start + utf8Size lexeme.text
  stop := start + utf8Size lexeme.text + 1
  start_le_stop := Nat.le_succ _

/-- The token of a lexeme that starts at an offset. -/
def tokenAt (lexeme : Lexeme) (start : Nat) : Token where
  kind := lexeme.kind
  span := lexeme.spanAt start
  text := String.ofList lexeme.text

@[simp] theorem start_spanAt (lexeme : Lexeme) (start : Nat) :
    (lexeme.spanAt start).start = start := rfl

@[simp] theorem stop_spanAt (lexeme : Lexeme) (start : Nat) :
    (lexeme.spanAt start).stop = start + utf8Size lexeme.text := rfl

@[simp] theorem kind_tokenAt (lexeme : Lexeme) (start : Nat) :
    (lexeme.tokenAt start).kind = lexeme.kind := rfl

@[simp] theorem span_tokenAt (lexeme : Lexeme) (start : Nat) :
    (lexeme.tokenAt start).span = lexeme.spanAt start := rfl

@[simp] theorem text_tokenAt (lexeme : Lexeme) (start : Nat) :
    (lexeme.tokenAt start).text = String.ofList lexeme.text := rfl

/-- The fragments of a number behind a lexeme. -/
def fragments (lexeme : Lexeme) : List Char :=
  lexeme.rest.takeWhile isNumberPart

/-- The verdict on a lexeme that starts at an offset, when points before `reported` belong to a run
    that was reported already: the error to report, if any, and how far runs are reported now. -/
inductive Verdict (lexeme : Lexeme) (start reported : Nat) : Option LexError → Nat → Prop where
  | unexpected {c : Char} (kind : lexeme.kind = .invalid) (text : lexeme.text = [c]) :
      Verdict lexeme start reported
        (some { span := lexeme.spanAt start, problem := .unexpectedCharacter c }) reported
  | fragments {tail : List Char} (kind : lexeme.kind = .floatLiteral)
      (point : lexeme.rest = '.' :: tail)
      (unreported : reported ≤ start + utf8Size lexeme.text) :
      Verdict lexeme start reported
        (some
          { span := lexeme.pointAfter start
            problem := .ofFragments lexeme.text lexeme.fragments })
        (start + utf8Size lexeme.text + utf8Size lexeme.fragments)
  | quiet (kind : lexeme.kind ≠ .invalid)
      (covered : lexeme.kind = .floatLiteral → ∀ tail, lexeme.rest = '.' :: tail →
        start + utf8Size lexeme.text < reported) :
      Verdict lexeme start reported none reported

end Lexeme

namespace Lexer

/-- Reporting the fragments behind a float of a text that fits. -/
theorem reportFragments_eq {lexer : Lexer} {lexeme : Lexeme} {start : Nat} {tail : List Char}
    (point : lexeme.rest = '.' :: tail)
    (fits : start + utf8Size (lexeme.text ++ lexeme.rest) ≤ Offset.limit) :
    lexer.reportFragments lexeme (start + utf8Size lexeme.text) =
      .ok { lexer.report
              { span := lexeme.pointAfter start
                problem := .ofFragments lexeme.text lexeme.fragments } with
            reportedUntil := start + utf8Size lexeme.text + utf8Size lexeme.fragments } := by
  have inText := Text.utf8Size_takeWhile_le isNumberPart lexeme.rest
  have dot : utf8Size lexeme.rest = 1 + utf8Size tail := by
    rw [point]
    rfl
  rw [Text.utf8Size_append] at fits
  have runEnd : Offset.add (start + utf8Size lexeme.text) (utf8Size lexeme.fragments)
      = .ok (start + utf8Size lexeme.text + utf8Size lexeme.fragments) :=
    Offset.add_eq_ok_iff.mpr ⟨by rw [Lexeme.fragments]; omega, rfl⟩
  have pointEnd : Offset.add (start + utf8Size lexeme.text) 1
      = .ok (start + utf8Size lexeme.text + 1) :=
    Offset.add_eq_ok_iff.mpr ⟨by omega, rfl⟩
  have span : Span.ofBounds (start + utf8Size lexeme.text) (start + utf8Size lexeme.text + 1)
      = .ok (lexeme.pointAfter start) :=
    Span.ofBounds_eq_ok (lexeme.pointAfter start)
  rw [Lexeme.fragments] at runEnd
  simp only [reportFragments, runEnd, pointEnd, span, bind, Except.bind, pure, Except.pure]
  rfl

/-- Inspecting a lexeme of a text that fits ends in its verdict. -/
theorem inspect_verdict {lexer : Lexer} {lexeme : Lexeme} {start : Nat} (shape : lexeme.Shape)
    (fits : start + utf8Size (lexeme.text ++ lexeme.rest) ≤ Offset.limit) :
    ∃ error reported, lexeme.Verdict start lexer.reportedUntil error reported ∧
      lexer.inspect lexeme (lexeme.spanAt start) =
        .ok { lexer with
              reportedUntil := reported
              log := lexer.log.emitAll (error.toList.map (·.toDiagnostic lexer.file)) } := by
  unfold inspect
  split
  · rename_i c tail kind text
    obtain ⟨d, alone, -⟩ := shape.text_of_invalid kind
    rw [alone] at text
    cases text
    exact ⟨_, _, .unexpected kind alone, rfl⟩
  · rename_i tail kind point
    split
    · rename_i unreported
      exact ⟨_, _, .fragments kind point unreported, reportFragments_eq point fits⟩
    · rename_i covered
      have valid : lexeme.kind ≠ .invalid := by simp [kind]
      exact ⟨none, _, .quiet valid fun _ _ _ => Nat.lt_of_not_le covered, rfl⟩
  · rename_i notInvalid notPoint
    have valid : lexeme.kind ≠ .invalid := by
      intro kind
      obtain ⟨c, tail, text⟩ := List.exists_cons_of_ne_nil shape.text_ne_nil
      exact notInvalid c tail kind text
    exact ⟨none, _, .quiet valid fun kind tail point => absurd point (notPoint tail kind), rfl⟩

/-- Where only blanks are left, the next token is the end of the text. -/
theorem nextToken_of_blank {lexer : Lexer} (blank : ∀ c ∈ lexer.rest, isBlank c = true)
    (fits : lexer.position + utf8Size lexer.rest ≤ Offset.limit) :
    lexer.nextToken =
      .ok (.endOfFile (lexer.position + utf8Size lexer.rest),
        { lexer with rest := [], position := lexer.position + utf8Size lexer.rest }) := by
  have skipped : lexer.rest.takeWhile isBlank = lexer.rest := List.takeWhile_eq_self_iff.mpr blank
  have empty : lexer.rest.dropWhile isBlank = [] := List.dropWhile_eq_nil_iff.mpr blank
  have start : Offset.add lexer.position (utf8Size lexer.rest)
      = .ok (lexer.position + utf8Size lexer.rest) :=
    Offset.add_eq_ok_iff.mpr ⟨fits, rfl⟩
  simp only [nextToken, skipped, empty, start, bind, Except.bind, pure, Except.pure]

/-- Where a lexeme is left behind blanks, the next token is the token of the lexeme, and the lexer
    goes on behind it with the verdict on it. -/
theorem nextToken_of_lexeme {lexer : Lexer} {blanks : List Char} {lexeme : Lexeme}
    (text : lexer.rest = blanks ++ (lexeme.text ++ lexeme.rest))
    (blank : ∀ c ∈ blanks, isBlank c = true) (shape : lexeme.Shape)
    (fits : lexer.position + utf8Size lexer.rest ≤ Offset.limit) :
    ∃ error reported,
      lexeme.Verdict (lexer.position + utf8Size blanks) lexer.reportedUntil error reported ∧
      lexer.nextToken =
        .ok (lexeme.tokenAt (lexer.position + utf8Size blanks),
          { lexer with
            rest := lexeme.rest
            position := lexer.position + utf8Size blanks + utf8Size lexeme.text
            reportedUntil := reported
            log := lexer.log.emitAll (error.toList.map (·.toDiagnostic lexer.file)) }) := by
  obtain ⟨c, input, front, -, read⟩ := shape.read_eq
  have skipped : lexer.rest.takeWhile isBlank = blanks := by
    rw [text, Text.takeWhile_append_of_stop blank shape.visible]
  have left : lexer.rest.dropWhile isBlank = c :: input := by
    rw [text, Text.dropWhile_append_of_stop blank shape.visible, front]
  rw [text, Text.utf8Size_append] at fits
  obtain ⟨error, reported, verdict, inspected⟩ :=
    @inspect_verdict lexer lexeme (lexer.position + utf8Size blanks) shape (by omega)
  rw [Text.utf8Size_append] at fits
  have startEq : Offset.add lexer.position (utf8Size blanks)
      = .ok (lexer.position + utf8Size blanks) :=
    Offset.add_eq_ok_iff.mpr ⟨by omega, rfl⟩
  have stopEq : Offset.add (lexer.position + utf8Size blanks) (utf8Size lexeme.text)
      = .ok (lexer.position + utf8Size blanks + utf8Size lexeme.text) :=
    Offset.add_eq_ok_iff.mpr ⟨by omega, rfl⟩
  have spanEq : Span.ofBounds (lexer.position + utf8Size blanks)
      (lexer.position + utf8Size blanks + utf8Size lexeme.text)
      = .ok (lexeme.spanAt (lexer.position + utf8Size blanks)) :=
    Span.ofBounds_eq_ok (lexeme.spanAt (lexer.position + utf8Size blanks))
  refine ⟨error, reported, verdict, ?_⟩
  simp only [nextToken, skipped, left, startEq, read, stopEq, spanEq, inspected, bind,
    Except.bind, pure, Except.pure]
  rfl

end Lexer

/-! ### Runs -/

/-- A run of the lexer over a text that stands behind `before`: the tokens and the findings, when
    points before `reported` belong to a run of fragments that was reported already. -/
inductive Run (file : FileId) :
    Nat → List Char → List Char → List Token → List Diagnostic → Prop where
  | finish {reported : Nat} {before blanks : List Char}
      (blank : ∀ c ∈ blanks, isBlank c = true) :
      Run file reported before blanks
        [.endOfFile (utf8Size before + utf8Size blanks)] []
  | step {reported reported' : Nat} {before text blanks : List Char} {lexeme : Lexeme}
      {error : Option LexError} {tokens : List Token} {found : List Diagnostic}
      (split : text = blanks ++ (lexeme.text ++ lexeme.rest))
      (blank : ∀ c ∈ blanks, isBlank c = true) (shape : lexeme.Shape)
      (verdict : lexeme.Verdict (utf8Size before + utf8Size blanks) reported error reported')
      (more : Run file reported' (before ++ blanks ++ lexeme.text) lexeme.rest tokens found) :
      Run file reported before text
        (lexeme.tokenAt (utf8Size before + utf8Size blanks) :: tokens)
        (error.toList.map (·.toDiagnostic file) ++ found)

/-- Each token of a run ends the text, or it is the token of a lexeme. -/
theorem Run.eq_endOfFile_or_exists_shape {file : FileId} {reported : Nat}
    {before text : List Char} {tokens : List Token} {found : List Diagnostic}
    (run : Run file reported before text tokens found) :
    ∀ token ∈ tokens, (∃ offset, token = .endOfFile offset) ∨
      ∃ (lexeme : Lexeme) (start : Nat), lexeme.Shape ∧ token = lexeme.tokenAt start := by
  induction run with
  | finish =>
      intro token member
      exact Or.inl ⟨_, List.mem_singleton.mp member⟩
  | step _ _ shape _ _ ih =>
      exact List.forall_mem_cons.mpr ⟨Or.inr ⟨_, _, shape, rfl⟩, ih⟩

/-- A text is blank, or it has blanks and a lexeme at its front. -/
theorem blank_or_lexeme (text : List Char) :
    (∀ c ∈ text, isBlank c = true) ∨
      ∃ (blanks : List Char) (lexeme : Lexeme),
        text = blanks ++ (lexeme.text ++ lexeme.rest) ∧ (∀ c ∈ blanks, isBlank c = true) ∧
        lexeme.Shape := by
  have split := List.takeWhile_append_dropWhile (p := isBlank) (l := text)
  cases left : text.dropWhile isBlank with
  | nil =>
      exact Or.inl (List.dropWhile_eq_nil_iff.mp left)
  | cons c input =>
      have visible : isBlank c = false := Text.stop_dropWhile isBlank text c (by rw [left]; rfl)
      refine Or.inr ⟨text.takeWhile isBlank, Lexeme.read c input, ?_,
        fun _ member => List.mem_takeWhile_imp member, Lexeme.shape_read input visible⟩
      rw [Lexeme.text_append_rest, ← left, split]

namespace Lexer

/-- The end of the text is the last token. -/
theorem remaining_of_last {lexer next : Lexer} {token : Token}
    (unfinished : lexer.finished = false) (step : lexer.nextToken = .ok (token, next))
    (last : token.isEndOfFile = true) :
    lexer.remaining = .ok ([token], { next with finished := true }) := by
  rw [remaining, if_neg (by simp [unfinished])]
  split
  · rename_i fault failed
    cases failed.symm.trans step
  · rename_i token' next' step'
    cases step'.symm.trans step
    rw [dif_pos last]

/-- Any other token is followed by the tokens that remain behind it. -/
theorem remaining_of_step {lexer next after : Lexer} {token : Token} {tokens : List Token}
    (unfinished : lexer.finished = false) (step : lexer.nextToken = .ok (token, next))
    (more : token.isEndOfFile = false) (rest : next.remaining = .ok (tokens, after)) :
    lexer.remaining = .ok (token :: tokens, after) := by
  rw [remaining, if_neg (by simp [unfinished])]
  split
  · rename_i fault failed
    cases failed.symm.trans step
  · rename_i token' next' step'
    cases step'.symm.trans step
    rw [dif_neg (by simp [more]), rest]

/-- A lexer whose text fits comes to the end of the text without a fault, and what it hands out and
    reports on the way are a run. -/
theorem remaining_run {lexer : Lexer} {before : List Char}
    (unfinished : lexer.finished = false) (position : lexer.position = utf8Size before)
    (fits : utf8Size before + utf8Size lexer.rest ≤ Offset.limit) :
    ∃ tokens found after, lexer.remaining = .ok (tokens, after) ∧
      after.log = lexer.log.emitAll found ∧
      Run lexer.file lexer.reportedUntil before lexer.rest tokens found := by
  -- The rest gets shorter with each lexeme; what is in front of it is carried along.
  induction size : lexer.rest.length using Nat.strong_induction_on generalizing lexer before with
  | _ length ih =>
      rcases blank_or_lexeme lexer.rest with blank | ⟨blanks, lexeme, text, blank, shape⟩
      · have step := nextToken_of_blank blank (by omega)
        refine ⟨_, [], _, remaining_of_last unfinished step rfl, rfl, ?_⟩
        rw [position]
        exact .finish blank
      · obtain ⟨error, reported, verdict, step⟩ :=
          nextToken_of_lexeme text blank shape (by omega)
        have shorter : lexeme.rest.length < length := by
          have filled := List.length_pos_iff.mpr shape.text_ne_nil
          rw [← size, text]
          simp only [List.length_append]
          omega
        have sizes := congrArg utf8Size text
        simp only [Text.utf8Size_append] at sizes
        obtain ⟨tokens, found, after, rest, log, run⟩ :=
          @ih lexeme.rest.length shorter
            { lexer with
              rest := lexeme.rest
              position := lexer.position + utf8Size blanks + utf8Size lexeme.text
              reportedUntil := reported
              log := lexer.log.emitAll (error.toList.map (·.toDiagnostic lexer.file)) }
            (before ++ blanks ++ lexeme.text) unfinished
            (by simp [position, Nat.add_assoc]) (by simp only [Text.utf8Size_append]; omega) rfl
        have more : (lexeme.tokenAt (lexer.position + utf8Size blanks)).isEndOfFile = false := by
          have kind := shape.kind_ne_endOfFile
          simpa [Token.isEndOfFile, Lexeme.tokenAt] using kind
        refine ⟨_, error.toList.map (·.toDiagnostic lexer.file) ++ found, after,
          remaining_of_step unfinished step more rest, ?_, ?_⟩
        · rw [log, Log.emitAll_append]
        · rw [position] at verdict ⊢
          exact .step text blank shape verdict run

end Lexer

/-- Lexing a text that fits gives the tokens of a run and adds its findings to the log. -/
theorem lex_run (file : FileId) {text : String} (log : Log)
    (fits : text.utf8ByteSize ≤ Offset.limit) :
    ∃ tokens found, lex file text log = .ok (tokens, log.emitAll found) ∧
      Run file 0 [] text.toList tokens found := by
  have start : Lexer.start file text log = .ok { file, rest := text.toList, log } := if_pos fits
  rw [Text.utf8ByteSize_eq] at fits
  obtain ⟨tokens, found, after, rest, logged, run⟩ :=
    @Lexer.remaining_run { file, rest := text.toList, log } [] rfl rfl (by simpa using fits)
  refine ⟨tokens, found, ?_, run⟩
  simp only [lex, start, rest, logged, bind, Except.bind, pure, Except.pure]

end FrontEnd
