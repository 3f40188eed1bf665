/-
Module: FrontEnd.Proofs.AppendedText
Layer: Proofs
Purpose: Texts that go on. One character of lookahead decides where a token ends, so appending to a
  text changes no token that ends before its end; and although a run of fragments is read on as far
  as it goes, no finding before the end comes, goes or moves.
Imports: FrontEnd.Proofs.RunTransport, FrontEnd.Proofs.FragmentReports,
  FrontEnd.Proofs.FindingPlaces
Trusted boundary: none
Main exports: Token.endsBefore, Diagnostic.endsBefore, Run.nothing_before, Lexeme.goOn,
  Lexeme.Verdict.of_appended, SameOrReadOn, Run.forall₂_endsBefore, SameButQuote,
  lex_append_keeps_before
Open obligations: none
-/
import FrontEnd.Proofs.RunTransport
import FrontEnd.Proofs.FragmentReports
import FrontEnd.Proofs.FindingPlaces

namespace FrontEnd

open Lexer (isBlank isNumberPart)
open Text (utf8Size)

/-! ### Before an offset -/

/-- Whether a token ends before an offset, and does not even touch it. -/
def Token.endsBefore (offset : Nat) (token : Token) : Bool :=
  token.span.stop < offset

/-- Whether what a finding marks ends before an offset. -/
def Diagnostic.endsBefore (offset : Nat) (finding : Diagnostic) : Bool :=
  finding.labels.all fun label => label.span.stop < offset

theorem LexError.endsBefore_toDiagnostic (error : LexError) (file : FileId) (offset : Nat) :
    (error.toDiagnostic file).endsBefore offset = decide (error.span.stop < offset) := by
  simp [Diagnostic.endsBefore, labels_toDiagnostic]

/-- The finding at a lexeme marks nothing that ends before the lexeme does. -/
theorem Lexeme.Verdict.le_stop {lexeme : Lexeme} {start reported after : Nat}
    {error : Option LexError} (verdict : lexeme.Verdict start reported error after) :
    ∀ e ∈ error, start + utf8Size lexeme.text ≤ e.span.stop := by
  cases verdict with
  | unexpected =>
      rintro e ⟨⟩
      exact Nat.le_refl _
  | fragments =>
      rintro e ⟨⟩
      exact Nat.le_succ _
  | quiet =>
      rintro e ⟨⟩

namespace Run

variable {file : FileId} {reported offset : Nat} {before text blanks : List Char} {lexeme : Lexeme}
  {tokens : List Token} {found : List Diagnostic}

/-- A run has nothing before the text that it is over. -/
theorem nothing_before (run : Run file reported before text tokens found)
    (within : offset ≤ utf8Size before) :
    tokens.filter (·.endsBefore offset) = [] ∧ found.filter (·.endsBefore offset) = [] := by
  constructor
  · apply List.filter_eq_nil_iff.mpr
    intro token member
    have start := run.le_start token member
    have forward := token.span.start_le_stop
    simp only [Token.endsBefore, decide_eq_true_eq]
    omega
  · apply List.filter_eq_nil_iff.mpr
    intro finding member
    obtain ⟨-, -, label, -, labels, -⟩ := run.label_of_mem finding member
    have start := run.le_label finding member label (by simp [labels])
    have forward := label.span.start_le_stop
    simp only [Diagnostic.endsBefore, labels, List.all_cons, List.all_nil, Bool.and_true,
      decide_eq_true_eq]
    omega

/-- A run has nothing before the end of its first lexeme. -/
theorem nothing_before_stop (run : Run file reported before text tokens found)
    (split : text = blanks ++ (lexeme.text ++ lexeme.rest))
    (blank : ∀ c ∈ blanks, isBlank c = true) (shape : lexeme.Shape)
    (reaches : offset ≤ utf8Size before + utf8Size blanks + utf8Size lexeme.text) :
    tokens.filter (·.endsBefore offset) = [] ∧ found.filter (·.endsBefore offset) = [] := by
  obtain ⟨error, after, later, foundLater, verdict, more, rfl, rfl⟩ :=
    run.of_lexeme split blank shape
  have place : offset ≤ utf8Size (before ++ blanks ++ lexeme.text) := by
    simpa only [Text.utf8Size_append] using reaches
  obtain ⟨noTokens, noFindings⟩ := more.nothing_before place
  constructor
  · rw [List.filter_cons_of_neg, noTokens]
    exact fun ends => Nat.not_lt.mpr reaches (of_decide_eq_true ends)
  · rw [List.filter_append, noFindings, List.append_nil]
    apply List.filter_eq_nil_iff.mpr
    intro finding member
    obtain ⟨e, listed, rfl⟩ := List.mem_map.mp member
    have stop := verdict.le_stop e (Option.mem_toList.mp listed)
    rw [LexError.endsBefore_toDiagnostic, decide_eq_true_eq]
    omega

end Run

/-! ### The lexeme at the end of a text -/

namespace Lexeme

/-- A lexeme in front of a text that goes on. -/
def goOn (lexeme : Lexeme) (more : List Char) : Lexeme :=
  { lexeme with rest := lexeme.rest ++ more }

@[simp] theorem text_goOn (lexeme : Lexeme) (more : List Char) :
    (lexeme.goOn more).text = lexeme.text := rfl

@[simp] theorem rest_goOn (lexeme : Lexeme) (more : List Char) :
    (lexeme.goOn more).rest = lexeme.rest ++ more := rfl

@[simp] theorem tokenAt_goOn (lexeme : Lexeme) (more : List Char) (start : Nat) :
    (lexeme.goOn more).tokenAt start = lexeme.tokenAt start := rfl

/-- A lexeme that is not the last of its text stays what it is when the text goes on. -/
theorem Shape.goOn {lexeme : Lexeme} (shape : lexeme.Shape) (ahead : lexeme.rest ≠ [])
    (more : List Char) : (lexeme.goOn more).Shape := by
  apply shape.with_rest
  intro d head
  left
  obtain ⟨c, rest, front⟩ := List.exists_cons_of_ne_nil ahead
  rw [front] at head ⊢
  exact head

/-- The fragments behind a lexeme are the same when the text goes on, or they reach its end. -/
theorem fragments_goOn (lexeme : Lexeme) (more : List Char) :
    (lexeme.goOn more).fragments = lexeme.fragments ∨
      (lexeme.fragments = lexeme.rest ∧
        (lexeme.goOn more).fragments = lexeme.rest ++ more.takeWhile isNumberPart) := by
  rw [fragments, rest_goOn, List.takeWhile_append]
  split
  · rename_i all
    exact Or.inr ⟨(List.takeWhile_prefix isNumberPart).eq_of_length all, rfl⟩
  · exact Or.inl rfl

/-- A point behind a lexeme that is not the last was there before the text went on. -/
theorem point_of_goOn {lexeme : Lexeme} {more tail : List Char} (ahead : lexeme.rest ≠ [])
    (point : (lexeme.goOn more).rest = '.' :: tail) : ∃ tail, lexeme.rest = '.' :: tail := by
  obtain ⟨c, rest, front⟩ := List.exists_cons_of_ne_nil ahead
  rw [rest_goOn, front] at point
  cases point
  exact ⟨rest, front⟩

/-- A text with a lexeme at its front has one there as well when it goes on. -/
theorem Shape.exists_appended {lexeme : Lexeme} (shape : lexeme.Shape) (more : List Char) :
    ∃ longer : Lexeme, longer.Shape ∧
      longer.text ++ longer.rest = lexeme.text ++ (lexeme.rest ++ more) := by
  obtain ⟨c, input, front, visible, -⟩ := shape.read_eq
  refine ⟨read c (input ++ more), shape_read _ visible, ?_⟩
  rw [text_append_rest, ← List.append_assoc, front, List.cons_append]

/-- The last lexeme of a text does not get shorter when the text goes on. -/
theorem Shape.size_le_of_last {lexeme longer : Lexeme} {more : List Char} (shape : lexeme.Shape)
    (last : lexeme.rest = []) (shape' : longer.Shape)
    (appended : longer.text ++ longer.rest = lexeme.text ++ (lexeme.rest ++ more)) :
    utf8Size lexeme.text ≤ utf8Size longer.text := by
  rw [last, List.nil_append] at appended
  rcases List.append_eq_append_iff.mp appended with
    ⟨left, split, rest⟩ | ⟨further, longerText, -⟩
  · -- A shorter lexeme would have been the lexeme of the text before it went on.
    have cut : Shape { longer with rest := left } := by
      apply shape'.with_rest
      intro d head
      left
      rw [rest, List.head?_append, Option.mem_def.mp head]
      rfl
    have same := cut.unique shape (by rw [last, List.append_nil, split])
    rw [← congrArg Lexeme.text same]
  · rw [longerText, Text.utf8Size_append]
    exact Nat.le_add_right _ _

/-- The verdicts on a lexeme that is not the last, in a text and when the text goes on: what was
    reported before the end of the text stays the same, and so does the error, but for fragments
    that reach the end. -/
theorem Verdict.of_appended {lexeme : Lexeme} {more : List Char}
    {start reported reported' after after' : Nat} {error error' : Option LexError}
    (verdict : lexeme.Verdict start reported error after)
    (appended : (lexeme.goOn more).Verdict start reported' error' after')
    (ahead : lexeme.rest ≠ [])
    (alike : ∀ later < start + utf8Size (lexeme.text ++ lexeme.rest),
      reported ≤ later ↔ reported' ≤ later) :
    (∀ later < start + utf8Size (lexeme.text ++ lexeme.rest), after ≤ later ↔ after' ≤ later) ∧
      (error' = error ∨ ∃ fragments, lexeme.kind = .floatLiteral ∧
        (∃ tail, lexeme.rest = '.' :: tail) ∧ lexeme.fragments = lexeme.rest ∧
        error = some ⟨lexeme.pointAfter start, .ofFragments lexeme.text lexeme.fragments⟩ ∧
        error' = some ⟨lexeme.pointAfter start, .ofFragments lexeme.text fragments⟩) := by
  have filled := Text.utf8Size_pos ahead
  have stop := alike (start + utf8Size lexeme.text) (by rw [Text.utf8Size_append]; omega)
  cases verdict with
  | unexpected kind text =>
      cases appended with
      | unexpected _ text' =>
          cases text.symm.trans text'
          exact ⟨alike, Or.inl rfl⟩
      | fragments kind' => cases kind.symm.trans kind'
      | quiet kind' => exact absurd kind kind'
  | @fragments tail kind point unreported =>
      cases appended with
      | unexpected kind' => cases kind.symm.trans kind'
      | quiet _ covered =>
          have reportedBefore : start + utf8Size lexeme.text < reported' :=
            covered kind (tail ++ more) (by rw [rest_goOn, point, List.cons_append])
          omega
      | fragments =>
          rcases lexeme.fragments_goOn more with same | ⟨whole, longer⟩
          · rw [same]
            exact ⟨fun _ _ => Iff.rfl, Or.inl rfl⟩
          · -- Both runs reach the end of the text, so nothing before the end tells them apart.
            refine ⟨fun later before => ?_, Or.inr ⟨_, kind, ⟨tail, point⟩, whole, rfl, rfl⟩⟩
            rw [longer, text_goOn, Text.utf8Size_append, whole]
            rw [Text.utf8Size_append] at before
            omega
  | quiet kind covered =>
      cases appended with
      | unexpected kind' => exact absurd kind' kind
      | fragments kind' point' unreported' =>
          obtain ⟨tail, point⟩ := point_of_goOn ahead point'
          have reportedBefore := covered kind' tail point
          have unreported := stop.mpr unreported'
          omega
      | quiet => exact ⟨alike, Or.inl rfl⟩

end Lexeme

/-! ### Findings before the end -/

/-- Two findings are the same, or the first is the report of a run of fragments that stands in a
    text and goes up to an offset, and the second reports a run that begins with the same float. -/
def SameOrReadOn (file : FileId) (offset : Nat) (text : List Char) (tokens : List Token)
    (finding longer : Diagnostic) : Prop :=
  longer = finding ∨ ∃ (run : FragmentRun) (fragments : List Char),
    run.Stands text tokens ∧ run.span.stop = offset ∧ finding = run.finding file ∧
    longer = LexError.toDiagnostic
      ⟨run.front.pointAfter run.start, .ofFragments run.front.text fragments⟩ file

theorem SameOrReadOn.cons {file : FileId} {offset : Nat} {text : List Char} {tokens : List Token}
    {finding longer : Diagnostic} (related : SameOrReadOn file offset text tokens finding longer)
    (token : Token) : SameOrReadOn file offset text (token :: tokens) finding longer := by
  rcases related with same | ⟨run, fragments, stands, stop, first, second⟩
  · exact Or.inl same
  · exact Or.inr ⟨run, fragments, stands.cons token, stop, first, second⟩

/-- Of two errors at one place, both findings end before an offset or none. -/
theorem forall₂_filter_of_span {related : Diagnostic → Diagnostic → Prop} {file : FileId}
    {offset : Nat} {error error' : LexError} (span : error'.span = error.span)
    (holds : related (error.toDiagnostic file) (error'.toDiagnostic file)) :
    List.Forall₂ related
      ([error.toDiagnostic file].filter (·.endsBefore offset))
      ([error'.toDiagnostic file].filter (·.endsBefore offset)) := by
  rw [List.filter_singleton, List.filter_singleton, LexError.endsBefore_toDiagnostic,
    LexError.endsBefore_toDiagnostic, span]
  cases decide (error.span.stop < offset) with
  | true => exact .cons holds .nil
  | false => exact .nil

/-- When a blank text goes on, nothing ends before the end of the text. -/
theorem Run.nothing_before_of_blank {file : FileId} {reported : Nat}
    {before blanks more : List Char} {tokens : List Token} {found : List Diagnostic}
    (appended : Run file reported before (blanks ++ more) tokens found)
    (blank : ∀ c ∈ blanks, isBlank c = true) :
    tokens.filter (·.endsBefore (utf8Size (before ++ blanks))) = [] ∧
      found.filter (·.endsBefore (utf8Size (before ++ blanks))) = [] := by
  rcases blank_or_lexeme more with blank' | ⟨blanks', lexeme, split, blank', shape⟩
  · have allBlank := List.forall_mem_append.mpr ⟨blank, blank'⟩
    obtain ⟨rfl, rfl⟩ := appended.of_blank allBlank
    simp [Token.endsBefore, Span.point]
  · have splitAppended : blanks ++ more = blanks ++ blanks' ++ (lexeme.text ++ lexeme.rest) := by
      rw [split, List.append_assoc]
    refine appended.nothing_before_stop splitAppended
      (List.forall_mem_append.mpr ⟨blank, blank'⟩) shape ?_
    simp only [Text.utf8Size_append]
    omega

/-- When a text goes on behind its last lexeme, nothing ends before the end of the lexeme. -/
theorem Run.nothing_before_of_last {file : FileId} {reported : Nat}
    {before text blanks more : List Char} {lexeme : Lexeme} {tokens : List Token}
    {found : List Diagnostic} (appended : Run file reported before (text ++ more) tokens found)
    (split : text = blanks ++ (lexeme.text ++ lexeme.rest))
    (blank : ∀ c ∈ blanks, isBlank c = true) (shape : lexeme.Shape) (last : lexeme.rest = []) :
    tokens.filter (·.endsBefore (utf8Size (before ++ text))) = [] ∧
      found.filter (·.endsBefore (utf8Size (before ++ text))) = [] := by
  obtain ⟨longer, shape', front⟩ := shape.exists_appended more
  have splitLonger : text ++ more = blanks ++ (longer.text ++ longer.rest) := by
    rw [split, front, List.append_assoc, List.append_assoc]
  refine appended.nothing_before_stop splitLonger blank shape' ?_
  have reaches := shape.size_le_of_last last shape' front
  rw [split, last, List.append_nil]
  simp only [Text.utf8Size_append]
  omega

/-- The run over a text and the run over the text when it goes on agree on all that ends before the
    end of the text, if they agree on what was reported there. -/
theorem Run.forall₂_endsBefore {file : FileId} {reported reported' : Nat}
    {before text more : List Char} {tokens tokens' : List Token} {found found' : List Diagnostic}
    (run : Run file reported before text tokens found)
    (appended : Run file reported' before (text ++ more) tokens' found')
    (alike : ∀ later < utf8Size (before ++ text), reported ≤ later ↔ reported' ≤ later) :
    tokens'.filter (·.endsBefore (utf8Size (before ++ text)))
        = tokens.filter (·.endsBefore (utf8Size (before ++ text))) ∧
      List.Forall₂ (SameOrReadOn file (utf8Size (before ++ text)) (before ++ text) tokens)
        (found.filter (·.endsBefore (utf8Size (before ++ text))))
        (found'.filter (·.endsBefore (utf8Size (before ++ text)))) := by
  -- Where nothing of either run ends before the end of the text, there is nothing to compare.
  have nothing {offset : Nat} {source : List Char} {tokens tokens' : List Token}
      {found found' : List Diagnostic}
      (one : tokens.filter (·.endsBefore offset) = [] ∧ found.filter (·.endsBefore offset) = [])
      (two : tokens'.filter (·.endsBefore offset) = [] ∧
        found'.filter (·.endsBefore offset) = []) :
      tokens'.filter (·.endsBefore offset) = tokens.filter (·.endsBefore offset) ∧
        List.Forall₂ (SameOrReadOn file offset source tokens)
          (found.filter (·.endsBefore offset)) (found'.filter (·.endsBefore offset)) := by
    rw [one.1, one.2, two.1, two.2]
    exact ⟨rfl, .nil⟩
  induction run generalizing reported' tokens' found' with
  | @finish reported before blanks blank =>
      refine nothing ⟨?_, rfl⟩ (appended.nothing_before_of_blank blank)
      simp [Token.endsBefore, Span.point]
  | @step reported after before text blanks lexeme error tokens found split blank shape verdict
      next ih =>
      have whole : before ++ text = before ++ blanks ++ lexeme.text ++ lexeme.rest := by
        simp [split]
      have size : utf8Size (before ++ text)
          = utf8Size before + utf8Size blanks + utf8Size (lexeme.text ++ lexeme.rest) := by
        rw [split]
        simp only [Text.utf8Size_append, Nat.add_assoc]
      have splitAppended : text ++ more
          = blanks ++ ((lexeme.goOn more).text ++ (lexeme.goOn more).rest) := by
        simp [split]
      by_cases last : lexeme.rest = []
      · refine nothing ?_ (appended.nothing_before_of_last split blank shape last)
        refine (Run.step split blank shape verdict next).nothing_before_stop split blank shape ?_
        rw [size, last, List.append_nil]
      · obtain ⟨error', after', later, foundLater, verdict', next', rfl, rfl⟩ :=
          appended.of_lexeme splitAppended blank (shape.goOn last more)
        rw [size] at alike
        obtain ⟨alikeAfter, errors⟩ := verdict.of_appended verdict' last alike
        rw [← size] at alikeAfter
        rw [whole] at alikeAfter ⊢
        obtain ⟨sameTokens, sameFindings⟩ := ih next' alikeAfter
        constructor
        · rw [Lexeme.tokenAt_goOn, List.filter_cons, List.filter_cons, sameTokens]
        · rw [List.filter_append, List.filter_append]
          refine List.rel_append ?_ (sameFindings.imp fun _ _ related => related.cons _)
          rcases errors with same | ⟨fragments, kind, ⟨tail, point⟩, all, rfl, rfl⟩
          · rw [same]
            exact List.forall₂_same.mpr fun _ _ => Or.inl rfl
          · have stands := next.stands_of_point shape kind point
            have reaches : utf8Size (before ++ blanks) + utf8Size (lexeme.text ++ lexeme.fragments)
                = utf8Size (before ++ blanks ++ lexeme.text ++ lexeme.rest) := by
              rw [all, List.append_assoc _ lexeme.text, Text.utf8Size_append (before ++ blanks)]
            rw [← Text.utf8Size_append]
            exact forall₂_filter_of_span rfl
              (Or.inr ⟨_, fragments, stands, reaches, rfl, rfl⟩)

/-! ### Lexing a text that goes on -/

/-- A finding about a text and the one in its place when the text goes on: they have the same code
    and the same labels, and they are the same altogether but for what is quoted of a malformed
    number that reaches the end of the text. -/
structure SameButQuote (text : String) (tokens : List Token) (finding longer : Diagnostic) :
    Prop where
  code : longer.code = finding.code
  labels : longer.labels = finding.labels
  quote : longer = finding ∨ finding.code = some .malformedFloat ∧
    ∃ run, IsRunOf text tokens finding run ∧ run.stop = text.utf8ByteSize

theorem SameOrReadOn.sameButQuote {file : FileId} {text : String} {tokens : List Token}
    {finding longer : Diagnostic}
    (related : SameOrReadOn file text.utf8ByteSize text.toList tokens finding longer)
    (tiles : Tiles text tokens) : SameButQuote text tokens finding longer := by
  rcases related with rfl | ⟨run, fragments, stands, stop, rfl, rfl⟩
  · exact ⟨rfl, rfl, Or.inl rfl⟩
  · exact ⟨rfl, rfl, Or.inr ⟨rfl, run.span, (stands.isRunOf_iff tiles file _).mpr rfl, stop⟩⟩

/-- Appending to a text keeps all that ends before the end of the text: the tokens are the same, and
    the findings have the same codes at the same places in the same order. A finding that changes is
    about a malformed number that reaches the end. -/
theorem lex_append_keeps_before (file : FileId) (text more : String)
    (fits : text.utf8ByteSize + more.utf8ByteSize ≤ Offset.limit) :
    ∃ tokens found tokensAppended foundAppended,
      Lexes file text tokens found ∧ Lexes file (text ++ more) tokensAppended foundAppended ∧
      tokensAppended.filter (·.endsBefore text.utf8ByteSize)
        = tokens.filter (·.endsBefore text.utf8ByteSize) ∧
      List.Forall₂ (SameButQuote text tokens) (found.filter (·.endsBefore text.utf8ByteSize))
        (foundAppended.filter (·.endsBefore text.utf8ByteSize)) := by
  have fitsText : text.utf8ByteSize ≤ Offset.limit := by omega
  have fitsAppended : (text ++ more).utf8ByteSize ≤ Offset.limit := by
    rw [String.utf8ByteSize_append]
    exact fits
  obtain ⟨tokens, found, -, run⟩ := lex_run file .empty fitsText
  obtain ⟨tokensAppended, foundAppended, -, runAppended⟩ := lex_run file .empty fitsAppended
  refine ⟨tokens, found, tokensAppended, foundAppended, lexes_of_run fitsText run,
    lexes_of_run fitsAppended runAppended, ?_⟩
  rw [String.toList_append] at runAppended
  have agree := run.forall₂_endsBefore runAppended fun _ _ => Iff.rfl
  rw [List.nil_append, ← Text.utf8ByteSize_eq] at agree
  exact ⟨agree.1, agree.2.imp fun _ _ related => related.sameButQuote run.tiles⟩

/-- A malformed number that goes on behind the end of the text, behind an invalid character, and a
    symbol that the appended text makes longer. -/
theorem lex_append_keeps_before_fragments :
    "@ 1.2.3".utf8ByteSize + ".4 =".utf8ByteSize ≤ Offset.limit ∧
      ∃ tokens found tokensAppended foundAppended,
        Lexes ⟨0⟩ "@ 1.2.3" tokens found ∧
        Lexes ⟨0⟩ ("@ 1.2.3" ++ ".4 =") tokensAppended foundAppended ∧
        tokensAppended.filter (·.endsBefore "@ 1.2.3".utf8ByteSize)
          = tokens.filter (·.endsBefore "@ 1.2.3".utf8ByteSize) ∧
        List.Forall₂ (SameButQuote "@ 1.2.3" tokens)
          (found.filter (·.endsBefore "@ 1.2.3".utf8ByteSize))
          (foundAppended.filter (·.endsBefore "@ 1.2.3".utf8ByteSize)) :=
  have fits : "@ 1.2.3".utf8ByteSize + ".4 =".utf8ByteSize ≤ Offset.limit := by decide
  ⟨fits, lex_append_keeps_before ⟨0⟩ _ _ fits⟩

end FrontEnd
