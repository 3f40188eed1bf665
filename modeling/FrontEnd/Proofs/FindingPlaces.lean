/-
Module: FrontEnd.Proofs.FindingPlaces
Layer: Proofs
Purpose: What the findings of a lexing are about. Each finding marks one character of the text; the
  findings come in the order of their places, which do not overlap; and a finding is there for each
  invalid token, and for some float with a point behind it if there is any, and for nothing else.
Imports: FrontEnd.Proofs.NumberFragments, Mathlib.Data.List.Forall2
Trusted boundary: none
Main exports: LexError.MarksChar, Run.marksChar, Touch, MarksInvalid, FindingsMatchTokens,
  lex_findings_match_tokens
Open obligations: none
-/
import FrontEnd.Proofs.NumberFragments
import Mathlib.Data.List.Forall2

namespace FrontEnd

open Text (utf8Size)

/-! ### The character of a finding -/

/-- The place of an error is that of a character behind the front of a text, and the character
    belongs to no terminator of a line. -/
structure LexError.MarksChar (error : LexError) (text front : List Char) (c : Char) : Prop where
  split : ∃ back, text = front ++ c :: back
  start : error.span.start = utf8Size front
  stop : error.span.stop = utf8Size front + c.utf8Size
  notNewline : c ≠ '\n'
  notReturn : c ≠ '\r'

/-- What the lexer finds is about single characters of the text. -/
theorem Run.marksChar {file : FileId} {reported : Nat} {before text : List Char}
    {tokens : List Token} {found : List Diagnostic}
    (run : Run file reported before text tokens found) :
    ∀ finding ∈ found, ∃ (error : LexError) (front : List Char) (c : Char),
      finding = error.toDiagnostic file ∧ error.MarksChar (before ++ text) front c := by
  induction run with
  | finish =>
      intro finding member
      cases member
  | @step reported reported' before text blanks lexeme error tokens found split blank shape verdict
      more ih =>
      have whole : before ++ text = before ++ blanks ++ (lexeme.text ++ lexeme.rest) := by
        simp [split]
      intro finding member
      rcases List.mem_append.mp member with here | later
      · rw [whole]
        cases verdict with
        | @unexpected c kind single =>
            obtain ⟨d, text, mark, -⟩ := shape.text_of_invalid kind
            rw [text] at single
            cases single
            refine ⟨_, before ++ blanks, c, List.mem_singleton.mp here, ?_⟩
            constructor
            · exact ⟨lexeme.rest, by rw [text]; rfl⟩
            · simp
            · simp [text]
            · exact mark.1
            · rintro rfl
              exact absurd mark.2.2.2 (by decide)
        | @fragments tail kind point unreported =>
            refine ⟨_, before ++ blanks ++ lexeme.text, '.', List.mem_singleton.mp here, ?_⟩
            have size : utf8Size (before ++ blanks ++ lexeme.text)
                = utf8Size before + utf8Size blanks + utf8Size lexeme.text := by
              simp only [Text.utf8Size_append]
            constructor
            · exact ⟨tail, by rw [point, List.append_assoc _ lexeme.text]⟩
            · exact size.symm
            · rw [size]
              rfl
            · decide
            · decide
        | quiet =>
            cases here
      · obtain ⟨error, front, c, same, marks⟩ := ih finding later
        refine ⟨error, front, c, same, ?_⟩
        rw [whole]
        simpa using marks

/-! ### What is claimed of the findings -/

/-- A float token and a point token that follow each other in the stream and in the text. -/
structure Touch (tokens : List Token) (float dot : Token) : Prop where
  infix_tokens : [float, dot] <:+: tokens
  float_kind : float.kind = .floatLiteral
  dot_kind : dot.kind = .symbol .dot
  adjacent : float.span.stop = dot.span.start

/-- The finding about an invalid token: its message quotes the character that is the text of the
    token, and its label is at the span of the token. -/
def MarksInvalid (file : FileId) (token : Token) (finding : Diagnostic) : Prop :=
  ∃ c message, token.text = String.singleton c ∧
    finding.message = "unexpected character '" ++ String.singleton c ++ "'" ∧
    finding.labels = [{ file, span := token.span, message, isPrimary := true }]

/-- The findings of a lexing match its tokens. -/
structure FindingsMatchTokens (file : FileId) (text : String) (tokens : List Token)
    (found : List Diagnostic) : Prop where
  /-- There is one finding for each invalid token, in the order of the tokens. -/
  unexpected : List.Forall₂ (MarksInvalid file) (tokens.filter (·.kind == .invalid))
    (found.filter (·.code == some .unexpectedCharacter))
  /-- All other findings are about a point right behind a float. -/
  malformed : ∀ finding ∈ found, finding.code = some .malformedFloat →
    ∃ float dot, Touch tokens float dot ∧ finding.labels.map Label.span = [dot.span]
  /-- Each finding is an error with one label, a primary one at a part of the text. -/
  labels : ∀ finding ∈ found, finding.severity = .error ∧
    (finding.code = some .unexpectedCharacter ∨ finding.code = some .malformedFloat) ∧
    ∃ label part, finding.labels = [label] ∧ label.isPrimary = true ∧ label.file = file ∧
      label.span.slice? text.toList = some part ∧ label.span.start < label.span.stop
  ordered : found.Pairwise fun earlier later => ∀ label ∈ earlier.labels,
    ∀ label' ∈ later.labels,
      label.span.start < label'.span.start ∧ label.span.stop ≤ label'.span.start
  silent : found = [] ↔
    (∀ token ∈ tokens, token.kind ≠ .invalid) ∧ ¬ ∃ float dot, Touch tokens float dot

/-! ### Findings of a run -/

namespace Touch

variable {tokens : List Token} {float dot token : Token}

/-- Further tokens do not matter. -/
theorem cons (touch : Touch tokens float dot) (token : Token) : Touch (token :: tokens) float dot :=
  { touch with infix_tokens := touch.infix_tokens.trans (List.suffix_cons _ _).isInfix }

/-- What touches is a joint of the tokens. -/
theorem isJoint (touch : Touch tokens float dot) : IsJoint tokens float dot where
  float_mem := touch.infix_tokens.subset (by simp)
  float_kind := touch.float_kind
  dot_mem := touch.infix_tokens.subset (by simp)
  dot_kind := touch.dot_kind
  adjacent := touch.adjacent

end Touch

/-- The label of an error is at the place of the error. -/
theorem LexError.labels_toDiagnostic (error : LexError) (file : FileId) :
    (error.toDiagnostic file).labels =
      [{ file, span := error.span, message := some error.problem.labelText, isPrimary := true }] :=
  rfl

namespace Run

variable {file : FileId} {reported : Nat} {before text : List Char} {tokens : List Token}
  {found : List Diagnostic}

/-- Findings about unexpected characters and invalid tokens come in pairs. -/
theorem forall₂_marksInvalid (run : Run file reported before text tokens found) :
    List.Forall₂ (MarksInvalid file) (tokens.filter (·.kind == .invalid))
      (found.filter (·.code == some .unexpectedCharacter)) := by
  induction run with
  | finish =>
      exact .nil
  | @step _ _ before text blanks lexeme error tokens found _ _ shape verdict _ ih =>
      have skipped (valid : lexeme.kind ≠ .invalid) :
          (lexeme.tokenAt (utf8Size before + utf8Size blanks) :: tokens).filter
              (·.kind == .invalid) = tokens.filter (·.kind == .invalid) :=
        List.filter_cons_of_neg (by simpa using valid)
      cases verdict with
      | @unexpected c kind single =>
          rw [List.filter_cons_of_pos (by simp [kind])]
          refine .cons ⟨c, _, ?_, rfl, rfl⟩ ih
          rw [Lexeme.text_tokenAt, single, String.singleton_eq_ofList]
      | fragments kind =>
          rw [skipped (by simp [kind])]
          exact ih
      | quiet kind =>
          rw [skipped kind]
          exact ih

/-- A finding about a malformed number is about a point that touches a float. -/
theorem exists_touch (run : Run file reported before text tokens found) :
    ∀ finding ∈ found, finding.code = some .malformedFloat →
      ∃ float dot, Touch tokens float dot ∧ finding.labels.map Label.span = [dot.span] := by
  induction run with
  | finish =>
      intro finding member
      cases member
  | @step _ _ before text blanks lexeme error tokens found _ _ shape verdict more ih =>
      intro finding member code
      rcases List.mem_append.mp member with here | later
      · cases verdict with
        | unexpected =>
            rw [List.mem_singleton.mp here] at code
            cases code
        | @fragments tail kind point =>
            rw [List.mem_singleton.mp here]
            rw [point] at more
            obtain ⟨later, rfl, -⟩ := more.of_point
            have place : utf8Size (before ++ blanks ++ lexeme.text)
                = utf8Size before + utf8Size blanks + utf8Size lexeme.text := by
              simp only [Text.utf8Size_append]
            refine ⟨_, _, ⟨⟨[], later, rfl⟩, kind, rfl, place.symm⟩, ?_⟩
            rw [place]
            rfl
        | quiet => cases here
      · obtain ⟨float, dot, touch, span⟩ := ih finding later code
        exact ⟨float, dot, touch.cons _, span⟩

/-- No finding of a run marks anything before the text of the run. -/
theorem le_label (run : Run file reported before text tokens found) :
    ∀ finding ∈ found, ∀ label ∈ finding.labels, utf8Size before ≤ label.span.start := by
  induction run with
  | finish =>
      intro finding member
      cases member
  | @step _ _ before text blanks lexeme error tokens found _ _ _ verdict _ ih =>
      intro finding member label marked
      rcases List.mem_append.mp member with here | later
      · cases verdict with
        | unexpected =>
            rw [List.mem_singleton.mp here] at marked
            rw [List.mem_singleton.mp marked]
            exact Nat.le_add_right _ _
        | fragments =>
            rw [List.mem_singleton.mp here] at marked
            rw [List.mem_singleton.mp marked]
            exact Nat.le_trans (Nat.le_add_right _ _) (Nat.le_add_right _ _)
        | quiet => cases here
      · have behind := ih finding later label marked
        simp only [Text.utf8Size_append] at behind
        omega

/-- Findings come in the order of their places, which do not overlap. -/
theorem labels_ordered (run : Run file reported before text tokens found) :
    found.Pairwise fun earlier later => ∀ label ∈ earlier.labels, ∀ label' ∈ later.labels,
      label.span.start < label'.span.start ∧ label.span.stop ≤ label'.span.start := by
  induction run with
  | finish =>
      exact .nil
  | @step _ _ before text blanks lexeme error tokens found _ _ shape verdict more ih =>
      have place : utf8Size (before ++ blanks ++ lexeme.text)
          = utf8Size before + utf8Size blanks + utf8Size lexeme.text := by
        simp only [Text.utf8Size_append]
      cases verdict with
      | unexpected =>
          refine List.pairwise_cons.mpr ⟨?_, ih⟩
          intro later member label marked label' marked'
          rw [List.mem_singleton.mp marked]
          have behind := more.le_label later member label' marked'
          have filled := Text.utf8Size_pos shape.text_ne_nil
          rw [place] at behind
          exact ⟨Nat.lt_of_lt_of_le (Nat.lt_add_of_pos_right filled) behind, behind⟩
      | @fragments tail kind point =>
          -- The point is read before anything else is reported, so later findings are behind it.
          rw [point] at more
          obtain ⟨rest, rfl, behindPoint⟩ := more.of_point
          refine List.pairwise_cons.mpr ⟨?_, ih⟩
          intro later member label marked label' marked'
          rw [List.mem_singleton.mp marked]
          have behind := behindPoint.le_label later member label' marked'
          have point : utf8Size ['.'] = 1 := rfl
          rw [Text.utf8Size_append, place, point] at behind
          exact ⟨behind, behind⟩
      | quiet => exact ih

/-- Each finding is an error with one label, which is at a single character of the text. -/
theorem label_of_mem (run : Run file reported before text tokens found) :
    ∀ finding ∈ found, finding.severity = .error ∧
      (finding.code = some .unexpectedCharacter ∨ finding.code = some .malformedFloat) ∧
      ∃ label part, finding.labels = [label] ∧ label.isPrimary = true ∧ label.file = file ∧
        label.span.slice? (before ++ text) = some part ∧ label.span.start < label.span.stop := by
  intro finding member
  obtain ⟨error, front, c, rfl, marks⟩ := run.marksChar finding member
  obtain ⟨back, split⟩ := marks.split
  have filled := c.utf8Size_pos
  have codes :
      error.problem.code = .unexpectedCharacter ∨ error.problem.code = .malformedFloat := by
    cases error.problem with
    | unexpectedCharacter => exact Or.inl rfl
    | malformedFloat => exact Or.inr rfl
  refine ⟨rfl, codes.imp (congrArg some) (congrArg some), _, [c],
    error.labels_toDiagnostic file, rfl, rfl, ?_, ?_⟩
  · apply Text.slice?_eq_some_iff.mpr
    refine ⟨front, back, by simp [split], marks.start.symm, ?_⟩
    change error.span.start + utf8Size [c] = error.span.stop
    rw [marks.start, marks.stop]
    rfl
  · change error.span.start < error.span.stop
    rw [marks.start, marks.stop]
    exact Nat.lt_add_of_pos_right filled

/-- Nothing is found if and only if no token is invalid and no point touches a float. -/
theorem found_eq_nil_iff {text : String} (run : Run file 0 [] text.toList tokens found) :
    found = [] ↔
      (∀ token ∈ tokens, token.kind ≠ .invalid) ∧ ¬ ∃ float dot, Touch tokens float dot := by
  have pairs := run.forall₂_marksInvalid
  constructor
  · rintro rfl
    constructor
    · intro token member invalid
      have none : tokens.filter (·.kind == .invalid) = [] := List.forall₂_nil_right_iff.mp pairs
      have listed : token ∈ tokens.filter (·.kind == .invalid) :=
        List.mem_filter.mpr ⟨member, by simp [invalid]⟩
      rw [none] at listed
      cases listed
    · rintro ⟨float, dot, touch⟩
      obtain ⟨runs, accounts⟩ := run.accounts (Or.inl (Nat.zero_le _))
      have none : runs = [] := List.map_eq_nil_iff.mp accounts.findings.symm
      rcases accounts.joints float dot touch.isJoint with unread | ⟨fragments, member, -⟩
      · have filled := run.tiles.start_lt_stop touch.isJoint.dot_mem (by simp [touch.dot_kind])
        omega
      · rw [none] at member
        cases member
  · rintro ⟨valid, apart⟩
    apply List.eq_nil_iff_forall_not_mem.mpr
    intro finding member
    rcases (run.label_of_mem finding member).2.1 with code | code
    · have none : tokens.filter (·.kind == .invalid) = [] :=
        List.filter_eq_nil_iff.mpr fun token listed => by simpa using valid token listed
      rw [none] at pairs
      have listed : finding ∈ found.filter (·.code == some .unexpectedCharacter) :=
        List.mem_filter.mpr ⟨member, by simp [code]⟩
      rw [List.forall₂_nil_left_iff.mp pairs] at listed
      cases listed
    · obtain ⟨float, dot, touch, -⟩ := run.exists_touch finding member code
      exact apart ⟨float, dot, touch⟩

end Run

/-- The findings of a lexing match its tokens: a text that fits is read to its end, and what this
    adds to the log is about its invalid tokens and about points right behind floats. -/
theorem lex_findings_match_tokens (file : FileId) (text : String) (log : Log)
    (fits : text.utf8ByteSize ≤ Offset.limit) :
    ∃ tokens after found, lex file text log = .ok (tokens, after) ∧
      after.toList = log.toList ++ found ∧ FindingsMatchTokens file text tokens found := by
  obtain ⟨tokens, found, lexed, run⟩ := lex_run file log fits
  exact ⟨tokens, log.emitAll found, found, lexed, log.toList_emitAll found,
    { unexpected := run.forall₂_marksInvalid
      malformed := run.exists_touch
      labels := run.label_of_mem
      ordered := run.labels_ordered
      silent := run.found_eq_nil_iff }⟩

/-- Two invalid characters, one of two bytes, around a malformed number that is read in pieces. -/
theorem lex_findings_match_tokens_mixed :
    "a @1.2.3.4 é&&".utf8ByteSize ≤ Offset.limit ∧
      ∃ tokens after found, lex ⟨0⟩ "a @1.2.3.4 é&&" .empty = .ok (tokens, after) ∧
        after.toList = Log.empty.toList ++ found ∧
        FindingsMatchTokens ⟨0⟩ "a @1.2.3.4 é&&" tokens found :=
  have fits : "a @1.2.3.4 é&&".utf8ByteSize ≤ Offset.limit := by decide
  ⟨fits, lex_findings_match_tokens ⟨0⟩ _ .empty fits⟩

end FrontEnd
