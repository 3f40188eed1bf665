/-
Module: FrontEnd.Proofs.RunTransport
Layer: Proofs
Purpose: Runs of the lexer in other surroundings. A text has one run; behind a longer front it has
  the same run with all places moved; and a lexeme depends on the next character only, so it stays
  what it is when the text behind it is cut off or changed there.
Imports: FrontEnd.Proofs.NumberFragments
Trusted boundary: none
Main exports: Lexeme.IsBreak, Lexeme.Shape.with_rest, Lexeme.Verdict.with_rest, Span.shift,
  Token.shift, Diagnostic.shift, Run.shift, Run.of_blank, Run.of_lexeme, Run.unique, exists_run,
  Run.with_reported, Lexes, lexes_of_run, exists_lexes
Open obligations: none
-/
import FrontEnd.Proofs.NumberFragments

namespace FrontEnd

open Lexer (isBlank isNumberPart isWordPart)
open Text (utf8Size)

/-! ### What stands behind a lexeme -/

namespace Lexeme

/-- A character that continues no number, no word and no symbol. -/
structure IsBreak (d : Char) : Prop where
  notDigit : d.isDigit = false
  notPoint : d ≠ '.'
  notWordPart : isWordPart d = false
  notPair : ∀ c, Symbol.ofPair? c d = none

theorem isBreak_newline : IsBreak '\n' where
  notDigit := rfl
  notPoint := by decide
  notWordPart := by decide
  notPair c := by
    cases known : Symbol.ofPair? c '\n' with
    | none => rfl
    | some sign => exact absurd rfl (Symbol.isMark_of_ofPair? known).2.1

/-- A break is no part of a run of fragments. -/
theorem IsBreak.isNumberPart_eq_false {d : Char} (breaks : IsBreak d) : isNumberPart d = false := by
  rw [← Bool.not_eq_true, Lexer.isNumberPart_iff]
  rintro (digit | point)
  · rw [breaks.notDigit] at digit
    cases digit
  · exact breaks.notPoint point

/-- A lexeme is a lexeme in front of any text that begins like the one behind it, or with a break,
    or not at all. -/
theorem Shape.with_rest {lexeme : Lexeme} {rest : List Char} (shape : lexeme.Shape)
    (head : ∀ d ∈ rest.head?, d ∈ lexeme.rest.head? ∨ IsBreak d) :
    Shape { lexeme with rest } := by
  -- Whatever a shape asks of the next character holds of breaks.
  have ask {P : Char → Prop} (known : ∀ d ∈ lexeme.rest.head?, P d)
      (ofBreak : ∀ d, IsBreak d → P d) : ∀ d ∈ rest.head?, P d := by
    intro d found
    rcases head d found with same | breaks
    · exact known d same
    · exact ofBreak d breaks
  cases shape with
  | newline =>
      exact .newline
  | integer filled inside stop noPoint =>
      exact .integer filled inside (ask stop fun _ => IsBreak.notDigit)
        (ask noPoint fun _ => IsBreak.notPoint)
  | float filled insideWhole insideFraction stop =>
      exact .float filled insideWhole insideFraction (ask stop fun _ => IsBreak.notDigit)
  | word start inside stop =>
      exact .word start inside (ask stop fun _ => IsBreak.notWordPart)
  | pair known =>
      exact .pair known
  | single known alone =>
      exact .single known (ask alone fun _ breaks => breaks.notPair _)
  | invalid mark unknown alone =>
      exact .invalid mark unknown (ask alone fun _ breaks => breaks.notPair _)

/-- Fragments behind a lexeme begin with a point if and only if the text behind it does. -/
theorem head?_fragments (lexeme : Lexeme) :
    lexeme.fragments.head? = some '.' ↔ ∃ tail, lexeme.rest = '.' :: tail := by
  constructor
  · intro point
    cases rest : lexeme.rest with
    | nil =>
        simp [fragments, rest] at point
    | cons c tail =>
        rw [fragments, rest, List.takeWhile_cons] at point
        split at point
        · cases point
          exact ⟨tail, rfl⟩
        · cases point
  · rintro ⟨tail, point⟩
    rw [fragments_of_point point]
    rfl

/-- The verdict on a lexeme depends on nothing behind it but the fragments of a number. -/
theorem Verdict.with_rest {lexeme : Lexeme} {rest : List Char} {start reported after : Nat}
    {error : Option LexError} (verdict : lexeme.Verdict start reported error after)
    (same : rest.takeWhile isNumberPart = lexeme.fragments) :
    Verdict { lexeme with rest } start reported error after := by
  have sameFragments : Lexeme.fragments { lexeme with rest } = lexeme.fragments := same
  have points : (∃ tail, rest = '.' :: tail) ↔ ∃ tail, lexeme.rest = '.' :: tail := by
    rw [← head?_fragments lexeme, ← sameFragments, head?_fragments]
  cases verdict with
  | unexpected kind text =>
      exact .unexpected kind text
  | fragments kind point unreported =>
      obtain ⟨tail, found⟩ := points.mpr ⟨_, point⟩
      rw [← sameFragments]
      exact .fragments kind found unreported
  | quiet kind covered =>
      refine .quiet kind fun float tail point => ?_
      obtain ⟨tail', found⟩ := points.mp ⟨tail, point⟩
      exact covered float tail' found

end Lexeme

/-! ### Places that are moved -/

/-- A span a distance further on. -/
def Span.shift (distance : Nat) (span : Span) : Span where
  start := distance + span.start
  stop := distance + span.stop
  start_le_stop := Nat.add_le_add_left span.start_le_stop distance

/-- A token a distance further on. -/
def Token.shift (distance : Nat) (token : Token) : Token :=
  { token with span := token.span.shift distance }

/-- A label a distance further on in its file. -/
def Label.shift (distance : Nat) (label : Label) : Label :=
  { label with span := label.span.shift distance }

/-- A finding about what stands a distance further on. -/
def Diagnostic.shift (distance : Nat) (diagnostic : Diagnostic) : Diagnostic :=
  { diagnostic with labels := diagnostic.labels.map (Label.shift distance) }

/-- An error about what stands a distance further on. -/
def LexError.shift (distance : Nat) (error : LexError) : LexError :=
  { error with span := error.span.shift distance }

theorem Token.shift_endOfFile (distance offset : Nat) :
    (endOfFile offset).shift distance = endOfFile (distance + offset) := rfl

namespace Lexeme

variable {lexeme : Lexeme} {start distance : Nat}

theorem spanAt_shift : lexeme.spanAt (distance + start) = (lexeme.spanAt start).shift distance :=
  Span.ext_bounds rfl (Nat.add_assoc ..)

theorem pointAfter_shift :
    lexeme.pointAfter (distance + start) = (lexeme.pointAfter start).shift distance := by
  apply Span.ext_bounds
  · exact Nat.add_assoc ..
  · simp only [pointAfter, Span.shift, Nat.add_assoc]

theorem tokenAt_shift :
    lexeme.tokenAt (distance + start) = (lexeme.tokenAt start).shift distance := by
  rw [tokenAt, spanAt_shift]
  rfl

end Lexeme

/-- From an offset on it makes no difference whether points before `reported` count as reported, or
    points before `moved` a distance further on. -/
def ReportedAlike (offset distance reported moved : Nat) : Prop :=
  ∀ later, offset ≤ later → (reported ≤ later ↔ moved ≤ distance + later)

namespace ReportedAlike

variable {offset later distance reported moved : Nat}

theorem mono (alike : ReportedAlike offset distance reported moved) (forward : offset ≤ later) :
    ReportedAlike later distance reported moved :=
  fun place behind => alike place (Nat.le_trans forward behind)

/-- What was reported up to a place counts as reported up to the moved place. -/
theorem add (offset distance place : Nat) :
    ReportedAlike offset distance place (distance + place) :=
  fun _ _ => Nat.add_le_add_iff_left.symm

/-- Where nothing that lies ahead was reported, it makes no difference what lies behind. -/
theorem of_le (behind : reported ≤ offset) (behind' : moved ≤ distance + offset) :
    ReportedAlike offset distance reported moved := by
  intro place ahead
  omega

end ReportedAlike

/-- The verdict on a lexeme that is moved is the moved verdict. -/
theorem Lexeme.Verdict.shift {lexeme : Lexeme} {start distance reported moved after : Nat}
    {error : Option LexError} (verdict : lexeme.Verdict start reported error after)
    (alike : ReportedAlike start distance reported moved) :
    ∃ afterMoved,
      lexeme.Verdict (distance + start) moved (error.map (LexError.shift distance)) afterMoved ∧
      ReportedAlike start distance after afterMoved := by
  have stop := alike (start + utf8Size lexeme.text) (Nat.le_add_right _ _)
  rw [← Nat.add_assoc] at stop
  cases verdict with
  | unexpected kind text =>
      refine ⟨moved, ?_, alike⟩
      have there : lexeme.Verdict (distance + start) moved _ moved := .unexpected kind text
      rwa [spanAt_shift] at there
  | fragments kind point unreported =>
      refine ⟨_, ?_, ReportedAlike.add start distance _⟩
      have there := Verdict.fragments kind point (stop.mp unreported)
      rw [pointAfter_shift, Nat.add_assoc distance, Nat.add_assoc distance] at there
      exact there
  | quiet kind covered =>
      refine ⟨moved, .quiet kind fun float tail point => ?_, alike⟩
      have reportedBefore := covered float tail point
      omega

/-- A run over a text is a run behind a longer front, with all places moved. -/
theorem Run.shift {file : FileId} {reported : Nat} {before text : List Char} {tokens : List Token}
    {found : List Diagnostic} (run : Run file reported before text tokens found)
    (ahead : List Char) {moved : Nat}
    (alike : ReportedAlike (utf8Size before) (utf8Size ahead) reported moved) :
    Run file moved (ahead ++ before) text (tokens.map (Token.shift (utf8Size ahead)))
      (found.map (Diagnostic.shift (utf8Size ahead))) := by
  induction run generalizing moved with
  | @finish reported before blanks blank =>
      have last : Run file moved (ahead ++ before) blanks _ [] := .finish blank
      simpa only [List.map_cons, List.map_nil, Token.shift_endOfFile, Text.utf8Size_append,
        Nat.add_assoc] using last
  | @step reported after before text blanks lexeme error tokens found split blank shape verdict
      more ih =>
      obtain ⟨afterMoved, verdictMoved, alikeAfter⟩ :=
        verdict.shift (alike.mono (Nat.le_add_right _ (utf8Size blanks)))
      have behind : utf8Size before + utf8Size blanks
          ≤ utf8Size (before ++ blanks ++ lexeme.text) := by
        simp only [Text.utf8Size_append]
        omega
      have place : utf8Size (ahead ++ before) + utf8Size blanks
          = utf8Size ahead + (utf8Size before + utf8Size blanks) := by
        rw [Text.utf8Size_append, Nat.add_assoc]
      have rest := ih (alikeAfter.mono behind)
      rw [← List.append_assoc, ← List.append_assoc] at rest
      rw [← place] at verdictMoved
      have whole := Run.step split blank shape verdictMoved rest
      rw [place, Lexeme.tokenAt_shift] at whole
      have findings : (error.map (LexError.shift (utf8Size ahead))).toList.map
            (·.toDiagnostic file)
          = (error.toList.map (·.toDiagnostic file)).map
              (Diagnostic.shift (utf8Size ahead)) := by
        cases error with
        | none => rfl
        | some error => rfl
      rw [findings, ← List.map_append] at whole
      exact whole

/-! ### One run for each text -/

/-- There is one verdict on a lexeme. -/
theorem Lexeme.Verdict.unique {lexeme : Lexeme} {start reported after after' : Nat}
    {error error' : Option LexError} (one : lexeme.Verdict start reported error after)
    (two : lexeme.Verdict start reported error' after') : error = error' ∧ after = after' := by
  cases one with
  | unexpected kind text =>
      cases two with
      | unexpected _ text' =>
          cases text.symm.trans text'
          exact ⟨rfl, rfl⟩
      | fragments kind' => cases kind.symm.trans kind'
      | quiet kind' => exact absurd kind kind'
  | fragments kind point unreported =>
      cases two with
      | unexpected kind' => cases kind.symm.trans kind'
      | fragments => exact ⟨rfl, rfl⟩
      | quiet _ covered =>
          have reportedBefore := covered kind _ point
          omega
  | quiet kind covered =>
      cases two with
      | unexpected kind' => exact absurd kind' kind
      | fragments kind' point unreported =>
          have reportedBefore := covered kind' _ point
          omega
      | quiet => exact ⟨rfl, rfl⟩

namespace Run

variable {file : FileId} {reported : Nat} {before text blanks : List Char} {lexeme : Lexeme}
  {tokens : List Token} {found : List Diagnostic}

/-- A text with a lexeme in it is not blank. -/
theorem not_blank_of_shape (shape : lexeme.Shape)
    (blank : ∀ c ∈ blanks ++ (lexeme.text ++ lexeme.rest), isBlank c = true) : False := by
  obtain ⟨c, input, front, visible, -⟩ := shape.read_eq
  have first := blank c (List.mem_append_right _ (by rw [front]; exact List.mem_cons_self ..))
  rw [visible] at first
  cases first

/-- The run over a blank text. -/
theorem of_blank (run : Run file reported before blanks tokens found)
    (blank : ∀ c ∈ blanks, isBlank c = true) :
    tokens = [.endOfFile (utf8Size before + utf8Size blanks)] ∧ found = [] := by
  cases run with
  | finish => exact ⟨rfl, rfl⟩
  | step split _ shape =>
      rw [split] at blank
      exact (not_blank_of_shape shape blank).elim

/-- The run over a text with blanks and a lexeme at its front begins with this lexeme. -/
theorem of_lexeme (run : Run file reported before text tokens found)
    (split : text = blanks ++ (lexeme.text ++ lexeme.rest))
    (blank : ∀ c ∈ blanks, isBlank c = true) (shape : lexeme.Shape) :
    ∃ error after later foundLater,
      lexeme.Verdict (utf8Size before + utf8Size blanks) reported error after ∧
      Run file after (before ++ blanks ++ lexeme.text) lexeme.rest later foundLater ∧
      tokens = lexeme.tokenAt (utf8Size before + utf8Size blanks) :: later ∧
      found = error.toList.map (·.toDiagnostic file) ++ foundLater := by
  cases run with
  | finish blank' =>
      rw [split] at blank'
      exact (not_blank_of_shape shape blank').elim
  | step split' blank' shape' verdict more =>
      have same := split.symm.trans split'
      obtain ⟨rfl, front⟩ :=
        Text.append_inj_of_stop blank blank' shape.visible shape'.visible same
      obtain rfl := shape.unique shape' front
      exact ⟨_, _, _, _, verdict, more, rfl, rfl⟩

/-- A text has one run. -/
theorem unique {tokens' : List Token} {found' : List Diagnostic}
    (one : Run file reported before text tokens found)
    (two : Run file reported before text tokens' found') : tokens = tokens' ∧ found = found' := by
  induction one generalizing tokens' found' with
  | finish blank =>
      obtain ⟨rfl, rfl⟩ := two.of_blank blank
      exact ⟨rfl, rfl⟩
  | step split blank shape verdict more ih =>
      obtain ⟨error', after', later, foundLater, verdict', more', rfl, rfl⟩ :=
        two.of_lexeme split blank shape
      obtain ⟨rfl, rfl⟩ := verdict.unique verdict'
      obtain ⟨rfl, rfl⟩ := ih more'
      exact ⟨rfl, rfl⟩

end Run

/-- There is a verdict on each lexeme. -/
theorem Lexeme.Shape.exists_verdict {lexeme : Lexeme} (shape : lexeme.Shape)
    (start reported : Nat) : ∃ error after, lexeme.Verdict start reported error after := by
  by_cases invalid : lexeme.kind = .invalid
  · obtain ⟨c, text, -⟩ := shape.text_of_invalid invalid
    exact ⟨_, _, .unexpected invalid text⟩
  · by_cases begins : lexeme.kind = .floatLiteral ∧ (∃ tail, lexeme.rest = '.' :: tail) ∧
        reported ≤ start + utf8Size lexeme.text
    · obtain ⟨float, ⟨tail, point⟩, unreported⟩ := begins
      exact ⟨_, _, .fragments float point unreported⟩
    · refine ⟨_, _, .quiet invalid fun float tail point => ?_⟩
      by_contra unreported
      exact begins ⟨float, ⟨tail, point⟩, Nat.le_of_not_lt unreported⟩

/-- A text has a run, whatever was reported before. -/
theorem exists_run (file : FileId) (reported : Nat) (before text : List Char) :
    ∃ tokens found, Run file reported before text tokens found := by
  induction size : text.length using Nat.strong_induction_on generalizing reported before text with
  | _ length ih =>
      rcases blank_or_lexeme text with blank | ⟨blanks, lexeme, split, blank, shape⟩
      · exact ⟨_, _, .finish blank⟩
      · obtain ⟨error, after, verdict⟩ :=
          shape.exists_verdict (utf8Size before + utf8Size blanks) reported
        have shorter : lexeme.rest.length < length := by
          have filled := List.length_pos_iff.mpr shape.text_ne_nil
          rw [← size, split]
          simp only [List.length_append]
          omega
        obtain ⟨tokens, found, more⟩ :=
          ih lexeme.rest.length shorter after (before ++ blanks ++ lexeme.text) lexeme.rest rfl
        exact ⟨_, _, .step split blank shape verdict more⟩

/-- The tokens of a run depend neither on the handle nor on what was reported before. -/
theorem Run.with_reported {file : FileId} {reported : Nat} {before text : List Char}
    {tokens : List Token} {found : List Diagnostic}
    (run : Run file reported before text tokens found) (other : FileId) (reported' : Nat) :
    ∃ found', Run other reported' before text tokens found' := by
  induction run generalizing reported' with
  | finish blank =>
      exact ⟨[], .finish blank⟩
  | step split blank shape verdict more ih =>
      obtain ⟨error, after, verdict'⟩ := shape.exists_verdict _ reported'
      obtain ⟨found', more'⟩ := ih after
      exact ⟨_, .step split blank shape verdict' more'⟩

/-! ### Lexing whole texts -/

/-- Lexing a text gives tokens and adds findings to the log, whatever is in the log before. -/
def Lexes (file : FileId) (text : String) (tokens : List Token) (found : List Diagnostic) : Prop :=
  ∀ log : Log, ∃ after, lex file text log = .ok (tokens, after) ∧
    after.toList = log.toList ++ found

/-- Lexing a text that fits is its run. -/
theorem lexes_of_run {file : FileId} {text : String} {tokens : List Token}
    {found : List Diagnostic} (fits : text.utf8ByteSize ≤ Offset.limit)
    (run : Run file 0 [] text.toList tokens found) : Lexes file text tokens found := by
  intro log
  obtain ⟨tokens', found', lexed, run'⟩ := lex_run file log fits
  obtain ⟨rfl, rfl⟩ := run.unique run'
  exact ⟨_, lexed, log.toList_emitAll found⟩

/-- A text that fits is lexed to the same tokens under all handles. -/
theorem exists_lexes {text : String} (fits : text.utf8ByteSize ≤ Offset.limit) :
    ∃ tokens, ∀ file, ∃ found, Lexes file text tokens found := by
  obtain ⟨tokens, found, -, run⟩ := lex_run ⟨0⟩ .empty fits
  refine ⟨tokens, fun file => ?_⟩
  obtain ⟨found', run'⟩ := run.with_reported file 0
  exact ⟨found', lexes_of_run fits run'⟩

end FrontEnd
