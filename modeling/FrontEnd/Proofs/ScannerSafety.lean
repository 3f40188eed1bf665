/-
Module: FrontEnd.Proofs.ScannerSafety
Layer: Proofs
Purpose: The scanner of bytes never misses a step. Over a text that fits, its states are those of
  the lexer, with a cursor for the characters left; in each of them the cursor is at the end of a
  character, and the next read goes through and gives what the lexer gives.
Imports: FrontEnd.Proofs.ScannerSteps, FrontEnd.Proofs.LexerCalls
Trusted boundary: none
Main exports: Lexer.Reached, Lexer.Preserved, Lexer.Preserved.drive, Scanner.ofLexer, Lexer.Stands,
  Lexer.Stands.nextToken, Scanner.Reachable, Scanner.Reachable.exists_lexer,
  Lexer.Reached.reachable_ofLexer, ScansSafely, scanner_never_missteps
Open obligations: none
-/
import FrontEnd.Proofs.ScannerSteps
import FrontEnd.Proofs.LexerCalls

namespace FrontEnd

open Lexer (isBlank)
open Text (utf8Size)

/-! ### Lexers that were used -/

namespace Lexer

/-- A lexer over a text that certain calls have led to. -/
def Reached (file : FileId) (text : String) (log : Log) (lexer : Lexer) : Prop :=
  ∃ first calls events, start file text log = .ok first ∧ first.drive calls = .ok (events, lexer)

/-- Calls can be followed by another call. -/
theorem drive_concat {lexer next after : Lexer} {calls : List Call} {call : Call}
    {events new : List Event} (driven : lexer.drive calls = .ok (events, next))
    (performed : next.perform call = .ok (new, after)) :
    lexer.drive (calls ++ [call]) = .ok (events ++ new, after) := by
  induction calls generalizing lexer events with
  | nil =>
      cases driven
      simp [drive, performed, bind, Except.bind, pure, Except.pure]
  | cons earlier calls ih =>
      obtain ⟨⟨now, middle⟩, first, rest⟩ := bind_eq_ok_iff.mp driven
      obtain ⟨⟨later, last⟩, found, same⟩ := bind_eq_ok_iff.mp rest
      cases same
      simp only [List.cons_append, drive, first, ih found, bind, Except.bind, pure, Except.pure,
        List.append_assoc]

theorem Reached.call {file : FileId} {text : String} {log : Log} {lexer next : Lexer} {call : Call}
    {events : List Event} (reached : Reached file text log lexer)
    (performed : lexer.perform call = .ok (events, next)) : Reached file text log next := by
  obtain ⟨first, calls, earlier, started, driven⟩ := reached
  exact ⟨first, calls ++ [call], earlier ++ events, started, drive_concat driven performed⟩

/-- What single steps of a lexer preserve: a read, a step of the iteration, a finding of the
    caller. -/
structure Preserved (P : Lexer → Prop) : Prop where
  nextToken : ∀ {lexer next token}, P lexer → lexer.nextToken = .ok (token, next) → P next
  next : ∀ {lexer next item}, P lexer → lexer.next? = .ok (item, next) → P next
  emit : ∀ {lexer} diagnostic, P lexer → P (lexer.emit diagnostic)

namespace Preserved

variable {P : Lexer → Prop} {lexer next : Lexer}

theorem take (preserved : Preserved P) {count : Nat} {tokens : List Token} (holds : P lexer)
    (taken : lexer.take count = .ok (tokens, next)) : P next := by
  induction count generalizing lexer tokens with
  | zero =>
      cases taken
      exact holds
  | succ count ih =>
      obtain ⟨⟨item, middle⟩, step, rest⟩ := bind_eq_ok_iff.mp taken
      have holdsMiddle : P middle := preserved.next holds step
      cases item with
      | none =>
          cases rest
          exact holdsMiddle
      | some token =>
          obtain ⟨⟨others, last⟩, found, same⟩ := bind_eq_ok_iff.mp rest
          cases same
          exact ih holdsMiddle found

theorem remaining (preserved : Preserved P) {tokens : List Token} (holds : P lexer)
    (collected : lexer.remaining = .ok (tokens, next)) : P next := by
  fun_induction Lexer.remaining lexer generalizing tokens next with
  | case1 lexer finished =>
      cases collected
      exact holds
  | case2 lexer unfinished fault failed =>
      cases collected
  | case3 lexer unfinished token middle step last =>
      cases collected
      have iterated := next?_of_unfinished (by simpa using unfinished) step
      rw [last] at iterated
      exact preserved.next holds iterated
  | case4 lexer unfinished token middle step more fault failed ih =>
      cases collected
  | case5 lexer unfinished token middle step more others last found ih =>
      cases collected
      exact ih (preserved.nextToken holds step) found

theorem perform (preserved : Preserved P) {call : Call} {events : List Event} (holds : P lexer)
    (performed : lexer.perform call = .ok (events, next)) : P next := by
  cases call with
  | nextToken =>
      obtain ⟨⟨token, middle⟩, step, same⟩ := bind_eq_ok_iff.mp performed
      cases same
      exact preserved.nextToken holds step
  | next =>
      obtain ⟨⟨item, middle⟩, step, same⟩ := bind_eq_ok_iff.mp performed
      cases same
      exact preserved.next holds step
  | take count =>
      obtain ⟨⟨tokens, middle⟩, taken, same⟩ := bind_eq_ok_iff.mp performed
      cases same
      exact preserved.take holds taken
  | remaining =>
      obtain ⟨⟨tokens, middle⟩, collected, same⟩ := bind_eq_ok_iff.mp performed
      cases same
      exact preserved.remaining holds collected
  | emit diagnostic =>
      cases performed
      exact preserved.emit diagnostic holds

/-- What single steps preserve, any calls preserve. -/
theorem drive (preserved : Preserved P) {calls : List Call} {events : List Event} (holds : P lexer)
    (driven : lexer.drive calls = .ok (events, next)) : P next := by
  induction calls generalizing lexer events with
  | nil =>
      cases driven
      exact holds
  | cons call calls ih =>
      obtain ⟨⟨now, middle⟩, performed, rest⟩ := bind_eq_ok_iff.mp driven
      obtain ⟨⟨later, last⟩, found, same⟩ := bind_eq_ok_iff.mp rest
      cases same
      exact ih (preserved.perform holds performed) found

end Preserved

namespace Reached

variable {file : FileId} {text : String} {log : Log} {lexer next : Lexer}

/-- A lexer stays one that calls have led to. -/
theorem preserved (file : FileId) (text : String) (log : Log) :
    Preserved (Reached file text log) where
  nextToken {lexer next token} reached step := by
    have performed : lexer.perform .nextToken = .ok ([.read token], next) := by
      simp only [perform, step, bind, Except.bind, pure, Except.pure]
    exact reached.call performed
  next {lexer next item} reached step := by
    have performed : lexer.perform .next = .ok ([.yielded item], next) := by
      simp only [perform, step, bind, Except.bind, pure, Except.pure]
    exact reached.call performed
  emit {lexer} diagnostic reached := by
    have performed : lexer.perform (.emit diagnostic) = .ok ([], lexer.emit diagnostic) := rfl
    exact reached.call performed

end Reached

end Lexer

/-! ### A cursor for the characters left -/

/-- The scanner that stands where a lexer stands in a text. -/
def Scanner.ofLexer (text : String) (lexer : Lexer) : Scanner where
  file := lexer.file
  cursor := { text, position := lexer.position }
  reportedUntil := lexer.reportedUntil
  finished := lexer.finished
  log := lexer.log

theorem Cursor.between_eq {text : String} {front back : List Char}
    (split : text.toList = front ++ back) :
    Cursor.between front back = { text, position := utf8Size front } := by
  rw [between, ← split, String.ofList_toList]

/-- A lexer stands in a text when it has left what is behind its position there. -/
def Lexer.Stands (text : String) (lexer : Lexer) : Prop :=
  ∃ before, text.toList = before ++ lexer.rest ∧ lexer.position = utf8Size before

namespace Lexer.Stands

variable {text : String} {lexer : Lexer}

/-- A lexer and the scanner in its place read the same token, and are in the same place again. -/
theorem nextToken (stands : lexer.Stands text) (fits : text.utf8ByteSize ≤ Offset.limit) :
    ∃ token next, lexer.nextToken = .ok (token, next) ∧
      (Scanner.ofLexer text lexer).nextToken = .ok (token, .ofLexer text next) ∧ next.Stands text ∧
      (token.kind = .invalid → ∃ c, token.text = String.singleton c) := by
  obtain ⟨before, split, position⟩ := stands
  rw [Text.utf8ByteSize_eq, split] at fits
  have fitsLexer : lexer.position + utf8Size lexer.rest ≤ Offset.limit := by
    rwa [position, ← Text.utf8Size_append]
  have standing : Scanner.ofLexer text lexer
      = (Scanner.ofLexer text lexer).standing before lexer.rest := by
    rw [Scanner.standing, Cursor.between_eq split, ← position]
    rfl
  rcases blank_or_lexeme lexer.rest with blank | ⟨blanks, lexeme, rest, blank, shape⟩
  · have behind : text.toList = (before ++ lexer.rest) ++ [] := by rw [split, List.append_nil]
    refine ⟨_, _, nextToken_of_blank blank fitsLexer, ?_, ⟨before ++ lexer.rest, behind, ?_⟩, ?_⟩
    · rw [standing, Scanner.nextToken_of_blank blank fits, Scanner.standing,
        Cursor.between_eq behind, Text.utf8Size_append, ← position]
      rfl
    · rw [Text.utf8Size_append, ← position]
    · intro invalid
      cases invalid
  · have behind : text.toList = (before ++ blanks ++ lexeme.text) ++ lexeme.rest := by
      rw [split, rest]
      simp only [List.append_assoc]
    have place : utf8Size (before ++ blanks) = lexer.position + utf8Size blanks := by
      rw [Text.utf8Size_append, ← position]
    rw [rest] at fits
    obtain ⟨error, reported, verdict, read⟩ := nextToken_of_lexeme rest blank shape fitsLexer
    obtain ⟨error', reported', verdict', scanned⟩ :=
      Scanner.nextToken_of_lexeme (.ofLexer text lexer) blank shape fits
    rw [place] at verdict' scanned
    obtain ⟨rfl, rfl⟩ := verdict.unique verdict'
    refine ⟨_, _, read, ?_, ⟨before ++ blanks ++ lexeme.text, behind, ?_⟩, ?_⟩
    · rw [standing, rest, scanned, Scanner.standing, Cursor.between_eq behind,
        Text.utf8Size_append, place]
      rfl
    · rw [Text.utf8Size_append, place]
    · intro invalid
      obtain ⟨c, alone, -⟩ := shape.text_of_invalid invalid
      refine ⟨c, ?_⟩
      rw [Lexeme.text_tokenAt, alone, String.singleton_eq_ofList]

/-- The same holds of a step of the iteration. -/
theorem next? (stands : lexer.Stands text) (fits : text.utf8ByteSize ≤ Offset.limit) :
    ∃ item next, lexer.next? = .ok (item, next) ∧
      (Scanner.ofLexer text lexer).next? = .ok (item, .ofLexer text next) ∧ next.Stands text := by
  cases flag : lexer.finished with
  | true =>
      have finished : (Scanner.ofLexer text lexer).finished = true := flag
      refine ⟨none, lexer, next?_of_finished flag, ?_, stands⟩
      simp only [Scanner.next?, finished, if_true, pure, Except.pure]
  | false =>
      have unfinished : (Scanner.ofLexer text lexer).finished = false := flag
      obtain ⟨token, next, step, scanned, standsNext, -⟩ := stands.nextToken fits
      refine ⟨_, _, next?_of_unfinished flag step, ?_, standsNext⟩
      simp only [Scanner.next?, unfinished, scanned, bind, Except.bind, pure, Except.pure]
      rfl

end Lexer.Stands

/-! ### Scanners in use -/

/-- The scanners over a text that can come about: one that has read nothing, and what single reads,
    steps of the iteration and findings of the caller make of others. -/
inductive Scanner.Reachable (file : FileId) (text : String) (log : Log) : Scanner → Prop where
  | start {scanner : Scanner} (started : Scanner.start file text log = .ok scanner) :
      Reachable file text log scanner
  | nextToken {scanner next : Scanner} {token : Token} (before : Reachable file text log scanner)
      (read : scanner.nextToken = .ok (token, next)) : Reachable file text log next
  | next {scanner next : Scanner} {item : Option Token} (before : Reachable file text log scanner)
      (read : scanner.next? = .ok (item, next)) : Reachable file text log next
  | emit {scanner : Scanner} (diagnostic : Diagnostic) (before : Reachable file text log scanner) :
      Reachable file text log (scanner.emit diagnostic)

section InUse

variable {file : FileId} {text : String} {log : Log}

theorem Lexer.start_of_fits (file : FileId) (log : Log) (fits : text.utf8ByteSize ≤ Offset.limit) :
    Lexer.start file text log = .ok { file, rest := text.toList, log } :=
  if_pos fits

theorem Scanner.start_of_fits (file : FileId) (log : Log)
    (fits : text.utf8ByteSize ≤ Offset.limit) :
    Scanner.start file text log = .ok (.ofLexer text { file, rest := text.toList, log }) := by
  have cursor : Cursor.start text = .ok { text } := if_pos fits
  rw [Scanner.start, cursor]
  rfl

/-- Every scanner that can come about stands where a lexer stands that calls have led to. -/
theorem Scanner.Reachable.exists_lexer {scanner : Scanner} (fits : text.utf8ByteSize ≤ Offset.limit)
    (reachable : Reachable file text log scanner) :
    ∃ lexer, Lexer.Reached file text log lexer ∧ lexer.Stands text ∧
      scanner = .ofLexer text lexer := by
  have preserved := Lexer.Reached.preserved file text log
  induction reachable with
  | start started =>
      cases (Scanner.start_of_fits file log fits).symm.trans started
      exact ⟨_, ⟨_, [], [], Lexer.start_of_fits file log fits, rfl⟩, ⟨[], rfl, rfl⟩, rfl⟩
  | nextToken before read ih =>
      obtain ⟨lexer, reached, stands, rfl⟩ := ih
      obtain ⟨token, next, step, scanned, standsNext, -⟩ := stands.nextToken fits
      cases scanned.symm.trans read
      exact ⟨next, preserved.nextToken reached step, standsNext, rfl⟩
  | next before read ih =>
      obtain ⟨lexer, reached, stands, rfl⟩ := ih
      obtain ⟨item, next, step, scanned, standsNext⟩ := stands.next? fits
      cases scanned.symm.trans read
      exact ⟨next, preserved.next reached step, standsNext, rfl⟩
  | emit diagnostic before ih =>
      obtain ⟨lexer, reached, stands, rfl⟩ := ih
      exact ⟨lexer.emit diagnostic, preserved.emit diagnostic reached, stands, rfl⟩

/-- Wherever calls have led a lexer to, the scanner in its place can come about. -/
theorem Lexer.Reached.reachable_ofLexer {lexer : Lexer} (fits : text.utf8ByteSize ≤ Offset.limit)
    (reached : Reached file text log lexer) :
    Scanner.Reachable file text log (.ofLexer text lexer) ∧ lexer.Stands text := by
  have preserved : Preserved fun lexer =>
      Scanner.Reachable file text log (.ofLexer text lexer) ∧ lexer.Stands text := by
    constructor
    · rintro lexer next token ⟨reachable, stands⟩ step
      obtain ⟨token', next', step', scanned, standsNext, -⟩ := stands.nextToken fits
      cases step.symm.trans step'
      exact ⟨reachable.nextToken scanned, standsNext⟩
    · rintro lexer next item ⟨reachable, stands⟩ step
      obtain ⟨item', next', step', scanned, standsNext⟩ := stands.next? fits
      cases step.symm.trans step'
      exact ⟨reachable.next scanned, standsNext⟩
    · rintro lexer diagnostic ⟨reachable, stands⟩
      exact ⟨reachable.emit diagnostic, stands⟩
  obtain ⟨first, calls, events, started, driven⟩ := reached
  cases (start_of_fits file log fits).symm.trans started
  exact preserved.drive ⟨.start (Scanner.start_of_fits file log fits), [], rfl, rfl⟩ driven

end InUse

/-- Scanning a text is safe. -/
structure ScansSafely (file : FileId) (text : String) (log : Log) : Prop where
  starts : ∃ scanner, Scanner.start file text log = .ok scanner
  /-- The cursor never leaves the text, nor is it ever within a character. -/
  place : ∀ scanner, Scanner.Reachable file text log scanner → scanner.cursor.text = text ∧
    scanner.cursor.position ≤ text.utf8ByteSize ∧
    (Text.cut? text.toList scanner.cursor.position).isSome = true
  /-- No read stops with a misstep. So each move stays within the text and lands at the end of a
      character, each slice exists, each sum and difference of offsets is an offset, no count is cut
      off, no span runs backwards, and there is a character wherever one is looked for. -/
  reads : ∀ scanner, Scanner.Reachable file text log scanner →
    ∃ token next, scanner.nextToken = .ok (token, next)
  iterates : ∀ scanner, Scanner.Reachable file text log scanner →
    ∃ item next, scanner.next? = .ok (item, next)
  /-- An invalid token is a single character. -/
  invalid : ∀ scanner token next, Scanner.Reachable file text log scanner →
    scanner.nextToken = .ok (token, next) → token.kind = .invalid →
    ∃ c, token.text = String.singleton c
  /-- Scanners are in the places of lexers, and read what these read. -/
  states : ∀ scanner, Scanner.Reachable file text log scanner ↔
    ∃ lexer, Lexer.Reached file text log lexer ∧ scanner = .ofLexer text lexer
  agrees : ∀ lexer token next, Lexer.Reached file text log lexer →
    lexer.nextToken = .ok (token, next) →
    (Scanner.ofLexer text lexer).nextToken = .ok (token, .ofLexer text next)

/-- Scanning is safe on every text for which there are offsets, the longest included. -/
theorem scanner_never_missteps (file : FileId) (text : String) (log : Log)
    (fits : text.utf8ByteSize ≤ Offset.limit) : ScansSafely file text log := by
  constructor
  · exact ⟨_, Scanner.start_of_fits file log fits⟩
  · intro scanner reachable
    obtain ⟨lexer, -, ⟨before, split, position⟩, rfl⟩ := reachable.exists_lexer fits
    have place : (Scanner.ofLexer text lexer).cursor.position = utf8Size before := position
    refine ⟨rfl, ?_, ?_⟩
    · rw [place, Text.utf8ByteSize_eq, split, Text.utf8Size_append]
      exact Nat.le_add_right _ _
    · rw [place, split, Text.cut?_append]
      rfl
  · intro scanner reachable
    obtain ⟨lexer, -, stands, rfl⟩ := reachable.exists_lexer fits
    obtain ⟨token, next, -, scanned, -⟩ := stands.nextToken fits
    exact ⟨token, _, scanned⟩
  · intro scanner reachable
    obtain ⟨lexer, -, stands, rfl⟩ := reachable.exists_lexer fits
    obtain ⟨item, next, -, scanned, -⟩ := stands.next? fits
    exact ⟨item, _, scanned⟩
  · intro scanner token next reachable read invalid
    obtain ⟨lexer, -, stands, rfl⟩ := reachable.exists_lexer fits
    obtain ⟨token', next', -, scanned, -, single⟩ := stands.nextToken fits
    cases scanned.symm.trans read
    exact single invalid
  · intro scanner
    constructor
    · intro reachable
      obtain ⟨lexer, reached, -, rfl⟩ := reachable.exists_lexer fits
      exact ⟨lexer, reached, rfl⟩
    · rintro ⟨lexer, reached, rfl⟩
      exact (reached.reachable_ofLexer fits).1
  · intro lexer token next reached step
    obtain ⟨token', next', step', scanned, -⟩ := (reached.reachable_ofLexer fits).2.nextToken fits
    cases step.symm.trans step'
    exact scanned

/-- A text with characters of each size, a number with three points, and a symbol cut short. -/
theorem scanner_never_missteps_mixed :
    "é 1.2.3 ∀&&𝔸|".utf8ByteSize ≤ Offset.limit ∧
      ScansSafely ⟨0⟩ "é 1.2.3 ∀&&𝔸|" .empty :=
  ⟨by decide, scanner_never_missteps ⟨0⟩ _ .empty (by decide)⟩

end FrontEnd
