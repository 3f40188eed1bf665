/-
Module: FrontEnd.Proofs.ScannerSteps
Layer: Proofs
Purpose: Steps of the scanner of bytes. In a text that fits no step misses: in front of a lexeme the
  scanner reads just this lexeme, reports what the verdict on it says, and stands behind it.
Imports: FrontEnd.Proofs.CursorMoves, FrontEnd.Proofs.NumberFragments
Trusted boundary: none
Main exports: Scanner.standing, Scanner.judged, Scanner.Reads, Scanner.reads_lexeme,
  Scanner.nextToken_of_blank, Scanner.nextToken_of_lexeme
Open obligations: none
-/
import FrontEnd.Proofs.CursorMoves
import FrontEnd.Proofs.NumberFragments

namespace FrontEnd

open Lexer (isBlank isNumberPart isWordPart isWordStart)
open Text (firstByte leadByte utf8Size)

/-- The texts that a problem of fragments holds are put together from the float and the digits. -/
theorem LexProblem.ofFragments_eq (kept tail : List Char) :
    ofFragments kept tail =
      .malformedFloat (String.ofList (kept ++ tail)) (String.ofList kept)
        (if (tail.filter Char.isDigit).isEmpty then none
        else some (String.ofList kept ++ String.ofList (tail.filter Char.isDigit))) := by
  simp only [ofFragments, String.ofList_append]

namespace Scanner

/-! ### Where a scanner stands -/

/-- The scanner with its cursor between a front and a back of a text. -/
def standing (scanner : Scanner) (front back : List Char) : Scanner :=
  { scanner with cursor := .between front back }

/-- The scanner when it has reported an error, if any, and runs of fragments up to an offset. -/
def judged (scanner : Scanner) (error : Option LexError) (reported : Nat) : Scanner :=
  { scanner with
    reportedUntil := reported
    log := scanner.log.emitAll (error.toList.map (·.toDiagnostic scanner.file)) }

variable {scanner : Scanner} {front back front' back' : List Char}

@[simp] theorem cursor_standing (scanner : Scanner) (front back : List Char) :
    (scanner.standing front back).cursor = .between front back := rfl

theorem judged_none (scanner : Scanner) : scanner.judged none scanner.reportedUntil = scanner := rfl

theorem move_standing {how : Cursor → Except Misstep Cursor}
    (moved : how (.between front back) = .ok (.between front' back')) :
    (scanner.standing front back).move how = .ok (scanner.standing front' back') := by
  simp only [move, cursor_standing, moved, bind, Except.bind, pure, Except.pure]
  rfl

/-! ### Numbers -/

/-- Digits without a point behind them. -/
theorem number_of_integer {digits rest : List Char} (inside : ∀ d ∈ digits, d.isDigit = true)
    (stop : ∀ d ∈ rest.head?, d.isDigit = false) (noPoint : ∀ d ∈ rest.head?, d ≠ '.')
    (fits : utf8Size (front ++ (digits ++ rest)) ≤ Offset.limit) (start : Nat) :
    (scanner.standing front (digits ++ rest)).number start =
      .ok (.intLiteral, scanner.standing (front ++ digits) rest) := by
  have eaten : (scanner.standing front (digits ++ rest)).move (·.eatWhile Byte.isDigit)
      = .ok (scanner.standing (front ++ digits) rest) :=
    move_standing (Cursor.eatWhile_between Byte.tells_isDigit inside stop fits)
  have ended : (scanner.standing (front ++ digits) rest).cursor.current ≠ '.'.toUInt8 := by
    rw [cursor_standing, Cursor.current_between, Ne, Text.firstByte_eq_iff (by decide) (by decide)]
    intro point
    exact noPoint '.' point rfl
  simp only [number, eaten, bind, Except.bind, if_pos ended, pure, Except.pure]

/-- The report about the fragments behind a float. -/
theorem malformedFloat_eq {lexeme : Lexeme} {tail : List Char} (point : lexeme.rest = '.' :: tail)
    (fits : utf8Size (front ++ (lexeme.text ++ lexeme.rest)) ≤ Offset.limit) :
    (scanner.standing (front ++ lexeme.text) lexeme.rest).malformedFloat (utf8Size front) =
      .ok ((scanner.judged
              (some
                { span := lexeme.pointAfter (utf8Size front)
                  problem := .ofFragments lexeme.text lexeme.fragments })
              (utf8Size front + utf8Size lexeme.text + utf8Size lexeme.fragments)).standing
            (front ++ lexeme.text) lexeme.rest) := by
  obtain ⟨others, split⟩ : ∃ others, lexeme.rest = lexeme.fragments ++ others :=
    ⟨_, (List.takeWhile_append_dropWhile ..).symm⟩
  have stop : ∀ d ∈ lexeme.rest.head?, d.isDigit = false := by
    rw [point]
    rintro d ⟨⟩
    rfl
  have place : utf8Size (front ++ lexeme.text) = utf8Size front + utf8Size lexeme.text :=
    Text.utf8Size_append ..
  have bounds : utf8Size (front ++ lexeme.text) + utf8Size lexeme.fragments ≤ Offset.limit ∧
      utf8Size (front ++ lexeme.text) + 1 ≤ Offset.limit := by
    have filled := Lexeme.fragments_pos point
    rw [split] at fits
    simp only [Text.utf8Size_append] at fits ⊢
    omega
  have unread := Cursor.unread_between (front ++ lexeme.text) lexeme.rest
  have count : Offset.ofCount (utf8Size lexeme.fragments) = .ok (utf8Size lexeme.fragments) :=
    if_pos (Nat.le_trans (Nat.le_add_left ..) bounds.1)
  have runEnd : Offset.add (utf8Size (front ++ lexeme.text)) (utf8Size lexeme.fragments)
      = .ok (utf8Size (front ++ (lexeme.text ++ lexeme.fragments))) :=
    Offset.add_eq_ok_iff.mpr ⟨bounds.1, by simp only [Text.utf8Size_append, Nat.add_assoc]⟩
  have pointEnd : Offset.add (utf8Size (front ++ lexeme.text)) 1
      = .ok (utf8Size (front ++ lexeme.text) + 1) :=
    Offset.add_eq_ok_iff.mpr ⟨bounds.2, rfl⟩
  have kept := Cursor.slice_between front lexeme.text lexeme.rest
  have literal : (Cursor.between (front ++ lexeme.text) lexeme.rest).slice (utf8Size front)
      (utf8Size (front ++ (lexeme.text ++ lexeme.fragments)))
      = .ok (String.ofList (lexeme.text ++ lexeme.fragments)) := by
    have text : (Cursor.between (front ++ lexeme.text) lexeme.rest).text.toList
        = front ++ (lexeme.text ++ lexeme.fragments) ++ others := by
      rw [Cursor.toList_text_between, split]
      simp only [List.append_assoc]
    exact Cursor.slice_of_text text
  have span : Span.ofBounds (utf8Size (front ++ lexeme.text))
      (utf8Size (front ++ lexeme.text) + 1) = .ok (lexeme.pointAfter (utf8Size front)) := by
    rw [place]
    exact Span.ofBounds_eq_ok (lexeme.pointAfter (utf8Size front))
  simp only [malformedFloat, cursor_standing, unread, Cursor.position_between,
    fragmentBytes_encode stop, liftM_ok, bind, Except.bind, pure, Except.pure]
  rw [← Lexeme.fragments]
  simp only [count, runEnd, pointEnd, kept, literal, span, liftM_ok]
  rw [← LexProblem.ofFragments_eq, Text.utf8Size_append, Text.utf8Size_append, ← Nat.add_assoc]
  rfl

/-- What reading a lexeme behind a front comes to: its kind, and the scanner behind it when it has
    reported what the verdict says. -/
def Reads (scanner : Scanner) (front : List Char) (lexeme : Lexeme)
    (result : Except Misstep (TokenKind × Scanner)) : Prop :=
  ∃ error reported, lexeme.Verdict (utf8Size front) scanner.reportedUntil error reported ∧
    result = .ok (lexeme.kind,
      (scanner.judged error reported).standing (front ++ lexeme.text) lexeme.rest)

/-- There is nothing to report about a lexeme that is neither invalid nor a float. -/
theorem Reads.of_quiet {lexeme : Lexeme} {result : Except Misstep (TokenKind × Scanner)}
    (valid : lexeme.kind ≠ .invalid) (noFloat : lexeme.kind ≠ .floatLiteral)
    (read : result = .ok (lexeme.kind, scanner.standing (front ++ lexeme.text) lexeme.rest)) :
    scanner.Reads front lexeme result :=
  ⟨none, _, .quiet valid fun float => absurd float noFloat, by rw [read, judged_none]⟩

/-- Inspecting a float ends in the verdict on it. -/
theorem inspectFloat_verdict (scanner : Scanner) {lexeme : Lexeme}
    (kind : lexeme.kind = .floatLiteral)
    (fits : utf8Size (front ++ (lexeme.text ++ lexeme.rest)) ≤ Offset.limit) :
    ∃ error reported, lexeme.Verdict (utf8Size front) scanner.reportedUntil error reported ∧
      (scanner.standing (front ++ lexeme.text) lexeme.rest).inspectFloat (utf8Size front) =
        .ok ((scanner.judged error reported).standing (front ++ lexeme.text) lexeme.rest) := by
  have next : (scanner.standing (front ++ lexeme.text) lexeme.rest).cursor.current = '.'.toUInt8
      ↔ lexeme.rest.head? = some '.' := by
    rw [cursor_standing, Cursor.current_between, Text.firstByte_eq_iff (by decide) (by decide)]
  have place : (scanner.standing (front ++ lexeme.text) lexeme.rest).cursor.position
      = utf8Size front + utf8Size lexeme.text :=
    Text.utf8Size_append ..
  unfold inspectFloat
  rw [place]
  split
  · rename_i unreported
    obtain ⟨tail, found⟩ := List.head?_eq_some_iff.mp (next.mp unreported.1)
    exact ⟨_, _, .fragments kind found unreported.2, malformedFloat_eq found fits⟩
  · rename_i covered
    have valid : lexeme.kind ≠ .invalid := by
      rw [kind]
      exact TokenKind.noConfusion
    refine ⟨none, _, .quiet valid fun _ tail found => ?_, by rw [judged_none]⟩
    apply Nat.lt_of_not_le
    intro unreported
    exact covered ⟨next.mpr (by rw [found, List.head?_cons]), unreported⟩

/-- Digits, a point and digits, whatever is behind them. -/
theorem number_of_float (scanner : Scanner) (lexeme : Lexeme) {whole fraction : List Char}
    (kind : lexeme.kind = .floatLiteral) (text : lexeme.text = whole ++ '.' :: fraction)
    (insideWhole : ∀ d ∈ whole, d.isDigit = true)
    (insideFraction : ∀ d ∈ fraction, d.isDigit = true)
    (stop : ∀ d ∈ lexeme.rest.head?, d.isDigit = false)
    (fits : utf8Size (front ++ (lexeme.text ++ lexeme.rest)) ≤ Offset.limit) :
    scanner.Reads front lexeme
      ((scanner.standing front (lexeme.text ++ lexeme.rest)).number (utf8Size front)) := by
  have split : lexeme.text ++ lexeme.rest = whole ++ '.' :: (fraction ++ lexeme.rest) := by
    rw [text, List.append_assoc, List.cons_append]
  have behind : front ++ lexeme.text = front ++ whole ++ ['.'] ++ fraction := by
    simp only [text, List.append_assoc, List.singleton_append]
  have fitsWhole : utf8Size (front ++ (whole ++ '.' :: (fraction ++ lexeme.rest)))
      ≤ Offset.limit := by
    rwa [← split]
  have fitsPoint : utf8Size (front ++ whole ++ '.' :: (fraction ++ lexeme.rest))
      ≤ Offset.limit := by
    rwa [List.append_assoc]
  have fitsFraction : utf8Size (front ++ whole ++ ['.'] ++ (fraction ++ lexeme.rest))
      ≤ Offset.limit := by
    rwa [List.append_assoc, List.singleton_append]
  have pointStops : ∀ d ∈ ('.' :: (fraction ++ lexeme.rest)).head?, d.isDigit = false := by
    rintro d ⟨⟩
    rfl
  have eatenWhole : (scanner.standing front (whole ++ '.' :: (fraction ++ lexeme.rest))).move
      (·.eatWhile Byte.isDigit)
      = .ok (scanner.standing (front ++ whole) ('.' :: (fraction ++ lexeme.rest))) :=
    move_standing (Cursor.eatWhile_between Byte.tells_isDigit insideWhole pointStops fitsWhole)
  have point : ¬ (scanner.standing (front ++ whole)
      ('.' :: (fraction ++ lexeme.rest))).cursor.current ≠ '.'.toUInt8 := by
    rw [cursor_standing, Cursor.current_between, not_not,
      Text.firstByte_eq_iff (by decide) (by decide), List.head?_cons]
  have moved :
      (scanner.standing (front ++ whole) ('.' :: (fraction ++ lexeme.rest))).move (·.advance) =
        .ok (scanner.standing (front ++ whole ++ ['.']) (fraction ++ lexeme.rest)) :=
    move_standing (Cursor.advance_between rfl fitsPoint)
  have eatenFraction : (scanner.standing (front ++ whole ++ ['.']) (fraction ++ lexeme.rest)).move
      (·.eatWhile Byte.isDigit) = .ok (scanner.standing (front ++ lexeme.text) lexeme.rest) := by
    rw [behind]
    exact move_standing
      (Cursor.eatWhile_between Byte.tells_isDigit insideFraction stop fitsFraction)
  obtain ⟨error, reported, verdict, inspected⟩ := inspectFloat_verdict scanner kind fits
  refine ⟨error, reported, verdict, ?_⟩
  rw [split, kind]
  simp only [number, eatenWhole, if_neg point, moved, eatenFraction, inspected, bind, Except.bind,
    pure, Except.pure]

/-! ### Words -/

theorem identifier_of_word {letters rest : List Char} (inside : ∀ d ∈ letters, isWordPart d = true)
    (stop : ∀ d ∈ rest.head?, isWordPart d = false)
    (fits : utf8Size (front ++ (letters ++ rest)) ≤ Offset.limit) :
    (scanner.standing front (letters ++ rest)).identifier (utf8Size front) =
      .ok (Lexeme.wordKind (String.ofList letters), scanner.standing (front ++ letters) rest) := by
  have eaten : (scanner.standing front (letters ++ rest)).move (·.eatWhile Byte.isWordPart)
      = .ok (scanner.standing (front ++ letters) rest) :=
    move_standing (Cursor.eatWhile_between Byte.tells_isWordPart inside stop fits)
  simp only [identifier, eaten, cursor_standing, Cursor.position_between, Cursor.slice_between,
    liftM_ok, bind, Except.bind, pure, Except.pure, Lexeme.wordKind]

/-! ### Marks -/

/-- The next byte begins what the next character begins. -/
theorem lead_between (front back : List Char) (c : Char) :
    Lead.ofByte (Cursor.between front (c :: back)).current = Lead.ofChar c := by
  rw [Cursor.current_between, firstByte, Lead.ofByte_leadByte]

/-- A look at the second byte of a symbol tells whether the second character is there. -/
theorem peek_second {c second : Char} {two : Symbol} (pair : Symbol.ofPair? c second = some two)
    (fits : utf8Size (front ++ c :: back) ≤ Offset.limit) :
    ∃ byte, (Cursor.between front (c :: back)).peek = .ok byte ∧
      (byte = second.toUInt8 ↔ back.head? = some second) := by
  obtain ⟨ascii, asciiSecond, nonzero⟩ := Symbol.ascii_of_ofPair? pair
  exact ⟨_, Cursor.peek_between (Text.utf8Size_of_ascii ascii) fits,
    Text.firstByte_eq_iff asciiSecond nonzero⟩

/-- A character that starts no token is read whole and reported. -/
theorem unexpectedCharacter_eq {c : Char} (fits : utf8Size (front ++ c :: back) ≤ Offset.limit)
    (span : Span) (bounds : span.start = utf8Size front ∧ span.stop = utf8Size (front ++ [c])) :
    (scanner.standing front (c :: back)).unexpectedCharacter (utf8Size front) =
      .ok (.invalid,
        (scanner.judged (some { span, problem := .unexpectedCharacter c })
          scanner.reportedUntil).standing (front ++ [c]) back) := by
  have moved : (scanner.standing front (c :: back)).move (·.advanceChar)
      = .ok (scanner.standing (front ++ [c]) back) :=
    move_standing (Cursor.advanceChar_between fits)
  have spanEq : Span.ofBounds (utf8Size front) (utf8Size (front ++ [c])) = .ok span := by
    rw [← bounds.1, ← bounds.2, Span.ofBounds_eq_ok]
  simp only [unexpectedCharacter, moved, cursor_standing, Cursor.position_between,
    Cursor.slice_between, liftM_ok, bind, Except.bind, String.toList_ofList, spanEq, pure,
    Except.pure]
  rfl

/-- Two characters that form a symbol together. -/
theorem punctuation_of_pair {c d : Char} {sign : Symbol} (known : Symbol.ofPair? c d = some sign)
    (fits : utf8Size (front ++ c :: d :: back) ≤ Offset.limit) (start : Nat) :
    (scanner.standing front (c :: d :: back)).punctuation start =
      .ok (.symbol sign, scanner.standing (front ++ [c, d]) back) := by
  obtain ⟨ascii, asciiNext, -⟩ := Symbol.ascii_of_ofPair? known
  have two : utf8Size [c, d] = 2 := by
    simp [Text.utf8Size_of_ascii ascii, Text.utf8Size_of_ascii asciiNext]
  have moved : (scanner.standing front (c :: d :: back)).move (·.advanceBy 2)
      = .ok (scanner.standing (front ++ [c, d]) back) := by
    rw [← two]
    exact move_standing (Cursor.advanceBy_between [c, d] fits)
  obtain ⟨byte, peeked, same⟩ := peek_second known fits
  have second : byte = d.toUInt8 := same.mpr rfl
  rcases Lead.ofChar_of_ofPair? known with ⟨one, lead⟩ | lead
  · simp only [punctuation, cursor_standing, lead_between, lead, peeked, liftM_ok, if_pos second,
      moved, bind, Except.bind, pure, Except.pure]
  · simp only [punctuation, cursor_standing, lead_between, lead, peeked, liftM_ok, if_pos second,
      moved, bind, Except.bind, pure, Except.pure]

/-- A character that forms no symbol with the next one is a symbol of its own or begins no token. -/
theorem punctuation_of_alone {c : Char} (alone : ∀ d ∈ back.head?, Symbol.ofPair? c d = none)
    (fits : utf8Size (front ++ c :: back) ≤ Offset.limit) (start : Nat) :
    (scanner.standing front (c :: back)).punctuation start =
      match Symbol.ofChar? c with
      | some sign => .ok (.symbol sign, scanner.standing (front ++ [c]) back)
      | none => (scanner.standing front (c :: back)).unexpectedCharacter start := by
  have agrees := Lead.agrees c
  have moved {sign : Symbol} (known : Symbol.ofChar? c = some sign) :
      (scanner.standing front (c :: back)).move (·.advance)
        = .ok (scanner.standing (front ++ [c]) back) :=
    move_standing
      (Cursor.advance_between (Text.utf8Size_of_ascii (Symbol.ascii_of_ofChar? known)) fits)
  have notSecond {second : Char} {two : Symbol}
      (pairs : ∀ d, Symbol.ofPair? c d = if d = second then some two else none) :
      ∃ byte, (Cursor.between front (c :: back)).peek = .ok byte ∧ byte ≠ second.toUInt8 := by
    have pair : Symbol.ofPair? c second = some two := (pairs second).trans (if_pos rfl)
    obtain ⟨byte, peeked, same⟩ := peek_second pair fits
    refine ⟨byte, peeked, fun found => ?_⟩
    cases (alone second (same.mp found)).symm.trans pair
  cases lead : Lead.ofChar c with
  | single sign =>
      rw [lead] at agrees
      simp only [punctuation, cursor_standing, lead_between, lead, agrees.1, moved agrees.1, bind,
        Except.bind, pure, Except.pure]
  | oneOrTwo second two one =>
      rw [lead] at agrees
      obtain ⟨byte, peeked, other⟩ := notSecond agrees.2
      simp only [punctuation, cursor_standing, lead_between, lead, agrees.1, peeked, liftM_ok,
        if_neg other, moved agrees.1, bind, Except.bind, pure, Except.pure]
  | twoOnly second two =>
      rw [lead] at agrees
      obtain ⟨byte, peeked, other⟩ := notSecond agrees.2
      simp only [punctuation, cursor_standing, lead_between, lead, agrees.1, peeked, liftM_ok,
        if_neg other, bind, Except.bind]
  | none =>
      rw [lead] at agrees
      simp only [punctuation, cursor_standing, lead_between, lead, agrees.1]

/-! ### Lexemes -/

/-- The first byte decides what to read as the first character does. -/
theorem lexeme_cons (c : Char) (start : Nat) :
    (scanner.standing front (c :: back)).lexeme start =
      if c = '\n' then
        ((scanner.standing front (c :: back)).move (·.advance)).map fun next => (.newline, next)
      else if c.isDigit then (scanner.standing front (c :: back)).number start
      else if isWordStart c then (scanner.standing front (c :: back)).identifier start
      else (scanner.standing front (c :: back)).punctuation start := by
  have newline : leadByte c = '\n'.toUInt8 ↔ c = '\n' := Text.leadByte_eq_iff (by decide)
  simp only [lexeme, cursor_standing, Cursor.current_between, firstByte, newline,
    Byte.tells_isDigit.lead, Byte.tells_isWordStart.lead]
  rfl

theorem lexeme_of_isDigit {c : Char} (digit : c.isDigit = true) (start : Nat) :
    (scanner.standing front (c :: back)).lexeme start =
      (scanner.standing front (c :: back)).number start := by
  rw [lexeme_cons, if_neg (Lexer.ne_newline_of_isDigit digit), if_pos digit]

theorem lexeme_of_isWordStart {c : Char} (begins : isWordStart c = true) (start : Nat) :
    (scanner.standing front (c :: back)).lexeme start =
      (scanner.standing front (c :: back)).identifier start := by
  have notDigit : ¬ c.isDigit = true := by
    intro digit
    rw [Lexer.isWordStart_of_isDigit digit] at begins
    cases begins
  rw [lexeme_cons, if_neg (Lexer.ne_newline_of_isWordStart begins), if_neg notDigit, if_pos begins]

theorem lexeme_of_isMark {c : Char} (mark : Lexer.IsMark c) (start : Nat) :
    (scanner.standing front (c :: back)).lexeme start =
      (scanner.standing front (c :: back)).punctuation start := by
  obtain ⟨notNewline, notDigit, notStart, -⟩ := mark
  rw [lexeme_cons, if_neg notNewline, if_neg (by simp [notDigit]), if_neg (by simp [notStart])]

/-- In front of a lexeme the scanner reads this lexeme. -/
theorem reads_lexeme (scanner : Scanner) {lexeme : Lexeme} (shape : lexeme.Shape)
    (fits : utf8Size (front ++ (lexeme.text ++ lexeme.rest)) ≤ Offset.limit) :
    scanner.Reads front lexeme
      ((scanner.standing front (lexeme.text ++ lexeme.rest)).lexeme (utf8Size front)) := by
  cases shape with
  | @newline rest =>
      apply Reads.of_quiet (by simp) (by simp)
      have moved : (scanner.standing front ('\n' :: rest)).move (·.advance)
          = .ok (scanner.standing (front ++ ['\n']) rest) :=
        move_standing (Cursor.advance_between rfl fits)
      rw [List.singleton_append, lexeme_cons, if_pos rfl, moved]
      rfl
  | @integer digits rest filled inside stop noPoint =>
      apply Reads.of_quiet (by simp) (by simp)
      obtain ⟨c, digits, rfl⟩ := List.exists_cons_of_ne_nil filled
      rw [List.cons_append, lexeme_of_isDigit (inside c (List.mem_cons_self ..))]
      exact number_of_integer inside stop noPoint fits _
  | @float whole fraction rest filled insideWhole insideFraction stop =>
      have read := number_of_float scanner
        { kind := .floatLiteral, text := whole ++ '.' :: fraction, rest }
        rfl rfl insideWhole insideFraction stop fits
      obtain ⟨c, whole, rfl⟩ := List.exists_cons_of_ne_nil filled
      rw [List.cons_append, List.cons_append] at read ⊢
      rwa [lexeme_of_isDigit (insideWhole c (List.mem_cons_self ..))]
  | @word c letters rest start inside stop =>
      apply Reads.of_quiet (Lexeme.wordKind_ne _ (by simp) (by simp))
        (Lexeme.wordKind_ne _ (by simp) (by simp))
      have parts : ∀ d ∈ c :: letters, isWordPart d = true := by
        rintro d (_ | ⟨_, member⟩)
        · exact Lexer.isWordPart_iff.mpr (Or.inl start)
        · exact inside d member
      rw [List.cons_append, lexeme_of_isWordStart start]
      exact identifier_of_word parts stop fits
  | @pair c d sign rest known =>
      apply Reads.of_quiet (by simp) (by simp)
      rw [List.cons_append, lexeme_of_isMark (Symbol.isMark_of_ofPair? known).1]
      exact punctuation_of_pair known fits _
  | @single c sign rest known alone =>
      apply Reads.of_quiet (by simp) (by simp)
      rw [List.singleton_append, lexeme_of_isMark (Symbol.isMark_of_ofChar? known),
        punctuation_of_alone alone fits, known]
  | @invalid c rest mark unknown alone =>
      refine ⟨_, _, .unexpected rfl rfl, ?_⟩
      rw [List.singleton_append, lexeme_of_isMark mark, punctuation_of_alone alone fits, unknown]
      exact unexpectedCharacter_eq fits _ ⟨rfl, (Text.utf8Size_append ..).symm⟩

/-! ### Tokens -/

/-- Where only blanks are left, the next token is the end of the text. -/
theorem nextToken_of_blank {blanks : List Char} (blank : ∀ c ∈ blanks, isBlank c = true)
    (fits : utf8Size (front ++ blanks) ≤ Offset.limit) :
    (scanner.standing front blanks).nextToken =
      .ok (.endOfFile (utf8Size (front ++ blanks)), scanner.standing (front ++ blanks) []) := by
  have skipped : (scanner.standing front blanks).move (·.eatWhile Byte.isBlank)
      = .ok (scanner.standing (front ++ blanks) []) := by
    have eaten : (Cursor.between front (blanks ++ [])).eatWhile Byte.isBlank
        = .ok (Cursor.between (front ++ blanks) []) :=
      Cursor.eatWhile_between Byte.tells_isBlank blank (by simp) (by rwa [List.append_nil])
    rw [List.append_nil] at eaten
    exact move_standing eaten
  have ended : (Cursor.between (front ++ blanks) []).isAtEnd = true :=
    (Cursor.isAtEnd_between _ _).mpr rfl
  simp only [nextToken, skipped, cursor_standing, ended, bind, Except.bind, pure, Except.pure]
  rfl

/-- Where a lexeme is left behind blanks, the next token is the token of the lexeme, and the scanner
    stands behind it when it has reported what the verdict says. -/
theorem nextToken_of_lexeme (scanner : Scanner) {blanks : List Char} {lexeme : Lexeme}
    (blank : ∀ c ∈ blanks, isBlank c = true) (shape : lexeme.Shape)
    (fits : utf8Size (front ++ (blanks ++ (lexeme.text ++ lexeme.rest))) ≤ Offset.limit) :
    ∃ error reported,
      lexeme.Verdict (utf8Size (front ++ blanks)) scanner.reportedUntil error reported ∧
      (scanner.standing front (blanks ++ (lexeme.text ++ lexeme.rest))).nextToken =
        .ok (lexeme.tokenAt (utf8Size (front ++ blanks)),
          (scanner.judged error reported).standing (front ++ blanks ++ lexeme.text)
            lexeme.rest) := by
  have fitsBehind : utf8Size (front ++ blanks ++ (lexeme.text ++ lexeme.rest)) ≤ Offset.limit := by
    rwa [List.append_assoc]
  have skipped : (scanner.standing front (blanks ++ (lexeme.text ++ lexeme.rest))).move
      (·.eatWhile Byte.isBlank)
      = .ok (scanner.standing (front ++ blanks) (lexeme.text ++ lexeme.rest)) :=
    move_standing (Cursor.eatWhile_between Byte.tells_isBlank blank shape.visible fits)
  have more : ¬ (Cursor.between (front ++ blanks) (lexeme.text ++ lexeme.rest)).isAtEnd = true := by
    rw [Cursor.isAtEnd_between]
    exact List.append_ne_nil_of_left_ne_nil shape.text_ne_nil _
  obtain ⟨error, reported, verdict, read⟩ :=
    reads_lexeme scanner shape fitsBehind
  have span : Span.ofBounds (utf8Size (front ++ blanks)) (utf8Size (front ++ blanks ++ lexeme.text))
      = .ok (lexeme.spanAt (utf8Size (front ++ blanks))) := by
    rw [Text.utf8Size_append (front ++ blanks)]
    exact Span.ofBounds_eq_ok (lexeme.spanAt (utf8Size (front ++ blanks)))
  refine ⟨error, reported, verdict, ?_⟩
  simp only [nextToken, skipped, cursor_standing, Cursor.position_between, if_neg more, read, span,
    Cursor.slice_between, liftM_ok, bind, Except.bind, pure, Except.pure]
  rfl

end Scanner

end FrontEnd
