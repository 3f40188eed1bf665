/-
Module: FrontEnd.Proofs.MaximalMunch
Layer: Proofs
Purpose: The lexical grammar, and the tokens of a text by the rule of the longest match. The grammar
  is stated by classes of characters and by spellings, with no regard to how a text is scanned; the
  lexer finds exactly the tokens that the rule allows.
Imports: FrontEnd.Proofs.LexerRuns
Trusted boundary: none
Main exports: Grammar.Word, Grammar.Longest, Grammar.Wordless, Grammar.First, Grammar.Munch,
  lex_eq_longest_matches
Open obligations: none
-/
import FrontEnd.Proofs.LexerRuns

namespace FrontEnd

open Text (utf8Size)
open Lexer (isBlank isWordStart isWordPart)

/-! ### The grammar -/

namespace Grammar

/-- Space, tab, carriage return, vertical tab and form feed separate words. -/
def Blank (c : Char) : Prop :=
  c = ' ' ∨ c = '\t' ∨ c = '\r' ∨ c = '\x0b' ∨ c = '\x0c'

def Digit (c : Char) : Prop :=
  '0' ≤ c ∧ c ≤ '9'

/-- Letters and the underscore start a name. -/
def NameStart (c : Char) : Prop :=
  ('A' ≤ c ∧ c ≤ 'Z') ∨ ('a' ≤ c ∧ c ≤ 'z') ∨ c = '_'

def NamePart (c : Char) : Prop :=
  NameStart c ∨ Digit c

/-- The words of the language with their kinds. A word that could be a name is reserved if it is
    spelled like a reserved word. -/
inductive Word : TokenKind → List Char → Prop where
  | newline : Word .newline ['\n']
  | integer {digits : List Char} (filled : digits ≠ []) (inside : ∀ c ∈ digits, Digit c) :
      Word .intLiteral digits
  | float {whole fraction : List Char} (filled : whole ≠ [])
      (insideWhole : ∀ c ∈ whole, Digit c) (insideFraction : ∀ c ∈ fraction, Digit c) :
      Word .floatLiteral (whole ++ '.' :: fraction)
  | reserved (keyword : Keyword) : Word (.keyword keyword) keyword.spelling.toList
  | name {c : Char} {letters : List Char} (start : NameStart c)
      (inside : ∀ d ∈ letters, NamePart d)
      (free : ∀ keyword : Keyword, keyword.spelling.toList ≠ c :: letters) :
      Word .identifier (c :: letters)
  | symbol (sign : Symbol) : Word (.symbol sign) sign.spelling.toList

/-- No word at the front of the text is longer than this one. -/
structure Longest (kind : TokenKind) (word rest : List Char) : Prop where
  isWord : Word kind word
  longest : ∀ kind' word', Word kind' word' → word' <+: word ++ rest →
    word'.length ≤ word.length

/-- No word stands at the front of the text. -/
def Wordless (text : List Char) : Prop :=
  ∀ kind word, Word kind word → ¬ word <+: text

/-- What comes first in a text `word ++ rest`: its longest word, or, where there is no word, a
    single character that is invalid. -/
inductive First : TokenKind → List Char → List Char → Prop where
  | word {kind : TokenKind} {word rest : List Char} (longest : Longest kind word rest) :
      First kind word rest
  | invalid {c : Char} {rest : List Char} (wordless : Wordless (c :: rest)) :
      First .invalid [c] rest

/-- The tokens of a text that begins at an offset: blanks are skipped as far as they go, what comes
    first behind them is a token, and so on to the end of the text, which is a token as well. -/
inductive Munch : Nat → List Char → List Token → Prop where
  | finish {offset : Nat} {blanks : List Char} (blank : ∀ c ∈ blanks, Blank c) :
      Munch offset blanks
        [{ kind := .endOfFile, span := .point (offset + utf8Size blanks), text := "" }]
  | token {offset : Nat} {text blanks word rest : List Char} {kind : TokenKind}
      {tokens : List Token} (split : text = blanks ++ (word ++ rest))
      (blank : ∀ c ∈ blanks, Blank c) (visible : ∀ c ∈ (word ++ rest).head?, ¬ Blank c)
      (first : First kind word rest)
      (more : Munch (offset + utf8Size blanks + utf8Size word) rest tokens) :
      Munch offset text
        ({ kind
           span := ⟨offset + utf8Size blanks, offset + utf8Size blanks + utf8Size word,
             Nat.le_add_right _ _⟩
           text := String.ofList word } :: tokens)

/-! ### The classes of the grammar are those of the lexer -/

theorem blank_iff {c : Char} : Blank c ↔ isBlank c = true := by
  simp only [Blank, isBlank, Bool.or_eq_true, decide_eq_true_eq, or_assoc]

theorem digit_iff {c : Char} : Digit c ↔ c.isDigit = true := by
  simp only [Digit, Char.isDigit, Bool.and_eq_true, decide_eq_true_eq, ge_iff_le]
  exact Iff.rfl

theorem nameStart_iff {c : Char} : NameStart c ↔ isWordStart c = true := by
  rw [Lexer.isWordStart_iff, NameStart, Lexer.eq_iff_toNat]
  exact Iff.rfl

theorem namePart_iff {c : Char} : NamePart c ↔ isWordPart c = true := by
  rw [NamePart, nameStart_iff, digit_iff, Lexer.isWordPart_iff]

/-! ### Words are lexemes -/

/-- A word alone is read as the lexeme of its kind. -/
theorem Word.shape {kind : TokenKind} {word : List Char} (isWord : Word kind word) :
    Lexeme.Shape { kind, text := word, rest := [] } := by
  cases isWord with
  | newline =>
      exact .newline
  | integer filled inside =>
      exact .integer filled (fun c member => digit_iff.mp (inside c member)) (by simp) (by simp)
  | float filled insideWhole insideFraction =>
      exact .float filled (fun c member => digit_iff.mp (insideWhole c member))
        (fun c member => digit_iff.mp (insideFraction c member)) (by simp)
  | reserved keyword =>
      obtain ⟨c, letters, spelled, start, inside⟩ := keyword.spelling_shape
      have kind : Lexeme.wordKind (String.ofList (c :: letters)) = .keyword keyword := by
        rw [← spelled, String.ofList_toList, Lexeme.wordKind_spelling]
      rw [spelled, ← kind]
      exact .word start inside (by simp)
  | @name c letters start inside free =>
      have kind : Lexeme.wordKind (String.ofList (c :: letters)) = .identifier := by
        rcases Lexeme.wordKind_cases (String.ofList (c :: letters))
          with ⟨keyword, found, -⟩ | ⟨-, kind⟩
        · rw [Keyword.lookup?_eq_some_iff] at found
          exact absurd (by rw [← found, String.toList_ofList]) (free keyword)
        · exact kind
      rw [← kind]
      exact .word (nameStart_iff.mp start) (fun d member => namePart_iff.mp (inside d member))
        (by simp)
  | symbol sign =>
      rcases sign.read_of_spelling with ⟨c, spelled, known⟩ | ⟨c, d, spelled, known⟩
      · rw [spelled]
        exact .single known (by simp)
      · rw [spelled]
        exact .pair known

/-- The kind of a word is determined by its spelling. -/
theorem Word.kind_unique {kind kind' : TokenKind} {word : List Char} (one : Word kind word)
    (two : Word kind' word) : kind = kind' := by
  have same := one.shape.unique two.shape rfl
  exact congrArg Lexeme.kind same

theorem Word.ne_nil {kind : TokenKind} {word : List Char} (isWord : Word kind word) :
    word ≠ [] :=
  isWord.shape.text_ne_nil

/-- The characters of a valid lexeme are a word. -/
theorem word_of_shape {lexeme : Lexeme} (shape : lexeme.Shape) (valid : lexeme.kind ≠ .invalid) :
    Word lexeme.kind lexeme.text := by
  cases shape with
  | newline =>
      exact .newline
  | integer filled inside =>
      exact .integer filled fun c member => digit_iff.mpr (inside c member)
  | float filled insideWhole insideFraction =>
      exact .float filled (fun c member => digit_iff.mpr (insideWhole c member))
        fun c member => digit_iff.mpr (insideFraction c member)
  | @word c letters _ start inside =>
      rcases Lexeme.wordKind_cases (String.ofList (c :: letters))
        with ⟨keyword, found, kind⟩ | ⟨notFound, kind⟩
      · rw [Keyword.lookup?_eq_some_iff] at found
        have spelled : c :: letters = keyword.spelling.toList := by
          rw [← found, String.toList_ofList]
        change Word (Lexeme.wordKind (String.ofList (c :: letters))) (c :: letters)
        rw [kind, spelled]
        exact .reserved keyword
      · simp only [kind]
        refine .name (nameStart_iff.mpr start) (fun d member => namePart_iff.mpr (inside d member))
          fun keyword spelled => ?_
        have found : Keyword.lookup? (String.ofList (c :: letters)) = some keyword := by
          rw [Keyword.lookup?_eq_some_iff, ← spelled, String.ofList_toList]
        cases notFound.symm.trans found
  | @pair c d sign _ known =>
      simp only [← Symbol.spelling_of_ofPair? known]
      exact .symbol sign
  | @single c sign _ known _ =>
      simp only [← Symbol.spelling_of_ofChar? known]
      exact .symbol sign
  | invalid =>
      exact absurd rfl valid

/-! ### Lexemes are the longest words -/

/-- Digits at the front of a text belong to its number. -/
theorem length_le_number {digits input : List Char} (inside : ∀ d ∈ digits, d.isDigit = true)
    (front : digits <+: input) : digits.length ≤ (Lexeme.number input).text.length := by
  obtain ⟨rest, rfl⟩ := front
  have taken : (digits ++ rest).takeWhile Char.isDigit = digits ++ rest.takeWhile Char.isDigit :=
    List.takeWhile_append_of_pos inside
  unfold Lexeme.number
  split
  · simp only [taken, List.length_append]
    omega
  · simp only [taken, List.length_append]
    omega

/-- So do a point behind them and the digits behind the point. -/
theorem length_le_number_of_point {whole fraction input : List Char}
    (insideWhole : ∀ d ∈ whole, d.isDigit = true)
    (insideFraction : ∀ d ∈ fraction, d.isDigit = true)
    (front : whole ++ '.' :: fraction <+: input) :
    (whole ++ '.' :: fraction).length ≤ (Lexeme.number input).text.length := by
  obtain ⟨rest, rfl⟩ := front
  have number : Lexeme.number (whole ++ '.' :: fraction ++ rest) =
      { kind := .floatLiteral
        text := whole ++ '.' :: (fraction ++ rest.takeWhile Char.isDigit)
        rest := rest.dropWhile Char.isDigit } := by
    have inside : ∀ d ∈ fraction ++ rest.takeWhile Char.isDigit, d.isDigit = true := by
      intro d member
      rcases List.mem_append.mp member with member | member
      · exact insideFraction d member
      · exact List.mem_takeWhile_imp member
    have cut := Lexeme.number_append_float insideWhole inside
      (Text.stop_dropWhile Char.isDigit rest)
    rw [List.append_assoc fraction, List.takeWhile_append_dropWhile] at cut
    rw [List.append_assoc, List.cons_append, cut]
  rw [number]
  simp only [List.length_append, List.length_cons]
  omega

/-- Letters and digits at the front of a text belong to its word. -/
theorem length_le_word {letters input : List Char} (inside : ∀ d ∈ letters, isWordPart d = true)
    (front : letters <+: input) : letters.length ≤ (Lexeme.word input).text.length := by
  obtain ⟨rest, rfl⟩ := front
  have taken : (letters ++ rest).takeWhile isWordPart = letters ++ rest.takeWhile isWordPart :=
    List.takeWhile_append_of_pos inside
  simp only [Lexeme.word, taken, List.length_append]
  omega

/-- No word at the front of a text is longer than the lexeme that is read from it. -/
theorem Word.length_le_read {kind : TokenKind} {word : List Char} (isWord : Word kind word)
    {c : Char} {input : List Char} (front : word <+: c :: input) :
    word.length ≤ (Lexeme.read c input).text.length := by
  have filled : 1 ≤ (Lexeme.read c input).text.length :=
    List.length_pos_iff.mpr (Lexeme.text_ne_nil c input)
  cases isWord.shape with
  | newline =>
      exact filled
  | integer digitsFilled inside =>
      obtain ⟨d, digits, rfl⟩ := List.exists_cons_of_ne_nil digitsFilled
      obtain rfl := (List.cons_prefix_cons.mp front).1
      rw [Lexeme.read_of_isDigit _ (inside d (List.mem_cons_self ..))]
      exact length_le_number inside front
  | float wholeFilled insideWhole insideFraction =>
      obtain ⟨d, digits, rfl⟩ := List.exists_cons_of_ne_nil wholeFilled
      obtain rfl := (List.cons_prefix_cons.mp front).1
      rw [Lexeme.read_of_isDigit _ (insideWhole d (List.mem_cons_self ..))]
      exact length_le_number_of_point insideWhole insideFraction front
  | @word d letters _ start inside =>
      obtain rfl := (List.cons_prefix_cons.mp front).1
      rw [Lexeme.read_of_isWordStart _ start]
      refine length_le_word ?_ front
      rintro e (_ | ⟨_, member⟩)
      · exact Lexer.isWordPart_iff.mpr (Or.inl start)
      · exact inside e member
  | @pair d e sign _ known =>
      obtain ⟨rfl, rest, rfl⟩ := List.cons_prefix_cons.mp front
      rw [Lexeme.read_of_isMark _ (Symbol.isMark_of_ofPair? known).1, List.singleton_append]
      simp only [Lexeme.mark, known]
      exact Nat.le_refl _
  | single =>
      exact filled
  | invalid =>
      exact filled

/-- The lexeme at the front of a text is the longest word there, unless it is invalid. -/
theorem longest_of_shape {lexeme : Lexeme} (shape : lexeme.Shape)
    (valid : lexeme.kind ≠ .invalid) : Longest lexeme.kind lexeme.text lexeme.rest := by
  refine ⟨word_of_shape shape valid, ?_⟩
  intro kind word isWord front
  obtain ⟨c, input, textEq, -, rfl⟩ := shape.read_eq
  rw [textEq] at front
  exact isWord.length_le_read front

/-- Where the lexeme is invalid, there is no word. -/
theorem wordless_of_shape {lexeme : Lexeme} (shape : lexeme.Shape)
    (invalid : lexeme.kind = .invalid) : Wordless (lexeme.text ++ lexeme.rest) := by
  obtain ⟨c, single, ⟨notNewline, notDigit, notStart, -⟩, unknown, alone⟩ :=
    shape.text_of_invalid invalid
  intro kind word isWord front
  rw [single, List.singleton_append] at front
  -- A word here would begin with `c`, which is a mark and forms no symbol.
  cases isWord.shape with
  | newline =>
      exact notNewline (List.cons_prefix_cons.mp front).1.symm
  | integer filled inside =>
      obtain ⟨d, digits, rfl⟩ := List.exists_cons_of_ne_nil filled
      obtain rfl := (List.cons_prefix_cons.mp front).1
      rw [inside d (List.mem_cons_self ..)] at notDigit
      cases notDigit
  | float filled insideWhole =>
      obtain ⟨d, digits, rfl⟩ := List.exists_cons_of_ne_nil filled
      obtain rfl := (List.cons_prefix_cons.mp front).1
      rw [insideWhole d (List.mem_cons_self ..)] at notDigit
      cases notDigit
  | word start =>
      obtain rfl := (List.cons_prefix_cons.mp front).1
      rw [start] at notStart
      cases notStart
  | @pair d e sign _ known =>
      obtain ⟨rfl, rest, same⟩ := List.cons_prefix_cons.mp front
      rw [alone e (by rw [← same]; rfl)] at known
      cases known
  | single known =>
      obtain rfl := (List.cons_prefix_cons.mp front).1
      rw [unknown] at known
      cases known
  | invalid =>
      cases isWord

/-- The lexeme at the front of a text comes first in it. -/
theorem first_of_shape {lexeme : Lexeme} (shape : lexeme.Shape) :
    First lexeme.kind lexeme.text lexeme.rest := by
  by_cases invalid : lexeme.kind = .invalid
  · obtain ⟨c, single, -⟩ := shape.text_of_invalid invalid
    have wordless := wordless_of_shape shape invalid
    rw [single] at wordless ⊢
    rw [invalid]
    exact .invalid wordless
  · exact .word (longest_of_shape shape invalid)

/-! ### Tokenizations -/

/-- The tokens of a run are those of the longest matches. -/
theorem munch_of_run {file : FileId} {reported : Nat} {before text : List Char}
    {tokens : List Token} {found : List Diagnostic}
    (run : Run file reported before text tokens found) :
    Munch (utf8Size before) text tokens := by
  induction run with
  | finish blank =>
      exact .finish fun c member => blank_iff.mpr (blank c member)
  | @step _ _ before text blanks lexeme error tokens found split blank shape verdict more ih =>
      have blank' : ∀ c ∈ blanks, Blank c := fun c member => blank_iff.mpr (blank c member)
      have visible' : ∀ d ∈ (lexeme.text ++ lexeme.rest).head?, ¬ Blank d := by
        obtain ⟨c, input, textEq, visible, -⟩ := shape.read_eq
        rw [textEq]
        rintro d ⟨⟩
        simp [blank_iff, visible]
      simp only [Text.utf8Size_append] at ih
      exact .token split blank' visible' (first_of_shape shape) ih

/-- A text has one longest word at its front. -/
theorem Longest.unique {kind kind' : TokenKind} {word word' rest rest' : List Char}
    (one : Longest kind word rest) (two : Longest kind' word' rest')
    (same : word ++ rest = word' ++ rest') : kind = kind' ∧ word = word' ∧ rest = rest' := by
  have le : word'.length ≤ word.length :=
    one.longest kind' word' two.isWord ⟨rest', same.symm⟩
  have ge : word.length ≤ word'.length :=
    two.longest kind word one.isWord ⟨rest, same⟩
  obtain ⟨rfl, rfl⟩ := List.append_inj same (Nat.le_antisymm ge le)
  exact ⟨one.isWord.kind_unique two.isWord, rfl, rfl⟩

theorem First.unique {kind kind' : TokenKind} {word word' rest rest' : List Char}
    (one : First kind word rest) (two : First kind' word' rest')
    (same : word ++ rest = word' ++ rest') : kind = kind' ∧ word = word' ∧ rest = rest' := by
  cases one with
  | word longest =>
      cases two with
      | word longest' =>
          exact longest.unique longest' same
      | invalid wordless =>
          exact absurd ⟨rest, same⟩ (wordless kind word longest.isWord)
  | invalid wordless =>
      cases two with
      | word longest' =>
          exact absurd ⟨rest', same.symm⟩ (wordless kind' word' longest'.isWord)
      | invalid wordless' =>
          cases same
          exact ⟨rfl, rfl, rfl⟩

theorem First.ne_nil {kind : TokenKind} {word rest : List Char} (first : First kind word rest) :
    word ≠ [] := by
  cases first with
  | word longest => exact longest.isWord.ne_nil
  | invalid => exact List.cons_ne_nil _ _

/-- The blanks at the front of a text are cut off in one way only. -/
theorem blanks_unique {blanks blanks' rest rest' : List Char}
    (same : blanks ++ rest = blanks' ++ rest') (blank : ∀ c ∈ blanks, Blank c)
    (blank' : ∀ c ∈ blanks', Blank c) (visible : ∀ c ∈ rest.head?, ¬ Blank c)
    (visible' : ∀ c ∈ rest'.head?, ¬ Blank c) : blanks = blanks' ∧ rest = rest' := by
  have inside : ∀ c ∈ blanks, isBlank c = true := fun c member => blank_iff.mp (blank c member)
  have inside' : ∀ c ∈ blanks', isBlank c = true := fun c member => blank_iff.mp (blank' c member)
  have stop : ∀ c ∈ rest.head?, isBlank c = false := fun c member =>
    Bool.eq_false_iff.mpr fun blank => visible c member (blank_iff.mpr blank)
  have stop' : ∀ c ∈ rest'.head?, isBlank c = false := fun c member =>
    Bool.eq_false_iff.mpr fun blank => visible' c member (blank_iff.mpr blank)
  constructor
  · rw [← Text.takeWhile_append_of_stop inside stop, same,
      Text.takeWhile_append_of_stop inside' stop']
  · rw [← Text.dropWhile_append_of_stop inside stop, same,
      Text.dropWhile_append_of_stop inside' stop']

/-- A text has only one tokenization by longest matches. -/
theorem Munch.unique {offset : Nat} {text : List Char} {tokens tokens' : List Token}
    (one : Munch offset text tokens) (two : Munch offset text tokens') : tokens = tokens' := by
  induction one generalizing tokens' with
  | @finish offset blanks blank =>
      cases two with
      | finish _ =>
          rfl
      | @token _ _ blanks' word rest _ _ split blank' visible' first =>
          have same : blanks ++ [] = blanks' ++ (word ++ rest) := by rw [List.append_nil, split]
          have cut := blanks_unique same blank blank' (by simp) visible'
          exact absurd (List.append_eq_nil_iff.mp cut.2.symm).1 first.ne_nil
  | @token offset text blanks word rest _ _ split blank visible first more ih =>
      cases two with
      | finish blank' =>
          have same : blanks ++ (word ++ rest) = text ++ [] := by rw [List.append_nil, split]
          have cut := blanks_unique same blank blank' visible (by simp)
          exact absurd (List.append_eq_nil_iff.mp cut.2).1 first.ne_nil
      | @token _ _ blanks' word' rest' _ _ split' blank' visible' first' more' =>
          obtain ⟨rfl, same⟩ :=
            blanks_unique (split.symm.trans split') blank blank' visible visible'
          obtain ⟨rfl, rfl, rfl⟩ := first.unique first' same
          rw [ih more']

end Grammar

/-- Lexing is tokenization by longest matches: a text that fits has tokens, and they are the only
    ones that the grammar and the rule of the longest match allow. -/
theorem lex_eq_longest_matches (file : FileId) (text : String) (log : Log)
    (fits : text.utf8ByteSize ≤ Offset.limit) :
    ∃ tokens after, lex file text log = .ok (tokens, after) ∧
      ∀ reference, Grammar.Munch 0 text.toList reference ↔ reference = tokens := by
  obtain ⟨tokens, found, lexed, run⟩ := lex_run file log fits
  have munch : Grammar.Munch 0 text.toList tokens := Grammar.munch_of_run run
  refine ⟨tokens, log.emitAll found, lexed, fun reference => ⟨fun other => ?_, ?_⟩⟩
  · exact other.unique munch
  · rintro rfl
    exact munch

/-- Numbers, points, symbols of one and two characters, a lone ampersand and a character that takes
    several bytes. -/
theorem lex_eq_longest_matches_mixed :
    "1.2.x ->=&&& é\r\n_1".utf8ByteSize ≤ Offset.limit ∧
      ∃ tokens after, lex ⟨0⟩ "1.2.x ->=&&& é\r\n_1" .empty = .ok (tokens, after) ∧
        ∀ reference,
          Grammar.Munch 0 "1.2.x ->=&&& é\r\n_1".toList reference ↔ reference = tokens :=
  have fits : "1.2.x ->=&&& é\r\n_1".utf8ByteSize ≤ Offset.limit := by decide
  ⟨fits, lex_eq_longest_matches ⟨0⟩ _ .empty fits⟩

end FrontEnd
