/-
Module: FrontEnd.Proofs.LexemeShapes
Layer: Proofs
Purpose: What the lexeme at the front of a text can be. The seven shapes say all that reading can
  come to, the condition on the next character included; every later fact about a single lexeme is a
  case analysis over them.
Imports: FrontEnd.Lexer.Lexeme, FrontEnd.Proofs.TextCuts
Trusted boundary: none
Main exports: Lexer.IsMark, Symbol.read_of_spelling, Keyword.lookup?_eq_some_iff, Lexeme.Shape,
  Lexeme.shape_read, Lexeme.Shape.text_of_symbol, Lexeme.Shape.read_eq, Lexeme.Shape.visible
Open obligations: none
-/
import FrontEnd.Lexer.Lexeme
import FrontEnd.Proofs.TextCuts

namespace FrontEnd

/-! ### Classes of characters

All classes are ranges of code points, so that linear arithmetic tells them apart. -/

namespace Lexer

theorem eq_iff_toNat {c d : Char} : c = d ↔ c.toNat = d.toNat :=
  Char.toNat_inj.symm

theorem isDigit_iff {c : Char} : c.isDigit = true ↔ 48 ≤ c.toNat ∧ c.toNat ≤ 57 :=
  Char.isDigit_iff_toNat

theorem isAlpha_iff {c : Char} :
    c.isAlpha = true ↔
      (65 ≤ c.toNat ∧ c.toNat ≤ 90) ∨ (97 ≤ c.toNat ∧ c.toNat ≤ 122) := by
  have ranges : c.isAlpha =
      (decide (65 ≤ c.val ∧ c.val ≤ 90) || decide (97 ≤ c.val) && decide (c.val ≤ 122)) :=
    rfl
  simp only [ranges, Bool.or_eq_true, Bool.and_eq_true, decide_eq_true_eq,
    UInt32.le_iff_toNat_le]
  exact Iff.rfl

theorem isWordStart_iff {c : Char} :
    isWordStart c = true ↔
      (65 ≤ c.toNat ∧ c.toNat ≤ 90) ∨ (97 ≤ c.toNat ∧ c.toNat ≤ 122) ∨ c.toNat = 95 := by
  simp only [isWordStart, Bool.or_eq_true, decide_eq_true_eq, isAlpha_iff, eq_iff_toNat, or_assoc]
  exact Iff.rfl

theorem isWordPart_iff {c : Char} :
    isWordPart c = true ↔ isWordStart c = true ∨ c.isDigit = true := by
  simp only [isWordPart, isWordStart, Char.isAlphanum, Bool.or_eq_true]
  exact or_right_comm

theorem isBlank_iff {c : Char} :
    isBlank c = true ↔
      c.toNat = 32 ∨ c.toNat = 9 ∨ c.toNat = 13 ∨ c.toNat = 11 ∨ c.toNat = 12 := by
  simp only [isBlank, Bool.or_eq_true, decide_eq_true_eq, eq_iff_toNat, or_assoc]
  exact Iff.rfl

/-- A character that begins no newline, number or word, and is not blank. -/
def IsMark (c : Char) : Prop :=
  c ≠ '\n' ∧ c.isDigit = false ∧ isWordStart c = false ∧ isBlank c = false

instance (c : Char) : Decidable (IsMark c) :=
  inferInstanceAs (Decidable (_ ∧ _))

theorem isBlank_newline : isBlank '\n' = false := by decide

theorem isBlank_of_isDigit {c : Char} (digit : c.isDigit = true) : isBlank c = false := by
  rw [← Bool.not_eq_true, isBlank_iff]
  rw [isDigit_iff] at digit
  omega

theorem isBlank_of_isWordStart {c : Char} (start : isWordStart c = true) : isBlank c = false := by
  rw [← Bool.not_eq_true, isBlank_iff]
  rw [isWordStart_iff] at start
  omega

theorem isBlank_of_isWordPart {c : Char} (part : isWordPart c = true) : isBlank c = false := by
  rcases isWordPart_iff.mp part with start | digit
  · exact isBlank_of_isWordStart start
  · exact isBlank_of_isDigit digit

theorem isWordStart_of_isDigit {c : Char} (digit : c.isDigit = true) :
    isWordStart c = false := by
  rw [← Bool.not_eq_true, isWordStart_iff]
  rw [isDigit_iff] at digit
  omega

theorem ne_newline_of_isDigit {c : Char} (digit : c.isDigit = true) : c ≠ '\n' := by
  rintro rfl
  exact absurd digit (by decide)

theorem ne_newline_of_isWordStart {c : Char} (start : isWordStart c = true) : c ≠ '\n' := by
  rintro rfl
  exact absurd start (by decide)

end Lexer

open Lexer (isBlank isWordStart isWordPart IsMark)

/-! ### Symbols and reserved words -/

namespace Symbol

/-- Both characters of a symbol of two are marks. -/
theorem isMark_of_ofPair? {c d : Char} {sign : Symbol} (known : ofPair? c d = some sign) :
    IsMark c ∧ IsMark d := by
  unfold ofPair? at known
  split at known <;> cases known <;> decide

/-- The character of a symbol of one is a mark. -/
theorem isMark_of_ofChar? {c : Char} {sign : Symbol} (known : ofChar? c = some sign) :
    IsMark c := by
  unfold ofChar? at known
  split at known <;> cases known <;> decide

theorem spelling_of_ofPair? {c d : Char} {sign : Symbol} (known : ofPair? c d = some sign) :
    sign.spelling.toList = [c, d] := by
  unfold ofPair? at known
  split at known <;> cases known <;> rfl

theorem spelling_of_ofChar? {c : Char} {sign : Symbol} (known : ofChar? c = some sign) :
    sign.spelling.toList = [c] := by
  unfold ofChar? at known
  split at known <;> cases known <;> rfl

/-- Each symbol is read from its spelling, which has one character or two. -/
theorem read_of_spelling (sign : Symbol) :
    (∃ c, sign.spelling.toList = [c] ∧ ofChar? c = some sign) ∨
      ∃ c d, sign.spelling.toList = [c, d] ∧ ofPair? c d = some sign := by
  cases sign <;> first | exact Or.inl ⟨_, rfl, rfl⟩ | exact Or.inr ⟨_, _, rfl, rfl⟩

end Symbol

namespace Keyword

/-- A word is looked up by its spelling and by nothing else: each is filed under its own length. -/
theorem lookup?_eq_some_iff {word : String} {reserved : Keyword} :
    lookup? word = some reserved ↔ word = reserved.spelling := by
  constructor
  · intro found
    unfold lookup? at found
    -- The first split is by the length, the others are by the spellings of that length.
    repeat' split at found
    all_goals cases found <;> rfl
  · rintro rfl
    cases reserved <;> rfl

/-- Reserved words are words. -/
theorem spelling_shape (reserved : Keyword) :
    ∃ c letters, reserved.spelling.toList = c :: letters ∧ isWordStart c = true ∧
      ∀ d ∈ letters, isWordPart d = true := by
  cases reserved <;> exact ⟨_, _, rfl, rfl, List.all_eq_true.mp rfl⟩

end Keyword

/-! ### Shapes of lexemes -/

namespace Lexeme

/-- A word is a reserved one or a name. -/
theorem wordKind_cases (word : String) :
    (∃ keyword, Keyword.lookup? word = some keyword ∧ wordKind word = .keyword keyword) ∨
      (Keyword.lookup? word = none ∧ wordKind word = .identifier) := by
  unfold wordKind
  cases found : Keyword.lookup? word with
  | some keyword => exact Or.inl ⟨keyword, rfl, rfl⟩
  | none => exact Or.inr ⟨rfl, rfl⟩

theorem wordKind_spelling (reserved : Keyword) :
    wordKind reserved.spelling = .keyword reserved := by
  rw [wordKind, Keyword.lookup?_eq_some_iff.mpr rfl, Option.map_some, Option.getD_some]

/-- A word is of no other kind. -/
theorem wordKind_ne (word : String) {kind : TokenKind}
    (unreserved : ∀ keyword, TokenKind.keyword keyword ≠ kind)
    (notName : TokenKind.identifier ≠ kind) : wordKind word ≠ kind := by
  intro same
  rcases wordKind_cases word with ⟨keyword, -, found⟩ | ⟨-, found⟩
  · exact unreserved keyword (found.symm.trans same)
  · exact notName (found.symm.trans same)

/-- The lexemes that reading can give. `stop` and `alone` say why the lexeme ends where it does. -/
inductive Shape : Lexeme → Prop where
  | newline {rest : List Char} :
      Shape { kind := .newline, text := ['\n'], rest }
  | integer {digits rest : List Char} (filled : digits ≠ [])
      (inside : ∀ d ∈ digits, d.isDigit = true)
      (stop : ∀ d ∈ rest.head?, d.isDigit = false) (noPoint : ∀ d ∈ rest.head?, d ≠ '.') :
      Shape { kind := .intLiteral, text := digits, rest }
  | float {whole fraction rest : List Char} (filled : whole ≠ [])
      (insideWhole : ∀ d ∈ whole, d.isDigit = true)
      (insideFraction : ∀ d ∈ fraction, d.isDigit = true)
      (stop : ∀ d ∈ rest.head?, d.isDigit = false) :
      Shape { kind := .floatLiteral, text := whole ++ '.' :: fraction, rest }
  | word {c : Char} {letters rest : List Char} (start : isWordStart c = true)
      (inside : ∀ d ∈ letters, isWordPart d = true)
      (stop : ∀ d ∈ rest.head?, isWordPart d = false) :
      Shape { kind := wordKind (String.ofList (c :: letters)), text := c :: letters, rest }
  | pair {c d : Char} {sign : Symbol} {rest : List Char}
      (known : Symbol.ofPair? c d = some sign) :
      Shape { kind := .symbol sign, text := [c, d], rest }
  | single {c : Char} {sign : Symbol} {rest : List Char}
      (known : Symbol.ofChar? c = some sign)
      (alone : ∀ d ∈ rest.head?, Symbol.ofPair? c d = none) :
      Shape { kind := .symbol sign, text := [c], rest }
  | invalid {c : Char} {rest : List Char} (mark : IsMark c)
      (unknown : Symbol.ofChar? c = none)
      (alone : ∀ d ∈ rest.head?, Symbol.ofPair? c d = none) :
      Shape { kind := .invalid, text := [c], rest }

theorem shape_number {input : List Char} (filled : input.takeWhile Char.isDigit ≠ []) :
    Shape (number input) := by
  have inside : ∀ d ∈ input.takeWhile Char.isDigit, d.isDigit = true :=
    fun _ member => List.mem_takeWhile_imp member
  have stop := Text.stop_dropWhile Char.isDigit input
  unfold number
  split
  · exact .float filled inside (fun _ member => List.mem_takeWhile_imp member)
      (Text.stop_dropWhile Char.isDigit _)
  · rename_i rest noPoint
    apply Shape.integer filled inside stop
    rintro d found rfl
    obtain ⟨rest, same⟩ := List.head?_eq_some_iff.mp found
    exact noPoint rest same

theorem shape_word {c : Char} {input : List Char} (start : isWordStart c = true) :
    Shape (word (c :: input)) := by
  have part : isWordPart c = true := Lexer.isWordPart_iff.mpr (Or.inl start)
  have taken : (c :: input).takeWhile isWordPart = c :: input.takeWhile isWordPart :=
    List.takeWhile_cons_of_pos part
  simp only [word, taken]
  exact .word start (fun _ member => List.mem_takeWhile_imp member)
    (Text.stop_dropWhile isWordPart _)

theorem shape_mark {c : Char} {input : List Char} (begins : IsMark c) :
    Shape (mark c input) := by
  have alone_shape (rest : List Char)
      (alone : ∀ d ∈ rest.head?, Symbol.ofPair? c d = none) :
      Shape { kind := charKind c, text := [c], rest } := by
    cases known : Symbol.ofChar? c with
    | some sign =>
        simpa only [charKind, known] using Shape.single known alone
    | none =>
        simpa only [charKind, known] using Shape.invalid begins known alone
  cases input with
  | nil =>
      exact alone_shape [] (by simp)
  | cons d rest =>
      cases known : Symbol.ofPair? c d with
      | some sign =>
          simp only [mark, known]
          exact .pair known
      | none =>
          simpa only [mark, known] using alone_shape (d :: rest) (by simpa using known)

/-- Reading gives one of the shapes, whatever the text. -/
theorem shape_read {c : Char} (input : List Char) (visible : isBlank c = false) :
    Shape (read c input) := by
  unfold read
  split
  · rename_i newline
    subst newline
    exact .newline
  · rename_i notNewline
    split
    · rename_i digit
      exact shape_number (by simp [digit])
    · rename_i notDigit
      split
      · rename_i start
        exact shape_word start
      · rename_i notStart
        exact shape_mark
          ⟨notNewline, by simpa using notDigit, by simpa using notStart, visible⟩

namespace Shape

/-- A lexeme has at least one character. -/
theorem text_ne_nil {lexeme : Lexeme} (shape : lexeme.Shape) : lexeme.text ≠ [] := by
  cases shape with
  | integer filled => exact filled
  | _ => simp

/-- No character of a lexeme is blank. -/
theorem isBlank_eq_false {lexeme : Lexeme} (shape : lexeme.Shape) :
    ∀ c ∈ lexeme.text, isBlank c = false := by
  cases shape with
  | newline =>
      rintro c (_ | ⟨_, ⟨⟩⟩)
      exact Lexer.isBlank_newline
  | integer filled inside =>
      intro c member
      exact Lexer.isBlank_of_isDigit (inside c member)
  | float filled insideWhole insideFraction =>
      intro c member
      rcases List.mem_append.mp member with member | (_ | ⟨_, member⟩)
      · exact Lexer.isBlank_of_isDigit (insideWhole c member)
      · decide
      · exact Lexer.isBlank_of_isDigit (insideFraction c member)
  | word start inside =>
      rintro c (_ | ⟨_, member⟩)
      · exact Lexer.isBlank_of_isWordStart start
      · exact Lexer.isBlank_of_isWordPart (inside c member)
  | pair known =>
      have marks := Symbol.isMark_of_ofPair? known
      rintro c (_ | ⟨_, _ | ⟨_, ⟨⟩⟩⟩)
      · exact marks.1.2.2.2
      · exact marks.2.2.2.2
  | single known =>
      rintro c (_ | ⟨_, ⟨⟩⟩)
      exact (Symbol.isMark_of_ofChar? known).2.2.2
  | invalid mark =>
      rintro c (_ | ⟨_, ⟨⟩⟩)
      exact mark.2.2.2

/-- A lexeme is never the end of its text. -/
theorem kind_ne_endOfFile {lexeme : Lexeme} (shape : lexeme.Shape) :
    lexeme.kind ≠ .endOfFile := by
  intro ends
  cases shape with
  | word =>
      exact absurd ends (wordKind_ne _ (by simp) (by simp))
  | _ => cases ends

/-- An invalid lexeme is a single mark that forms no symbol. -/
theorem text_of_invalid {lexeme : Lexeme} (shape : lexeme.Shape)
    (invalid : lexeme.kind = .invalid) :
    ∃ c, lexeme.text = [c] ∧ IsMark c ∧ Symbol.ofChar? c = none ∧
      ∀ d ∈ lexeme.rest.head?, Symbol.ofPair? c d = none := by
  cases shape with
  | @invalid c _ mark unknown alone => exact ⟨c, rfl, mark, unknown, alone⟩
  | word =>
      exact absurd invalid (wordKind_ne _ (by simp) (by simp))
  | _ => cases invalid

/-- A lexeme that is a symbol is spelled like it. -/
theorem text_of_symbol {lexeme : Lexeme} (shape : lexeme.Shape) {sign : Symbol}
    (symbol : lexeme.kind = .symbol sign) : lexeme.text = sign.spelling.toList := by
  cases shape with
  | word =>
      exact absurd symbol (wordKind_ne _ (by simp) (by simp))
  | pair known =>
      cases symbol
      exact (Symbol.spelling_of_ofPair? known).symm
  | single known =>
      cases symbol
      exact (Symbol.spelling_of_ofChar? known).symm
  | _ => cases symbol

/-- A lexeme that is a reserved word is spelled like it. -/
theorem text_of_keyword {lexeme : Lexeme} (shape : lexeme.Shape) {reserved : Keyword}
    (keyword : lexeme.kind = .keyword reserved) :
    lexeme.text = reserved.spelling.toList := by
  cases shape with
  | @word c letters =>
      rcases wordKind_cases (String.ofList (c :: letters)) with ⟨same, found, kind⟩ | ⟨-, kind⟩
      · cases kind.symm.trans keyword
        rw [← Keyword.lookup?_eq_some_iff.mp found, String.toList_ofList]
      · cases kind.symm.trans keyword
  | _ => cases keyword

/-- A lexeme that is a name is spelled like no reserved word. -/
theorem text_ne_of_identifier {lexeme : Lexeme} (shape : lexeme.Shape)
    (name : lexeme.kind = .identifier) (reserved : Keyword) :
    reserved.spelling ≠ String.ofList lexeme.text := by
  cases shape with
  | @word c letters =>
      rcases wordKind_cases (String.ofList (c :: letters)) with ⟨same, -, kind⟩ | ⟨missed, -⟩
      · cases kind.symm.trans name
      · intro spelled
        rw [Keyword.lookup?_eq_some_iff.mpr spelled.symm] at missed
        cases missed
  | _ => cases name

/-- A lexeme that is a float has digits, a point and perhaps more digits. -/
theorem text_of_float {lexeme : Lexeme} (shape : lexeme.Shape)
    (float : lexeme.kind = .floatLiteral) :
    ∃ whole fraction, lexeme.text = whole ++ '.' :: fraction ∧ whole ≠ [] ∧
      (∀ d ∈ whole, d.isDigit = true) ∧ ∀ d ∈ fraction, d.isDigit = true := by
  cases shape with
  | @float whole fraction _ filled insideWhole insideFraction =>
      exact ⟨whole, fraction, rfl, filled, insideWhole, insideFraction⟩
  | word =>
      exact absurd float (wordKind_ne _ (by simp) (by simp))
  | _ => cases float

end Shape

/-! ### The first character decides -/

theorem read_of_isDigit {c : Char} (input : List Char) (digit : c.isDigit = true) :
    read c input = number (c :: input) := by
  rw [read, if_neg (Lexer.ne_newline_of_isDigit digit), if_pos digit]

theorem read_of_isWordStart {c : Char} (input : List Char) (start : isWordStart c = true) :
    read c input = word (c :: input) := by
  have notDigit : ¬ c.isDigit = true := by
    intro digit
    rw [Lexer.isWordStart_of_isDigit digit] at start
    cases start
  rw [read, if_neg (Lexer.ne_newline_of_isWordStart start), if_neg notDigit, if_pos start]

theorem read_of_isMark {c : Char} (input : List Char) (begins : IsMark c) :
    read c input = mark c input := by
  obtain ⟨notNewline, notDigit, notStart, -⟩ := begins
  rw [read, if_neg notNewline, if_neg (by simp [notDigit]), if_neg (by simp [notStart])]

/-- Digits without a point behind them are an integer. -/
theorem number_append_integer {digits rest : List Char}
    (inside : ∀ d ∈ digits, d.isDigit = true) (stop : ∀ d ∈ rest.head?, d.isDigit = false)
    (noPoint : ∀ d ∈ rest.head?, d ≠ '.') :
    number (digits ++ rest) = { kind := .intLiteral, text := digits, rest } := by
  rw [number, Text.takeWhile_append_of_stop inside stop,
    Text.dropWhile_append_of_stop inside stop]
  cases rest with
  | nil =>
      rfl
  | cons d rest =>
      have other : d ≠ '.' := noPoint d rfl
      simp [other]

/-- Digits and a point are a float, together with the digits behind the point. -/
theorem number_append_float {whole fraction rest : List Char}
    (insideWhole : ∀ d ∈ whole, d.isDigit = true)
    (insideFraction : ∀ d ∈ fraction, d.isDigit = true)
    (stop : ∀ d ∈ rest.head?, d.isDigit = false) :
    number (whole ++ '.' :: (fraction ++ rest)) =
      { kind := .floatLiteral, text := whole ++ '.' :: fraction, rest } := by
  have point : ∀ d ∈ ('.' :: (fraction ++ rest)).head?, d.isDigit = false := by
    intro d found
    cases found
    rfl
  rw [number, Text.takeWhile_append_of_stop insideWhole point,
    Text.dropWhile_append_of_stop insideWhole point]
  simp only [Text.takeWhile_append_of_stop insideFraction stop,
    Text.dropWhile_append_of_stop insideFraction stop]

theorem word_append {letters rest : List Char} (inside : ∀ d ∈ letters, isWordPart d = true)
    (stop : ∀ d ∈ rest.head?, isWordPart d = false) :
    word (letters ++ rest) =
      { kind := wordKind (String.ofList letters), text := letters, rest } := by
  simp only [word, Text.takeWhile_append_of_stop inside stop,
    Text.dropWhile_append_of_stop inside stop]

/-- A character that forms no symbol with the next one stands alone. -/
theorem mark_of_alone {c : Char} {rest : List Char}
    (alone : ∀ d ∈ rest.head?, Symbol.ofPair? c d = none) :
    mark c rest = { kind := charKind c, text := [c], rest } := by
  cases rest with
  | nil =>
      rfl
  | cons d rest =>
      have none : Symbol.ofPair? c d = none := alone d rfl
      simp only [mark, none]

/-- Each shape is read from the text that it makes up together with its rest. -/
theorem Shape.read_eq {lexeme : Lexeme} (shape : lexeme.Shape) :
    ∃ c input, lexeme.text ++ lexeme.rest = c :: input ∧ isBlank c = false ∧
      read c input = lexeme := by
  cases shape with
  | @newline rest =>
      exact ⟨'\n', rest, rfl, Lexer.isBlank_newline, rfl⟩
  | @integer digits rest filled inside stop noPoint =>
      obtain ⟨c, digits, rfl⟩ := List.exists_cons_of_ne_nil filled
      have digit : c.isDigit = true := inside c (List.mem_cons_self ..)
      refine ⟨c, digits ++ rest, rfl, Lexer.isBlank_of_isDigit digit, ?_⟩
      rw [read_of_isDigit _ digit]
      exact number_append_integer inside stop noPoint
  | @float whole fraction rest filled insideWhole insideFraction stop =>
      obtain ⟨c, digits, rfl⟩ := List.exists_cons_of_ne_nil filled
      have digit : c.isDigit = true := insideWhole c (List.mem_cons_self ..)
      refine ⟨c, digits ++ '.' :: (fraction ++ rest), by simp,
        Lexer.isBlank_of_isDigit digit, ?_⟩
      rw [read_of_isDigit _ digit]
      exact number_append_float insideWhole insideFraction stop
  | @word c letters rest start inside stop =>
      refine ⟨c, letters ++ rest, rfl, Lexer.isBlank_of_isWordStart start, ?_⟩
      have parts : ∀ d ∈ c :: letters, isWordPart d = true := by
        rintro d (_ | ⟨_, member⟩)
        · exact Lexer.isWordPart_iff.mpr (Or.inl start)
        · exact inside d member
      rw [read_of_isWordStart _ start, ← List.cons_append]
      exact word_append parts stop
  | @pair c d sign rest known =>
      have begins := (Symbol.isMark_of_ofPair? known).1
      refine ⟨c, d :: rest, rfl, begins.2.2.2, ?_⟩
      simp only [read_of_isMark _ begins, mark, known]
  | @single c sign rest known alone =>
      have begins := Symbol.isMark_of_ofChar? known
      refine ⟨c, rest, rfl, begins.2.2.2, ?_⟩
      simp only [read_of_isMark _ begins, mark_of_alone alone, charKind, known]
  | @invalid c rest begins unknown alone =>
      refine ⟨c, rest, rfl, begins.2.2.2, ?_⟩
      simp only [read_of_isMark _ begins, mark_of_alone alone, charKind, unknown]

/-- A text with a lexeme at its front begins with no blank. -/
theorem Shape.visible {lexeme : Lexeme} (shape : lexeme.Shape) :
    ∀ c ∈ (lexeme.text ++ lexeme.rest).head?, isBlank c = false := by
  obtain ⟨c, input, front, notBlank, -⟩ := shape.read_eq
  rw [front]
  rintro d ⟨⟩
  exact notBlank

/-- A text has one lexeme at its front. -/
theorem Shape.unique {first second : Lexeme} (one : first.Shape) (two : second.Shape)
    (same : first.text ++ first.rest = second.text ++ second.rest) : first = second := by
  obtain ⟨c, input, textEq, -, rfl⟩ := one.read_eq
  obtain ⟨d, input', textEq', -, rfl⟩ := two.read_eq
  rw [textEq, textEq'] at same
  cases same
  rfl

end Lexeme

end FrontEnd
