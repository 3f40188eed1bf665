/-
Module: FrontEnd.Proofs.SpellingTables
Layer: Proofs
Purpose: The tables of spellings. The lookup of reserved words, the spellings and names of kinds,
  the marks that the lexer knows and the symbols of operators are written down one by one, and they
  agree: each token is spelled like the tables say, and each spelling is lexed to its kind.
Imports: FrontEnd.Ast.Operator, FrontEnd.Proofs.RunTransport
Trusted boundary: none
Main exports: TokenKind.lookup?_eq_some_iff, Token.IsSpelled, Run.isSpelled, LexesAlone,
  Lexeme.Shape.lexesAlone, spelling_tables_agree
Open obligations: none
-/
import FrontEnd.Ast.Operator
import FrontEnd.Proofs.RunTransport

namespace FrontEnd

open Text (utf8Size)

/-! ### Tables -/

namespace TokenKind

/-- Reserved words alone have a spelling as such. -/
theorem keywordSpelling?_eq_some_iff {kind : TokenKind} {word : String} :
    kind.keywordSpelling? = some word ↔
      ∃ reserved : Keyword, kind = .keyword reserved ∧ word = reserved.spelling := by
  cases kind with
  | keyword reserved => simp [keywordSpelling?, eq_comm]
  | _ => simp [keywordSpelling?]

/-- The lookup of words is the inverse of the spellings. -/
theorem lookup?_eq_some_iff (word : String) (kind : TokenKind) :
    (Keyword.lookup? word).map .keyword = some kind ↔ kind.keywordSpelling? = some word := by
  rw [Option.map_eq_some_iff, keywordSpelling?_eq_some_iff]
  constructor
  · rintro ⟨reserved, found, rfl⟩
    exact ⟨reserved, rfl, Keyword.lookup?_eq_some_iff.mp found⟩
  · rintro ⟨reserved, rfl, spelled⟩
    exact ⟨reserved, Keyword.lookup?_eq_some_iff.mpr spelled, rfl⟩

end TokenKind

/-- An operator with two operands is written like the token that stands for it. -/
theorem BinaryOperator.spelling_of_ofToken? {kind : TokenKind} {operator : BinaryOperator}
    (stands : ofToken? kind = some operator) :
    ∃ sign, kind = .symbol sign ∧ operator.symbol = sign.spelling := by
  unfold ofToken? at stands
  split at stands <;> cases stands <;> exact ⟨_, rfl, rfl⟩

/-- An operator with one operand is written like the token that stands for it. -/
theorem UnaryOperator.spelling_of_ofToken? {kind : TokenKind} {operator : UnaryOperator}
    (stands : ofToken? kind = some operator) :
    ∃ sign, kind = .symbol sign ∧ operator.symbol = sign.spelling := by
  unfold ofToken? at stands
  split at stands <;> cases stands <;> exact ⟨_, rfl, rfl⟩

/-! ### Tokens and their spellings -/

/-- All tables agree on how a token is spelled. -/
structure Token.IsSpelled (token : Token) : Prop where
  keyword : token.kind.isKeyword = true → token.kind.keywordSpelling? = some token.text
  identifier : token.kind = .identifier → ∀ kind : TokenKind,
    kind.keywordSpelling? ≠ some token.text
  symbol : ∀ sign, token.kind = .symbol sign → token.kind.displayName = token.text
  binary : ∀ operator, BinaryOperator.ofToken? token.kind = some operator →
    operator.symbol = token.text
  unary : ∀ operator, UnaryOperator.ofToken? token.kind = some operator →
    operator.symbol = token.text

/-- The token that ends a text is in none of the tables. -/
theorem Token.isSpelled_endOfFile (offset : Nat) : (endOfFile offset).IsSpelled where
  keyword keyword := by cases keyword
  identifier name := by cases name
  symbol _ kind := by cases kind
  binary _ stands := by cases stands
  unary _ stands := by cases stands

namespace Lexeme

/-- The tables agree on the spellings of all lexemes. -/
theorem Shape.isSpelled {lexeme : Lexeme} (shape : lexeme.Shape) (start : Nat) :
    (lexeme.tokenAt start).IsSpelled := by
  have symbol (sign : Symbol) (kind : lexeme.kind = .symbol sign) :
      sign.spelling = String.ofList lexeme.text := by
    rw [shape.text_of_symbol kind, String.ofList_toList]
  constructor
  case keyword =>
    intro keyword
    obtain ⟨word, spelled⟩ := Option.isSome_iff_exists.mp keyword
    obtain ⟨reserved, kind, rfl⟩ := TokenKind.keywordSpelling?_eq_some_iff.mp spelled
    rw [spelled, text_tokenAt, shape.text_of_keyword kind, String.ofList_toList]
  case identifier =>
    intro name kind spelled
    obtain ⟨reserved, -, same⟩ := TokenKind.keywordSpelling?_eq_some_iff.mp spelled
    exact shape.text_ne_of_identifier name reserved same.symm
  case symbol =>
    intro sign kind
    rw [kind]
    exact symbol sign kind
  case binary =>
    intro operator stands
    obtain ⟨sign, kind, same⟩ := BinaryOperator.spelling_of_ofToken? stands
    exact same.trans (symbol sign kind)
  case unary =>
    intro operator stands
    obtain ⟨sign, kind, same⟩ := UnaryOperator.spelling_of_ofToken? stands
    exact same.trans (symbol sign kind)

end Lexeme

theorem Run.isSpelled {file : FileId} {reported : Nat} {before text : List Char}
    {tokens : List Token} {found : List Diagnostic}
    (run : Run file reported before text tokens found) : ∀ token ∈ tokens, token.IsSpelled := by
  intro token member
  rcases run.eq_endOfFile_or_exists_shape token member with
    ⟨offset, rfl⟩ | ⟨lexeme, start, shape, rfl⟩
  · exact Token.isSpelled_endOfFile offset
  · exact shape.isSpelled start

/-! ### Spellings alone -/

/-- A text is lexed to one token of a kind, which is all of it, and nothing is found. -/
def LexesAlone (file : FileId) (text : String) (kind : TokenKind) : Prop :=
  ∃ token, Lexes file text [token, .endOfFile text.utf8ByteSize] [] ∧ token.kind = kind ∧
    token.text = text

/-- A lexeme with nothing behind it is lexed alone, unless it is invalid. -/
theorem Lexeme.Shape.lexesAlone {lexeme : Lexeme} {text : String} (shape : lexeme.Shape)
    (last : lexeme.rest = []) (valid : lexeme.kind ≠ .invalid) (spelled : lexeme.text = text.toList)
    (fits : text.utf8ByteSize ≤ Offset.limit) (file : FileId) :
    LexesAlone file text lexeme.kind := by
  -- With nothing behind the lexeme, there is no point that fragments of a number begin with.
  have quiet : lexeme.Verdict (utf8Size [] + utf8Size []) 0 none 0 := by
    apply Lexeme.Verdict.quiet valid
    intro _ tail point
    rw [last] at point
    cases point
  have rest : Run file 0 ([] ++ [] ++ lexeme.text) lexeme.rest
      [.endOfFile text.utf8ByteSize] [] := by
    rw [last, spelled, Text.utf8ByteSize_eq]
    exact .finish (List.forall_mem_nil _)
  refine ⟨lexeme.tokenAt 0, lexes_of_run fits (.step ?_ (List.forall_mem_nil _) shape quiet rest),
    rfl, ?_⟩
  · rw [last, spelled, List.nil_append, List.append_nil]
  · rw [Lexeme.text_tokenAt, spelled, String.ofList_toList]

/-- The spelling of a reserved word is lexed to the word. -/
theorem Keyword.lexesAlone_spelling (reserved : Keyword) (file : FileId) :
    LexesAlone file reserved.spelling (.keyword reserved) := by
  obtain ⟨c, letters, spelled, start, inside⟩ := reserved.spelling_shape
  have kind : Lexeme.wordKind (String.ofList (c :: letters)) = .keyword reserved := by
    rw [← spelled, String.ofList_toList, Lexeme.wordKind_spelling]
  have fits : reserved.spelling.utf8ByteSize ≤ Offset.limit := by
    cases reserved <;> decide
  have shape : Lexeme.Shape { kind := .keyword reserved, text := c :: letters, rest := [] } := by
    rw [← kind]
    exact .word start inside (by simp)
  exact shape.lexesAlone rfl (by simp) spelled.symm fits file

/-- The spelling of a symbol is lexed to the symbol. -/
theorem Symbol.lexesAlone_spelling (sign : Symbol) (file : FileId) :
    LexesAlone file sign.spelling (.symbol sign) := by
  have fits : sign.spelling.utf8ByteSize ≤ Offset.limit := by
    cases sign <;> decide
  rcases sign.read_of_spelling with ⟨c, spelled, known⟩ | ⟨c, d, spelled, known⟩
  · have shape : Lexeme.Shape { kind := .symbol sign, text := [c], rest := [] } :=
      .single known (by simp)
    exact shape.lexesAlone rfl (by simp) spelled.symm fits file
  · have shape : Lexeme.Shape { kind := .symbol sign, text := [c, d], rest := [] } :=
      .pair known
    exact shape.lexesAlone rfl (by simp) spelled.symm fits file

/-! ### All tables -/

/-- The tables of kinds and spellings agree. They agree on every token of every text; the spelling
    of each reserved word and of each symbol alone is lexed to it; and a word is found among those
    of its length if and only if it is the spelling of what is found. -/
theorem spelling_tables_agree (file : FileId) :
    (∀ text : String, text.utf8ByteSize ≤ Offset.limit →
      ∃ tokens found, Lexes file text tokens found ∧ ∀ token ∈ tokens, token.IsSpelled) ∧
    (∀ (kind : TokenKind) (word : String), kind.keywordSpelling? = some word →
      LexesAlone file word kind) ∧
    (∀ sign : Symbol, LexesAlone file (TokenKind.symbol sign).displayName (.symbol sign)) ∧
    ∀ (word : String) (kind : TokenKind),
      (Keyword.lookup? word).map .keyword = some kind ↔ kind.keywordSpelling? = some word := by
  refine ⟨?_, ?_, fun sign => sign.lexesAlone_spelling file, TokenKind.lookup?_eq_some_iff⟩
  · intro text fits
    obtain ⟨tokens, found, -, run⟩ := lex_run file .empty fits
    exact ⟨tokens, found, lexes_of_run fits run, run.isSpelled⟩
  · intro kind word spelled
    obtain ⟨reserved, rfl, rfl⟩ := TokenKind.keywordSpelling?_eq_some_iff.mp spelled
    exact reserved.lexesAlone_spelling file

/-- Reserved words, a name, and symbols of one and of two characters. -/
theorem spelling_tables_agree_mixed :
    "if iff <= -x".utf8ByteSize ≤ Offset.limit ∧
      (∃ tokens found, Lexes ⟨0⟩ "if iff <= -x" tokens found ∧ ∀ token ∈ tokens, token.IsSpelled) ∧
      (TokenKind.keyword .ifWord).keywordSpelling? = some "if" ∧
      LexesAlone ⟨0⟩ "if" (.keyword .ifWord) :=
  have fits : "if iff <= -x".utf8ByteSize ≤ Offset.limit := by decide
  ⟨fits, (spelling_tables_agree ⟨0⟩).1 _ fits, rfl, (spelling_tables_agree ⟨0⟩).2.1 _ _ rfl⟩

end FrontEnd
