/-
Module: FrontEnd.Token.Kind
Layer: Token
Purpose: The kinds of tokens: the words and the symbols of the language, the open classes of names
  and literals, and the marks for line ends, the end of the text and characters that start no token.
Imports: none
Trusted boundary: none
Main exports: Keyword, Keyword.spelling, Keyword.lookup?, Symbol,
  Symbol.spelling, Symbol.ofPair?, Symbol.ofChar?, TokenKind, TokenKind.displayName
Open obligations: none
-/

namespace FrontEnd

/-- The reserved words: the two truth values, the names of types, and the words of declarations and
    control flow. -/
inductive Keyword where
  | trueWord
  | falseWord
  | intType
  | int8Type
  | int16Type
  | int32Type
  | int64Type
  | uintType
  | uint8Type
  | uint16Type
  | uint32Type
  | uint64Type
  | floatType
  | float32Type
  | float64Type
  | boolType
  | funcWord
  | letWord
  | varWord
  | returnWord
  | ifWord
  | elseWord
  | whileWord
  | forWord
  | inWord
  | breakWord
  | continueWord
  | structWord
deriving DecidableEq, Repr, Inhabited

namespace Keyword

/-- Every reserved word. -/
def all : List Keyword :=
  [.trueWord, .falseWord, .intType, .int8Type, .int16Type, .int32Type, .int64Type,
   .uintType, .uint8Type, .uint16Type, .uint32Type, .uint64Type, .floatType, .float32Type,
   .float64Type, .boolType, .funcWord, .letWord, .varWord, .returnWord, .ifWord,
   .elseWord, .whileWord, .forWord, .inWord, .breakWord, .continueWord, .structWord]

/-- How a reserved word is written. -/
def spelling : Keyword → String
  | .trueWord => "true"
  | .falseWord => "false"
  | .intType => "Int"
  | .int8Type => "Int8"
  | .int16Type => "Int16"
  | .int32Type => "Int32"
  | .int64Type => "Int64"
  | .uintType => "UInt"
  | .uint8Type => "UInt8"
  | .uint16Type => "UInt16"
  | .uint32Type => "UInt32"
  | .uint64Type => "UInt64"
  | .floatType => "Float"
  | .float32Type => "Float32"
  | .float64Type => "Float64"
  | .boolType => "Bool"
  | .funcWord => "func"
  | .letWord => "let"
  | .varWord => "var"
  | .returnWord => "return"
  | .ifWord => "if"
  | .elseWord => "else"
  | .whileWord => "while"
  | .forWord => "for"
  | .inWord => "in"
  | .breakWord => "break"
  | .continueWord => "continue"
  | .structWord => "struct"

/-- The reserved word with a spelling, looked up among those of its length in bytes. Any other word
    is a name. -/
def lookup? (word : String) : Option Keyword :=
  match word.utf8ByteSize with
  | 2 =>
      match word with
      | "if" => some .ifWord
      | "in" => some .inWord
      | _ => none
  | 3 =>
      match word with
      | "Int" => some .intType
      | "for" => some .forWord
      | "let" => some .letWord
      | "var" => some .varWord
      | _ => none
  | 4 =>
      match word with
      | "Bool" => some .boolType
      | "Int8" => some .int8Type
      | "UInt" => some .uintType
      | "else" => some .elseWord
      | "func" => some .funcWord
      | "true" => some .trueWord
      | _ => none
  | 5 =>
      match word with
      | "Float" => some .floatType
      | "Int16" => some .int16Type
      | "Int32" => some .int32Type
      | "Int64" => some .int64Type
      | "UInt8" => some .uint8Type
      | "break" => some .breakWord
      | "false" => some .falseWord
      | "while" => some .whileWord
      | _ => none
  | 6 =>
      match word with
      | "UInt16" => some .uint16Type
      | "UInt32" => some .uint32Type
      | "UInt64" => some .uint64Type
      | "return" => some .returnWord
      | "struct" => some .structWord
      | _ => none
  | 7 =>
      match word with
      | "Float32" => some .float32Type
      | "Float64" => some .float64Type
      | _ => none
  | 8 =>
      match word with
      | "continue" => some .continueWord
      | _ => none
  | _ => none

/-- The label of a reserved word in token listings. -/
def label : Keyword → String
  | .trueWord => "True"
  | .falseWord => "False"
  | .intType => "Int"
  | .int8Type => "Int8"
  | .int16Type => "Int16"
  | .int32Type => "Int32"
  | .int64Type => "Int64"
  | .uintType => "UInt"
  | .uint8Type => "UInt8"
  | .uint16Type => "UInt16"
  | .uint32Type => "UInt32"
  | .uint64Type => "UInt64"
  | .floatType => "Float"
  | .float32Type => "Float32"
  | .float64Type => "Float64"
  | .boolType => "Bool"
  | .funcWord => "Func"
  | .letWord => "Let"
  | .varWord => "Var"
  | .returnWord => "Return"
  | .ifWord => "If"
  | .elseWord => "Else"
  | .whileWord => "While"
  | .forWord => "For"
  | .inWord => "In"
  | .breakWord => "Break"
  | .continueWord => "Continue"
  | .structWord => "Struct"

/-- Whether a reserved word is the name of a type. -/
def isType : Keyword → Bool
  | .intType | .int8Type | .int16Type | .int32Type | .int64Type | .uintType | .uint8Type
  | .uint16Type | .uint32Type | .uint64Type | .floatType | .float32Type | .float64Type
  | .boolType => true
  | _ => false

/-- Whether a reserved word is a truth value. -/
def isTruthValue : Keyword → Bool
  | .trueWord | .falseWord => true
  | _ => false

end Keyword

/-- The delimiters, separators and operators. -/
inductive Symbol where
  | leftParen
  | rightParen
  | leftBrace
  | rightBrace
  | leftBracket
  | rightBracket
  | comma
  | colon
  | semicolon
  | dot
  | arrow
  | plus
  | minus
  | star
  | slash
  | percent
  | equal
  | equalEqual
  | bang
  | bangEqual
  | less
  | lessEqual
  | greater
  | greaterEqual
  | andAnd
  | orOr
deriving DecidableEq, Repr, Inhabited

namespace Symbol

/-- Every symbol. -/
def all : List Symbol :=
  [.leftParen, .rightParen, .leftBrace, .rightBrace, .leftBracket, .rightBracket, .comma,
   .colon, .semicolon, .dot, .arrow, .plus, .minus, .star,
   .slash, .percent, .equal, .equalEqual, .bang, .bangEqual, .less,
   .lessEqual, .greater, .greaterEqual, .andAnd, .orOr]

/-- How a symbol is written. -/
def spelling : Symbol → String
  | .leftParen => "("
  | .rightParen => ")"
  | .leftBrace => "\x7b"
  | .rightBrace => "\x7d"
  | .leftBracket => "["
  | .rightBracket => "]"
  | .comma => ","
  | .colon => ":"
  | .semicolon => ";"
  | .dot => "."
  | .arrow => "->"
  | .plus => "+"
  | .minus => "-"
  | .star => "*"
  | .slash => "/"
  | .percent => "%"
  | .equal => "="
  | .equalEqual => "=="
  | .bang => "!"
  | .bangEqual => "!="
  | .less => "<"
  | .lessEqual => "<="
  | .greater => ">"
  | .greaterEqual => ">="
  | .andAnd => "&&"
  | .orOr => "||"

/-- The label of a symbol in token listings. -/
def label : Symbol → String
  | .leftParen => "LParen"
  | .rightParen => "RParen"
  | .leftBrace => "LBrace"
  | .rightBrace => "RBrace"
  | .leftBracket => "LBracket"
  | .rightBracket => "RBracket"
  | .comma => "Comma"
  | .colon => "Colon"
  | .semicolon => "Semicolon"
  | .dot => "Dot"
  | .arrow => "Arrow"
  | .plus => "Plus"
  | .minus => "Minus"
  | .star => "Star"
  | .slash => "Slash"
  | .percent => "Percent"
  | .equal => "Equal"
  | .equalEqual => "EqualEqual"
  | .bang => "Bang"
  | .bangEqual => "BangEqual"
  | .less => "Less"
  | .lessEqual => "LessEqual"
  | .greater => "Greater"
  | .greaterEqual => "GreaterEqual"
  | .andAnd => "AndAnd"
  | .orOr => "OrOr"

/-- The symbol that two characters form together. -/
def ofPair? : Char → Char → Option Symbol
  | '-', '>' => some .arrow
  | '=', '=' => some .equalEqual
  | '!', '=' => some .bangEqual
  | '<', '=' => some .lessEqual
  | '>', '=' => some .greaterEqual
  | '&', '&' => some .andAnd
  | '|', '|' => some .orOr
  | _, _ => none

/-- The symbol that one character forms alone. An ampersand and a bar form none. -/
def ofChar? : Char → Option Symbol
  | '(' => some .leftParen
  | ')' => some .rightParen
  | '\x7b' => some .leftBrace
  | '\x7d' => some .rightBrace
  | '[' => some .leftBracket
  | ']' => some .rightBracket
  | ',' => some .comma
  | ':' => some .colon
  | ';' => some .semicolon
  | '.' => some .dot
  | '+' => some .plus
  | '-' => some .minus
  | '*' => some .star
  | '/' => some .slash
  | '%' => some .percent
  | '=' => some .equal
  | '!' => some .bang
  | '<' => some .less
  | '>' => some .greater
  | _ => none

end Symbol

/-- What a token is. Newlines are tokens, and so is a character that starts nothing else. -/
inductive TokenKind where
  | keyword (word : Keyword)
  | symbol (sign : Symbol)
  | identifier
  | intLiteral
  | floatLiteral
  | newline
  | endOfFile
  | invalid
deriving DecidableEq, Repr, Inhabited

namespace TokenKind

/-- Every kind. -/
def all : List TokenKind :=
  Symbol.all.map .symbol ++ [.identifier, .intLiteral, .floatLiteral] ++ Keyword.all.map .keyword
    ++ [.newline, .endOfFile, .invalid]

/-- The label of a kind in token listings. -/
def label : TokenKind → String
  | .keyword word => word.label
  | .symbol sign => sign.label
  | .identifier => "Identifier"
  | .intLiteral => "IntLiteral"
  | .floatLiteral => "FloatLiteral"
  | .newline => "NewLine"
  | .endOfFile => "Eof"
  | .invalid => "Error"

/-- How a kind is named to the user: by its spelling, if it has only one. -/
def displayName : TokenKind → String
  | .keyword word => word.spelling
  | .symbol sign => sign.spelling
  | .identifier => "identifier"
  | .intLiteral => "integer literal"
  | .floatLiteral => "float literal"
  | .newline => "newline"
  | .endOfFile => "end of file"
  | .invalid => "invalid token"

/-- The spelling of a reserved word; no other kind has one. -/
def keywordSpelling? : TokenKind → Option String
  | .keyword word => some word.spelling
  | _ => none

/-- Whether the kind is a reserved word. -/
def isKeyword (kind : TokenKind) : Bool :=
  kind.keywordSpelling?.isSome

/-- Whether the kind is the name of a type. -/
def isTypeKeyword : TokenKind → Bool
  | .keyword word => word.isType
  | _ => false

/-- Whether the kind is a literal: a number or a truth value. -/
def isLiteral : TokenKind → Bool
  | .intLiteral | .floatLiteral => true
  | .keyword word => word.isTruthValue
  | _ => false

/-- Whether listings show the text of a token beside its kind: its kind alone does not tell it. -/
def showsText : TokenKind → Bool
  | .identifier | .intLiteral | .floatLiteral | .invalid => true
  | _ => false

end TokenKind

end FrontEnd
