/-
Module: FrontEnd.Ast.Operator
Layer: Ast
Purpose: The operators of expressions and the built-in types, with the tokens that stand for them.
Imports: FrontEnd.Token.Kind
Trusted boundary: none
Main exports: BinaryOperator, UnaryOperator, BuiltinType, and `symbol` and `ofToken?` of each
Open obligations: none
-/
import FrontEnd.Token.Kind

namespace FrontEnd

/-- The operators with two operands: arithmetic, comparisons and logic. -/
inductive BinaryOperator where
  | add
  | subtract
  | multiply
  | divide
  | remainder
  | equal
  | notEqual
  | less
  | lessEqual
  | greater
  | greaterEqual
  | and
  | or
deriving DecidableEq, Repr, Inhabited

namespace BinaryOperator

/-- Every operator with two operands. -/
def all : List BinaryOperator :=
  [.add, .subtract, .multiply, .divide, .remainder, .equal, .notEqual, .less, .lessEqual, .greater,
   .greaterEqual, .and, .or]

/-- How an operator is written. -/
def symbol : BinaryOperator → String
  | .add => "+"
  | .subtract => "-"
  | .multiply => "*"
  | .divide => "/"
  | .remainder => "%"
  | .equal => "=="
  | .notEqual => "!="
  | .less => "<"
  | .lessEqual => "<="
  | .greater => ">"
  | .greaterEqual => ">="
  | .and => "&&"
  | .or => "||"

/-- The operator that a token between two operands stands for. -/
def ofToken? : TokenKind → Option BinaryOperator
  | .symbol .plus => some .add
  | .symbol .minus => some .subtract
  | .symbol .star => some .multiply
  | .symbol .slash => some .divide
  | .symbol .percent => some .remainder
  | .symbol .equalEqual => some .equal
  | .symbol .bangEqual => some .notEqual
  | .symbol .less => some .less
  | .symbol .lessEqual => some .lessEqual
  | .symbol .greater => some .greater
  | .symbol .greaterEqual => some .greaterEqual
  | .symbol .andAnd => some .and
  | .symbol .orOr => some .or
  | _ => none

/-- Whether an operator compares its operands. -/
def isComparison : BinaryOperator → Bool
  | .equal | .notEqual | .less | .lessEqual | .greater | .greaterEqual => true
  | _ => false

end BinaryOperator

/-- The operators with one operand. -/
inductive UnaryOperator where
  | negate
  | not
deriving DecidableEq, Repr, Inhabited

namespace UnaryOperator

/-- Every operator with one operand. -/
def all : List UnaryOperator :=
  [.negate, .not]

/-- How an operator is written. -/
def symbol : UnaryOperator → String
  | .negate => "-"
  | .not => "!"

/-- The operator that a token before an operand stands for. -/
def ofToken? : TokenKind → Option UnaryOperator
  | .symbol .minus => some .negate
  | .symbol .bang => some .not
  | _ => none

end UnaryOperator

/-- The types that the language brings along. -/
inductive BuiltinType where
  | int8
  | int16
  | int32
  | int64
  | uint8
  | uint16
  | uint32
  | uint64
  | float32
  | float64
  | bool
  | void
  | never
deriving DecidableEq, Repr, Inhabited

namespace BuiltinType

/-- Every built-in type. -/
def all : List BuiltinType :=
  [.int8, .int16, .int32, .int64, .uint8, .uint16, .uint32, .uint64, .float32, .float64, .bool,
   .void, .never]

/-- The short name of a built-in type. -/
def name : BuiltinType → String
  | .int8 => "i8"
  | .int16 => "i16"
  | .int32 => "i32"
  | .int64 => "i64"
  | .uint8 => "u8"
  | .uint16 => "u16"
  | .uint32 => "u32"
  | .uint64 => "u64"
  | .float32 => "f32"
  | .float64 => "f64"
  | .bool => "bool"
  | .void => "void"
  | .never => "never"

/-- The built-in type that a token names. Without a width, numbers are 64 bits wide. -/
def ofToken? : TokenKind → Option BuiltinType
  | .keyword .int8Type => some .int8
  | .keyword .int16Type => some .int16
  | .keyword .int32Type => some .int32
  | .keyword .intType | .keyword .int64Type => some .int64
  | .keyword .uint8Type => some .uint8
  | .keyword .uint16Type => some .uint16
  | .keyword .uint32Type => some .uint32
  | .keyword .uintType | .keyword .uint64Type => some .uint64
  | .keyword .float32Type => some .float32
  | .keyword .floatType | .keyword .float64Type => some .float64
  | .keyword .boolType => some .bool
  | _ => none

/-- Whether a type holds integers. -/
def isInteger : BuiltinType → Bool
  | .int8 | .int16 | .int32 | .int64 | .uint8 | .uint16 | .uint32 | .uint64 => true
  | _ => false

/-- Whether a type holds floating-point numbers. -/
def isFloat : BuiltinType → Bool
  | .float32 | .float64 => true
  | _ => false

end BuiltinType

end FrontEnd
