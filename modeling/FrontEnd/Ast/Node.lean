/-
Module: FrontEnd.Ast.Node
Layer: Ast
Purpose: Syntax trees: types, expressions, statements, functions and modules, each with the span
  that it was read from. Blocks, parameters and modules have none.
Imports: FrontEnd.Ast.Operator, FrontEnd.Number.Binary64, FrontEnd.Span.Covering
Trusted boundary: none
Main exports: TypeExpr, Expr, Block, Stmt, Param, FunctionDecl, Module
Open obligations: none
-/
import FrontEnd.Ast.Operator
import FrontEnd.Number.Binary64
import FrontEnd.Span.Covering

namespace FrontEnd

/-- A type as it stands in a program: built-in, named, or a tuple of types. -/
inductive TypeExpr where
  | builtin (span : Span) (type : BuiltinType)
  | named (span : Span) (name : String)
  | tuple (span : Span) (items : List TypeExpr)
deriving Repr, Inhabited

mutual

/-- An expression. A block, a conditional and a loop are expressions too. -/
inductive Expr where
  | intLiteral (span : Span) (value : UInt64)
  | floatLiteral (span : Span) (value : Binary64)
  | boolLiteral (span : Span) (value : Bool)
  | reference (span : Span) (name : String)
  | unary (span : Span) (operator : UnaryOperator) (operand : Expr)
  | binary (span : Span) (operator : BinaryOperator) (left right : Expr)
  | call (span : Span) (callee : Expr) (arguments : List Expr)
  | block (span : Span) (body : Block)
  | conditional (span : Span) (condition : Expr) (thenBlock : Block) (otherwise : Option Expr)
  | loop (span : Span) (condition : Expr) (body : Block)
  | breakLoop (span : Span) (value : Option Expr)
  | continueLoop (span : Span)

/-- Statements, and perhaps an expression behind them whose value is that of the block. -/
inductive Block where
  | mk (statements : List Stmt) (tail : Option Expr)

/-- A statement. -/
inductive Stmt where
  | expression (span : Span) (value : Expr)
  | returnValue (span : Span) (value : Option Expr)
  | declare (span : Span) (name : String) (type : Option TypeExpr) (initial : Option Expr)
      (isMutable : Bool)
  | assign (span : Span) (target value : Expr)

end

/-- A parameter of a function. -/
structure Param where
  name : String
  type : TypeExpr
deriving Repr, Inhabited

/-- A function. One without a body is only declared. -/
structure FunctionDecl where
  span : Span
  name : String
  params : List Param
  returnType : Option TypeExpr
  body : Option Block

/-- The functions of one module. -/
structure Module where
  name : String
  functions : List FunctionDecl

namespace TypeExpr

/-- Where a type stands. -/
def span : TypeExpr → Span
  | .builtin span _ | .named span _ | .tuple span _ => span

instance : HasSpan TypeExpr :=
  ⟨span⟩

end TypeExpr

namespace Expr

/-- Where an expression stands. -/
def span : Expr → Span
  | .intLiteral span _ | .floatLiteral span _ | .boolLiteral span _ | .reference span _
  | .unary span _ _ | .binary span _ _ _ | .call span _ _ | .block span _
  | .conditional span _ _ _ | .loop span _ _ | .breakLoop span _ | .continueLoop span => span

instance : HasSpan Expr :=
  ⟨span⟩

end Expr

namespace Block

/-- The statements of a block. -/
def statements : Block → List Stmt
  | .mk statements _ => statements

/-- The expression behind the statements of a block. -/
def tail : Block → Option Expr
  | .mk _ tail => tail

/-- Whether a block holds nothing at all. -/
def isEmpty (block : Block) : Bool :=
  block.statements.isEmpty && block.tail.isNone

end Block

namespace Stmt

/-- Where a statement stands. -/
def span : Stmt → Span
  | .expression span _ | .returnValue span _ | .declare span _ _ _ _ | .assign span _ _ => span

instance : HasSpan Stmt :=
  ⟨span⟩

end Stmt

instance : HasSpan FunctionDecl :=
  ⟨FunctionDecl.span⟩

end FrontEnd
