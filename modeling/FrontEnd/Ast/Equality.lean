/-
Module: FrontEnd.Ast.Equality
Layer: Ast
Purpose: Equality of syntax trees, spans included. Float literals are compared as the numbers they
  stand for, so a tree that holds a NaN does not even equal itself, and the zeros of both signs are
  equal.
Imports: FrontEnd.Ast.Node
Trusted boundary: none
Main exports: TypeExpr.equals, Expr.equals, Block.equals, Stmt.equals, FunctionDecl.equals,
  Module.equals
Open obligations: none
-/
import FrontEnd.Ast.Node

namespace FrontEnd

mutual

/-- Equality of types. -/
def TypeExpr.equals : TypeExpr → TypeExpr → Bool
  | .builtin span type, .builtin span' type' => span == span' && type == type'
  | .named span name, .named span' name' => span == span' && name == name'
  | .tuple span items, .tuple span' items' => span == span' && TypeExpr.listEquals items items'
  | _, _ => false

/-- Equality of lists of types. -/
def TypeExpr.listEquals : List TypeExpr → List TypeExpr → Bool
  | [], [] => true
  | item :: items, item' :: items' => item.equals item' && TypeExpr.listEquals items items'
  | _, _ => false

end

/-- Equality of types that may be missing. -/
def TypeExpr.optionEquals : Option TypeExpr → Option TypeExpr → Bool
  | none, none => true
  | some type, some type' => type.equals type'
  | _, _ => false

mutual

/-- Equality of expressions. -/
def Expr.equals : Expr → Expr → Bool
  | .intLiteral span value, .intLiteral span' value' => span == span' && value == value'
  | .floatLiteral span value, .floatLiteral span' value' => span == span' && value.equals value'
  | .boolLiteral span value, .boolLiteral span' value' => span == span' && value == value'
  | .reference span name, .reference span' name' => span == span' && name == name'
  | .unary span operator operand, .unary span' operator' operand' =>
      span == span' && operator == operator' && operand.equals operand'
  | .binary span operator left right, .binary span' operator' left' right' =>
      span == span' && operator == operator' && left.equals left' && right.equals right'
  | .call span callee arguments, .call span' callee' arguments' =>
      span == span' && callee.equals callee' && Expr.listEquals arguments arguments'
  | .block span body, .block span' body' => span == span' && body.equals body'
  | .conditional span condition thenBlock otherwise,
      .conditional span' condition' thenBlock' otherwise' =>
      span == span' && condition.equals condition' && thenBlock.equals thenBlock'
        && Expr.optionEquals otherwise otherwise'
  | .loop span condition body, .loop span' condition' body' =>
      span == span' && condition.equals condition' && body.equals body'
  | .breakLoop span value, .breakLoop span' value' =>
      span == span' && Expr.optionEquals value value'
  | .continueLoop span, .continueLoop span' => span == span'
  | _, _ => false
termination_by structural tree => tree

/-- Equality of lists of expressions. -/
def Expr.listEquals : List Expr → List Expr → Bool
  | [], [] => true
  | item :: items, item' :: items' => item.equals item' && Expr.listEquals items items'
  | _, _ => false
termination_by structural tree => tree

/-- Equality of expressions that may be missing. -/
def Expr.optionEquals : Option Expr → Option Expr → Bool
  | none, none => true
  | some value, some value' => value.equals value'
  | _, _ => false
termination_by structural tree => tree

/-- Equality of blocks. -/
def Block.equals : Block → Block → Bool
  | .mk statements tail, .mk statements' tail' =>
      Stmt.listEquals statements statements' && Expr.optionEquals tail tail'
termination_by structural tree => tree

/-- Equality of statements. -/
def Stmt.equals : Stmt → Stmt → Bool
  | .expression span value, .expression span' value' => span == span' && value.equals value'
  | .returnValue span value, .returnValue span' value' =>
      span == span' && Expr.optionEquals value value'
  | .declare span name type initial isMutable, .declare span' name' type' initial' isMutable' =>
      span == span' && name == name' && TypeExpr.optionEquals type type'
        && Expr.optionEquals initial initial' && isMutable == isMutable'
  | .assign span target value, .assign span' target' value' =>
      span == span' && target.equals target' && value.equals value'
  | _, _ => false
termination_by structural tree => tree

/-- Equality of lists of statements. -/
def Stmt.listEquals : List Stmt → List Stmt → Bool
  | [], [] => true
  | item :: items, item' :: items' => item.equals item' && Stmt.listEquals items items'
  | _, _ => false
termination_by structural tree => tree

end

/-- Equality of blocks that may be missing. -/
def Block.optionEquals : Option Block → Option Block → Bool
  | none, none => true
  | some block, some block' => block.equals block'
  | _, _ => false

/-- Equality of parameters. -/
def Param.equals (left right : Param) : Bool :=
  left.name == right.name && left.type.equals right.type

/-- Equality of functions. -/
def FunctionDecl.equals (left right : FunctionDecl) : Bool :=
  left.span == right.span && left.name == right.name && left.params.isEqv right.params Param.equals
    && TypeExpr.optionEquals left.returnType right.returnType
    && Block.optionEquals left.body right.body

/-- Equality of modules. -/
def Module.equals (left right : Module) : Bool :=
  left.name == right.name && left.functions.isEqv right.functions FunctionDecl.equals

end FrontEnd
