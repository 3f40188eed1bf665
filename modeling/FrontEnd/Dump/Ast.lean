/-
Module: FrontEnd.Dump.Ast
Layer: Dump
Purpose: The outlines of syntax trees. Each node is a header with its parts below; where a node has
  parts of several kinds, a header of their own names them.
Imports: FrontEnd.Ast.Node, FrontEnd.Number.Shortest, FrontEnd.Dump.Outline
Trusted boundary: none
Main exports: TypeExpr.text, Expr.outline, Block.outline, Stmt.outline, FunctionDecl.outline,
  Module.outline
Open obligations: none
-/
import FrontEnd.Ast.Node
import FrontEnd.Number.Shortest
import FrontEnd.Dump.Outline

namespace FrontEnd

mutual

/-- A type in one line. -/
def TypeExpr.text : TypeExpr → String
  | .builtin _ type => type.name
  | .named _ name => name
  | .tuple _ items => "(" ++ TypeExpr.listText items ++ ")"

/-- Types with commas between them. -/
def TypeExpr.listText : List TypeExpr → String
  | [] => ""
  | [item] => item.text
  | item :: items => item.text ++ ", " ++ TypeExpr.listText items

end

mutual

/-- The outline of an expression. A block expression is outlined as its block. -/
def Expr.outline : Expr → Outline
  | .intLiteral _ value => .leaf ("IntLiteral(" ++ toString value.toNat ++ ")")
  | .floatLiteral _ value => .leaf ("FloatLiteral(" ++ value.text ++ ")")
  | .boolLiteral _ value => .leaf ("BoolLiteral(" ++ (if value then "true" else "false") ++ ")")
  | .reference _ name => .leaf ("VarRef(" ++ name ++ ")")
  | .unary _ operator operand => .node ("UnaryExpr(" ++ operator.symbol ++ ")") [operand.outline]
  | .binary _ operator left right =>
      .node ("BinaryExpr(" ++ operator.symbol ++ ")") [left.outline, right.outline]
  | .call _ callee arguments =>
      .node "CallExpr"
        [.node "Callee:" [callee.outline], .node "Args:" (Expr.listOutline arguments)]
  | .block _ body => body.outline
  | .conditional _ condition thenBlock otherwise =>
      .node "IfExpr"
        ([.node "Condition:" [condition.outline], .node "Then:" [thenBlock.outline]]
          ++ Expr.optionOutline "Else:" otherwise)
  | .loop _ condition body =>
      .node "WhileExpr" [.node "Condition:" [condition.outline], .node "Body:" [body.outline]]
  | .breakLoop _ value => .node "BreakExpr" (Expr.valueOutline value)
  | .continueLoop _ => .leaf "ContinueExpr"

/-- The outlines of expressions in order. -/
def Expr.listOutline : List Expr → List Outline
  | [] => []
  | item :: items => item.outline :: Expr.listOutline items

/-- The outline of an expression that may be missing. -/
def Expr.valueOutline : Option Expr → List Outline
  | none => []
  | some value => [value.outline]

/-- The outline of an expression that may be missing, below a header that names it. -/
def Expr.optionOutline (header : String) : Option Expr → List Outline
  | none => []
  | some value => [.node header [value.outline]]

/-- The outline of a block. -/
def Block.outline : Block → Outline
  | .mk statements tail =>
      .node "BlockExpr" (Stmt.listOutline statements ++ Expr.optionOutline "Tail:" tail)

/-- The outline of a statement. -/
def Stmt.outline : Stmt → Outline
  | .expression _ value => .node "ExprStmt" [value.outline]
  | .returnValue _ value => .node "ReturnStmt" (Expr.valueOutline value)
  | .declare _ name type initial isMutable =>
      .node
        ("VarDecl(" ++ (if isMutable then "mut " else "") ++ name
          ++ (type.map fun type => ": " ++ type.text).getD "" ++ ")")
        (Expr.valueOutline initial)
  | .assign _ target value =>
      .node "AssignStmt" [.node "Target:" [target.outline], .node "Value:" [value.outline]]

/-- The outlines of statements in order. -/
def Stmt.listOutline : List Stmt → List Outline
  | [] => []
  | item :: items => item.outline :: Stmt.listOutline items

end

/-- The outline of a parameter. -/
def Param.outline (param : Param) : Outline :=
  .leaf ("Param(" ++ param.name ++ ": " ++ param.type.text ++ ")")

/-- The outline of a function: its parameters, its return type and its body. -/
def FunctionDecl.outline (function : FunctionDecl) : Outline :=
  .node ("FunctionDecl(" ++ function.name ++ ")")
    (function.params.map Param.outline
      ++ (function.returnType.map fun type => Outline.leaf ("ReturnType: " ++ type.text)).toList
      ++ (function.body.map Block.outline).toList)

/-- The outline of a module: its functions. -/
def Module.outline (module : Module) : Outline :=
  .node ("Module(" ++ module.name ++ ")") (module.functions.map FunctionDecl.outline)

end FrontEnd
