/-
Module: FrontEnd.Proofs.TreeEquality
Layer: Proofs
Purpose: Equality of syntax trees. Two trees are equal if and only if they are the same up to the
  signs of zeros, spans included, and hold no word that is no number. Hence equality is symmetric
  and transitive, it is reflexive just for the trees without such words, and equal trees have one
  dump once their zeros have one sign.
Imports: FrontEnd.Ast.Equality, FrontEnd.Dump.Node, FrontEnd.Proofs.NumberEquality,
  Mathlib.Tactic.Tauto
Trusted boundary: none
Main exports: Expr.floats, Expr.mapFloats, Expr.floats_mapFloats, TypeExpr.equals_iff,
  Expr.equals_iff, FunctionDecl.equals_iff, Module.equals_iff, EqualityLaws, tree_equality_laws
Open obligations: none
-/
import FrontEnd.Ast.Equality
import FrontEnd.Dump.Node
import FrontEnd.Proofs.NumberEquality
import Mathlib.Tactic.Tauto

namespace FrontEnd

/-! ### The float literals of a tree -/

mutual

/-- The float literals in an expression. -/
def Expr.floats : Expr → List Binary64
  | .intLiteral _ _ | .boolLiteral _ _ | .reference _ _ | .continueLoop _ => []
  | .floatLiteral _ value => [value]
  | .unary _ _ operand => operand.floats
  | .binary _ _ left right => left.floats ++ right.floats
  | .call _ callee arguments => callee.floats ++ Expr.listFloats arguments
  | .block _ body => body.floats
  | .conditional _ condition thenBlock otherwise =>
      condition.floats ++ (thenBlock.floats ++ Expr.optionFloats otherwise)
  | .loop _ condition body => condition.floats ++ body.floats
  | .breakLoop _ value => Expr.optionFloats value
termination_by structural tree => tree

/-- The float literals in expressions. -/
def Expr.listFloats : List Expr → List Binary64
  | [] => []
  | item :: items => item.floats ++ Expr.listFloats items
termination_by structural tree => tree

/-- The float literals in an expression that may be missing. -/
def Expr.optionFloats : Option Expr → List Binary64
  | none => []
  | some value => value.floats
termination_by structural tree => tree

/-- The float literals in a block. -/
def Block.floats : Block → List Binary64
  | .mk statements tail => Stmt.listFloats statements ++ Expr.optionFloats tail
termination_by structural tree => tree

/-- The float literals in a statement. -/
def Stmt.floats : Stmt → List Binary64
  | .expression _ value => value.floats
  | .returnValue _ value => Expr.optionFloats value
  | .declare _ _ _ initial _ => Expr.optionFloats initial
  | .assign _ target value => target.floats ++ value.floats
termination_by structural tree => tree

/-- The float literals in statements. -/
def Stmt.listFloats : List Stmt → List Binary64
  | [] => []
  | item :: items => item.floats ++ Stmt.listFloats items
termination_by structural tree => tree

end

/-- The float literals in a function. -/
def FunctionDecl.floats (function : FunctionDecl) : List Binary64 :=
  (function.body.map Block.floats).getD []

/-- The float literals in a module. -/
def Module.floats (module : Module) : List Binary64 :=
  module.functions.flatMap FunctionDecl.floats

/-! ### Replacing float literals -/

section Replacing

variable (change : Binary64 → Binary64)

mutual

/-- An expression with other numbers for its float literals. -/
def Expr.mapFloats : Expr → Expr
  | .intLiteral span value => .intLiteral span value
  | .floatLiteral span value => .floatLiteral span (change value)
  | .boolLiteral span value => .boolLiteral span value
  | .reference span name => .reference span name
  | .unary span operator operand => .unary span operator operand.mapFloats
  | .binary span operator left right => .binary span operator left.mapFloats right.mapFloats
  | .call span callee arguments => .call span callee.mapFloats (Expr.listMapFloats arguments)
  | .block span body => .block span body.mapFloats
  | .conditional span condition thenBlock otherwise =>
      .conditional span condition.mapFloats thenBlock.mapFloats (Expr.optionMapFloats otherwise)
  | .loop span condition body => .loop span condition.mapFloats body.mapFloats
  | .breakLoop span value => .breakLoop span (Expr.optionMapFloats value)
  | .continueLoop span => .continueLoop span
termination_by structural tree => tree

/-- Expressions with other numbers for their float literals. -/
def Expr.listMapFloats : List Expr → List Expr
  | [] => []
  | item :: items => item.mapFloats :: Expr.listMapFloats items
termination_by structural tree => tree

/-- An expression that may be missing, with other numbers for its float literals. -/
def Expr.optionMapFloats : Option Expr → Option Expr
  | none => none
  | some value => some value.mapFloats
termination_by structural tree => tree

/-- A block with other numbers for its float literals. -/
def Block.mapFloats : Block → Block
  | .mk statements tail => .mk (Stmt.listMapFloats statements) (Expr.optionMapFloats tail)
termination_by structural tree => tree

/-- A statement with other numbers for its float literals. -/
def Stmt.mapFloats : Stmt → Stmt
  | .expression span value => .expression span value.mapFloats
  | .returnValue span value => .returnValue span (Expr.optionMapFloats value)
  | .declare span name type initial isMutable =>
      .declare span name type (Expr.optionMapFloats initial) isMutable
  | .assign span target value => .assign span target.mapFloats value.mapFloats
termination_by structural tree => tree

/-- Statements with other numbers for their float literals. -/
def Stmt.listMapFloats : List Stmt → List Stmt
  | [] => []
  | item :: items => item.mapFloats :: Stmt.listMapFloats items
termination_by structural tree => tree

end

end Replacing

/-- A function with other numbers for its float literals. -/
def FunctionDecl.mapFloats (change : Binary64 → Binary64) (function : FunctionDecl) :
    FunctionDecl :=
  { function with body := function.body.map (Block.mapFloats change) }

/-- A module with other numbers for its float literals. -/
def Module.mapFloats (change : Binary64 → Binary64) (module : Module) : Module :=
  { module with functions := module.functions.map (FunctionDecl.mapFloats change) }

section Replaced

variable (change : Binary64 → Binary64)

mutual

/-- The float literals are what they are changed to. -/
theorem Expr.floats_mapFloats :
    ∀ tree : Expr, (tree.mapFloats change).floats = tree.floats.map change
  | .intLiteral _ _ | .boolLiteral _ _ | .reference _ _ | .continueLoop _
  | .floatLiteral _ _ => rfl
  | .unary _ _ operand => by
      rw [Expr.mapFloats, Expr.floats, Expr.floats, Expr.floats_mapFloats operand]
  | .binary _ _ left right => by
      rw [Expr.mapFloats, Expr.floats, Expr.floats, List.map_append, Expr.floats_mapFloats left,
        Expr.floats_mapFloats right]
  | .call _ callee arguments => by
      rw [Expr.mapFloats, Expr.floats, Expr.floats, List.map_append, Expr.floats_mapFloats callee,
        Expr.listFloats_mapFloats arguments]
  | .block _ body => by
      rw [Expr.mapFloats, Expr.floats, Expr.floats, Block.floats_mapFloats body]
  | .conditional _ condition thenBlock otherwise => by
      rw [Expr.mapFloats, Expr.floats, Expr.floats, List.map_append, List.map_append,
        Expr.floats_mapFloats condition, Block.floats_mapFloats thenBlock,
        Expr.optionFloats_mapFloats otherwise]
  | .loop _ condition body => by
      rw [Expr.mapFloats, Expr.floats, Expr.floats, List.map_append,
        Expr.floats_mapFloats condition, Block.floats_mapFloats body]
  | .breakLoop _ value => by
      rw [Expr.mapFloats, Expr.floats, Expr.floats, Expr.optionFloats_mapFloats value]

theorem Expr.listFloats_mapFloats : ∀ trees : List Expr,
    Expr.listFloats (Expr.listMapFloats change trees) = (Expr.listFloats trees).map change
  | [] => rfl
  | item :: items => by
      rw [Expr.listMapFloats, Expr.listFloats, Expr.listFloats, List.map_append,
        Expr.floats_mapFloats item, Expr.listFloats_mapFloats items]

theorem Expr.optionFloats_mapFloats : ∀ tree : Option Expr,
    Expr.optionFloats (Expr.optionMapFloats change tree) = (Expr.optionFloats tree).map change
  | none => rfl
  | some value => by
      rw [Expr.optionMapFloats, Expr.optionFloats, Expr.optionFloats, Expr.floats_mapFloats value]

theorem Block.floats_mapFloats :
    ∀ tree : Block, (tree.mapFloats change).floats = tree.floats.map change
  | .mk statements tail => by
      rw [Block.mapFloats, Block.floats, Block.floats, List.map_append,
        Stmt.listFloats_mapFloats statements, Expr.optionFloats_mapFloats tail]

theorem Stmt.floats_mapFloats :
    ∀ tree : Stmt, (tree.mapFloats change).floats = tree.floats.map change
  | .expression _ value => by
      rw [Stmt.mapFloats, Stmt.floats, Stmt.floats, Expr.floats_mapFloats value]
  | .returnValue _ value => by
      rw [Stmt.mapFloats, Stmt.floats, Stmt.floats, Expr.optionFloats_mapFloats value]
  | .declare _ _ _ initial _ => by
      rw [Stmt.mapFloats, Stmt.floats, Stmt.floats, Expr.optionFloats_mapFloats initial]
  | .assign _ target value => by
      rw [Stmt.mapFloats, Stmt.floats, Stmt.floats, List.map_append,
        Expr.floats_mapFloats target, Expr.floats_mapFloats value]

theorem Stmt.listFloats_mapFloats : ∀ trees : List Stmt,
    Stmt.listFloats (Stmt.listMapFloats change trees) = (Stmt.listFloats trees).map change
  | [] => rfl
  | item :: items => by
      rw [Stmt.listMapFloats, Stmt.listFloats, Stmt.listFloats, List.map_append,
        Stmt.floats_mapFloats item, Stmt.listFloats_mapFloats items]

end

theorem FunctionDecl.floats_mapFloats (function : FunctionDecl) :
    (function.mapFloats change).floats = function.floats.map change := by
  rw [FunctionDecl.mapFloats, FunctionDecl.floats, FunctionDecl.floats]
  cases function.body with
  | none => rfl
  | some body => exact Block.floats_mapFloats change body

theorem Module.floats_mapFloats (module : Module) :
    (module.mapFloats change).floats = module.floats.map change := by
  rw [Module.mapFloats, Module.floats, Module.floats, List.flatMap_map, List.map_flatMap]
  exact List.flatMap_congr fun function _ => function.floats_mapFloats change

end Replaced

/-! ### Equality of types -/

mutual

/-- Equal types are the same, spans included. -/
theorem TypeExpr.equals_iff : ∀ left right : TypeExpr, left.equals right = true ↔ left = right
  | .builtin span type, right => by
      cases right <;> simp [TypeExpr.equals]
  | .named span name, right => by
      cases right <;> simp [TypeExpr.equals]
  | .tuple span items, right => by
      cases right with
      | tuple span' items' => simp [TypeExpr.equals, TypeExpr.listEquals_iff items items']
      | _ => simp [TypeExpr.equals]

theorem TypeExpr.listEquals_iff :
    ∀ lefts rights : List TypeExpr, TypeExpr.listEquals lefts rights = true ↔ lefts = rights
  | [], [] => by simp [TypeExpr.listEquals]
  | [], _ :: _ => by simp [TypeExpr.listEquals]
  | _ :: _, [] => by simp [TypeExpr.listEquals]
  | item :: items, item' :: items' => by
      simp [TypeExpr.listEquals, TypeExpr.equals_iff item item',
        TypeExpr.listEquals_iff items items']

end

theorem TypeExpr.optionEquals_iff {left right : Option TypeExpr} :
    TypeExpr.optionEquals left right = true ↔ left = right := by
  cases left <;> cases right <;> simp [optionEquals, equals_iff]

theorem Param.equals_iff {left right : Param} : left.equals right = true ↔ left = right := by
  obtain ⟨name, type⟩ := left
  obtain ⟨name', type'⟩ := right
  simp [equals, TypeExpr.equals_iff]

/-! ### Equality of expressions, blocks and statements -/

mutual

/-- Expressions are equal if and only if they are the same, up to the signs of zeros, and all of
    their float literals are numbers. -/
theorem Expr.equals_iff : ∀ left right : Expr,
    left.equals right = true ↔
      left.mapFloats Binary64.withPlusZero = right.mapFloats Binary64.withPlusZero ∧
        ∀ number ∈ left.floats, number.isNaN = false
  | .intLiteral span value, right => by
      cases right <;> simp [Expr.equals, Expr.mapFloats, Expr.floats]
  | .boolLiteral span value, right => by
      cases right <;> simp [Expr.equals, Expr.mapFloats, Expr.floats]
  | .reference span name, right => by
      cases right <;> simp [Expr.equals, Expr.mapFloats, Expr.floats]
  | .continueLoop span, right => by
      cases right <;> simp [Expr.equals, Expr.mapFloats, Expr.floats]
  | .floatLiteral span value, right => by
      cases right with
      | floatLiteral span' value' =>
          simp [Expr.equals, Expr.mapFloats, Expr.floats, Binary64.equals_iff, and_assoc]
      | _ => simp [Expr.equals, Expr.mapFloats]
  | .unary span operator operand, right => by
      cases right with
      | unary span' operator' operand' =>
          simp only [Expr.equals, Expr.mapFloats, Expr.floats, Expr.unary.injEq, Bool.and_eq_true,
            beq_iff_eq, Expr.equals_iff operand operand', and_assoc]
      | _ => simp [Expr.equals, Expr.mapFloats]
  | .binary span operator first second, right => by
      cases right with
      | binary span' operator' first' second' =>
          -- With the literals of both operands apart, the criteria of the operands only have to be
          -- put in another order.
          rw [Expr.floats, List.forall_mem_append]
          simp only [Expr.equals, Expr.mapFloats, Expr.binary.injEq, Bool.and_eq_true, beq_iff_eq,
            Expr.equals_iff first first', Expr.equals_iff second second']
          tauto
      | _ => simp [Expr.equals, Expr.mapFloats]
  | .call span callee arguments, right => by
      cases right with
      | call span' callee' arguments' =>
          rw [Expr.floats, List.forall_mem_append]
          simp only [Expr.equals, Expr.mapFloats, Expr.call.injEq, Bool.and_eq_true, beq_iff_eq,
            Expr.equals_iff callee callee', Expr.listEquals_iff arguments arguments']
          tauto
      | _ => simp [Expr.equals, Expr.mapFloats]
  | .block span body, right => by
      cases right with
      | block span' body' =>
          simp only [Expr.equals, Expr.mapFloats, Expr.floats, Expr.block.injEq, Bool.and_eq_true,
            beq_iff_eq, Block.equals_iff body body', and_assoc]
      | _ => simp [Expr.equals, Expr.mapFloats]
  | .conditional span condition thenBlock otherwise, right => by
      cases right with
      | conditional span' condition' thenBlock' otherwise' =>
          rw [Expr.floats, List.forall_mem_append, List.forall_mem_append]
          simp only [Expr.equals, Expr.mapFloats, Expr.conditional.injEq, Bool.and_eq_true,
            beq_iff_eq, Expr.equals_iff condition condition', Block.equals_iff thenBlock thenBlock',
            Expr.optionEquals_iff otherwise otherwise']
          tauto
      | _ => simp [Expr.equals, Expr.mapFloats]
  | .loop span condition body, right => by
      cases right with
      | loop span' condition' body' =>
          rw [Expr.floats, List.forall_mem_append]
          simp only [Expr.equals, Expr.mapFloats, Expr.loop.injEq, Bool.and_eq_true, beq_iff_eq,
            Expr.equals_iff condition condition', Block.equals_iff body body']
          tauto
      | _ => simp [Expr.equals, Expr.mapFloats]
  | .breakLoop span value, right => by
      cases right with
      | breakLoop span' value' =>
          simp only [Expr.equals, Expr.mapFloats, Expr.floats, Expr.breakLoop.injEq,
            Bool.and_eq_true, beq_iff_eq, Expr.optionEquals_iff value value', and_assoc]
      | _ => simp [Expr.equals, Expr.mapFloats]

theorem Expr.listEquals_iff : ∀ lefts rights : List Expr,
    Expr.listEquals lefts rights = true ↔
      Expr.listMapFloats Binary64.withPlusZero lefts
          = Expr.listMapFloats Binary64.withPlusZero rights ∧
        ∀ number ∈ Expr.listFloats lefts, number.isNaN = false
  | [], [] => by simp [Expr.listEquals, Expr.listMapFloats, Expr.listFloats]
  | [], _ :: _ => by simp [Expr.listEquals, Expr.listMapFloats]
  | _ :: _, [] => by simp [Expr.listEquals, Expr.listMapFloats]
  | item :: items, item' :: items' => by
      rw [Expr.listFloats, List.forall_mem_append]
      simp only [Expr.listEquals, Expr.listMapFloats, List.cons.injEq, Bool.and_eq_true,
        Expr.equals_iff item item', Expr.listEquals_iff items items']
      tauto

theorem Expr.optionEquals_iff : ∀ left right : Option Expr,
    Expr.optionEquals left right = true ↔
      Expr.optionMapFloats Binary64.withPlusZero left
          = Expr.optionMapFloats Binary64.withPlusZero right ∧
        ∀ number ∈ Expr.optionFloats left, number.isNaN = false
  | none, none => by simp [Expr.optionEquals, Expr.optionMapFloats, Expr.optionFloats]
  | none, some _ => by simp [Expr.optionEquals, Expr.optionMapFloats]
  | some _, none => by simp [Expr.optionEquals, Expr.optionMapFloats]
  | some value, some value' => by
      simp only [Expr.optionEquals, Expr.optionMapFloats, Expr.optionFloats, Option.some.injEq,
        Expr.equals_iff value value']

/-- Blocks are equal as expressions are. -/
theorem Block.equals_iff : ∀ left right : Block,
    left.equals right = true ↔
      left.mapFloats Binary64.withPlusZero = right.mapFloats Binary64.withPlusZero ∧
        ∀ number ∈ left.floats, number.isNaN = false
  | .mk statements tail, .mk statements' tail' => by
      rw [Block.floats, List.forall_mem_append]
      simp only [Block.equals, Block.mapFloats, Block.mk.injEq, Bool.and_eq_true,
        Stmt.listEquals_iff statements statements', Expr.optionEquals_iff tail tail']
      tauto

/-- Statements are equal as expressions are. -/
theorem Stmt.equals_iff : ∀ left right : Stmt,
    left.equals right = true ↔
      left.mapFloats Binary64.withPlusZero = right.mapFloats Binary64.withPlusZero ∧
        ∀ number ∈ left.floats, number.isNaN = false
  | .expression span value, right => by
      cases right with
      | expression span' value' =>
          simp only [Stmt.equals, Stmt.mapFloats, Stmt.floats, Stmt.expression.injEq,
            Bool.and_eq_true, beq_iff_eq, Expr.equals_iff value value', and_assoc]
      | _ => simp [Stmt.equals, Stmt.mapFloats]
  | .returnValue span value, right => by
      cases right with
      | returnValue span' value' =>
          simp only [Stmt.equals, Stmt.mapFloats, Stmt.floats, Stmt.returnValue.injEq,
            Bool.and_eq_true, beq_iff_eq, Expr.optionEquals_iff value value', and_assoc]
      | _ => simp [Stmt.equals, Stmt.mapFloats]
  | .declare span name type initial isMutable, right => by
      cases right with
      | declare span' name' type' initial' isMutable' =>
          simp only [Stmt.equals, Stmt.mapFloats, Stmt.floats, Stmt.declare.injEq,
            Bool.and_eq_true, beq_iff_eq, TypeExpr.optionEquals_iff,
            Expr.optionEquals_iff initial initial']
          tauto
      | _ => simp [Stmt.equals, Stmt.mapFloats]
  | .assign span target value, right => by
      cases right with
      | assign span' target' value' =>
          rw [Stmt.floats, List.forall_mem_append]
          simp only [Stmt.equals, Stmt.mapFloats, Stmt.assign.injEq, Bool.and_eq_true, beq_iff_eq,
            Expr.equals_iff target target', Expr.equals_iff value value']
          tauto
      | _ => simp [Stmt.equals, Stmt.mapFloats]

theorem Stmt.listEquals_iff : ∀ lefts rights : List Stmt,
    Stmt.listEquals lefts rights = true ↔
      Stmt.listMapFloats Binary64.withPlusZero lefts
          = Stmt.listMapFloats Binary64.withPlusZero rights ∧
        ∀ number ∈ Stmt.listFloats lefts, number.isNaN = false
  | [], [] => by simp [Stmt.listEquals, Stmt.listMapFloats, Stmt.listFloats]
  | [], _ :: _ => by simp [Stmt.listEquals, Stmt.listMapFloats]
  | _ :: _, [] => by simp [Stmt.listEquals, Stmt.listMapFloats]
  | item :: items, item' :: items' => by
      rw [Stmt.listFloats, List.forall_mem_append]
      simp only [Stmt.listEquals, Stmt.listMapFloats, List.cons.injEq, Bool.and_eq_true,
        Stmt.equals_iff item item', Stmt.listEquals_iff items items']
      tauto

end

/-! ### Equality of functions and modules -/

/-- Lists are equal member by member. -/
theorem isEqv_iff_map_eq {α β : Type} {equals : α → α → Bool} {same : α → β} {holds : α → Prop}
    (exact : ∀ left right, equals left right = true ↔ same left = same right ∧ holds left)
    {lefts rights : List α} :
    lefts.isEqv rights equals = true ↔
      lefts.map same = rights.map same ∧ ∀ item ∈ lefts, holds item := by
  induction lefts generalizing rights with
  | nil =>
      cases rights <;> simp [List.isEqv]
  | cons item items ih =>
      cases rights with
      | nil => simp [List.isEqv]
      | cons item' items' =>
          rw [List.forall_mem_cons]
          simp only [List.isEqv, List.map_cons, List.cons.injEq, Bool.and_eq_true, exact, ih]
          tauto

theorem Param.isEqv_iff {left right : List Param} :
    left.isEqv right Param.equals = true ↔ left = right := by
  have exact (left right : Param) :
      left.equals right = true ↔ id left = id right ∧ True := by
    rw [equals_iff, and_true, id, id]
  simpa using isEqv_iff_map_eq exact

theorem Block.optionEquals_iff {left right : Option Block} :
    Block.optionEquals left right = true ↔
      left.map (Block.mapFloats Binary64.withPlusZero)
          = right.map (Block.mapFloats Binary64.withPlusZero) ∧
        ∀ number ∈ (left.map Block.floats).getD [], number.isNaN = false := by
  cases left <;> cases right <;> simp [optionEquals, Block.equals_iff]

/-- Functions are equal as expressions are. -/
theorem FunctionDecl.equals_iff (left right : FunctionDecl) :
    left.equals right = true ↔
      left.mapFloats Binary64.withPlusZero = right.mapFloats Binary64.withPlusZero ∧
        ∀ number ∈ left.floats, number.isNaN = false := by
  simp only [FunctionDecl.equals, FunctionDecl.mapFloats, FunctionDecl.floats,
    FunctionDecl.mk.injEq, Bool.and_eq_true, beq_iff_eq, Param.isEqv_iff,
    TypeExpr.optionEquals_iff, Block.optionEquals_iff]
  tauto

/-- Modules are equal as expressions are. -/
theorem Module.equals_iff (left right : Module) :
    left.equals right = true ↔
      left.mapFloats Binary64.withPlusZero = right.mapFloats Binary64.withPlusZero ∧
        ∀ number ∈ left.floats, number.isNaN = false := by
  rw [Module.floats, List.forall_mem_flatMap]
  simp only [Module.equals, Module.mapFloats, Module.mk.injEq, Bool.and_eq_true, beq_iff_eq,
    isEqv_iff_map_eq FunctionDecl.equals_iff]
  tauto

/-! ### The laws of equality -/

/-- The laws of the equality of one kind of trees. Apart from the signs of zeros, equal trees are
    the same, and all of their float literals are numbers. -/
structure EqualityLaws {α β : Type} (equals : α → α → Bool) (floats : α → List Binary64)
    (mapFloats : (Binary64 → Binary64) → α → α) (dump : α → β) : Prop where
  exact : ∀ left right, equals left right = true ↔
    mapFloats Binary64.withPlusZero left = mapFloats Binary64.withPlusZero right ∧
      ∀ number ∈ floats left, number.isNaN = false
  symm : ∀ left right, equals left right = true → equals right left = true
  trans : ∀ left middle right, equals left middle = true → equals middle right = true →
    equals left right = true
  refl_iff : ∀ tree, equals tree tree = true ↔ ∀ number ∈ floats tree, number.isNaN = false
  dump_eq : ∀ left right, equals left right = true →
    dump (mapFloats Binary64.withPlusZero left) = dump (mapFloats Binary64.withPlusZero right)

/-- An equality that is exact obeys the laws. -/
theorem equalityLaws_of_exact {α β : Type} {equals : α → α → Bool} {floats : α → List Binary64}
    {mapFloats : (Binary64 → Binary64) → α → α} {dump : α → β}
    (kept : ∀ change tree, floats (mapFloats change tree) = (floats tree).map change)
    (exact : ∀ left right, equals left right = true ↔
      mapFloats Binary64.withPlusZero left = mapFloats Binary64.withPlusZero right ∧
        ∀ number ∈ floats left, number.isNaN = false) :
    EqualityLaws equals floats mapFloats dump := by
  -- Whether all literals are numbers can be told after their zeros are replaced, so it makes no
  -- difference which of two equal trees is asked for it.
  have numbers (tree : α) : (∀ number ∈ floats tree, number.isNaN = false) ↔
      ∀ number ∈ floats (mapFloats Binary64.withPlusZero tree), number.isNaN = false := by
    simp only [kept, List.forall_mem_map, Binary64.isNaN_withPlusZero]
  constructor
  · exact exact
  · intro left right equal
    rw [exact, numbers] at equal ⊢
    exact ⟨equal.1.symm, equal.1 ▸ equal.2⟩
  · intro left middle right equal equal'
    rw [exact] at equal equal' ⊢
    exact ⟨equal.1.trans equal'.1, equal.2⟩
  · intro tree
    rw [exact, eq_self, true_and]
  · intro left right equal
    rw [((exact left right).mp equal).1]

/-- Equality of expressions, statements, types, blocks, functions and modules is symmetric and
    transitive; a tree is equal to itself if and only if all of its float literals are numbers; and
    equal trees have one dump, at any depth, once their zeros have the plus sign. Float literals
    are equal if they stand for one number or one infinity. -/
theorem tree_equality_laws :
    EqualityLaws Expr.equals Expr.floats Expr.mapFloats (fun tree => (Node.expr tree).textAt) ∧
    EqualityLaws Stmt.equals Stmt.floats Stmt.mapFloats (fun tree => (Node.stmt tree).textAt) ∧
    EqualityLaws TypeExpr.equals (fun _ => []) (fun _ type => type) TypeExpr.text ∧
    EqualityLaws Block.equals Block.floats Block.mapFloats
      (fun tree => (Node.block tree).textAt) ∧
    EqualityLaws FunctionDecl.equals FunctionDecl.floats FunctionDecl.mapFloats
      (fun tree => (Node.function tree).textAt) ∧
    EqualityLaws Module.equals Module.floats Module.mapFloats
      (fun tree => (Node.module tree).textAt) ∧
    ∀ left right : Binary64, left.equals right = true ↔
      ∃ value, left.value? = some value ∧ right.value? = some value := by
  refine ⟨?_, ?_, ?_, ?_, ?_, ?_, fun _ _ => Binary64.equals_iff_value⟩
  · exact equalityLaws_of_exact Expr.floats_mapFloats Expr.equals_iff
  · exact equalityLaws_of_exact Stmt.floats_mapFloats Stmt.equals_iff
  · refine equalityLaws_of_exact (fun _ _ => rfl) fun left right => ?_
    rw [TypeExpr.equals_iff, and_iff_left (List.forall_mem_nil _)]
  · exact equalityLaws_of_exact Block.floats_mapFloats Block.equals_iff
  · exact equalityLaws_of_exact FunctionDecl.floats_mapFloats FunctionDecl.equals_iff
  · exact equalityLaws_of_exact Module.floats_mapFloats Module.equals_iff

/-- The negations of the two zeros are equal and print differently; with their zeros made plus
    zeros they print alike, at any depth. The negation of a word that is no number is not equal to
    itself. -/
theorem tree_equality_laws_zeros :
    let zero : Expr := .unary (.point 3) .negate (.floatLiteral (.point 4) .plusZero)
    let zero' : Expr := .unary (.point 3) .negate (.floatLiteral (.point 4) .minusZero)
    let noNumber : Expr := .unary (.point 3) .negate (.floatLiteral (.point 4) ⟨0x7ff8000000000000⟩)
    zero.equals zero' = true ∧ zero.outline.text ≠ zero'.outline.text ∧
      (Node.expr (zero.mapFloats Binary64.withPlusZero)).textAt
        = (Node.expr (zero'.mapFloats Binary64.withPlusZero)).textAt ∧
      noNumber.equals noNumber = false := by
  obtain ⟨laws, -⟩ := tree_equality_laws
  intro zero zero' noNumber
  have equal : zero.equals zero' = true := by decide +kernel
  refine ⟨equal, by decide +kernel, laws.dump_eq zero zero' equal, ?_⟩
  rw [← Bool.not_eq_true, laws.refl_iff]
  decide +kernel

end FrontEnd
