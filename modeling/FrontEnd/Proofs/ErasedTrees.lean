/-
Module: FrontEnd.Proofs.ErasedTrees
Layer: Proofs
Purpose: What a dump tells of a tree. A dump leaves out the spans, writes all words that are no
  number alike, and does not tell a built-in type from a named one that has its name; erasing a tree
  removes just these differences, and an erased tree has the same outline.
Imports: FrontEnd.Dump.Ast, FrontEnd.Proofs.DecimalTexts, FrontEnd.Proofs.MaximalMunch
Trusted boundary: none
Main exports: IsIdentifier, TypeExpr.names, Expr.names, FunctionDecl.names, Module.names,
  TypeExpr.erased, Expr.erased, FunctionDecl.erased, Module.erased, Expr.outline_erased,
  FunctionDecl.outline_erased, Module.outline_erased
Open obligations: none
-/
import FrontEnd.Dump.Ast
import FrontEnd.Proofs.DecimalTexts
import FrontEnd.Proofs.MaximalMunch

namespace FrontEnd

/-! ### Names -/

/-- Whether a text could be a name: letters, digits and underscores, and no digit first. Reserved
    words are such texts as well. -/
def IsIdentifier (name : String) : Prop :=
  ∃ c letters, name.toList = c :: letters ∧ Grammar.NameStart c ∧
    ∀ d ∈ letters, Grammar.NamePart d

instance : DecidablePred IsIdentifier := fun name =>
  match spelled : name.toList with
  | [] => .isFalse fun ⟨_, _, spelled', _⟩ => List.cons_ne_nil _ _ (spelled'.symm.trans spelled)
  | c :: letters =>
      decidable_of_iff
        (Lexer.isWordStart c = true ∧ letters.all Lexer.isWordPart = true)
        (by
          simp only [IsIdentifier, spelled, List.cons.injEq, List.all_eq_true,
            Grammar.nameStart_iff, Grammar.namePart_iff]
          constructor
          · rintro ⟨start, inside⟩
            exact ⟨c, letters, ⟨rfl, rfl⟩, start, inside⟩
          · rintro ⟨_, _, ⟨rfl, rfl⟩, start, inside⟩
            exact ⟨start, inside⟩)

mutual

/-- The names in a type. -/
def TypeExpr.names : TypeExpr → List String
  | .builtin _ _ => []
  | .named _ name => [name]
  | .tuple _ items => TypeExpr.listNames items

/-- The names in types. -/
def TypeExpr.listNames : List TypeExpr → List String
  | [] => []
  | item :: items => item.names ++ TypeExpr.listNames items

end

/-- The names in a type that may be missing. -/
def TypeExpr.optionNames : Option TypeExpr → List String
  | none => []
  | some type => type.names

mutual

/-- The names in an expression, those of its types included. -/
def Expr.names : Expr → List String
  | .intLiteral _ _ | .floatLiteral _ _ | .boolLiteral _ _ | .continueLoop _ => []
  | .reference _ name => [name]
  | .unary _ _ operand => operand.names
  | .binary _ _ left right => left.names ++ right.names
  | .call _ callee arguments => callee.names ++ Expr.listNames arguments
  | .block _ body => body.names
  | .conditional _ condition thenBlock otherwise =>
      condition.names ++ (thenBlock.names ++ Expr.optionNames otherwise)
  | .loop _ condition body => condition.names ++ body.names
  | .breakLoop _ value => Expr.optionNames value
termination_by structural tree => tree

/-- The names in expressions. -/
def Expr.listNames : List Expr → List String
  | [] => []
  | item :: items => item.names ++ Expr.listNames items
termination_by structural tree => tree

/-- The names in an expression that may be missing. -/
def Expr.optionNames : Option Expr → List String
  | none => []
  | some value => value.names
termination_by structural tree => tree

/-- The names in a block. -/
def Block.names : Block → List String
  | .mk statements tail => Stmt.listNames statements ++ Expr.optionNames tail
termination_by structural tree => tree

/-- The names in a statement. -/
def Stmt.names : Stmt → List String
  | .expression _ value => value.names
  | .returnValue _ value => Expr.optionNames value
  | .declare _ name type initial _ =>
      name :: (TypeExpr.optionNames type ++ Expr.optionNames initial)
  | .assign _ target value => target.names ++ value.names
termination_by structural tree => tree

/-- The names in statements. -/
def Stmt.listNames : List Stmt → List String
  | [] => []
  | item :: items => item.names ++ Stmt.listNames items
termination_by structural tree => tree

end

/-- The names in a parameter. -/
def Param.names (param : Param) : List String :=
  param.name :: param.type.names

/-- The names in a function. -/
def FunctionDecl.names (function : FunctionDecl) : List String :=
  function.name :: (function.params.flatMap Param.names
    ++ (TypeExpr.optionNames function.returnType
      ++ (function.body.map Block.names).getD []))

/-- The names in a module. -/
def Module.names (module : Module) : List String :=
  module.name :: module.functions.flatMap FunctionDecl.names

/-! ### Erasure -/

mutual

/-- A type without its spans, in which built-in types are named like any other. -/
def TypeExpr.erased : TypeExpr → TypeExpr
  | .builtin _ type => .named .dummy type.name
  | .named _ name => .named .dummy name
  | .tuple _ items => .tuple .dummy (TypeExpr.listErased items)

/-- Types without their spans. -/
def TypeExpr.listErased : List TypeExpr → List TypeExpr
  | [] => []
  | item :: items => item.erased :: TypeExpr.listErased items

end

mutual

/-- An expression without its spans, and with one word for all that are no number. -/
def Expr.erased : Expr → Expr
  | .intLiteral _ value => .intLiteral .dummy value
  | .floatLiteral _ value => .floatLiteral .dummy value.canonical
  | .boolLiteral _ value => .boolLiteral .dummy value
  | .reference _ name => .reference .dummy name
  | .unary _ operator operand => .unary .dummy operator operand.erased
  | .binary _ operator left right => .binary .dummy operator left.erased right.erased
  | .call _ callee arguments => .call .dummy callee.erased (Expr.listErased arguments)
  | .block _ body => .block .dummy body.erased
  | .conditional _ condition thenBlock otherwise =>
      .conditional .dummy condition.erased thenBlock.erased (Expr.optionErased otherwise)
  | .loop _ condition body => .loop .dummy condition.erased body.erased
  | .breakLoop _ value => .breakLoop .dummy (Expr.optionErased value)
  | .continueLoop _ => .continueLoop .dummy
termination_by structural tree => tree

/-- Erased expressions. -/
def Expr.listErased : List Expr → List Expr
  | [] => []
  | item :: items => item.erased :: Expr.listErased items
termination_by structural tree => tree

/-- An erased expression that may be missing. -/
def Expr.optionErased : Option Expr → Option Expr
  | none => none
  | some value => some value.erased
termination_by structural tree => tree

/-- An erased block. -/
def Block.erased : Block → Block
  | .mk statements tail => .mk (Stmt.listErased statements) (Expr.optionErased tail)
termination_by structural tree => tree

/-- An erased statement. -/
def Stmt.erased : Stmt → Stmt
  | .expression _ value => .expression .dummy value.erased
  | .returnValue _ value => .returnValue .dummy (Expr.optionErased value)
  | .declare _ name type initial isMutable =>
      .declare .dummy name (type.map TypeExpr.erased) (Expr.optionErased initial) isMutable
  | .assign _ target value => .assign .dummy target.erased value.erased
termination_by structural tree => tree

/-- Erased statements. -/
def Stmt.listErased : List Stmt → List Stmt
  | [] => []
  | item :: items => item.erased :: Stmt.listErased items
termination_by structural tree => tree

end

/-- An erased parameter. -/
def Param.erased (param : Param) : Param where
  name := param.name
  type := param.type.erased

/-- An erased function. -/
def FunctionDecl.erased (function : FunctionDecl) : FunctionDecl where
  span := .dummy
  name := function.name
  params := function.params.map Param.erased
  returnType := function.returnType.map TypeExpr.erased
  body := function.body.map Block.erased

/-- An erased module. -/
def Module.erased (module : Module) : Module where
  name := module.name
  functions := module.functions.map FunctionDecl.erased

/-! ### Dumps of erased trees -/

mutual

/-- The text of a type is that of the erased one. -/
theorem TypeExpr.text_erased : ∀ type : TypeExpr, type.erased.text = type.text
  | .builtin _ _ => rfl
  | .named _ _ => rfl
  | .tuple _ items => by
      rw [erased, text, text, TypeExpr.listText_erased items]

theorem TypeExpr.listText_erased :
    ∀ items : List TypeExpr,
      TypeExpr.listText (TypeExpr.listErased items) = TypeExpr.listText items
  | [] => rfl
  | [item] => by
      rw [listErased, listErased, listText, listText, TypeExpr.text_erased item]
  | item :: next :: items => by
      have rest := TypeExpr.listText_erased (next :: items)
      rw [listErased] at rest
      rw [listErased, listErased, listText.eq_3 _ _ (List.cons_ne_nil _ _),
        listText.eq_3 _ _ (List.cons_ne_nil _ _), TypeExpr.text_erased item, rest]

end

mutual

/-- The outline of an expression is that of the erased one. -/
theorem Expr.outline_erased : ∀ tree : Expr, tree.erased.outline = tree.outline
  | .intLiteral _ _ | .boolLiteral _ _ | .reference _ _ | .continueLoop _ => rfl
  | .floatLiteral _ value => by
      rw [Expr.erased, Expr.outline, Expr.outline, value.text_canonical]
  | .unary _ _ operand => by
      rw [Expr.erased, Expr.outline, Expr.outline, Expr.outline_erased operand]
  | .binary _ _ left right => by
      rw [Expr.erased, Expr.outline, Expr.outline, Expr.outline_erased left,
        Expr.outline_erased right]
  | .call _ callee arguments => by
      rw [Expr.erased, Expr.outline, Expr.outline, Expr.outline_erased callee,
        Expr.listOutline_erased arguments]
  | .block _ body => by
      rw [Expr.erased, Expr.outline, Expr.outline, Block.outline_erased body]
  | .conditional _ condition thenBlock otherwise => by
      rw [Expr.erased, Expr.outline, Expr.outline, Expr.outline_erased condition,
        Block.outline_erased thenBlock, Expr.optionOutline_erased "Else:" otherwise]
  | .loop _ condition body => by
      rw [Expr.erased, Expr.outline, Expr.outline, Expr.outline_erased condition,
        Block.outline_erased body]
  | .breakLoop _ value => by
      rw [Expr.erased, Expr.outline, Expr.outline, Expr.valueOutline_erased value]

theorem Expr.listOutline_erased :
    ∀ trees : List Expr, Expr.listOutline (Expr.listErased trees) = Expr.listOutline trees
  | [] => rfl
  | item :: items => by
      rw [Expr.listErased, Expr.listOutline, Expr.listOutline, Expr.outline_erased item,
        Expr.listOutline_erased items]

theorem Expr.valueOutline_erased :
    ∀ tree : Option Expr, Expr.valueOutline (Expr.optionErased tree) = Expr.valueOutline tree
  | none => rfl
  | some value => by
      rw [Expr.optionErased, Expr.valueOutline, Expr.valueOutline, Expr.outline_erased value]

theorem Expr.optionOutline_erased (header : String) :
    ∀ tree : Option Expr,
      Expr.optionOutline header (Expr.optionErased tree) = Expr.optionOutline header tree
  | none => rfl
  | some value => by
      rw [Expr.optionErased, Expr.optionOutline, Expr.optionOutline, Expr.outline_erased value]

/-- The outline of a block is that of the erased one. -/
theorem Block.outline_erased : ∀ tree : Block, tree.erased.outline = tree.outline
  | .mk statements tail => by
      rw [Block.erased, Block.outline, Block.outline, Stmt.listOutline_erased statements,
        Expr.optionOutline_erased "Tail:" tail]

/-- The outline of a statement is that of the erased one. -/
theorem Stmt.outline_erased : ∀ tree : Stmt, tree.erased.outline = tree.outline
  | .expression _ value => by
      rw [Stmt.erased, Stmt.outline, Stmt.outline, Expr.outline_erased value]
  | .returnValue _ value => by
      rw [Stmt.erased, Stmt.outline, Stmt.outline, Expr.valueOutline_erased value]
  | .declare _ _ type initial _ => by
      have types : (type.map TypeExpr.erased).map (fun type => ": " ++ type.text)
          = type.map fun type => ": " ++ type.text := by
        rw [Option.map_map]
        simp only [Function.comp_def, TypeExpr.text_erased]
      rw [Stmt.erased, Stmt.outline, Stmt.outline, Expr.valueOutline_erased initial, types]
  | .assign _ target value => by
      rw [Stmt.erased, Stmt.outline, Stmt.outline, Expr.outline_erased target,
        Expr.outline_erased value]

theorem Stmt.listOutline_erased :
    ∀ trees : List Stmt, Stmt.listOutline (Stmt.listErased trees) = Stmt.listOutline trees
  | [] => rfl
  | item :: items => by
      rw [Stmt.listErased, Stmt.listOutline, Stmt.listOutline, Stmt.outline_erased item,
        Stmt.listOutline_erased items]

end

theorem Param.outline_erased (param : Param) : param.erased.outline = param.outline := by
  rw [outline, outline, erased, TypeExpr.text_erased]

/-- The outline of a function is that of the erased one. -/
theorem FunctionDecl.outline_erased (function : FunctionDecl) :
    function.erased.outline = function.outline := by
  simp only [outline, erased, List.map_map, Option.map_map, Function.comp_def,
    Param.outline_erased, TypeExpr.text_erased, Block.outline_erased]

/-- The outline of a module is that of the erased one. -/
theorem Module.outline_erased (module : Module) : module.erased.outline = module.outline := by
  simp only [outline, erased, List.map_map, Function.comp_def, FunctionDecl.outline_erased]

end FrontEnd
