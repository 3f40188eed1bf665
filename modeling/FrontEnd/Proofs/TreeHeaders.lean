/-
Module: FrontEnd.Proofs.TreeHeaders
Layer: Proofs
Purpose: The headers in the outlines of expressions, blocks and statements. The word at the front of
  a header tells what kind of node it is, and the header of a declaration tells its name and its
  type. No header spreads over several lines.
Imports: FrontEnd.Proofs.TypeTexts, FrontEnd.Proofs.OutlineTexts
Trusted boundary: none
Main exports: Outline.label, Expr.label_outline, Stmt.label_outline, Stmt.declare_inj,
  Expr.isClean_of_names, Block.isClean_of_names, Stmt.isClean_of_names
Open obligations: none
-/
import FrontEnd.Proofs.TypeTexts
import FrontEnd.Proofs.OutlineTexts

namespace FrontEnd

/-! ### Headers of nodes -/

/-- The letters that a header begins with. They tell the kind of the node. -/
def Outline.label : Outline → String
  | .node header _ => String.ofList (header.toList.takeWhile Char.isAlpha)

/-- What stands between two texts is told by the whole. -/
theorem Text.enclosed_inj {front back text text' : String} :
    front ++ text ++ back = front ++ text' ++ back ↔ text = text' := by
  rw [String.append_left_inj, String.append_right_inj]

theorem Text.eq_of_toString_eq {number number' : Nat} (same : toString number = toString number') :
    number = number' := by
  rw [Nat.toString_eq_ofList_toDigits, Nat.toString_eq_ofList_toDigits, String.ofList_inj] at same
  have digits := congrArg (fun digits => Nat.ofDigitChars 10 digits 0) same
  simpa only [Nat.ofDigitChars_ten_toDigits] using digits

/-- Whether a text can stand at the front of a header, whatever follows within the line. -/
def Outline.OpensHeader (front : String) : Prop :=
  IsHeader front ∧ front.toList ≠ []

instance : DecidablePred Outline.OpensHeader := fun front =>
  inferInstanceAs (Decidable (Outline.IsHeader front ∧ front.toList ≠ []))

theorem Outline.isHeader_of_front {header front : String} {rest : List Char}
    (split : header.toList = front.toList ++ rest) (opens : OpensHeader front)
    (inside : '\n' ∉ rest) : IsHeader header := by
  obtain ⟨begins, filled⟩ := opens
  obtain ⟨c, letters, spelled⟩ := List.exists_cons_of_ne_nil filled
  refine ⟨?_, ?_⟩
  · rw [split, List.mem_append, not_or]
    exact ⟨begins.1, inside⟩
  · intro first
    rw [split, spelled] at first
    refine begins.2 ?_
    rw [spelled]
    exact first

/-- A header with something in parentheses can stand in a line if that holds no newline. -/
theorem Outline.isHeader_enclosed {front text : String} (opens : OpensHeader front)
    (inside : '\n' ∉ text.toList) : IsHeader (front ++ text ++ ")") := by
  have split : (front ++ text ++ ")").toList = front.toList ++ (text.toList ++ ")".toList) := by
    rw [String.toList_append, String.toList_append, List.append_assoc]
  refine isHeader_of_front split opens ?_
  rw [List.mem_append, not_or]
  exact ⟨inside, by decide⟩

namespace BinaryOperator

/-- An operator is found by its symbol. -/
theorem find?_symbol (operator : BinaryOperator) :
    all.find? (fun other => other.symbol == operator.symbol) = some operator := by
  cases operator <;> decide

theorem symbol_injective {operator operator' : BinaryOperator}
    (same : operator.symbol = operator'.symbol) : operator = operator' := by
  have found := find?_symbol operator
  rw [same, find?_symbol operator'] at found
  exact (Option.some.inj found).symm

end BinaryOperator

namespace UnaryOperator

theorem symbol_injective {operator operator' : UnaryOperator}
    (same : operator.symbol = operator'.symbol) : operator = operator' := by
  cases operator <;> cases operator' <;> simp_all [symbol]

end UnaryOperator

/-! ### Kinds of nodes -/

/-- The word at the front of the header of an expression. -/
def Expr.label : Expr → String
  | .intLiteral _ _ => "IntLiteral"
  | .floatLiteral _ _ => "FloatLiteral"
  | .boolLiteral _ _ => "BoolLiteral"
  | .reference _ _ => "VarRef"
  | .unary _ _ _ => "UnaryExpr"
  | .binary _ _ _ _ => "BinaryExpr"
  | .call _ _ _ => "CallExpr"
  | .block _ _ => "BlockExpr"
  | .conditional _ _ _ _ => "IfExpr"
  | .loop _ _ _ => "WhileExpr"
  | .breakLoop _ _ => "BreakExpr"
  | .continueLoop _ => "ContinueExpr"

/-- The word at the front of the header of a statement. -/
def Stmt.label : Stmt → String
  | .expression _ _ => "ExprStmt"
  | .returnValue _ _ => "ReturnStmt"
  | .declare _ _ _ _ _ => "VarDecl"
  | .assign _ _ _ => "AssignStmt"

theorem Block.label_outline (block : Block) : block.outline.label = "BlockExpr" := by
  cases block
  rfl

theorem Expr.label_outline (tree : Expr) : tree.outline.label = tree.label := by
  cases tree with
  | block _ body =>
      exact body.label_outline
  | _ =>
      simp [outline, label, Outline.leaf, Outline.label, String.toList_append]

theorem Stmt.label_outline (tree : Stmt) : tree.outline.label = tree.label := by
  cases tree with
  | _ =>
      simp [outline, label, Outline.label, String.toList_append]

/-- Expressions with one outline are of one kind. -/
theorem Expr.label_eq {tree tree' : Expr} (same : tree.outline = tree'.outline) :
    tree.label = tree'.label := by
  rw [← label_outline, same, label_outline]

/-- Statements with one outline are of one kind. -/
theorem Stmt.label_eq {tree tree' : Stmt} (same : tree.outline = tree'.outline) :
    tree.label = tree'.label := by
  rw [← label_outline, same, label_outline]

/-! ### Declarations of variables -/

/-- What stands behind the name that a declaration introduces. -/
def Stmt.typeClause : Option TypeExpr → List Char
  | none => [')']
  | some type => ':' :: ' ' :: type.text.toList ++ [')']

namespace Stmt

variable {name name' : String} {type type' : Option TypeExpr} {isMutable isMutable' : Bool}

theorem head_typeClause (type : Option TypeExpr) :
    ∀ c ∈ (typeClause type).head?, Lexer.isWordPart c = false ∧ c ≠ ' ' := by
  cases type with
  | none =>
      rintro c ⟨⟩
      decide
  | some type =>
      rintro c ⟨⟩
      decide

/-- What stands behind the name tells the type, up to what erasing removes. -/
theorem typeClause_inj (proper : ∀ name ∈ TypeExpr.optionNames type, IsIdentifier name)
    (proper' : ∀ name ∈ TypeExpr.optionNames type', IsIdentifier name)
    (same : typeClause type = typeClause type') :
    type.map TypeExpr.erased = type'.map TypeExpr.erased := by
  have stop : ∀ c ∈ [')'].head?, Lexer.isWordPart c = false := by
    simp
    decide
  cases type with
  | none =>
      cases type' with
      | none =>
          rfl
      | some type' =>
          exact absurd (List.cons.inj same).1 (by decide)
  | some type =>
      cases type' with
      | none =>
          exact absurd (List.cons.inj same).1 (by decide)
      | some type' =>
          have texts := (List.cons.inj (List.cons.inj same).2).2
          have erased := (TypeExpr.text_append_inj proper proper' stop stop texts).1
          rw [Option.map_some, Option.map_some, erased]

/-- The mark of a variable that can be assigned to. -/
def mutability (isMutable : Bool) : List Char :=
  if isMutable then ['m', 'u', 't', ' '] else []

/-- A name is not taken for the mark, because no blank stands behind it. -/
theorem mutability_inj (isName : IsIdentifier name) (isName' : IsIdentifier name')
    (same : mutability isMutable ++ (name.toList ++ typeClause type)
      = mutability isMutable' ++ (name'.toList ++ typeClause type')) :
    isMutable = isMutable' ∧ name.toList ++ typeClause type = name'.toList ++ typeClause type' := by
  have clash {name : String} {type : Option TypeExpr} {rest : List Char}
      (isName : IsIdentifier name) :
      ['m', 'u', 't'] ++ ' ' :: rest ≠ name.toList ++ typeClause type := by
    intro same
    have mark : ∀ c ∈ ['m', 'u', 't'], Lexer.isWordPart c = true :=
      List.all_eq_true.mp rfl
    have blank : ∀ c ∈ (' ' :: rest).head?, Lexer.isWordPart c = false := by
      rintro c ⟨⟩
      rfl
    obtain ⟨-, rests⟩ := Text.append_inj_of_stop mark isName.isWordPart blank
      (fun c first => (head_typeClause type c first).1) same
    exact (head_typeClause type ' ' (by rw [← rests]; rfl)).2 rfl
  cases isMutable with
  | true =>
      cases isMutable' with
      | true =>
          exact ⟨rfl, List.append_cancel_left same⟩
      | false =>
          exact absurd same (clash isName')
  | false =>
      cases isMutable' with
      | true =>
          exact absurd same.symm (clash isName)
      | false =>
          exact ⟨rfl, same⟩

/-- The header of a declaration, as characters. -/
theorem toList_declare (name : String) (type : Option TypeExpr) (isMutable : Bool) :
    ("VarDecl(" ++ (if isMutable then "mut " else "") ++ name
        ++ (type.map fun type => ": " ++ type.text).getD "" ++ ")").toList =
      "VarDecl(".toList ++ (mutability isMutable ++ (name.toList ++ typeClause type)) := by
  cases isMutable <;> cases type <;> simp [mutability, typeClause, String.toList_append]

/-- The header of a declaration tells all of it, up to what erasing removes. -/
theorem declare_inj (isName : IsIdentifier name) (isName' : IsIdentifier name')
    (proper : ∀ name ∈ TypeExpr.optionNames type, IsIdentifier name)
    (proper' : ∀ name ∈ TypeExpr.optionNames type', IsIdentifier name)
    (same : "VarDecl(" ++ (if isMutable then "mut " else "") ++ name
        ++ (type.map fun type => ": " ++ type.text).getD "" ++ ")"
      = "VarDecl(" ++ (if isMutable' then "mut " else "") ++ name'
        ++ (type'.map fun type => ": " ++ type.text).getD "" ++ ")") :
    name = name' ∧ type.map TypeExpr.erased = type'.map TypeExpr.erased ∧
      isMutable = isMutable' := by
  have letters := congrArg String.toList same
  rw [toList_declare, toList_declare] at letters
  obtain ⟨marks, behind⟩ := mutability_inj isName isName' (List.append_cancel_left letters)
  obtain ⟨names, clauses⟩ := isName.append_inj isName'
    (fun c first => (head_typeClause type c first).1)
    (fun c first => (head_typeClause type' c first).1) behind
  exact ⟨names, typeClause_inj proper proper' clauses, marks⟩

end Stmt

/-! ### Lines -/

theorem BinaryOperator.newline_not_mem_symbol (operator : BinaryOperator) :
    '\n' ∉ operator.symbol.toList := by
  cases operator <;> decide

theorem UnaryOperator.newline_not_mem_symbol (operator : UnaryOperator) :
    '\n' ∉ operator.symbol.toList := by
  cases operator <;> decide

/-- The header of a declaration can stand in a line. -/
theorem Stmt.isHeader_declare {name : String} {type : Option TypeExpr} (isMutable : Bool)
    (isName : '\n' ∉ name.toList)
    (proper : ∀ name ∈ TypeExpr.optionNames type, '\n' ∉ name.toList) :
    Outline.IsHeader ("VarDecl(" ++ (if isMutable then "mut " else "") ++ name
      ++ (type.map fun type => ": " ++ type.text).getD "" ++ ")") := by
  have mark_inside : '\n' ∉ mutability isMutable := by
    cases isMutable <;> decide
  have clause_inside : '\n' ∉ typeClause type := by
    cases type with
    | none =>
        decide
    | some type =>
        have inside := TypeExpr.newline_not_mem_text proper
        simp [typeClause, inside]
  refine Outline.isHeader_of_front (toList_declare name type isMutable) (by decide) ?_
  rw [List.mem_append, List.mem_append, not_or, not_or]
  exact ⟨mark_inside, isName, clause_inside⟩

mutual

/-- The headers of an expression can stand in lines. -/
theorem Expr.isClean_of_names :
    ∀ {tree : Expr}, (∀ name ∈ tree.names, '\n' ∉ name.toList) → tree.outline.IsClean
  | .intLiteral _ value, _ => by
      rw [Expr.outline, Outline.isClean_leaf]
      exact Outline.isHeader_enclosed (by decide) (Text.newline_not_mem_toString value.toNat)
  | .floatLiteral _ value, _ => by
      rw [Expr.outline, Outline.isClean_leaf]
      exact Outline.isHeader_enclosed (by decide) value.newline_not_mem_text
  | .boolLiteral _ value, _ => by
      rw [Expr.outline, Outline.isClean_leaf]
      exact Outline.isHeader_enclosed (by decide) (by cases value <;> decide)
  | .reference _ name, proper => by
      rw [Expr.outline, Outline.isClean_leaf]
      exact Outline.isHeader_enclosed (by decide) (proper name (List.mem_singleton_self name))
  | .unary _ operator operand, proper => by
      rw [Expr.outline, Outline.isClean_node, Outline.areClean_cons]
      exact ⟨Outline.isHeader_enclosed (by decide) operator.newline_not_mem_symbol,
        Expr.isClean_of_names proper, Outline.areClean_nil⟩
  | .binary _ operator left right, proper => by
      rw [Expr.names, List.forall_mem_append] at proper
      rw [Expr.outline, Outline.isClean_node, Outline.areClean_cons, Outline.areClean_cons]
      exact ⟨Outline.isHeader_enclosed (by decide) operator.newline_not_mem_symbol,
        Expr.isClean_of_names proper.1, Expr.isClean_of_names proper.2, Outline.areClean_nil⟩
  | .call _ callee arguments, proper => by
      rw [Expr.names, List.forall_mem_append] at proper
      have first := Expr.isClean_of_names proper.1
      have others := Expr.areClean_listOutline proper.2
      simp only [Expr.outline, Outline.isClean_node, Outline.areClean_cons, Outline.areClean_nil,
        first, others, and_true]
      decide
  | .block _ body, proper => by
      rw [Expr.outline]
      exact Block.isClean_of_names proper
  | .conditional _ condition thenBlock otherwise, proper => by
      rw [Expr.names, List.forall_mem_append, List.forall_mem_append] at proper
      have first := Expr.isClean_of_names proper.1
      have second := Block.isClean_of_names proper.2.1
      have third : Outline.AreClean (Expr.optionOutline "Else:" otherwise) :=
        Expr.areClean_optionOutline (by decide) proper.2.2
      simp only [Expr.outline, Outline.isClean_node, Outline.areClean_append,
        Outline.areClean_cons, Outline.areClean_nil, first, second, third, and_true]
      decide
  | .loop _ condition body, proper => by
      rw [Expr.names, List.forall_mem_append] at proper
      have first := Expr.isClean_of_names proper.1
      have second := Block.isClean_of_names proper.2
      simp only [Expr.outline, Outline.isClean_node, Outline.areClean_cons, Outline.areClean_nil,
        first, second, and_true]
      decide
  | .breakLoop _ value, proper => by
      rw [Expr.outline, Outline.isClean_node]
      exact ⟨by decide, Expr.areClean_valueOutline proper⟩
  | .continueLoop _, _ => by
      rw [Expr.outline, Outline.isClean_leaf]
      decide

theorem Expr.areClean_listOutline :
    ∀ {trees : List Expr}, (∀ name ∈ Expr.listNames trees, '\n' ∉ name.toList) →
      Outline.AreClean (Expr.listOutline trees)
  | [], _ => Outline.areClean_nil
  | _ :: _, proper => by
      rw [Expr.listNames, List.forall_mem_append] at proper
      rw [Expr.listOutline, Outline.areClean_cons]
      exact ⟨Expr.isClean_of_names proper.1, Expr.areClean_listOutline proper.2⟩

theorem Expr.areClean_valueOutline :
    ∀ {tree : Option Expr}, (∀ name ∈ Expr.optionNames tree, '\n' ∉ name.toList) →
      Outline.AreClean (Expr.valueOutline tree)
  | none, _ => Outline.areClean_nil
  | some _, proper => by
      rw [Expr.valueOutline, Outline.areClean_cons]
      exact ⟨Expr.isClean_of_names proper, Outline.areClean_nil⟩

theorem Expr.areClean_optionOutline {header : String} (clean : Outline.IsHeader header) :
    ∀ {tree : Option Expr}, (∀ name ∈ Expr.optionNames tree, '\n' ∉ name.toList) →
      Outline.AreClean (Expr.optionOutline header tree)
  | none, _ => Outline.areClean_nil
  | some _, proper => by
      rw [Expr.optionOutline, Outline.areClean_cons, Outline.isClean_node, Outline.areClean_cons]
      exact ⟨⟨clean, Expr.isClean_of_names proper, Outline.areClean_nil⟩, Outline.areClean_nil⟩

/-- The headers of a block can stand in lines. -/
theorem Block.isClean_of_names :
    ∀ {tree : Block}, (∀ name ∈ tree.names, '\n' ∉ name.toList) → tree.outline.IsClean
  | .mk statements tail, proper => by
      rw [Block.names, List.forall_mem_append] at proper
      rw [Block.outline, Outline.isClean_node, Outline.areClean_append]
      exact ⟨by decide, Stmt.areClean_listOutline proper.1,
        Expr.areClean_optionOutline (by decide) proper.2⟩

/-- The headers of a statement can stand in lines. -/
theorem Stmt.isClean_of_names :
    ∀ {tree : Stmt}, (∀ name ∈ tree.names, '\n' ∉ name.toList) → tree.outline.IsClean
  | .expression _ value, proper => by
      rw [Stmt.outline, Outline.isClean_node, Outline.areClean_cons]
      exact ⟨by decide, Expr.isClean_of_names proper, Outline.areClean_nil⟩
  | .returnValue _ value, proper => by
      rw [Stmt.outline, Outline.isClean_node]
      exact ⟨by decide, Expr.areClean_valueOutline proper⟩
  | .declare _ name type initial isMutable, proper => by
      rw [Stmt.names, List.forall_mem_cons, List.forall_mem_append] at proper
      rw [Stmt.outline, Outline.isClean_node]
      exact ⟨Stmt.isHeader_declare isMutable proper.1 proper.2.1,
        Expr.areClean_valueOutline proper.2.2⟩
  | .assign _ target value, proper => by
      rw [Stmt.names, List.forall_mem_append] at proper
      have first := Expr.isClean_of_names proper.1
      have second := Expr.isClean_of_names proper.2
      simp only [Stmt.outline, Outline.isClean_node, Outline.areClean_cons, Outline.areClean_nil,
        first, second, and_true]
      decide

theorem Stmt.areClean_listOutline :
    ∀ {trees : List Stmt}, (∀ name ∈ Stmt.listNames trees, '\n' ∉ name.toList) →
      Outline.AreClean (Stmt.listOutline trees)
  | [], _ => Outline.areClean_nil
  | _ :: _, proper => by
      rw [Stmt.listNames, List.forall_mem_append] at proper
      rw [Stmt.listOutline, Outline.areClean_cons]
      exact ⟨Stmt.isClean_of_names proper.1, Stmt.areClean_listOutline proper.2⟩

end

end FrontEnd
