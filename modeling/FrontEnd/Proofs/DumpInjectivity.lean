/-
Module: FrontEnd.Proofs.DumpInjectivity
Layer: Proofs
Purpose: What two trees with one dump have in common. Trees whose names could be written in a
  program have one dump if and only if they are equal when they are erased: without their spans,
  with one word for all that are no number, and with built-in types named like any other.
Imports: FrontEnd.Proofs.TreeHeaders
Trusted boundary: none
Main exports: Expr.erased_eq_of_outline_eq, FunctionDecl.erased_eq_of_outline_eq,
  Module.erased_eq_of_outline_eq, dump_eq_iff_erased_eq
Open obligations: none
-/
import FrontEnd.Proofs.TreeHeaders

namespace FrontEnd

/-! ### Expressions, blocks and statements -/

theorem Outline.leaf_inj {header header' : String} :
    leaf header = leaf header' ↔ header = header' := by
  rw [leaf, leaf, node.injEq, and_iff_left rfl]

/-- Sections with one header hold the same outline or are both missing. -/
theorem Expr.valueOutline_eq {header : String} {tree tree' : Option Expr}
    (same : optionOutline header tree = optionOutline header tree') :
    valueOutline tree = valueOutline tree' := by
  cases tree with
  | none =>
      cases tree' with
      | none => rfl
      | some value' => exact absurd same nofun
  | some value =>
      cases tree' with
      | none => exact absurd same nofun
      | some value' =>
          rw [optionOutline, optionOutline, List.cons.injEq, Outline.node.injEq] at same
          exact same.1.2

/-- The statements of a block end where its last section begins. -/
theorem Stmt.listOutline_append_inj {statements statements' : List Stmt}
    {tail tail' : Option Expr}
    (same : listOutline statements ++ Expr.optionOutline "Tail:" tail
      = listOutline statements' ++ Expr.optionOutline "Tail:" tail') :
    listOutline statements = listOutline statements' ∧
      Expr.optionOutline "Tail:" tail = Expr.optionOutline "Tail:" tail' := by
  have inside (statements : List Stmt) :
      ∀ outline ∈ listOutline statements, (outline.label != "Tail") = true := by
    induction statements with
    | nil =>
        exact List.forall_mem_nil _
    | cons item items ih =>
        rw [listOutline, List.forall_mem_cons, label_outline]
        refine ⟨?_, ih⟩
        cases item <;> rfl
  have stop (tail : Option Expr) :
      ∀ outline ∈ (Expr.optionOutline "Tail:" tail).head?, (outline.label != "Tail") = false := by
    cases tail with
    | none =>
        rintro outline ⟨⟩
    | some value =>
        rintro outline ⟨⟩
        rfl
  exact Text.append_inj_of_stop (inside statements) (inside statements') (stop tail) (stop tail')
    same

mutual

/-- The outline of an expression tells the expression, up to what erasing removes. -/
theorem Expr.erased_eq_of_outline_eq :
    ∀ {tree tree' : Expr}, (∀ name ∈ tree.names, IsIdentifier name) →
      (∀ name ∈ tree'.names, IsIdentifier name) → tree.outline = tree'.outline →
        tree.erased = tree'.erased
  | .intLiteral _ value, tree', _, _, same => by
      have labels := Expr.label_eq same
      cases tree' with
      | intLiteral _ value' =>
          rw [Expr.outline, Expr.outline, Outline.leaf_inj, Text.enclosed_inj] at same
          rw [Expr.erased, Expr.erased, UInt64.toNat_inj.mp (Text.eq_of_toString_eq same)]
      | _ => simp [Expr.label] at labels
  | .floatLiteral _ value, tree', _, _, same => by
      have labels := Expr.label_eq same
      cases tree' with
      | floatLiteral _ value' =>
          rw [Expr.outline, Expr.outline, Outline.leaf_inj, Text.enclosed_inj] at same
          rw [Expr.erased, Expr.erased, Binary64.text_eq_iff.mp same]
      | _ => simp [Expr.label] at labels
  | .boolLiteral _ value, tree', _, _, same => by
      have labels := Expr.label_eq same
      cases tree' with
      | boolLiteral _ value' =>
          rw [Expr.outline, Expr.outline, Outline.leaf_inj, Text.enclosed_inj] at same
          have values : value = value' := by
            cases value <;> cases value' <;> simp_all
          rw [Expr.erased, Expr.erased, values]
      | _ => simp [Expr.label] at labels
  | .reference _ name, tree', _, _, same => by
      have labels := Expr.label_eq same
      cases tree' with
      | reference _ name' =>
          rw [Expr.outline, Expr.outline, Outline.leaf_inj, Text.enclosed_inj] at same
          rw [Expr.erased, Expr.erased, same]
      | _ => simp [Expr.label] at labels
  | .unary _ operator operand, tree', proper, proper', same => by
      have labels := Expr.label_eq same
      cases tree' with
      | unary _ operator' operand' =>
          rw [Expr.names] at proper proper'
          rw [Expr.outline, Expr.outline, Outline.node.injEq, Text.enclosed_inj,
            List.cons.injEq] at same
          rw [Expr.erased, Expr.erased, UnaryOperator.symbol_injective same.1,
            Expr.erased_eq_of_outline_eq proper proper' same.2.1]
      | _ => simp [Expr.label] at labels
  | .binary _ operator left right, tree', proper, proper', same => by
      have labels := Expr.label_eq same
      cases tree' with
      | binary _ operator' left' right' =>
          rw [Expr.names, List.forall_mem_append] at proper proper'
          rw [Expr.outline, Expr.outline, Outline.node.injEq, Text.enclosed_inj, List.cons.injEq,
            List.cons.injEq] at same
          rw [Expr.erased, Expr.erased, BinaryOperator.symbol_injective same.1,
            Expr.erased_eq_of_outline_eq proper.1 proper'.1 same.2.1,
            Expr.erased_eq_of_outline_eq proper.2 proper'.2 same.2.2.1]
      | _ => simp [Expr.label] at labels
  | .call _ callee arguments, tree', proper, proper', same => by
      have labels := Expr.label_eq same
      cases tree' with
      | call _ callee' arguments' =>
          rw [Expr.names, List.forall_mem_append] at proper proper'
          simp only [Expr.outline, Outline.node.injEq, List.cons.injEq, true_and, and_true] at same
          rw [Expr.erased, Expr.erased, Expr.erased_eq_of_outline_eq proper.1 proper'.1 same.1,
            Expr.listErased_eq_of_listOutline_eq proper.2 proper'.2 same.2]
      | _ => simp [Expr.label] at labels
  | .block _ body, tree', proper, proper', same => by
      have labels := Expr.label_eq same
      cases tree' with
      | block _ body' =>
          rw [Expr.outline, Expr.outline] at same
          rw [Expr.erased, Expr.erased, Block.erased_eq_of_outline_eq proper proper' same]
      | _ => simp [Expr.label] at labels
  | .conditional _ condition thenBlock otherwise, tree', proper, proper', same => by
      have labels := Expr.label_eq same
      cases tree' with
      | conditional _ condition' thenBlock' otherwise' =>
          rw [Expr.names, List.forall_mem_append, List.forall_mem_append] at proper proper'
          simp only [Expr.outline, Outline.node.injEq, List.cons_append, List.nil_append,
            List.cons.injEq, true_and, and_true] at same
          rw [Expr.erased, Expr.erased, Expr.erased_eq_of_outline_eq proper.1 proper'.1 same.1,
            Block.erased_eq_of_outline_eq proper.2.1 proper'.2.1 same.2.1,
            Expr.optionErased_eq_of_valueOutline_eq proper.2.2 proper'.2.2
              (Expr.valueOutline_eq same.2.2)]
      | _ => simp [Expr.label] at labels
  | .loop _ condition body, tree', proper, proper', same => by
      have labels := Expr.label_eq same
      cases tree' with
      | loop _ condition' body' =>
          rw [Expr.names, List.forall_mem_append] at proper proper'
          simp only [Expr.outline, Outline.node.injEq, List.cons.injEq, true_and, and_true] at same
          rw [Expr.erased, Expr.erased, Expr.erased_eq_of_outline_eq proper.1 proper'.1 same.1,
            Block.erased_eq_of_outline_eq proper.2 proper'.2 same.2]
      | _ => simp [Expr.label] at labels
  | .breakLoop _ value, tree', proper, proper', same => by
      have labels := Expr.label_eq same
      cases tree' with
      | breakLoop _ value' =>
          rw [Expr.outline, Expr.outline, Outline.node.injEq] at same
          rw [Expr.erased, Expr.erased,
            Expr.optionErased_eq_of_valueOutline_eq proper proper' same.2]
      | _ => simp [Expr.label] at labels
  | .continueLoop _, tree', _, _, same => by
      have labels := Expr.label_eq same
      cases tree' with
      | continueLoop _ => rfl
      | _ => simp [Expr.label] at labels

theorem Expr.listErased_eq_of_listOutline_eq :
    ∀ {trees trees' : List Expr}, (∀ name ∈ Expr.listNames trees, IsIdentifier name) →
      (∀ name ∈ Expr.listNames trees', IsIdentifier name) →
        Expr.listOutline trees = Expr.listOutline trees' →
          Expr.listErased trees = Expr.listErased trees'
  | [], [], _, _, _ => rfl
  | [], _ :: _, _, _, same => absurd same nofun
  | _ :: _, [], _, _, same => absurd same nofun
  | item :: items, item' :: items', proper, proper', same => by
      rw [Expr.listNames, List.forall_mem_append] at proper proper'
      rw [Expr.listOutline, Expr.listOutline, List.cons.injEq] at same
      rw [Expr.listErased, Expr.listErased,
        Expr.erased_eq_of_outline_eq proper.1 proper'.1 same.1,
        Expr.listErased_eq_of_listOutline_eq proper.2 proper'.2 same.2]

theorem Expr.optionErased_eq_of_valueOutline_eq :
    ∀ {tree tree' : Option Expr}, (∀ name ∈ Expr.optionNames tree, IsIdentifier name) →
      (∀ name ∈ Expr.optionNames tree', IsIdentifier name) →
        Expr.valueOutline tree = Expr.valueOutline tree' →
          Expr.optionErased tree = Expr.optionErased tree'
  | none, none, _, _, _ => rfl
  | none, some _, _, _, same => absurd same nofun
  | some _, none, _, _, same => absurd same nofun
  | some value, some value', proper, proper', same => by
      rw [Expr.valueOutline, Expr.valueOutline, List.cons.injEq] at same
      rw [Expr.optionErased, Expr.optionErased, Expr.erased_eq_of_outline_eq proper proper' same.1]

/-- The outline of a block tells the block, up to what erasing removes. -/
theorem Block.erased_eq_of_outline_eq :
    ∀ {tree tree' : Block}, (∀ name ∈ tree.names, IsIdentifier name) →
      (∀ name ∈ tree'.names, IsIdentifier name) → tree.outline = tree'.outline →
        tree.erased = tree'.erased
  | .mk statements tail, .mk statements' tail', proper, proper', same => by
      rw [Block.names, List.forall_mem_append] at proper proper'
      rw [Block.outline, Block.outline, Outline.node.injEq] at same
      obtain ⟨items, tails⟩ := Stmt.listOutline_append_inj same.2
      rw [Block.erased, Block.erased,
        Stmt.listErased_eq_of_listOutline_eq proper.1 proper'.1 items,
        Expr.optionErased_eq_of_valueOutline_eq proper.2 proper'.2 (Expr.valueOutline_eq tails)]

/-- The outline of a statement tells the statement, up to what erasing removes. -/
theorem Stmt.erased_eq_of_outline_eq :
    ∀ {tree tree' : Stmt}, (∀ name ∈ tree.names, IsIdentifier name) →
      (∀ name ∈ tree'.names, IsIdentifier name) → tree.outline = tree'.outline →
        tree.erased = tree'.erased
  | .expression _ value, tree', proper, proper', same => by
      have labels := Stmt.label_eq same
      cases tree' with
      | expression _ value' =>
          rw [Stmt.outline, Stmt.outline, Outline.node.injEq, List.cons.injEq] at same
          rw [Stmt.erased, Stmt.erased, Expr.erased_eq_of_outline_eq proper proper' same.2.1]
      | _ => simp [Stmt.label] at labels
  | .returnValue _ value, tree', proper, proper', same => by
      have labels := Stmt.label_eq same
      cases tree' with
      | returnValue _ value' =>
          rw [Stmt.outline, Stmt.outline, Outline.node.injEq] at same
          rw [Stmt.erased, Stmt.erased,
            Expr.optionErased_eq_of_valueOutline_eq proper proper' same.2]
      | _ => simp [Stmt.label] at labels
  | .declare _ name type initial isMutable, tree', proper, proper', same => by
      have labels := Stmt.label_eq same
      cases tree' with
      | declare _ name' type' initial' isMutable' =>
          rw [Stmt.names, List.forall_mem_cons, List.forall_mem_append] at proper proper'
          rw [Stmt.outline, Stmt.outline, Outline.node.injEq] at same
          obtain ⟨names, types, marks⟩ :=
            Stmt.declare_inj proper.1 proper'.1 proper.2.1 proper'.2.1 same.1
          rw [Stmt.erased, Stmt.erased, names, types, marks,
            Expr.optionErased_eq_of_valueOutline_eq proper.2.2 proper'.2.2 same.2]
      | _ => simp [Stmt.label] at labels
  | .assign _ target value, tree', proper, proper', same => by
      have labels := Stmt.label_eq same
      cases tree' with
      | assign _ target' value' =>
          rw [Stmt.names, List.forall_mem_append] at proper proper'
          simp only [Stmt.outline, Outline.node.injEq, List.cons.injEq, true_and, and_true] at same
          rw [Stmt.erased, Stmt.erased, Expr.erased_eq_of_outline_eq proper.1 proper'.1 same.1,
            Expr.erased_eq_of_outline_eq proper.2 proper'.2 same.2]
      | _ => simp [Stmt.label] at labels

theorem Stmt.listErased_eq_of_listOutline_eq :
    ∀ {trees trees' : List Stmt}, (∀ name ∈ Stmt.listNames trees, IsIdentifier name) →
      (∀ name ∈ Stmt.listNames trees', IsIdentifier name) →
        Stmt.listOutline trees = Stmt.listOutline trees' →
          Stmt.listErased trees = Stmt.listErased trees'
  | [], [], _, _, _ => rfl
  | [], _ :: _, _, _, same => absurd same nofun
  | _ :: _, [], _, _, same => absurd same nofun
  | item :: items, item' :: items', proper, proper', same => by
      rw [Stmt.listNames, List.forall_mem_append] at proper proper'
      rw [Stmt.listOutline, Stmt.listOutline, List.cons.injEq] at same
      rw [Stmt.listErased, Stmt.listErased,
        Stmt.erased_eq_of_outline_eq proper.1 proper'.1 same.1,
        Stmt.listErased_eq_of_listOutline_eq proper.2 proper'.2 same.2]

end

/-! ### Functions and modules -/

/-- The header of a parameter tells its name and its type, up to what erasing removes. -/
theorem Param.erased_eq_of_outline_eq {param param' : Param}
    (proper : ∀ name ∈ param.names, IsIdentifier name)
    (proper' : ∀ name ∈ param'.names, IsIdentifier name) (same : param.outline = param'.outline) :
    param.erased = param'.erased := by
  have colon (type : TypeExpr) :
      ∀ c ∈ (": ".toList ++ (type.text.toList ++ [')'])).head?, Lexer.isWordPart c = false := by
    rintro c ⟨⟩
    rfl
  have stop : ∀ c ∈ [')'].head?, Lexer.isWordPart c = false := by
    rintro c ⟨⟩
    rfl
  rw [names, List.forall_mem_cons] at proper proper'
  rw [outline, outline, Outline.leaf_inj] at same
  have letters := congrArg String.toList same
  simp only [String.toList_append, List.append_assoc] at letters
  obtain ⟨names, behind⟩ := proper.1.append_inj proper'.1 (colon param.type) (colon param'.type)
    (List.append_cancel_left letters)
  obtain ⟨types, -⟩ := TypeExpr.text_append_inj proper.2 proper'.2 stop stop
    (List.append_cancel_left behind)
  rw [erased, erased, names, types]

/-- The header of a parameter can stand in a line. -/
theorem Param.isClean_of_names {param : Param} (proper : ∀ name ∈ param.names, '\n' ∉ name.toList) :
    param.outline.IsClean := by
  rw [names, List.forall_mem_cons] at proper
  have name_inside := proper.1
  have type_inside := TypeExpr.newline_not_mem_text proper.2
  have split : ("Param(" ++ param.name ++ ": " ++ param.type.text ++ ")").toList
      = "Param(".toList ++ (param.name.toList ++ (": ".toList ++ (param.type.text.toList ++ [')'])))
      := by
    simp only [String.toList_append, List.append_assoc]
    rfl
  rw [outline, Outline.isClean_leaf]
  refine Outline.isHeader_of_front split (by decide) ?_
  simp only [List.mem_append, not_or]
  exact ⟨name_inside, by decide, type_inside, by decide⟩

theorem Param.label_outline (param : Param) : param.outline.label = "Param" := by
  simp [outline, Outline.leaf, Outline.label, String.toList_append]

/-- Lists whose items are told by what they are mapped to are told by what they are mapped to. -/
theorem map_eq_of_map_eq {α β γ : Type} {f : α → β} {g : α → γ} {proper : α → Prop}
    (told : ∀ {a b : α}, proper a → proper b → f a = f b → g a = g b) {as bs : List α}
    (properAs : ∀ a ∈ as, proper a) (properBs : ∀ b ∈ bs, proper b) (same : as.map f = bs.map f) :
    as.map g = bs.map g := by
  induction as generalizing bs with
  | nil =>
      rw [List.map_nil, eq_comm, List.map_eq_nil_iff] at same
      rw [same]
  | cons a as ih =>
      cases bs with
      | nil =>
          exact absurd same nofun
      | cons b bs =>
          rw [List.forall_mem_cons] at properAs properBs
          rw [List.map_cons, List.map_cons, List.cons.injEq] at same
          rw [List.map_cons, List.map_cons, told properAs.1 properBs.1 same.1,
            ih properAs.2 properBs.2 same.2]

namespace FunctionDecl

/-- The outline of a return type that may be missing. -/
def returnOutline (type : Option TypeExpr) : List Outline :=
  (type.map fun type => Outline.leaf ("ReturnType: " ++ type.text)).toList

/-- The outline of a body that may be missing. -/
def bodyOutline (body : Option Block) : List Outline :=
  (body.map Block.outline).toList

theorem outline_eq (function : FunctionDecl) :
    function.outline = .node ("FunctionDecl(" ++ function.name ++ ")")
      (function.params.map Param.outline
        ++ (returnOutline function.returnType ++ bodyOutline function.body)) := by
  rw [outline, List.append_assoc, returnOutline, bodyOutline]

theorem label_of_mem_returnOutline {type : Option TypeExpr} :
    ∀ outline ∈ returnOutline type, outline.label = "ReturnType" := by
  cases type with
  | none =>
      exact List.forall_mem_nil _
  | some type =>
      intro outline member
      obtain rfl := List.mem_singleton.mp member
      simp [Outline.leaf, Outline.label, String.toList_append]

theorem label_of_mem_bodyOutline {body : Option Block} :
    ∀ outline ∈ bodyOutline body, outline.label = "BlockExpr" := by
  cases body with
  | none =>
      exact List.forall_mem_nil _
  | some body =>
      intro outline member
      obtain rfl := List.mem_singleton.mp member
      exact body.label_outline

/-- The labels of its children tell which of them are parameters, the return type and the body. -/
theorem children_inj {params params' : List Param} {type type' : Option TypeExpr}
    {body body' : Option Block}
    (same : params.map Param.outline ++ (returnOutline type ++ bodyOutline body)
      = params'.map Param.outline ++ (returnOutline type' ++ bodyOutline body')) :
    params.map Param.outline = params'.map Param.outline ∧
      returnOutline type = returnOutline type' ∧ bodyOutline body = bodyOutline body' := by
  have inside (params : List Param) :
      ∀ outline ∈ params.map Param.outline, (outline.label == "Param") = true := by
    intro outline member
    obtain ⟨param, -, rfl⟩ := List.mem_map.mp member
    rw [param.label_outline]
    rfl
  have behind (type : Option TypeExpr) (body : Option Block) :
      ∀ outline ∈ (returnOutline type ++ bodyOutline body).head?,
        (outline.label == "Param") = false := by
    intro outline first
    rcases List.mem_append.mp (List.mem_of_mem_head? first) with member | member
    · rw [label_of_mem_returnOutline outline member]
      rfl
    · rw [label_of_mem_bodyOutline outline member]
      rfl
  have returns (type : Option TypeExpr) :
      ∀ outline ∈ returnOutline type, (outline.label == "ReturnType") = true := by
    intro outline member
    rw [label_of_mem_returnOutline outline member]
    rfl
  have bodies (body : Option Block) :
      ∀ outline ∈ (bodyOutline body).head?, (outline.label == "ReturnType") = false := by
    intro outline first
    rw [label_of_mem_bodyOutline outline (List.mem_of_mem_head? first)]
    rfl
  obtain ⟨params, rest⟩ := Text.append_inj_of_stop (inside params) (inside params')
    (behind type body) (behind type' body') same
  exact ⟨params, Text.append_inj_of_stop (returns type) (returns type') (bodies body)
    (bodies body') rest⟩

theorem returnType_eq {type type' : Option TypeExpr}
    (proper : ∀ name ∈ TypeExpr.optionNames type, IsIdentifier name)
    (proper' : ∀ name ∈ TypeExpr.optionNames type', IsIdentifier name)
    (same : returnOutline type = returnOutline type') :
    type.map TypeExpr.erased = type'.map TypeExpr.erased := by
  cases type with
  | none =>
      cases type' with
      | none => rfl
      | some type' => exact absurd same nofun
  | some type =>
      cases type' with
      | none => exact absurd same nofun
      | some type' =>
          have header := Outline.leaf_inj.mp (List.cons.inj same).1
          rw [String.append_right_inj] at header
          rw [Option.map_some, Option.map_some,
            TypeExpr.erased_eq_of_text_eq proper proper' header]

theorem body_eq {body body' : Option Block}
    (proper : ∀ name ∈ (body.map Block.names).getD [], IsIdentifier name)
    (proper' : ∀ name ∈ (body'.map Block.names).getD [], IsIdentifier name)
    (same : bodyOutline body = bodyOutline body') :
    body.map Block.erased = body'.map Block.erased := by
  cases body with
  | none =>
      cases body' with
      | none => rfl
      | some body' => exact absurd same nofun
  | some body =>
      cases body' with
      | none => exact absurd same nofun
      | some body' =>
          rw [Option.map_some, Option.map_some,
            Block.erased_eq_of_outline_eq proper proper' (List.cons.inj same).1]

/-- The outline of a function tells the function, up to what erasing removes. -/
theorem erased_eq_of_outline_eq {function function' : FunctionDecl}
    (proper : ∀ name ∈ function.names, IsIdentifier name)
    (proper' : ∀ name ∈ function'.names, IsIdentifier name)
    (same : function.outline = function'.outline) : function.erased = function'.erased := by
  rw [names, List.forall_mem_cons, List.forall_mem_append, List.forall_mem_append,
    List.forall_mem_flatMap] at proper proper'
  rw [outline_eq, outline_eq, Outline.node.injEq, Text.enclosed_inj] at same
  obtain ⟨paramOutlines, returnOutlines, bodyOutlines⟩ := children_inj same.2
  have params := map_eq_of_map_eq Param.erased_eq_of_outline_eq proper.2.1 proper'.2.1 paramOutlines
  have returnType := returnType_eq proper.2.2.1 proper'.2.2.1 returnOutlines
  have body := body_eq proper.2.2.2 proper'.2.2.2 bodyOutlines
  rw [erased, erased, same.1, params, returnType, body]

/-- The headers of a function can stand in lines. -/
theorem isClean_of_names {function : FunctionDecl}
    (proper : ∀ name ∈ function.names, '\n' ∉ name.toList) : function.outline.IsClean := by
  rw [names, List.forall_mem_cons, List.forall_mem_append, List.forall_mem_append,
    List.forall_mem_flatMap] at proper
  obtain ⟨isName, params, returnType, body⟩ := proper
  rw [outline_eq, Outline.isClean_node, Outline.areClean_append, Outline.areClean_append]
  refine ⟨?_, ?_, ?_, ?_⟩
  · exact Outline.isHeader_enclosed (by decide) isName
  · rw [Outline.areClean_iff, List.forall_mem_map]
    exact fun param member => Param.isClean_of_names (params param member)
  · cases type : function.returnType with
    | none =>
        exact Outline.areClean_nil
    | some type =>
        rw [type] at returnType
        rw [returnOutline, Option.map_some, Option.toList_some, Outline.areClean_cons,
          Outline.isClean_leaf]
        exact ⟨Outline.isHeader_of_front String.toList_append (by decide)
          (TypeExpr.newline_not_mem_text returnType), Outline.areClean_nil⟩
  · cases block : function.body with
    | none =>
        exact Outline.areClean_nil
    | some block =>
        rw [block] at body
        rw [bodyOutline, Option.map_some, Option.toList_some, Outline.areClean_cons]
        exact ⟨Block.isClean_of_names body, Outline.areClean_nil⟩

end FunctionDecl

namespace Module

/-- The outline of a module tells the module, up to what erasing removes. -/
theorem erased_eq_of_outline_eq {module module' : Module}
    (proper : ∀ name ∈ module.names, IsIdentifier name)
    (proper' : ∀ name ∈ module'.names, IsIdentifier name)
    (same : module.outline = module'.outline) : module.erased = module'.erased := by
  rw [names, List.forall_mem_cons, List.forall_mem_flatMap] at proper proper'
  rw [outline, outline, Outline.node.injEq, Text.enclosed_inj] at same
  rw [erased, erased, same.1,
    map_eq_of_map_eq FunctionDecl.erased_eq_of_outline_eq proper.2 proper'.2 same.2]

/-- The headers of a module can stand in lines. -/
theorem isClean_of_names {module : Module} (proper : ∀ name ∈ module.names, '\n' ∉ name.toList) :
    module.outline.IsClean := by
  rw [names, List.forall_mem_cons, List.forall_mem_flatMap] at proper
  rw [outline, Outline.isClean_node, Outline.areClean_iff, List.forall_mem_map]
  exact ⟨Outline.isHeader_enclosed (by decide) proper.1,
    fun function member => FunctionDecl.isClean_of_names (proper.2 function member)⟩

end Module

/-! ### Dumps -/

theorem Module.isClean_outline {module : Module}
    (proper : ∀ name ∈ module.names, IsIdentifier name) : module.outline.IsClean :=
  isClean_of_names (IsIdentifier.newline_not_mem_of_mem proper)

theorem FunctionDecl.isClean_outline {function : FunctionDecl}
    (proper : ∀ name ∈ function.names, IsIdentifier name) : function.outline.IsClean :=
  isClean_of_names (IsIdentifier.newline_not_mem_of_mem proper)

theorem Expr.isClean_outline {tree : Expr} (proper : ∀ name ∈ tree.names, IsIdentifier name) :
    tree.outline.IsClean :=
  isClean_of_names (IsIdentifier.newline_not_mem_of_mem proper)

/-- Where an outline tells its tree up to what erasing removes, its text does as well. -/
theorem Outline.text_eq_iff_erased_eq {α : Type} {outline : α → Outline} {erased : α → α}
    (kept : ∀ tree, outline (erased tree) = outline tree) {tree tree' : α}
    (clean : (outline tree).IsClean) (clean' : (outline tree').IsClean)
    (told : outline tree = outline tree' → erased tree = erased tree') :
    (outline tree).text = (outline tree').text ↔ erased tree = erased tree' := by
  constructor
  · intro same
    exact told (eq_of_text_eq clean clean' same)
  · intro same
    rw [← kept tree, same, kept tree']

/-- Two modules whose names are words of letters, digits and underscores have one dump if and only
    if they are equal when they are erased, and so do two functions and two expressions. Erasing
    removes the spans, makes all words that are no number one, and names built-in types like any
    other. All other literals stay what they are: even the two zeros are different trees, and have
    different dumps. -/
theorem dump_eq_iff_erased_eq :
    (∀ left right : Module, (∀ name ∈ left.names, IsIdentifier name) →
      (∀ name ∈ right.names, IsIdentifier name) →
        (left.outline.text = right.outline.text ↔ left.erased = right.erased)) ∧
    (∀ left right : FunctionDecl, (∀ name ∈ left.names, IsIdentifier name) →
      (∀ name ∈ right.names, IsIdentifier name) →
        (left.outline.text = right.outline.text ↔ left.erased = right.erased)) ∧
    ∀ left right : Expr, (∀ name ∈ left.names, IsIdentifier name) →
      (∀ name ∈ right.names, IsIdentifier name) →
        (left.outline.text = right.outline.text ↔ left.erased = right.erased) := by
  refine ⟨?_, ?_, ?_⟩
  · intro left right proper proper'
    exact Outline.text_eq_iff_erased_eq Module.outline_erased (Module.isClean_outline proper)
      (Module.isClean_outline proper') (Module.erased_eq_of_outline_eq proper proper')
  · intro left right proper proper'
    exact Outline.text_eq_iff_erased_eq FunctionDecl.outline_erased
      (FunctionDecl.isClean_outline proper) (FunctionDecl.isClean_outline proper')
      (FunctionDecl.erased_eq_of_outline_eq proper proper')
  · intro left right proper proper'
    exact Outline.text_eq_iff_erased_eq Expr.outline_erased (Expr.isClean_outline proper)
      (Expr.isClean_outline proper') (Expr.erased_eq_of_outline_eq proper proper')

/-- Two words that are no number, and a type that is built in or not, at different places. Modules
    of different names have different dumps. -/
theorem dump_eq_iff_erased_eq_alike :
    (Expr.floatLiteral (.point 3) ⟨0x7ff8000000000000⟩).outline.text =
        (Expr.floatLiteral (.point 5) ⟨0xfff0000000000001⟩).outline.text ∧
      (FunctionDecl.mk (.point 0) "f" [⟨"x", .builtin (.point 5) .int32⟩] none none).outline.text =
        (FunctionDecl.mk (.point 9) "f" [⟨"x", .named (.point 14) "i32"⟩] none none).outline.text ∧
      (Module.mk "a" []).outline.text ≠ (Module.mk "b" []).outline.text := by
  refine ⟨?_, ?_, ?_⟩
  · exact (dump_eq_iff_erased_eq.2.2 _ _ (by decide) (by decide)).mpr rfl
  · exact (dump_eq_iff_erased_eq.2.1 _ _ (by decide) (by decide)).mpr rfl
  · intro same
    have erased := (dump_eq_iff_erased_eq.1 _ _ (by decide) (by decide)).mp same
    exact absurd (congrArg Module.name erased) (by decide)

end FrontEnd
