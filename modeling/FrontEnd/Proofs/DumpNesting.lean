/-
Module: FrontEnd.Proofs.DumpNesting
Layer: Proofs
Purpose: Dumps within dumps. A node is printed at a depth like at no depth but with two more blanks
  for each level in front of every row; so the dump of a node is its header with the dumps of its
  parts below, indented by a level, or by two where a section names them.
Imports: FrontEnd.Proofs.DumpInjectivity, Mathlib.Data.List.Chain
Trusted boundary: none
Main exports: Text.rows, Text.indented, Text.margin, Outline.indented_textAt, Outline.isChain_lines,
  Outline.exists_levels, Outline.text_node, Part, Node.header, Node.parts, Node.outline_eq,
  print_nests
Open obligations: none
-/
import FrontEnd.Proofs.DumpInjectivity
import Mathlib.Data.List.Chain

namespace FrontEnd

/-! ### Rows -/

namespace Text

/-- The rows of a text, each with the newline that ends it. Only the last row can lack one. -/
def rows : List Char → List (List Char)
  | [] => []
  | c :: text =>
      if c = '\n' then [c] :: rows text
      else
        match rows text with
        | [] => [[c]]
        | row :: below => (c :: row) :: below

/-- A text with two blanks for each level in front of every row. -/
def indented (levels : Nat) (text : String) : String :=
  String.ofList ((rows text.toList).flatMap fun row => List.replicate (2 * levels) ' ' ++ row)

/-- The number of blanks that a row begins with. -/
def margin (row : List Char) : Nat :=
  (row.takeWhile (· == ' ')).length

theorem rows_append {row : List Char} (inside : '\n' ∉ row) (rest : List Char) :
    rows (row ++ '\n' :: rest) = (row ++ ['\n']) :: rows rest := by
  induction row with
  | nil =>
      rw [List.nil_append, rows, if_pos rfl]
      rfl
  | cons c row ih =>
      rw [List.mem_cons, not_or] at inside
      rw [List.cons_append, rows, if_neg (Ne.symm inside.1), ih inside.2]
      rfl

theorem margin_append {count : Nat} {rest : List Char} (begins : rest.head? ≠ some ' ') :
    margin (List.replicate count ' ' ++ rest) = count := by
  have stop : rest.takeWhile (· == ' ') = [] := by
    cases rest with
    | nil =>
        rfl
    | cons c rest =>
        rw [List.takeWhile_cons_of_neg]
        rintro blank
        exact begins (congrArg some (eq_of_beq blank))
  have blanks : ∀ c ∈ List.replicate count ' ', (c == ' ') = true := by
    intro c member
    rw [List.eq_of_mem_replicate member]
    rfl
  rw [margin, List.takeWhile_append_of_pos blanks, stop, List.append_nil, List.length_replicate]

theorem toList_concat (texts : List String) :
    (concat texts).toList = texts.flatMap String.toList := by
  induction texts with
  | nil =>
      rfl
  | cons text texts ih =>
      rw [List.flatMap_cons, ← ih, ← String.toList_append]
      rfl

end Text

/-! ### Depths of lines -/

namespace Outline

/-- A line that stands some levels deeper. -/
def deeper (levels : Nat) (line : Nat × String) : Nat × String :=
  (line.1 + levels, line.2)

theorem lineText_deeper (levels : Nat) (line : Nat × String) :
    lineText (deeper levels line) = List.replicate (2 * levels) ' ' ++ lineText line := by
  rw [lineText, deeper, lineText, Nat.add_comm, Nat.mul_add, List.replicate_add]
  simp only [List.append_assoc]

mutual

/-- What stands some levels deeper has all its lines as much deeper. -/
theorem lines_add (depth levels : Nat) :
    ∀ outline : Outline, lines (depth + levels) outline = (lines depth outline).map (deeper levels)
  | .node header children => by
      rw [lines, lines, List.map_cons, Nat.add_right_comm,
        listLines_add (depth + 1) levels children]
      rfl

theorem listLines_add (depth levels : Nat) :
    ∀ outlines : List Outline,
      listLines (depth + levels) outlines = (listLines depth outlines).map (deeper levels)
  | [] => rfl
  | outline :: outlines => by
      rw [listLines, listLines, List.map_append, lines_add depth levels outline,
        listLines_add depth levels outlines]

end

mutual

/-- No line of an outline stands higher than the outline. -/
theorem le_of_mem_lines {depth : Nat} {line : Nat × String} :
    ∀ {outline : Outline}, line ∈ lines depth outline → depth ≤ line.1
  | .node header children, member => by
      rw [lines, List.mem_cons] at member
      rcases member with rfl | below
      · exact Nat.le_refl depth
      · exact Nat.le_of_succ_le (le_of_mem_listLines below)

theorem le_of_mem_listLines {depth : Nat} {line : Nat × String} :
    ∀ {outlines : List Outline}, line ∈ listLines depth outlines → depth ≤ line.1
  | outline :: outlines, member => by
      rw [listLines, List.mem_append] at member
      rcases member with inside | behind
      · exact le_of_mem_lines inside
      · exact le_of_mem_listLines behind

end

theorem le_of_head_listLines {depth : Nat} (outlines : List Outline) :
    ∀ line ∈ (listLines depth outlines).head?, line.1 ≤ depth := by
  have shallow : ∀ line ∈ ([] : List (Nat × String)).head?, line.1 < depth := by
    simp
  simpa only [List.append_nil] using head_listLines_append shallow outlines

/-- Whether a line stands at most one level deeper than the line above it. -/
def StepsIn (line next : Nat × String) : Prop :=
  next.1 ≤ line.1 + 1

mutual

/-- From line to line, the depth grows by one level at most. -/
theorem isChain_lines (depth : Nat) : ∀ outline : Outline, (lines depth outline).IsChain StepsIn
  | .node header children => by
      rw [lines, List.isChain_cons]
      exact ⟨le_of_head_listLines children, isChain_listLines (depth + 1) children⟩

theorem isChain_listLines (depth : Nat) :
    ∀ outlines : List Outline, (listLines depth outlines).IsChain StepsIn
  | [] => .nil
  | outline :: outlines => by
      rw [listLines, List.isChain_append]
      refine ⟨isChain_lines depth outline, isChain_listLines depth outlines, ?_⟩
      -- From the last line of one outline to the next outline, the depth falls back.
      intro line last next first
      have reached := le_of_mem_lines (List.mem_of_mem_getLast? last)
      have back := le_of_head_listLines outlines next first
      exact Nat.le_succ_of_le (Nat.le_trans back reached)

end

/-! ### Rows of outlines -/

theorem getLast?_lineText (line : Nat × String) : (lineText line).getLast? = some '\n' := by
  rw [lineText, List.getLast?_concat]

theorem margin_lineText {line : Nat × String} (clean : IsHeader line.2) :
    Text.margin (lineText line) = 2 * line.1 := by
  rw [lineText, List.append_assoc]
  apply Text.margin_append
  rw [List.head?_append]
  cases first : line.2.toList.head? with
  | none =>
      simp
  | some c =>
      rw [← first]
      simpa [first] using clean.2

/-- Lines whose headers can stand in them are the rows of their text. -/
theorem rows_flatMap_lineText {lines : List (Nat × String)}
    (clean : ∀ line ∈ lines, IsHeader line.2) :
    Text.rows (lines.flatMap lineText) = lines.map lineText := by
  induction lines with
  | nil =>
      rfl
  | cons line lines ih =>
      rw [List.forall_mem_cons] at clean
      have inside : '\n' ∉ List.replicate (2 * line.1) ' ' ++ line.2.toList := by
        rw [List.mem_append, not_or]
        exact ⟨fun blank => absurd (List.eq_of_mem_replicate blank) (by decide), clean.1.1⟩
      rw [List.flatMap_cons, List.map_cons, ← ih clean.2, lineText, List.append_assoc,
        List.singleton_append, Text.rows_append inside]

variable {outline : Outline} {header : String} {children : List Outline}

theorem rows_textAt (clean : outline.IsClean) (depth : Nat) :
    Text.rows (outline.textAt depth) = (outline.lines depth).map lineText :=
  rows_flatMap_lineText fun _ member => clean.isHeader member

/-- The text of an outline some levels deeper is its text, indented by as many levels. -/
theorem indented_textAt (clean : outline.IsClean) (depth levels : Nat) :
    Text.indented levels (String.ofList (outline.textAt depth))
      = String.ofList (outline.textAt (depth + levels)) := by
  rw [Text.indented, String.toList_ofList, rows_textAt clean, textAt, lines_add, List.flatMap_map,
    List.flatMap_map]
  simp only [lineText_deeper]

/-- The margins of the rows of an outline: the first row alone stands at its depth, the others stand
    deeper, and none is more than one level deeper than the one above it. -/
theorem exists_levels (clean : outline.IsClean) (depth : Nat) :
    ∃ below : List Nat,
      (Text.rows (outline.textAt depth)).map Text.margin = (depth :: below).map (2 * ·) ∧
      (∀ level ∈ below, depth < level) ∧
      (depth :: below).IsChain fun level next => next ≤ level + 1 := by
  have margins : (Text.rows (outline.textAt depth)).map Text.margin
      = ((outline.lines depth).map Prod.fst).map (2 * ·) := by
    rw [rows_textAt clean, List.map_map, List.map_map]
    exact List.map_congr_left fun line member => margin_lineText (clean.isHeader member)
  have steps : ((outline.lines depth).map Prod.fst).IsChain fun level next => next ≤ level + 1 :=
    (List.isChain_map Prod.fst).mpr (isChain_lines depth outline)
  obtain ⟨header, children⟩ := outline
  rw [lines, List.map_cons] at margins steps
  refine ⟨_, margins, ?_, steps⟩
  exact List.forall_mem_map.mpr fun line member => le_of_mem_listLines member

theorem flatMap_listLines (depth : Nat) (outlines : List Outline) :
    (listLines depth outlines).flatMap lineText = outlines.flatMap (textAt depth) := by
  induction outlines with
  | nil =>
      rfl
  | cons outline outlines ih =>
      rw [listLines, List.flatMap_append, List.flatMap_cons, ih, textAt]

/-- The text of an outline is its header, with the texts of its children below, indented by one
    level. -/
theorem text_node (clean : AreClean children) :
    (node header children).text
      = header ++ "\n" ++ Text.concat (children.map fun child => Text.indented 1 child.text) := by
  have below : children.flatMap (textAt 1)
      = children.flatMap fun child => (Text.indented 1 child.text).toList := by
    refine List.flatMap_congr fun child member => ?_
    rw [text_eq, indented_textAt (areClean_iff.mp clean child member), String.toList_ofList]
  apply String.toList_inj.mp
  rw [text_eq, String.toList_ofList, textAt, lines, List.flatMap_cons, flatMap_listLines, below,
    String.toList_append, String.toList_append, Text.toList_concat, List.flatMap_map]
  rfl

end Outline

/-! ### Parts of nodes -/

/-- A part of a node: a line, a node, or several nodes below a label. -/
inductive Part where
  | line (text : String)
  | tree (node : Node)
  | labelled (label : String) (nodes : List Node)

namespace Part

/-- What is printed of a part. The nodes below a label are indented by one level. -/
def text : Part → String
  | .line text => text ++ "\n"
  | .tree node => node.textAt 0
  | .labelled label nodes =>
      label ++ "\n" ++ Text.concat (nodes.map fun node => Text.indented 1 (node.textAt 0))

/-- The outline of a part. -/
def outline : Part → Outline
  | .line text => .leaf text
  | .tree node => node.outline
  | .labelled label nodes => .node label (nodes.map Node.outline)

end Part

/-- The header of an expression. A block expression has that of its block. -/
def Expr.header : Expr → String
  | .intLiteral _ value => "IntLiteral(" ++ toString value.toNat ++ ")"
  | .floatLiteral _ value => "FloatLiteral(" ++ value.text ++ ")"
  | .boolLiteral _ value => "BoolLiteral(" ++ (if value then "true" else "false") ++ ")"
  | .reference _ name => "VarRef(" ++ name ++ ")"
  | .unary _ operator _ => "UnaryExpr(" ++ operator.symbol ++ ")"
  | .binary _ operator _ _ => "BinaryExpr(" ++ operator.symbol ++ ")"
  | .call _ _ _ => "CallExpr"
  | .block _ _ => "BlockExpr"
  | .conditional _ _ _ _ => "IfExpr"
  | .loop _ _ _ => "WhileExpr"
  | .breakLoop _ _ => "BreakExpr"
  | .continueLoop _ => "ContinueExpr"

/-- The header of a statement. -/
def Stmt.header : Stmt → String
  | .expression _ _ => "ExprStmt"
  | .returnValue _ _ => "ReturnStmt"
  | .declare _ name type _ isMutable =>
      "VarDecl(" ++ (if isMutable then "mut " else "") ++ name
        ++ (type.map fun type => ": " ++ type.text).getD "" ++ ")"
  | .assign _ _ _ => "AssignStmt"

/-- The parts of a block: its statements, and the expression behind them. -/
def Block.parts (block : Block) : List Part :=
  block.statements.map (.tree <| .stmt ·)
    ++ (block.tail.map fun value => .labelled "Tail:" [.expr value]).toList

/-- The parts of an expression in the order of the program. A block expression has those of its
    block. -/
def Expr.parts : Expr → List Part
  | .intLiteral _ _ | .floatLiteral _ _ | .boolLiteral _ _ | .reference _ _ | .continueLoop _ => []
  | .unary _ _ operand => [.tree (.expr operand)]
  | .binary _ _ left right => [.tree (.expr left), .tree (.expr right)]
  | .call _ callee arguments =>
      [.labelled "Callee:" [.expr callee], .labelled "Args:" (arguments.map .expr)]
  | .block _ body => body.parts
  | .conditional _ condition thenBlock otherwise =>
      [.labelled "Condition:" [.expr condition], .labelled "Then:" [.block thenBlock]]
        ++ (otherwise.map fun value => .labelled "Else:" [.expr value]).toList
  | .loop _ condition body =>
      [.labelled "Condition:" [.expr condition], .labelled "Body:" [.block body]]
  | .breakLoop _ value => (value.map fun value => .tree (.expr value)).toList

/-- The parts of a statement. -/
def Stmt.parts : Stmt → List Part
  | .expression _ value => [.tree (.expr value)]
  | .returnValue _ value => (value.map fun value => .tree (.expr value)).toList
  | .declare _ _ _ initial _ => (initial.map fun value => .tree (.expr value)).toList
  | .assign _ target value =>
      [.labelled "Target:" [.expr target], .labelled "Value:" [.expr value]]

namespace Node

/-- The names in a node. -/
def names : Node → List String
  | .module tree => tree.names
  | .function tree => tree.names
  | .expr tree => tree.names
  | .block tree => tree.names
  | .stmt tree => tree.names

/-- The header of a node. -/
def header : Node → String
  | .module tree => "Module(" ++ tree.name ++ ")"
  | .function tree => "FunctionDecl(" ++ tree.name ++ ")"
  | .expr tree => tree.header
  | .block _ => "BlockExpr"
  | .stmt tree => tree.header

/-- The parts of a node. -/
def parts : Node → List Part
  | .module tree => tree.functions.map (.tree <| .function ·)
  | .function tree =>
      tree.params.map
          (fun param => .line ("Param(" ++ param.name ++ ": " ++ param.type.text ++ ")"))
        ++ (tree.returnType.map fun type => .line ("ReturnType: " ++ type.text)).toList
        ++ (tree.body.map fun body => .tree (.block body)).toList
  | .expr tree => tree.parts
  | .block tree => tree.parts
  | .stmt tree => tree.parts

end Node

/-! ### Outlines of parts -/

theorem Expr.listOutline_eq_map (trees : List Expr) : listOutline trees = trees.map outline := by
  induction trees with
  | nil => rfl
  | cons tree trees ih => rw [listOutline, ih, List.map_cons]

theorem Stmt.listOutline_eq_map (trees : List Stmt) : listOutline trees = trees.map outline := by
  induction trees with
  | nil => rfl
  | cons tree trees ih => rw [listOutline, ih, List.map_cons]

/-- An expression that may be missing is a part by itself. -/
theorem Expr.valueOutline_eq_map (value : Option Expr) :
    valueOutline value
      = (value.map fun value => Part.tree (.expr value)).toList.map Part.outline := by
  cases value with
  | none => rfl
  | some value => rfl

/-- An expression that may be missing is a part below a label. -/
theorem Expr.optionOutline_eq_map (label : String) (value : Option Expr) :
    optionOutline label value
      = (value.map fun value => Part.labelled label [.expr value]).toList.map Part.outline := by
  cases value with
  | none => rfl
  | some value => rfl

theorem Block.outline_eq (block : Block) :
    block.outline = .node "BlockExpr" (block.parts.map Part.outline) := by
  obtain ⟨statements, tail⟩ := block
  rw [outline, parts, List.map_append, List.map_map, Stmt.listOutline_eq_map,
    Expr.optionOutline_eq_map]
  rfl

theorem Expr.outline_eq (tree : Expr) :
    tree.outline = .node tree.header (tree.parts.map Part.outline) := by
  cases tree with
  | call _ callee arguments =>
      rw [outline, listOutline_eq_map, parts, List.map_cons, List.map_cons, List.map_nil,
        Part.outline, Part.outline, List.map_map]
      rfl
  | block _ body =>
      exact body.outline_eq
  | conditional _ condition thenBlock otherwise =>
      rw [outline, optionOutline_eq_map, parts, List.map_append]
      rfl
  | breakLoop _ value =>
      rw [outline, valueOutline_eq_map]
      rfl
  | _ => rfl

theorem Stmt.outline_eq (tree : Stmt) :
    tree.outline = .node tree.header (tree.parts.map Part.outline) := by
  cases tree with
  | returnValue _ value =>
      rw [outline, Expr.valueOutline_eq_map]
      rfl
  | declare _ _ _ initial _ =>
      rw [outline, Expr.valueOutline_eq_map]
      rfl
  | _ => rfl

namespace Node

/-- The outline of a node is its header with the outlines of its parts below. -/
theorem outline_eq (node : Node) :
    node.outline = .node node.header (node.parts.map Part.outline) := by
  cases node with
  | module tree =>
      rw [outline, Module.outline, parts, List.map_map]
      rfl
  | function tree =>
      obtain ⟨span, name, params, returnType, body⟩ := tree
      rw [outline, FunctionDecl.outline, parts, List.map_append, List.map_append, List.map_map]
      cases returnType <;> cases body <;> rfl
  | expr tree =>
      exact tree.outline_eq
  | block tree =>
      exact tree.outline_eq
  | stmt tree =>
      exact tree.outline_eq

/-- The headers of a node can stand in lines. -/
theorem isClean_of_names {node : Node} (inLine : ∀ name ∈ node.names, '\n' ∉ name.toList) :
    node.outline.IsClean := by
  cases node with
  | module tree => exact Module.isClean_of_names inLine
  | function tree => exact FunctionDecl.isClean_of_names inLine
  | expr tree => exact Expr.isClean_of_names inLine
  | block tree => exact Block.isClean_of_names inLine
  | stmt tree => exact Stmt.isClean_of_names inLine

theorem textAt_zero (node : Node) : node.textAt 0 = node.outline.text := by
  rw [textAt_eq, Outline.text_eq]

end Node

/-- The text of a part is that of its outline. -/
theorem Part.text_outline {part : Part} (clean : part.outline.IsClean) :
    part.outline.text = part.text := by
  cases part with
  | line text =>
      rw [outline, Outline.leaf, Outline.text_node Outline.areClean_nil, List.map_nil, Part.text]
      exact String.append_empty
  | tree node =>
      exact node.textAt_zero.symm
  | labelled label nodes =>
      rw [outline, Outline.isClean_node] at clean
      rw [outline, Outline.text_node clean.2, List.map_map, text]
      simp only [Function.comp_def, Node.textAt_zero]

/-- The text of a node is its header, with the texts of its parts below, indented by one level. -/
theorem Node.text_eq {node : Node} (clean : node.outline.IsClean) :
    node.textAt 0 = node.header ++ "\n"
      ++ Text.concat (node.parts.map fun part => Text.indented 1 part.text) := by
  rw [outline_eq, Outline.isClean_node] at clean
  rw [textAt_zero, outline_eq, Outline.text_node clean.2, List.map_map]
  have texts : node.parts.map ((fun child => Text.indented 1 child.text) ∘ Part.outline)
      = node.parts.map fun part => Text.indented 1 part.text := by
    refine List.map_congr_left fun part member => ?_
    have partClean := Outline.areClean_iff.mp clean.2 _ (List.mem_map_of_mem member)
    rw [Function.comp_apply, Part.text_outline partClean]
  rw [texts]

example :
    (FunctionDecl.mk (.point 0) "main" [] (some (.builtin (.point 0) .int64))
      (some (.mk [.returnValue (.point 0) (some (.intLiteral (.point 0) 1399))] none))).outline.text
      = "FunctionDecl(main)\n  ReturnType: i64\n  BlockExpr\n    ReturnStmt\n"
        ++ "      IntLiteral(1399)\n" := by
  cbv

/-! ### Printing at depths -/

/-- Printing commutes with nesting. At a depth a node is printed like at no depth, with two blanks
    for each level in front of every row. Each row ends with a newline; the first alone stands at
    the depth of the node, the others stand deeper, and none is more than one level deeper than the
    one above it. Hence the dump of a node is its header with its parts below, indented by one
    level, and the dump of a module is its name with the dumps of its functions below. -/
theorem print_nests (node : Node) (depth : Nat)
    (inLine : ∀ name ∈ node.names, '\n' ∉ name.toList) :
    node.textAt depth = Text.indented depth (node.textAt 0) ∧
    (∀ row ∈ Text.rows (node.textAt depth).toList, row.getLast? = some '\n') ∧
    (∃ below : List Nat,
      (Text.rows (node.textAt depth).toList).map Text.margin = (depth :: below).map (2 * ·) ∧
      (∀ level ∈ below, depth < level) ∧
      (depth :: below).IsChain fun level next => next ≤ level + 1) ∧
    node.textAt 0 = node.header ++ "\n"
      ++ Text.concat (node.parts.map fun part => Text.indented 1 part.text) ∧
    ∀ tree, node = .module tree →
      tree.outline.text = "Module(" ++ tree.name ++ ")" ++ "\n"
        ++ Text.concat (tree.functions.map fun function =>
          Text.indented 1 function.outline.text) := by
  have clean := Node.isClean_of_names inLine
  refine ⟨?_, ?_, ?_, Node.text_eq clean, ?_⟩
  · rw [Node.textAt_eq, Node.textAt_eq, Outline.indented_textAt clean, Nat.zero_add]
  · rw [Node.textAt_eq, String.toList_ofList, Outline.rows_textAt clean]
    exact List.forall_mem_map.mpr fun line _ => Outline.getLast?_lineText line
  · rw [Node.textAt_eq, String.toList_ofList]
    exact Outline.exists_levels clean depth
  · rintro tree rfl
    have whole := Node.text_eq clean
    rw [Node.parts, List.map_map] at whole
    simpa only [Function.comp_def, Part.text, Node.textAt_zero, Node.outline, Node.header]
      using whole

/-- A function within a module, with a parameter, a conditional and a call. -/
theorem print_nests_conditional :
    let node : Node := .module ⟨"m", [⟨.point 0, "f", [⟨"x", .builtin (.point 5) .int32⟩], none,
      some (.mk [] (some (.conditional (.point 9) (.reference (.point 9) "x")
        (.mk [.returnValue (.point 9) none] none)
        (some (.call (.point 9) (.reference (.point 9) "g") [.reference (.point 9) "x"])))))⟩]⟩
    (∀ name ∈ node.names, '\n' ∉ name.toList) ∧
      node.textAt 2 = Text.indented 2 (node.textAt 0) ∧
      node.textAt 0 = node.header ++ "\n"
        ++ Text.concat (node.parts.map fun part => Text.indented 1 part.text) := by
  intro node
  have inLine : ∀ name ∈ node.names, '\n' ∉ name.toList := by decide
  obtain ⟨moved, -, -, parts, -⟩ := print_nests node 2 inLine
  exact ⟨inLine, moved, parts⟩

end FrontEnd
