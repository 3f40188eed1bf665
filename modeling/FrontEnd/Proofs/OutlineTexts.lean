/-
Module: FrontEnd.Proofs.OutlineTexts
Layer: Proofs
Purpose: Outlines are read off their texts. The newlines tell the lines apart, the blanks before a
  header tell its depth, and the depths of the lines tell what stands below what.
Imports: FrontEnd.Proofs.OutlinePrinting, FrontEnd.Proofs.TextCuts
Trusted boundary: none
Main exports: Outline.IsHeader, Outline.IsClean, Outline.lines_append_inj, Outline.eq_of_text_eq
Open obligations: none
-/
import FrontEnd.Proofs.OutlinePrinting
import FrontEnd.Proofs.TextCuts

namespace FrontEnd

namespace Outline

/-! ### Headers -/

mutual

/-- The headers of an outline from top to bottom. -/
def headers : Outline → List String
  | .node header children => header :: listHeaders children

/-- The headers of several outlines. -/
def listHeaders : List Outline → List String
  | [] => []
  | outline :: outlines => headers outline ++ listHeaders outlines

end

/-- Whether a text can stand in a line of its own: it holds no newline, and does not begin with a
    blank, which would count as indentation. -/
def IsHeader (header : String) : Prop :=
  '\n' ∉ header.toList ∧ header.toList.head? ≠ some ' '

instance : DecidablePred IsHeader := fun header =>
  inferInstanceAs (Decidable ('\n' ∉ header.toList ∧ header.toList.head? ≠ some ' '))

/-- Whether every header of an outline can stand in a line. -/
def IsClean (outline : Outline) : Prop :=
  ∀ header ∈ outline.headers, IsHeader header

/-- Whether every header of several outlines can stand in a line. -/
def AreClean (outlines : List Outline) : Prop :=
  ∀ header ∈ listHeaders outlines, IsHeader header

@[simp] theorem isClean_node {header : String} {children : List Outline} :
    (node header children).IsClean ↔ IsHeader header ∧ AreClean children := by
  rw [IsClean, headers, List.forall_mem_cons, AreClean]

@[simp] theorem areClean_nil : AreClean [] :=
  List.forall_mem_nil _

@[simp] theorem areClean_cons {outline : Outline} {outlines : List Outline} :
    AreClean (outline :: outlines) ↔ outline.IsClean ∧ AreClean outlines := by
  rw [AreClean, listHeaders, List.forall_mem_append, AreClean, IsClean]

@[simp] theorem isClean_leaf {header : String} : (leaf header).IsClean ↔ IsHeader header := by
  rw [leaf, isClean_node, and_iff_left areClean_nil]

theorem areClean_iff {outlines : List Outline} :
    AreClean outlines ↔ ∀ outline ∈ outlines, outline.IsClean := by
  induction outlines with
  | nil =>
      simp
  | cons outline outlines ih =>
      rw [areClean_cons, ih, List.forall_mem_cons]

@[simp] theorem areClean_append {first second : List Outline} :
    AreClean (first ++ second) ↔ AreClean first ∧ AreClean second := by
  rw [areClean_iff, areClean_iff, areClean_iff, List.forall_mem_append]

mutual

/-- The lines of an outline hold its headers. -/
theorem map_lines (depth : Nat) :
    ∀ outline : Outline, (lines depth outline).map Prod.snd = headers outline
  | .node header children => by
      rw [lines, headers, List.map_cons, map_listLines (depth + 1) children]

/-- The lines of several outlines hold their headers. -/
theorem map_listLines (depth : Nat) :
    ∀ outlines : List Outline, (listLines depth outlines).map Prod.snd = listHeaders outlines
  | [] => rfl
  | outline :: outlines => by
      rw [listLines, listHeaders, List.map_append, map_lines depth outline,
        map_listLines depth outlines]

end

theorem IsClean.isHeader {outline : Outline} {depth : Nat} {line : Nat × String}
    (clean : outline.IsClean) (member : line ∈ outline.lines depth) : IsHeader line.2 := by
  apply clean
  rw [← map_lines depth]
  exact List.mem_map_of_mem member

/-! ### From the text to the lines -/

/-- The first line can be told from the text behind it. -/
theorem lineText_append_inj {line line' : Nat × String} {rest rest' : List Char}
    (clean : IsHeader line.2) (clean' : IsHeader line'.2)
    (same : lineText line ++ rest = lineText line' ++ rest') : line = line' ∧ rest = rest' := by
  obtain ⟨depth, header⟩ := line
  obtain ⟨depth', header'⟩ := line'
  have inside {depth : Nat} {header : String} (clean : IsHeader header) :
      ∀ c ∈ List.replicate (2 * depth) ' ' ++ header.toList, (c != '\n') = true := by
    intro c member
    rw [bne_iff_ne]
    rintro rfl
    rcases List.mem_append.mp member with blank | letter
    · exact absurd (List.eq_of_mem_replicate blank) (by decide)
    · exact clean.1 letter
  have newline {rest : List Char} : ∀ c ∈ ('\n' :: rest).head?, (c != '\n') = false := by
    simp
  have blanks {depth : Nat} : ∀ c ∈ List.replicate (2 * depth) ' ', (c == ' ') = true := by
    intro c member
    rw [List.eq_of_mem_replicate member]
    rfl
  have begins {header : String} (clean : IsHeader header) :
      ∀ c ∈ header.toList.head?, (c == ' ') = false := by
    intro c first
    rw [beq_eq_false_iff_ne]
    rintro rfl
    exact clean.2 first
  simp only [lineText, List.append_assoc, List.singleton_append] at same
  rw [← List.append_assoc, ← List.append_assoc] at same
  obtain ⟨lines, rests⟩ :=
    Text.append_inj_of_stop (inside clean) (inside clean') newline newline same
  obtain ⟨indents, headers⟩ :=
    Text.append_inj_of_stop blanks blanks (begins clean) (begins clean') lines
  have depths := congrArg List.length indents
  rw [List.length_replicate, List.length_replicate] at depths
  obtain rfl : depth = depth' := by omega
  obtain rfl : header = header' := String.toList_inj.mp headers
  exact ⟨rfl, (List.cons.inj rests).2⟩

/-- Lines are read off their text. -/
theorem lines_eq_of_text_eq {lines lines' : List (Nat × String)}
    (clean : ∀ line ∈ lines, IsHeader line.2) (clean' : ∀ line ∈ lines', IsHeader line.2)
    (same : lines.flatMap lineText = lines'.flatMap lineText) : lines = lines' := by
  have filled (line : Nat × String) (rest : List Char) : lineText line ++ rest ≠ [] := by
    simp [lineText]
  induction lines generalizing lines' with
  | nil =>
      cases lines' with
      | nil =>
          rfl
      | cons line' lines' =>
          rw [List.flatMap_cons] at same
          exact absurd same.symm (filled line' _)
  | cons line lines ih =>
      cases lines' with
      | nil =>
          rw [List.flatMap_cons] at same
          exact absurd same (filled line _)
      | cons line' lines' =>
          rw [List.flatMap_cons, List.flatMap_cons] at same
          rw [List.forall_mem_cons] at clean clean'
          obtain ⟨rfl, rest⟩ := lineText_append_inj clean.1 clean'.1 same
          rw [ih clean.2 clean'.2 rest]

/-! ### From the lines to the outline -/

/-- Behind an outline at a depth, no line stands deeper. -/
theorem head_listLines_append {depth : Nat} {rest : List (Nat × String)}
    (shallow : ∀ line ∈ rest.head?, line.1 < depth) (outlines : List Outline) :
    ∀ line ∈ (listLines depth outlines ++ rest).head?, line.1 ≤ depth := by
  intro line first
  cases outlines with
  | nil =>
      exact Nat.le_of_lt (shallow line first)
  | cons outline outlines =>
      obtain ⟨header, children⟩ := outline
      obtain rfl : (depth, header) = line := Option.some.inj first
      exact Nat.le_refl depth

mutual

/-- Where an outline ends can be told from the lines behind it, the first of which is not deeper. -/
theorem lines_append_inj {depth : Nat} :
    ∀ {outline outline' : Outline} {rest rest' : List (Nat × String)},
      (∀ line ∈ rest.head?, line.1 ≤ depth) → (∀ line ∈ rest'.head?, line.1 ≤ depth) →
        lines depth outline ++ rest = lines depth outline' ++ rest' →
          outline = outline' ∧ rest = rest'
  | .node header children, .node header' children', rest, rest', shallow, shallow', same => by
      rw [lines, lines, List.cons_append, List.cons_append, List.cons.injEq, Prod.mk.injEq] at same
      obtain ⟨⟨-, rfl⟩, below⟩ := same
      obtain ⟨rfl, rests⟩ := listLines_append_inj
        (fun line first => Nat.lt_succ_of_le (shallow line first))
        (fun line first => Nat.lt_succ_of_le (shallow' line first)) below
      exact ⟨rfl, rests⟩

/-- Where several outlines end can be told from the lines behind them, the first of which stands
    higher. -/
theorem listLines_append_inj {depth : Nat} :
    ∀ {outlines outlines' : List Outline} {rest rest' : List (Nat × String)},
      (∀ line ∈ rest.head?, line.1 < depth) → (∀ line ∈ rest'.head?, line.1 < depth) →
        listLines depth outlines ++ rest = listLines depth outlines' ++ rest' →
          outlines = outlines' ∧ rest = rest'
  | [], [], rest, rest', _, _, same => ⟨rfl, same⟩
  | [], .node header' children' :: _, rest, rest', shallow, _, same => by
      have first : (depth, header') ∈ rest.head? := by
        rw [show rest = _ from same]
        exact rfl
      exact absurd (shallow _ first) (Nat.lt_irrefl depth)
  | .node header children :: _, [], rest, rest', _, shallow', same => by
      have first : (depth, header) ∈ rest'.head? := by
        rw [show rest' = _ from same.symm]
        exact rfl
      exact absurd (shallow' _ first) (Nat.lt_irrefl depth)
  | outline :: outlines, outline' :: outlines', rest, rest', shallow, shallow', same => by
      rw [listLines, listLines, List.append_assoc, List.append_assoc] at same
      obtain ⟨rfl, behind⟩ := lines_append_inj (head_listLines_append shallow outlines)
        (head_listLines_append shallow' outlines') same
      obtain ⟨rfl, rests⟩ := listLines_append_inj shallow shallow' behind
      exact ⟨rfl, rests⟩

end

/-- An outline is read off its text, if its headers can stand in lines. -/
theorem eq_of_text_eq {outline outline' : Outline} (clean : outline.IsClean)
    (clean' : outline'.IsClean) (same : outline.text = outline'.text) : outline = outline' := by
  rw [text_eq, text_eq, String.ofList_inj] at same
  have lines := lines_eq_of_text_eq (fun _ member => clean.isHeader member)
    (fun _ member => clean'.isHeader member) same
  have nothing : ∀ line ∈ ([] : List (Nat × String)).head?, line.1 ≤ 0 := by
    simp
  have whole : outline.lines 0 ++ [] = outline'.lines 0 ++ [] := by
    rw [lines]
  exact (lines_append_inj nothing nothing whole).1

end Outline

end FrontEnd
