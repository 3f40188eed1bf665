/-
Module: FrontEnd.Proofs.TypeTexts
Layer: Proofs
Purpose: Types are read off their texts. A name ends where no letter, digit or underscore follows,
  and a tuple ends at the parenthesis that closes it, so a type can be told from any text behind it
  that does not continue a name.
Imports: FrontEnd.Proofs.ErasedTrees
Trusted boundary: none
Main exports: IsIdentifier.append_inj, TypeExpr.text_append_inj, TypeExpr.newline_not_mem_text
Open obligations: none
-/
import FrontEnd.Proofs.ErasedTrees

namespace FrontEnd

open Lexer (isWordStart isWordPart)

/-! ### Names -/

namespace IsIdentifier

variable {name name' : String}

theorem isWordPart (isName : IsIdentifier name) : ∀ c ∈ name.toList, isWordPart c = true := by
  obtain ⟨c, letters, spelled, start, inside⟩ := isName
  rw [spelled, List.forall_mem_cons]
  exact ⟨Grammar.namePart_iff.mp (Or.inl start), fun d member =>
    Grammar.namePart_iff.mp (inside d member)⟩

theorem head (isName : IsIdentifier name) :
    ∃ c letters, name.toList = c :: letters ∧ isWordStart c = true := by
  obtain ⟨c, letters, spelled, start, -⟩ := isName
  exact ⟨c, letters, spelled, Grammar.nameStart_iff.mp start⟩

theorem newline_not_mem (isName : IsIdentifier name) : '\n' ∉ name.toList := by
  intro member
  exact absurd (isName.isWordPart '\n' member) (by decide)

/-- Names can stand in lines. -/
theorem newline_not_mem_of_mem {names : List String} (proper : ∀ name ∈ names, IsIdentifier name) :
    ∀ name ∈ names, '\n' ∉ name.toList :=
  fun name member => (proper name member).newline_not_mem

/-- Where a name ends can be told from a text behind it that does not continue it. -/
theorem append_inj {rest rest' : List Char} (isName : IsIdentifier name)
    (isName' : IsIdentifier name') (stop : ∀ c ∈ rest.head?, Lexer.isWordPart c = false)
    (stop' : ∀ c ∈ rest'.head?, Lexer.isWordPart c = false)
    (same : name.toList ++ rest = name'.toList ++ rest') : name = name' ∧ rest = rest' := by
  obtain ⟨names, rests⟩ :=
    Text.append_inj_of_stop isName.isWordPart isName'.isWordPart stop stop' same
  exact ⟨String.toList_inj.mp names, rests⟩

end IsIdentifier

/-- Built-in types are proper like others. -/
theorem BuiltinType.name_isIdentifier (type : BuiltinType) : IsIdentifier type.name := by
  cases type <;> decide

/-! ### Types -/

namespace TypeExpr

/-- A type is a name or a tuple. -/
theorem name_or_tuple (type : TypeExpr) (proper : ∀ name ∈ type.names, IsIdentifier name) :
    (∃ name, IsIdentifier name ∧ type.text = name ∧ type.erased = .named .dummy name) ∨
      ∃ span items, type = .tuple span items := by
  cases type with
  | builtin span type =>
      exact Or.inl ⟨type.name, type.name_isIdentifier, rfl, rfl⟩
  | named span name =>
      exact Or.inl ⟨name, proper name (List.mem_singleton_self name), rfl, rfl⟩
  | tuple span items =>
      exact Or.inr ⟨span, items, rfl⟩

/-- The text of a tuple. -/
theorem toList_text_tuple (span : Span) (items : List TypeExpr) :
    (tuple span items).text.toList = '(' :: (listText items).toList ++ [')'] := by
  rw [text, String.toList_append, String.toList_append]
  rfl

/-- What stands behind an item of a tuple. -/
def moreText : List TypeExpr → List Char
  | [] => []
  | items => ',' :: ' ' :: (listText items).toList

theorem toList_listText_cons (item : TypeExpr) (items : List TypeExpr) :
    (listText (item :: items)).toList = item.text.toList ++ moreText items := by
  cases items with
  | nil =>
      rw [listText, moreText, List.append_nil]
  | cons next items =>
      rw [listText.eq_3 _ _ (List.cons_ne_nil _ _), String.toList_append, String.toList_append,
        List.append_assoc]
      rfl

/-- A type does not begin like the end of a tuple. -/
theorem text_head {type : TypeExpr} (proper : ∀ name ∈ type.names, IsIdentifier name) :
    ∃ c rest, type.text.toList = c :: rest ∧ c ≠ ')' := by
  rcases type.name_or_tuple proper with ⟨name, isName, text, -⟩ | ⟨span, items, rfl⟩
  · obtain ⟨c, letters, spelled, start⟩ := isName.head
    refine ⟨c, letters, text ▸ spelled, ?_⟩
    rintro rfl
    exact absurd start (by decide)
  · exact ⟨'(', _, toList_text_tuple span items, by decide⟩

/-- Where a name ends, a type of the same text ends, and it is a type of this name. -/
theorem erased_of_name_append {name : String} {type : TypeExpr} {rest rest' : List Char}
    (isName : IsIdentifier name) (proper : ∀ name ∈ type.names, IsIdentifier name)
    (stop : ∀ c ∈ rest.head?, isWordPart c = false)
    (stop' : ∀ c ∈ rest'.head?, isWordPart c = false)
    (same : name.toList ++ rest = type.text.toList ++ rest') :
    type.erased = .named .dummy name ∧ rest = rest' := by
  rcases type.name_or_tuple proper with ⟨name', isName', text, erased⟩ | ⟨span, items, rfl⟩
  · rw [text] at same
    obtain ⟨rfl, rests⟩ := isName.append_inj isName' stop stop' same
    exact ⟨erased, rests⟩
  · obtain ⟨c, letters, spelled, start⟩ := isName.head
    rw [spelled, toList_text_tuple] at same
    obtain rfl : c = '(' := (List.cons.inj same).1
    exact absurd start (by decide)

mutual

/-- Where a type ends can be told from a text behind it that does not continue a name. -/
theorem text_append_inj :
    ∀ {type type' : TypeExpr} {rest rest' : List Char},
      (∀ name ∈ type.names, IsIdentifier name) → (∀ name ∈ type'.names, IsIdentifier name) →
        (∀ c ∈ rest.head?, isWordPart c = false) → (∀ c ∈ rest'.head?, isWordPart c = false) →
          type.text.toList ++ rest = type'.text.toList ++ rest' →
            type.erased = type'.erased ∧ rest = rest'
  | .builtin _ type, type', rest, rest', _, proper', stop, stop', same => by
      obtain ⟨erased, rests⟩ :=
        erased_of_name_append type.name_isIdentifier proper' stop stop' same
      exact ⟨erased.symm, rests⟩
  | .named _ name, type', rest, rest', proper, proper', stop, stop', same => by
      obtain ⟨erased, rests⟩ :=
        erased_of_name_append (proper name (List.mem_singleton_self name)) proper' stop stop' same
      exact ⟨erased.symm, rests⟩
  | .tuple span items, type', rest, rest', proper, proper', stop, stop', same => by
      rcases type'.name_or_tuple proper' with ⟨name, isName, text, erased⟩ | ⟨span', items', rfl⟩
      · rw [text] at same
        obtain ⟨erased', rests⟩ := erased_of_name_append isName proper stop' stop same.symm
        exact ⟨erased'.trans erased.symm, rests.symm⟩
      · rw [toList_text_tuple, toList_text_tuple] at same
        have inner : (listText items).toList ++ ')' :: rest
            = (listText items').toList ++ ')' :: rest' := by
          simpa using same
        obtain ⟨erased, rests⟩ := listText_append_inj proper proper' inner
        refine ⟨?_, rests⟩
        rw [TypeExpr.erased, TypeExpr.erased, erased]

/-- The items of a tuple can be told from the text behind the parenthesis that closes it. -/
theorem listText_append_inj :
    ∀ {items items' : List TypeExpr} {rest rest' : List Char},
      (∀ name ∈ listNames items, IsIdentifier name) →
        (∀ name ∈ listNames items', IsIdentifier name) →
          (listText items).toList ++ ')' :: rest = (listText items').toList ++ ')' :: rest' →
            listErased items = listErased items' ∧ rest = rest'
  | [], [], _, _, _, _, same => ⟨rfl, (List.cons.inj same).2⟩
  | [], item' :: items', _, _, _, proper', same => by
      rw [listNames, List.forall_mem_append] at proper'
      obtain ⟨c, letters, spelled, other⟩ := text_head proper'.1
      rw [toList_listText_cons, spelled] at same
      exact absurd (List.cons.inj same).1.symm other
  | item :: items, [], _, _, proper, _, same => by
      rw [listNames, List.forall_mem_append] at proper
      obtain ⟨c, letters, spelled, other⟩ := text_head proper.1
      rw [toList_listText_cons, spelled] at same
      exact absurd (List.cons.inj same).1 other
  | item :: items, item' :: items', rest, rest', proper, proper', same => by
      have stop {items : List TypeExpr} {rest : List Char} :
          ∀ c ∈ (moreText items ++ ')' :: rest).head?, isWordPart c = false := by
        cases items with
        | nil =>
            rintro c ⟨⟩
            rfl
        | cons next items =>
            rintro c ⟨⟩
            rfl
      rw [listNames, List.forall_mem_append] at proper proper'
      rw [toList_listText_cons, toList_listText_cons, List.append_assoc, List.append_assoc] at same
      obtain ⟨first, behind⟩ := text_append_inj proper.1 proper'.1 stop stop same
      rw [listErased, listErased, first]
      cases items with
      | nil =>
          cases items' with
          | nil =>
              exact ⟨rfl, (List.cons.inj behind).2⟩
          | cons next' items' =>
              exact absurd (List.cons.inj behind).1 (by decide)
      | cons next items =>
          cases items' with
          | nil =>
              exact absurd (List.cons.inj behind).1 (by decide)
          | cons next' items' =>
              have inner := (List.cons.inj (List.cons.inj behind).2).2
              obtain ⟨others, rests⟩ := listText_append_inj proper.2 proper'.2 inner
              exact ⟨by rw [others], rests⟩

end

/-- The text of a type tells the type, up to what erasing removes. -/
theorem erased_eq_of_text_eq {type type' : TypeExpr}
    (proper : ∀ name ∈ type.names, IsIdentifier name)
    (proper' : ∀ name ∈ type'.names, IsIdentifier name) (same : type.text = type'.text) :
    type.erased = type'.erased := by
  have stop : ∀ c ∈ ([] : List Char).head?, isWordPart c = false := by
    simp
  exact (text_append_inj proper proper' stop stop (by rw [same])).1

/-! ### Lines -/

mutual

/-- A type is written within a line if its names are. -/
theorem newline_not_mem_text :
    ∀ {type : TypeExpr}, (∀ name ∈ type.names, '\n' ∉ name.toList) → '\n' ∉ type.text.toList
  | .builtin _ type, _ => type.name_isIdentifier.newline_not_mem
  | .named _ name, proper => proper name (List.mem_singleton_self name)
  | .tuple _ items, proper => by
      have inside := newline_not_mem_listText proper
      rw [toList_text_tuple]
      simpa using inside

theorem newline_not_mem_listText :
    ∀ {items : List TypeExpr}, (∀ name ∈ listNames items, '\n' ∉ name.toList) →
      '\n' ∉ (listText items).toList
  | [], _ => by
      decide
  | item :: items, proper => by
      rw [listNames, List.forall_mem_append] at proper
      have first := newline_not_mem_text proper.1
      have others := newline_not_mem_listText proper.2
      rw [toList_listText_cons, List.mem_append, not_or]
      refine ⟨first, ?_⟩
      cases items with
      | nil =>
          exact List.not_mem_nil
      | cons next items =>
          rw [moreText]
          · simpa using others
          · exact nofun

end

end TypeExpr

end FrontEnd
