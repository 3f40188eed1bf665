/-
Module: FrontEnd.Proofs.TextCuts
Layer: Proofs
Purpose: Texts and their cuts. A list of characters is cut at the byte size of a prefix and nowhere
  else, so a slice by byte positions is the same thing as a middle part of a list of characters.
Imports: FrontEnd.Text.Basic, Mathlib.Data.List.TakeWhile
Trusted boundary: none
Main exports: Text.utf8ByteSize_eq, Text.utf8Size_pos, Text.takeWhile_append_of_stop,
  Text.dropWhile_append_of_stop, Text.append_inj_of_stop, Text.cut?_append,
  Text.eq_append_of_cut?, Text.slice?_eq_some_iff, Text.append_inj_of_utf8Size,
  Text.utf8Size_le_of_sublist
Open obligations: none
-/
import FrontEnd.Text.Basic
import Mathlib.Data.List.TakeWhile

namespace FrontEnd

namespace Text

/-! ### Sizes -/

/-- The size of a string is the size of its characters. -/
theorem utf8ByteSize_ofList (text : List Char) :
    (String.ofList text).utf8ByteSize = utf8Size text := by
  induction text with
  | nil =>
      rfl
  | cons c text ih =>
      have split : String.ofList (c :: text) = String.singleton c ++ String.ofList text := by
        rw [String.singleton_eq_ofList, ← String.ofList_append]
        rfl
      rw [split, String.utf8ByteSize_append, ih, String.utf8ByteSize_singleton, utf8Size_cons]

theorem utf8ByteSize_eq (text : String) : text.utf8ByteSize = utf8Size text.toList := by
  rw [← utf8ByteSize_ofList, String.ofList_toList]

/-- Only the empty text takes no byte. -/
theorem utf8Size_pos {text : List Char} (filled : text ≠ []) : 0 < utf8Size text := by
  cases text with
  | nil =>
      exact absurd rfl filled
  | cons c text =>
      have := c.utf8Size_pos
      simp only [utf8Size_cons]
      omega

/-- No character takes less than a byte. -/
theorem length_le_utf8Size (text : List Char) : text.length ≤ utf8Size text := by
  induction text with
  | nil =>
      exact Nat.le_refl 0
  | cons c text ih =>
      have := c.utf8Size_pos
      rw [List.length_cons, utf8Size_cons]
      omega

theorem count_le_utf8Size (c : Char) (text : List Char) : text.count c ≤ utf8Size text :=
  Nat.le_trans List.count_le_length (length_le_utf8Size text)

/-- What is left of a text is no larger than the text. -/
theorem utf8Size_le_of_sublist {part text : List Char} (left : part.Sublist text) :
    utf8Size part ≤ utf8Size text := by
  induction left with
  | slnil =>
      exact Nat.le_refl 0
  | cons c left ih =>
      rw [utf8Size_cons]
      exact Nat.le_trans ih (Nat.le_add_left _ _)
  | cons_cons c left ih =>
      rw [utf8Size_cons, utf8Size_cons]
      exact Nat.add_le_add_left ih _

/-- A part of a string is no larger than the string. -/
theorem utf8Size_le_of_infix {part : List Char} {text : String} (inside : part <:+: text.toList) :
    utf8Size part ≤ text.utf8ByteSize := by
  rw [utf8ByteSize_eq]
  exact utf8Size_le_of_sublist inside.sublist

/-! ### Runs of a class of characters -/

/-- A number in decimal form has only digits. -/
theorem isDigit_toDigits (number : Nat) : ∀ c ∈ Nat.toDigits 10 number, c.isDigit = true :=
  fun _ member => Nat.isDigit_of_mem_toDigits (by decide) (by decide) member

/-- There is no point among digits. -/
theorem point_not_mem {digits : List Char} (inside : ∀ d ∈ digits, d.isDigit = true) :
    '.' ∉ digits := by
  intro member
  exact absurd (inside '.' member) (by decide)

/-- There is no newline in a number in decimal form. -/
theorem newline_not_mem_toString (number : Nat) : '\n' ∉ (toString number).toList := by
  rw [Nat.toString_eq_ofList_toDigits, String.toList_ofList]
  intro member
  exact absurd (isDigit_toDigits number '\n' member) (by decide)

/-- A run of characters of a class that ends before a character outside of it is what `takeWhile`
    takes. -/
theorem takeWhile_append_of_stop {α : Type} {p : α → Bool} {run rest : List α}
    (inside : ∀ c ∈ run, p c = true) (stop : ∀ c ∈ rest.head?, p c = false) :
    (run ++ rest).takeWhile p = run := by
  rw [List.takeWhile_append_of_pos inside]
  cases rest with
  | nil =>
      simp
  | cons c rest =>
      have outside : p c = false := stop c rfl
      simp [outside]

/-- What is behind such a run is what `dropWhile` leaves. -/
theorem dropWhile_append_of_stop {α : Type} {p : α → Bool} {run rest : List α}
    (inside : ∀ c ∈ run, p c = true) (stop : ∀ c ∈ rest.head?, p c = false) :
    (run ++ rest).dropWhile p = rest := by
  rw [List.dropWhile_append_of_pos inside]
  cases rest with
  | nil =>
      rfl
  | cons c rest =>
      have outside : p c = false := stop c rfl
      simp [outside]

/-- Where such a run ends can be told from the text behind it. -/
theorem append_inj_of_stop {α : Type} {p : α → Bool} {run run' rest rest' : List α}
    (inside : ∀ c ∈ run, p c = true) (inside' : ∀ c ∈ run', p c = true)
    (stop : ∀ c ∈ rest.head?, p c = false) (stop' : ∀ c ∈ rest'.head?, p c = false)
    (same : run ++ rest = run' ++ rest') : run = run' ∧ rest = rest' := by
  have runs := congrArg (List.takeWhile p) same
  rw [takeWhile_append_of_stop inside stop, takeWhile_append_of_stop inside' stop'] at runs
  subst runs
  exact ⟨rfl, List.append_cancel_left same⟩

/-- A run of characters of a class does not reach into a text that begins outside of the class. -/
theorem takeWhile_append_of_head {p : Char → Bool} {front back : List Char}
    (stop : ∀ c ∈ back.head?, p c = false) :
    (front ++ back).takeWhile p = front.takeWhile p := by
  induction front with
  | nil =>
      exact takeWhile_append_of_stop (List.forall_mem_nil _) stop
  | cons c front ih =>
      rw [List.cons_append, List.takeWhile_cons, List.takeWhile_cons, ih]

/-- `dropWhile` stops before a character outside of the class. -/
theorem stop_dropWhile (p : Char → Bool) (text : List Char) :
    ∀ c ∈ (text.dropWhile p).head?, p c = false := by
  intro c found
  have stopped := List.head?_dropWhile_not p text
  rw [Option.mem_def.mp found] at stopped
  exact stopped

/-- What is taken from a text is no larger than the text. -/
theorem utf8Size_takeWhile_le (p : Char → Bool) (text : List Char) :
    utf8Size (text.takeWhile p) ≤ utf8Size text :=
  utf8Size_le_of_sublist (List.takeWhile_sublist p)

/-! ### Items behind others -/

/-- What holds of each item of a list behind the items before it holds in a longer list, if it holds
    of the new item behind all others. -/
theorem forall_split_concat {α : Type} {fits : List α → α → Prop} {items : List α} {new : α}
    (earlier : ∀ front item back, items = front ++ item :: back → fits front item)
    (last : fits items new) :
    ∀ front item back, items ++ [new] = front ++ item :: back → fits front item := by
  intro front item back split
  rcases List.eq_nil_or_concat back with rfl | ⟨back, other, rfl⟩
  · obtain ⟨rfl, same⟩ := List.append_inj' split rfl
    cases same
    exact last
  · rw [List.concat_eq_append, ← List.cons_append, ← List.append_assoc] at split
    obtain ⟨same, -⟩ := List.append_inj' split rfl
    exact earlier front item back same

/-! ### Cuts and slices -/

/-- A text can be cut behind any of its prefixes. -/
theorem cut?_append (front back : List Char) :
    cut? (front ++ back) (utf8Size front) = some (front, back) := by
  induction front with
  | nil =>
      unfold cut?
      rfl
  | cons c front ih =>
      obtain ⟨count, size⟩ : ∃ count, utf8Size (c :: front) = count + 1 :=
        Nat.exists_eq_succ_of_ne_zero (utf8Size_pos (List.cons_ne_nil c front)).ne'
      have total : count + 1 = c.utf8Size + utf8Size front := size.symm
      have fits : c.utf8Size ≤ count + 1 := by omega
      have left : count + 1 - c.utf8Size = utf8Size front := by omega
      rw [size, List.cons_append, cut?, if_pos fits, left, ih]
      rfl

/-- The parts of a cut make up the text, and the front has the size that was asked for. -/
theorem eq_append_of_cut? {text front back : List Char} {count : Nat}
    (cut : cut? text count = some (front, back)) :
    text = front ++ back ∧ utf8Size front = count := by
  induction text generalizing front count with
  | nil =>
      cases count with
      | zero =>
          simp only [cut?, Option.some.injEq, Prod.mk.injEq] at cut
          obtain ⟨rfl, rfl⟩ := cut
          exact ⟨rfl, rfl⟩
      | succ count =>
          simp [cut?] at cut
  | cons c text ih =>
      cases count with
      | zero =>
          simp only [cut?, Option.some.injEq, Prod.mk.injEq] at cut
          obtain ⟨rfl, rfl⟩ := cut
          exact ⟨rfl, rfl⟩
      | succ count =>
          rw [cut?] at cut
          split at cut
          · rename_i fits
            obtain ⟨⟨inner, rest⟩, found, same⟩ := Option.map_eq_some_iff.mp cut
            simp only [Prod.mk.injEq] at same
            obtain ⟨rfl, rfl⟩ := same
            obtain ⟨rfl, size⟩ := ih found
            refine ⟨rfl, ?_⟩
            rw [utf8Size_cons, size]
            omega
          · cases cut

/-- A slice is a middle part of the text that starts and stops at the given positions. -/
theorem slice?_eq_some_iff {text part : List Char} {start stop : Nat} :
    slice? text start stop = some part ↔
      ∃ front back, text = front ++ part ++ back ∧ utf8Size front = start ∧
        start + utf8Size part = stop := by
  constructor
  · intro sliced
    unfold slice? at sliced
    split at sliced
    · rename_i order
      simp only [Option.bind_eq_bind, Option.bind_eq_some_iff, Option.some.injEq] at sliced
      obtain ⟨⟨front, rest⟩, outer, ⟨middle, back⟩, inner, rfl⟩ := sliced
      obtain ⟨rfl, startEq⟩ := eq_append_of_cut? outer
      obtain ⟨rfl, sizeEq⟩ := eq_append_of_cut? inner
      have size : utf8Size middle = stop - start := sizeEq
      refine ⟨front, back, by simp, startEq, ?_⟩
      change start + utf8Size middle = stop
      omega
    · cases sliced
  · rintro ⟨front, back, rfl, rfl, rfl⟩
    have inner : utf8Size front + utf8Size part - utf8Size front = utf8Size part := by omega
    rw [slice?, if_pos (Nat.le_add_right _ _), List.append_assoc, cut?_append]
    simp [inner, cut?_append]

/-- Two prefixes of one size of the same text are the same, and so is what follows them. -/
theorem append_inj_of_utf8Size {front front' back back' : List Char}
    (same : front ++ back = front' ++ back') (size : utf8Size front = utf8Size front') :
    front = front' ∧ back = back' := by
  have cut := cut?_append front back
  rw [same, size, cut?_append] at cut
  cases cut
  exact ⟨rfl, rfl⟩

end Text

end FrontEnd
