/-
Module: FrontEnd.Proofs.CharacterBoundaries
Layer: Proofs
Purpose: Character boundaries. Below every byte position there is a greatest one, stepping back from
  the position finds it without leaving the text, and any two boundaries in order cut out a slice.
Imports: FrontEnd.Text.Boundary, FrontEnd.Proofs.TextCuts
Trusted boundary: none
Main exports: Text.isBoundary_iff, Text.IsFloor, Text.stepBack_eq_ok_iff,
  Text.floorBoundary_eq_ok_iff, Text.exists_slice?
Open obligations: none
-/
import FrontEnd.Text.Boundary
import FrontEnd.Proofs.TextCuts

namespace FrontEnd

namespace Text

/-! ### Boundaries -/

variable {text : List Char} {position boundary : Nat}

/-- A boundary is the size of a front of the text. -/
theorem isBoundary_iff :
    isBoundary text position = true ↔
      ∃ front back, text = front ++ back ∧ utf8Size front = position := by
  rw [isBoundary, Option.isSome_iff_exists]
  constructor
  · rintro ⟨⟨front, back⟩, cut⟩
    exact ⟨front, back, eq_append_of_cut? cut⟩
  · rintro ⟨front, back, rfl, rfl⟩
    exact ⟨_, cut?_append front back⟩

theorem isBoundary_zero (text : List Char) : isBoundary text 0 = true :=
  isBoundary_iff.mpr ⟨[], text, rfl, rfl⟩

/-- No boundary is behind the end of the text. -/
theorem le_utf8Size_of_isBoundary (reached : isBoundary text position = true) :
    position ≤ utf8Size text := by
  obtain ⟨front, back, rfl, rfl⟩ := isBoundary_iff.mp reached
  rw [utf8Size_append]
  exact Nat.le_add_right _ _

/-- Of two boundaries, the later one is a boundary. -/
theorem isBoundary_max {other : Nat} (reached : isBoundary text position = true)
    (reachedOther : isBoundary text other = true) :
    isBoundary text (max position other) = true := by
  rcases Nat.le_total position other with le | le
  · rwa [Nat.max_eq_right le]
  · rwa [Nat.max_eq_left le]

/-! ### The greatest boundary below a position -/

/-- A boundary that is the greatest one at or below a position. -/
structure IsFloor (text : List Char) (position boundary : Nat) : Prop where
  reached : isBoundary text boundary = true
  atMost : boundary ≤ position
  greatest : ∀ other ≤ position, isBoundary text other = true → other ≤ boundary

/-- Positions behind the end of the text have the end as their floor, like the end itself. -/
theorem isFloor_min_iff :
    IsFloor text (min position (utf8Size text)) boundary ↔ IsFloor text position boundary := by
  constructor
  · rintro ⟨reached, atMost, greatest⟩
    refine ⟨reached, by omega, fun other below boundary => ?_⟩
    have inText := le_utf8Size_of_isBoundary boundary
    exact greatest other (by omega) boundary
  · rintro ⟨reached, atMost, greatest⟩
    have inText := le_utf8Size_of_isBoundary reached
    exact ⟨reached, by omega, fun other below => greatest other (by omega)⟩

/-- A position has one floor. -/
theorem IsFloor.unique {other : Nat} (floor : IsFloor text position boundary)
    (floorToo : IsFloor text position other) : boundary = other :=
  Nat.le_antisymm (floorToo.greatest _ floor.atMost floor.reached)
    (floor.greatest _ floorToo.atMost floorToo.reached)

/-- The end of a front is its own floor. -/
theorem isFloor_utf8Size (front back : List Char) :
    IsFloor (front ++ back) (utf8Size front) (utf8Size front) where
  reached := isBoundary_iff.mpr ⟨front, back, rfl, rfl⟩
  atMost := Nat.le_refl _
  greatest _ below _ := below

/-- Stepping back from a position ends, at the latest at the front of the text, and it ends at the
    floor of the position. -/
theorem exists_stepBack (text : List Char) (position : Nat) :
    ∃ boundary, stepBack text position = .ok boundary ∧ IsFloor text position boundary := by
  induction position with
  | zero =>
      refine ⟨0, ?_, isBoundary_zero text, Nat.le_refl 0, fun other below _ => below⟩
      rw [stepBack, if_pos (isBoundary_zero text)]
  | succ position ih =>
      rw [stepBack]
      split
      · rename_i reached
        exact ⟨position + 1, rfl, reached, Nat.le_refl _, fun other below _ => below⟩
      · rename_i inside
        obtain ⟨boundary, stepped, floor⟩ := ih
        refine ⟨boundary, stepped, floor.reached, Nat.le_succ_of_le floor.atMost, ?_⟩
        intro other below reached
        have skipped : other ≠ position + 1 := by
          rintro rfl
          exact inside reached
        exact floor.greatest other (by omega) reached

/-- The floor of a position is where stepping back from it ends. -/
theorem stepBack_eq_ok_iff :
    stepBack text position = .ok boundary ↔ IsFloor text position boundary := by
  obtain ⟨reached, stepped, floor⟩ := exists_stepBack text position
  rw [stepped, Except.ok.injEq]
  constructor
  · rintro rfl
    exact floor
  · exact floor.unique

/-- A position comes down to its floor, also from behind the end of the text. -/
theorem floorBoundary_eq_ok_iff :
    floorBoundary text position = .ok boundary ↔ IsFloor text position boundary :=
  stepBack_eq_ok_iff.trans isFloor_min_iff

theorem exists_floorBoundary (text : List Char) (position : Nat) :
    ∃ boundary, floorBoundary text position = .ok boundary ∧ IsFloor text position boundary := by
  obtain ⟨boundary, stepped, floor⟩ := exists_stepBack text (min position (utf8Size text))
  exact ⟨boundary, stepped, isFloor_min_iff.mp floor⟩

/-! ### Slices -/

/-- Two boundaries in order cut out a slice. -/
theorem exists_slice? {start stop : Nat} (reachedStart : isBoundary text start = true)
    (reachedStop : isBoundary text stop = true) (order : start ≤ stop) :
    ∃ part, slice? text start stop = some part := by
  obtain ⟨front, rest, rfl, rfl⟩ := isBoundary_iff.mp reachedStart
  obtain ⟨front', back, split, rfl⟩ := isBoundary_iff.mp reachedStop
  -- The front up to the later boundary begins with the front up to the earlier one.
  obtain ⟨part, rfl, rfl⟩ | ⟨part, rfl, rfl⟩ := List.append_eq_append_iff.mp split
  · refine ⟨part, slice?_eq_some_iff.mpr ⟨front, back, ?_, rfl, ?_⟩⟩
    · rw [List.append_assoc]
    · rw [utf8Size_append]
  · rw [utf8Size_append] at order
    obtain rfl : part = [] := by
      by_contra filled
      have := utf8Size_pos filled
      omega
    exact ⟨[], slice?_eq_some_iff.mpr ⟨front', rest, by simp, by simp, by simp⟩⟩

end Text

end FrontEnd
