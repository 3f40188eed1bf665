/-
Module: FrontEnd.Offset.Arithmetic
Layer: Source
Purpose: Sums and differences of offsets. A result that no offset can hold is a fault and is never
  wrapped or cut off.
Imports: FrontEnd.Fault
Trusted boundary: none
Main exports: Offset.add, Offset.sub, Offset.add_eq_ok_iff, Offset.sub_eq_ok_iff
Open obligations: none
-/
import FrontEnd.Fault

namespace FrontEnd

namespace Offset

/-- The sum of two offsets, a fault when it passes the limit. -/
def add (left right : Nat) : Except Fault Nat :=
  if left + right ≤ limit then .ok (left + right) else .error .additionOverflow

/-- The difference of two offsets, a fault when it would be negative. -/
def sub (left right : Nat) : Except Fault Nat :=
  if right ≤ left then .ok (left - right) else .error .subtractionOverflow

/-- A sum is an offset exactly when it stays within the limit. -/
theorem add_eq_ok_iff {left right result : Nat} :
    add left right = .ok result ↔ left + right ≤ limit ∧ result = left + right := by
  unfold add
  split
  · simp [*, eq_comm]
  · simp [*]

/-- A difference is an offset exactly when nothing is borrowed. -/
theorem sub_eq_ok_iff {left right result : Nat} :
    sub left right = .ok result ↔ right ≤ left ∧ result = left - right := by
  unfold sub
  split
  · simp [*, eq_comm]
  · simp [*]

end Offset

end FrontEnd
