import Mathlib.Algebra.Order.Ring.Int
import Mathlib.Tactic.Ring

/-!
# Bresenham — the digital line and its error term

A line of slope `dy / dx` with `dy ≤ dx`, stepped along its major axis: after `k` steps its minor offset is
`⌊(2k·dy + dx) / 2dx⌋`, the nearest integer to `k·dy/dx`. The error term is four times the distance by which the next
pixel is beyond the midpoint; its sign alone says whether the next step moves along the minor axis too, and it never
leaves `[4dy - 4dx, 4dy)`. Nothing here knows who draws the line.
-/

namespace Bresenham

/-- The minor offset of pixel `k`. -/
def minor (dx dy k : Nat) : Nat := (2 * k * dy + dx) / (2 * dx)

/-- The error term at pixel `k`. -/
def error (dx dy k : Nat) : Int := 4 * dy * (k + 1) - 2 * dx - 4 * dx * minor dx dy k

variable {dx dy : Nat}

/-- The minor offset, without the division. -/
theorem minor_bounds (hpos : 0 < dx) (k : Nat) :
    2 * (dx * minor dx dy k) ≤ 2 * (k * dy) + dx ∧ 2 * (k * dy) + dx < 2 * (dx * minor dx dy k) + 2 * dx := by
  have hlo := Nat.div_mul_le_self (2 * k * dy + dx) (2 * dx)
  have hhi := Nat.lt_mul_div_succ (2 * k * dy + dx) (show 0 < 2 * dx by omega)
  have h1 : (2 * k * dy + dx) / (2 * dx) * (2 * dx) = 2 * (dx * minor dx dy k) := by unfold minor; ring
  have h2 : 2 * dx * ((2 * k * dy + dx) / (2 * dx) + 1) = 2 * (dx * minor dx dy k) + 2 * dx := by unfold minor; ring
  have h3 : 2 * k * dy = 2 * (k * dy) := Nat.mul_assoc 2 k dy
  rw [h1, h3] at hlo
  rw [h2, h3] at hhi
  exact ⟨hlo, hhi⟩

theorem minor_unique {k m : Nat} (hlo : 2 * (dx * m) ≤ 2 * (k * dy) + dx)
    (hhi : 2 * (k * dy) + dx < 2 * (dx * m) + 2 * dx) : minor dx dy k = m := by
  have h3 : 2 * k * dy = 2 * (k * dy) := Nat.mul_assoc 2 k dy
  unfold minor
  rw [h3]
  refine Nat.div_eq_of_lt_le ?_ ?_
  · calc m * (2 * dx) = 2 * (dx * m) := by ring
      _ ≤ _ := hlo
  · calc 2 * (k * dy) + dx < 2 * (dx * m) + 2 * dx := hhi
      _ = (m + 1) * (2 * dx) := by ring

theorem minor_zero (hpos : 0 < dx) : minor dx dy 0 = 0 :=
  minor_unique (by simp) (by simp; omega)

theorem error_eq (k : Nat) :
    error dx dy k = 4 * (k * dy : Nat) + 4 * dy - 2 * dx - 4 * (dx * minor dx dy k : Nat) := by
  unfold error
  push_cast
  ring

theorem error_zero (hpos : 0 < dx) : error dx dy 0 = 4 * dy - 2 * dx := by
  rw [error_eq, minor_zero hpos]
  simp

/-- **The sign decides the step.** -/
theorem minor_succ (hpos : 0 < dx) (hle : dy ≤ dx) (k : Nat) :
    minor dx dy (k + 1) = if error dx dy k < 0 then minor dx dy k else minor dx dy k + 1 := by
  obtain ⟨hlo, hhi⟩ := @minor_bounds dx dy hpos k
  have hk : (k + 1) * dy = k * dy + dy := Nat.succ_mul k dy
  have he := @error_eq dx dy k
  split
  · refine minor_unique ?_ ?_
    · omega
    · omega
  · have hm : dx * (minor dx dy k + 1) = dx * minor dx dy k + dx := Nat.mul_succ _ _
    refine minor_unique ?_ ?_
    · omega
    · omega

/-- The error term moves by `4dy`, and back by `4dx` when the minor axis has moved. -/
theorem error_succ (hpos : 0 < dx) (hle : dy ≤ dx) (k : Nat) :
    error dx dy (k + 1) = error dx dy k + if error dx dy k < 0 then 4 * (dy : Int) else 4 * ((dy : Int) - dx) := by
  have hk : (k + 1) * dy = k * dy + dy := Nat.succ_mul k dy
  have he := @error_eq dx dy k
  rw [error_eq (k + 1), minor_succ hpos hle k]
  split
  · omega
  · have hm : dx * (minor dx dy k + 1) = dx * minor dx dy k + dx := Nat.mul_succ _ _
    omega

/-- The error term stays in a band of width `4dx`. -/
theorem error_bounds (hpos : 0 < dx) (k : Nat) :
    4 * (dy : Int) - 4 * dx ≤ error dx dy k ∧ error dx dy k < 4 * dy := by
  obtain ⟨hlo, hhi⟩ := @minor_bounds dx dy hpos k
  have he := @error_eq dx dy k
  omega

end Bresenham
