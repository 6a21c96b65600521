import Mathlib.Algebra.Order.Floor.Div
import Mathlib.Data.Nat.Basic

/-!
# TimeConversion — cycles and microseconds

An amount of one unit in another one, rounded down, loses less than one of the new unit, and on its way back at most as many
of the old unit as go into one of the new. `rigel_cycles_to_us` and `rigel_us_to_cycles` are this for as long as the product
that stands before the division fits 64 bits.
-/

namespace Rigel

/-! ## Changes of unit -/

/-- So many of a unit in another one, of which `m` are as much as `n` of the first. -/
def changeUnit (m n x : Nat) : Nat := x * m / n

section
variable {m n : Nat}

theorem changeUnit_mono {x y : Nat} (h : x ≤ y) : changeUnit m n x ≤ changeUnit m n y :=
  Nat.div_le_div_right (Nat.mul_le_mul_right m h)

/-- **There and back is no more** than there was. -/
theorem changeUnit_back_le (hm : 0 < m) (x : Nat) : changeUnit n m (changeUnit m n x) ≤ x := by
  have hthere : x * m / n * n ≤ x * m := Nat.div_mul_le_self _ _
  exact (Nat.div_le_div_right hthere).trans_eq (Nat.mul_div_cancel x hm)

/-- **There and back loses at most** as many as go into one of the other unit. -/
theorem le_changeUnit_back (hm : 0 < m) (hn : 0 < n) (x : Nat) :
    x ≤ changeUnit n m (changeUnit m n x) + n ⌈/⌉ m := by
  unfold changeUnit
  generalize hy : x * m / n = y
  generalize hz : y * n / m = z
  have hthere : x * m < y * n + n := hy ▸ Nat.lt_div_mul_add hn
  have hback : y * n < z * m + m := hz ▸ Nat.lt_div_mul_add hm
  have hceil : n ≤ m * (n ⌈/⌉ m) := (ceilDiv_le_iff_le_mul hm).mp le_rfl
  have hlt : x * m < (z + n ⌈/⌉ m + 1) * m := by
    calc x * m < z * m + m + m * (n ⌈/⌉ m) := by omega
      _ = (z + n ⌈/⌉ m + 1) * m := by rw [Nat.add_mul, Nat.add_mul, Nat.one_mul, Nat.mul_comm m, Nat.add_right_comm]
  exact Nat.le_of_lt_succ (Nat.lt_of_mul_lt_mul_right hlt)

end

/-! ## The two functions -/

def rigelClockHzPal : UInt32 := 7093790

def rigelCyclesToUs (cycles : UInt64) (clockHz : UInt32) : UInt64 :=
  let clockHz := if clockHz = 0 then rigelClockHzPal else clockHz
  cycles * 1000000 / clockHz.toUInt64

def rigelUsToCycles (microseconds : UInt64) (clockHz : UInt32) : UInt64 :=
  let clockHz := if clockHz = 0 then rigelClockHzPal else clockHz
  microseconds * clockHz.toUInt64 / 1000000

/-- **The conversion is that of the units.** The microseconds are the floor if this fits, so that more cycles are no fewer
microseconds, and on the way back at most the cycles of one microsecond are lost. -/
structure TimeConverts (c : UInt64) (hz : UInt32) : Prop where
  floor : c.toNat * 1000000 / hz.toNat < 2 ^ 64 → (rigelCyclesToUs c hz).toNat = c.toNat * 1000000 / hz.toNat
  mono : c.toNat * 1000000 / hz.toNat < 2 ^ 64 → ∀ c' ≤ c, rigelCyclesToUs c' hz ≤ rigelCyclesToUs c hz
  back : rigelUsToCycles (rigelCyclesToUs c hz) hz ≤ c
  near : c.toNat - (rigelUsToCycles (rigelCyclesToUs c hz) hz).toNat ≤ hz.toNat ⌈/⌉ 1000000

/-- The cycles in millionths fit 64 bits. -/
def MillionthsFit (c : UInt64) : Prop := c.toNat * 1000000 < 2 ^ 64

instance (c : UInt64) : Decidable (MillionthsFit c) := inferInstanceAs (Decidable (_ < _))

section
variable {hz : UInt32} (hpos : 0 < hz)
include hpos

theorem clockHz_pos : 0 < hz.toNat := UInt32.lt_iff_toNat_lt.mp hpos

theorem rigelCyclesToUs_toNat (c : UInt64) : (rigelCyclesToUs c hz).toNat = c.toNat * 1000000 % 2 ^ 64 / hz.toNat := by
  have hne : hz ≠ 0 := fun h => absurd (h ▸ hpos) (by decide)
  simp only [rigelCyclesToUs, if_neg hne, UInt64.toNat_div, UInt64.toNat_mul, UInt32.toNat_toUInt64]
  rfl

/-- The product of the way back is no more than that of the way there, which the microseconds are made from. -/
theorem rigelUsToCycles_cyclesToUs (c : UInt64) : (rigelUsToCycles (rigelCyclesToUs c hz) hz).toNat =
    c.toNat * 1000000 % 2 ^ 64 / hz.toNat * hz.toNat / 1000000 := by
  have hne : hz ≠ 0 := fun h => absurd (h ▸ hpos) (by decide)
  have hfits : c.toNat * 1000000 % 2 ^ 64 / hz.toNat * hz.toNat < 2 ^ 64 :=
    Nat.lt_of_le_of_lt (Nat.div_mul_le_self _ _) (Nat.mod_lt _ (by decide))
  unfold rigelUsToCycles
  simp only [if_neg hne, UInt64.toNat_div, UInt64.toNat_mul, UInt32.toNat_toUInt64, rigelCyclesToUs_toNat hpos]
  rw [Nat.mod_eq_of_lt hfits]
  rfl

/-- While the product fits, both ways are changes of unit. -/
theorem rigelCyclesToUs_fits {c : UInt64} (h : MillionthsFit c) :
    (rigelCyclesToUs c hz).toNat = changeUnit 1000000 hz.toNat c.toNat ∧
      (rigelUsToCycles (rigelCyclesToUs c hz) hz).toNat =
        changeUnit hz.toNat 1000000 (changeUnit 1000000 hz.toNat c.toNat) := by
  rw [rigelCyclesToUs_toNat hpos, rigelUsToCycles_cyclesToUs hpos, Nat.mod_eq_of_lt h]
  exact ⟨rfl, rfl⟩

theorem TimeConverts.of_fits {c : UInt64} (h : MillionthsFit c) : TimeConverts c hz where
  floor := fun _ => (rigelCyclesToUs_fits hpos h).1
  mono := by
    intro _ c' hle
    have hle' : c'.toNat ≤ c.toNat := UInt64.le_iff_toNat_le.mp hle
    have h' : MillionthsFit c' := Nat.lt_of_le_of_lt (Nat.mul_le_mul_right _ hle') h
    rw [UInt64.le_iff_toNat_le, (rigelCyclesToUs_fits hpos h).1, (rigelCyclesToUs_fits hpos h').1]
    exact changeUnit_mono hle'
  back := by
    rw [UInt64.le_iff_toNat_le, (rigelCyclesToUs_fits hpos h).2]
    exact changeUnit_back_le (by decide) _
  near := by
    rw [(rigelCyclesToUs_fits hpos h).2]
    have hback := le_changeUnit_back (m := 1000000) (by decide) (clockHz_pos hpos) c.toNat
    omega

/-- **A product that wraps loses more** than the roundings do, by some 18 million million cycles. -/
theorem wraps_far {c : UInt64} (h : ¬ MillionthsFit c) :
    hz.toNat ⌈/⌉ 1000000 < c.toNat - (rigelUsToCycles (rigelCyclesToUs c hz) hz).toNat := by
  have hwrap : c.toNat * 1000000 % 2 ^ 64 + 2 ^ 64 ≤ c.toNat * 1000000 := by
    have hmod := Nat.mod_add_div (c.toNat * 1000000) (2 ^ 64)
    have hdiv : 1 ≤ c.toNat * 1000000 / 2 ^ 64 := Nat.div_pos (Nat.le_of_not_lt h) (by decide)
    omega
  have hback : c.toNat * 1000000 % 2 ^ 64 / hz.toNat * hz.toNat ≤ c.toNat * 1000000 % 2 ^ 64 := Nat.div_mul_le_self _ _
  have hhz : hz.toNat < 2 ^ 32 := hz.toNat_lt
  rw [rigelUsToCycles_cyclesToUs hpos, Nat.ceilDiv_eq_add_pred_div]
  omega

end

/-- **When the conversions are those of the units**: exactly while the cycles in millionths fit 64 bits. -/
theorem timeConverts_iff (c : UInt64) {hz : UInt32} (hpos : 0 < hz) : TimeConverts c hz ↔ MillionthsFit c := by
  refine ⟨fun h => ?_, TimeConverts.of_fits hpos⟩
  by_contra hwraps
  exact absurd h.near (Nat.not_le.mpr (wraps_far hpos hwraps))

/-- The cycles of a PAL frame. -/
theorem palFrame_converts : TimeConverts 141648 7093790 := (timeConverts_iff 141648 (by decide)).mpr (by decide)

/-- The first count of cycles that wraps is no microsecond. -/
theorem wrappedCycles_lost : ¬ TimeConverts 18446744073710 7093790 := by
  intro h
  have hfloor : rigelCyclesToUs 18446744073710 7093790 = 0 := by decide
  have hnear := h.near
  rw [hfloor] at hnear
  exact absurd hnear (by decide)

end Rigel
