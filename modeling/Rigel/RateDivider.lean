import Mathlib.Order.Basic

/-!
# RateDivider — ticks divided without losing the remainder

A divider takes ticks in, in pieces of any size, and lets one pulse out for every `d` of them. What a piece leaves over
waits in the divider and is counted with the next piece, so how the ticks are cut into pieces makes no difference to how
many pulses have come out. Nothing here knows what the ticks are.
-/

namespace Rigel

/-- A divider by `d` has taken in `total` ticks and let out `out` pulses, and `rem` ticks wait in it. -/
structure Divided (d rem out total : Nat) : Prop where
  kept : d * out + rem = total
  short : rem < d

namespace Divided

variable {d rem out total : Nat}

theorem start (hd : 0 < d) : Divided d 0 0 0 := ⟨by simp, hd⟩

/-- **One piece taken in.** -/
theorem feed (h : Divided d rem out total) (piece : Nat) :
    Divided d ((rem + piece) % d) (out + (rem + piece) / d) (total + piece) where
  kept := by
    have hpiece : d * ((rem + piece) / d) + (rem + piece) % d = rem + piece := Nat.div_add_mod _ _
    have hkept := h.kept
    rw [Nat.mul_add]
    omega
  short := Nat.mod_lt _ (Nat.lt_of_le_of_lt (Nat.zero_le rem) h.short)

/-- **What has come out depends on the whole of what went in**, not on its pieces. -/
theorem out_eq (h : Divided d rem out total) : out = total / d := by
  rw [← h.kept, Nat.mul_add_div (Nat.lt_of_le_of_lt (Nat.zero_le rem) h.short), Nat.div_eq_of_lt h.short, Nat.add_zero]

end Divided

end Rigel
