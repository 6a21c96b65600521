import Mathlib.Data.List.Basic
import Mathlib.Data.Nat.ModEq
import Mathlib.Logic.Function.Basic

/-!
# Ring — the queue in a ring buffer

A ring buffer is a store of `size` cells, the index of the oldest entry, and a count. `ringContents` reads the entries
from the oldest on; writing the cell behind the newest appends to them, and moving the head drops the first. Nothing
here knows what the entries are.
-/

namespace Rigel

section
variable {α : Type*}

/-- The entries, the oldest first. -/
def ringContents (buf : Nat → α) (size head count : Nat) : List α :=
  (List.range count).map fun i => buf ((head + i) % size)

/-- Different offsets of less than a turn are different cells. -/
theorem ring_index_ne {size head i j : Nat} (hi : i < size) (hj : j < size) (h : i ≠ j) :
    (head + i) % size ≠ (head + j) % size := by
  intro he
  apply h
  have hmod : i % size = j % size := Nat.ModEq.add_left_cancel' head he
  rwa [Nat.mod_eq_of_lt hi, Nat.mod_eq_of_lt hj] at hmod

/-- **Writing behind the newest entry appends.** -/
theorem ringContents_push {buf : Nat → α} {size head count : Nat} (h : count < size) (x : α) :
    ringContents (Function.update buf ((head + count) % size) x) size head (count + 1) =
      ringContents buf size head count ++ [x] := by
  unfold ringContents
  rw [List.range_succ, List.map_append]
  congr 1
  · apply List.map_congr_left
    intro i hi
    have hlt := List.mem_range.mp hi
    exact Function.update_of_ne (ring_index_ne (Nat.lt_trans hlt h) h (Nat.ne_of_lt hlt)) _ _
  · simp

/-- **Moving the head drops the oldest entry.** -/
theorem ringContents_pop (buf : Nat → α) {size head : Nat} (hhead : head < size) (count : Nat) :
    ringContents buf size head (count + 1) = buf head :: ringContents buf size ((head + 1) % size) count := by
  unfold ringContents
  rw [List.range_succ_eq_map, List.map_cons, List.map_map, Nat.add_zero, Nat.mod_eq_of_lt hhead]
  congr 1
  apply List.map_congr_left
  intro i _
  show buf ((head + (i + 1)) % size) = buf (((head + 1) % size + i) % size)
  rw [Nat.mod_add_mod, Nat.add_right_comm, Nat.add_assoc head i 1]

end

end Rigel
