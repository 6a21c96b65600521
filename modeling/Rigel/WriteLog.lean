import Mathlib.Logic.Function.Basic

/-!
# WriteLog — a store after a numbered series of writes

`n` writes applied in order to a function: a cell holds the value of the last write that named it, or what it held
before. The writes are numbered functions, not a list, so that a producer can be stated word by word.
-/

namespace WriteLog

variable {α β : Type} [DecidableEq α]

/-- The store after the writes `0, …, n - 1`: write `i` puts `val i` at `addr i`. -/
def written (m : α → β) (addr : Nat → α) (val : Nat → β) : Nat → α → β
  | 0 => m
  | n + 1 => Function.update (written m addr val n) (addr n) (val n)

variable {m : α → β} {addr : Nat → α} {val : Nat → β}

/-- A cell that no write names keeps what it held. -/
theorem written_of_not_named {a : α} : ∀ {n : Nat}, (∀ i < n, addr i ≠ a) → written m addr val n a = m a
  | 0, _ => rfl
  | n + 1, h => by
    unfold written
    rw [Function.update_of_ne (h n n.lt_succ_self).symm]
    exact written_of_not_named (fun i hi => h i (Nat.lt_succ_of_lt hi))

/-- **The last writer wins.** -/
theorem written_last {i : Nat} : ∀ {n : Nat}, i < n → (∀ j, i < j → j < n → addr j ≠ addr i) →
    written m addr val n (addr i) = val i
  | 0, hi, _ => absurd hi i.not_lt_zero
  | n + 1, hi, h => by
    unfold written
    rcases Nat.lt_succ_iff_lt_or_eq.1 hi with hlt | rfl
    · rw [Function.update_of_ne (h n hlt n.lt_succ_self).symm]
      exact written_last hlt (fun j hij hj => h j hij (Nat.lt_succ_of_lt hj))
    · rw [Function.update_self]

end WriteLog
