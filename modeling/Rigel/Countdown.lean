import Mathlib.Logic.Function.Iterate

/-!
# Countdown — time taken in pieces of any size

A state has some units of time left before it fires. Time that falls short of them is spent; time that covers them fires
the state, and what remains is spent on the state that comes out. A loop that takes a piece of time in such passes comes
to the same state as single units, so that it does not matter how a span of time is cut up.
-/

/-- The units left, the state after some of them, and the state after the last one. -/
structure Countdown (σ : Type*) where
  need : σ → Nat
  spend : σ → Nat → σ
  fire : σ → σ

namespace Countdown

variable {σ : Type*}

/-- The laws of a countdown on the states that satisfy `Ok`: spending is additive and leaves the firing as it was. -/
structure Lawful (c : Countdown σ) (Ok : σ → Prop) : Prop where
  need_pos : ∀ s, Ok s → 0 < c.need s
  need_spend : ∀ s n, Ok s → n < c.need s → c.need (c.spend s n) = c.need s - n
  spend_zero : ∀ s, Ok s → c.spend s 0 = s
  spend_add : ∀ s n m, Ok s → n + m < c.need s → c.spend s (n + m) = c.spend (c.spend s n) m
  fire_spend : ∀ s n, Ok s → n < c.need s → c.fire (c.spend s n) = c.fire s
  ok_spend : ∀ s n, Ok s → n < c.need s → Ok (c.spend s n)
  ok_fire : ∀ s, Ok s → Ok (c.fire s)

/-- One unit of time. -/
def tick (c : Countdown σ) (s : σ) : σ := if c.need s = 1 then c.fire s else c.spend s 1

/-- One pass over `n` units: the state, and the units that it leaves. -/
def pass (c : Countdown σ) (s : σ) (n : Nat) : σ × Nat :=
  if n < c.need s then (c.spend s n, 0) else (c.fire s, n - c.need s)

variable {c : Countdown σ} {Ok : σ → Prop}

theorem Lawful.ok_tick (h : c.Lawful Ok) {s : σ} (hs : Ok s) : Ok (c.tick s) := by
  have hpos := h.need_pos s hs
  unfold tick
  split
  · exact h.ok_fire s hs
  · exact h.ok_spend s 1 hs (by omega)

theorem Lawful.ok_iterate (h : c.Lawful Ok) {s : σ} (hs : Ok s) : ∀ n : Nat, Ok (c.tick^[n] s)
  | 0 => hs
  | n + 1 => by
    rw [Function.iterate_succ_apply']
    exact h.ok_tick (h.ok_iterate hs n)

/-- Units that fall short are spent. -/
theorem Lawful.iterate_of_lt (h : c.Lawful Ok) {s : σ} (hs : Ok s) : ∀ {n : Nat}, n < c.need s →
    c.tick^[n] s = c.spend s n
  | 0, _ => (h.spend_zero s hs).symm
  | n + 1, hn => by
    have hlt : n < c.need s := Nat.lt_of_succ_lt hn
    have hneed := h.need_spend s n hs hlt
    rw [Function.iterate_succ_apply', h.iterate_of_lt hs hlt, tick, if_neg (by omega), h.spend_add s n 1 hs hn]

theorem Lawful.iterate_need (h : c.Lawful Ok) {s : σ} (hs : Ok s) : c.tick^[c.need s] s = c.fire s := by
  have hpos := h.need_pos s hs
  have hlt : c.need s - 1 < c.need s := by omega
  have hneed := h.need_spend s (c.need s - 1) hs hlt
  conv => lhs; rw [show c.need s = (c.need s - 1) + 1 by omega]
  rw [Function.iterate_succ_apply', h.iterate_of_lt hs hlt, tick, if_pos (by omega), h.fire_spend s _ hs hlt]

theorem Lawful.iterate_of_le (h : c.Lawful Ok) {s : σ} (hs : Ok s) {n : Nat} (hn : c.need s ≤ n) :
    c.tick^[n] s = c.tick^[n - c.need s] (c.fire s) := by
  rw [← h.iterate_need hs, ← Function.iterate_add_apply, Nat.sub_add_cancel hn]

/-- **A pass takes its units one by one.** -/
theorem Lawful.iterate_pass (h : c.Lawful Ok) {s : σ} (hs : Ok s) (n : Nat) :
    c.tick^[n] s = c.tick^[(c.pass s n).2] (c.pass s n).1 := by
  unfold pass
  split
  · rename_i hlt
    exact h.iterate_of_lt hs hlt
  · rename_i hle
    exact h.iterate_of_le hs (Nat.le_of_not_lt hle)

theorem Lawful.pass_lt (h : c.Lawful Ok) {s : σ} (hs : Ok s) {n : Nat} (hn : 0 < n) : (c.pass s n).2 < n := by
  have hpos := h.need_pos s hs
  unfold pass
  split
  · exact hn
  · exact Nat.sub_lt hn hpos

theorem Lawful.ok_pass (h : c.Lawful Ok) {s : σ} (hs : Ok s) (n : Nat) : Ok (c.pass s n).1 := by
  unfold pass
  split
  · exact h.ok_spend s n hs ‹_›
  · exact h.ok_fire s hs

theorem iterate_keeps {α : Type*} {f : σ → α} (hspend : ∀ s n, f (c.spend s n) = f s) (hfire : ∀ s, f (c.fire s) = f s)
    (s : σ) : ∀ n : Nat, f (c.tick^[n] s) = f s
  | 0 => rfl
  | n + 1 => by
    rw [Function.iterate_succ_apply', ← iterate_keeps hspend hfire s n, tick]
    split
    · exact hfire _
    · exact hspend _ 1

/-- **A countdown of constant length**: whole periods fire, and the rest is spent on what comes out. -/
theorem Lawful.iterate_period (h : c.Lawful Ok) {p r : Nat} (hr : r < p) : ∀ (k : Nat) {s : σ} (_ : Ok s)
    (_ : ∀ j ≤ k, c.need (c.fire^[j] s) = p), c.tick^[r + p * k] s = c.spend (c.fire^[k] s) r
  | 0, s, hs, hp => h.iterate_of_lt hs (Nat.lt_of_lt_of_eq hr (hp 0 (Nat.le_refl 0)).symm)
  | k + 1, s, hs, hp => by
    have hfirst : c.need s = p := hp 0 (Nat.zero_le _)
    have hrest : ∀ j ≤ k, c.need (c.fire^[j] (c.fire s)) = p := fun j hj => hp (j + 1) (Nat.succ_le_succ hj)
    have hlast : c.tick^[p] s = c.fire s := hfirst ▸ h.iterate_need hs
    rw [Nat.mul_succ, ← Nat.add_assoc, Function.iterate_add_apply, hlast, Function.iterate_succ_apply]
    exact h.iterate_period hr k (h.ok_fire s hs) hrest

end Countdown
