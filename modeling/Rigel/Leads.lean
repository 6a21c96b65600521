import Mathlib.Logic.Function.Iterate

/-!
# Leads — what a step function comes to

A step function leads from one predicate to another if every state of the first comes to one of the second after some steps.
Runs are put together by transitivity, and a loop by its invariant.
-/

namespace Rigel

/-- Every state of `P` comes to one of `Q`. -/
def Leads {α : Type*} (step : α → α) (P Q : α → Prop) : Prop := ∀ s, P s → ∃ k, Q (step^[k] s)

namespace Leads

variable {α : Type*} {step : α → α} {P Q R : α → Prop}

theorem refl : Leads step P P := fun _ hs => ⟨0, hs⟩

theorem of_imp (h : ∀ s, P s → Q s) : Leads step P Q := fun s hs => ⟨0, h s hs⟩

theorem of_step (h : ∀ s, P s → Q (step s)) : Leads step P Q := fun s hs => ⟨1, h s hs⟩

theorem trans (hpq : Leads step P Q) (hqr : Leads step Q R) : Leads step P R := by
  intro s hs
  obtain ⟨k, hk⟩ := hpq s hs
  obtain ⟨m, hm⟩ := hqr _ hk
  refine ⟨m + k, ?_⟩
  rw [Function.iterate_add_apply]
  exact hm

/-- **A loop**: what each round takes to the next, all rounds take from the first to the last. -/
theorem rounds {I : Nat → α → Prop} {n : Nat} (h : ∀ i < n, Leads step (I i) (I (i + 1))) : Leads step (I 0) (I n) := by
  induction n with
  | zero => exact refl
  | succ n ih => exact (ih fun i hi => h i (Nat.lt_succ_of_lt hi)).trans (h n (Nat.lt_succ_self n))

end Leads

end Rigel
