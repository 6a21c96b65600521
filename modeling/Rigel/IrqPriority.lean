import Mathlib.Data.Fintype.Basic
import Mathlib.Data.Finset.Lattice.Fold
import Mathlib.Order.Lattice.Nat
import Rigel.AudioIrq

/-!
# IrqPriority — the level is that of the highest enabled request

The fourteen sources of INTREQ have fixed priorities. The level that a set of requests calls for is the greatest priority
among those enabled, and none while the master enable is off. The code walks down six tiers of sources instead and keeps
the answer in a register of its own: the walk finds the greatest priority (`irqLevel_eq_priority`), and the register is
never behind, whoever changed INTENA or INTREQ last.
-/

namespace Rigel

/-! ## The priorities -/

/-- The interrupt sources, in the order of their INTREQ bits. -/
inductive IrqSource where
  | tbe | dskblk | soft | ports | coper | vertb | blit | aud0 | aud1 | aud2 | aud3 | rbf | dsksyn | exter
  deriving DecidableEq

def irqSources : List IrqSource :=
  [.tbe, .dskblk, .soft, .ports, .coper, .vertb, .blit, .aud0, .aud1, .aud2, .aud3, .rbf, .dsksyn, .exter]

instance : Fintype IrqSource where
  elems := ⟨irqSources, by decide⟩
  complete s := by cases s <;> decide

def IrqSource.mask : IrqSource → UInt16
  | .tbe => paulaIntTbe
  | .dskblk => paulaIntDskblk
  | .soft => paulaIntSoft
  | .ports => paulaIntPorts
  | .coper => paulaIntCoper
  | .vertb => paulaIntVertb
  | .blit => paulaIntBlit
  | .aud0 => paulaIntAud0
  | .aud1 => paulaIntAud1
  | .aud2 => paulaIntAud2
  | .aud3 => paulaIntAud3
  | .rbf => paulaIntRbf
  | .dsksyn => paulaIntDsksyn
  | .exter => paulaIntExter

def IrqSource.priority : IrqSource → Nat
  | .tbe | .dskblk | .soft => 1
  | .ports => 2
  | .coper | .vertb | .blit => 3
  | .aud0 | .aud1 | .aud2 | .aud3 => 4
  | .rbf | .dsksyn => 5
  | .exter => 6

/-- The sources that are requested and enabled. -/
def enabledPending (intena intreq : UInt16) : Finset IrqSource :=
  Finset.univ.filter fun s => intreq &&& intena &&& s.mask ≠ 0

/-- The priority level of the highest enabled pending source when INTEN is set, and 0 otherwise. -/
def priorityLevel (intena intreq : UInt16) : Nat :=
  if intena &&& paulaIntInten = 0 then 0 else (enabledPending intena intreq).sup IrqSource.priority

/-! ## The walk down the tiers -/

/-- The level of the first tier with a pending request. -/
def tierLevel (pending : UInt16) : List (UInt16 × Nat) → Nat
  | [] => 0
  | (mask, level) :: tiers => if pending &&& mask ≠ 0 then level else tierLevel pending tiers

/-- The sources by their level, the highest first. -/
def irqTiers : List (UInt16 × Nat) :=
  [(paulaIntExter, 6), (paulaIntDsksyn ||| paulaIntRbf, 5),
    (paulaIntAud0 ||| paulaIntAud1 ||| paulaIntAud2 ||| paulaIntAud3, 4),
    (paulaIntBlit ||| paulaIntVertb ||| paulaIntCoper, 3), (paulaIntPorts, 2),
    (paulaIntTbe ||| paulaIntDskblk ||| paulaIntSoft, 1)]

/-- The level that the requests `r` would have by themselves. -/
def irqLevel (intena r : UInt16) : Nat := (interruptComputeIpl intena r).toNat

theorem irqLevel_tiers (intena r : UInt16) :
    irqLevel intena r = if intena &&& paulaIntInten = 0 then 0 else tierLevel (r &&& intena) irqTiers := by
  unfold irqLevel interruptComputeIpl
  simp only [irqTiers, tierLevel]
  repeat' split
  all_goals rfl

/-- The walk stops at a pending tier, or finds none. -/
theorem tierLevel_mem (pending : UInt16) : ∀ tiers : List (UInt16 × Nat),
    tierLevel pending tiers = 0 ∨ ∃ t ∈ tiers, pending &&& t.1 ≠ 0 ∧ tierLevel pending tiers = t.2
  | [] => Or.inl rfl
  | (mask, level) :: tiers => by
    unfold tierLevel
    by_cases hp : pending &&& mask ≠ 0
    · rw [if_pos hp]
      exact Or.inr ⟨(mask, level), List.mem_cons_self, hp, rfl⟩
    · rw [if_neg hp]
      rcases tierLevel_mem pending tiers with h0 | ⟨t, ht, hpt, hl⟩
      · exact Or.inl h0
      · exact Or.inr ⟨t, List.mem_cons_of_mem _ ht, hpt, hl⟩

/-- No pending tier lies above the one found. -/
theorem le_tierLevel {pending : UInt16} {t : UInt16 × Nat} (hp : pending &&& t.1 ≠ 0) : ∀ {tiers : List (UInt16 × Nat)},
    tiers.Pairwise (fun t u => u.2 ≤ t.2) → t ∈ tiers → t.2 ≤ tierLevel pending tiers
  | (mask, level) :: tiers, h, ht => by
    rw [List.pairwise_cons] at h
    unfold tierLevel
    cases ht with
    | head => rw [if_pos hp]
    | tail _ ht =>
      split
      · exact h.1 t ht
      · exact le_tierLevel hp h.2 ht

/-- The sources of a priority. -/
def tierSources (level : Nat) : List IrqSource :=
  irqSources.filter fun s => s.priority = level

/-- A tier is the sources of its level, all of them. -/
theorem irqTiers_sources : ∀ t ∈ irqTiers, t.1 = ((tierSources t.2).map IrqSource.mask).foldr (· ||| ·) 0 := by decide

theorem source_in_tier (s : IrqSource) : ∃ t ∈ irqTiers, t.1 &&& s.mask = s.mask ∧ t.2 = s.priority := by
  cases s <;> decide

theorem irqLevel_eq_priority (intena intreq : UInt16) : irqLevel intena intreq = priorityLevel intena intreq := by
  rw [irqLevel_tiers, priorityLevel]
  by_cases hinten : intena &&& paulaIntInten = 0
  · rw [if_pos hinten, if_pos hinten]
  rw [if_neg hinten, if_neg hinten]
  apply Nat.le_antisymm
  · rcases tierLevel_mem (intreq &&& intena) irqTiers with h0 | ⟨t, ht, hp, hl⟩
    · rw [h0]
      exact Nat.zero_le _
    · rw [irqTiers_sources t ht] at hp
      obtain ⟨m, hm, hpm⟩ := and_foldr_or_ne_zero hp
      obtain ⟨s, hs, rfl⟩ := List.mem_map.mp hm
      have hprio : s.priority = t.2 := by simpa using (List.mem_filter.mp hs).2
      rw [hl, ← hprio]
      exact Finset.le_sup (f := IrqSource.priority) (Finset.mem_filter.mpr ⟨Finset.mem_univ s, hpm⟩)
  · refine Finset.sup_le fun s hs => ?_
    have hps := (Finset.mem_filter.mp hs).2
    obtain ⟨t, ht, hmask, hprio⟩ := source_in_tier s
    have hpt : intreq &&& intena &&& t.1 ≠ 0 := by
      intro h0
      apply hps
      rw [← hmask, ← UInt16.and_assoc, h0, UInt16.zero_and]
    rw [← hprio]
    exact le_tierLevel hpt (by decide) ht

/-! ## The cached level -/

/-- The level shown to the CPU is that of the highest enabled pending source. -/
def IplCoherent (irq : PaulaInterrupts) : Prop := irq.ipl.toNat = priorityLevel irq.intena irq.intreq

theorem IplFollows.coherent {irq : PaulaInterrupts} (h : IplFollows irq) : IplCoherent irq := by
  unfold IplCoherent
  rw [h, ← irqLevel_eq_priority]
  rfl

/-- **IPL coherence.** In every state of every run of host calls and CIA pins, and after every clock of a step begun
there, the cached level is the priority of the highest enabled pending source. -/
theorem ipl_coherent (config : RigelConfig) (ram : ChipRam) (events : List MachineEvent) (cycles : UInt32) (n : Nat) :
    IplCoherent (events.foldl machineEvent (rigelCreate config ram)).paula.interrupts ∧
      IplCoherent (agnusSlotSchedulerStepUntil
        (stepPrologue (events.foldl machineEvent (rigelCreate config ram)) cycles) n).paula.interrupts := by
  have hfresh : HoldsAt (fun _ _ irq => IplFollows irq) (rigelCreate config ram) := iplFollows_invariant.fresh _
  have hrun := iplFollows_invariant.run hfresh (alongRun_of_forall eventAllowed_true events _)
  have hstart : HoldsAt (fun _ _ irq => IplFollows irq)
      (stepPrologue (events.foldl machineEvent (rigelCreate config ram)) cycles) := by
    simp only [stepPrologue]
    split <;> exact hrun
  exact ⟨IplFollows.coherent hrun,
    IplFollows.coherent (iplFollows_invariant.clocks hstart fun _ _ _ _ _ _ _ => trivial)⟩

end Rigel
