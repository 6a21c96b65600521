import Mathlib.Algebra.Ring.Nat
import Mathlib.Order.Nat
import Rigel.AgnusEffects
import Rigel.Run

/-!
# Clock — the time of a context and the E-clock of its CIAs

`rigel_step_until` hands a 64-bit distance to a 32-bit step, and the E-clock divides colour clocks by five with a 32-bit
remainder carried from step to step. A ledger of the clocks advanced and of the ticks delivered follows a context
through any calls of its host, so that both laws can be stated along a whole run.
-/

namespace Rigel

/-! ## One step -/

/-- The context at which a step comes to its E-clock. -/
def eclockStart (ctx : RigelContext) (cycles : UInt32) : RigelContext :=
  chipsetTodB ctx.agnus.beam (chipsetTodA ctx.agnus.beam (rigelPaulaStep (chipsetRun ctx cycles) cycles))

/-- The E-clock ticks that a chipset step delivers to each CIA. -/
def stepTicks (ctx : RigelContext) (cycles : UInt32) : UInt32 := eclockTicks (eclockStart ctx cycles) cycles

theorem eclockStart_clock (ctx : RigelContext) (cycles : UInt32) :
    (eclockStart ctx cycles).cycles = ctx.cycles + cycles.toUInt64 ∧
      (eclockStart ctx cycles).ciaEclockRem = ctx.ciaEclockRem := by
  have hpaula := sameOutside_paulaStep (chipsetRun ctx cycles) cycles
  have hrun := chipsetRun_outside ctx cycles
  exact ⟨hpaula.cycles.trans hrun.cycles, hpaula.ciaEclockRem.trans hrun.ciaEclockRem⟩

theorem chipsetEclock_clock (ctx : RigelContext) (cycles : UInt32) :
    (chipsetEclock ctx cycles).cycles = ctx.cycles ∧
      (chipsetEclock ctx cycles).ciaEclockRem = (ctx.ciaEclockRem + cycles) % 5 := by
  unfold chipsetEclock
  simp only
  split <;> exact ⟨rfl, rfl⟩

theorem stepTicks_eq (ctx : RigelContext) (cycles : UInt32) : stepTicks ctx cycles = (ctx.ciaEclockRem + cycles) / 5 := by
  unfold stepTicks eclockTicks
  rw [(eclockStart_clock ctx cycles).2]
  rfl

/-- **What a step does to the two clocks.** -/
theorem rigelStep_clock (ctx : RigelContext) (cycles : UInt64) :
    (rigelStep ctx cycles).1.cycles = ctx.cycles + cycles.toUInt32.toUInt64 ∧
      (rigelStep ctx cycles).1.ciaEclockRem = (ctx.ciaEclockRem + cycles.toUInt32) % 5 := by
  have hs := eclockStart_clock (clearEventLatch ctx) cycles.toUInt32
  have he := chipsetEclock_clock (eclockStart (clearEventLatch ctx) cycles.toUInt32) cycles.toUInt32
  rw [hs.1, hs.2] at he
  exact he

/-! ## The ledger -/

/-- The clocks that the chipset has advanced since its reset, and the E-clock ticks that each CIA got for them. -/
structure ClockLedger where
  ccks : Nat
  ticks : Nat
  deriving Repr, DecidableEq

def ClockLedger.step (l : ClockLedger) (ctx : RigelContext) (cycles : UInt64) : ClockLedger :=
  ⟨l.ccks + cycles.toUInt32.toNat, l.ticks + (stepTicks (clearEventLatch ctx) cycles.toUInt32).toNat⟩

def ClockLedger.after (l : ClockLedger) (ctx : RigelContext) : HostCall → ClockLedger
  | .reset => ⟨0, 0⟩
  | .step cycles => l.step ctx cycles
  | .stepUntil target => if target ≤ ctx.cycles then l else l.step ctx (target - ctx.cycles)
  | _ => l

/-- A context and its ledger. -/
structure Clocked where
  ctx : RigelContext
  ledger : ClockLedger

def clockedCall (s : Clocked) (c : HostCall) : Clocked := ⟨hostCall s.ctx c, s.ledger.after s.ctx c⟩

def clockedCreate (config : RigelConfig) (ram : ChipRam) : Clocked := ⟨rigelCreate config ram, ⟨0, 0⟩⟩

/-- The remainder is what the ledger leaves over, and no tick is missing. -/
structure Clocked.Exact (s : Clocked) : Prop where
  rem : s.ctx.ciaEclockRem.toNat = s.ledger.ccks % 5
  ticks : s.ledger.ticks = s.ledger.ccks / 5

/-- What is promised of one call: a target is reached, and afterwards no E-clock tick is lost or invented. -/
def ClockKept (s : Clocked) (c : HostCall) : Prop :=
  (∀ target, c = .stepUntil target →
    (rigelGetTime (rigelStepUntil s.ctx target).1).toNat = max target.toNat (rigelGetTime s.ctx).toNat) ∧
  (clockedCall s c).ledger.ticks = (clockedCall s c).ledger.ccks / 5

/-- The clocks asked for fit the 32-bit step argument and, with the remainder carried, the 32-bit accumulator. A plain
step is cut to 32 bits first. -/
def ClockFits (s : Clocked) : HostCall → Prop
  | .step cycles => s.ctx.ciaEclockRem.toNat + cycles.toUInt32.toNat < 2 ^ 32
  | .stepUntil target =>
    target ≤ s.ctx.cycles ∨ s.ctx.ciaEclockRem.toNat + (target - s.ctx.cycles).toNat < 2 ^ 32
  | _ => True

/-! ## One call keeps the ledger exact -/

theorem rem_toNat_step (rem n : UInt32) : ((rem + n) % 5).toNat = (rem.toNat + n.toNat) % 2 ^ 32 % 5 := by
  rw [UInt32.toNat_mod, UInt32.toNat_add]
  rfl

theorem ticks_toNat_step (rem n : UInt32) : ((rem + n) / 5).toNat = (rem.toNat + n.toNat) % 2 ^ 32 / 5 := by
  rw [UInt32.toNat_div, UInt32.toNat_add]
  rfl

/-- A step's ticks match its clocks exactly when the accumulator does not overflow. -/
theorem ledger_step_ticks_iff {s : Clocked} (h : s.Exact) (cycles : UInt64) :
    (s.ledger.step s.ctx cycles).ticks = (s.ledger.step s.ctx cycles).ccks / 5 ↔
      s.ctx.ciaEclockRem.toNat + cycles.toUInt32.toNat < 2 ^ 32 := by
  have hr := h.rem
  have ht := h.ticks
  have hn : cycles.toUInt32.toNat < 2 ^ 32 := cycles.toUInt32.toNat_lt
  simp only [ClockLedger.step, stepTicks_eq, ticks_toNat_step]
  have hrem : (clearEventLatch s.ctx).ciaEclockRem = s.ctx.ciaEclockRem := rfl
  rw [hrem]
  omega

theorem clockedExact_step {s : Clocked} (h : s.Exact) (cycles : UInt64)
    (hfit : s.ctx.ciaEclockRem.toNat + cycles.toUInt32.toNat < 2 ^ 32) :
    Clocked.Exact ⟨(rigelStep s.ctx cycles).1, s.ledger.step s.ctx cycles⟩ := by
  refine ⟨?_, (ledger_step_ticks_iff h cycles).mpr hfit⟩
  have hr := h.rem
  show (rigelStep s.ctx cycles).1.ciaEclockRem.toNat = (s.ledger.ccks + cycles.toUInt32.toNat) % 5
  rw [(rigelStep_clock s.ctx cycles).2, rem_toNat_step]
  omega

/-- No call but a reset or a step touches the remainder. -/
theorem hostCall_eclockRem (ctx : RigelContext) (c : HostCall) :
    match c with
    | .reset => (hostCall ctx c).ciaEclockRem = 0
    | .step cycles => (hostCall ctx c).ciaEclockRem = (rigelStep ctx cycles).1.ciaEclockRem
    | .stepUntil target => (hostCall ctx c).ciaEclockRem = (rigelStepUntil ctx target).1.ciaEclockRem
    | _ => (hostCall ctx c).ciaEclockRem = ctx.ciaEclockRem := by
  cases c with
  | customRead addr =>
    simp only [hostCall, customRegsRead16, paulaReadReg]
    repeat' split
    all_goals rfl
  | customWrite addr value => exact (sameOutside_customWrite ctx addr value).ciaEclockRem
  | ciaRead id reg => cases id <;> rfl
  | ciaWrite id reg value =>
    cases id with
    | portA => rfl
    | portB =>
      simp only [hostCall, rigelCiaWrite]
      split <;> rfl
  | setFire port pressed =>
    simp only [hostCall, rigelInputSetFire]
    split <;> rfl
  | floppyInsert drive data size =>
    simp only [hostCall, rigelFloppyInsert]
    split <;> rfl
  | floppyEject drive =>
    simp only [hostCall, rigelFloppyEject]
    split <;> rfl
  | serialReceive byte => exact (sameOutside_raise _ _).ciaEclockRem
  | _ => rfl

theorem clockedExact_call (s : Clocked) (c : HostCall) (h : s.Exact) (hfit : ClockFits s c) :
    (clockedCall s c).Exact := by
  have hrem := hostCall_eclockRem s.ctx c
  cases c with
  | reset => exact ⟨by rw [show (clockedCall s .reset).ctx.ciaEclockRem = 0 from hrem]; rfl, (Nat.zero_div 5).symm⟩
  | step cycles => exact clockedExact_step h cycles hfit
  | stepUntil target =>
    simp only [clockedCall, hostCall, rigelStepUntil, ClockLedger.after]
    split
    · exact h
    · rename_i hle
      refine clockedExact_step h _ ?_
      rcases hfit with hfit | hfit
      · exact absurd hfit hle
      · rw [UInt64.toNat_toUInt32]
        omega
  | _ => exact ⟨by rw [show (clockedCall s _).ctx.ciaEclockRem = s.ctx.ciaEclockRem from hrem]; exact h.rem, h.ticks⟩

/-! ## The target of a step -/

theorem rigelStepUntil_time (ctx : RigelContext) (target : UInt64) :
    (rigelGetTime (rigelStepUntil ctx target).1).toNat =
      if target ≤ ctx.cycles then ctx.cycles.toNat
      else (ctx.cycles.toNat + (target - ctx.cycles).toNat % 2 ^ 32) % 2 ^ 64 := by
  unfold rigelStepUntil rigelGetTime
  split
  · rfl
  · rw [(rigelStep_clock ctx (target - ctx.cycles)).1, UInt64.toNat_add, UInt32.toNat_toUInt64,
      UInt64.toNat_toUInt32]

/-- A target is reached exactly when its distance fits the 32-bit argument. -/
theorem stepUntil_reaches_iff (ctx : RigelContext) (target : UInt64) :
    (rigelGetTime (rigelStepUntil ctx target).1).toNat = max target.toNat (rigelGetTime ctx).toNat ↔
      target ≤ ctx.cycles ∨ (target - ctx.cycles).toNat < 2 ^ 32 := by
  rw [rigelStepUntil_time]
  have ht := target.toNat_lt
  by_cases hle : target ≤ ctx.cycles
  · rw [if_pos hle, rigelGetTime, max_eq_right (UInt64.le_iff_toNat_le.mp hle)]
    simp only [hle, true_or]
  · have hlt : ctx.cycles.toNat < target.toNat := by
      rw [UInt64.le_iff_toNat_le] at hle
      omega
    have hsub : (target - ctx.cycles).toNat = target.toNat - ctx.cycles.toNat :=
      UInt64.toNat_sub_of_le _ _ (UInt64.le_iff_toNat_le.mpr (Nat.le_of_lt hlt))
    rw [if_neg hle, rigelGetTime, max_eq_left (Nat.le_of_lt hlt), hsub]
    simp only [hle, false_or]
    omega

/-! ## Along a run -/

theorem clockKept_iff (s : Clocked) (c : HostCall) (h : s.Exact) : ClockKept s c ↔ ClockFits s c := by
  cases c with
  | step cycles =>
    have hiff := ledger_step_ticks_iff h cycles
    constructor
    · rintro ⟨-, ht⟩
      exact hiff.mp ht
    · intro hfit
      exact ⟨fun target e => HostCall.noConfusion e, hiff.mpr hfit⟩
  | stepUntil target =>
    have htarget := stepUntil_reaches_iff s.ctx target
    have hledger := ledger_step_ticks_iff h (target - s.ctx.cycles)
    rw [UInt64.toNat_toUInt32] at hledger
    have hr := h.rem
    simp only [ClockKept, clockedCall, ClockLedger.after, ClockFits, HostCall.stepUntil.injEq, forall_eq']
    rw [htarget]
    by_cases hle : target ≤ s.ctx.cycles
    · simp only [hle, if_true, true_or, true_and, iff_true]
      exact h.ticks
    · simp only [hle, if_false, false_or, hledger]
      omega
  | reset => exact ⟨fun _ => trivial, fun _ => ⟨fun target e => HostCall.noConfusion e, (Nat.zero_div 5).symm⟩⟩
  | _ => exact ⟨fun _ => trivial, fun _ => ⟨fun target e => HostCall.noConfusion e, h.ticks⟩⟩

/-- **The two clocks of a context, along any run of its host's calls.** Every target is reached, and after every call
each CIA has got one E-clock tick for every five clocks since the reset, exactly when every call's clocks fit the
32-bit step argument and the 32-bit accumulator. -/
theorem clock_kept_iff (config : RigelConfig) (ram : ChipRam) (calls : List HostCall) :
    AlongRun clockedCall ClockKept (clockedCreate config ram) calls ↔
      AlongRun clockedCall ClockFits (clockedCreate config ram) calls :=
  alongRun_iff clockKept_iff clockedExact_call calls (clockedCreate config ram) ⟨rfl, (Nat.zero_div 5).symm⟩

/-- A target `2^32` clocks ahead leaves the time where it was; and after one clock, a step of `2^32 - 1` clocks makes
the accumulator overflow, so that no tick is delivered for it. -/
theorem clock_not_kept :
    rigelGetTime (rigelStepUntil palMachine 0x100000000).1 = 0 ∧
      ¬ AlongRun clockedCall ClockKept ⟨palMachine, ⟨0, 0⟩⟩ [.stepUntil 0x100000000] ∧
      ¬ AlongRun clockedCall ClockKept ⟨palMachine, ⟨0, 0⟩⟩ [.step 1, .step 0xFFFFFFFF] := by
  have hcreate : Clocked.Exact ⟨palMachine, ⟨0, 0⟩⟩ := ⟨rfl, (Nat.zero_div 5).symm⟩
  refine ⟨by decide +kernel, ?_, ?_⟩
  · rintro ⟨h, -⟩
    have hfit := (clockKept_iff _ _ hcreate).mp h
    simp only [ClockFits] at hfit
    exact absurd hfit (by decide +kernel)
  · rintro ⟨h1, h2, -⟩
    have hone := clockedExact_call _ _ hcreate ((clockKept_iff _ _ hcreate).mp h1)
    have hfit := (clockKept_iff _ _ hone).mp h2
    have hrem : (clockedCall ⟨palMachine, ⟨0, 0⟩⟩ (.step 1)).ctx.ciaEclockRem = 1 := by decide +kernel
    simp only [ClockFits, hrem] at hfit
    exact absurd hfit (by decide)

end Rigel
