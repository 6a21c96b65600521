import Rigel.BusRun
import Rigel.CiaCauses

/-!
# StepLedger — the ledger of a step

A step is its clocks, and then what settles once: the disk and the serial port, the pulses of both TOD counters, the E-clock
ticks of both CIAs. `stepEdges` puts their edges in that order, and they are all that a step does to the interrupt
registers (`rigelStep_irq`).
-/

namespace Rigel

/-! ## Settling -/

/-- The CIA `c` with `causes` come up. -/
def ciaRisen (c : CiaState) (causes : UInt8) : CiaState := { c with icrData := c.icrData ||| causes }

def todCauses (c : CiaState) (pulses : UInt32) : UInt8 := if todRings c.tod pulses.toNat then ciaIcrAlrm else 0

/-- The edges that the clocks of a step leave to its settling. -/
def settleEdges (before : BeamState) (x : RigelContext) (cycles : UInt32) : List IrqEdge :=
  let alarmA := todCauses x.ciaA (vsyncPulses before x.agnus.beam)
  let alarmB := todCauses x.ciaB (hsyncPulses before x.agnus.beam).toUInt32
  let ticks := (eclockTicks x cycles).toUInt64
  raiseEdges (diskStep x.paula.disk cycles).2 ++ raiseEdges (serialStep x.paula.serial cycles).2 ++
    ciaEdges x.ciaA alarmA ++ ciaEdges x.ciaB alarmB ++
    ciaEdges (ciaRisen x.ciaA alarmA) (ciaTimerCauses x.ciaA ticks) ++
    ciaEdges (ciaRisen x.ciaB alarmB) (ciaTimerCauses x.ciaB ticks)

theorem paulaStep_edges (x : RigelContext) (cycles : UInt32) :
    (rigelPaulaStep x cycles).paula.interrupts =
      (raiseEdges (diskStep x.paula.disk cycles).2 ++ raiseEdges (serialStep x.paula.serial cycles).2).foldl IrqEdge.apply
        x.paula.interrupts := by
  have hdisk : (paulaStepDisk (paulaStepAudio x cycles) cycles).paula.interrupts =
        (raiseEdges (diskStep x.paula.disk cycles).2).foldl IrqEdge.apply x.paula.interrupts ∧
      (paulaStepDisk (paulaStepAudio x cycles) cycles).paula.serial = x.paula.serial := by
    unfold paulaStepDisk
    refine ⟨raiseIrqSources_edges _ _, ?_⟩
    rw [raiseIrqSources_eq]
    rfl
  unfold rigelPaulaStep paulaStepSerial
  rw [raiseIrqSources_edges, List.foldl_append, hdisk.2, ← hdisk.1]

/-- The pulses of a TOD leave the timers alone. -/
theorem ciaTodPulse_timers (b : CiaBus) (pulses : UInt32) (ticks : UInt64) :
    ciaTimerCauses (ciaTodPulse b pulses).cia ticks = ciaTimerCauses b.cia ticks := by
  have hone : ∀ b : CiaBus, ciaTimerCauses (ciaTodTick b).cia ticks = ciaTimerCauses b.cia ticks := by
    intro b
    unfold ciaTodTick
    simp only
    split <;> rfl
  unfold ciaTodPulse ciaTodIncrement
  generalize pulses.toNat = n
  induction n generalizing b with
  | zero => rfl
  | succ n ih => rw [Function.iterate_succ_apply, ih, hone]

/-- A CIA after the pulses of its TOD: its edge, and the edge that ticks of its timers have then. -/
theorem todPulse_edges (c : CiaState) (irq : PaulaInterrupts) (pulses : UInt32) :
    (ciaTodPulse ⟨c, irq⟩ pulses).irq = (ciaEdges c (todCauses c pulses)).foldl IrqEdge.apply irq ∧
      ∀ ticks, ciaEdges (ciaTodPulse ⟨c, irq⟩ pulses).cia (ciaTimerCauses (ciaTodPulse ⟨c, irq⟩ pulses).cia ticks) =
        ciaEdges (ciaRisen c (todCauses c pulses)) (ciaTimerCauses c ticks) := by
  have hrose := ciaTodPulse_rose c irq pulses
  refine ⟨hrose.irq, fun ticks => ?_⟩
  rw [ciaTodPulse_timers]
  unfold ciaEdges ciaRisen
  rw [hrose.bit, hrose.mask, hrose.data]
  rfl

/-- The E-clock ticks of a step. -/
theorem eclock_edges {x : RigelContext} (htod : TodOnPulses x) (cycles : UInt32) :
    (chipsetEclock x cycles).paula.interrupts =
      (ciaEdges x.ciaA (ciaTimerCauses x.ciaA (eclockTicks x cycles).toUInt64) ++
        ciaEdges x.ciaB (ciaTimerCauses x.ciaB (eclockTicks x cycles).toUInt64)).foldl IrqEdge.apply x.paula.interrupts := by
  unfold chipsetEclock
  simp only
  by_cases hticks : eclockTicks x cycles = 0
  · have hnone : ∀ c : CiaState, ciaEdges c (ciaTimerCauses c (0 : UInt32).toUInt64) = [] := by
      intro c
      rw [show (0 : UInt32).toUInt64 = 0 from rfl, ciaTimerCauses_none]
      rfl
    rw [hticks, if_neg (UInt32.lt_irrefl 0), hnone, hnone]
    rfl
  · have hA := ciaStep_rose htod.1 x.paula.interrupts (eclockTicks x cycles).toUInt64
    have hB := ciaStep_rose htod.2 (ciaStep ⟨x.ciaA, x.paula.interrupts⟩ (eclockTicks x cycles).toUInt64).irq
      (eclockTicks x cycles).toUInt64
    rw [if_pos (UInt32.pos_iff_ne_zero.mpr hticks), List.foldl_append, ← hA.irq]
    exact hB.irq

/-- **The settling of a step.** -/
theorem settle_edges {x : RigelContext} (htod : TodOnPulses x) (before : BeamState) (cycles : UInt32) :
    (chipsetSettle before x cycles).paula.interrupts = (settleEdges before x cycles).foldl IrqEdge.apply x.paula.interrupts := by
  have hpaula := paulaStep_edges x cycles
  have hagnus := (paulaStep_frame x cycles).1
  have hout := sameOutside_paulaStep x cycles
  have hticks : eclockTicks (rigelPaulaStep x cycles) cycles = eclockTicks x cycles := by
    unfold eclockTicks
    rw [hout.ciaEclockRem]
  unfold chipsetSettle settleEdges
  rw [← hagnus, ← hout.ciaA, ← hout.ciaB, ← hticks]
  simp only [List.foldl_append] at hpaula ⊢
  rw [← hpaula]
  generalize rigelPaulaStep x cycles = y at hout
  obtain ⟨hirqA, hthenA⟩ := todPulse_edges y.ciaA y.paula.interrupts (vsyncPulses before y.agnus.beam)
  obtain ⟨hirqB, hthenB⟩ := todPulse_edges y.ciaB (ciaTodPulse ⟨y.ciaA, y.paula.interrupts⟩ (vsyncPulses before y.agnus.beam)).irq
    (hsyncPulses before y.agnus.beam).toUInt32
  have htodZ : TodOnPulses (chipsetTodB before (chipsetTodA before y)) := by
    have hper : ∀ (b : CiaBus) (pulses : UInt32), (ciaTodPulse b pulses).cia.tod.ticksPerInc = b.cia.tod.ticksPerInc := by
      intro b pulses
      rw [ciaTodPulse_tod]
      rfl
    exact ⟨(hper _ _).trans (hout.ciaA ▸ htod.1), (hper _ _).trans (hout.ciaB ▸ htod.2)⟩
  have hlast := eclock_edges htodZ cycles
  rw [List.foldl_append] at hlast
  rw [← hirqA, ← hirqB, ← hthenA, ← hthenB]
  exact hlast

/-! ## A step -/

/-- A context after the clocks of a step, before anything settles. -/
def stepClocks (ctx : RigelContext) (n : UInt64) : RigelContext :=
  agnusSlotSchedulerStepUntil (stepPrologue ctx n.toUInt32) n.toUInt32.toNat

/-- The edges of a step, in order. -/
def stepEdges (ctx : RigelContext) (n : UInt64) : List IrqEdge :=
  clocksEdges (fun c => slotEdges c ++ vertbEdges c) (stepPrologue ctx n.toUInt32) n.toUInt32.toNat ++
    settleEdges ctx.agnus.beam (stepClocks ctx n) n.toUInt32

theorem stepPrologue_paula (ctx : RigelContext) (cycles : UInt32) :
    (stepPrologue ctx cycles).paula.interrupts = ctx.paula.interrupts ∧
      (stepPrologue ctx cycles).paula.serial = ctx.paula.serial ∧
      (stepPrologue ctx cycles).paula.disk = ctx.paula.disk := by
  unfold stepPrologue
  simp only
  split <;> exact ⟨rfl, rfl, rfl⟩

/-- **What a step does to the interrupt registers.** -/
theorem rigelStep_irq {ctx : RigelContext} (htod : TodOnPulses ctx) (n : UInt64) :
    (rigelStep ctx n).1.paula.interrupts = (stepEdges ctx n).foldl IrqEdge.apply ctx.paula.interrupts := by
  have hclocks : stepClocks ctx n = chipsetRun (clearEventLatch ctx) n.toUInt32 :=
    (chipsetRun_eq_clocks ctx n.toUInt32).symm
  have hout := chipsetRun_outside (clearEventLatch ctx) n.toUInt32
  rw [← hclocks] at hout
  have htodX : TodOnPulses (stepClocks ctx n) := by
    rw [TodOnPulses, hout.ciaA, hout.ciaB]
    exact htod
  have hrun := clocks_edges (stepPrologue ctx n.toUInt32) n.toUInt32.toNat
  rw [(stepPrologue_paula ctx n.toUInt32).1] at hrun
  unfold stepEdges
  rw [List.foldl_append, ← hrun]
  show (chipsetSettle ctx.agnus.beam (chipsetRun (clearEventLatch ctx) n.toUInt32) n.toUInt32).paula.interrupts = _
  rw [← hclocks]
  exact settle_edges htodX ctx.agnus.beam n.toUInt32

end Rigel
