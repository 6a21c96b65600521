import Mathlib.Tactic.SplitIfs
import Rigel.AgnusEffects
import Rigel.BusRun

/-!
# PaulaPads — the parts of Paula that no colour clock reaches

The game ports and the serial port are registers below those that the copper may move to, and no slot belongs to them. A colour
clock leaves them alone, whatever it dispatches; the register file writes to them, each register to one of the two.
-/

namespace Rigel

/-- Both ports are as they were. -/
structure SamePads (p p' : RigelPaula) : Prop where
  input : p'.input = p.input
  serial : p'.serial = p.serial

theorem SamePads.refl (p : RigelPaula) : SamePads p p := ⟨rfl, rfl⟩

theorem SamePads.trans {p p' p'' : RigelPaula} (h : SamePads p p') (h' : SamePads p' p'') : SamePads p p'' :=
  ⟨h'.input.trans h.input, h'.serial.trans h.serial⟩

section
variable {p : RigelPaula} {ctx : RigelContext}

theorem SamePads.raise (h : SamePads p ctx.paula) (masks : List UInt16) : SamePads p (raiseIrqSources ctx masks).paula := by
  rw [raiseIrqSources_eq]
  exact ⟨h.input, h.serial⟩

/-! ## The register file -/

theorem inputWriteReg_other (s : InputState) {addr : UInt32} (h : addr ≠ 0x034) (value : UInt16) :
    inputWriteReg s addr value = s := if_neg h

theorem serialWriteReg_other (s : SerialState) {addr : UInt32} (hdat : addr ≠ 0x030) (hper : addr ≠ 0x032) (value : UInt16) :
    serialWriteReg s addr value = (s, []) := by
  unfold serialWriteReg
  split
  · exact absurd rfl hdat
  · exact absurd rfl hper
  · rfl

/-- A register of neither. -/
theorem SamePads.paulaWrite (h : SamePads p ctx.paula) {addr : UInt32} (hpotgo : addr ≠ 0x034) (hdat : addr ≠ 0x030)
    (hper : addr ≠ 0x032) (value : UInt16) : SamePads p (paulaWriteReg ctx addr value).paula := by
  unfold paulaWriteReg
  split_ifs
  · exact ⟨(inputWriteReg_other _ hpotgo value).trans h.input, h.serial⟩
  · exact ⟨h.input, h.serial⟩
  · refine SamePads.raise ?_ _
    exact ⟨h.input, h.serial⟩
  · have hsame := serialWriteReg_other ctx.paula.serial hdat hper value
    unfold paulaWriteSerial
    rw [hsame]
    exact ⟨h.input, h.serial⟩
  · exact ⟨h.input, h.serial⟩
  · exact ⟨h.input, h.serial⟩

theorem SamePads.customWrite (h : SamePads p ctx.paula) {addr : UInt32} (hpotgo : addr ≠ 0x034) (hdat : addr ≠ 0x030)
    (hper : addr ≠ 0x032) (value : UInt16) : SamePads p (customRegsWrite16 ctx addr value).paula := by
  unfold customRegsWrite16
  split
  · exact h
  · split
    · unfold rigelAgnusMmioWrite agnusWriteBlitter agnusWriteBeamcon0 rigelPaulaClearIrq
      repeat' split
      all_goals exact ⟨h.input, h.serial⟩
    · exact h.paulaWrite hpotgo hdat hper value
    · exact ⟨h.input, h.serial⟩
    · exact ⟨h.input, h.serial⟩

/-- **Each port by its own registers.** -/
theorem customRegsWrite16_pads (ctx : RigelContext) (addr : UInt32) (value : UInt16) :
    (customRegsWrite16 ctx addr value).paula.input = inputWriteReg ctx.paula.input addr value ∧
      (customRegsWrite16 ctx addr value).paula.serial = (serialWriteReg ctx.paula.serial addr value).1 := by
  by_cases hpotgo : addr = 0x034
  · subst hpotgo
    exact ⟨rfl, rfl⟩
  by_cases hdat : addr = 0x030
  · subst hdat
    let written : RigelPaula := { ctx.paula with serial := (serialWriteReg ctx.paula.serial 0x030 value).1 }
    have hraised : SamePads written (customRegsWrite16 ctx 0x030 value).paula :=
      SamePads.raise (.refl written) (serialWriteReg ctx.paula.serial 0x030 value).2
    exact ⟨hraised.input, hraised.serial⟩
  by_cases hper : addr = 0x032
  · subst hper
    exact ⟨rfl, rfl⟩
  have hsame := (SamePads.refl ctx.paula).customWrite hpotgo hdat hper value
  exact ⟨hsame.input.trans (inputWriteReg_other _ hpotgo value).symm,
    hsame.serial.trans (congrArg Prod.fst (serialWriteReg_other _ hdat hper value)).symm⟩

/-! ## A colour clock -/

/-- The copper does not get there. -/
theorem SamePads.move (h : SamePads p ctx.paula) (ir1 ir2 : UInt16) : SamePads p (copperExecMove ctx ir1 ir2).paula := by
  unfold copperExecMove
  simp only
  split
  · exact ⟨h.input, h.serial⟩
  · rename_i hopen
    have hreg := copperMoveBlocked_le hopen
    have hne : ∀ reg : UInt32, reg < 0x40 → (ir1 &&& 0x01FE).toUInt32 ≠ reg := fun reg hlow heq =>
      absurd hlow (UInt32.not_lt.mpr (heq ▸ hreg))
    refine SamePads.customWrite ?_ (hne _ (by decide)) (hne _ (by decide)) (hne _ (by decide)) ir2
    exact ⟨h.input, h.serial⟩

theorem SamePads.slot (h : SamePads p ctx.paula) (owner : SlotOwner) (hpos : UInt16) :
    SamePads p (dispatchSlot owner ctx hpos).paula := by
  cases owner with
  | free => exact h
  | cpu => exact h
  | refresh => exact h
  | disk =>
    refine SamePads.raise ?_ _
    exact ⟨h.input, h.serial⟩
  | audio ch => exact ⟨h.input, h.serial⟩
  | sprite sp => exact ⟨h.input, h.serial⟩
  | bitplane =>
    simp only [dispatchSlot, bitplaneSlot]
    split <;> exact ⟨h.input, h.serial⟩
  | copper =>
    simp only [dispatchSlot, rigelCopperServiceStepProgram, copperExecute]
    repeat' split
    · exact ⟨h.input, h.serial⟩
    · exact ⟨h.input, h.serial⟩
    · exact ⟨h.input, h.serial⟩
    · exact ⟨h.input, h.serial⟩
    · exact ⟨h.input, h.serial⟩
    · refine SamePads.move ?_ _ _
      exact ⟨h.input, h.serial⟩
  | blitter =>
    refine SamePads.raise ?_ _
    exact ⟨h.input, h.serial⟩

/-- **A colour clock** leaves both ports alone. -/
theorem samePads_clock (ctx : RigelContext) : SamePads ctx.paula (agnusSlotSchedulerStep ctx).paula := by
  have hadvance : ∀ c : RigelContext, SamePads c.paula (schedulerAdvance c).paula := by
    intro c
    unfold schedulerAdvance schedulerAtVertb schedulerAtLineStart
    repeat' split
    all_goals exact ⟨rfl, rfl⟩
  have hready : SamePads ctx.paula (schedulerRestoreDsken (schedulerPrepare ctx)).paula := by
    rw [(slotReady ctx).paula]
    exact .refl _
  exact (hready.slot _ _).trans (hadvance _)

theorem samePads_clocks (ctx : RigelContext) (n : Nat) : SamePads ctx.paula (agnusSlotSchedulerStepUntil ctx n).paula := by
  induction n generalizing ctx with
  | zero => exact .refl _
  | succ n ih => exact (samePads_clock ctx).trans (ih _)

/-! ## A step -/

/-- The clocks of a step. -/
theorem samePads_run (ctx : RigelContext) (cycles : UInt32) :
    SamePads ctx.paula (chipsetRun (clearEventLatch ctx) cycles).paula := by
  have hprologue : SamePads ctx.paula (stepPrologue ctx cycles).paula := by
    unfold stepPrologue
    simp only
    split <;> exact ⟨rfl, rfl⟩
  rw [chipsetRun_eq_clocks]
  exact hprologue.trans (samePads_clocks _ _)

theorem samePads_eclock (ctx : RigelContext) (cycles : UInt32) : SamePads ctx.paula (chipsetEclock ctx cycles).paula := by
  unfold chipsetEclock
  simp only
  split <;> exact ⟨rfl, rfl⟩

theorem paulaStep_pads (ctx : RigelContext) (ticks : UInt32) :
    (rigelPaulaStep ctx ticks).paula.input = ctx.paula.input ∧
      (rigelPaulaStep ctx ticks).paula.serial = (serialStep ctx.paula.serial ticks).1 := by
  have hdisk : SamePads ctx.paula (paulaStepDisk (paulaStepAudio ctx ticks) ticks).paula := by
    refine SamePads.raise ?_ _
    exact ⟨rfl, rfl⟩
  let stepped : RigelPaula := { ctx.paula with serial := (serialStep ctx.paula.serial ticks).1 }
  have hraised : SamePads stepped (rigelPaulaStep ctx ticks).paula := by
    unfold rigelPaulaStep paulaStepSerial
    rw [hdisk.serial]
    refine SamePads.raise ?_ _
    exact ⟨hdisk.input, rfl⟩
  exact ⟨hraised.input, hraised.serial⟩

/-- **A step** is one step of the serial port, and leaves the game ports alone. -/
theorem rigelStep_pads (ctx : RigelContext) (cycles : UInt64) :
    (rigelStep ctx cycles).1.paula.input = ctx.paula.input ∧
      (rigelStep ctx cycles).1.paula.serial = (serialStep ctx.paula.serial cycles.toUInt32).1 := by
  have hrun := samePads_run ctx cycles.toUInt32
  obtain ⟨hinput, hserial⟩ := paulaStep_pads (chipsetRun (clearEventLatch ctx) cycles.toUInt32) cycles.toUInt32
  rw [hrun.input] at hinput
  rw [hrun.serial] at hserial
  have hsettled := samePads_eclock (chipsetTodB ctx.agnus.beam (chipsetTodA ctx.agnus.beam
    (rigelPaulaStep (chipsetRun (clearEventLatch ctx) cycles.toUInt32) cycles.toUInt32))) cycles.toUInt32
  exact ⟨hsettled.input.trans hinput, hsettled.serial.trans hserial⟩

end

end Rigel
