import Rigel.BeamProjection
import Rigel.BeamTrace

/-!
# Tod — the pulses that a step gives to the time-of-day counters

`rigel_chipset_step` works out the pulses of both TOD counters from the beam before and after a step. Against them stand
the beam's own counts along the step's clocks (`BeamTrace`). The two agree exactly when the step does not both enter
and leave the vertical-blank zone, and when the frames that end inside it have, together, as many lines as the frame
length sampled at its start says.
-/

namespace Rigel

/-! ## The counters -/

/-- A TOD state after `pulses` increments of its 24-bit counter. -/
def todAdvance (pulses : Nat) (t : CiaTodState) : CiaTodState :=
  { t with counter := (fun c : UInt32 => (c + 1) &&& 0x00FFFFFF)^[pulses] t.counter }

theorem todAdvance_add (a b : Nat) (t : CiaTodState) : todAdvance b (todAdvance a t) = todAdvance (a + b) t := by
  unfold todAdvance
  rw [Nat.add_comm a b, Function.iterate_add_apply]

theorem ciaTodTick_tod (b : CiaBus) : (ciaTodTick b).cia.tod = todAdvance 1 b.cia.tod := by
  unfold ciaTodTick
  simp only
  split <;> rfl

theorem ciaTodPulse_tod (b : CiaBus) (pulses : UInt32) :
    (ciaTodPulse b pulses).cia.tod = todAdvance pulses.toNat b.cia.tod := by
  unfold ciaTodPulse ciaTodIncrement
  generalize pulses.toNat = n
  induction n generalizing b with
  | zero => rfl
  | succ n ih =>
    rw [Function.iterate_succ_apply, ih, ciaTodTick_tod, todAdvance_add, Nat.add_comm]

theorem ciaSerialStartOutput_tod (c : CiaState) : (ciaSerialStartOutput c).tod = c.tod := by
  unfold ciaSerialStartOutput
  split <;> rfl

theorem ciaSerialOnTimerAUnderflow_tod (b : CiaBus) : (ciaSerialOnTimerAUnderflow b).cia.tod = b.cia.tod := by
  have hs := ciaSerialStartOutput_tod
  unfold ciaSerialOnTimerAUnderflow
  simp only
  split
  · rfl
  split
  · exact hs _
  split
  · exact hs _
  · exact (hs _).trans (hs _)

theorem ciaTimerApplyUnderflowOutput_tod (c : CiaState) (control : UInt8) (n : Nat) :
    (ciaTimerApplyUnderflowOutput c control n).tod = c.tod := by
  unfold ciaTimerApplyUnderflowOutput
  simp only
  repeat' split
  all_goals rfl

theorem ciaTimerAUnderflows_tod (b : CiaBus) (uf : Nat) : (ciaTimerAUnderflows b uf).cia.tod = b.cia.tod := by
  have hiter : ∀ (n : Nat) (b : CiaBus), (ciaSerialOnTimerAUnderflow^[n] b).cia.tod = b.cia.tod := by
    intro n
    induction n with
    | zero => exact fun _ => rfl
    | succ n ih =>
      intro b
      rw [Function.iterate_succ_apply, ih, ciaSerialOnTimerAUnderflow_tod]
  unfold ciaTimerAUnderflows
  split
  · rfl
  · simp only [hiter, ciaTimerApplyUnderflowOutput_tod]
    rfl

theorem ciaTimerBUnderflows_tod (b : CiaBus) (uf : Nat) : (ciaTimerBUnderflows b uf).cia.tod = b.cia.tod := by
  unfold ciaTimerBUnderflows
  split
  · rfl
  · simp only [ciaTimerApplyUnderflowOutput_tod]
    rfl

theorem ciaTimersStep_tod (b : CiaBus) (ticks : UInt64) : (ciaTimersStep b ticks).cia.tod = b.cia.tod := by
  unfold ciaTimersStep
  split
  · rfl
  · simp only [ciaTimerBStage, ciaTimerBUnderflows_tod, ciaTimerAStage, ciaTimerAUnderflows_tod]

/-- With a TOD that does not count the ticks of the E-clock, these are for the timers alone. -/
theorem ciaStep_eq_timers {b : CiaBus} (h : b.cia.tod.ticksPerInc = 0) (ticks : UInt64) :
    ciaStep b ticks = ciaTimersStep { b with cia := ciaTimersAdvancePbOutputs b.cia } ticks := by
  have ht : (ciaTimersStep { b with cia := ciaTimersAdvancePbOutputs b.cia } ticks).cia.tod = b.cia.tod :=
    ciaTimersStep_tod _ ticks
  unfold ciaStep ciaTodStep
  simp only
  rw [ht, if_pos (Or.inr (Or.inl h))]

theorem ciaStep_tod {b : CiaBus} (h : b.cia.tod.ticksPerInc = 0) (ticks : UInt64) :
    (ciaStep b ticks).cia.tod = b.cia.tod := by
  rw [ciaStep_eq_timers h, ciaTimersStep_tod]
  rfl

/-! ## A step -/

/-- Neither TOD counts E-clock ticks. -/
def TodOnPulses (ctx : RigelContext) : Prop := ctx.ciaA.tod.ticksPerInc = 0 ∧ ctx.ciaB.tod.ticksPerInc = 0

theorem chipsetEclock_tod {ctx : RigelContext} (h : TodOnPulses ctx) (cycles : UInt32) :
    (chipsetEclock ctx cycles).ciaA.tod = ctx.ciaA.tod ∧ (chipsetEclock ctx cycles).ciaB.tod = ctx.ciaB.tod := by
  unfold chipsetEclock
  simp only
  split
  · exact ⟨ciaStep_tod h.1 _, ciaStep_tod h.2 _⟩
  · exact ⟨rfl, rfl⟩

/-- **What a chipset step does to both TOD counters.** -/
theorem chipsetStep_tod {ctx : RigelContext} (h : TodOnPulses ctx) (cycles : UInt32) :
    (rigelChipsetStep ctx cycles).ciaA.tod =
        todAdvance (vsyncPulses ctx.agnus.beam (rigelChipsetStep ctx cycles).agnus.beam).toNat ctx.ciaA.tod ∧
      (rigelChipsetStep ctx cycles).ciaB.tod =
        todAdvance (hsyncPulses ctx.agnus.beam (rigelChipsetStep ctx cycles).agnus.beam).toUInt32.toNat ctx.ciaB.tod := by
  have hrun := chipsetRun_outside ctx cycles
  have pa := (sameOutside_paulaStep (chipsetRun ctx cycles) cycles).ciaA
  have pb := (sameOutside_paulaStep (chipsetRun ctx cycles) cycles).ciaB
  have hagnus := (paulaStep_frame (chipsetRun ctx cycles) cycles).1
  rw [rigelChipsetStep_agnus]
  have ha : (chipsetTodA ctx.agnus.beam (rigelPaulaStep (chipsetRun ctx cycles) cycles)).ciaA.tod =
      todAdvance (vsyncPulses ctx.agnus.beam (chipsetRun ctx cycles).agnus.beam).toNat ctx.ciaA.tod := by
    simp only [chipsetTodA, onCiaA, ciaTodPulse_tod, pa, hagnus, hrun.ciaA]
  have hb : (chipsetTodB ctx.agnus.beam (chipsetTodA ctx.agnus.beam
      (rigelPaulaStep (chipsetRun ctx cycles) cycles))).ciaB.tod =
      todAdvance (hsyncPulses ctx.agnus.beam (chipsetRun ctx cycles).agnus.beam).toUInt32.toNat ctx.ciaB.tod := by
    simp only [chipsetTodB, chipsetTodA, onCiaA, onCiaB, ciaTodPulse_tod, pb, hagnus, hrun.ciaB]
  have hidle : TodOnPulses (chipsetTodB ctx.agnus.beam (chipsetTodA ctx.agnus.beam
      (rigelPaulaStep (chipsetRun ctx cycles) cycles))) :=
    ⟨(congrArg CiaTodState.ticksPerInc ha).trans h.1, (congrArg CiaTodState.ticksPerInc hb).trans h.2⟩
  obtain ⟨ea, eb⟩ := chipsetEclock_tod hidle cycles
  exact ⟨ea.trans ha, eb.trans hb⟩

theorem chipsetStep_todOnPulses {ctx : RigelContext} (h : TodOnPulses ctx) (cycles : UInt32) :
    TodOnPulses (rigelChipsetStep ctx cycles) := by
  obtain ⟨ha, hb⟩ := chipsetStep_tod h cycles
  exact ⟨(congrArg CiaTodState.ticksPerInc ha).trans h.1, (congrArg CiaTodState.ticksPerInc hb).trans h.2⟩

/-! ## The invariant of the calls -/

theorem ciaReadReg_ticksPerInc (b : CiaBus) (reg : UInt8) :
    (ciaReadReg b reg).1.cia.tod.ticksPerInc = b.cia.tod.ticksPerInc := by
  unfold ciaReadReg ciaTodRead ciaInterruptReadIcr
  simp only
  repeat' split
  all_goals rfl

theorem ciaWriteReg_ticksPerInc (b : CiaBus) (reg value : UInt8) :
    (ciaWriteReg b reg value).cia.tod.ticksPerInc = b.cia.tod.ticksPerInc := by
  unfold ciaWriteReg ciaPortsWriteReg ciaTimersWriteReg ciaTodWrite ciaSerialWriteSdr
  simp only
  repeat' split
  all_goals first
    | rfl
    | exact congrArg CiaTodState.ticksPerInc (ciaSerialStartOutput_tod _)

theorem ciaSerialReceiveByte_tod (b : CiaBus) (value : UInt8) : (ciaSerialReceiveByte b value).cia.tod = b.cia.tod := by
  unfold ciaSerialReceiveByte
  split <;> rfl

theorem hostCall_todOnPulses (ctx : RigelContext) (h : TodOnPulses ctx) (c : HostCall) : TodOnPulses (hostCall ctx c) := by
  have hstep : ∀ cycles : UInt64, TodOnPulses (rigelStep ctx cycles).1 := by
    intro cycles
    have hlatch : TodOnPulses (clearEventLatch ctx) := h
    exact chipsetStep_todOnPulses hlatch cycles.toUInt32
  cases c with
  | reset => exact ⟨rfl, rfl⟩
  | step cycles => exact hstep cycles
  | stepUntil target =>
    simp only [hostCall, rigelStepUntil]
    split
    · exact h
    · exact hstep _
  | customRead addr =>
    simp only [hostCall, customRegsRead16, paulaReadReg]
    repeat' split
    all_goals exact h
  | customWrite addr value =>
    have ho := sameOutside_customWrite ctx addr value
    exact ⟨by rw [hostCall, ho.ciaA]; exact h.1, by rw [hostCall, ho.ciaB]; exact h.2⟩
  | ciaRead id reg =>
    cases id with
    | portA => exact ⟨(ciaReadReg_ticksPerInc _ _).trans h.1, h.2⟩
    | portB => exact ⟨h.1, (ciaReadReg_ticksPerInc _ _).trans h.2⟩
  | ciaWrite id reg value =>
    cases id with
    | portA => exact ⟨(ciaWriteReg_ticksPerInc _ _ _).trans h.1, h.2⟩
    | portB =>
      simp only [hostCall, rigelCiaWrite]
      split <;> exact ⟨h.1, (ciaWriteReg_ticksPerInc _ _ _).trans h.2⟩
  | setFire port pressed =>
    simp only [hostCall, rigelInputSetFire]
    split <;> exact h
  | floppyInsert drive data size =>
    simp only [hostCall, rigelFloppyInsert]
    split <;> exact h
  | floppyEject drive =>
    simp only [hostCall, rigelFloppyEject]
    split <;> exact h
  | serialReceive byte =>
    have ho := sameOutside_raise
      { ctx with paula := { ctx.paula with serial := (serialReceiveByte ctx.paula.serial byte).1 } }
      (serialReceiveByte ctx.paula.serial byte).2
    exact ⟨(congrArg (fun c => c.tod.ticksPerInc) ho.ciaA).trans h.1,
      (congrArg (fun c => c.tod.ticksPerInc) ho.ciaB).trans h.2⟩
  | keyboardInject keycode pressed =>
    exact ⟨(congrArg CiaTodState.ticksPerInc (ciaSerialReceiveByte_tod _ _)).trans h.1, h.2⟩
  | _ => exact h

theorem Reachable.todOnPulses {ctx : RigelContext} (h : Reachable ctx) : TodOnPulses ctx := by
  induction h with
  | create config ram => exact ⟨rfl, rfl⟩
  | call _ c ih => exact hostCall_todOnPulses _ ih c

/-! ## The pulses against the counts -/

theorem vsyncPulses_exact_iff (ctx : RigelContext) (n : Nat) :
    (vsyncPulses (beamAt ctx 0) (beamAt ctx n)).toNat = vblankEntries ctx n ↔
      ¬ (0 < vblankEntries ctx n ∧ 0 < vblankExits ctx n) := by
  have hbal := vblank_balance ctx n
  unfold inVblank at hbal
  unfold vsyncPulses
  cases h0 : beamInVblank (beamAt ctx 0) <;> cases hn : beamInVblank (beamAt ctx n)
  all_goals
    simp only [h0, hn, Bool.not_false, Bool.not_true, Bool.and_self, Bool.and_false, Bool.and_true, if_true,
      Bool.false_eq_true, if_false, UInt32.reduceToNat] at hbal ⊢
    omega

/-- The pulse formula in numbers. The counts are those of a run of fewer than `2^32` clocks. -/
theorem hsyncPulses_toNat {fc : UInt64} {F v0 vn : UInt16} {W : Nat} (hF : F = 262 ∨ F = 312) (hv0 : v0.toNat ≤ 312)
    (hW : W < 131072) (hvn : vn.toNat ≤ 312) :
    (((fc + UInt64.ofNat W) * F.toUInt64 + vn.toUInt64) - (fc * F.toUInt64 + v0.toUInt64)).toUInt32.toNat =
      (2 ^ 32 - v0.toNat + (W * F.toNat + vn.toNat)) % 2 ^ 32 := by
  have hring : ((fc + UInt64.ofNat W) * F.toUInt64 + vn.toUInt64) - (fc * F.toUInt64 + v0.toUInt64) =
      (UInt64.ofNat W * F.toUInt64 + vn.toUInt64) - v0.toUInt64 := by grind
  have hw : (UInt64.ofNat W).toNat = W := by
    rw [UInt64.toNat_ofNat']
    exact Nat.mod_eq_of_lt (by omega)
  rw [hring, UInt64.toNat_toUInt32, UInt64.toNat_sub, UInt64.toNat_add, UInt64.toNat_mul, hw, UInt16.toNat_toUInt64,
    UInt16.toNat_toUInt64, UInt16.toNat_toUInt64]
  clear hring hw
  rcases hF with rfl | rfl
  · simp only [UInt16.reduceToNat]
    have h2 : W * 262 + vn.toNat < 18446744073709551616 := by omega
    have h1 : W * 262 < 18446744073709551616 := Nat.lt_of_le_of_lt (Nat.le_add_right _ _) h2
    rw [Nat.mod_eq_of_lt h1, Nat.mod_eq_of_lt h2]
    omega
  · simp only [UInt16.reduceToNat]
    have h2 : W * 312 + vn.toNat < 18446744073709551616 := by omega
    have h1 : W * 312 < 18446744073709551616 := Nat.lt_of_le_of_lt (Nat.le_add_right _ _) h2
    rw [Nat.mod_eq_of_lt h1, Nat.mod_eq_of_lt h2]
    omega

theorem hsyncPulses_exact_iff {ctx : RigelContext} (h : AgnusOk ctx.agnus) {n : Nat} (hn : n < 2 ^ 32) :
    (hsyncPulses (beamAt ctx 0) (beamAt ctx n)).toUInt32.toNat = linesCompleted ctx n ↔
      linesOfFrames ctx n = framesCompleted ctx n * (beamAt ctx 0).frameLines.toNat := by
  have hb0 : BeamOk (beamAt ctx 0) := h.beam
  have hbn : BeamOk (beamAt ctx n) := (agnusSlotSchedulerStepUntil_ok ctx h n).beam
  have hv0 : (beamAt ctx 0).vpos.toNat ≤ 312 := UInt16.le_iff_toNat_le.mp hb0.vpos
  have hvn : (beamAt ctx n).vpos.toNat ≤ 312 := UInt16.le_iff_toNat_le.mp hbn.vpos
  have hh0 : (beamAt ctx 0).hpos.toNat < 227 := UInt16.lt_iff_toNat_lt.mp hb0.hpos
  have hclocks := clocks_balance h n
  have hlines := lines_balance h n
  have hframes := linesOfFrames_ge h n
  have hsmall : framesCompleted ctx n < 131072 := by omega
  unfold hsyncPulses
  rw [if_neg hb0.frameLines_ne, frames_balance h n, hsyncPulses_toNat hb0.frameLines hv0 hsmall hvn]
  rcases hb0.frameLines with hF | hF
  · rw [hF]
    simp only [UInt16.reduceToNat]
    omega
  · rw [hF]
    simp only [UInt16.reduceToNat]
    omega

/-! ## Any partition -/

/-- The step does not both enter and leave the vertical-blank zone, and the frames that end inside it have as many
lines as the frame length sampled before it gives them. -/
def TodStepExact (ctx : RigelContext) (cycles : UInt32) : Prop :=
  ¬ (0 < vblankEntries ctx cycles.toNat ∧ 0 < vblankExits ctx cycles.toNat) ∧
    linesOfFrames ctx cycles.toNat = framesCompleted ctx cycles.toNat * ctx.agnus.beam.frameLines.toNat

instance (ctx : RigelContext) (cycles : UInt32) : Decidable (TodStepExact ctx cycles) :=
  inferInstanceAs (Decidable (_ ∧ _))

theorem chipsetStep_pulses_iff {ctx : RigelContext} (h : AgnusOk ctx.agnus) (cycles : UInt32) :
    ((vsyncPulses ctx.agnus.beam (rigelChipsetStep ctx cycles).agnus.beam).toNat = vblankEntries ctx cycles.toNat ∧
      (hsyncPulses ctx.agnus.beam (rigelChipsetStep ctx cycles).agnus.beam).toUInt32.toNat =
        linesCompleted ctx cycles.toNat) ↔ TodStepExact ctx cycles := by
  have hafter : (rigelChipsetStep ctx cycles).agnus.beam = beamAt ctx cycles.toNat := (sameBus_chipsetStep h.dma cycles).beamAt 0
  have hbefore : ctx.agnus.beam = beamAt ctx 0 := rfl
  unfold TodStepExact
  rw [hafter, hbefore, vsyncPulses_exact_iff, hsyncPulses_exact_iff h cycles.toNat_lt]

/-- What holds between the parts of a step. -/
def TodInv (ctx : RigelContext) : Prop := AgnusOk ctx.agnus ∧ TodOnPulses ctx

theorem TodInv.chipsetStep {ctx : RigelContext} (h : TodInv ctx) (cycles : UInt32) :
    TodInv (rigelChipsetStep ctx cycles) := by
  refine ⟨?_, chipsetStep_todOnPulses h.2 cycles⟩
  rw [rigelChipsetStep_agnus]
  exact agnusOk_invariant.chipsetRun h.1 cycles

/-- Steps whose pulses are exact give both counters what the beam's whole trace counts, however it is cut. -/
theorem tod_partition : ∀ (parts : List UInt32) {ctx : RigelContext} (_ : TodInv ctx)
    (_ : AlongRun rigelChipsetStep TodStepExact ctx parts),
    (parts.foldl rigelChipsetStep ctx).ciaA.tod =
        todAdvance (vblankEntries ctx (parts.map UInt32.toNat).sum) ctx.ciaA.tod ∧
      (parts.foldl rigelChipsetStep ctx).ciaB.tod =
        todAdvance (linesCompleted ctx (parts.map UInt32.toNat).sum) ctx.ciaB.tod
  | [], _, _, _ => ⟨rfl, rfl⟩
  | n :: parts, ctx, h, hrun => by
    obtain ⟨ha, hb⟩ := tod_partition parts (h.chipsetStep n) hrun.2
    obtain ⟨sa, sb⟩ := chipsetStep_tod h.2 n
    obtain ⟨pa, pb⟩ := (chipsetStep_pulses_iff h.1 n).mpr hrun.1
    have hbus := sameBus_chipsetStep h.1.dma n
    rw [List.foldl_cons, List.map_cons, List.sum_cons, ha, hb, sa, sb, pa, pb, todAdvance_add, todAdvance_add]
    unfold vblankEntries linesCompleted
    rw [← traceSum_split _ hbus, ← traceSum_split _ hbus]
    exact ⟨rfl, rfl⟩

/-- **TOD pulse accounting.** The pulses of a step are the beam's entries into the vertical-blank zone and its completed
lines exactly when the step meets `TodStepExact`; and steps that all meet it leave both TOD counters where the trace of
their clocks puts them, however these are cut into steps. -/
theorem tod_pulses_iff {ctx : RigelContext} (h : Reachable ctx) :
    (∀ cycles : UInt32,
      ((vsyncPulses ctx.agnus.beam (rigelChipsetStep ctx cycles).agnus.beam).toNat = vblankEntries ctx cycles.toNat ∧
        (hsyncPulses ctx.agnus.beam (rigelChipsetStep ctx cycles).agnus.beam).toUInt32.toNat =
          linesCompleted ctx cycles.toNat) ↔ TodStepExact ctx cycles) ∧
    (∀ parts : List UInt32, AlongRun rigelChipsetStep TodStepExact ctx parts →
      (parts.foldl rigelChipsetStep ctx).ciaA.tod =
          todAdvance (vblankEntries ctx (parts.map UInt32.toNat).sum) ctx.ciaA.tod ∧
        (parts.foldl rigelChipsetStep ctx).ciaB.tod =
          todAdvance (linesCompleted ctx (parts.map UInt32.toNat).sum) ctx.ciaB.tod) :=
  ⟨fun cycles => chipsetStep_pulses_iff h.agnusOk cycles,
    fun parts hrun => tod_partition parts ⟨h.agnusOk, h.todOnPulses⟩ hrun⟩

/-! ## A machine without DMA -/

theorem dispatchSlot_disabled {ctx : RigelContext} (h : ctx.agnus.copper.enabled = false) (owner : SlotOwner)
    (hpos : UInt16) :
    (dispatchSlot owner ctx hpos).agnus.beam = ctx.agnus.beam ∧
      (dispatchSlot owner ctx hpos).agnus.dma = ctx.agnus.dma := by
  cases owner with
  | copper =>
    have hidle : rigelCopperServiceStepProgram ctx = ctx := by
      simp [rigelCopperServiceStepProgram, h]
    simp only [dispatchSlot, hidle, and_self]
  | disk => simp only [dispatchSlot, diskSlot, raiseIrqSources_agnus, and_self]
  | blitter => simp only [dispatchSlot, blitterSlot, raiseIrqSources_agnus, and_self]
  | bitplane =>
    simp only [dispatchSlot, bitplaneSlot]
    split <;> exact ⟨rfl, rfl⟩
  | _ => exact ⟨rfl, rfl⟩

/-- With every DMA channel off a clock is a clock of the beam. -/
theorem clock_without_dma {ctx : RigelContext} (h : ctx.agnus.dma.dmacon = 0) :
    (agnusSlotSchedulerStep ctx).agnus.dma.dmacon = 0 ∧
      (agnusSlotSchedulerStep ctx).agnus.beam = beamStep ctx.agnus.beam 1 := by
  have hsched : (schedulerPrepare ctx).agnus.scheduler.dmacon = 0 := by
    simp only [schedulerPrepare, schedulerRefreshTable, agnusFreshTable]
    split <;> exact h
  have hrestore : schedulerRestoreDsken (schedulerPrepare ctx) = schedulerPrepare ctx := by
    unfold schedulerRestoreDsken diskTakesSlot
    rw [hsched]
    simp [dmaconMaster]
  have hoff : (schedulerPrepare ctx).agnus.copper.enabled = false := by
    rw [schedulerPrepare_copper]
    show dmaconCopenOn ctx.agnus.dma.dmacon = false
    rw [h]
    decide
  have hd := dispatchSlot_disabled hoff (slotOwner (schedulerPrepare ctx)) (schedulerPrepare ctx).agnus.scheduler.hpos
  unfold agnusSlotSchedulerStep
  rw [schedulerAdvance_beam, schedulerAdvance_dma]
  unfold schedulerDispatch
  rw [hrestore, hd.1, hd.2]
  exact ⟨h, rfl⟩

theorem beamAt_without_dma {ctx : RigelContext} (h : ctx.agnus.dma.dmacon = 0) (n : Nat) :
    (agnusSlotSchedulerStepUntil ctx n).agnus.dma.dmacon = 0 ∧ beamAt ctx n = beamRun ctx.agnus.beam n := by
  induction n with
  | zero => exact ⟨h, rfl⟩
  | succ n ih =>
    obtain ⟨hd, hb⟩ := clock_without_dma ih.1
    unfold beamAt at ih ⊢
    rw [agnusSlotSchedulerStepUntil_succ, hb, ih.2, beamRun_succ]
    exact ⟨hd, rfl⟩

/-- The created machine's beam, after any number of clocks. -/
theorem palMachine_run (n : Nat) : ProgressiveAt palMachine.agnus.beam n (beamAt palMachine n) := by
  have hprog : Progressive palMachine.agnus.beam :=
    ⟨palMachine_reachable.agnusOk.beam, by decide +kernel, by decide +kernel, by decide +kernel⟩
  rw [(beamAt_without_dma (by decide +kernel) n).2]
  exact progressive_run hprog n

theorem palMachine_frameLines : palMachine.agnus.beam.frameLines = 312 := by decide +kernel

theorem palMachine_line (n : Nat) : (beamAt palMachine n).vpos.toNat = n / 227 % 312 := by
  have hv : palMachine.agnus.beam.vpos = 0 := by decide +kernel
  have hh : palMachine.agnus.beam.hpos = 0 := by decide +kernel
  rw [(palMachine_run n).vpos, hv, hh, palMachine_frameLines]
  simp

theorem palMachine_hpos (n : Nat) : (beamAt palMachine n).hpos.toNat = n % 227 := by
  have hh : palMachine.agnus.beam.hpos = 0 := by decide +kernel
  rw [(palMachine_run n).hpos, hh]
  simp

theorem palMachine_zone (n : Nat) : beamInVblank (beamAt palMachine n) = decide (n / 227 % 312 ≤ 25) := by
  simp only [beamInVblank, agnusInVblZone, agnusVblLineEnd, UInt16.le_iff_toNat_le, palMachine_line]
  rfl

theorem palCut_ok (a : UInt32) : AgnusOk (rigelChipsetStep palMachine a).agnus := by
  rw [rigelChipsetStep_agnus]
  exact agnusOk_invariant.chipsetRun palMachine_reachable.agnusOk a

/-- The beam goes on behind a step. -/
theorem palCut_beam (a : UInt32) (i : Nat) : beamAt (rigelChipsetStep palMachine a) i = beamAt palMachine (a.toNat + i) := by
  rw [(sameBus_chipsetStep palMachine_reachable.agnusOk.dma a).beamAt]
  unfold beamAt
  rw [agnusSlotSchedulerStepUntil_add]

/-- A PAL frame from the top of the screen, cut inside the picture: the first step leaves the vertical-blank zone, the second
enters it again. -/
theorem palCut_vblank {a b : UInt32} (ha : a.toNat = 6000) (hb : b.toNat = 64824) :
    vblankEntries palMachine a.toNat = 0 ∧ vblankExits (rigelChipsetStep palMachine a) b.toNat = 0 ∧
      vblankEntries palMachine (a.toNat + b.toNat) = 1 := by
  have hentries : vblankEntries palMachine a.toNat = 0 := by
    refine traceSum_zero fun i hi => ?_
    unfold entersVblank
    rw [palMachine_zone, palMachine_zone, if_neg]
    simp only [Bool.and_eq_true, Bool.not_eq_true', decide_eq_false_iff_not, decide_eq_true_eq]
    omega
  have hexits : vblankExits (rigelChipsetStep palMachine a) b.toNat = 0 := by
    refine traceSum_zero fun i hi => ?_
    unfold leavesVblank
    rw [palCut_beam, palCut_beam, palMachine_zone, palMachine_zone, if_neg]
    simp only [Bool.and_eq_true, Bool.not_eq_true', decide_eq_false_iff_not, decide_eq_true_eq]
    omega
  have hsplit := traceSum_split entersVblank (sameBus_chipsetStep palMachine_reachable.agnusOk.dma a) b.toNat
  have hlast := vblank_balance (rigelChipsetStep palMachine a) b.toNat
  refine ⟨hentries, hexits, ?_⟩
  unfold inVblank at hlast
  rw [hexits, palCut_beam, palCut_beam, palMachine_zone, palMachine_zone, ha, hb] at hlast
  unfold vblankEntries at hentries hlast ⊢
  rw [hsplit, hentries, hb]
  revert hlast
  simp

/-- What the clocks of the two steps complete, from where the beam is before and behind them. -/
theorem palCut_lines {a b : UInt32} (ha : a.toNat = 6000) (hb : b.toNat = 64824) :
    (framesCompleted palMachine a.toNat = 0 ∧ linesOfFrames palMachine a.toNat = 0) ∧
      (framesCompleted (rigelChipsetStep palMachine a) b.toNat = 1 ∧
        linesOfFrames (rigelChipsetStep palMachine a) b.toNat = 312) ∧
      linesCompleted palMachine (a.toNat + b.toNat) = 312 := by
  have hok := palMachine_reachable.agnusOk
  have hclocks := clocks_balance hok a.toNat
  have hlines := lines_balance hok a.toNat
  have hframes := linesOfFrames_ge hok a.toNat
  have hclocksCut := clocks_balance (palCut_ok a) b.toNat
  have hlinesCut := lines_balance (palCut_ok a) b.toNat
  have hframesCut := linesOfFrames_ge (palCut_ok a) b.toNat
  have hframesLe := linesOfFrames_le (palCut_ok a) b.toNat
  have hsplit := traceSum_split completesLine (sameBus_chipsetStep hok.dma a) b.toNat
  rw [palMachine_hpos, palMachine_hpos] at hclocks
  rw [palMachine_line, palMachine_line] at hlines
  rw [palCut_beam, palCut_beam, palMachine_hpos, palMachine_hpos] at hclocksCut
  rw [palCut_beam, palCut_beam, palMachine_line, palMachine_line] at hlinesCut
  refine ⟨⟨?_, ?_⟩, ⟨?_, ?_⟩, ?_⟩
  · omega
  · omega
  · omega
  · omega
  · unfold linesCompleted at hclocks hclocksCut ⊢
    omega

theorem palFrame_cut {a b : UInt32} (ha : a.toNat = 6000) (hb : b.toNat = 64824) :
    (TodStepExact palMachine a ∧ TodStepExact (rigelChipsetStep palMachine a) b) ∧
      vblankEntries palMachine (a.toNat + b.toNat) = 1 ∧ linesCompleted palMachine (a.toNat + b.toNat) = 312 := by
  obtain ⟨hentries, hexits, hvblanks⟩ := palCut_vblank ha hb
  obtain ⟨⟨hnone, hnoLines⟩, ⟨hone, hframe⟩, hlines⟩ := palCut_lines ha hb
  have hlength : (rigelChipsetStep palMachine a).agnus.beam.frameLines.toNat = 312 := by
    have hstart : ∀ ctx : RigelContext, beamAt ctx 0 = ctx.agnus.beam := fun _ => rfl
    rw [← hstart, palCut_beam, (palMachine_run _).frameLines, palMachine_frameLines]
    rfl
  refine ⟨⟨⟨fun hboth => absurd hboth.1 (by omega), ?_⟩, fun hboth => absurd hboth.2 (by omega), ?_⟩, hvblanks, hlines⟩
  · rw [hnone, hnoLines, Nat.zero_mul]
  · rw [hone, hframe, hlength]

/-- The two steps of such a frame give CIA-A's counter its pulse and CIA-B's its 312. -/
theorem tod_pulses_whole_frame :
    TodStepExact palMachine 6000 ∧ TodStepExact (rigelChipsetStep palMachine 6000) 64824 ∧
      (rigelChipsetStep (rigelChipsetStep palMachine 6000) 64824).ciaA.tod = todAdvance 1 palMachine.ciaA.tod ∧
      (rigelChipsetStep (rigelChipsetStep palMachine 6000) 64824).ciaB.tod = todAdvance 312 palMachine.ciaB.tod := by
  have h := tod_pulses_iff palMachine_reachable
  obtain ⟨⟨hfirst, hsecond⟩, hvblanks, hlines⟩ := palFrame_cut (a := 6000) (b := 64824) rfl rfl
  have hall := h.2 [6000, 64824] ⟨hfirst, hsecond, trivial⟩
  rw [List.map_cons, List.map_cons, List.map_nil, List.sum_cons, List.sum_cons, List.sum_nil, Nat.add_zero, hvblanks, hlines,
    List.foldl_cons, List.foldl_cons, List.foldl_nil] at hall
  exact ⟨hfirst, hsecond, hall⟩

/-- A whole PAL frame in one step from the top of the screen: the beam leaves the vertical-blank zone and comes back, and
CIA-A's TOD gets no pulse for it. -/
theorem tod_pulse_missing :
    Reachable palMachine ∧
      vsyncPulses palMachine.agnus.beam (rigelChipsetStep palMachine 70824).agnus.beam = 0 ∧
      0 < vblankEntries palMachine 70824 := by
  refine ⟨palMachine_reachable, ?_, ?_⟩
  · have hin : beamInVblank palMachine.agnus.beam = true := by decide +kernel
    simp [vsyncPulses, hin]
  · have hlast : beamInVblank (beamAt palMachine 70823) = false := by
      simp only [beamInVblank, agnusInVblZone, agnusVblLineEnd, decide_eq_false_iff_not, UInt16.le_iff_toNat_le,
        palMachine_line]
      decide
    have htop : beamInVblank (beamAt palMachine 70824) = true := by
      simp only [beamInVblank, agnusInVblZone, agnusVblLineEnd, decide_eq_true_eq, UInt16.le_iff_toNat_le,
        palMachine_line]
      decide
    have hone : entersVblank (beamAt palMachine 70823) (beamAt palMachine (70823 + 1)) = 1 := by
      simp only [entersVblank, hlast, htop, Nat.reduceAdd, Bool.not_false, Bool.and_self, if_true]
    have hsum : vblankEntries palMachine (70823 + 1) =
        vblankEntries palMachine 70823 + entersVblank (beamAt palMachine 70823) (beamAt palMachine (70823 + 1)) := by
      rw [vblankEntries, traceSum, vblankEntries]
    rw [show (70824 : Nat) = 70823 + 1 from rfl, hsum, hone]
    omega

end Rigel
