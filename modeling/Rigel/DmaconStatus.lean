import Rigel.IrqFlow

/-!
# DmaconStatus — the blitter's two bits of DMACONR

DMACONR is DMACON with the blitter's busy and zero flags added to bits 14 and 13. DMACON keeps fifteen bits of what is
written to it, so a write that sets one of the two leaves it set, and the flag below it can no longer be read as clear.
No other write can do that, and nothing else writes DMACON but the copper's MOVEs and the disk's own DSKEN.
-/

namespace Rigel

/-- What the CPU reads at DMACONR. -/
def readDmaconr (ctx : RigelContext) : UInt16 := (customRegsRead16 ctx 0x002).2

/-- Bit 14 says that the blitter is busy, and bit 13 that its result is zero. -/
def StatusBitsLive (ctx : RigelContext) : Prop :=
  (readDmaconr ctx &&& 0x4000 ≠ 0 ↔ blitterIsBusy ctx.agnus.blitter = true) ∧
    (readDmaconr ctx &&& 0x2000 ≠ 0 ↔ ctx.agnus.blitter.result.zero = true)

/-! ## One state -/

theorem or_flags_ne_zero (d m : UInt16) (x y : UInt16) :
    (d ||| x ||| y) &&& m ≠ 0 ↔ d &&& m ≠ 0 ∨ x &&& m ≠ 0 ∨ y &&& m ≠ 0 := by
  rw [or_and_distrib, or_and_distrib, Ne, UInt16.or_eq_zero_iff, UInt16.or_eq_zero_iff, not_and_or, not_and_or, or_assoc]

/-- The two bits tell the truth when DMACON holds neither above a flag that is clear. -/
theorem statusBitsLive_iff (ctx : RigelContext) :
    StatusBitsLive ctx ↔
      (ctx.agnus.dma.dmacon &&& 0x4000 = 0 ∨ blitterIsBusy ctx.agnus.blitter = true) ∧
        (ctx.agnus.dma.dmacon &&& 0x2000 = 0 ∨ ctx.agnus.blitter.result.zero = true) := by
  have hread : readDmaconr ctx = ctx.agnus.dma.dmacon ||| (if blitterIsBusy ctx.agnus.blitter then 0x4000 else 0) |||
      (if ctx.agnus.blitter.result.zero then 0x2000 else 0) := rfl
  unfold StatusBitsLive
  rw [hread, or_flags_ne_zero, or_flags_ne_zero]
  have hbusy : (0x4000 : UInt16) &&& 0x2000 = 0 := by decide
  have hzero : (0x2000 : UInt16) &&& 0x4000 = 0 := by decide
  cases blitterIsBusy ctx.agnus.blitter <;> cases ctx.agnus.blitter.result.zero <;> simp [hbusy, hzero]

/-! ## A register write -/

/-- DMACON holds neither status bit. -/
def StatusBitsFree (d : DmaState) : Prop := d.dmacon &&& 0x6000 = 0

instance (d : DmaState) : Decidable (StatusBitsFree d) := inferInstanceAs (Decidable (_ = _))

theorem statusBitsFree_reset : StatusBitsFree rigelDmaDomainReset := by decide

/-- A write to DMACON does not set a status bit. -/
def SparesStatus (addr : UInt32) (value : UInt16) : Prop :=
  addr = 0x096 → value &&& dmaconSetclr ≠ 0 → value &&& 0x6000 = 0

theorem agnusAfterWrite_dma (a : RigelAgnus) (addr : UInt32) (value : UInt16) :
    (agnusAfterWrite a addr value).dma = if addr = 0x096 then rigelDmaDomainWriteDmacon a.dma value else a.dma := by
  by_cases ha : addr = 0x096
  · subst ha
    rfl
  rw [if_neg ha]
  unfold agnusAfterWrite
  cases rigelCustomDomainForReg addr with
  | agnus =>
    simp only [agnusAfterMmio, if_neg ha, agnusWritePointers, rigelAgnusSetVideoStd]
    repeat' split
    all_goals rfl
  | denise =>
    simp only [agnusFollowDenise, agnusFollowBplcon0]
    split <;> rfl
  | paula => rfl
  | unknown => rfl

theorem StatusBitsFree.dmacon {d : DmaState} (h : StatusBitsFree d) {value : UInt16}
    (hv : value &&& dmaconSetclr ≠ 0 → value &&& 0x6000 = 0) : StatusBitsFree (rigelDmaDomainWriteDmacon d value) := by
  show applySetclr d.dmacon value &&& 0x6000 = 0
  unfold applySetclr
  split
  · rename_i hset
    have hmask : value &&& 0x7FFF &&& 0x6000 = 0 := by
      rw [UInt16.and_assoc, UInt16.and_comm 0x7FFF, ← UInt16.and_assoc, hv hset, UInt16.zero_and]
    rw [or_and_distrib, hmask, UInt16.or_zero]
    exact h
  · rw [UInt16.and_assoc, UInt16.and_comm (~~~_), ← UInt16.and_assoc]
    unfold StatusBitsFree at h
    rw [h, UInt16.zero_and]

theorem StatusBitsFree.write {ctx : RigelContext} (h : StatusBitsFree ctx.agnus.dma) {addr : UInt32} {value : UInt16}
    (hok : SparesStatus addr value) : StatusBitsFree (customRegsWrite16 ctx addr value).agnus.dma := by
  rw [customRegsWrite16_agnus, agnusAfterWrite_dma]
  split
  · rename_i ha
    exact h.dmacon (hok ha)
  · exact h

/-! ## A clock -/

/-- A property of DMACON that the disk's own write keeps survives a slot whose copper write keeps it. -/
theorem schedulerDispatch_dma {P : DmaState → Prop} {Q : UInt16 → Prop}
    (hwrite : ∀ {d value}, P d → Q value → P (rigelDmaDomainWriteDmacon d value)) (hdisk : Q (dmaconSetclr ||| dmaconDsken))
    {ctx : RigelContext} (h : P ctx.agnus.dma) (hok : ∀ value, clockWrite ctx = some (0x096, value) → Q value) :
    P (schedulerDispatch (schedulerPrepare ctx)).agnus.dma := by
  have hrestore : P (schedulerRestoreDsken (schedulerPrepare ctx)).agnus.dma := by
    rcases schedulerRestoreDsken_dma (schedulerPrepare ctx) with he | he
    · rw [he]
      exact h
    · rw [he]
      exact hwrite h hdisk
  unfold schedulerDispatch
  unfold clockWrite at hok
  by_cases ho : slotOwner (schedulerPrepare ctx) = .copper
  · rw [ho]
    rw [if_pos ho] at hok
    show P (rigelCopperServiceStepProgram (schedulerRestoreDsken (schedulerPrepare ctx))).agnus.dma
    rcases copperService_write (schedulerRestoreDsken (schedulerPrepare ctx)) with ⟨-, c, hc⟩ | ⟨reg, value, c, c', hw, -, hc⟩
    · rw [hc]
      exact hrestore
    · rw [hc]
      show P (customRegsWrite16 (copperWriting (schedulerRestoreDsken (schedulerPrepare ctx)) c) reg value).agnus.dma
      rw [customRegsWrite16_agnus, agnusAfterWrite_dma]
      split
      · rename_i hreg
        exact hwrite hrestore (hok value (hreg ▸ hw))
      · exact hrestore
  · rw [dispatchSlot_dma ho]
    exact hrestore

theorem StatusBitsFree.dispatch {ctx : RigelContext} (h : StatusBitsFree ctx.agnus.dma)
    (hok : ∀ addr value, clockWrite ctx = some (addr, value) → SparesStatus addr value) :
    StatusBitsFree (schedulerDispatch (schedulerPrepare ctx)).agnus.dma :=
  schedulerDispatch_dma (fun hd hv => hd.dmacon hv) (fun _ => by decide) h fun value hw => hok 0x096 value hw rfl

theorem StatusBitsFree.clocks {ctx : RigelContext} (h : StatusBitsFree ctx.agnus.dma) : ∀ (n : Nat)
    (_ : ∀ i < n, ∀ addr value, clockWrite (agnusSlotSchedulerStepUntil ctx i) = some (addr, value) →
      SparesStatus addr value), StatusBitsFree (agnusSlotSchedulerStepUntil ctx n).agnus.dma
  | 0, _ => h
  | n + 1, hok => by
    have ih := StatusBitsFree.clocks h n fun i hi => hok i (Nat.lt_succ_of_lt hi)
    rw [agnusSlotSchedulerStepUntil, Function.iterate_succ_apply']
    unfold agnusSlotSchedulerStep
    rw [schedulerAdvance_dma]
    exact ih.dispatch (hok n (Nat.lt_succ_self n))

/-! ## A run -/

theorem StatusBitsFree.step {ctx : RigelContext} (h : StatusBitsFree ctx.agnus.dma) {cycles : UInt64}
    (hok : ClockWritesAllowed SparesStatus ctx cycles) : StatusBitsFree (rigelStepRun ctx cycles).agnus.dma := by
  have hstart : StatusBitsFree (stepPrologue ctx cycles.toUInt32).agnus.dma := by
    simp only [stepPrologue]
    split <;> exact h
  unfold rigelStepRun
  rw [rigelChipsetStep_agnus]
  have hclocks := hstart.clocks cycles.toUInt32.toNat hok
  rw [← chipsetRun_eq_clocks] at hclocks
  exact hclocks

theorem StatusBitsFree.hostCall {ctx : RigelContext} (h : StatusBitsFree ctx.agnus.dma) (c : HostCall)
    (hok : WritesAllowed SparesStatus ctx c) : StatusBitsFree (hostCall ctx c).agnus.dma := by
  have hc := hostCall_agnus ctx c
  cases c with
  | reset =>
    rw [hc]
    exact statusBitsFree_reset
  | step cycles =>
    rw [hc]
    exact h.step hok
  | stepUntil target =>
    simp only at hc
    rw [hc]
    split
    · exact h
    · rename_i hlt
      exact h.step (hok (by simpa using hlt))
  | customWrite addr value => exact h.write hok
  | setCycleExact on =>
    rw [hc]
    exact h
  | _ =>
    rw [hc]
    exact h

/-- **DMACONR shows the blitter.** In every state of every run in which no write to DMACON, by the CPU or by a copper
MOVE, sets one of the two bits, bit 14 is set iff the blitter is busy and bit 13 iff its zero flag is. -/
theorem dmaconr_live (config : RigelConfig) (ram : ChipRam) (calls : List HostCall)
    (hrun : AlongRun hostCall (WritesAllowed SparesStatus) (rigelCreate config ram) calls) :
    StatusBitsLive (calls.foldl hostCall (rigelCreate config ram)) := by
  have hfresh : StatusBitsFree (rigelCreate config ram).agnus.dma := statusBitsFree_reset
  have h := AlongRun.invariant (fun ctx => StatusBitsFree ctx.agnus.dma)
    (fun ctx c hfree hok => hfree.hostCall c hok) calls _ hfresh hrun
  have hbits : ∀ m : UInt16, 0x6000 &&& m = m → (calls.foldl hostCall (rigelCreate config ram)).agnus.dma.dmacon &&& m = 0 := by
    intro m hm
    rw [← hm, ← UInt16.and_assoc]
    unfold StatusBitsFree at h
    rw [h, UInt16.zero_and]
  exact (statusBitsLive_iff _).mpr ⟨Or.inl (hbits 0x4000 (by decide)), Or.inl (hbits 0x2000 (by decide))⟩

/-- The blitter's channel is switched on, a blit is started, and its first cycles pass. -/
theorem dmaconr_live_blit :
    StatusBitsLive ([HostCall.customWrite 0x096 0x8240, .customWrite 0x058 0x0041, .step 4].foldl hostCall palMachine) := by
  have hquiet : ∀ i < (4 : UInt64).toUInt32.toNat,
      clockWrite (agnusSlotSchedulerStepUntil (stepPrologue
        ([HostCall.customWrite 0x096 0x8240, .customWrite 0x058 0x0041].foldl hostCall palMachine) 4) i) = none := by
    decide +kernel
  refine dmaconr_live _ _ _ ⟨fun _ _ => by decide, fun h => absurd h (by decide), ?_, trivial⟩
  intro i hi addr value hw
  exact absurd (hw.symm.trans (hquiet i hi)) (by simp)

/-- A write of $C000 to DMACON makes a blitter that never ran look busy for ever. -/
theorem dmaconr_stuck_busy :
    Reachable (customRegsWrite16 palMachine 0x096 0xC000) ∧
      blitterIsBusy (customRegsWrite16 palMachine 0x096 0xC000).agnus.blitter = false ∧
      ¬ StatusBitsLive (customRegsWrite16 palMachine 0x096 0xC000) := by
  have hidle : blitterIsBusy (customRegsWrite16 palMachine 0x096 0xC000).agnus.blitter = false := by decide +kernel
  refine ⟨palMachine_reachable.call (.customWrite 0x096 0xC000), hidle, fun h => ?_⟩
  have hbusy := h.1.mp (by decide +kernel)
  rw [hidle] at hbusy
  exact Bool.noConfusion hbusy

end Rigel
