import Rigel.Reach

/-!
# AgnusEffects — what each operation can do to Agnus and Denise

Every invariant of the bus is about Agnus, so this module says once what a register write, a granted slot and a call of
the host can change there. A register write acts on Agnus and Denise as a function of the two alone
(`agnusAfterWrite`, `deniseAfterWrite`), and `AgnusWrite` lists its cases.
-/

namespace Rigel

/-! ## Interrupt sources -/

/-- Raising sources changes the interrupt registers and the stored INTREQ only. -/
theorem raiseIrqSources_eq (ctx : RigelContext) (masks : List UInt16) :
    raiseIrqSources ctx masks =
      { ctx with
        paula := { ctx.paula with interrupts := masks.foldl interruptRaise ctx.paula.interrupts }
        customRegs := (raiseIrqSources ctx masks).customRegs } := by
  induction masks generalizing ctx with
  | nil => rfl
  | cons m ms ih =>
    have h := ih (rigelChipsetRaiseIrqSource ctx m)
    exact h

theorem regIntreq_index : (regIntreq >>> 1 : UInt32) = 0x4E := by decide

/-- The stored INTREQ is the one register that a raised source touches. -/
theorem raiseIrqSources_customRegs (ctx : RigelContext) (masks : List UInt16) {i : UInt32} (hi : i ≠ 0x4E) :
    (raiseIrqSources ctx masks).customRegs i = ctx.customRegs i := by
  induction masks generalizing ctx with
  | nil => rfl
  | cons m ms ih =>
    have h := ih (rigelChipsetRaiseIrqSource ctx m)
    have hu : (rigelChipsetRaiseIrqSource ctx m).customRegs i = ctx.customRegs i := by
      have hv : rigelCustomIsValidReg regIntreq = true := by decide
      simp only [rigelChipsetRaiseIrqSource, customRegsStore, hv, if_true, regIntreq_index]
      exact Function.update_of_ne hi _ _
    exact h.trans hu

@[simp] theorem raiseIrqSources_agnus (ctx : RigelContext) (masks : List UInt16) :
    (raiseIrqSources ctx masks).agnus = ctx.agnus := by rw [raiseIrqSources_eq]

@[simp] theorem raiseIrqSources_denise (ctx : RigelContext) (masks : List UInt16) :
    (raiseIrqSources ctx masks).denise = ctx.denise := by rw [raiseIrqSources_eq]

@[simp] theorem raiseIrqSources_ram (ctx : RigelContext) (masks : List UInt16) :
    (raiseIrqSources ctx masks).ram = ctx.ram := by rw [raiseIrqSources_eq]

@[simp] theorem raiseIrqSources_config (ctx : RigelContext) (masks : List UInt16) :
    (raiseIrqSources ctx masks).config = ctx.config := by rw [raiseIrqSources_eq]

@[simp] theorem raiseIrqSources_disk (ctx : RigelContext) (masks : List UInt16) :
    (raiseIrqSources ctx masks).paula.disk = ctx.paula.disk := by rw [raiseIrqSources_eq]

/-! ## Register writes -/

/-- Agnus after a write to one of its own registers. -/
def agnusAfterMmio (a : RigelAgnus) (addr : UInt32) (value : UInt16) : RigelAgnus :=
  if rigelBlitterDomainOwnsReg addr then { a with blitter := blitterWriteReg16 a.blitter addr value }
  else if rigelCopperRegsOwnsReg addr then { a with copper := copperWriteReg a.copper addr value }
  else if addr = 0x096 then
    { a with
      dma := rigelDmaDomainWriteDmacon a.dma value
      scheduler := agnusSlotSchedulerInvalidate a.scheduler (rigelDmaDomainWriteDmacon a.dma value).dmacon }
  else if addr = 0x092 then
    { a with
      raster := { a.raster with ddfstrt := value }
      scheduler := agnusSlotSchedulerSetDdf a.scheduler value a.scheduler.ddfstop }
  else if addr = 0x094 then
    { a with
      raster := { a.raster with ddfstop := value }
      scheduler := agnusSlotSchedulerSetDdf a.scheduler a.scheduler.ddfstrt value }
  else if addr = 0x1DC then
    if a.chipRev = .ecs then
      rigelAgnusSetVideoStd { a with beamcon0 := value &&& 0x0020 } (if value &&& 0x0020 ≠ 0 then .pal else .ntsc)
    else a
  else agnusWritePointers a addr value

/-- Agnus after a write to any custom register. -/
def agnusAfterWrite (a : RigelAgnus) (addr : UInt32) (value : UInt16) : RigelAgnus :=
  match rigelCustomDomainForReg addr with
  | .agnus => agnusAfterMmio a addr value
  | .denise => agnusFollowDenise a addr value
  | .paula => a
  | .unknown => a

/-- Denise after a write to one of Agnus's registers: DDFSTRT moves the origin of the fetched words. -/
def deniseAfterMmio (a : RigelAgnus) (d : RigelDenise) (addr : UInt32) (value : UInt16) : RigelDenise :=
  if !rigelBlitterDomainOwnsReg addr && !rigelCopperRegsOwnsReg addr && addr == 0x092 then
    { d with output := { d.output with
        ddfstrtLores :=
          ((agnusSlotSchedulerSetDdf a.scheduler value a.scheduler.ddfstop).ddfstrt &&& (0x00FC : UInt16)) <<< 1 } }
  else d

theorem deniseAfterMmio_eq (a : RigelAgnus) (d : RigelDenise) (addr : UInt32) (value : UInt16) :
    deniseAfterMmio a d addr value = { d with output := (deniseAfterMmio a d addr value).output } := by
  unfold deniseAfterMmio
  split <;> rfl

def deniseAfterWrite (a : RigelAgnus) (d : RigelDenise) (addr : UInt32) (value : UInt16) : RigelDenise :=
  match rigelCustomDomainForReg addr with
  | .agnus => deniseAfterMmio a d addr value
  | .denise => rigelDeniseRegistersWrite d addr value
  | .paula => d
  | .unknown => d

/-- The display window update changes the window only. -/
theorem displayWindowUpdate_eq (d : RigelDenise) :
    rigelDeniseDisplayWindowUpdate d = { d with video := (rigelDeniseDisplayWindowUpdate d).video } := by
  unfold rigelDeniseDisplayWindowUpdate
  simp only
  repeat' split
  all_goals rfl

theorem displayWindowUpdate_frame (d : RigelDenise) :
    (rigelDeniseDisplayWindowUpdate d).regs = d.regs ∧ (rigelDeniseDisplayWindowUpdate d).chipRev = d.chipRev := by
  rw [displayWindowUpdate_eq]
  exact ⟨rfl, rfl⟩

/-- A control register leaves the palette and the sprites alone. -/
theorem deniseControlWrite_frame (d : RigelDenise) (addr : UInt32) (value : UInt16) :
    (rigelDeniseControlWrite d addr value).palette = d.palette ∧
      (rigelDeniseControlWrite d addr value).sprites = d.sprites := by
  unfold rigelDeniseControlWrite
  repeat' split
  all_goals first
    | exact ⟨rfl, rfl⟩
    | rw [displayWindowUpdate_eq]
      exact ⟨rfl, rfl⟩

theorem rigelAgnusMmioWrite_agnus (ctx : RigelContext) (addr : UInt32) (value : UInt16) :
    (rigelAgnusMmioWrite ctx addr value).agnus = agnusAfterMmio ctx.agnus addr value := by
  unfold rigelAgnusMmioWrite agnusAfterMmio agnusWriteBlitter agnusWriteBeamcon0 rigelPaulaClearIrq
  repeat' split
  all_goals rfl

theorem rigelAgnusMmioWrite_denise (ctx : RigelContext) (addr : UInt32) (value : UInt16) :
    (rigelAgnusMmioWrite ctx addr value).denise = deniseAfterMmio ctx.agnus ctx.denise addr value := by
  unfold rigelAgnusMmioWrite deniseAfterMmio agnusWriteBlitter agnusWriteBeamcon0 rigelPaulaClearIrq
  by_cases hb : rigelBlitterDomainOwnsReg addr = true
  · simp only [hb, if_true, Bool.not_true, Bool.false_and]
    split <;> rfl
  · by_cases hc : rigelCopperRegsOwnsReg addr = true
    · simp only [hb, hc, if_true, Bool.not_true, Bool.false_and, Bool.and_false]
      rfl
    · by_cases hd : addr = 0x092
      · subst hd
        rfl
      · simp only [hb, hc, hd, if_false, beq_eq_false_iff_ne.mpr hd, Bool.and_false]
        repeat' split
        all_goals first | rfl | contradiction

theorem rigelAgnusMmioWrite_frame (ctx : RigelContext) (addr : UInt32) (value : UInt16) :
    (rigelAgnusMmioWrite ctx addr value).ram = ctx.ram ∧
      (rigelAgnusMmioWrite ctx addr value).config = ctx.config ∧
      (rigelAgnusMmioWrite ctx addr value).paula.disk = ctx.paula.disk := by
  unfold rigelAgnusMmioWrite agnusWriteBlitter agnusWriteBeamcon0 rigelPaulaClearIrq
  repeat' split
  all_goals exact ⟨rfl, rfl, rfl⟩

theorem paulaWriteReg_frame (ctx : RigelContext) (addr : UInt32) (value : UInt16) :
    (paulaWriteReg ctx addr value).agnus = ctx.agnus ∧ (paulaWriteReg ctx addr value).denise = ctx.denise ∧
      (paulaWriteReg ctx addr value).ram = ctx.ram ∧ (paulaWriteReg ctx addr value).config = ctx.config := by
  unfold paulaWriteReg
  repeat' split
  · exact ⟨rfl, rfl, rfl, rfl⟩
  · exact ⟨rfl, rfl, rfl, rfl⟩
  · simp [paulaWriteDisk, rigelContextWriteReg]
  · simp [paulaWriteSerial, rigelContextWriteReg]
  · exact ⟨rfl, rfl, rfl, rfl⟩
  · exact ⟨rfl, rfl, rfl, rfl⟩

/-- An invalid offset belongs to no chip. -/
theorem rigelCustomDomainForReg_invalid {addr : UInt32} (h : (!rigelCustomIsValidReg addr) = true) :
    rigelCustomDomainForReg addr = .unknown := by
  simp only [rigelCustomDomainForReg, h, if_true]

/-- **A register write acts on Agnus as a function of Agnus alone.** -/
theorem customRegsWrite16_agnus (ctx : RigelContext) (addr : UInt32) (value : UInt16) :
    (customRegsWrite16 ctx addr value).agnus = agnusAfterWrite ctx.agnus addr value := by
  unfold customRegsWrite16 agnusAfterWrite
  split
  · rename_i h
    rw [rigelCustomDomainForReg_invalid h]
  · cases rigelCustomDomainForReg addr with
    | agnus => exact rigelAgnusMmioWrite_agnus ctx addr value
    | denise => rfl
    | paula => exact (paulaWriteReg_frame ctx addr value).1
    | unknown => rfl

theorem customRegsWrite16_denise (ctx : RigelContext) (addr : UInt32) (value : UInt16) :
    (customRegsWrite16 ctx addr value).denise = deniseAfterWrite ctx.agnus ctx.denise addr value := by
  unfold customRegsWrite16 deniseAfterWrite
  split
  · rename_i h
    rw [rigelCustomDomainForReg_invalid h]
  · cases rigelCustomDomainForReg addr with
    | agnus => exact rigelAgnusMmioWrite_denise ctx addr value
    | denise => rfl
    | paula => exact (paulaWriteReg_frame ctx addr value).2.1
    | unknown => rfl

theorem customRegsWrite16_frame (ctx : RigelContext) (addr : UInt32) (value : UInt16) :
    (customRegsWrite16 ctx addr value).ram = ctx.ram ∧ (customRegsWrite16 ctx addr value).config = ctx.config := by
  unfold customRegsWrite16
  split
  · exact ⟨rfl, rfl⟩
  · cases rigelCustomDomainForReg addr with
    | agnus => exact ⟨(rigelAgnusMmioWrite_frame ctx addr value).1, (rigelAgnusMmioWrite_frame ctx addr value).2.1⟩
    | denise => exact ⟨rfl, rfl⟩
    | paula => exact (paulaWriteReg_frame ctx addr value).2.2
    | unknown => exact ⟨rfl, rfl⟩

/-- The ways in which a register write changes Agnus. -/
inductive AgnusWrite (a : RigelAgnus) : RigelAgnus → Prop
  | same : AgnusWrite a a
  | blitter (addr : UInt32) (value : UInt16) : AgnusWrite a { a with blitter := blitterWriteReg16 a.blitter addr value }
  | copper (addr : UInt32) (value : UInt16) : AgnusWrite a { a with copper := copperWriteReg a.copper addr value }
  | dmacon (value : UInt16) : AgnusWrite a { a with
      dma := rigelDmaDomainWriteDmacon a.dma value
      scheduler := agnusSlotSchedulerInvalidate a.scheduler (rigelDmaDomainWriteDmacon a.dma value).dmacon }
  | ddf (ddfstrt ddfstop : UInt16) (raster : RasterConfig) : AgnusWrite a { a with
      raster := raster
      scheduler := agnusSlotSchedulerSetDdf a.scheduler ddfstrt ddfstop }
  | videoStd (beamcon0 : UInt16) (std : AgnusVideoStd) :
      AgnusWrite a (rigelAgnusSetVideoStd { a with beamcon0 := beamcon0 } std)
  | pointers (addr : UInt32) (value : UInt16) : AgnusWrite a (agnusWritePointers a addr value)
  | bplcon0 (value : UInt16) : AgnusWrite a (agnusFollowBplcon0 a value)
  | diwstrt (value : UInt16) : AgnusWrite a { a with
      raster := { a.raster with diwstrt := value }
      scheduler := agnusSlotSchedulerSetVstrt a.scheduler value }
  | diwstop (value : UInt16) : AgnusWrite a { a with raster := { a.raster with diwstop := value } }

theorem agnusAfterMmio_cases (a : RigelAgnus) (addr : UInt32) (value : UInt16) :
    AgnusWrite a (agnusAfterMmio a addr value) := by
  unfold agnusAfterMmio
  split
  · exact .blitter addr value
  split
  · exact .copper addr value
  split
  · exact .dmacon value
  split
  · exact .ddf value _ _
  split
  · exact .ddf _ value _
  split
  · split
    · exact .videoStd _ _
    · exact .same
  · exact .pointers addr value

theorem agnusFollowDenise_cases (a : RigelAgnus) (addr : UInt32) (value : UInt16) :
    AgnusWrite a (agnusFollowDenise a addr value) := by
  unfold agnusFollowDenise
  split
  · exact .bplcon0 value
  · exact .diwstrt value
  · exact .diwstop value
  · exact .same

theorem agnusAfterWrite_cases (a : RigelAgnus) (addr : UInt32) (value : UInt16) :
    AgnusWrite a (agnusAfterWrite a addr value) := by
  unfold agnusAfterWrite
  cases rigelCustomDomainForReg addr with
  | agnus => exact agnusAfterMmio_cases a addr value
  | denise => exact agnusFollowDenise_cases a addr value
  | paula => exact .same
  | unknown => exact .same

/-! ## The copper's half of a register write -/

theorem copperWriteReg_other {addr : UInt32} (h : rigelCopperRegsOwnsReg addr = false) (c : CopperState)
    (value : UInt16) : copperWriteReg c addr value = c := by
  unfold copperWriteReg
  split
  all_goals first | rfl | exact absurd h (by decide)

/-- **A register write acts on the copper through the copper's own registers alone.** -/
theorem agnusAfterWrite_copper (a : RigelAgnus) (addr : UInt32) (value : UInt16) :
    (agnusAfterWrite a addr value).copper = copperWriteReg a.copper addr value := by
  cases howns : rigelCopperRegsOwnsReg addr with
  | true =>
    simp only [rigelCopperRegsOwnsReg, Bool.or_eq_true, beq_iff_eq] at howns
    obtain (((((rfl | rfl) | rfl) | rfl) | rfl) | rfl) | rfl := howns
    all_goals rfl
  | false =>
    rw [copperWriteReg_other howns]
    unfold agnusAfterWrite agnusAfterMmio agnusFollowDenise
    rw [howns]
    repeat' split
    all_goals first | rfl | contradiction

theorem copperWriteReg_stopped (c : CopperState) (addr : UInt32) (value : UInt16) :
    (copperWriteReg c addr value).stoppedUntilVbl = c.stoppedUntilVbl := by
  unfold copperWriteReg
  split <;> rfl

/-! ## Granted slots -/

/-- Agnus after a copper instruction: a SKIP, a WAIT, a protected MOVE, or a register write. -/
inductive CopperEffect (a : RigelAgnus) : RigelAgnus → Prop
  | idle : CopperEffect a a
  | skip (pc : UInt32) : CopperEffect a { a with copper := { a.copper with programCounter := pc, fetchPending := true } }
  | wait (ir1 ir2 : UInt16) :
      CopperEffect a { a with copper := copperWaitArm { a.copper with fetchPending := false } ir1 ir2 }
  | protectedMove : CopperEffect a { a with copper :=
      { a.copper with waiting := false, fetchPending := false, stoppedUntilVbl := true } }
  | move (pc : UInt32) (reg : UInt32) (value : UInt16) :
      CopperEffect a
        { agnusAfterWrite { a with copper := { a.copper with fetchPending := false } } reg value with
          copper := copperAfterMove pc
            (agnusAfterWrite { a with copper := { a.copper with fetchPending := false } } reg value).copper }

theorem copperExecMove_agnus (ctx : RigelContext) (ir1 ir2 : UInt16) :
    (copperExecMove ctx ir1 ir2).agnus =
      if copperMoveBlocked ctx.agnus.copper.copcon (ir1 &&& 0x01FE).toUInt32 then
        { ctx.agnus with copper :=
          { ctx.agnus.copper with waiting := false, fetchPending := false, stoppedUntilVbl := true } }
      else agnusAfterWrite ctx.agnus (ir1 &&& 0x01FE).toUInt32 ir2 := by
  unfold copperExecMove
  simp only
  split
  · rfl
  · rw [customRegsWrite16_agnus]

theorem rigelCopperServiceStepProgram_cases (ctx : RigelContext) :
    CopperEffect ctx.agnus (rigelCopperServiceStepProgram ctx).agnus := by
  unfold rigelCopperServiceStepProgram copperExecute
  simp only
  split
  · exact .idle
  split
  · exact .idle
  split
  · split
    · exact .skip _
    · exact .wait _ _
  · simp only [setCopper, copperExecMove_agnus]
    split
    · exact .protectedMove
    · exact .move _ _ _

/-- The fields of the scheduler that a bitplane fetch leaves alone. -/
def SameCache (s s' : SlotScheduler) : Prop :=
  s'.table = s.table ∧ s'.bitplaneSlotIndex = s.bitplaneSlotIndex ∧ s'.hpos = s.hpos ∧ slotInputs s' = slotInputs s ∧
    s'.tableDirty = s.tableDirty

/-- Agnus after a granted slot. -/
inductive SlotEffect (a : RigelAgnus) : RigelAgnus → Prop
  | same : SlotEffect a a
  | refresh (n : UInt32) : SlotEffect a { a with refresh := refreshDmaStep a.refresh n }
  | sprite (s : SpriteDmaState) : SlotEffect a { a with spriteDma := s }
  | bitplane (data : Nat → UInt16) (s : SlotScheduler) (h : SameCache a.scheduler s) :
      SlotEffect a { a with fetchData := data, scheduler := s }
  | blitter (mem : ChipRam) :
      SlotEffect a { a with blitter := (rigelBlitterDomainStepDma a.blitter mem 1).blitter }
  | copper {a' : RigelAgnus} (h : CopperEffect a a') : SlotEffect a a'

theorem bitplaneLatchLine_cache (a : RigelAgnus) : SameCache a.scheduler (bitplaneLatchLine a) := by
  unfold bitplaneLatchLine SameCache
  split <;> exact ⟨rfl, rfl, rfl, rfl, rfl⟩

theorem bitplaneSlot_cases (ctx : RigelContext) (hpos : UInt16) : SlotEffect ctx.agnus (bitplaneSlot ctx hpos).agnus := by
  unfold bitplaneSlot
  simp only
  split
  · exact .bitplane _ _ (bitplaneLatchLine_cache ctx.agnus)
  · exact .same

theorem dispatchSlot_cases (owner : SlotOwner) (ctx : RigelContext) (hpos : UInt16) :
    SlotEffect ctx.agnus (dispatchSlot owner ctx hpos).agnus := by
  cases owner with
  | free => exact .same
  | cpu => exact .same
  | refresh => exact .refresh 1
  | disk =>
    simp only [dispatchSlot, diskSlot, raiseIrqSources_agnus]
    exact .same
  | audio ch => exact .same
  | sprite sp => exact .sprite _
  | bitplane => exact bitplaneSlot_cases ctx hpos
  | copper => exact .copper (rigelCopperServiceStepProgram_cases ctx)
  | blitter =>
    simp only [dispatchSlot, blitterSlot, raiseIrqSources_agnus]
    exact .blitter ctx.ram

/-! ## The settling half of a step, and the host's calls -/

theorem paulaStep_frame (ctx : RigelContext) (ticks : UInt32) :
    (rigelPaulaStep ctx ticks).agnus = ctx.agnus ∧ (rigelPaulaStep ctx ticks).denise = ctx.denise ∧
      (rigelPaulaStep ctx ticks).ram = ctx.ram ∧ (rigelPaulaStep ctx ticks).config = ctx.config := by
  simp [rigelPaulaStep, paulaStepSerial, paulaStepDisk, paulaStepAudio]

theorem chipsetEclock_frame (ctx : RigelContext) (cycles : UInt32) :
    (chipsetEclock ctx cycles).agnus = ctx.agnus ∧ (chipsetEclock ctx cycles).denise = ctx.denise ∧
      (chipsetEclock ctx cycles).ram = ctx.ram ∧ (chipsetEclock ctx cycles).config = ctx.config := by
  unfold chipsetEclock
  simp only
  split <;> exact ⟨rfl, rfl, rfl, rfl⟩

/-- **What settles after the beam leaves the bus alone.** -/
theorem chipsetSettle_frame (before : BeamState) (ctx : RigelContext) (cycles : UInt32) :
    (chipsetSettle before ctx cycles).agnus = ctx.agnus ∧ (chipsetSettle before ctx cycles).denise = ctx.denise ∧
      (chipsetSettle before ctx cycles).ram = ctx.ram ∧ (chipsetSettle before ctx cycles).config = ctx.config := by
  obtain ⟨e1, e2, e3, e4⟩ :=
    chipsetEclock_frame (chipsetTodB before (chipsetTodA before (rigelPaulaStep ctx cycles))) cycles
  obtain ⟨p1, p2, p3, p4⟩ := paulaStep_frame ctx cycles
  exact ⟨e1.trans p1, e2.trans p2, e3.trans p3, e4.trans p4⟩

theorem rigelChipsetStep_agnus (ctx : RigelContext) (cycles : UInt32) :
    (rigelChipsetStep ctx cycles).agnus = (chipsetRun ctx cycles).agnus :=
  (chipsetSettle_frame ctx.agnus.beam (chipsetRun ctx cycles) cycles).1

/-- A call that neither resets, steps, writes a register nor changes the blitter's cost model leaves Agnus alone. -/
theorem hostCall_agnus (ctx : RigelContext) (c : HostCall) :
    match c with
    | .reset => (hostCall ctx c).agnus = (rigelReset ctx).agnus
    | .step cycles => (hostCall ctx c).agnus = (rigelStepRun ctx cycles).agnus
    | .stepUntil target => (hostCall ctx c).agnus =
        if target ≤ ctx.cycles then ctx.agnus else (rigelStepRun ctx (target - ctx.cycles)).agnus
    | .customWrite addr value => (hostCall ctx c).agnus = agnusAfterWrite ctx.agnus addr value
    | .setCycleExact on => (hostCall ctx c).agnus =
        { ctx.agnus with blitter := { ctx.agnus.blitter with cycleExact := on } }
    | _ => (hostCall ctx c).agnus = ctx.agnus := by
  cases c with
  | stepUntil target =>
    simp only [hostCall, rigelStepUntil]
    split <;> rfl
  | customRead addr =>
    simp only [hostCall, customRegsRead16, paulaReadReg]
    repeat' split
    all_goals rfl
  | customWrite addr value => exact customRegsWrite16_agnus ctx addr value
  | ciaRead id reg => cases id <;> rfl
  | ciaWrite id reg value =>
    cases id with
    | portA => rfl
    | portB =>
      simp only [hostCall, rigelCiaWrite]
      split <;> rfl
  | setFire port pressed =>
    simp only [hostCall, rigelInputSetFire]
    split <;> rfl
  | floppyInsert drive data size =>
    simp only [hostCall, rigelFloppyInsert]
    split <;> rfl
  | floppyEject drive =>
    simp only [hostCall, rigelFloppyEject]
    split <;> rfl
  | serialReceive byte => exact raiseIrqSources_agnus _ _
  | _ => rfl

/-! ## Outside the bus -/

/-- What no colour clock touches: the configuration, the time, both CIAs and the drives. -/
structure SameOutside (ctx ctx' : RigelContext) : Prop where
  config : ctx'.config = ctx.config
  cycles : ctx'.cycles = ctx.cycles
  ciaA : ctx'.ciaA = ctx.ciaA
  ciaB : ctx'.ciaB = ctx.ciaB
  ciaEclockRem : ctx'.ciaEclockRem = ctx.ciaEclockRem
  floppy : ctx'.floppy = ctx.floppy

theorem SameOutside.refl (ctx : RigelContext) : SameOutside ctx ctx := ⟨rfl, rfl, rfl, rfl, rfl, rfl⟩

theorem SameOutside.trans {a b c : RigelContext} (h : SameOutside a b) (h' : SameOutside b c) : SameOutside a c :=
  ⟨h'.config.trans h.config, h'.cycles.trans h.cycles, h'.ciaA.trans h.ciaA, h'.ciaB.trans h.ciaB,
    h'.ciaEclockRem.trans h.ciaEclockRem, h'.floppy.trans h.floppy⟩

theorem sameOutside_raise (ctx : RigelContext) (masks : List UInt16) : SameOutside ctx (raiseIrqSources ctx masks) := by
  rw [raiseIrqSources_eq]
  exact ⟨rfl, rfl, rfl, rfl, rfl, rfl⟩

theorem sameOutside_paulaStep (ctx : RigelContext) (ticks : UInt32) : SameOutside ctx (rigelPaulaStep ctx ticks) := by
  have hdisk := sameOutside_raise
    { paulaStepAudio ctx ticks with paula := { (paulaStepAudio ctx ticks).paula with
        disk := (diskStep ctx.paula.disk ticks).1 } } (diskStep ctx.paula.disk ticks).2
  have hserial := sameOutside_raise
    { paulaStepDisk (paulaStepAudio ctx ticks) ticks with
      paula := { (paulaStepDisk (paulaStepAudio ctx ticks) ticks).paula with
        serial := (serialStep (paulaStepDisk (paulaStepAudio ctx ticks) ticks).paula.serial ticks).1 } }
    (serialStep (paulaStepDisk (paulaStepAudio ctx ticks) ticks).paula.serial ticks).2
  have hfirst : SameOutside ctx (paulaStepDisk (paulaStepAudio ctx ticks) ticks) :=
    ⟨hdisk.config, hdisk.cycles, hdisk.ciaA, hdisk.ciaB, hdisk.ciaEclockRem, hdisk.floppy⟩
  exact hfirst.trans
    ⟨hserial.config, hserial.cycles, hserial.ciaA, hserial.ciaB, hserial.ciaEclockRem, hserial.floppy⟩

theorem sameOutside_agnusWrite (ctx : RigelContext) (addr : UInt32) (value : UInt16) :
    SameOutside ctx (rigelAgnusMmioWrite ctx addr value) := by
  unfold rigelAgnusMmioWrite agnusWriteBlitter agnusWriteBeamcon0 rigelPaulaClearIrq
  repeat' split
  all_goals exact ⟨rfl, rfl, rfl, rfl, rfl, rfl⟩

theorem sameOutside_paulaWrite (ctx : RigelContext) (addr : UInt32) (value : UInt16) :
    SameOutside ctx (paulaWriteReg ctx addr value) := by
  unfold paulaWriteReg
  repeat' split
  · exact ⟨rfl, rfl, rfl, rfl, rfl, rfl⟩
  · exact ⟨rfl, rfl, rfl, rfl, rfl, rfl⟩
  · have h := sameOutside_raise
      { ctx with paula := { ctx.paula with
          disk := (diskWriteReg ctx.config.dsksynIrq ctx.paula.disk (ctx.floppy ctx.paula.disk.drive) addr value).1 } }
      (diskWriteReg ctx.config.dsksynIrq ctx.paula.disk (ctx.floppy ctx.paula.disk.drive) addr value).2
    exact ⟨h.config, h.cycles, h.ciaA, h.ciaB, h.ciaEclockRem, h.floppy⟩
  · have h := sameOutside_raise
      { ctx with paula := { ctx.paula with serial := (serialWriteReg ctx.paula.serial addr value).1 } }
      (serialWriteReg ctx.paula.serial addr value).2
    exact ⟨h.config, h.cycles, h.ciaA, h.ciaB, h.ciaEclockRem, h.floppy⟩
  · exact ⟨rfl, rfl, rfl, rfl, rfl, rfl⟩
  · exact ⟨rfl, rfl, rfl, rfl, rfl, rfl⟩

theorem sameOutside_customWrite (ctx : RigelContext) (addr : UInt32) (value : UInt16) :
    SameOutside ctx (customRegsWrite16 ctx addr value) := by
  unfold customRegsWrite16
  split
  · exact .refl ctx
  · cases rigelCustomDomainForReg addr with
    | agnus => exact sameOutside_agnusWrite ctx addr value
    | denise => exact ⟨rfl, rfl, rfl, rfl, rfl, rfl⟩
    | paula => exact sameOutside_paulaWrite ctx addr value
    | unknown => exact ⟨rfl, rfl, rfl, rfl, rfl, rfl⟩

theorem sameOutside_setCopper (ctx : RigelContext) (c : CopperState) : SameOutside ctx (setCopper ctx c) :=
  ⟨rfl, rfl, rfl, rfl, rfl, rfl⟩

theorem sameOutside_copperMove (ctx : RigelContext) (ir1 ir2 : UInt16) :
    SameOutside ctx (copperExecMove ctx ir1 ir2) := by
  unfold copperExecMove
  simp only
  split
  · exact sameOutside_setCopper _ _
  · have h := sameOutside_customWrite
      { ctx with denise := { ctx.denise with output := { ctx.denise.output with
          pendingFlags := ctx.denise.output.pendingFlags ||| frameCopperActive } } }
      (ir1 &&& 0x01FE).toUInt32 ir2
    exact ⟨h.config, h.cycles, h.ciaA, h.ciaB, h.ciaEclockRem, h.floppy⟩

theorem sameOutside_copper (ctx : RigelContext) : SameOutside ctx (rigelCopperServiceStepProgram ctx) := by
  unfold rigelCopperServiceStepProgram copperExecute
  simp only
  split
  · exact .refl ctx
  split
  · exact .refl ctx
  split
  · split
    · exact (sameOutside_setCopper _ _).trans (sameOutside_setCopper _ _)
    · exact (sameOutside_setCopper _ _).trans (sameOutside_setCopper _ _)
  · exact ((sameOutside_setCopper _ _).trans (sameOutside_copperMove _ _ _)).trans (sameOutside_setCopper _ _)

theorem sameOutside_dispatch (owner : SlotOwner) (ctx : RigelContext) (hpos : UInt16) :
    SameOutside ctx (dispatchSlot owner ctx hpos) := by
  cases owner with
  | free => exact .refl ctx
  | cpu => exact .refl ctx
  | refresh => exact ⟨rfl, rfl, rfl, rfl, rfl, rfl⟩
  | disk =>
    have h := sameOutside_raise
      { ctx with
        ram := (diskDmaServiceGrant ctx.config.dsksynIrq ctx.paula.disk ctx.ram).mem
        paula := { ctx.paula with disk := (diskDmaServiceGrant ctx.config.dsksynIrq ctx.paula.disk ctx.ram).disk } }
      (diskDmaServiceGrant ctx.config.dsksynIrq ctx.paula.disk ctx.ram).irqs
    exact ⟨h.config, h.cycles, h.ciaA, h.ciaB, h.ciaEclockRem, h.floppy⟩
  | audio ch => exact ⟨rfl, rfl, rfl, rfl, rfl, rfl⟩
  | sprite sp => exact ⟨rfl, rfl, rfl, rfl, rfl, rfl⟩
  | bitplane =>
    simp only [dispatchSlot, bitplaneSlot]
    split
    · exact ⟨rfl, rfl, rfl, rfl, rfl, rfl⟩
    · exact .refl ctx
  | copper => exact sameOutside_copper ctx
  | blitter =>
    have h := sameOutside_raise
      { ctx with
        ram := (rigelBlitterDomainStepDma ctx.agnus.blitter ctx.ram 1).mem
        agnus := { ctx.agnus with blitter := (rigelBlitterDomainStepDma ctx.agnus.blitter ctx.ram 1).blitter } }
      (rigelBlitterDomainStepDma ctx.agnus.blitter ctx.ram 1).irq.toList
    exact ⟨h.config, h.cycles, h.ciaA, h.ciaB, h.ciaEclockRem, h.floppy⟩

/-- The slot of a clock finds what the clock found, but for the sample, the copper's wait and DSKEN. -/
structure SlotReady (ctx ctx' : RigelContext) : Prop where
  config : ctx'.config = ctx.config
  ram : ctx'.ram = ctx.ram
  denise : ctx'.denise = ctx.denise
  paula : ctx'.paula = ctx.paula
  customRegs : ctx'.customRegs = ctx.customRegs
  beam : ctx'.agnus.beam = ctx.agnus.beam
  blitter : ctx'.agnus.blitter = ctx.agnus.blitter
  spriteDma : ctx'.agnus.spriteDma = ctx.agnus.spriteDma

theorem slotReady (ctx : RigelContext) : SlotReady ctx (schedulerRestoreDsken (schedulerPrepare ctx)) := by
  unfold schedulerRestoreDsken
  split <;> exact ⟨rfl, rfl, rfl, rfl, rfl, rfl, rfl, rfl⟩

/-- The start of a line is the bitplanes' alone. -/
structure LineStarted (ctx ctx' : RigelContext) : Prop where
  denise : ctx'.denise = ctx.denise
  paula : ctx'.paula = ctx.paula
  customRegs : ctx'.customRegs = ctx.customRegs
  beam : ctx'.agnus.beam = ctx.agnus.beam
  copper : ctx'.agnus.copper = ctx.agnus.copper
  spriteDma : ctx'.agnus.spriteDma = ctx.agnus.spriteDma
  inputs : slotInputs ctx'.agnus.scheduler = slotInputs ctx.agnus.scheduler

theorem lineStarted (ctx : RigelContext) : LineStarted ctx (schedulerAtLineStart ctx) := by
  unfold schedulerAtLineStart
  split <;> exact ⟨rfl, rfl, rfl, rfl, rfl, rfl, rfl⟩

theorem sameOutside_advance (ctx : RigelContext) : SameOutside ctx (schedulerAdvance ctx) := by
  unfold schedulerAdvance schedulerAtVertb schedulerAtLineStart
  repeat' split
  all_goals exact ⟨rfl, rfl, rfl, rfl, rfl, rfl⟩

theorem sameOutside_schedulerStep (ctx : RigelContext) : SameOutside ctx (agnusSlotSchedulerStep ctx) := by
  have hp : SameOutside ctx (schedulerPrepare ctx) := ⟨rfl, rfl, rfl, rfl, rfl, rfl⟩
  have hr : SameOutside (schedulerPrepare ctx) (schedulerRestoreDsken (schedulerPrepare ctx)) := by
    unfold schedulerRestoreDsken
    split
    · exact ⟨rfl, rfl, rfl, rfl, rfl, rfl⟩
    · exact .refl _
  exact ((hp.trans hr).trans (sameOutside_dispatch _ _ _)).trans (sameOutside_advance _)

theorem sameOutside_stepUntil (ctx : RigelContext) (n : Nat) : SameOutside ctx (agnusSlotSchedulerStepUntil ctx n) := by
  induction n generalizing ctx with
  | zero => exact .refl ctx
  | succ n ih => exact (sameOutside_schedulerStep ctx).trans (ih _)

/-- **The clocks of a step leave everything outside the bus alone**, but the time that was added before them. -/
theorem chipsetRun_outside (ctx : RigelContext) (cycles : UInt32) :
    SameOutside { ctx with cycles := ctx.cycles + cycles.toUInt64 } (chipsetRun ctx cycles) := by
  unfold chipsetRun rigelAgnusStep
  split
  · exact ⟨rfl, rfl, rfl, rfl, rfl, rfl⟩
  · have h := sameOutside_stepUntil
      { ctx with
        cycles := ctx.cycles + cycles.toUInt64
        paula := { ctx.paula with audio := audioSetDmacon ctx.paula.audio ctx.agnus.dma.dmacon }
        agnus := { ctx.agnus with dma := rigelDmaDomainSyncDmacon ctx.agnus.dma.dmacon } } cycles.toNat
    exact ⟨h.config, h.cycles, h.ciaA, h.ciaB, h.ciaEclockRem, h.floppy⟩

end Rigel
