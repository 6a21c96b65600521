import Rigel.BusRun

/-!
# BusSame — what a colour clock can see

The beam, the DMA channels, the copper and the blitter of a clock depend on Agnus, on chip memory, on the two modulo
registers and on whether the disk wants a word; on nothing that a step settles after its clocks. So the same clocks
pass whether a host takes them in one step or in several. `SameBus` is the relation that this module carries through
every stage of a clock and through the settling half of a step.
-/

namespace Rigel

/-- Agnus with another value in the copper's event latch, the one field that no clock reads. -/
def relatch (a : RigelAgnus) (l : Bool) : RigelAgnus := { a with copper := { a.copper with eventLatched := l } }

/-- Two disks are the same to the bus: equal, or neither has a transfer that a slot could serve. -/
def SameDisk (d d' : DiskState) : Prop := d' = d ∨ (d.dmaBytesTotal = 0 ∧ d'.dmaBytesTotal = 0)

/-- Two contexts that the bus cannot tell apart. -/
structure SameBus (x y : RigelContext) : Prop where
  config : y.config = x.config
  ram : y.ram = x.ram
  mod1 : y.customRegs 0x84 = x.customRegs 0x84
  mod2 : y.customRegs 0x85 = x.customRegs 0x85
  disk : SameDisk x.paula.disk y.paula.disk
  agnus : y.agnus = relatch x.agnus y.agnus.copper.eventLatched

theorem SameDisk.trans {a b c : DiskState} (h : SameDisk a b) (h' : SameDisk b c) : SameDisk a c := by
  rcases h with rfl | ⟨ha, hb⟩
  · exact h'
  · rcases h' with rfl | ⟨-, hc⟩
    · exact Or.inr ⟨ha, hb⟩
    · exact Or.inr ⟨ha, hc⟩

theorem SameBus.trans {x y z : RigelContext} (h : SameBus x y) (h' : SameBus y z) : SameBus x z := by
  refine ⟨h'.config.trans h.config, h'.ram.trans h.ram, h'.mod1.trans h.mod1, h'.mod2.trans h.mod2,
    h.disk.trans h'.disk, ?_⟩
  have hy := h'.agnus
  rw [h.agnus] at hy
  exact hy

theorem SameBus.symm {x y : RigelContext} (h : SameBus x y) : SameBus y x := by
  refine ⟨h.config.symm, h.ram.symm, h.mod1.symm, h.mod2.symm, ?_, ?_⟩
  · rcases h.disk with e | ⟨hx, hy⟩
    · exact Or.inl e.symm
    · exact Or.inr ⟨hy, hx⟩
  · rw [h.agnus]
    rfl

theorem SameDisk.wants {d d' : DiskState} (h : SameDisk d d') : diskDmaWantsService d' = diskDmaWantsService d := by
  rcases h with rfl | ⟨hd, hd'⟩
  · rfl
  · have hz : ∀ n : UInt32, ¬ n < 0 := fun n hn => absurd hn (by simp)
    simp [diskDmaWantsService, hd, hd', hz]

/-! ## Before the slot -/

theorem SameBus.prepare {x y : RigelContext} (h : SameBus x y) : SameBus (schedulerPrepare x) (schedulerPrepare y) := by
  refine ⟨h.config, h.ram, h.mod1, h.mod2, h.disk, ?_⟩
  unfold schedulerPrepare schedulerRefreshTable schedulerSample
  simp only
  rw [h.agnus]
  rfl

theorem SameBus.diskTakesSlot {x y : RigelContext} (h : SameBus x y) : diskTakesSlot y = diskTakesSlot x := by
  unfold Rigel.diskTakesSlot
  rw [h.config, h.disk.wants, h.agnus]
  rfl

theorem SameBus.restoreDsken {x y : RigelContext} (h : SameBus x y) :
    SameBus (schedulerRestoreDsken x) (schedulerRestoreDsken y) := by
  have hs : y.agnus.scheduler = x.agnus.scheduler := by rw [h.agnus]; rfl
  unfold schedulerRestoreDsken
  rw [h.diskTakesSlot, hs]
  split
  · refine ⟨h.config, h.ram, h.mod1, h.mod2, h.disk, ?_⟩
    simp only
    rw [h.agnus]
    rfl
  · exact h

theorem SameBus.slotOwner {x y : RigelContext} (h : SameBus x y) : slotOwner y = slotOwner x := by
  unfold Rigel.slotOwner
  rw [h.diskTakesSlot, h.agnus]
  rfl

/-! ## Register writes -/

theorem agnusAfterMmio_relatch (a : RigelAgnus) (l : Bool) (addr : UInt32) (value : UInt16) :
    agnusAfterMmio (relatch a l) addr value =
      relatch (agnusAfterMmio a addr value) (agnusAfterMmio (relatch a l) addr value).copper.eventLatched := by
  have hrev : (relatch a l).chipRev = a.chipRev := rfl
  unfold agnusAfterMmio
  rw [hrev]
  split
  · rfl
  split
  · unfold copperWriteReg
    split <;> rfl
  repeat' split
  all_goals rfl

theorem agnusAfterWrite_relatch (a : RigelAgnus) (l : Bool) (addr : UInt32) (value : UInt16) :
    agnusAfterWrite (relatch a l) addr value =
      relatch (agnusAfterWrite a addr value) (agnusAfterWrite (relatch a l) addr value).copper.eventLatched := by
  unfold agnusAfterWrite
  cases rigelCustomDomainForReg addr with
  | agnus => exact agnusAfterMmio_relatch a l addr value
  | denise =>
    simp only [agnusFollowDenise]
    split <;> rfl
  | paula => rfl
  | unknown => rfl

/-- The disk after a register write. -/
def diskAfterWrite (ctx : RigelContext) (addr : UInt32) (value : UInt16) : DiskState :=
  if rigelCustomDomainForReg addr = .paula ∧ inputOwnsReg addr = false ∧ audioOwnsReg addr = false ∧
      diskOwnsReg addr = true then
    (diskWriteReg ctx.config.dsksynIrq ctx.paula.disk (ctx.floppy ctx.paula.disk.drive) addr value).1
  else ctx.paula.disk

theorem customRegsWrite16_disk (ctx : RigelContext) (addr : UInt32) (value : UInt16) :
    (customRegsWrite16 ctx addr value).paula.disk = diskAfterWrite ctx addr value := by
  unfold customRegsWrite16 diskAfterWrite
  split
  · rename_i h
    rw [rigelCustomDomainForReg_invalid h]
    rfl
  · cases rigelCustomDomainForReg addr with
    | agnus => exact (rigelAgnusMmioWrite_frame ctx addr value).2.2
    | denise => rfl
    | unknown => rfl
    | paula =>
      simp only [true_and, paulaWriteReg]
      by_cases hi : inputOwnsReg addr = true
      · simp [hi, rigelContextWriteReg]
      · by_cases ha : audioOwnsReg addr = true
        · simp [hi, ha, rigelContextWriteReg]
        · by_cases hd : diskOwnsReg addr = true
          · simp [hi, ha, hd, paulaWriteDisk, rigelContextWriteReg]
          · by_cases hs : serialOwnsReg addr = true
            · simp [hi, ha, hd, hs, paulaWriteSerial, rigelContextWriteReg]
            · by_cases hq : interruptOwnsReg addr = true
              · simp [hi, ha, hd, hs, hq, paulaWriteInterrupts, rigelContextWriteReg]
              · simp [hi, ha, hd, hs, hq, rigelContextWriteReg]

theorem diskMaybeEmitSync_total (irq : Bool) (d : DiskState) :
    (diskMaybeEmitSync irq d).1.dmaBytesTotal = d.dmaBytesTotal := by
  unfold diskMaybeEmitSync
  split <;> rfl

/-- No register but DSKLEN starts or stops a transfer. -/
theorem SameDisk.write {d d' : DiskState} (h : SameDisk d d') (irq : Bool) (drive drive' : FloppyDrive) {addr : UInt32}
    (h24 : addr ≠ 0x024) (value : UInt16) :
    SameDisk (diskWriteReg irq d drive addr value).1 (diskWriteReg irq d' drive' addr value).1 := by
  unfold diskWriteReg
  split
  · rcases h with rfl | ⟨hd, hd'⟩
    · exact Or.inl rfl
    · exact Or.inr ⟨hd, hd'⟩
  · rcases h with rfl | ⟨hd, hd'⟩
    · exact Or.inl rfl
    · exact Or.inr ⟨hd, hd'⟩
  · contradiction
  · rcases h with rfl | ⟨hd, hd'⟩
    · exact Or.inl rfl
    · exact Or.inr ⟨by rw [diskWriteDsksync, diskMaybeEmitSync_total]; exact hd,
        by rw [diskWriteDsksync, diskMaybeEmitSync_total]; exact hd'⟩
  · rcases h with rfl | ⟨hd, hd'⟩
    · exact Or.inl rfl
    · exact Or.inr ⟨by rw [diskWriteAdkcon, diskMaybeEmitSync_total]; exact hd,
        by rw [diskWriteAdkcon, diskMaybeEmitSync_total]; exact hd'⟩
  · exact h

theorem customRegsStore_congr {regs regs' : UInt32 → UInt16} {i : UInt32} (h : regs' i = regs i) (addr : UInt32)
    (value : UInt16) : customRegsStore regs' addr value i = customRegsStore regs addr value i := by
  unfold customRegsStore
  split
  · by_cases hi : i = addr >>> 1
    · rw [hi, Function.update_self, Function.update_self]
    · rw [Function.update_of_ne hi, Function.update_of_ne hi, h]
  · exact h

theorem customRegsStore_of_ne (regs : UInt32 → UInt16) {addr i : UInt32} (h : i ≠ addr >>> 1) (value : UInt16) :
    customRegsStore regs addr value i = regs i := by
  unfold customRegsStore
  split
  · exact Function.update_of_ne h _ _
  · rfl

/-- The register store after a write to one of Agnus's registers. -/
def agnusStore (a : RigelAgnus) (regs : UInt32 → UInt16) (addr : UInt32) (value : UInt16) : UInt32 → UInt16 :=
  if rigelBlitterDomainOwnsReg addr then customRegsStore regs addr value
  else if rigelCopperRegsOwnsReg addr then customRegsStore regs addr value
  else if addr = 0x096 then customRegsStore regs 0x096 (rigelDmaDomainWriteDmacon a.dma value).dmacon
  else if addr = 0x092 then customRegsStore regs 0x092 value
  else if addr = 0x094 then customRegsStore regs 0x094 value
  else if addr = 0x1DC then (if a.chipRev = .ecs then customRegsStore regs 0x1DC (value &&& 0x0020) else regs)
  else customRegsStore regs addr value

theorem agnusWrite_customRegs (ctx : RigelContext) (addr : UInt32) (value : UInt16) :
    (rigelAgnusMmioWrite ctx addr value).customRegs = agnusStore ctx.agnus ctx.customRegs addr value := by
  unfold rigelAgnusMmioWrite agnusStore agnusWriteBlitter agnusWriteBeamcon0 rigelPaulaClearIrq
  repeat' split
  all_goals rfl

theorem agnusStore_congr {a b : RigelAgnus} {regs regs' : UInt32 → UInt16} {i : UInt32} (h : regs' i = regs i)
    (hd : b.dma = a.dma) (hr : b.chipRev = a.chipRev) (addr : UInt32) (value : UInt16) :
    agnusStore b regs' addr value i = agnusStore a regs addr value i := by
  unfold agnusStore
  rw [hd, hr]
  repeat' split
  all_goals first
    | exact customRegsStore_congr h _ _
    | exact h

/-- Paula's registers are not the modulos. -/
theorem paula_not_modulo {addr : UInt32} (h : rigelCustomDomainForReg addr = .paula) :
    (0x84 : UInt32) ≠ addr >>> 1 ∧ (0x85 : UInt32) ≠ addr >>> 1 := by
  have hcases : ∀ k : UInt32, k = addr >>> 1 → addr.toNat = 2 * k.toNat ∨ addr.toNat = 2 * k.toNat + 1 := by
    rintro k rfl
    rw [UInt32.toNat_shiftRight]
    simp only [UInt32.reduceToNat, Nat.reduceMod, Nat.shiftRight_eq_div_pow]
    omega
  have hval : ∀ n : Nat, addr.toNat = n → n = 0x108 ∨ n = 0x109 ∨ n = 0x10A ∨ n = 0x10B → False := by
    intro n hn hc
    rcases hc with rfl | rfl | rfl | rfl
    · rw [UInt32.toNat_inj (b := 0x108) |>.mp hn] at h
      exact absurd h (by decide)
    · rw [UInt32.toNat_inj (b := 0x109) |>.mp hn] at h
      exact absurd h (by decide)
    · rw [UInt32.toNat_inj (b := 0x10A) |>.mp hn] at h
      exact absurd h (by decide)
    · rw [UInt32.toNat_inj (b := 0x10B) |>.mp hn] at h
      exact absurd h (by decide)
  constructor
  · intro e
    rcases hcases _ e with hn | hn
    · exact hval _ hn (Or.inl rfl)
    · exact hval _ hn (Or.inr (Or.inl rfl))
  · intro e
    rcases hcases _ e with hn | hn
    · exact hval _ hn (Or.inr (Or.inr (Or.inl rfl)))
    · exact hval _ hn (Or.inr (Or.inr (Or.inr rfl)))

theorem paulaWrite_customRegs (ctx : RigelContext) {addr i : UInt32} (hi : i ≠ 0x4E) (hne : i ≠ addr >>> 1)
    (value : UInt16) : (paulaWriteReg ctx addr value).customRegs i = ctx.customRegs i := by
  unfold paulaWriteReg
  repeat' split
  · exact customRegsStore_of_ne _ hne _
  · exact customRegsStore_of_ne _ hne _
  · exact (customRegsStore_of_ne _ hne _).trans (raiseIrqSources_customRegs _ _ hi)
  · exact (customRegsStore_of_ne _ hne _).trans (raiseIrqSources_customRegs _ _ hi)
  · exact customRegsStore_of_ne _ hne _
  · exact customRegsStore_of_ne _ hne _

theorem customWrite_modulo {x y : RigelContext} {i : UInt32} (hi : i = 0x84 ∨ i = 0x85)
    (h : y.customRegs i = x.customRegs i) (hd : y.agnus.dma = x.agnus.dma) (hr : y.agnus.chipRev = x.agnus.chipRev)
    (addr : UInt32) (value : UInt16) :
    (customRegsWrite16 y addr value).customRegs i = (customRegsWrite16 x addr value).customRegs i := by
  unfold customRegsWrite16
  split
  · exact h
  · cases hdom : rigelCustomDomainForReg addr with
    | agnus =>
      simp only [agnusWrite_customRegs]
      exact agnusStore_congr h hd hr addr value
    | denise => exact customRegsStore_congr h _ _
    | unknown => exact customRegsStore_congr h _ _
    | paula =>
      obtain ⟨h1, h2⟩ := paula_not_modulo hdom
      have hne : i ≠ addr >>> 1 := by
        rcases hi with rfl | rfl
        · exact h1
        · exact h2
      have h4e : i ≠ 0x4E := by rcases hi with rfl | rfl <;> decide
      exact (paulaWrite_customRegs y h4e hne value).trans (h.trans (paulaWrite_customRegs x h4e hne value).symm)

/-- A register write keeps two contexts the same to the bus, as long as it does so with their disks. -/
theorem SameBus.writeAny {x y : RigelContext} (h : SameBus x y) {addr : UInt32} {value : UInt16}
    (hdisk : SameDisk (diskAfterWrite x addr value) (diskAfterWrite y addr value)) :
    SameBus (customRegsWrite16 x addr value) (customRegsWrite16 y addr value) := by
  have hd : y.agnus.dma = x.agnus.dma := by rw [h.agnus]; rfl
  have hr : y.agnus.chipRev = x.agnus.chipRev := by rw [h.agnus]; rfl
  refine ⟨?_, ?_, customWrite_modulo (Or.inl rfl) h.mod1 hd hr addr value,
    customWrite_modulo (Or.inr rfl) h.mod2 hd hr addr value, ?_, ?_⟩
  · rw [(customRegsWrite16_frame y addr value).2, (customRegsWrite16_frame x addr value).2, h.config]
  · rw [(customRegsWrite16_frame y addr value).1, (customRegsWrite16_frame x addr value).1, h.ram]
  · rw [customRegsWrite16_disk, customRegsWrite16_disk]
    exact hdisk
  · rw [customRegsWrite16_agnus, customRegsWrite16_agnus, h.agnus]
    exact agnusAfterWrite_relatch _ _ _ _

/-- **A register write that the copper can issue keeps two contexts the same to the bus.** -/
theorem SameBus.write {x y : RigelContext} (h : SameBus x y) {addr : UInt32} (ha : 0x40 ≤ addr) (value : UInt16) :
    SameBus (customRegsWrite16 x addr value) (customRegsWrite16 y addr value) := by
  refine h.writeAny ?_
  unfold diskAfterWrite
  split
  · rw [h.config]
    exact h.disk.write _ _ _ (by rintro rfl; exact absurd ha (by decide)) value
  · exact h.disk

/-! ## The slot -/

theorem SameBus.setCopper {x y : RigelContext} (h : SameBus x y) {c c' : CopperState}
    (hc : c' = { c with eventLatched := c'.eventLatched }) : SameBus (setCopper x c) (setCopper y c') := by
  refine ⟨h.config, h.ram, h.mod1, h.mod2, h.disk, ?_⟩
  unfold Rigel.setCopper
  simp only
  rw [h.agnus, hc]
  rfl

theorem SameBus.copper {x y : RigelContext} (h : SameBus x y) :
    y.agnus.copper = { x.agnus.copper with eventLatched := y.agnus.copper.eventLatched } := by
  have hc := congrArg RigelAgnus.copper h.agnus
  exact hc

theorem SameBus.copperMove {x y : RigelContext} (h : SameBus x y) (ir1 ir2 : UInt16) :
    SameBus (copperExecMove x ir1 ir2) (copperExecMove y ir1 ir2) := by
  have hcop : y.agnus.copper.copcon = x.agnus.copper.copcon := by rw [h.copper]
  unfold copperExecMove
  simp only
  rw [hcop]
  split
  · refine h.setCopper ?_
    rw [h.copper]
  · rename_i hb
    have hflag : SameBus
        { x with denise := { x.denise with output := { x.denise.output with
            pendingFlags := x.denise.output.pendingFlags ||| frameCopperActive } } }
        { y with denise := { y.denise with output := { y.denise.output with
            pendingFlags := y.denise.output.pendingFlags ||| frameCopperActive } } } :=
      ⟨h.config, h.ram, h.mod1, h.mod2, h.disk, h.agnus⟩
    exact hflag.write (copperMoveBlocked_le hb) ir2

theorem copperAfterMove_relatch (pc : UInt32) {c c' : CopperState} (h : c' = { c with eventLatched := c'.eventLatched }) :
    copperAfterMove pc c' =
      { copperAfterMove pc c with eventLatched := (copperAfterMove pc c').eventLatched } := by
  have hs : c'.stoppedUntilVbl = c.stoppedUntilVbl := by rw [h]
  unfold copperAfterMove
  rw [hs]
  split
  · exact h
  · rw [h]

theorem SameBus.copperExecute {x y : RigelContext} (h : SameBus x y) (ir1 ir2 : UInt16) :
    SameBus (copperExecute x ir1 ir2) (copperExecute y ir1 ir2) := by
  have hbeam : y.agnus.beam = x.agnus.beam := by rw [h.agnus]; rfl
  have hpc : y.agnus.copper.programCounter = x.agnus.copper.programCounter := by rw [h.copper]
  unfold Rigel.copperExecute
  simp only
  split
  · split
    · rw [hbeam]
      refine h.setCopper ?_
      rw [h.copper]
    · refine h.setCopper ?_
      rw [h.copper]
      rfl
  · have hm := h.copperMove ir1 ir2
    rw [hpc]
    exact hm.setCopper (copperAfterMove_relatch _ hm.copper)

theorem SameBus.copperService {x y : RigelContext} (h : SameBus x y) :
    SameBus (rigelCopperServiceStepProgram x) (rigelCopperServiceStepProgram y) := by
  have h1 : y.agnus.copper.stoppedUntilVbl = x.agnus.copper.stoppedUntilVbl := by rw [h.copper]
  have h2 : y.agnus.copper.enabled = x.agnus.copper.enabled := by rw [h.copper]
  have h3 : y.agnus.copper.fetchPending = x.agnus.copper.fetchPending := by rw [h.copper]
  have h4 : y.agnus.copper.programCounter = x.agnus.copper.programCounter := by rw [h.copper]
  unfold rigelCopperServiceStepProgram
  simp only
  rw [h1, h2, h3, h4, h.ram]
  split
  · exact h
  split
  · exact h
  · refine SameBus.copperExecute (h.setCopper ?_) _ _
    rw [h.copper]

theorem sameBus_raise {x y : RigelContext} (h : SameBus x y) (masks masks' : List UInt16) :
    SameBus (raiseIrqSources x masks) (raiseIrqSources y masks') := by
  refine ⟨?_, ?_, ?_, ?_, ?_, ?_⟩
  · rw [raiseIrqSources_config, raiseIrqSources_config, h.config]
  · rw [raiseIrqSources_ram, raiseIrqSources_ram, h.ram]
  · rw [raiseIrqSources_customRegs _ _ (by decide), raiseIrqSources_customRegs _ _ (by decide), h.mod1]
  · rw [raiseIrqSources_customRegs _ _ (by decide), raiseIrqSources_customRegs _ _ (by decide), h.mod2]
  · rw [raiseIrqSources_disk, raiseIrqSources_disk]
    exact h.disk
  · rw [raiseIrqSources_agnus, raiseIrqSources_agnus]
    exact h.agnus

/-- A disk without a transfer is granted a slot in vain. -/
theorem diskGrant_idle (irq : Bool) {d : DiskState} (h : d.dmaBytesTotal = 0) (mem : ChipRam) :
    diskDmaServiceGrant irq d mem = ⟨d, mem, []⟩ := by
  have hz : ¬ d.dmaBytesDone < 0 := fun hn => absurd hn (by simp)
  simp [diskDmaServiceGrant, diskDmaWantsService, h, hz]

theorem SameBus.diskSlot {x y : RigelContext} (h : SameBus x y) : SameBus (diskSlot x) (diskSlot y) := by
  unfold Rigel.diskSlot
  simp only
  refine sameBus_raise ?_ _ _
  rw [h.config, h.ram]
  rcases h.disk with e | ⟨hx, hy⟩
  · rw [e]
    exact ⟨rfl, rfl, h.mod1, h.mod2, Or.inl rfl, h.agnus⟩
  · rw [diskGrant_idle _ hx, diskGrant_idle _ hy]
    exact ⟨rfl, rfl, h.mod1, h.mod2, Or.inr ⟨hx, hy⟩, h.agnus⟩

theorem SameBus.dispatch {x y : RigelContext} (h : SameBus x y) (owner : SlotOwner) (hpos : UInt16) :
    SameBus (dispatchSlot owner x hpos) (dispatchSlot owner y hpos) := by
  have hlift : ∀ {x' y' : RigelContext} (_ : y'.config = x'.config) (_ : y'.ram = x'.ram)
      (_ : y'.customRegs = y.customRegs) (_ : x'.customRegs = x.customRegs) (_ : y'.paula.disk = y.paula.disk)
      (_ : x'.paula.disk = x.paula.disk) (_ : y'.agnus = relatch x'.agnus y'.agnus.copper.eventLatched),
      SameBus x' y' := by
    intro x' y' h1 h2 h3 h4 h5 h6 h7
    exact ⟨h1, h2, by rw [h3, h4, h.mod1], by rw [h3, h4, h.mod2], by rw [h5, h6]; exact h.disk, h7⟩
  cases owner with
  | free => exact h
  | cpu => exact h
  | disk => exact h.diskSlot
  | copper => exact h.copperService
  | refresh =>
    refine hlift h.config h.ram rfl rfl rfl rfl ?_
    simp only [dispatchSlot, refreshSlot]
    rw [h.agnus]
    rfl
  | audio ch => exact hlift h.config h.ram rfl rfl rfl rfl h.agnus
  | sprite sp =>
    refine hlift h.config h.ram rfl rfl rfl rfl ?_
    simp only [dispatchSlot, spriteSlot]
    rw [h.agnus, h.ram]
    rfl
  | bitplane =>
    have hs : y.agnus.scheduler = x.agnus.scheduler := by rw [h.agnus]; rfl
    simp only [dispatchSlot, bitplaneSlot]
    rw [hs]
    split
    · refine hlift h.config h.ram rfl rfl rfl rfl ?_
      simp only [bitplaneFetch]
      rw [h.agnus, h.ram]
      rfl
    · exact h
  | blitter =>
    have hb : y.agnus.blitter = x.agnus.blitter := by rw [h.agnus]; rfl
    simp only [dispatchSlot, blitterSlot]
    rw [hb, h.ram]
    refine sameBus_raise ?_ _ _
    refine hlift h.config rfl rfl rfl rfl rfl ?_
    simp only
    rw [h.agnus]
    rfl

/-! ## The end of a clock -/

theorem SameBus.moveBeam {x y : RigelContext} (h : SameBus x y) : SameBus (schedulerMoveBeam x) (schedulerMoveBeam y) := by
  refine ⟨h.config, h.ram, h.mod1, h.mod2, h.disk, ?_⟩
  unfold schedulerMoveBeam
  simp only
  rw [h.agnus]
  rfl

theorem SameBus.readModulos {x y : RigelContext} (h : SameBus x y) :
    rigelContextReadReg y 0x108 = rigelContextReadReg x 0x108 ∧
      rigelContextReadReg y 0x10A = rigelContextReadReg x 0x10A :=
  ⟨h.mod1, h.mod2⟩

theorem SameBus.atLineStart {x y : RigelContext} (h : SameBus x y) :
    SameBus (schedulerAtLineStart x) (schedulerAtLineStart y) := by
  have hbeam : y.agnus.beam = x.agnus.beam := by rw [h.agnus]; rfl
  unfold schedulerAtLineStart
  rw [hbeam]
  split
  · refine ⟨h.config, h.ram, h.mod1, h.mod2, h.disk, ?_⟩
    unfold schedulerLineStart
    simp only
    rw [h.readModulos.1, h.readModulos.2, h.agnus]
    rfl
  · exact h

theorem SameBus.atVertb {x y : RigelContext} (h : SameBus x y) : SameBus (schedulerAtVertb x) (schedulerAtVertb y) := by
  have hbeam : y.agnus.beam = x.agnus.beam := by rw [h.agnus]; rfl
  unfold schedulerAtVertb
  rw [hbeam]
  split
  · have hr := sameBus_raise h [paulaIntVertb] [paulaIntVertb]
    refine ⟨hr.config, hr.ram, hr.mod1, hr.mod2, hr.disk, ?_⟩
    have ha := h.agnus
    have hs : y.agnus.scheduler = x.agnus.scheduler := by rw [h.agnus]; rfl
    simp only [schedulerVertb, rigelChipsetRaiseIrqSource, hs]
    rw [ha]
    by_cases hon : dmaconCopenOn x.agnus.scheduler.dmacon = true
    · simp only [hon, if_true]
      rfl
    · simp only [hon]
      rfl
  · exact h

theorem SameBus.schedulerDispatch {x y : RigelContext} (h : SameBus x y) :
    SameBus (schedulerDispatch x) (schedulerDispatch y) := by
  have hs : y.agnus.scheduler = x.agnus.scheduler := by rw [h.agnus]; rfl
  unfold Rigel.schedulerDispatch
  rw [h.slotOwner, hs]
  exact h.restoreDsken.dispatch _ _

/-- **One clock keeps two contexts the same to the bus.** -/
theorem SameBus.clock {x y : RigelContext} (h : SameBus x y) :
    SameBus (agnusSlotSchedulerStep x) (agnusSlotSchedulerStep y) :=
  h.prepare.schedulerDispatch.moveBeam.atLineStart.atVertb

theorem SameBus.clocks : ∀ (n : Nat) {x y : RigelContext} (_ : SameBus x y),
    SameBus (agnusSlotSchedulerStepUntil x n) (agnusSlotSchedulerStepUntil y n)
  | 0, _, _, h => h
  | n + 1, _, _, h => SameBus.clocks n h.clock

/-! ## Around the clocks -/

theorem sameDisk_diskStep (d : DiskState) (ticks : UInt32) : SameDisk d (diskStep d ticks).1 := by
  unfold diskStep
  split
  · exact Or.inl rfl
  · rename_i hrun
    have hz : d.dmaBytesTotal = 0 := by
      simp only [Bool.or_eq_true, not_or, decide_eq_true_eq] at hrun
      exact UInt32.toNat_inj.mp (Nat.eq_zero_of_not_pos fun hp => hrun.1.2 (UInt32.lt_iff_toNat_lt.mpr hp))
    split <;> exact Or.inr ⟨hz, hz⟩

theorem sameBus_paulaStep (ctx : RigelContext) (ticks : UInt32) : SameBus ctx (rigelPaulaStep ctx ticks) := by
  have hdisk : SameBus (paulaStepAudio ctx ticks) (paulaStepDisk (paulaStepAudio ctx ticks) ticks) := by
    refine sameBus_raise (x := paulaStepAudio ctx ticks) ?_ [] _
    exact ⟨rfl, rfl, rfl, rfl, sameDisk_diskStep _ _, rfl⟩
  have hserial : ∀ c : RigelContext, SameBus c (paulaStepSerial c ticks) := by
    intro c
    refine sameBus_raise (x := c) ?_ [] _
    exact ⟨rfl, rfl, rfl, rfl, Or.inl rfl, rfl⟩
  have haudio : SameBus ctx (paulaStepAudio ctx ticks) := ⟨rfl, rfl, rfl, rfl, Or.inl rfl, rfl⟩
  exact (haudio.trans hdisk).trans (hserial _)

theorem sameBus_onCia (f : CiaBus → CiaBus) (ctx : RigelContext) :
    SameBus ctx (onCiaA f ctx) ∧ SameBus ctx (onCiaB f ctx) :=
  ⟨⟨rfl, rfl, rfl, rfl, Or.inl rfl, rfl⟩, ⟨rfl, rfl, rfl, rfl, Or.inl rfl, rfl⟩⟩

theorem sameBus_eclock (ctx : RigelContext) (cycles : UInt32) : SameBus ctx (chipsetEclock ctx cycles) := by
  unfold chipsetEclock
  simp only
  split
  · exact ⟨rfl, rfl, rfl, rfl, Or.inl rfl, rfl⟩
  · exact ⟨rfl, rfl, rfl, rfl, Or.inl rfl, rfl⟩

/-- **What settles after the clocks is invisible to the bus.** -/
theorem sameBus_settle (before : BeamState) (ctx : RigelContext) (cycles : UInt32) :
    SameBus ctx (chipsetSettle before ctx cycles) :=
  (((sameBus_paulaStep ctx cycles).trans (sameBus_onCia _ _).1).trans (sameBus_onCia _ _).2).trans
    (sameBus_eclock _ cycles)

theorem sameBus_prologue {ctx : RigelContext} (hdma : ctx.agnus.dma = rigelDmaDomainSyncDmacon ctx.agnus.dma.dmacon)
    (cycles : UInt32) : SameBus ctx (stepPrologue ctx cycles) := by
  unfold stepPrologue
  simp only
  rw [← hdma]
  split
  · exact ⟨rfl, rfl, rfl, rfl, Or.inl rfl, rfl⟩
  · exact ⟨rfl, rfl, rfl, rfl, Or.inl rfl, rfl⟩

theorem sameBus_chipsetRun {ctx : RigelContext} (hdma : ctx.agnus.dma = rigelDmaDomainSyncDmacon ctx.agnus.dma.dmacon)
    (cycles : UInt32) : SameBus (agnusSlotSchedulerStepUntil ctx cycles.toNat) (chipsetRun ctx cycles) := by
  unfold chipsetRun rigelAgnusStep
  split
  · rename_i hz
    rw [hz]
    exact ⟨rfl, rfl, rfl, rfl, Or.inl rfl, rfl⟩
  · apply SameBus.clocks
    simp only [rigelPaulaSetDmacon]
    rw [← hdma]
    exact ⟨rfl, rfl, rfl, rfl, Or.inl rfl, rfl⟩

/-- **A chipset step is its clocks, to the bus.** -/
theorem sameBus_chipsetStep {ctx : RigelContext} (hdma : ctx.agnus.dma = rigelDmaDomainSyncDmacon ctx.agnus.dma.dmacon)
    (cycles : UInt32) : SameBus (agnusSlotSchedulerStepUntil ctx cycles.toNat) (rigelChipsetStep ctx cycles) :=
  (sameBus_chipsetRun hdma cycles).trans (sameBus_settle _ _ _)

theorem sameBus_clearEventLatch (ctx : RigelContext) : SameBus ctx (clearEventLatch ctx) :=
  ⟨rfl, rfl, rfl, rfl, Or.inl rfl, rfl⟩

end Rigel
