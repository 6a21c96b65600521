import Rigel.BusQuery
import Rigel.DiskTransfer
import Rigel.LineRun

/-!
# CalmRun — clocks with the copper off

With copper DMA off no clock writes a register, and what is left of a clock can be followed for as long as one likes:
DMACON stays, and the disk changes only in the slots that it is given. `WordsLeft d n` says that an active transfer has
at least `n` more words to move.
-/

namespace Rigel

/-- No copper, and DSKEN where a transfer wants the slot, so that the override has nothing to restore. -/
structure Calm (ctx : RigelContext) : Prop where
  ok : AgnusOk ctx.agnus
  copper : dmaconCopenOn ctx.agnus.dma.dmacon = false
  disk : diskWantsSlot ctx = true → dmaconDskenOn ctx.agnus.dma.dmacon = true

variable {ctx : RigelContext}

theorem Calm.write (h : Calm ctx) : clockWrite ctx = none := if_neg (dispatchedOwner_ne_copper h.ok h.copper)

theorem Calm.restore (h : Calm ctx) : schedulerRestoreDsken (schedulerPrepare ctx) = schedulerPrepare ctx := by
  have hdmacon := (schedulerPrepare_flags ctx).2.2
  unfold schedulerRestoreDsken
  rw [diskTakesSlot_live h.ok, hdmacon]
  cases hwants : diskWantsSlot ctx with
  | true => simp [h.disk hwants]
  | false => simp

theorem Calm.dma (h : Calm ctx) : (agnusSlotSchedulerStep ctx).agnus.dma = ctx.agnus.dma := by
  have hcopper : slotOwner (schedulerPrepare ctx) ≠ .copper := dispatchedOwner_ne_copper h.ok h.copper
  unfold agnusSlotSchedulerStep schedulerDispatch
  rw [schedulerAdvance_dma, dispatchSlot_dma hcopper, h.restore]
  rfl

theorem schedulerAdvance_disk (ctx : RigelContext) : (schedulerAdvance ctx).paula.disk = ctx.paula.disk := by
  unfold schedulerAdvance schedulerAtVertb schedulerAtLineStart
  split
  · split <;> rfl
  · split <;> rfl

/-- **The disk after a clock**: a word of the transfer in its own slot, and nothing in any other. -/
theorem Calm.clockDisk (h : Calm ctx) :
    (agnusSlotSchedulerStep ctx).paula.disk =
      if dispatchedOwner ctx = .disk then (diskDmaServiceGrant ctx.config.dsksynIrq ctx.paula.disk ctx.ram).disk
      else ctx.paula.disk := by
  have hcopper := dispatchedOwner_ne_copper h.ok h.copper
  show (schedulerAdvance (schedulerDispatch (schedulerPrepare ctx))).paula.disk = _
  rw [schedulerAdvance_disk]
  unfold schedulerDispatch
  rw [h.restore]
  show (dispatchSlot (dispatchedOwner ctx) _ _).paula.disk = _
  cases howner : dispatchedOwner ctx with
  | copper => exact absurd howner hcopper
  | disk =>
    simp only [dispatchSlot, diskSlot, raiseIrqSources_disk]
    rfl
  | blitter =>
    simp only [dispatchSlot, blitterSlot, raiseIrqSources_disk]
    rfl
  | bitplane =>
    simp only [dispatchSlot, bitplaneSlot]
    split <;> rfl
  | _ => rfl

/-- What calm clocks keep: the configuration, DMACON, the table's other inputs and the modulos. -/
structure CalmSame (ctx ctx' : RigelContext) : Prop where
  config : ctx'.config = ctx.config
  dma : ctx'.agnus.dma = ctx.agnus.dma
  inputs : { slotInputs ctx'.agnus.scheduler with dmacon := 0 } = { slotInputs ctx.agnus.scheduler with dmacon := 0 }
  modulo : ∀ i, isModuloIndex i → ctx'.customRegs i = ctx.customRegs i

theorem CalmSame.refl (ctx : RigelContext) : CalmSame ctx ctx := ⟨rfl, rfl, rfl, fun _ _ => rfl⟩

theorem CalmSame.trans {a b c : RigelContext} (h : CalmSame a b) (h' : CalmSame b c) : CalmSame a c :=
  ⟨h'.config.trans h.config, h'.dma.trans h.dma, h'.inputs.trans h.inputs,
    fun i hi => (h'.modulo i hi).trans (h.modulo i hi)⟩

/-- Only the copper's own slot changes an input of the table or a modulo. -/
theorem dispatchSlot_inputs {owner : SlotOwner} (h : owner ≠ .copper) (ctx : RigelContext) (hpos : UInt16) :
    slotInputs (dispatchSlot owner ctx hpos).agnus.scheduler = slotInputs ctx.agnus.scheduler ∧
      ∀ i, isModuloIndex i → (dispatchSlot owner ctx hpos).customRegs i = ctx.customRegs i := by
  cases owner with
  | copper => exact absurd rfl h
  | disk =>
    simp only [dispatchSlot, diskSlot, raiseIrqSources_agnus]
    exact ⟨trivial, fun i hi => raiseIrqSources_customRegs _ _ hi.ne_intreq⟩
  | blitter =>
    simp only [dispatchSlot, blitterSlot, raiseIrqSources_agnus]
    exact ⟨trivial, fun i hi => raiseIrqSources_customRegs _ _ hi.ne_intreq⟩
  | bitplane =>
    simp only [dispatchSlot, bitplaneSlot]
    split
    · exact ⟨(bitplaneLatchLine_cache ctx.agnus).2.2.2.1, fun _ _ => rfl⟩
    · exact ⟨rfl, fun _ _ => rfl⟩
  | _ => exact ⟨rfl, fun _ _ => rfl⟩

theorem schedulerAdvance_inputs (ctx : RigelContext) :
    slotInputs (schedulerAdvance ctx).agnus.scheduler = slotInputs ctx.agnus.scheduler ∧
      ∀ i, isModuloIndex i → (schedulerAdvance ctx).customRegs i = ctx.customRegs i := by
  have hline := lineStarted (schedulerMoveBeam ctx)
  have hinputs := hline.inputs
  have hregs := hline.customRegs
  unfold schedulerAdvance schedulerAtVertb
  split
  · refine ⟨hinputs, fun i hi => ?_⟩
    have hraise := raiseIrqSources_customRegs (schedulerAtLineStart (schedulerMoveBeam ctx)) [paulaIntVertb] hi.ne_intreq
    exact hraise.trans (congrFun hregs i)
  · exact ⟨hinputs, fun i _ => congrFun hregs i⟩

/-- **What one calm clock keeps.** -/
theorem Calm.same (h : Calm ctx) : CalmSame ctx (agnusSlotSchedulerStep ctx) := by
  have hcopper : slotOwner (schedulerPrepare ctx) ≠ .copper := dispatchedOwner_ne_copper h.ok h.copper
  obtain ⟨hslot, hslotRegs⟩ := dispatchSlot_inputs hcopper (schedulerPrepare ctx)
    (schedulerPrepare ctx).agnus.scheduler.hpos
  obtain ⟨hadvance, hadvanceRegs⟩ := schedulerAdvance_inputs (schedulerDispatch (schedulerPrepare ctx))
  refine ⟨(sameOutside_schedulerStep ctx).config, h.dma, ?_, fun i hi => ?_⟩
  · show { slotInputs (schedulerAdvance (schedulerDispatch (schedulerPrepare ctx))).agnus.scheduler with dmacon := 0 } = _
    rw [hadvance]
    unfold schedulerDispatch
    rw [h.restore, hslot, (schedulerPrepare_inputs ctx).1]
  · refine (hadvanceRegs i hi).trans ?_
    unfold schedulerDispatch
    rw [h.restore]
    exact hslotRegs i hi

/-! ## Clocks without a disk -/

/-- DSKEN is off, and no transfer wants a slot. -/
structure DiskOff (ctx : RigelContext) : Prop where
  ok : AgnusOk ctx.agnus
  copper : dmaconCopenOn ctx.agnus.dma.dmacon = false
  dsken : dmaconDskenOn ctx.agnus.dma.dmacon = false
  idle : dmaconMaster ctx.agnus.dma.dmacon = false ∨ diskDmaWantsService ctx.paula.disk = false

theorem DiskOff.wants (h : DiskOff ctx) : diskWantsSlot ctx = false := by
  unfold diskWantsSlot
  rcases h.idle with hoff | hidle
  · simp [hoff]
  · simp [hidle]

theorem DiskOff.calm (h : DiskOff ctx) : Calm ctx :=
  ⟨h.ok, h.copper, fun hd => Bool.noConfusion (h.wants.symm.trans hd)⟩

theorem DiskOff.owner (h : DiskOff ctx) : dispatchedOwner ctx ≠ .disk := by
  rw [Ne, dispatchedOwner_iff h.ok SlotOwner.noConfusion SlotOwner.noConfusion SlotOwner.noConfusion, slotEntry, h.wants]
  intro he
  have hon := liveEntry_enabled ctx
  rw [show liveEntry ctx = .disk from he] at hon
  exact Bool.noConfusion (h.dsken.symm.trans hon)

theorem DiskOff.disk (h : DiskOff ctx) : (agnusSlotSchedulerStep ctx).paula.disk = ctx.paula.disk := by
  rw [h.calm.clockDisk, if_neg h.owner]

theorem DiskOff.clock (h : DiskOff ctx) : DiskOff (agnusSlotSchedulerStep ctx) := by
  refine ⟨agnusSlotSchedulerStep_ok _ h.ok, ?_, ?_, ?_⟩
  · rw [h.calm.dma]
    exact h.copper
  · rw [h.calm.dma]
    exact h.dsken
  · rw [h.calm.dma, h.disk]
    exact h.idle

/-- **Any number of clocks without a disk.** -/
theorem DiskOff.clocks (h : DiskOff ctx) : ∀ n : Nat,
    DiskOff (agnusSlotSchedulerStepUntil ctx n) ∧ CalmSame ctx (agnusSlotSchedulerStepUntil ctx n) ∧
      (agnusSlotSchedulerStepUntil ctx n).paula.disk = ctx.paula.disk
  | 0 => ⟨h, .refl ctx, rfl⟩
  | n + 1 => by
    obtain ⟨hoff, hsame, hdisk⟩ := h.clocks n
    rw [agnusSlotSchedulerStepUntil_succ]
    exact ⟨hoff.clock, hsame.trans hoff.calm.same, hoff.disk.trans hdisk⟩

/-! ## A transfer with words left -/

/-- An active transfer has at least `n` more words to move. -/
structure WordsLeft (d : DiskState) (n : Nat) : Prop where
  active : d.dmaActive = true
  mode : d.writeMode = false
  track : 2 ≤ d.dmaTrackLen
  left : d.dmaBytesDone.toNat + 2 * n ≤ d.dmaBytesTotal.toNat
  small : d.dmaBytesTotal.toNat < 65536

instance (d : DiskState) (n : Nat) : Decidable (WordsLeft d n) :=
  decidable_of_iff
    (d.dmaActive = true ∧ d.writeMode = false ∧ 2 ≤ d.dmaTrackLen ∧
      d.dmaBytesDone.toNat + 2 * n ≤ d.dmaBytesTotal.toNat ∧ d.dmaBytesTotal.toNat < 65536)
    ⟨fun ⟨active, mode, track, left, small⟩ => ⟨active, mode, track, left, small⟩,
      fun h => ⟨h.active, h.mode, h.track, h.left, h.small⟩⟩

theorem WordsLeft.fewer {d : DiskState} {m n : Nat} (h : WordsLeft d n) (hm : m ≤ n) : WordsLeft d m :=
  ⟨h.active, h.mode, h.track, by have := h.left; omega, h.small⟩

theorem WordsLeft.wants {d : DiskState} {n : Nat} (h : WordsLeft d (n + 1)) : diskDmaWantsService d = true := by
  have hlt : d.dmaBytesDone < d.dmaBytesTotal := by
    have := h.left
    rw [UInt32.lt_iff_toNat_lt]
    omega
  simp [diskDmaWantsService, h.active, h.mode, hlt]

/-- A granted word that is not the last one. -/
theorem WordsLeft.grant {d : DiskState} {n : Nat} (h : WordsLeft d (n + 2)) (irq : Bool) (mem : ChipRam) :
    WordsLeft (diskDmaServiceGrant irq d mem).disk (n + 1) := by
  have hwants := h.wants
  have htrack : ¬ d.dmaTrackLen < 2 := UInt32.not_lt.mpr h.track
  have hleft := h.left
  have hsmall := h.small
  unfold diskDmaServiceGrant
  simp only [hwants, htrack, Bool.not_true, decide_false, Bool.or_false, Bool.false_eq_true, if_false]
  generalize (if d.dmaSrcOffset + 1 ≥ d.dmaTrackLen then 0 else d.dmaSrcOffset) = src
  obtain ⟨hs, -⟩ := diskMoveWord_counts irq d src (readBe16 d.dmaTrackBuf src.toNat)
  generalize diskMoveWord irq d src (readBe16 d.dmaTrackBuf src.toNat) = moved at hs ⊢
  have hdone : moved.1.dmaBytesDone.toNat = d.dmaBytesDone.toNat + 2 := by
    rw [hs.done, UInt32.toNat_add]
    simp only [UInt32.reduceToNat]
    omega
  have htotal : moved.1.dmaBytesTotal.toNat = d.dmaBytesTotal.toNat := by rw [hs.total]
  have hmore : moved.1.dmaBytesDone < moved.1.dmaBytesTotal := by
    rw [UInt32.lt_iff_toNat_lt]
    omega
  rw [if_pos hmore]
  have hmoved : WordsLeft moved.1 (n + 1) :=
    ⟨hs.active.trans h.active, hs.mode.trans h.mode, by rw [hs.track]; exact h.track, by omega, by omega⟩
  exact hmoved

/-- **A transfer over a clock**: it keeps all its words but one. -/
theorem Calm.words (h : Calm ctx) {n : Nat} (hw : WordsLeft ctx.paula.disk (n + 2)) :
    WordsLeft (agnusSlotSchedulerStep ctx).paula.disk (n + 1) := by
  rw [h.clockDisk]
  split
  · exact hw.grant _ _
  · exact hw.fewer (Nat.le_succ _)

end Rigel
