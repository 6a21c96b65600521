import Rigel.AgnusEffects
import Rigel.Bits

/-!
# Invariant — what holds of Agnus in every reachable state

One invariant, `AgnusOk`, carried through every register write, every granted slot, every beam move and every call of
the host: the beam's geometry is PAL or NTSC and its position is inside the line, the scheduler follows it, the copper's
armed position fits its bits, and the cached slot table is either known to be stale or what a rebuild would give now.
-/

namespace Rigel

/-- The beam of a reachable context. Long lines do not occur: nothing sets the LOL toggle. -/
structure BeamOk (b : BeamState) : Prop where
  lineClocks : b.lineClocks = 227
  frameLines : b.frameLines = 262 ∨ b.frameLines = 312
  hpos : b.hpos < 227
  vpos : b.vpos ≤ 312
  lol : b.lol = 0
  lolToggle : b.lolToggle = 0

/-- The cached table and index are those of a rebuild from the scheduler's inputs and the beam's line. -/
def TableFresh (a : RigelAgnus) : Prop :=
  a.scheduler.table = (buildSlotTables (slotInputs a.scheduler) a.beam.vpos a.refresh).owner ∧
    a.scheduler.bitplaneSlotIndex = (buildSlotTables (slotInputs a.scheduler) a.beam.vpos a.refresh).index

/-- The cache is dirty, or about to be found stale, or fresh. -/
def TableCoherent (a : RigelAgnus) : Prop :=
  a.scheduler.tableDirty = true ∨ a.dma.dmacon ≠ a.scheduler.dmacon ∨ TableFresh a

structure AgnusOk (a : RigelAgnus) : Prop where
  beam : BeamOk a.beam
  follow : a.scheduler.hpos = a.beam.hpos
  dma : a.dma = rigelDmaDomainSyncDmacon a.dma.dmacon
  waitVpos : a.copper.waitVpos ≤ 0xFF
  waitHpos : a.copper.waitHpos ≤ 0xFE
  coherent : TableCoherent a

/-! ## The beam -/

theorem BeamOk.frameLines_ne {b : BeamState} (h : BeamOk b) : b.frameLines ≠ 0 := by
  rcases h.frameLines with hf | hf <;> rw [hf] <;> decide

theorem BeamOk.frameLines_cases {b : BeamState} (h : BeamOk b) : b.frameLines.toNat = 262 ∨ b.frameLines.toNat = 312 := by
  rcases h.frameLines with hf | hf <;> rw [hf]
  · exact .inl rfl
  · exact .inr rfl

/-- What `agnus_cycles_to_vertb` counts: to the end of the line, the frame's remaining lines without a long frame's last, and one
clock. -/
theorem BeamOk.cyclesToVertb {b : BeamState} (h : BeamOk b) (hoff : agnusIsVertbPosition b.hpos b.vpos = false) :
    (agnusCyclesToVertb b).toNat =
      227 - b.hpos.toNat + 227 * (b.frameLines.toNat - b.vpos.toNat - 1) + 1 := by
  have hh : b.hpos.toNat < 227 := UInt16.lt_iff_toNat_lt.mp h.hpos
  have hf := h.frameLines_cases
  have hcycles : (b.lineClocks.toUInt32 - b.hpos.toUInt32).toNat = 227 - b.hpos.toNat := by
    rw [h.lineClocks, UInt32.toNat_sub_of_le, UInt16.toNat_toUInt32, UInt16.toNat_toUInt32]
    · rfl
    · rw [UInt32.le_iff_toNat_le, UInt16.toNat_toUInt32, UInt16.toNat_toUInt32]
      exact Nat.le_of_lt hh
  have hlines : (if b.vpos < b.frameLines then b.frameLines.toUInt32 - b.vpos.toUInt32 - 1 else 0).toNat =
      b.frameLines.toNat - b.vpos.toNat - 1 := by
    split
    · rename_i hlt
      have hlt' := UInt16.lt_iff_toNat_lt.1 hlt
      have h1 : (b.frameLines.toUInt32 - b.vpos.toUInt32).toNat = b.frameLines.toNat - b.vpos.toNat := by
        rw [UInt32.toNat_sub_of_le, UInt16.toNat_toUInt32, UInt16.toNat_toUInt32]
        rw [UInt32.le_iff_toNat_le, UInt16.toNat_toUInt32, UInt16.toNat_toUInt32]
        exact Nat.le_of_lt hlt'
      rw [UInt32.toNat_sub_of_le, h1]
      · rfl
      · rw [UInt32.le_iff_toNat_le, h1]
        simp only [UInt32.reduceToNat]
        omega
    · rename_i hge
      have hge' := UInt16.le_iff_toNat_le.1 (UInt16.not_lt.1 hge)
      simp only [UInt32.toNat_zero]
      omega
  have hline : (227 : UInt16).toUInt32.toNat = 227 := rfl
  have hvertb : agnusVertbHpos.toUInt32.toNat = 1 := rfl
  unfold agnusCyclesToVertb
  rw [hoff, if_neg Bool.false_ne_true]
  dsimp only
  rw [UInt32.toNat_add, UInt32.toNat_add, UInt32.toNat_mul, hcycles, hlines, h.lineClocks, hline, hvertb]
  omega

/-- One clock of a reachable beam: a step to the right, or the wrap of its last clock. -/
theorem BeamOk.beamStep_one {b : BeamState} (h : BeamOk b) :
    beamStep b 1 = if b.hpos + 1 = 227 then beamAdvanceLine b else { b with hpos := b.hpos + 1 } := by
  have hlt : b.hpos < b.lineClocks := by rw [h.lineClocks]; exact h.hpos
  rw [beamStep_one_of_lt h.frameLines_ne h.lol hlt, h.lineClocks]

theorem BeamOk.advanceLine {b : BeamState} (h : BeamOk b) : BeamOk (beamAdvanceLine b) := by
  refine ⟨h.lineClocks, h.frameLines, by simp [beamAdvanceLine], ?_, by simp [beamAdvanceLine, h.lolToggle],
    h.lolToggle⟩
  have hf := h.frameLines
  have hv := h.vpos
  simp only [beamAdvanceLine, beamFrameVmax]
  split
  · grind
  · split at * <;> grind

theorem BeamOk.step {b : BeamState} (h : BeamOk b) : BeamOk (beamStep b 1) := by
  rw [h.beamStep_one]
  split
  · exact h.advanceLine
  · rename_i hne
    refine ⟨h.lineClocks, h.frameLines, ?_, h.vpos, h.lol, h.lolToggle⟩
    have hh := h.hpos
    grind

/-- A beam that has not wrapped is on the same line. -/
theorem BeamOk.step_vpos {b : BeamState} (h : BeamOk b) (hne : (beamStep b 1).hpos ≠ 0) :
    (beamStep b 1).vpos = b.vpos := by
  rw [h.beamStep_one] at hne ⊢
  by_cases hw : b.hpos + 1 = 227
  · rw [if_pos hw] at hne
    exact absurd rfl hne
  · rw [if_neg hw]

theorem beamOk_videoStd {b : BeamState} (h : BeamOk b) (std : AgnusVideoStd) (stop : UInt16) :
    BeamOk { b with
      lineClocks := (rasterReset std).lineClocks
      frameLines := (rasterReset std).frameLines
      visibleYStop := stop } := by
  cases std with
  | pal => exact ⟨rfl, .inr rfl, h.hpos, h.vpos, h.lol, h.lolToggle⟩
  | ntsc => exact ⟨rfl, .inl rfl, h.hpos, h.vpos, h.lol, h.lolToggle⟩

/-! ## Register writes -/

/-- Only WAIT changes the armed position. -/
theorem copperWriteReg_wait (c : CopperState) (addr : UInt32) (value : UInt16) :
    (copperWriteReg c addr value).waitVpos = c.waitVpos ∧ (copperWriteReg c addr value).waitHpos = c.waitHpos := by
  unfold copperWriteReg
  split <;> exact ⟨rfl, rfl⟩

/-- A setter that keeps the position and the cached DMACON, and marks the cache dirty unless it changes nothing. -/
theorem coherent_of_setter {a : RigelAgnus} {s : SlotScheduler} (h : TableCoherent a)
    (hs : s.tableDirty = true ∨ s = a.scheduler) (raster : RasterConfig) (beam : BeamState)
    (hv : beam.vpos = a.beam.vpos) :
    TableCoherent { a with raster := raster, scheduler := s, beam := beam } := by
  rcases hs with hd | he
  · exact .inl hd
  · subst he
    simpa only [TableCoherent, TableFresh, hv] using h

theorem setHires_dirty (s : SlotScheduler) (hires : Bool) :
    (agnusSlotSchedulerSetHires s hires).tableDirty = true ∨ agnusSlotSchedulerSetHires s hires = s := by
  unfold agnusSlotSchedulerSetHires
  split
  · exact .inl rfl
  · exact .inr rfl

theorem setDepth_dirty (s : SlotScheduler) (depth : UInt16) :
    (agnusSlotSchedulerSetDepth s depth).tableDirty = true ∨ agnusSlotSchedulerSetDepth s depth = s := by
  unfold agnusSlotSchedulerSetDepth
  split
  · exact .inl rfl
  · exact .inr rfl

theorem setVstrt_dirty (s : SlotScheduler) (diwstrt : UInt16) :
    (agnusSlotSchedulerSetVstrt s diwstrt).tableDirty = true ∨ agnusSlotSchedulerSetVstrt s diwstrt = s := by
  unfold agnusSlotSchedulerSetVstrt
  split
  · exact .inl rfl
  · exact .inr rfl

theorem setDepth_setHires_dirty (s : SlotScheduler) (hires : Bool) (depth : UInt16) :
    (agnusSlotSchedulerSetDepth (agnusSlotSchedulerSetHires s hires) depth).tableDirty = true ∨
      agnusSlotSchedulerSetDepth (agnusSlotSchedulerSetHires s hires) depth = s := by
  rcases setDepth_dirty (agnusSlotSchedulerSetHires s hires) depth with hd | hd
  · exact .inl hd
  · rw [hd]
    exact setHires_dirty s hires

theorem setters_hpos (s : SlotScheduler) (hires : Bool) (depth diwstrt : UInt16) :
    (agnusSlotSchedulerSetDepth (agnusSlotSchedulerSetHires s hires) depth).hpos = s.hpos ∧
      (agnusSlotSchedulerSetVstrt s diwstrt).hpos = s.hpos := by
  unfold agnusSlotSchedulerSetDepth agnusSlotSchedulerSetHires agnusSlotSchedulerSetVstrt
  constructor <;> (repeat' split) <;> rfl

/-- **A register write keeps the invariant.** -/
theorem AgnusOk.write {a a' : RigelAgnus} (h : AgnusOk a) (hw : AgnusWrite a a') : AgnusOk a' := by
  cases hw with
  | same => exact h
  | blitter addr value => exact ⟨h.beam, h.follow, h.dma, h.waitVpos, h.waitHpos, h.coherent⟩
  | copper addr value =>
    obtain ⟨hv, hh⟩ := copperWriteReg_wait a.copper addr value
    exact ⟨h.beam, h.follow, h.dma, hv.symm ▸ h.waitVpos, hh.symm ▸ h.waitHpos, h.coherent⟩
  | dmacon value => exact ⟨h.beam, h.follow, rfl, h.waitVpos, h.waitHpos, .inl rfl⟩
  | ddf ddfstrt ddfstop raster => exact ⟨h.beam, h.follow, h.dma, h.waitVpos, h.waitHpos, .inl rfl⟩
  | videoStd beamcon0 std =>
    exact ⟨beamOk_videoStd h.beam std _, h.follow, h.dma, h.waitVpos, h.waitHpos, h.coherent⟩
  | pointers addr value => exact ⟨h.beam, h.follow, h.dma, h.waitVpos, h.waitHpos, h.coherent⟩
  | bplcon0 value =>
    have hb := h.beam
    refine ⟨⟨hb.lineClocks, hb.frameLines, hb.hpos, hb.vpos, hb.lol, hb.lolToggle⟩,
      (setters_hpos _ _ _ 0).1.trans h.follow, h.dma, h.waitVpos, h.waitHpos, ?_⟩
    exact coherent_of_setter h.coherent (setDepth_setHires_dirty _ _ _) a.raster _ rfl
  | diwstrt value =>
    refine ⟨h.beam, (setters_hpos _ false 0 value).2.trans h.follow, h.dma, h.waitVpos, h.waitHpos, ?_⟩
    exact coherent_of_setter h.coherent (setVstrt_dirty _ _) _ a.beam rfl
  | diwstop value => exact ⟨h.beam, h.follow, h.dma, h.waitVpos, h.waitHpos, h.coherent⟩

/-! ## Granted slots -/

/-- A change of the copper that keeps the armed position in its bits keeps the invariant. -/
theorem AgnusOk.setCopper {a : RigelAgnus} (h : AgnusOk a) {c : CopperState} (hv : c.waitVpos ≤ 0xFF)
    (hh : c.waitHpos ≤ 0xFE) : AgnusOk { a with copper := c } :=
  ⟨h.beam, h.follow, h.dma, hv, hh, h.coherent⟩

theorem AgnusOk.copperEffect {a a' : RigelAgnus} (h : AgnusOk a) (hc : CopperEffect a a') : AgnusOk a' := by
  cases hc with
  | idle => exact h
  | skip pc => exact h.setCopper h.waitVpos h.waitHpos
  | wait ir1 ir2 => exact h.setCopper (and_le_right_uint16 _ _) (and_le_right_uint16 _ _)
  | protectedMove => exact h.setCopper h.waitVpos h.waitHpos
  | move pc reg value =>
    have hw := (h.setCopper (c := { a.copper with fetchPending := false }) h.waitVpos h.waitHpos).write
      (agnusAfterWrite_cases _ reg value)
    refine hw.setCopper ?_ ?_
    · unfold copperAfterMove
      split <;> exact hw.waitVpos
    · unfold copperAfterMove
      split <;> exact hw.waitHpos

/-- **A granted slot keeps the invariant.** -/
theorem AgnusOk.slot {a a' : RigelAgnus} (h : AgnusOk a) (hs : SlotEffect a a') : AgnusOk a' := by
  cases hs with
  | same => exact h
  | refresh n => exact ⟨h.beam, h.follow, h.dma, h.waitVpos, h.waitHpos, h.coherent⟩
  | sprite s => exact ⟨h.beam, h.follow, h.dma, h.waitVpos, h.waitHpos, h.coherent⟩
  | blitter mem => exact ⟨h.beam, h.follow, h.dma, h.waitVpos, h.waitHpos, h.coherent⟩
  | copper hc => exact h.copperEffect hc
  | bitplane data s hc =>
    obtain ⟨ht, hi, hp, hin, hd⟩ := hc
    have hm : s.dmacon = a.scheduler.dmacon := congrArg SlotInputs.dmacon hin
    refine ⟨h.beam, hp.trans h.follow, h.dma, h.waitVpos, h.waitHpos, ?_⟩
    simpa only [TableCoherent, TableFresh, ht, hi, hin, hd, hm] using h.coherent

/-! ## One colour clock -/

/-- **The table that a step consults is fresh.** After the sample and the rebuild the cached DMACON is the live one,
and the cache is what a rebuild gives. -/
theorem schedulerPrepare_fresh (ctx : RigelContext) (h : AgnusOk ctx.agnus) :
    TableFresh (schedulerPrepare ctx).agnus ∧
      (schedulerPrepare ctx).agnus.scheduler.dmacon = (schedulerPrepare ctx).agnus.dma.dmacon ∧
      (schedulerPrepare ctx).agnus.scheduler.tableDirty = false := by
  by_cases hd : (schedulerSample ctx).agnus.scheduler.tableDirty = true
  · simp only [schedulerPrepare, schedulerRefreshTable, agnusFreshTable, hd, if_true]
    exact ⟨⟨rfl, rfl⟩, rfl, rfl⟩
  · simp only [schedulerPrepare, schedulerRefreshTable, agnusFreshTable, hd, if_false, Bool.false_eq_true]
    simp only [schedulerSample, Bool.or_eq_true, bne_iff_ne, ne_eq, not_or, Decidable.not_not] at hd
    obtain ⟨hclean, hsame⟩ := hd
    refine ⟨?_, rfl, trivial⟩
    rcases h.coherent with hc | hc | hc
    · exact absurd hc hclean
    · exact absurd hsame.symm hc
    · have hin : slotInputs (schedulerSample ctx).agnus.scheduler = slotInputs ctx.agnus.scheduler := by
        simp only [slotInputs, schedulerSample, hsame]
      unfold TableFresh
      rw [hin]
      exact hc

theorem schedulerPrepare_ok (ctx : RigelContext) (h : AgnusOk ctx.agnus) : AgnusOk (schedulerPrepare ctx).agnus := by
  have hf := (schedulerPrepare_fresh ctx h).1
  refine ⟨h.beam, ?_, h.dma, h.waitVpos, h.waitHpos, .inr (.inr hf)⟩
  simp only [schedulerPrepare, schedulerRefreshTable, agnusFreshTable]
  split <;> rfl

theorem schedulerRestoreDsken_ok (ctx : RigelContext) (h : AgnusOk ctx.agnus) :
    AgnusOk (schedulerRestoreDsken ctx).agnus := by
  unfold schedulerRestoreDsken
  split
  · exact ⟨h.beam, h.follow, rfl, h.waitVpos, h.waitHpos, .inl rfl⟩
  · exact h

theorem schedulerDispatch_ok (ctx : RigelContext) (h : AgnusOk ctx.agnus) : AgnusOk (schedulerDispatch ctx).agnus :=
  (schedulerRestoreDsken_ok ctx h).slot (dispatchSlot_cases _ _ _)

theorem schedulerAtLineStart_ok (ctx : RigelContext) (h : AgnusOk ctx.agnus) :
    AgnusOk (schedulerAtLineStart ctx).agnus := by
  unfold schedulerAtLineStart
  split
  · exact ⟨h.beam, h.follow, h.dma, h.waitVpos, h.waitHpos, .inl rfl⟩
  · exact h

theorem schedulerAtVertb_ok (ctx : RigelContext) (h : AgnusOk ctx.agnus) : AgnusOk (schedulerAtVertb ctx).agnus := by
  unfold schedulerAtVertb schedulerVertb
  split
  · refine ⟨h.beam, h.follow, h.dma, ?_, ?_, h.coherent⟩
    · simp only
      split <;> exact h.waitVpos
    · simp only
      split <;> exact h.waitHpos
  · exact h

/-- The beam moves. On a new line the table is marked dirty; on the same line it stays what it was. -/
theorem schedulerAdvance_ok (ctx : RigelContext) (h : AgnusOk ctx.agnus) : AgnusOk (schedulerAdvance ctx).agnus := by
  have hb := h.beam.step
  refine schedulerAtVertb_ok _ ?_
  by_cases h0 : (beamStep ctx.agnus.beam 1).hpos = 0
  · have hl : schedulerAtLineStart (schedulerMoveBeam ctx) = schedulerLineStart (schedulerMoveBeam ctx) := by
      unfold schedulerAtLineStart
      exact if_pos h0
    rw [hl]
    exact ⟨hb, rfl, h.dma, h.waitVpos, h.waitHpos, .inl rfl⟩
  · refine schedulerAtLineStart_ok _ ⟨hb, rfl, h.dma, h.waitVpos, h.waitHpos, ?_⟩
    have hv : (schedulerMoveBeam ctx).agnus.beam.vpos = ctx.agnus.beam.vpos := h.beam.step_vpos h0
    have hc := h.coherent
    unfold TableCoherent TableFresh at hc ⊢
    rw [hv]
    exact hc

/-- **One colour clock keeps the invariant.** -/
theorem agnusSlotSchedulerStep_ok (ctx : RigelContext) (h : AgnusOk ctx.agnus) :
    AgnusOk (agnusSlotSchedulerStep ctx).agnus :=
  schedulerAdvance_ok _ (schedulerDispatch_ok _ (schedulerPrepare_ok ctx h))

/-! ## Runs -/

theorem rigelDmaDomainReset_eq : rigelDmaDomainReset = rigelDmaDomainSyncDmacon 0 := by decide

theorem rigelReset_ok (ctx : RigelContext) : AgnusOk (rigelReset ctx).agnus := by
  have hb : BeamOk { beamReset with
      lineClocks := (rasterReset .ntsc).lineClocks
      frameLines := (rasterReset .ntsc).frameLines } := ⟨rfl, .inl rfl, by decide, by decide, rfl, rfl⟩
  have hv : (rigelReset ctx).agnus.copper.waitVpos = 0 := rfl
  have hh : (rigelReset ctx).agnus.copper.waitHpos = 0 := rfl
  exact ⟨beamOk_videoStd hb _ _, rfl, rigelDmaDomainReset_eq, by rw [hv]; decide, by rw [hh]; decide, .inl rfl⟩

/-- A property of Agnus that survives a reset, a register write, a colour clock, and the little that a step does to Agnus
before its clocks. -/
structure AgnusInvariant (P : RigelAgnus → Prop) : Prop where
  reset : ∀ ctx, P (rigelReset ctx).agnus
  write : ∀ {a a'}, P a → AgnusWrite a a' → P a'
  latch : ∀ {a}, P a → P { a with copper := { a.copper with eventLatched := false } }
  sync : ∀ {a}, P a → P { a with dma := rigelDmaDomainSyncDmacon a.dma.dmacon }
  clock : ∀ {ctx : RigelContext}, P ctx.agnus → P (agnusSlotSchedulerStep ctx).agnus
  cycleExact : ∀ {a} on, P a → P { a with blitter := { a.blitter with cycleExact := on } }

theorem AgnusInvariant.clocks {P : RigelAgnus → Prop} (inv : AgnusInvariant P) {ctx : RigelContext} (h : P ctx.agnus)
    (n : Nat) : P (agnusSlotSchedulerStepUntil ctx n).agnus := by
  induction n generalizing ctx with
  | zero => exact h
  | succ n ih => exact ih (inv.clock h)

theorem AgnusInvariant.chipsetRun {P : RigelAgnus → Prop} (inv : AgnusInvariant P) {ctx : RigelContext}
    (h : P ctx.agnus) (cycles : UInt32) : P (chipsetRun ctx cycles).agnus := by
  unfold Rigel.chipsetRun rigelAgnusStep
  split
  · exact h
  · refine inv.clocks ?_ _
    exact inv.sync h

theorem AgnusInvariant.stepRun {P : RigelAgnus → Prop} (inv : AgnusInvariant P) {ctx : RigelContext} (h : P ctx.agnus)
    (cycles : UInt64) : P (rigelStepRun ctx cycles).agnus := by
  unfold rigelStepRun
  rw [rigelChipsetStep_agnus]
  refine inv.chipsetRun ?_ _
  exact inv.latch h

/-- **The property survives every call of the host.** -/
theorem AgnusInvariant.hostCall {P : RigelAgnus → Prop} (inv : AgnusInvariant P) {ctx : RigelContext} (h : P ctx.agnus)
    (c : HostCall) : P (hostCall ctx c).agnus := by
  have hc := hostCall_agnus ctx c
  cases c with
  | reset => exact inv.reset ctx
  | step cycles => exact hc ▸ inv.stepRun h cycles
  | stepUntil target =>
    simp only at hc
    rw [hc]
    split
    · exact h
    · exact inv.stepRun h _
  | customWrite addr value => exact hc ▸ inv.write h (agnusAfterWrite_cases _ _ _)
  | setCycleExact on => exact hc ▸ inv.cycleExact on h
  | _ => exact hc ▸ h

theorem AgnusInvariant.reachable {P : RigelAgnus → Prop} (inv : AgnusInvariant P) {ctx : RigelContext}
    (h : Reachable ctx) : P ctx.agnus := by
  induction h with
  | create config ram => exact inv.reset _
  | call _ c ih => exact inv.hostCall ih c

theorem agnusOk_invariant : AgnusInvariant AgnusOk where
  reset := rigelReset_ok
  write h hw := h.write hw
  latch h := h.setCopper h.waitVpos h.waitHpos
  sync h := ⟨h.beam, h.follow, rfl, h.waitVpos, h.waitHpos, h.coherent⟩
  clock h := agnusSlotSchedulerStep_ok _ h
  cycleExact _ h := ⟨h.beam, h.follow, h.dma, h.waitVpos, h.waitHpos, h.coherent⟩

theorem agnusSlotSchedulerStepUntil_ok (ctx : RigelContext) (h : AgnusOk ctx.agnus) (n : Nat) :
    AgnusOk (agnusSlotSchedulerStepUntil ctx n).agnus := agnusOk_invariant.clocks h n

/-- **The invariant holds in every reachable state.** -/
theorem Reachable.agnusOk {ctx : RigelContext} (h : Reachable ctx) : AgnusOk ctx.agnus := agnusOk_invariant.reachable h

end Rigel
