import Rigel.AgnusEffects
import Rigel.Run

/-!
# BusRun — a host's run as single bus events

A step of the host is a prologue, its colour clocks one by one, and the settling. Between two clocks lies every state in
which a copper instruction is executed, between two steps every state in which the CPU writes a register; a run of
`BusEvent`s has both.
-/

namespace Rigel

inductive BusEvent where
  | clock
  | write (addr : UInt32) (value : UInt16)
  | stepBegin (cycles : UInt32)
  | stepEnd (before : BeamState) (cycles : UInt32)

/-- What `rigel_step` does before the first clock. -/
def stepPrologue (ctx : RigelContext) (cycles : UInt32) : RigelContext :=
  let begun := rigelPaulaSetDmacon { clearEventLatch ctx with cycles := ctx.cycles + cycles.toUInt64 } ctx.agnus.dma.dmacon
  if cycles = 0 then begun
  else { begun with agnus := { begun.agnus with dma := rigelDmaDomainSyncDmacon ctx.agnus.dma.dmacon } }

/-- What `rigel_step` does after the last clock. -/
def stepEpilogue (before : BeamState) (ctx : RigelContext) (cycles : UInt32) : RigelContext :=
  clearSampleReady (chipsetSettle before ctx cycles)

def busEvent (ctx : RigelContext) : BusEvent → RigelContext
  | .clock => agnusSlotSchedulerStep ctx
  | .write addr value => customRegsWrite16 ctx addr value
  | .stepBegin cycles => stepPrologue ctx cycles
  | .stepEnd before cycles => stepEpilogue before ctx cycles

theorem busEvent_clocks : ∀ (n : Nat) (ctx : RigelContext),
    (List.replicate n BusEvent.clock).foldl busEvent ctx = agnusSlotSchedulerStepUntil ctx n
  | 0, _ => rfl
  | n + 1, ctx => busEvent_clocks n (agnusSlotSchedulerStep ctx)

theorem chipsetRun_eq_clocks (ctx : RigelContext) (cycles : UInt32) :
    chipsetRun (clearEventLatch ctx) cycles = agnusSlotSchedulerStepUntil (stepPrologue ctx cycles) cycles.toNat := by
  unfold chipsetRun rigelAgnusStep stepPrologue
  by_cases h : cycles = 0
  · subst h
    rfl
  · simp only [if_neg h]
    rfl

/-- **A step is its events.** -/
theorem rigelStep_eq_events (ctx : RigelContext) (cycles : UInt64) :
    (rigelStep ctx cycles).1 =
      ([BusEvent.stepBegin cycles.toUInt32] ++ List.replicate cycles.toUInt32.toNat BusEvent.clock ++
        [BusEvent.stepEnd ctx.agnus.beam cycles.toUInt32]).foldl busEvent ctx := by
  rw [List.foldl_append, List.foldl_append, List.foldl_cons, List.foldl_nil, List.foldl_cons, List.foldl_nil,
    busEvent_clocks, busEvent, ← chipsetRun_eq_clocks]
  rfl

/-! ## The copper over an event -/

/-- Only the copper's own slot changes the copper, DMACON or the beam. -/
theorem dispatchSlot_agnus {owner : SlotOwner} (h : owner ≠ .copper) (ctx : RigelContext) (hpos : UInt16) :
    (dispatchSlot owner ctx hpos).agnus.copper = ctx.agnus.copper ∧
      (dispatchSlot owner ctx hpos).agnus.dma = ctx.agnus.dma ∧
      (dispatchSlot owner ctx hpos).agnus.beam = ctx.agnus.beam := by
  cases owner with
  | copper => exact absurd rfl h
  | disk => simp only [dispatchSlot, diskSlot, raiseIrqSources_agnus, and_self]
  | blitter => simp only [dispatchSlot, blitterSlot, raiseIrqSources_agnus, and_self]
  | bitplane =>
    simp only [dispatchSlot, bitplaneSlot]
    split <;> exact ⟨rfl, rfl, rfl⟩
  | _ => exact ⟨rfl, rfl, rfl⟩

theorem dispatchSlot_copper {owner : SlotOwner} (h : owner ≠ .copper) (ctx : RigelContext) (hpos : UInt16) :
    (dispatchSlot owner ctx hpos).agnus.copper = ctx.agnus.copper := (dispatchSlot_agnus h ctx hpos).1

theorem dispatchSlot_dma {owner : SlotOwner} (h : owner ≠ .copper) (ctx : RigelContext) (hpos : UInt16) :
    (dispatchSlot owner ctx hpos).agnus.dma = ctx.agnus.dma := (dispatchSlot_agnus h ctx hpos).2.1

theorem dispatchSlot_beam {owner : SlotOwner} (h : owner ≠ .copper) (ctx : RigelContext) (hpos : UInt16) :
    (dispatchSlot owner ctx hpos).agnus.beam = ctx.agnus.beam := (dispatchSlot_agnus h ctx hpos).2.2

theorem schedulerRestoreDsken_copper (ctx : RigelContext) :
    (schedulerRestoreDsken ctx).agnus.copper = ctx.agnus.copper := by
  unfold schedulerRestoreDsken
  split <;> rfl

theorem schedulerPrepare_copper (ctx : RigelContext) :
    (schedulerPrepare ctx).agnus.copper =
      rigelCopperDomainStep ctx.agnus.copper ctx.agnus.beam ctx.agnus.dma (blitterIsBusy ctx.agnus.blitter) := rfl

/-- The vertical blank restarts list 1 at the end of this clock. -/
def vertbRestarts (ctx : RigelContext) : Bool :=
  agnusIsVertbPosition (beamStep ctx.agnus.beam 1).hpos (beamStep ctx.agnus.beam 1).vpos &&
    dmaconCopenOn ctx.agnus.scheduler.dmacon

theorem schedulerAdvance_copper (ctx : RigelContext) :
    (schedulerAdvance ctx).agnus.copper =
      if vertbRestarts ctx then copperVblReload ctx.agnus.copper else ctx.agnus.copper := by
  have hline := lineStarted (schedulerMoveBeam ctx)
  have hc := hline.copper
  have hd := congrArg SlotInputs.dmacon hline.inputs
  simp only [slotInputs] at hd
  have hbeam : (schedulerMoveBeam ctx).agnus.beam = beamStep ctx.agnus.beam 1 := rfl
  unfold schedulerAdvance schedulerAtVertb vertbRestarts
  rw [hline.beam, hbeam]
  by_cases hv : agnusIsVertbPosition (beamStep ctx.agnus.beam 1).hpos (beamStep ctx.agnus.beam 1).vpos = true
  · simp only [hv, if_true, Bool.true_and, schedulerVertb, rigelChipsetRaiseIrqSource, hc, hd]
    rfl
  · simp only [hv, if_false, Bool.false_and, hc, Bool.false_eq_true]
    rfl

/-! ## DMACON over an event -/

theorem schedulerAdvance_dma (ctx : RigelContext) : (schedulerAdvance ctx).agnus.dma = ctx.agnus.dma := by
  unfold schedulerAdvance schedulerAtVertb schedulerAtLineStart
  split
  · split <;> rfl
  · split <;> rfl

theorem schedulerRestoreDsken_dma (ctx : RigelContext) :
    (schedulerRestoreDsken ctx).agnus.dma = ctx.agnus.dma ∨
      (schedulerRestoreDsken ctx).agnus.dma = rigelDmaDomainWriteDmacon ctx.agnus.dma (dmaconSetclr ||| dmaconDsken) := by
  unfold schedulerRestoreDsken
  split
  · exact Or.inr rfl
  · exact Or.inl rfl

/-! ## The register write of a clock -/

/-- The copper's slot executes a MOVE that is not blocked. -/
def copperMoves (ctx : RigelContext) : Bool :=
  !ctx.agnus.copper.stoppedUntilVbl && (ctx.agnus.copper.enabled && ctx.agnus.copper.fetchPending) &&
    chipRamRead16 ctx.ram ctx.agnus.copper.programCounter &&& 0x0001 == 0 &&
    !copperMoveBlocked ctx.agnus.copper.copcon
      (chipRamRead16 ctx.ram ctx.agnus.copper.programCounter &&& 0x01FE).toUInt32

/-- The register write that the copper's slot makes, if its instruction is such a MOVE. -/
def copperServiceWrite (ctx : RigelContext) : Option (UInt32 × UInt16) :=
  if copperMoves ctx then
    some ((chipRamRead16 ctx.ram ctx.agnus.copper.programCounter &&& 0x01FE).toUInt32,
      chipRamRead16 ctx.ram (ctx.agnus.copper.programCounter + 2))
  else none

/-- The register write of a clock: a MOVE, when the slot is the copper's. Nothing else writes registers inside a step. -/
def clockWrite (ctx : RigelContext) : Option (UInt32 × UInt16) :=
  if slotOwner (schedulerPrepare ctx) = .copper then
    copperServiceWrite (schedulerRestoreDsken (schedulerPrepare ctx))
  else none

/-- What holds of the write of a clock holds of what the copper writes in its slot. -/
theorem copperWrite_of_clock {ctx : RigelContext} {ok : UInt32 → UInt16 → Prop}
    (howner : slotOwner (schedulerPrepare ctx) = .copper)
    (hclock : ∀ addr value, clockWrite ctx = some (addr, value) → ok addr value) {addr : UInt32} {value : UInt16}
    (hw : copperServiceWrite (schedulerRestoreDsken (schedulerPrepare ctx)) = some (addr, value)) : ok addr value := by
  apply hclock addr value
  unfold clockWrite
  rw [if_pos howner]
  exact hw

/-- The register writes of the clocks of a step are all allowed. -/
def ClockWritesAllowed (ok : UInt32 → UInt16 → Prop) (ctx : RigelContext) (cycles : UInt64) : Prop :=
  ∀ i < cycles.toUInt32.toNat, ∀ addr value,
    clockWrite (agnusSlotSchedulerStepUntil (stepPrologue ctx cycles.toUInt32) i) = some (addr, value) → ok addr value

/-- The register writes of a call, the CPU's or the copper's, are all allowed. -/
def WritesAllowed (ok : UInt32 → UInt16 → Prop) (ctx : RigelContext) : HostCall → Prop
  | .customWrite addr value => ok addr value
  | .step cycles => ClockWritesAllowed ok ctx cycles
  | .stepUntil target => ctx.cycles < target → ClockWritesAllowed ok ctx (target - ctx.cycles)
  | _ => True

/-- The frame of a MOVE: what the copper was, the flag that the frame was active, and what the copper becomes. -/
def copperWriting (ctx : RigelContext) (c : CopperState) : RigelContext :=
  { setCopper ctx c with denise := { ctx.denise with output := { ctx.denise.output with
      pendingFlags := ctx.denise.output.pendingFlags ||| frameCopperActive } } }

/-- A MOVE that is not blocked writes a register from `$40` on. -/
theorem copperMoveBlocked_le {copcon : UInt16} {reg : UInt32} (h : ¬ copperMoveBlocked copcon reg = true) :
    0x40 ≤ reg := by
  unfold copperMoveBlocked at h
  split at h
  · simpa using h
  · have h80 : (0x80 : UInt32) ≤ reg := by simpa using h
    exact UInt32.le_trans (by decide) h80

/-- **A copper slot is a register write between two changes of the copper, or only a change of the copper.** -/
theorem copperService_write (ctx : RigelContext) :
    (copperServiceWrite ctx = none ∧ ∃ c, rigelCopperServiceStepProgram ctx = setCopper ctx c) ∨
    (∃ reg value c c', copperServiceWrite ctx = some (reg, value) ∧ 0x40 ≤ reg ∧
      rigelCopperServiceStepProgram ctx = setCopper (customRegsWrite16 (copperWriting ctx c) reg value) c') := by
  unfold copperServiceWrite copperMoves rigelCopperServiceStepProgram
  simp only
  by_cases hs : ctx.agnus.copper.stoppedUntilVbl = true
  · rw [if_pos hs]
    exact Or.inl ⟨by simp [hs], ctx.agnus.copper, rfl⟩
  rw [if_neg hs]
  by_cases hg : (!ctx.agnus.copper.enabled || !ctx.agnus.copper.fetchPending) = true
  · rw [if_pos hg]
    refine Or.inl ⟨?_, ctx.agnus.copper, rfl⟩
    rw [← Bool.not_and, Bool.not_eq_true'] at hg
    simp [hg]
  rw [if_neg hg]
  have hon : (ctx.agnus.copper.enabled && ctx.agnus.copper.fetchPending) = true := by
    rw [← Bool.not_and] at hg
    simpa using hg
  rw [Bool.not_eq_true] at hs
  generalize hir : chipRamRead16 ctx.ram ctx.agnus.copper.programCounter = ir1
  unfold copperExecute
  simp only
  by_cases hmove : ir1 &&& 0x0001 = 0
  · rw [if_neg (not_not_intro hmove)]
    unfold copperExecMove
    simp only
    generalize (ir1 &&& 0x01FE).toUInt32 = reg
    by_cases hb : copperMoveBlocked ctx.agnus.copper.copcon reg = true
    · left
      refine ⟨by simp [hb],
        { ctx.agnus.copper with fetchPending := false, waiting := false, stoppedUntilVbl := true }, ?_⟩
      simp only [setCopper, hb, if_true]
      rfl
    · right
      refine ⟨reg, chipRamRead16 ctx.ram (ctx.agnus.copper.programCounter + 2),
        { ctx.agnus.copper with fetchPending := false },
        copperAfterMove ctx.agnus.copper.programCounter
          (customRegsWrite16 (copperWriting ctx { ctx.agnus.copper with fetchPending := false }) reg
            (chipRamRead16 ctx.ram (ctx.agnus.copper.programCounter + 2))).agnus.copper,
        by simp [hs, hon, hmove, hb], copperMoveBlocked_le hb, ?_⟩
      have hb' : ¬ copperMoveBlocked (setCopper ctx
          { ctx.agnus.copper with fetchPending := false }).agnus.copper.copcon reg = true := hb
      rw [if_neg hb']
      rfl
  · rw [if_pos hmove]
    left
    refine ⟨by simp [hmove], ?_⟩
    split
    · exact ⟨_, rfl⟩
    · exact ⟨_, rfl⟩

end Rigel
