import Rigel.Invariant

/-!
# SlotCoherence — the cached slot table is never stale

The scheduler rebuilds its table only when it knows that an input changed. Here the reachable states are those between
any two colour clocks, not only those between two calls of the host: `BusReachable` adds the single scheduler step, and
with it every state in which a CPU or copper write can land.
-/

namespace Rigel

/-- The states reached by calls of the host and single scheduler steps, in any order. -/
inductive BusReachable : RigelContext → Prop
  | create (config : RigelConfig) (ram : ChipRam) : BusReachable (rigelCreate config ram)
  | call {ctx : RigelContext} (h : BusReachable ctx) (c : HostCall) : BusReachable (hostCall ctx c)
  | schedulerStep {ctx : RigelContext} (h : BusReachable ctx) : BusReachable (agnusSlotSchedulerStep ctx)

theorem AgnusInvariant.busReachable {P : RigelAgnus → Prop} (inv : AgnusInvariant P) {ctx : RigelContext}
    (h : BusReachable ctx) : P ctx.agnus := by
  induction h with
  | create config ram => exact inv.reset _
  | call _ c ih => exact inv.hostCall ih c
  | schedulerStep _ ih => exact inv.clock ih

theorem BusReachable.agnusOk {ctx : RigelContext} (h : BusReachable ctx) : AgnusOk ctx.agnus :=
  agnusOk_invariant.busReachable h

/-- The tables of a rebuild made at this clock, with the live DMACON. -/
def freshTables (a : RigelAgnus) : SlotTables :=
  buildSlotTables { slotInputs a.scheduler with dmacon := a.dma.dmacon } a.beam.vpos a.refresh

/-- The slot of a position: the source guards the table's end with slot 0. -/
def slotOf (hpos : UInt16) : Nat := if hpos.toNat < agnusSlotsPerLine then hpos.toNat else 0

theorem schedulerPrepare_inputs (ctx : RigelContext) :
    slotInputs (schedulerPrepare ctx).agnus.scheduler =
        { slotInputs ctx.agnus.scheduler with dmacon := ctx.agnus.dma.dmacon } ∧
      (schedulerPrepare ctx).agnus.scheduler.hpos = ctx.agnus.beam.hpos := by
  simp only [schedulerPrepare, schedulerRefreshTable, agnusFreshTable]
  split <;> exact ⟨rfl, rfl⟩

/-- The restored DSKEN changes DMACON, not the index that this clock's fetch reads. -/
theorem schedulerRestoreDsken_index (ctx : RigelContext) :
    (schedulerRestoreDsken ctx).agnus.scheduler.bitplaneSlotIndex = ctx.agnus.scheduler.bitplaneSlotIndex := by
  unfold schedulerRestoreDsken
  split <;> rfl

/-- The table's owner that a clock consults is that of a table built at this clock. -/
theorem staticOwner_fresh {ctx : RigelContext} (h : AgnusOk ctx.agnus) :
    staticOwner (schedulerPrepare ctx).agnus.scheduler = (freshTables ctx.agnus).owner (slotOf ctx.agnus.beam.hpos) := by
  obtain ⟨⟨htable, -⟩, -, -⟩ := schedulerPrepare_fresh ctx h
  obtain ⟨hin, hpos⟩ := schedulerPrepare_inputs ctx
  rw [hin] at htable
  unfold staticOwner
  rw [htable, hpos]
  rfl

/-- **Slot-table cache coherence.** Between any two clocks the cache is dirty, or DMACON differs from its cached copy,
or the cached table and index are a rebuild's; and the owner and the index that the next clock consults, before its
overrides, are those of a table built at that clock. -/
theorem slotTable_coherent {ctx : RigelContext} (h : BusReachable ctx) :
    (ctx.agnus.scheduler.tableDirty = true ∨ ctx.agnus.dma.dmacon ≠ ctx.agnus.scheduler.dmacon ∨
      (ctx.agnus.scheduler.table =
          (agnusSlotSchedulerRebuild ctx.agnus.scheduler ctx.agnus.beam.vpos ctx.agnus.refresh).table ∧
        ctx.agnus.scheduler.bitplaneSlotIndex =
          (agnusSlotSchedulerRebuild ctx.agnus.scheduler ctx.agnus.beam.vpos ctx.agnus.refresh).bitplaneSlotIndex)) ∧
      staticOwner (schedulerPrepare ctx).agnus.scheduler =
        (freshTables ctx.agnus).owner (slotOf ctx.agnus.beam.hpos) ∧
      (schedulerRestoreDsken (schedulerPrepare ctx)).agnus.scheduler.bitplaneSlotIndex =
        (freshTables ctx.agnus).index := by
  have hok := h.agnusOk
  obtain ⟨⟨-, hindex⟩, -, -⟩ := schedulerPrepare_fresh ctx hok
  rw [(schedulerPrepare_inputs ctx).1] at hindex
  refine ⟨hok.coherent, staticOwner_fresh hok, ?_⟩
  rw [schedulerRestoreDsken_index, hindex]
  rfl

/-- A machine that has been given its DMA channels, four planes and a data-fetch start in the middle of a line. -/
def midLine : RigelContext :=
  ([.step 18, .customWrite 0x096 0x83E0, .customWrite 0x100 0x4200, .customWrite 0x092 0x0038] : List HostCall).foldl hostCall
    palMachine

/-- Right after the writes the cache is dirty; three clocks later it is a rebuild's, and the slot is that of sprite 0. -/
theorem slotTable_coherent_mid_line :
    midLine.agnus.scheduler.tableDirty = true ∧
      staticOwner (schedulerPrepare midLine).agnus.scheduler = (freshTables midLine.agnus).owner 18 ∧
      (agnusSlotSchedulerStepUntil midLine 3).agnus.scheduler.tableDirty = false ∧
      staticOwner (schedulerPrepare (agnusSlotSchedulerStepUntil midLine 3)).agnus.scheduler =
        (freshTables (agnusSlotSchedulerStepUntil midLine 3).agnus).owner 21 ∧
      (freshTables (agnusSlotSchedulerStepUntil midLine 3).agnus).owner 21 = .sprite 0 := by
  have hr : BusReachable midLine :=
    .call (.call (.call (.call (.create _ _) (.step 18)) (.customWrite 0x096 0x83E0)) (.customWrite 0x100 0x4200))
      (.customWrite 0x092 0x0038)
  have hlater : BusReachable (agnusSlotSchedulerStepUntil midLine 3) := hr.schedulerStep.schedulerStep.schedulerStep
  have hs : slotOf midLine.agnus.beam.hpos = 18 := by decide +kernel
  have hslater : slotOf (agnusSlotSchedulerStepUntil midLine 3).agnus.beam.hpos = 21 := by decide +kernel
  exact ⟨by decide +kernel, hs ▸ (slotTable_coherent hr).2.1, by decide +kernel, hslater ▸ (slotTable_coherent hlater).2.1,
    by decide +kernel⟩

end Rigel
