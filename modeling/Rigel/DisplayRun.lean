import Rigel.BusRun
import Rigel.Invariant

/-!
# DisplayRun — what the display's registers are made of

The registers of Denise and the two values that Agnus decodes from them for itself change in a register write and in a
reset, and in nothing else: the clocks of a step, its settling and every other call of the host leave them still, but for
the write that a copper MOVE makes. An invariant of the two chips that survives writes holds in every reachable state.
-/

namespace Rigel

/-- The display registers of the two chips have not moved. -/
structure DisplayStill (a a' : RigelAgnus) (d d' : RigelDenise) : Prop where
  vstrt : a'.scheduler.vstrt = a.scheduler.vstrt
  depth : a'.scheduler.depth = a.scheduler.depth
  chipRev : d'.chipRev = d.chipRev
  regs : d'.regs = d.regs
  palette : d'.palette = d.palette
  video : d'.video = d.video

theorem DisplayStill.refl (a : RigelAgnus) (d : RigelDenise) : DisplayStill a a d d := ⟨rfl, rfl, rfl, rfl, rfl, rfl⟩

theorem DisplayStill.trans {a a' a'' : RigelAgnus} {d d' d'' : RigelDenise} (h : DisplayStill a a' d d')
    (h' : DisplayStill a' a'' d' d'') : DisplayStill a a'' d d'' :=
  ⟨h'.vstrt.trans h.vstrt, h'.depth.trans h.depth, h'.chipRev.trans h.chipRev, h'.regs.trans h.regs,
    h'.palette.trans h.palette, h'.video.trans h.video⟩

/-- The two chips of a context and of another one. -/
def SameDisplay (ctx ctx' : RigelContext) : Prop := DisplayStill ctx.agnus ctx'.agnus ctx.denise ctx'.denise

theorem sameDisplay_prepare (ctx : RigelContext) : SameDisplay ctx (schedulerPrepare ctx) := by
  unfold schedulerPrepare schedulerRefreshTable agnusFreshTable SameDisplay
  simp only
  split <;> exact ⟨rfl, rfl, rfl, rfl, rfl, rfl⟩

theorem sameDisplay_restore (ctx : RigelContext) : SameDisplay ctx (schedulerRestoreDsken ctx) := by
  unfold schedulerRestoreDsken
  split
  · exact ⟨rfl, rfl, rfl, rfl, rfl, rfl⟩
  · exact .refl _ _

theorem sameDisplay_dispatch {owner : SlotOwner} (h : owner ≠ .copper) (ctx : RigelContext) (hpos : UInt16) :
    SameDisplay ctx (dispatchSlot owner ctx hpos) := by
  unfold SameDisplay
  cases owner with
  | copper => exact absurd rfl h
  | disk =>
    simp only [dispatchSlot, diskSlot, raiseIrqSources_agnus, raiseIrqSources_denise]
    exact .refl _ _
  | blitter =>
    simp only [dispatchSlot, blitterSlot, raiseIrqSources_agnus, raiseIrqSources_denise]
    exact ⟨rfl, rfl, rfl, rfl, rfl, rfl⟩
  | bitplane =>
    simp only [dispatchSlot, bitplaneSlot]
    split
    · simp only [bitplaneFetch, bitplaneLatchLine]
      split <;> exact ⟨rfl, rfl, rfl, rfl, rfl, rfl⟩
    · exact .refl _ _
  | _ => exact ⟨rfl, rfl, rfl, rfl, rfl, rfl⟩

theorem sameDisplay_advance (ctx : RigelContext) : SameDisplay ctx (schedulerAdvance ctx) := by
  unfold schedulerAdvance schedulerAtVertb schedulerAtLineStart SameDisplay
  repeat' split
  all_goals exact ⟨rfl, rfl, rfl, rfl, rfl, rfl⟩

/-! ## Invariants -/

/-- A property of the display registers that survives a register write. -/
structure DisplayKept (P : RigelAgnus → RigelDenise → Prop) : Prop where
  write : ∀ {a d} addr value, P a d → P (agnusAfterWrite a addr value) (deniseAfterWrite a d addr value)
  still : ∀ {a a' d d'}, P a d → DisplayStill a a' d d' → P a' d'

/-- A property of the display registers that survives a reset and a register write. -/
structure DisplayInvariant (P : RigelAgnus → RigelDenise → Prop) : Prop where
  reset : ∀ ctx, P (rigelReset ctx).agnus (rigelReset ctx).denise
  write : ∀ {a d} addr value, P a d → P (agnusAfterWrite a addr value) (deniseAfterWrite a d addr value)
  still : ∀ {a a' d d'}, P a d → DisplayStill a a' d d' → P a' d'

section
variable {P : RigelAgnus → RigelDenise → Prop} (kept : DisplayKept P)
include kept

theorem DisplayKept.same {ctx ctx' : RigelContext} (h : P ctx.agnus ctx.denise) (hs : SameDisplay ctx ctx') :
    P ctx'.agnus ctx'.denise := kept.still h hs

theorem DisplayKept.customWrite {ctx : RigelContext} (h : P ctx.agnus ctx.denise) (addr : UInt32) (value : UInt16) :
    P (customRegsWrite16 ctx addr value).agnus (customRegsWrite16 ctx addr value).denise := by
  rw [customRegsWrite16_agnus, customRegsWrite16_denise]
  exact kept.write addr value h

/-- The copper's slot: a register write, between two changes of the copper alone. -/
theorem DisplayKept.copper {ctx : RigelContext} (h : P ctx.agnus ctx.denise) :
    P (rigelCopperServiceStepProgram ctx).agnus (rigelCopperServiceStepProgram ctx).denise := by
  rcases copperService_write ctx with ⟨-, c, hc⟩ | ⟨reg, value, c, c', -, -, hc⟩
  · rw [hc]
    exact kept.same h ⟨rfl, rfl, rfl, rfl, rfl, rfl⟩
  · rw [hc]
    have hwriting : SameDisplay ctx (copperWriting ctx c) := ⟨rfl, rfl, rfl, rfl, rfl, rfl⟩
    have hwritten := kept.customWrite (kept.same h hwriting) reg value
    have hafter : SameDisplay (customRegsWrite16 (copperWriting ctx c) reg value)
        (setCopper (customRegsWrite16 (copperWriting ctx c) reg value) c') := ⟨rfl, rfl, rfl, rfl, rfl, rfl⟩
    exact kept.same hwritten hafter

theorem DisplayKept.dispatch {ctx : RigelContext} (h : P ctx.agnus ctx.denise) :
    P (schedulerDispatch (schedulerPrepare ctx)).agnus (schedulerDispatch (schedulerPrepare ctx)).denise := by
  have hready : P (schedulerRestoreDsken (schedulerPrepare ctx)).agnus (schedulerRestoreDsken (schedulerPrepare ctx)).denise :=
    kept.same (kept.same h (sameDisplay_prepare ctx)) (sameDisplay_restore _)
  unfold schedulerDispatch
  by_cases ho : slotOwner (schedulerPrepare ctx) = .copper
  · rw [ho]
    exact kept.copper hready
  · exact kept.same hready (sameDisplay_dispatch ho _ _)

/-- **One colour clock.** -/
theorem DisplayKept.clock {ctx : RigelContext} (h : P ctx.agnus ctx.denise) :
    P (agnusSlotSchedulerStep ctx).agnus (agnusSlotSchedulerStep ctx).denise :=
  kept.same (kept.dispatch h) (sameDisplay_advance _)

theorem DisplayKept.clocks {ctx : RigelContext} (h : P ctx.agnus ctx.denise) (n : Nat) :
    P (agnusSlotSchedulerStepUntil ctx n).agnus (agnusSlotSchedulerStepUntil ctx n).denise := by
  induction n generalizing ctx with
  | zero => exact h
  | succ n ih => exact ih (kept.clock h)

theorem DisplayKept.prologue {ctx : RigelContext} (h : P ctx.agnus ctx.denise) (cycles : UInt32) :
    P (stepPrologue ctx cycles).agnus (stepPrologue ctx cycles).denise := by
  refine kept.same h ?_
  unfold stepPrologue SameDisplay
  simp only
  split <;> exact ⟨rfl, rfl, rfl, rfl, rfl, rfl⟩

theorem DisplayKept.step {ctx : RigelContext} (h : P ctx.agnus ctx.denise) (cycles : UInt64) :
    P (rigelStep ctx cycles).1.agnus (rigelStep ctx cycles).1.denise := by
  have hclocks := kept.clocks (kept.prologue h cycles.toUInt32) cycles.toUInt32.toNat
  rw [← chipsetRun_eq_clocks] at hclocks
  obtain ⟨ha, hd, -, -⟩ :=
    chipsetSettle_frame ctx.agnus.beam (chipsetRun (clearEventLatch ctx) cycles.toUInt32) cycles.toUInt32
  have hsettled : SameDisplay (chipsetRun (clearEventLatch ctx) cycles.toUInt32) (rigelStep ctx cycles).1 := by
    have hsettle : SameDisplay (chipsetRun (clearEventLatch ctx) cycles.toUInt32)
        (chipsetSettle ctx.agnus.beam (chipsetRun (clearEventLatch ctx) cycles.toUInt32) cycles.toUInt32) := by
      unfold SameDisplay
      rw [ha, hd]
      exact .refl _ _
    exact hsettle.trans ⟨rfl, rfl, rfl, rfl, rfl, rfl⟩
  exact kept.same hclocks hsettled

/-- **Every call of the host** but a reset. -/
theorem DisplayKept.hostCall {ctx : RigelContext} (h : P ctx.agnus ctx.denise) {c : HostCall} (hc : c ≠ .reset) :
    P (hostCall ctx c).agnus (hostCall ctx c).denise := by
  cases c with
  | reset => exact absurd rfl hc
  | step cycles => exact kept.step h cycles
  | stepUntil target =>
    simp only [Rigel.hostCall, rigelStepUntil]
    split
    · exact h
    · exact kept.step h _
  | customRead addr =>
    simp only [Rigel.hostCall, customRegsRead16, paulaReadReg]
    repeat' split
    all_goals exact h
  | customWrite addr value => exact kept.customWrite h addr value
  | ciaRead id reg => cases id <;> exact h
  | ciaWrite id reg value =>
    cases id with
    | portA => exact h
    | portB =>
      simp only [Rigel.hostCall, rigelCiaWrite]
      split <;> exact h
  | setCycleExact on => exact kept.same h ⟨rfl, rfl, rfl, rfl, rfl, rfl⟩
  | setFire port pressed =>
    simp only [Rigel.hostCall, rigelInputSetFire]
    split <;> exact h
  | floppyInsert drive data size =>
    simp only [Rigel.hostCall, rigelFloppyInsert]
    split <;> exact h
  | floppyEject drive =>
    simp only [Rigel.hostCall, rigelFloppyEject]
    split <;> exact h
  | serialReceive byte =>
    simp only [Rigel.hostCall, rigelSerialReceiveByte, raiseIrqSources_agnus, raiseIrqSources_denise]
    exact h
  | _ => exact h

end

theorem DisplayInvariant.kept {P : RigelAgnus → RigelDenise → Prop} (inv : DisplayInvariant P) : DisplayKept P :=
  ⟨inv.write, inv.still⟩

theorem DisplayInvariant.reachable {P : RigelAgnus → RigelDenise → Prop} (inv : DisplayInvariant P) {ctx : RigelContext}
    (h : Reachable ctx) : P ctx.agnus ctx.denise := by
  induction h with
  | create config ram => exact inv.reset _
  | @call ctx _ c ih =>
    by_cases hc : c = .reset
    · subst hc
      exact inv.reset ctx
    · exact inv.kept.hostCall ih hc

end Rigel
