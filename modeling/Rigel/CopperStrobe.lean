import Rigel.BusRun
import Rigel.Reach

/-!
# CopperStrobe — what COPJMP1 and COPJMP2 restart

A strobe is issued by a CPU write or by a copper MOVE. From there the machine may run any number of bus events, clocks
whose slot is not the copper's and register writes among them, until the copper is granted a slot. Two things decide
whether that slot fetches from COPxLC: a strobe does not take back `stopped_until_vbl`, and a MOVE tells a jump from
straight-line execution by the program counter alone.
-/

namespace Rigel

inductive CopperStrobe where
  | copjmp1
  | copjmp2
  deriving Repr, DecidableEq

def CopperStrobe.reg : CopperStrobe → UInt32
  | .copjmp1 => 0x088
  | .copjmp2 => 0x08A

/-- The list that a strobe restarts. -/
def CopperStrobe.target (s : CopperStrobe) (c : CopperState) : UInt32 :=
  match s with
  | .copjmp1 => c.cop1lc
  | .copjmp2 => c.cop2lc

/-! ## The copper's slot -/

/-- The address that a copper slot fetches from; a copper that is stopped, off or without a pending fetch fetches
nothing. -/
def copperServiceFetch (c : CopperState) : Option UInt32 :=
  if c.stoppedUntilVbl || !c.enabled || !c.fetchPending then none else some c.programCounter

/-- This clock's slot is the copper's, with copper DMA on. -/
def CopperSlot (ctx : RigelContext) : Prop :=
  slotOwner (schedulerPrepare ctx) = .copper ∧ dmaconCopenOn ctx.agnus.dma.dmacon = true

/-- What the copper fetches from in this clock's slot. -/
def copperFetchAddr (ctx : RigelContext) : Option UInt32 := copperServiceFetch (schedulerPrepare ctx).agnus.copper

/-- The context in which a fetched instruction is executed. -/
def copperFetched (ctx : RigelContext) : RigelContext :=
  let ready := schedulerRestoreDsken (schedulerPrepare ctx)
  setCopper ready { ready.agnus.copper with fetchPending := false }

theorem copperService_of_fetch {ctx : RigelContext} {pc : UInt32} (h : copperServiceFetch ctx.agnus.copper = some pc) :
    rigelCopperServiceStepProgram ctx =
      copperExecute (setCopper ctx { ctx.agnus.copper with fetchPending := false })
        (chipRamRead16 ctx.ram pc) (chipRamRead16 ctx.ram (pc + 2)) := by
  unfold copperServiceFetch at h
  split at h
  · cases h
  · rename_i hrun
    cases h
    simp only [Bool.or_eq_true, not_or, Bool.not_eq_true] at hrun
    simp only [rigelCopperServiceStepProgram, hrun.1.1, hrun.1.2, hrun.2, Bool.or_self, Bool.false_eq_true, if_false]

/-- **A copper slot that fetches executes what it fetched**, and the clock then ends as any clock does. -/
theorem copperSlot_executes {ctx : RigelContext} {pc : UInt32} (hslot : CopperSlot ctx)
    (hfetch : copperFetchAddr ctx = some pc) :
    agnusSlotSchedulerStep ctx =
      schedulerAdvance (copperExecute (copperFetched ctx) (chipRamRead16 ctx.ram pc) (chipRamRead16 ctx.ram (pc + 2))) := by
  have hready : copperServiceFetch (schedulerRestoreDsken (schedulerPrepare ctx)).agnus.copper = some pc := by
    rw [schedulerRestoreDsken_copper]
    exact hfetch
  unfold agnusSlotSchedulerStep schedulerDispatch
  rw [hslot.1]
  simp only [dispatchSlot]
  rw [copperService_of_fetch hready, (slotReady ctx).ram]
  rfl

/-! ## A restarted copper -/

/-- The copper is about to fetch from `pc`, unless `stopped` holds it back. -/
structure CopperAt (pc : UInt32) (stopped : Bool) (c : CopperState) : Prop where
  programCounter : c.programCounter = pc
  waiting : c.waiting = false
  fetchPending : c.fetchPending = true
  stoppedUntilVbl : c.stoppedUntilVbl = stopped

variable {pc : UInt32} {stopped : Bool}

theorem CopperAt.domainStep {c : CopperState} (h : CopperAt pc stopped c) (beam : BeamState) (dma : DmaState)
    (busy : Bool) : CopperAt pc stopped (rigelCopperDomainStep c beam dma busy) := by
  have hrel : copperReleases c beam dma busy = false := by simp [copperReleases, h.waiting]
  simp only [rigelCopperDomainStep, hrel]
  exact ⟨h.programCounter, by simp [h.waiting], by simp [h.fetchPending], h.stoppedUntilVbl⟩

/-- With copper DMA on, the slot fetches from `pc` exactly when the copper is not stopped. -/
theorem CopperAt.fetch {ctx : RigelContext} (h : CopperAt pc stopped ctx.agnus.copper)
    (hon : dmaconCopenOn ctx.agnus.dma.dmacon = true) :
    copperFetchAddr ctx = if stopped then none else some pc := by
  have hp := h.domainStep ctx.agnus.beam ctx.agnus.dma (blitterIsBusy ctx.agnus.blitter)
  have hen : (rigelCopperDomainStep ctx.agnus.copper ctx.agnus.beam ctx.agnus.dma
      (blitterIsBusy ctx.agnus.blitter)).enabled = true := hon
  unfold copperFetchAddr copperServiceFetch
  rw [schedulerPrepare_copper, hp.stoppedUntilVbl, hp.fetchPending, hp.programCounter, hen]
  cases stopped <;> rfl

/-- A register write other than a strobe moves no copper. -/
theorem CopperAt.write {a : RigelAgnus} (h : CopperAt pc stopped a.copper) {addr : UInt32} (h1 : addr ≠ 0x088)
    (h2 : addr ≠ 0x08A) (value : UInt16) : CopperAt pc stopped (agnusAfterWrite a addr value).copper := by
  rw [agnusAfterWrite_copper]
  unfold copperWriteReg
  split
  all_goals first
    | contradiction
    | exact ⟨h.programCounter, h.waiting, h.fetchPending, h.stoppedUntilVbl⟩

/-- The event is not a copper slot, no vertical-blank restart and no further strobe. -/
def LeavesCopper (ctx : RigelContext) : BusEvent → Prop
  | .clock =>
    slotOwner (schedulerPrepare ctx) ≠ .copper ∧ vertbRestarts (schedulerDispatch (schedulerPrepare ctx)) = false
  | .write addr _ => addr ≠ 0x088 ∧ addr ≠ 0x08A
  | _ => True

theorem CopperAt.clock {ctx : RigelContext} (h : CopperAt pc stopped ctx.agnus.copper)
    (hslot : slotOwner (schedulerPrepare ctx) ≠ .copper)
    (hv : vertbRestarts (schedulerDispatch (schedulerPrepare ctx)) = false) :
    CopperAt pc stopped (agnusSlotSchedulerStep ctx).agnus.copper := by
  unfold agnusSlotSchedulerStep
  rw [schedulerAdvance_copper, hv]
  unfold schedulerDispatch
  rw [dispatchSlot_copper hslot, schedulerRestoreDsken_copper]
  exact h.domainStep _ _ _

theorem CopperAt.event (ctx : RigelContext) (e : BusEvent) (h : CopperAt pc stopped ctx.agnus.copper)
    (he : LeavesCopper ctx e) : CopperAt pc stopped (busEvent ctx e).agnus.copper := by
  cases e with
  | clock => exact h.clock he.1 he.2
  | write addr value =>
    rw [busEvent, customRegsWrite16_agnus]
    exact h.write he.1 he.2 value
  | stepBegin cycles =>
    have hc : ∀ c : CopperState, c = { ctx.agnus.copper with eventLatched := false } → CopperAt pc stopped c := by
      rintro c rfl
      exact ⟨h.programCounter, h.waiting, h.fetchPending, h.stoppedUntilVbl⟩
    refine hc _ ?_
    unfold busEvent stepPrologue
    simp only
    split <;> rfl
  | stepEnd before cycles =>
    have hs := (chipsetSettle_frame before ctx cycles).1
    show CopperAt pc stopped (chipsetSettle before ctx cycles).agnus.copper
    rw [hs]
    exact h

/-! ## The two ways to strobe -/

theorem agnusAfterWrite_strobe (s : CopperStrobe) (a : RigelAgnus) (value : UInt16) :
    agnusAfterWrite a s.reg value = { a with copper := copperJump a.copper (s.target a.copper) } := by
  cases s <;> rfl

theorem copperAt_cpuStrobe (s : CopperStrobe) (ctx : RigelContext) (value : UInt16) :
    CopperAt (s.target ctx.agnus.copper) ctx.agnus.copper.stoppedUntilVbl
      (customRegsWrite16 ctx s.reg value).agnus.copper := by
  rw [customRegsWrite16_agnus, agnusAfterWrite_strobe]
  exact ⟨rfl, rfl, rfl, rfl⟩

theorem copperMoveBlocked_strobe (copcon : UInt16) (s : CopperStrobe) : copperMoveBlocked copcon s.reg = false := by
  unfold copperMoveBlocked
  cases s <;> split <;> decide

/-- A MOVE to a strobe, as the copper is left by it. -/
theorem copperExecute_strobe (s : CopperStrobe) (ctx : RigelContext) {ir1 : UInt16} (hmove : ir1 &&& 0x0001 = 0)
    (hreg : (ir1 &&& 0x01FE).toUInt32 = s.reg) (ir2 : UInt16) :
    (copperExecute ctx ir1 ir2).agnus.copper =
      copperAfterMove ctx.agnus.copper.programCounter (copperJump ctx.agnus.copper (s.target ctx.agnus.copper)) := by
  unfold copperExecute
  simp only [hmove, ne_eq, not_true_eq_false, if_false, setCopper]
  rw [copperExecMove_agnus, hreg, copperMoveBlocked_strobe]
  simp only [Bool.false_eq_true, if_false, agnusAfterWrite_strobe]

theorem copperServiceFetch_some {c : CopperState} {pc : UInt32} (h : copperServiceFetch c = some pc) :
    c.stoppedUntilVbl = false ∧ c.programCounter = pc := by
  unfold copperServiceFetch at h
  split at h
  · cases h
  · rename_i hrun
    cases h
    simp only [Bool.or_eq_true, not_or, Bool.not_eq_true] at hrun
    exact ⟨hrun.1.1, rfl⟩

/-- The clock in which the copper executes a MOVE to a strobe. -/
structure MovesStrobe (s : CopperStrobe) (ctx : RigelContext) (pc : UInt32) : Prop where
  slot : CopperSlot ctx
  fetch : copperFetchAddr ctx = some pc
  move : chipRamRead16 ctx.ram pc &&& 0x0001 = 0
  reg : (chipRamRead16 ctx.ram pc &&& 0x01FE).toUInt32 = s.reg
  noVertb : vertbRestarts (copperExecute (copperFetched ctx) (chipRamRead16 ctx.ram pc)
    (chipRamRead16 ctx.ram (pc + 2))) = false

/-- A jump to the MOVE's own address is taken for straight-line execution. -/
theorem copperAt_jump {c : CopperState} (h : c.stoppedUntilVbl = false) (pc target : UInt32) :
    CopperAt (if target = pc then pc + 4 else target) false (copperAfterMove pc (copperJump c target)) := by
  have hstop : ¬ (copperJump c target).stoppedUntilVbl = true := by
    rw [show (copperJump c target).stoppedUntilVbl = false from h]
    exact Bool.false_ne_true
  unfold copperAfterMove
  rw [if_neg hstop]
  refine ⟨?_, rfl, rfl, h⟩
  show (if target = pc then target + 4 else target) = if target = pc then pc + 4 else target
  by_cases e : target = pc
  · rw [if_pos e, if_pos e, e]
  · rw [if_neg e, if_neg e]

theorem copperAt_moveStrobe {s : CopperStrobe} {ctx : RigelContext} {pc : UInt32} (h : MovesStrobe s ctx pc) :
    CopperAt (if s.target ctx.agnus.copper = pc then pc + 4 else s.target ctx.agnus.copper) false
      (agnusSlotSchedulerStep ctx).agnus.copper := by
  obtain ⟨hstop, hpc⟩ := copperServiceFetch_some h.fetch
  have hcop : (copperFetched ctx).agnus.copper =
      { (schedulerPrepare ctx).agnus.copper with fetchPending := false } := by
    simp only [copperFetched, setCopper, schedulerRestoreDsken_copper]
  have htarget : s.target (copperFetched ctx).agnus.copper = s.target ctx.agnus.copper := by
    rw [hcop]
    cases s <;> rfl
  have hpc' : (copperFetched ctx).agnus.copper.programCounter = pc := by
    rw [hcop]
    exact hpc
  have hstop' : (copperFetched ctx).agnus.copper.stoppedUntilVbl = false := by
    rw [hcop]
    exact hstop
  rw [copperSlot_executes h.slot h.fetch, schedulerAdvance_copper, h.noVertb, copperExecute_strobe s _ h.move h.reg,
    htarget, hpc']
  exact copperAt_jump hstop' pc _

/-- The next copper slot of a restarted copper, after any events that leave the copper alone. -/
theorem CopperAt.next_slot {ctx : RigelContext} (h : CopperAt pc stopped ctx.agnus.copper) {events : List BusEvent}
    (hrun : AlongRun busEvent LeavesCopper ctx events)
    (hslot : CopperSlot (events.foldl busEvent ctx)) :
    copperFetchAddr (events.foldl busEvent ctx) = if stopped then none else some pc :=
  (AlongRun.invariant (fun c : RigelContext => CopperAt pc stopped c.agnus.copper)
    (fun c e hc he => hc.event c e he) events ctx h hrun).fetch hslot.2

/-- The copper slot fetches from `addr` and execution goes on there. -/
def RestartsAt (ctx : RigelContext) (addr : UInt32) : Prop :=
  copperFetchAddr ctx = some addr ∧
    agnusSlotSchedulerStep ctx = schedulerAdvance
      (copperExecute (copperFetched ctx) (chipRamRead16 ctx.ram addr) (chipRamRead16 ctx.ram (addr + 2)))

theorem restartsAt_iff_fetch {ctx : RigelContext} (hslot : CopperSlot ctx) (addr : UInt32) :
    RestartsAt ctx addr ↔ copperFetchAddr ctx = some addr :=
  ⟨fun h => h.1, fun h => ⟨h, copperSlot_executes hslot h⟩⟩

/-- **The COPJMP strobes.** The next copper slot after a strobe fetches from COPxLC and goes on there exactly when, for
a CPU write, the copper was not stopped until the vertical blank, and, for a copper MOVE, the MOVE itself is not the
first instruction of the list. -/
theorem copperStrobe_restarts_iff (s : CopperStrobe) (ctx : RigelContext) (events : List BusEvent) :
    (∀ value : UInt16, AlongRun busEvent LeavesCopper (customRegsWrite16 ctx s.reg value) events →
      CopperSlot (events.foldl busEvent (customRegsWrite16 ctx s.reg value)) →
      (RestartsAt (events.foldl busEvent (customRegsWrite16 ctx s.reg value)) (s.target ctx.agnus.copper) ↔
        ctx.agnus.copper.stoppedUntilVbl = false)) ∧
    (∀ pc : UInt32, MovesStrobe s ctx pc → AlongRun busEvent LeavesCopper (agnusSlotSchedulerStep ctx) events →
      CopperSlot (events.foldl busEvent (agnusSlotSchedulerStep ctx)) →
      (RestartsAt (events.foldl busEvent (agnusSlotSchedulerStep ctx)) (s.target ctx.agnus.copper) ↔
        pc ≠ s.target ctx.agnus.copper)) := by
  constructor
  · intro value hrun hslot
    have hfetch := (copperAt_cpuStrobe s ctx value).next_slot hrun hslot
    rw [restartsAt_iff_fetch hslot, hfetch]
    cases ctx.agnus.copper.stoppedUntilVbl <;> simp
  · intro pc hmove hrun hslot
    have hfetch := (copperAt_moveStrobe hmove).next_slot hrun hslot
    rw [restartsAt_iff_fetch hslot, hfetch]
    simp only [Bool.false_eq_true, if_false, Option.some.injEq]
    by_cases he : s.target ctx.agnus.copper = pc
    · -- the jump target is the MOVE's own address, so the counter goes on to the next instruction
      rw [if_pos he, he]
      simp
    · rw [if_neg he]
      simpa using fun e => he e.symm

/-- A machine with copper DMA on and one instruction at `$1000`, where list 1 is; list 2 is at `$2000`. -/
def copperListMachine (ir1 ir2 : UInt16) : RigelContext :=
  ([.customWrite 0x080 0, .customWrite 0x082 0x1000, .customWrite 0x084 0, .customWrite 0x086 0x2000,
    .customWrite 0x096 0x8280] : List HostCall).foldl hostCall
    (rigelCreate ⟨.pal, false, false, true, true⟩
      ⟨.ocs, 0x80000, true, true, fun addr => if addr = 0x1000 then ir1 else if addr = 0x1002 then ir2 else 0⟩)

theorem copperListMachine_reachable (ir1 ir2 : UInt16) : Reachable (copperListMachine ir1 ir2) :=
  Reachable.calls (.create _ _) _

/-- A running copper restarts on the CPU's COPJMP1, and on a MOVE to COPJMP2 from list 1 two clocks later. -/
theorem copperStrobe_restarts_running :
    RestartsAt (customRegsWrite16 (copperListMachine 0x008A 0) 0x088 0) 0x1000 ∧
      RestartsAt (agnusSlotSchedulerStepUntil (customRegsWrite16 (copperListMachine 0x008A 0) 0x088 0) 4) 0x2000 := by
  constructor
  · have h := (copperStrobe_restarts_iff .copjmp1 (copperListMachine 0x008A 0) []).1 0 trivial
      ⟨by decide +kernel, by decide +kernel⟩
    exact h.mpr (by decide +kernel)
  · have h := (copperStrobe_restarts_iff .copjmp2
      (agnusSlotSchedulerStepUntil (customRegsWrite16 (copperListMachine 0x008A 0) 0x088 0) 2) [.clock]).2 0x1000
      ⟨⟨by decide +kernel, by decide +kernel⟩, by decide +kernel, by decide +kernel, by decide +kernel, by decide +kernel⟩
      ⟨⟨by decide +kernel, by decide +kernel⟩, trivial⟩ ⟨by decide +kernel, by decide +kernel⟩
    have htarget : CopperStrobe.copjmp2.target (agnusSlotSchedulerStepUntil
        (customRegsWrite16 (copperListMachine 0x008A 0) 0x088 0) 2).agnus.copper = 0x2000 := by decide +kernel
    rw [htarget] at h
    exact h.mpr (by decide +kernel)

/-- The end marker `WAIT $FFFF,$FFFE` stops the copper, and the CPU's COPJMP1 does not start it again: the next copper
slot fetches nothing. A `MOVE COPJMP1` that stands first in list 1 is followed by `$1004`, not by list 1. -/
theorem copperStrobe_lost :
    Reachable (hostCall (hostCall (copperListMachine 0xFFFF 0xFFFE) (.customWrite 0x088 0)) (.step 8)) ∧
      CopperSlot (customRegsWrite16
        (hostCall (hostCall (copperListMachine 0xFFFF 0xFFFE) (.customWrite 0x088 0)) (.step 8)) 0x088 0) ∧
      ¬ RestartsAt (customRegsWrite16
        (hostCall (hostCall (copperListMachine 0xFFFF 0xFFFE) (.customWrite 0x088 0)) (.step 8)) 0x088 0) 0x1000 ∧
      MovesStrobe .copjmp1
        (agnusSlotSchedulerStepUntil (customRegsWrite16 (copperListMachine 0x0088 0) 0x088 0) 2) 0x1000 ∧
      copperFetchAddr (agnusSlotSchedulerStepUntil (customRegsWrite16 (copperListMachine 0x0088 0) 0x088 0) 4) =
        some 0x1004 := by
  refine ⟨((copperListMachine_reachable _ _).call _).call _, ⟨by decide +kernel, by decide +kernel⟩, ?_, ?_,
    by decide +kernel⟩
  · rintro ⟨h, -⟩
    exact absurd h (by decide +kernel)
  · exact ⟨⟨by decide +kernel, by decide +kernel⟩, by decide +kernel, by decide +kernel, by decide +kernel,
      by decide +kernel⟩

end Rigel
