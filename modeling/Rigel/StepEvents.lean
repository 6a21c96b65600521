import Rigel.BlitBalance
import Rigel.StepLedger

/-!
# StepEvents — one large step against two small ones

`rigel_step` reports what changed between the context it was given and the one it leaves, and the copper's latch. Two
steps of `a` and `b` clocks and one of `a + b` pass the same clocks (`BusSame`), so their reports can be compared sample
by sample: lines and frames are never lost; a signal that went and came back is; so is a latched copper event when the
vertical blank restarts the copper. What went and came back is counted on the clocks (`SignalsStay`): the entries and exits of
the vertical blank, the blits that start and end, the clocks that latch and that restart; the level follows the ledgers of the
steps.
-/

namespace Rigel

/-! ## The copper's latch over the clocks -/

theorem agnusAfterWrite_stopped (a : RigelAgnus) (addr : UInt32) (value : UInt16) :
    (agnusAfterWrite a addr value).copper.stoppedUntilVbl = a.copper.stoppedUntilVbl := by
  rw [agnusAfterWrite_copper, copperWriteReg_stopped]

theorem copperMove_latch {ctx : RigelContext} (hstop : ctx.agnus.copper.stoppedUntilVbl = false) (pc : UInt32)
    (ir1 ir2 : UInt16) :
    (copperAfterMove pc (copperExecMove ctx ir1 ir2).agnus.copper).eventLatched =
      (ctx.agnus.copper.eventLatched || !copperMoveBlocked ctx.agnus.copper.copcon (ir1 &&& 0x01FE).toUInt32) := by
  rw [copperExecMove_agnus]
  cases copperMoveBlocked ctx.agnus.copper.copcon (ir1 &&& 0x01FE).toUInt32 with
  | true =>
    simp only [if_true, Bool.not_true, Bool.or_false]
    rfl
  | false =>
    have hs : (agnusAfterWrite ctx.agnus (ir1 &&& 0x01FE).toUInt32 ir2).copper.stoppedUntilVbl = false :=
      (agnusAfterWrite_stopped _ _ _).trans hstop
    simp only [Bool.false_eq_true, if_false, Bool.not_false, Bool.or_true, copperAfterMove, hs]

theorem copperExecute_latch {ctx : RigelContext} (hstop : ctx.agnus.copper.stoppedUntilVbl = false) (ir1 ir2 : UInt16) :
    (copperExecute ctx ir1 ir2).agnus.copper.eventLatched =
      (ctx.agnus.copper.eventLatched ||
        (ir1 &&& 0x0001 == 0 && !copperMoveBlocked ctx.agnus.copper.copcon (ir1 &&& 0x01FE).toUInt32)) := by
  unfold copperExecute
  simp only
  by_cases hmove : ir1 &&& 0x0001 = 0
  · rw [if_neg (not_not_intro hmove), hmove, beq_self_eq_true, Bool.true_and]
    exact copperMove_latch hstop _ ir1 ir2
  · rw [if_pos hmove, beq_eq_false_iff_ne.mpr hmove, Bool.false_and, Bool.or_false]
    split <;> rfl

/-- A MOVE sets the latch, whatever it wrote; nothing else in a copper slot touches it. -/
theorem copperService_latch (ctx : RigelContext) :
    (rigelCopperServiceStepProgram ctx).agnus.copper.eventLatched =
      (ctx.agnus.copper.eventLatched || copperMoves ctx) := by
  unfold rigelCopperServiceStepProgram copperMoves
  simp only
  by_cases hs : ctx.agnus.copper.stoppedUntilVbl = true
  · rw [if_pos hs, hs, Bool.not_true, Bool.false_and, Bool.false_and, Bool.false_and, Bool.or_false]
  · rw [if_neg hs]
    rw [Bool.not_eq_true] at hs
    by_cases hg : (!ctx.agnus.copper.enabled || !ctx.agnus.copper.fetchPending) = true
    · have hoff : (ctx.agnus.copper.enabled && ctx.agnus.copper.fetchPending) = false := by
        rw [← Bool.not_and] at hg
        rwa [Bool.not_eq_true'] at hg
      rw [if_pos hg, hoff, Bool.and_false, Bool.false_and, Bool.false_and, Bool.or_false]
    · have hon : (ctx.agnus.copper.enabled && ctx.agnus.copper.fetchPending) = true := by
        rw [← Bool.not_and] at hg
        simpa using hg
      have hstop' : (setCopper ctx { ctx.agnus.copper with fetchPending := false }).agnus.copper.stoppedUntilVbl =
          false := hs
      rw [if_neg hg, copperExecute_latch hstop', hs, hon, Bool.not_false, Bool.true_and, Bool.true_and]
      rfl

/-- The vertical blank restarts the copper at the end of this clock. -/
def clockRestarts (ctx : RigelContext) : Bool := vertbRestarts (schedulerDispatch (schedulerPrepare ctx))

/-- This clock latches a copper event: a WAIT is released, or a MOVE executed. -/
def clockLatches (ctx : RigelContext) : Bool :=
  copperReleases ctx.agnus.copper ctx.agnus.beam ctx.agnus.dma (blitterIsBusy ctx.agnus.blitter) ||
    (slotOwner (schedulerPrepare ctx) == .copper && copperMoves (schedulerRestoreDsken (schedulerPrepare ctx)))

theorem schedulerDispatch_latch (ctx : RigelContext) :
    (schedulerDispatch (schedulerPrepare ctx)).agnus.copper.eventLatched =
      (ctx.agnus.copper.eventLatched || clockLatches ctx) := by
  have hp : (schedulerRestoreDsken (schedulerPrepare ctx)).agnus.copper.eventLatched =
      (ctx.agnus.copper.eventLatched ||
        copperReleases ctx.agnus.copper ctx.agnus.beam ctx.agnus.dma (blitterIsBusy ctx.agnus.blitter)) := by
    rw [schedulerRestoreDsken_copper, schedulerPrepare_copper]
    rfl
  unfold schedulerDispatch clockLatches
  by_cases ho : slotOwner (schedulerPrepare ctx) = .copper
  · rw [ho]
    simp only [dispatchSlot, copperService_latch, hp, beq_self_eq_true, Bool.true_and, Bool.or_assoc]
  · rw [dispatchSlot_copper ho, hp, beq_eq_false_iff_ne.mpr ho, Bool.false_and, Bool.or_false]

/-- **The latch over one clock.** -/
theorem clock_latch (ctx : RigelContext) :
    (agnusSlotSchedulerStep ctx).agnus.copper.eventLatched =
      (!clockRestarts ctx && (ctx.agnus.copper.eventLatched || clockLatches ctx)) := by
  unfold agnusSlotSchedulerStep clockRestarts
  rw [schedulerAdvance_copper]
  cases hv : vertbRestarts (schedulerDispatch (schedulerPrepare ctx)) with
  | true => rfl
  | false => exact schedulerDispatch_latch ctx

theorem SameBus.clockRestarts {x y : RigelContext} (h : SameBus x y) : clockRestarts y = clockRestarts x := by
  unfold Rigel.clockRestarts vertbRestarts
  rw [h.prepare.schedulerDispatch.agnus]
  rfl

theorem SameBus.copperMoves {x y : RigelContext} (h : SameBus x y) : copperMoves y = copperMoves x := by
  unfold Rigel.copperMoves
  rw [h.copper, h.ram]

theorem SameBus.clockLatches {x y : RigelContext} (h : SameBus x y) : clockLatches y = clockLatches x := by
  unfold Rigel.clockLatches
  rw [h.prepare.slotOwner, h.prepare.restoreDsken.copperMoves, h.agnus]
  rfl

/-- The vertical blank restarts the copper somewhere in these clocks. -/
def restartsWithin (ctx : RigelContext) : Nat → Bool
  | 0 => false
  | n + 1 => clockRestarts ctx || restartsWithin (agnusSlotSchedulerStep ctx) n

/-- **The latch over a run, with and without an event latched before it.** -/
theorem clocks_latch : ∀ (n : Nat) {x y : RigelContext} (_ : SameBus x y) (p : Bool)
    (_ : x.agnus.copper.eventLatched = (y.agnus.copper.eventLatched || p)),
    (agnusSlotSchedulerStepUntil x n).agnus.copper.eventLatched =
      ((agnusSlotSchedulerStepUntil y n).agnus.copper.eventLatched || (p && !restartsWithin x n))
  | 0, _, _, _, p, hl => by
    rw [restartsWithin, Bool.not_false, Bool.and_true]
    exact hl
  | n + 1, x, y, h, p, hl => by
    have hstep : (agnusSlotSchedulerStep x).agnus.copper.eventLatched =
        ((agnusSlotSchedulerStep y).agnus.copper.eventLatched || (p && !Rigel.clockRestarts x)) := by
      rw [clock_latch, clock_latch, h.clockRestarts, h.clockLatches, hl]
      cases Rigel.clockRestarts x <;> cases p <;> simp
    have ih := clocks_latch n h.clock (p && !Rigel.clockRestarts x) hstep
    rw [restartsWithin, Bool.not_or, ← Bool.and_assoc]
    exact ih

theorem SameBus.restartsWithin : ∀ (n : Nat) {x y : RigelContext} (_ : SameBus x y),
    restartsWithin y n = restartsWithin x n
  | 0, _, _, _ => rfl
  | n + 1, _, _, h => by
    rw [Rigel.restartsWithin, Rigel.restartsWithin, h.clockRestarts, SameBus.restartsWithin n h.clock]

theorem restartsWithin_iff : ∀ (n : Nat) (ctx : RigelContext),
    restartsWithin ctx n = true ↔ ∃ i < n, clockRestarts (agnusSlotSchedulerStepUntil ctx i) = true
  | 0, _ => by simp [restartsWithin]
  | n + 1, ctx => by
    rw [restartsWithin, Bool.or_eq_true, restartsWithin_iff n]
    constructor
    · rintro (h | ⟨i, hi, h⟩)
      · exact ⟨0, Nat.succ_pos n, h⟩
      · exact ⟨i + 1, Nat.succ_lt_succ hi, h⟩
    · rintro ⟨i, hi, h⟩
      cases i with
      | zero => exact Or.inl h
      | succ i => exact Or.inr ⟨i, Nat.lt_of_succ_lt_succ hi, h⟩

/-- One of the next `n` clocks latches a copper event, and the vertical blank restarts the copper in none from it on. -/
def LatchStands (ctx : RigelContext) (n : Nat) : Prop :=
  ∃ i < n, clockLatches (agnusSlotSchedulerStepUntil ctx i) = true ∧
    ∀ j < n, i ≤ j → clockRestarts (agnusSlotSchedulerStepUntil ctx j) = false

instance (ctx : RigelContext) (n : Nat) : Decidable (LatchStands ctx n) := inferInstanceAs (Decidable (∃ i < n, _ ∧ ∀ j < n, _))

theorem latchStands_succ (ctx : RigelContext) (n : Nat) :
    LatchStands ctx (n + 1) ↔ clockRestarts (agnusSlotSchedulerStepUntil ctx n) = false ∧
      (LatchStands ctx n ∨ clockLatches (agnusSlotSchedulerStepUntil ctx n) = true) := by
  constructor
  · rintro ⟨i, hi, hl, hr⟩
    refine ⟨hr n (Nat.lt_succ_self n) (Nat.le_of_lt_succ hi), ?_⟩
    rcases Nat.lt_or_eq_of_le (Nat.le_of_lt_succ hi) with hlt | rfl
    · exact Or.inl ⟨i, hlt, hl, fun j hj => hr j (Nat.lt_succ_of_lt hj)⟩
    · exact Or.inr hl
  · rintro ⟨hlast, ⟨i, hi, hl, hr⟩ | hl⟩
    · refine ⟨i, Nat.lt_succ_of_lt hi, hl, fun j hj hij => ?_⟩
      rcases Nat.lt_or_eq_of_le (Nat.le_of_lt_succ hj) with hlt | rfl
      · exact hr j hlt hij
      · exact hlast
    · refine ⟨n, Nat.lt_succ_self n, hl, fun j hj hij => ?_⟩
      rw [Nat.le_antisymm (Nat.le_of_lt_succ hj) hij]
      exact hlast

/-! ## A step of the host, to the bus -/

theorem sameBus_stepRun {ctx : RigelContext} (h : AgnusOk ctx.agnus) (cycles : UInt64) :
    SameBus (agnusSlotSchedulerStepUntil ctx cycles.toUInt32.toNat) (rigelStepRun ctx cycles) := by
  have hdma : (clearEventLatch ctx).agnus.dma = rigelDmaDomainSyncDmacon (clearEventLatch ctx).agnus.dma.dmacon := h.dma
  exact (SameBus.clocks _ (sameBus_clearEventLatch ctx)).trans (sameBus_chipsetStep hdma _)

theorem stepRun_latch {ctx : RigelContext} (h : AgnusOk ctx.agnus) (cycles : UInt64) :
    (rigelStepRun ctx cycles).agnus.copper.eventLatched =
      (agnusSlotSchedulerStepUntil (clearEventLatch ctx) cycles.toUInt32.toNat).agnus.copper.eventLatched := by
  have hdma : (clearEventLatch ctx).agnus.dma = rigelDmaDomainSyncDmacon (clearEventLatch ctx).agnus.dma.dmacon := h.dma
  have hstart : SameBus (clearEventLatch ctx) (stepPrologue ctx cycles.toUInt32) :=
    sameBus_prologue hdma cycles.toUInt32
  have hlatch : (stepPrologue ctx cycles.toUInt32).agnus.copper.eventLatched = false := by
    unfold stepPrologue
    simp only
    split <;> rfl
  have hl := clocks_latch cycles.toUInt32.toNat hstart false (by rw [hlatch]; rfl)
  rw [Bool.false_and, Bool.or_false] at hl
  unfold rigelStepRun
  rw [rigelChipsetStep_agnus, chipsetRun_eq_clocks]
  exact hl.symm

/-! ## Two steps and one -/

/-- The latch after `n` clocks that begin with it clear. -/
def copperLatches (ctx : RigelContext) (n : Nat) : Bool :=
  (agnusSlotSchedulerStepUntil (clearEventLatch ctx) n).agnus.copper.eventLatched

/-- The blitter after `n` clocks. -/
def blitterBusyAt (ctx : RigelContext) (n : Nat) : Bool :=
  blitterIsBusy (agnusSlotSchedulerStepUntil ctx n).agnus.blitter

/-- Every event that one of two steps reports is reported by the step that takes their place. -/
structure EventsKept (first second whole : RigelEvents) : Prop where
  vblank : (first.vblank || second.vblank) = true → whole.vblank = true
  frameReady : (first.frameReady || second.frameReady) = true → whole.frameReady = true
  hblank : (first.hblank || second.hblank) = true → whole.hblank = true
  blitDone : (first.blitDone || second.blitDone) = true → whole.blitDone = true
  copper : (first.copper || second.copper) = true → whole.copper = true
  irqChanged : (first.irqChanged || second.irqChanged) = true → whole.irqChanged = true

/-- No signal that a step samples goes and comes back between the samples. In the clocks before the cut or in those after it
the beam enters the vertical-blank zone as often as it leaves it; in those before or after it as many blits start as end; a
copper event that stands at the cut and is wiped by a restart after it is followed by one that stands at the end; and if the
edges of the whole step leave the level, so do those of the first step, and those of both. -/
structure SignalsStay (ctx : RigelContext) (a b : UInt64) : Prop where
  vblank : vblankEntries ctx a.toUInt32.toNat = vblankExits ctx a.toUInt32.toNat ∨
    vblankEntries (agnusSlotSchedulerStepUntil ctx a.toUInt32.toNat) b.toUInt32.toNat =
      vblankExits (agnusSlotSchedulerStepUntil ctx a.toUInt32.toNat) b.toUInt32.toNat
  blitter : blitStarts ctx a.toUInt32.toNat = blitEnds ctx a.toUInt32.toNat ∨
    blitStarts (agnusSlotSchedulerStepUntil ctx a.toUInt32.toNat) b.toUInt32.toNat =
      blitEnds (agnusSlotSchedulerStepUntil ctx a.toUInt32.toNat) b.toUInt32.toNat
  copper : LatchStands ctx a.toUInt32.toNat →
    (∃ i < b.toUInt32.toNat, clockRestarts
      (agnusSlotSchedulerStepUntil (agnusSlotSchedulerStepUntil ctx a.toUInt32.toNat) i) = true) →
    LatchStands (agnusSlotSchedulerStepUntil ctx a.toUInt32.toNat) b.toUInt32.toNat
  ipl : LevelStays ctx.paula.interrupts (stepEdges ctx (a + b)) →
    LevelStays ctx.paula.interrupts (stepEdges ctx a) ∧
      LevelStays ctx.paula.interrupts (stepEdges ctx a ++ stepEdges (rigelStep ctx a).1 b)

/-- A sample that is at the cut what it is at one end loses neither of its edges. -/
theorem rising_kept_iff (x y z : Bool) : ((!x && y || !y && z) = true → (!x && z) = true) ↔ (y = x ∨ y = z) := by
  revert x y z
  decide

theorem falling_kept_iff (x y z : Bool) : ((x && !y || y && !z) = true → (x && !z) = true) ↔ (y = x ∨ y = z) := by
  revert x y z
  decide

theorem latch_kept_iff (p q r : Bool) : ((p || q) = true → (q || (p && !r)) = true) ↔ (p = true → r = true → q = true) := by
  revert p q r
  decide

theorem changed_kept_iff (x y z w : UInt8) : ((y != x || z != y) = true → (w != x) = true) ↔ (w = x → y = x ∧ z = x) := by
  simp only [Bool.or_eq_true, bne_iff_ne]
  constructor
  · intro hk e
    by_cases hy : y = x
    · refine ⟨hy, ?_⟩
      by_contra hz
      exact hk (Or.inr (fun ez => hz (ez.trans hy))) e
    · exact absurd e (hk (Or.inl hy))
  · intro hs hor e
    obtain ⟨hy, hz⟩ := hs e
    rcases hor with hne | hne
    · exact hne hy
    · exact hne (hz.trans hy.symm)

theorem toUInt32_add {a b : UInt64} (hfit : a.toUInt32.toNat + b.toUInt32.toNat < 2 ^ 32) :
    (a + b).toUInt32.toNat = a.toUInt32.toNat + b.toUInt32.toNat := by
  rw [UInt64.toUInt32_add, UInt32.toNat_add, Nat.mod_eq_of_lt hfit]

theorem stepRun_beam {ctx : RigelContext} (h : AgnusOk ctx.agnus) (cycles : UInt64) :
    (rigelStepRun ctx cycles).agnus.beam = beamAt ctx cycles.toUInt32.toNat :=
  (sameBus_stepRun h cycles).beamAt 0

theorem stepRun_busy {ctx : RigelContext} (h : AgnusOk ctx.agnus) (cycles : UInt64) :
    blitterIsBusy (rigelStepRun ctx cycles).agnus.blitter = blitterBusyAt ctx cycles.toUInt32.toNat := by
  rw [(sameBus_stepRun h cycles).agnus]
  rfl

theorem sameBus_rigelStep {ctx : RigelContext} (h : AgnusOk ctx.agnus) (cycles : UInt64) :
    SameBus (agnusSlotSchedulerStepUntil ctx cycles.toUInt32.toNat) (rigelStep ctx cycles).1 := by
  have hrun := sameBus_stepRun h cycles
  exact ⟨hrun.config, hrun.ram, hrun.mod1, hrun.mod2, hrun.disk, hrun.agnus⟩

theorem SameBus.clearEventLatch {x y : RigelContext} (h : SameBus x y) :
    SameBus (clearEventLatch x) (clearEventLatch y) :=
  (sameBus_clearEventLatch x).symm.trans (h.trans (sameBus_clearEventLatch y))

/-- The latch of `n + m` clocks is that of the last `m`, or that of the first `n` if nothing restarted the copper. -/
theorem copperLatches_add (ctx : RigelContext) (n m : Nat) :
    copperLatches ctx (n + m) =
      (copperLatches (agnusSlotSchedulerStepUntil ctx n) m ||
        (copperLatches ctx n && !restartsWithin (agnusSlotSchedulerStepUntil ctx n) m)) := by
  have hcut := SameBus.clocks n (sameBus_clearEventLatch ctx)
  have hflip : SameBus (agnusSlotSchedulerStepUntil (clearEventLatch ctx) n)
      (clearEventLatch (agnusSlotSchedulerStepUntil ctx n)) :=
    hcut.symm.trans (sameBus_clearEventLatch _)
  have hl := clocks_latch m hflip (copperLatches ctx n) rfl
  rw [hcut.restartsWithin m] at hl
  rw [copperLatches, agnusSlotSchedulerStepUntil_add]
  exact hl

theorem SameBus.copperLatches {x y : RigelContext} (h : SameBus x y) (n : Nat) : copperLatches y n = copperLatches x n := by
  have hl := clocks_latch n h.clearEventLatch false rfl
  rw [Bool.false_and, Bool.or_false] at hl
  exact hl.symm

theorem copperLatches_iff (ctx : RigelContext) (n : Nat) : copperLatches ctx n = true ↔ LatchStands ctx n := by
  induction n with
  | zero =>
    have hclear : copperLatches ctx 0 = false := rfl
    rw [hclear]
    exact ⟨fun h => Bool.noConfusion h, fun ⟨i, hi, _⟩ => absurd hi (Nat.not_lt_zero i)⟩
  | succ n ih =>
    have hsame := SameBus.clocks n (sameBus_clearEventLatch ctx)
    have hclock : copperLatches ctx (n + 1) = (!clockRestarts (agnusSlotSchedulerStepUntil ctx n) &&
        (copperLatches ctx n || clockLatches (agnusSlotSchedulerStepUntil ctx n))) := by
      unfold copperLatches
      rw [agnusSlotSchedulerStepUntil_succ, clock_latch, hsame.clockRestarts, hsame.clockLatches]
    rw [hclock, Bool.and_eq_true, Bool.or_eq_true, Bool.not_eq_true', ih, latchStands_succ]

/-- The zone is at the end what it was at the start exactly when the beam entered it as often as it left it. -/
theorem vblank_balance_iff (ctx : RigelContext) (n : Nat) :
    beamInVblank (beamAt ctx n) = beamInVblank (beamAt ctx 0) ↔ vblankEntries ctx n = vblankExits ctx n := by
  have hbal := vblank_balance ctx n
  unfold inVblank at hbal
  cases hthen : beamInVblank (beamAt ctx n) <;> cases hnow : beamInVblank (beamAt ctx 0) <;>
    rw [hthen, hnow] at hbal <;> simp at hbal ⊢ <;> omega

/-! ## The six events -/

section
variable {ctx : RigelContext} (h : Reachable ctx) (a b : UInt64)
  (hfit : a.toUInt32.toNat + b.toUInt32.toNat < 2 ^ 32)
include h

/-- The clocks after the first step are the later clocks of the whole. -/
theorem beamAt_rigelStep (i : Nat) : beamAt (rigelStep ctx a).1 i = beamAt ctx (a.toUInt32.toNat + i) := by
  rw [(sameBus_rigelStep h.agnusOk a).beamAt]
  unfold beamAt
  rw [agnusSlotSchedulerStepUntil_add]

theorem blitterBusyAt_rigelStep (i : Nat) :
    blitterBusyAt (rigelStep ctx a).1 i = blitterBusyAt ctx (a.toUInt32.toNat + i) := by
  have hclocks := SameBus.clocks i (sameBus_rigelStep h.agnusOk a)
  unfold blitterBusyAt
  rw [hclocks.agnus, agnusSlotSchedulerStepUntil_add]
  rfl

theorem secondStep_latch :
    (rigelStepRun (rigelStep ctx a).1 b).agnus.copper.eventLatched =
      copperLatches (agnusSlotSchedulerStepUntil ctx a.toUInt32.toNat) b.toUInt32.toNat := by
  rw [stepRun_latch (h.step a).agnusOk]
  exact (sameBus_rigelStep h.agnusOk a).copperLatches _

theorem rigelStep_vblank :
    (rigelStep ctx a).2.events.vblank =
      (!beamInVblank (beamAt ctx 0) && beamInVblank (beamAt ctx a.toUInt32.toNat)) := by
  rw [← stepRun_beam h.agnusOk a]
  rfl

theorem rigelStep_blitDone :
    (rigelStep ctx a).2.events.blitDone = (blitterBusyAt ctx 0 && !blitterBusyAt ctx a.toUInt32.toNat) := by
  rw [← stepRun_busy h.agnusOk a]
  rfl

include hfit

/-- A frame completed in either step is completed in the whole. -/
theorem frameReady_kept
    (hk : ((rigelStep ctx a).2.events.frameReady || (rigelStep (rigelStep ctx a).1 b).2.events.frameReady) = true) :
    (rigelStep ctx (a + b)).2.events.frameReady = true := by
  have hsplit := traceSum_split completesFrame (sameBus_rigelStep h.agnusOk a) b.toUInt32.toNat
  have hfirst := frameCount_ne_iff h.agnusOk a.toUInt32.toNat_lt
  have hsecond := frameCount_ne_iff (h.step a).agnusOk b.toUInt32.toNat_lt
  have hwhole := frameCount_ne_iff h.agnusOk hfit
  unfold framesCompleted at hfirst hsecond hwhole
  rw [← toUInt32_add hfit, ← stepRun_beam h.agnusOk] at hwhole
  rw [← stepRun_beam h.agnusOk] at hfirst
  rw [← stepRun_beam (h.step a).agnusOk] at hsecond
  refine bne_iff_ne.mpr (hwhole.mpr ?_)
  rw [toUInt32_add hfit]
  rcases Bool.or_eq_true_iff.mp hk with hk | hk
  · have := hfirst.mp (bne_iff_ne.mp hk)
    omega
  · have := hsecond.mp (bne_iff_ne.mp hk)
    omega

theorem hblank_kept
    (hk : ((rigelStep ctx a).2.events.hblank || (rigelStep (rigelStep ctx a).1 b).2.events.hblank) = true) :
    (rigelStep ctx (a + b)).2.events.hblank = true := by
  have hsplit := traceSum_split completesLine (sameBus_rigelStep h.agnusOk a) b.toUInt32.toNat
  have hfirst := position_ne_iff h.agnusOk a.toUInt32.toNat_lt
  have hsecond := position_ne_iff (h.step a).agnusOk b.toUInt32.toNat_lt
  have hwhole := position_ne_iff h.agnusOk hfit
  have hor : ∀ {p q : UInt16} {r s : UInt64}, (p != q || r != s) = true ↔ (p ≠ q ∨ r ≠ s) := by
    intro p q r s
    rw [Bool.or_eq_true, bne_iff_ne, bne_iff_ne]
  unfold linesCompleted at hfirst hsecond hwhole
  rw [← toUInt32_add hfit, ← stepRun_beam h.agnusOk] at hwhole
  rw [← stepRun_beam h.agnusOk] at hfirst
  rw [← stepRun_beam (h.step a).agnusOk] at hsecond
  refine hor.mpr (hwhole.mpr ?_)
  rw [toUInt32_add hfit]
  rcases Bool.or_eq_true_iff.mp hk with hk | hk
  · have := hfirst.mp (hor.mp hk)
    omega
  · have := hsecond.mp (hor.mp hk)
    omega

theorem vblank_kept_iff :
    (((rigelStep ctx a).2.events.vblank || (rigelStep (rigelStep ctx a).1 b).2.events.vblank) = true →
      (rigelStep ctx (a + b)).2.events.vblank = true) ↔
    (vblankEntries ctx a.toUInt32.toNat = vblankExits ctx a.toUInt32.toNat ∨
      vblankEntries (agnusSlotSchedulerStepUntil ctx a.toUInt32.toNat) b.toUInt32.toNat =
        vblankExits (agnusSlotSchedulerStepUntil ctx a.toUInt32.toNat) b.toUInt32.toNat) := by
  have hcut : ∀ i, beamAt (agnusSlotSchedulerStepUntil ctx a.toUInt32.toNat) i = beamAt ctx (a.toUInt32.toNat + i) := by
    intro i
    unfold beamAt
    rw [agnusSlotSchedulerStepUntil_add]
  rw [rigelStep_vblank h, rigelStep_vblank h, rigelStep_vblank (h.step a), beamAt_rigelStep h, beamAt_rigelStep h,
    toUInt32_add hfit, ← vblank_balance_iff, ← vblank_balance_iff, hcut, hcut, Nat.add_zero, eq_comm (a := beamInVblank (beamAt ctx (_ + _)))]
  exact rising_kept_iff _ _ _

theorem blitDone_kept_iff :
    (((rigelStep ctx a).2.events.blitDone || (rigelStep (rigelStep ctx a).1 b).2.events.blitDone) = true →
      (rigelStep ctx (a + b)).2.events.blitDone = true) ↔
    (blitStarts ctx a.toUInt32.toNat = blitEnds ctx a.toUInt32.toNat ∨
      blitStarts (agnusSlotSchedulerStepUntil ctx a.toUInt32.toNat) b.toUInt32.toNat =
        blitEnds (agnusSlotSchedulerStepUntil ctx a.toUInt32.toNat) b.toUInt32.toNat) := by
  have hvalid := blitValid_invariant.reachable h
  rw [rigelStep_blitDone h, rigelStep_blitDone h, rigelStep_blitDone (h.step a), blitterBusyAt_rigelStep h,
    blitterBusyAt_rigelStep h, toUInt32_add hfit, ← blit_balance_iff hvalid,
    ← blit_balance_iff (blitValid_invariant.clocks hvalid a.toUInt32.toNat), ← agnusSlotSchedulerStepUntil_add, Nat.add_zero]
  refine (falling_kept_iff _ _ _).trans (or_congr Iff.rfl ?_)
  exact eq_comm

theorem copper_kept_iff :
    (((rigelStep ctx a).2.events.copper || (rigelStep (rigelStep ctx a).1 b).2.events.copper) = true →
      (rigelStep ctx (a + b)).2.events.copper = true) ↔
    (LatchStands ctx a.toUInt32.toNat →
      (∃ i < b.toUInt32.toNat, clockRestarts
        (agnusSlotSchedulerStepUntil (agnusSlotSchedulerStepUntil ctx a.toUInt32.toNat) i) = true) →
      LatchStands (agnusSlotSchedulerStepUntil ctx a.toUInt32.toNat) b.toUInt32.toNat) := by
  have hfirst : (rigelStep ctx a).2.events.copper = copperLatches ctx a.toUInt32.toNat := stepRun_latch h.agnusOk a
  have hwhole : (rigelStep ctx (a + b)).2.events.copper = copperLatches ctx (a + b).toUInt32.toNat :=
    stepRun_latch h.agnusOk (a + b)
  have hsecond : (rigelStep (rigelStep ctx a).1 b).2.events.copper =
      copperLatches (agnusSlotSchedulerStepUntil ctx a.toUInt32.toNat) b.toUInt32.toNat := secondStep_latch h a b
  rw [hfirst, hsecond, hwhole, toUInt32_add hfit, copperLatches_add, ← copperLatches_iff, ← copperLatches_iff,
    ← restartsWithin_iff]
  exact latch_kept_iff _ _ _

omit hfit in
theorem irqChanged_kept_iff :
    (((rigelStep ctx a).2.events.irqChanged || (rigelStep (rigelStep ctx a).1 b).2.events.irqChanged) = true →
      (rigelStep ctx (a + b)).2.events.irqChanged = true) ↔
    (LevelStays ctx.paula.interrupts (stepEdges ctx (a + b)) →
      LevelStays ctx.paula.interrupts (stepEdges ctx a) ∧
        LevelStays ctx.paula.interrupts (stepEdges ctx a ++ stepEdges (rigelStep ctx a).1 b)) := by
  have hone := rigelStep_irq h.todOnPulses
  have htwo := rigelStep_irq (h.step a).todOnPulses b
  rw [levelStays_iff _ h.iplFollows, levelStays_iff _ h.iplFollows, levelStays_iff _ h.iplFollows, List.foldl_append, ← hone, ← hone,
    ← htwo]
  exact changed_kept_iff _ _ _ _

end

/-- A copper list that enables BLIT and sets the background to red. -/
def redWords (addr : UInt32) : UInt16 :=
  match addr with
  | 0x1000 => 0x009A
  | 0x1002 => 0x8040
  | 0x1004 => 0x0180
  | 0x1006 => 0x0F00
  | 0x1008 => 0xFFFF
  | 0x100A => 0xFFFE
  | _ => 0

/-- A machine with a blit of 24 words under way and that list behind it. -/
def blitThenCopper : RigelContext :=
  ([.writeRam redWords, .customWrite 0x096 0x82C0, .step 20, .customWrite 0x09C 0x0020, .customWrite 0x09A 0xC040,
    .customWrite 0x080 0, .customWrite 0x082 0x1000, .customWrite 0x088 0, .customWrite 0x058 0x00C8] : List HostCall).foldl
      hostCall palMachine

end Rigel
