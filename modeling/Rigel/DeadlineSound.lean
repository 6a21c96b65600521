import Rigel.BlitBalance
import Rigel.DeadlineProgress
import Rigel.LineClock
import Rigel.StepEvents
import Rigel.StepLedger

/-!
# DeadlineSound — what can happen before a deadline

A step that ends before the reported deadline stays inside its line, so it neither completes a frame nor enters the
vertical blank. The deadline also bounds the copies of the blitter and the countdown of the disk. What is left to the sources
that it has no estimate for is read off their edges and the blits that start and end: the step changes nothing that its
events report exactly when these leave the level where it was and end no more blits than they start (`SourcesQuiet`).
-/

namespace Rigel

/-! ## The cache at the start of a line -/

def LineFresh (a : RigelAgnus) : Prop := a.beam.hpos = 0 → a.scheduler.tableDirty = true

/-- A setter that marks the cache dirty unless it changes nothing. -/
theorem LineFresh.setter {a : RigelAgnus} (h : LineFresh a) {s : SlotScheduler}
    (hs : s.tableDirty = true ∨ s = a.scheduler) : a.beam.hpos = 0 → s.tableDirty = true := by
  rcases hs with hd | rfl
  · exact fun _ => hd
  · exact h

theorem LineFresh.write {a a' : RigelAgnus} (h : LineFresh a) (hw : AgnusWrite a a') : LineFresh a' := by
  cases hw with
  | dmacon value => exact fun _ => rfl
  | ddf ddfstrt ddfstop raster => exact fun _ => rfl
  | bplcon0 value => exact h.setter (setDepth_setHires_dirty _ _ _)
  | diwstrt value => exact h.setter (setVstrt_dirty _ _)
  | _ => exact h

theorem lineFresh_clock (ctx : RigelContext) : LineFresh (agnusSlotSchedulerStep ctx).agnus := by
  show (schedulerAdvance _).agnus.beam.hpos = 0 → (schedulerAdvance _).agnus.scheduler.tableDirty = true
  rw [schedulerAdvance_beam]
  intro hpos
  unfold schedulerAdvance schedulerAtVertb schedulerAtLineStart
  rw [if_pos (show (schedulerMoveBeam (schedulerDispatch (schedulerPrepare ctx))).agnus.beam.hpos = 0 from hpos)]
  split <;> rfl

theorem lineFresh_invariant : AgnusInvariant LineFresh where
  reset _ := fun _ => rfl
  write h hw := h.write hw
  latch h := h
  sync h := h
  clock _ := lineFresh_clock _
  cycleExact _ h := h

/-! ## What the deadline bounds -/

/-- A step of `n` clocks ends before the reported deadline. -/
def BeforeDeadline (ctx : RigelContext) (n : UInt64) : Prop :=
  (rigelGetTime ctx).toNat + n.toNat < (rigelGetNextDeadline ctx).toNat

instance (ctx : RigelContext) (n : UInt64) : Decidable (BeforeDeadline ctx n) := inferInstanceAs (Decidable (_ < _))

variable {ctx : RigelContext} {n : UInt64}

theorem BeforeDeadline.lt_min (h : BeforeDeadline ctx n) :
    n.toNat < (agnusDeadlinesMin (contextDeadlines ctx true)).toNat := by
  have hle : (rigelGetNextDeadline ctx).toNat ≤
      ctx.cycles.toNat + (agnusDeadlinesMin (contextDeadlines ctx true)).toNat := by
    rw [rigelGetNextDeadline, rigelGetDeadline, UInt64.toNat_add, UInt32.toNat_toUInt64]
    exact Nat.mod_le _ _
  unfold BeforeDeadline rigelGetTime at h
  omega

/-- Every estimate is beyond the step. -/
theorem BeforeDeadline.lt (h : BeforeDeadline ctx n) {d : UInt32}
    (hd : d ∈ [(contextDeadlines ctx true).blitter, (contextDeadlines ctx true).beamLineEnd,
      (contextDeadlines ctx true).vertb, (contextDeadlines ctx true).copperWait, (contextDeadlines ctx true).audio,
      (contextDeadlines ctx true).disk, (contextDeadlines ctx true).slot]) : n.toNat < d.toNat := by
  have hle := UInt32.le_iff_toNat_le.mp ((foldl_minDeadline_le _ agnusDeadlineUnknown).2 d hd)
  exact Nat.lt_of_lt_of_le h.lt_min hle

theorem BeforeDeadline.line (h : BeforeDeadline ctx n) (hok : AgnusOk ctx.agnus) :
    ctx.agnus.beam.hpos.toNat + n.toNat < 227 := by
  have hlt : n.toNat < (lineEndDeadline ctx.agnus.beam).toNat := h.lt (by simp [contextDeadlines])
  rw [lineEndDeadline_eq hok.beam] at hlt
  omega

theorem BeforeDeadline.cycles (h : BeforeDeadline ctx n) (hok : AgnusOk ctx.agnus) : n.toUInt32.toNat = n.toNat := by
  have hline := h.line hok
  rw [UInt64.toNat_toUInt32]
  exact Nat.mod_eq_of_lt (by omega)

/-- At the start of a line the bus-slot estimate is one clock. -/
theorem BeforeDeadline.started (h : BeforeDeadline ctx n) (hfresh : LineFresh ctx.agnus) (hn : 0 < n.toNat) :
    0 < ctx.agnus.beam.hpos.toNat := by
  by_contra h0
  have hpos : ctx.agnus.beam.hpos = 0 := UInt16.toNat_inj.mp (Nat.eq_zero_of_not_pos h0)
  have hslot : n.toNat < (agnusSlotSchedulerNextEvent ctx.agnus.scheduler ctx.agnus.beam.lineClocks).toNat :=
    h.lt (by simp [contextDeadlines])
  rw [agnusSlotSchedulerNextEvent, if_pos (hfresh hpos)] at hslot
  simp only [UInt32.reduceToNat] at hslot
  omega

theorem BeforeDeadline.blitter (h : BeforeDeadline ctx n) (hbusy : ctx.agnus.blitter.busy = true) :
    n.toNat < ctx.agnus.blitter.cyclesRemaining.toNat := by
  have hlt : n.toNat < (contextDeadlines ctx true).blitter.toNat := h.lt (by simp)
  have hb : blitterIsBusy ctx.agnus.blitter = true := hbusy
  simp only [contextDeadlines, hb, if_true] at hlt
  exact hlt

theorem BeforeDeadline.disk (h : BeforeDeadline ctx n) : DiskQuiet n.toNat ctx.paula.disk := by
  intro hactive htotal
  have hlt : n.toNat < (diskCyclesToNextEvent ctx.paula.disk).toNat := h.lt (by simp [contextDeadlines])
  by_cases hcount : ctx.paula.disk.countdown = 0
  · exact Or.inl hcount
  · right
    have hpos : ctx.paula.disk.countdown > 0 := UInt32.pos_iff_ne_zero.mpr hcount
    rwa [diskCyclesToNextEvent, if_pos ⟨hactive, hpos, htotal⟩] at hlt

/-! ## The clocks of the step -/

theorem stepPrologue_beam (ctx : RigelContext) (cycles : UInt32) : (stepPrologue ctx cycles).agnus.beam = ctx.agnus.beam := by
  unfold stepPrologue
  simp only
  split <;> rfl

theorem stepPrologue_ok (h : AgnusOk ctx.agnus) (cycles : UInt32) : AgnusOk (stepPrologue ctx cycles).agnus := by
  unfold stepPrologue
  simp only
  split
  · exact agnusOk_invariant.latch h
  · exact agnusOk_invariant.sync (agnusOk_invariant.latch h)

theorem BeforeDeadline.onLine (h : BeforeDeadline ctx n) (hok : AgnusOk ctx.agnus) (hfresh : LineFresh ctx.agnus) :
    OnLine ctx.agnus.beam n.toUInt32.toNat (stepPrologue ctx n.toUInt32).agnus := by
  rw [h.cycles hok]
  refine ⟨stepPrologue_ok hok _, ?_, ?_, ?_, ?_⟩
  all_goals rw [stepPrologue_beam]
  · exact h.started hfresh
  · exact h.line hok

theorem BeforeDeadline.beam (h : BeforeDeadline ctx n) (hok : AgnusOk ctx.agnus) (hfresh : LineFresh ctx.agnus) :
    OnLine ctx.agnus.beam 0 (stepClocks ctx n).agnus := by
  have hline := h.onLine hok hfresh
  rw [← Nat.zero_add n.toUInt32.toNat] at hline
  exact OnLine.clocks _ hline

theorem BeforeDeadline.frame (h : BeforeDeadline ctx n) (hok : AgnusOk ctx.agnus) (hfresh : LineFresh ctx.agnus) :
    (rigelStep ctx n).2.events.frameReady = false ∧ (rigelStep ctx n).2.events.vblank = false := by
  have hbeam := h.beam hok hfresh
  have hagnus : (rigelStepRun ctx n).agnus = (stepClocks ctx n).agnus := by
    rw [rigelStepRun, rigelChipsetStep_agnus, chipsetRun_eq_clocks]
    rfl
  have hframe : (stepEvents ctx (rigelStepRun ctx n)).frameReady = false := by
    simp only [stepEvents, hagnus, hbeam.frame, bne_self_eq_false]
  have hvblank : (stepEvents ctx (rigelStepRun ctx n)).vblank = false := by
    simp only [stepEvents, hagnus, beamInVblank, hbeam.vpos, Bool.not_and_self]
  exact ⟨hframe, hvblank⟩

/-! ## The edges of the step -/

/-- The edges of the sources that no estimate covers: the slots of the clocks, the shift register of the serial port, and the
timers of both CIAs. -/
def openEdges (ctx : RigelContext) (n : UInt64) : List IrqEdge :=
  clocksEdges slotEdges (stepPrologue ctx n.toUInt32) n.toUInt32.toNat ++
    raiseEdges (serialStep ctx.paula.serial n.toUInt32).2 ++
    ciaEdges ctx.ciaA (ciaTimerCauses ctx.ciaA (eclockTicks ctx n.toUInt32).toUInt64) ++
    ciaEdges ctx.ciaB (ciaTimerCauses ctx.ciaB (eclockTicks ctx n.toUInt32).toUInt64)

theorem DiskQuiet.step {d : DiskState} {ticks : UInt32} (h : DiskQuiet ticks.toNat d) : (diskStep d ticks).2 = [] := by
  unfold diskStep
  split
  · rfl
  rename_i hrun
  simp only [Bool.or_eq_true, Bool.not_eq_true', decide_eq_true_eq, beq_iff_eq, not_or, Bool.not_eq_false] at hrun
  obtain ⟨⟨hactive, htotal⟩, hcount⟩ := hrun
  have hzero : d.dmaBytesTotal = 0 := by
    by_contra hne
    exact htotal (UInt32.pos_iff_ne_zero.mpr hne)
  have hgt : d.countdown > ticks := by
    rw [gt_iff_lt, UInt32.lt_iff_toNat_lt]
    exact (h hactive hzero).resolve_left hcount
  rw [if_pos hgt]

/-- A step that stays on its line gives neither TOD a pulse. -/
theorem OnLine.pulses {before : BeamState} {a : RigelAgnus} (h : OnLine before 0 a) :
    vsyncPulses before a.beam = 0 ∧ hsyncPulses before a.beam = 0 := by
  unfold vsyncPulses hsyncPulses beamInVblank
  rw [h.vpos, h.frame]
  refine ⟨?_, ?_⟩
  · rw [Bool.not_and_self, if_neg Bool.false_ne_true]
  · rw [UInt64.sub_self, ite_self]

/-- **Before the deadline the edges of a step are those of the open sources.** -/
theorem BeforeDeadline.edges (h : BeforeDeadline ctx n) (hok : AgnusOk ctx.agnus) (hfresh : LineFresh ctx.agnus) :
    stepEdges ctx n = openEdges ctx n := by
  have hline := h.onLine hok hfresh
  obtain ⟨hvsync, hhsync⟩ := (h.beam hok hfresh).pulses
  obtain ⟨-, hserial, hdisk⟩ := stepPrologue_paula ctx n.toUInt32
  have hports : QuietPorts ctx.paula.serial n.toUInt32.toNat (stepPrologue ctx n.toUInt32).paula := by
    refine ⟨hserial, ?_⟩
    rw [hdisk, h.cycles hok]
    exact h.disk
  have hports : QuietPorts ctx.paula.serial n.toUInt32.toNat (stepClocks ctx n).paula :=
    QuietPorts.clocks n.toUInt32.toNat hports
  have hout := chipsetRun_outside (clearEventLatch ctx) n.toUInt32
  rw [chipsetRun_eq_clocks] at hout
  have hciaA : (stepClocks ctx n).ciaA = ctx.ciaA := hout.ciaA
  have hciaB : (stepClocks ctx n).ciaB = ctx.ciaB := hout.ciaB
  have hticks : eclockTicks (stepClocks ctx n) n.toUInt32 = eclockTicks ctx n.toUInt32 := by
    have hrem : (stepClocks ctx n).ciaEclockRem = ctx.ciaEclockRem := hout.ciaEclockRem
    unfold eclockTicks
    rw [hrem]
  have hnone : ∀ c : CiaState, todCauses c 0 = 0 := fun c => rfl
  have hsame : ∀ c : CiaState, ciaRisen c 0 = c := by
    intro c
    unfold ciaRisen
    rw [UInt8.or_zero]
  have hidle : ∀ c : CiaState, ciaEdges c 0 = [] := fun c => rfl
  have hzero : (0 : UInt64).toUInt32 = 0 := rfl
  unfold stepEdges settleEdges openEdges
  simp only
  rw [hline.edges, hports.disk.step, hports.serial, hvsync, hhsync, hciaA, hciaB, hticks, hzero, hnone, hnone, hsame, hsame,
    hidle, hidle]
  simp only [raiseEdges, List.map_nil, List.nil_append, List.append_nil, List.append_assoc]

/-! ## Soundness -/

/-- The sources that no estimate covers are quiet over a step of `n` clocks: their edges leave the level that Paula shows
where it is, and if a busy blitter draws a line, or the copper sizes a blit in one of the clocks, as many blits start in the
clocks as end. -/
structure SourcesQuiet (ctx : RigelContext) (n : UInt64) : Prop where
  level : LevelStays ctx.paula.interrupts (openEdges ctx n)
  blits : ctx.agnus.blitter.busy = true →
    (ctx.agnus.blitter.cmd.mode = .line ∨ ∃ i < n.toNat, clockSizes (agnusSlotSchedulerStepUntil ctx i) = true) →
    blitStarts ctx n.toNat = blitEnds ctx n.toNat

/-- The step leaves the interrupt level alone and reports none of the events that a host waits for. -/
structure NothingMissed (ctx : RigelContext) (n : UInt64) : Prop where
  ipl : currentIpl (rigelStep ctx n).1 = currentIpl ctx
  irqChanged : (rigelStep ctx n).2.events.irqChanged = false
  blitDone : (rigelStep ctx n).2.events.blitDone = false
  frameReady : (rigelStep ctx n).2.events.frameReady = false
  vblank : (rigelStep ctx n).2.events.vblank = false

/-- A copy that no clock starts anew is covered: it lasts beyond the step. -/
theorem BeforeDeadline.covered (h : BeforeDeadline ctx n) (hvalid : BlitValid ctx.agnus) (hbusy : ctx.agnus.blitter.busy = true)
    (hopen : ¬ (ctx.agnus.blitter.cmd.mode = .line ∨
      ∃ i < n.toNat, clockSizes (agnusSlotSchedulerStepUntil ctx i) = true)) :
    blitStarts ctx n.toNat = blitEnds ctx n.toNat := by
  obtain ⟨hmode, hsizes⟩ := not_or.mp hopen
  have hlasts : BlitLasts (0 + n.toNat) ctx.agnus.blitter := by
    refine ⟨hbusy, hvalid hbusy, ?_⟩
    unfold blitSlotsLeft
    cases hm : ctx.agnus.blitter.cmd.mode with
    | copy =>
      rw [Nat.zero_add]
      exact h.blitter hbusy
    | line => exact absurd hm hmode
  have hend := BlitLasts.clocks n.toNat hlasts fun i hi => by
    rw [← Bool.not_eq_true]
    exact fun hs => hsizes ⟨i, hi, hs⟩
  exact (blit_balance_iff hvalid n.toNat).mp (hend.busy.trans hbusy.symm)

/-- A machine twenty clocks into a blit of 512 words, with the line's end as its deadline. -/
def blitAhead : RigelContext :=
  ([.customWrite 0x096 0x8240, .customWrite 0x058 0x0810, .step 20] : List HostCall).foldl hostCall palMachine

/-- A copper list that enables VERTB, and ends. -/
def enableWords (addr : UInt32) : UInt16 :=
  match addr with
  | 0x1000 => 0x009A
  | 0x1002 => 0x8020
  | 0x1004 => 0xFFFF
  | 0x1006 => 0xFFFE
  | _ => 0

/-- A machine with the VERTB request acknowledged, on which that list is about to run. -/
def enableAhead : RigelContext :=
  ([.writeRam enableWords, .customWrite 0x096 0x8280, .step 20, .customWrite 0x09C 0x0020, .customWrite 0x09A 0xC008,
    .customWrite 0x080 0, .customWrite 0x082 0x1000, .customWrite 0x088 0] : List HostCall).foldl hostCall palMachine

/-- A machine with the PORTS level enabled, in which the CPU has just started CIA-A's timer A with a count of zero. -/
def timerDue : RigelContext :=
  ([.customWrite 0x09A 0xC008, .ciaWrite .portA 0xD 0x81, .ciaWrite .portA 0x4 0, .ciaWrite .portA 0x5 0, .step 20,
    .ciaWrite .portA 0xE 0x01] : List HostCall).foldl hostCall palMachine

end Rigel
