import Rigel.CalmRun
import Rigel.IrqLedger

/-!
# LineClock — colour clocks inside a line

Inside a line the beam raises nothing, so the edges of a clock are those of its slot. The copper reaches neither the serial
port nor DSKLEN, so no slot touches the one or shortens the countdown of the disk: what these settle after the clocks of a
step is what they would have settled before them (`QuietPorts`).
-/

namespace Rigel

/-! ## The beam inside a line -/

/-- `m` clocks leave the beam on its line, and none of them takes it to the VERTB position. -/
structure OnLine (b : BeamState) (m : Nat) (a : RigelAgnus) : Prop where
  ok : AgnusOk a
  started : 0 < m → 0 < a.beam.hpos.toNat
  left : a.beam.hpos.toNat + m < 227
  vpos : a.beam.vpos = b.vpos
  frame : a.beam.frameCount = b.frameCount

variable {b : BeamState} {m : Nat} {ctx : RigelContext}

theorem OnLine.clock (h : OnLine b (m + 1) ctx.agnus) : OnLine b m (agnusSlotSchedulerStep ctx).agnus := by
  have hok := agnusSlotSchedulerStep_ok ctx h.ok
  have hleft := h.left
  cases clock_beam h.ok with
  | right hpos vpos frame =>
    exact ⟨hok, fun _ => by omega, by omega, vpos.trans h.vpos, frame.trans h.frame⟩
  | line last _ _ _ => omega
  | frame last _ _ _ _ => omega

theorem OnLine.clocks : ∀ (k : Nat) {ctx : RigelContext} (_ : OnLine b (m + k) ctx.agnus),
    OnLine b m (agnusSlotSchedulerStepUntil ctx k).agnus
  | 0, _, h => h
  | k + 1, _, h => OnLine.clocks k h.clock

/-- The move of the beam raises nothing inside a line. -/
theorem OnLine.vertb (h : OnLine b (m + 1) ctx.agnus) : vertbEdges ctx = [] := by
  have hpos : 1 < (agnusSlotSchedulerStep ctx).agnus.beam.hpos.toNat := by
    have hstarted := h.started (Nat.succ_pos m)
    have hleft := h.left
    cases clock_beam h.ok with
    | right hpos _ _ => omega
    | line last _ _ _ => omega
    | frame last _ _ _ _ => omega
  unfold vertbEdges
  rw [not_vertb_of_hpos hpos, if_neg Bool.false_ne_true]

/-- **The edges of clocks inside a line** are those of their slots. -/
theorem OnLine.edges {n : Nat} (h : OnLine b n ctx.agnus) :
    clocksEdges (fun c => slotEdges c ++ vertbEdges c) ctx n = clocksEdges slotEdges ctx n := by
  unfold clocksEdges
  refine List.flatMap_congr fun i hi => ?_
  have hlt := List.mem_range.mp hi
  have hline : OnLine b (n - i - 1 + 1) (agnusSlotSchedulerStepUntil ctx i).agnus := by
    apply OnLine.clocks
    have hn : n - i - 1 + 1 + i = n := by omega
    rw [hn]
    exact h
  simp only [hline.vertb, List.append_nil]

/-! ## The ports -/

/-- The serial port is out of the copper's reach. -/
theorem not_serialOwnsReg {reg : UInt32} (hreg : 0x40 ≤ reg) : serialOwnsReg reg = false := by
  by_contra hown
  rw [Bool.not_eq_false, serialOwnsReg, Bool.or_eq_true, Bool.or_eq_true, beq_iff_eq, beq_iff_eq, beq_iff_eq] at hown
  rcases hown with (rfl | rfl) | rfl <;> exact absurd hreg (by decide)

theorem customRegsWrite16_serial (ctx : RigelContext) {reg : UInt32} (hreg : 0x40 ≤ reg) (value : UInt16) :
    (customRegsWrite16 ctx reg value).paula.serial = ctx.paula.serial := by
  have hserial := not_serialOwnsReg hreg
  unfold customRegsWrite16
  split
  · rfl
  · cases rigelCustomDomainForReg reg with
    | agnus =>
      simp only
      unfold rigelAgnusMmioWrite agnusWriteBlitter agnusWriteBeamcon0 rigelPaulaClearIrq
      repeat' split
      all_goals rfl
    | denise => rfl
    | unknown => rfl
    | paula =>
      simp only [paulaWriteReg, hserial]
      repeat' split
      · rfl
      · rfl
      · simp only [paulaWriteDisk, rigelContextWriteReg]
        rw [raiseIrqSources_eq]
      · contradiction
      · rfl
      · rfl

/-- No countdown of the disk ends in `n` clocks. -/
def DiskQuiet (n : Nat) (d : DiskState) : Prop :=
  d.dmaActive = true → d.dmaBytesTotal = 0 → d.countdown = 0 ∨ n < d.countdown.toNat

theorem DiskQuiet.same {n : Nat} {d d' : DiskState} (h : DiskQuiet n d) (hs : SameTransfer d d') : DiskQuiet n d' := by
  intro hactive htotal
  rw [hs.countdown]
  exact h (hs.active ▸ hactive) (hs.total ▸ htotal)

theorem DiskQuiet.grant {n : Nat} {d : DiskState} (h : DiskQuiet n d) (irq : Bool) (mem : ChipRam) :
    DiskQuiet n (diskDmaServiceGrant irq d mem).disk := by
  unfold diskDmaServiceGrant
  simp only
  split
  · exact h
  generalize (if d.dmaSrcOffset + 1 ≥ d.dmaTrackLen then 0 else d.dmaSrcOffset) = src
  obtain ⟨hs, -⟩ := diskMoveWord_counts irq d src (readBe16 d.dmaTrackBuf src.toNat)
  generalize diskMoveWord irq d src (readBe16 d.dmaTrackBuf src.toNat) = moved at hs ⊢
  split
  · have hcount : DiskQuiet n { d with dmaBytesDone := d.dmaBytesDone + 2 } := h
    exact hcount.same hs
  · intro hactive
    exact Bool.noConfusion ((diskFinish_blocks irq moved.1).1.symm.trans hactive)

/-- What settles over `n` clocks leaves no edge of the disk, and that of `serial` for the serial port. -/
structure QuietPorts (serial : SerialState) (n : Nat) (p : RigelPaula) : Prop where
  serial : p.serial = serial
  disk : DiskQuiet n p.disk

variable {serial : SerialState} {n : Nat}

theorem QuietPorts.irqs {ctx : RigelContext} (h : QuietPorts serial n ctx.paula) (masks : List UInt16) :
    QuietPorts serial n (raiseIrqSources ctx masks).paula := by
  rw [raiseIrqSources_eq]
  exact ⟨h.serial, h.disk⟩

theorem QuietPorts.write (h : QuietPorts serial n ctx.paula) {reg : UInt32} (hreg : 0x40 ≤ reg) (value : UInt16) :
    QuietPorts serial n (customRegsWrite16 ctx reg value).paula := by
  refine ⟨(customRegsWrite16_serial ctx hreg value).trans h.serial, ?_⟩
  rw [customRegsWrite16_disk]
  unfold diskAfterWrite
  split
  · refine h.disk.same (diskWriteReg_same _ _ _ ?_).1
    rintro rfl
    exact absurd hreg (by decide)
  · exact h.disk

theorem QuietPorts.slot (h : QuietPorts serial n ctx.paula) :
    QuietPorts serial n (schedulerDispatch (schedulerPrepare ctx)).paula := by
  have hready : QuietPorts serial n (schedulerRestoreDsken (schedulerPrepare ctx)).paula := by
    rw [(slotReady ctx).paula]
    exact h
  unfold schedulerDispatch
  cases slotOwner (schedulerPrepare ctx) with
  | copper =>
    simp only [dispatchSlot]
    rcases copperService_write (schedulerRestoreDsken (schedulerPrepare ctx)) with ⟨-, c, hc⟩ | ⟨reg, value, c, c', -, hreg, hc⟩
    · rw [hc]
      exact hready
    · have hbefore : QuietPorts serial n (copperWriting (schedulerRestoreDsken (schedulerPrepare ctx)) c).paula := hready
      rw [hc]
      exact hbefore.write hreg value
  | disk =>
    simp only [dispatchSlot, diskSlot]
    apply QuietPorts.irqs
    exact ⟨hready.serial, hready.disk.grant _ _⟩
  | blitter =>
    simp only [dispatchSlot, blitterSlot]
    apply QuietPorts.irqs
    exact hready
  | bitplane =>
    simp only [dispatchSlot, bitplaneSlot]
    split <;> exact ⟨hready.serial, hready.disk⟩
  | audio ch => exact ⟨hready.serial, hready.disk⟩
  | _ => exact hready

theorem QuietPorts.clock (h : QuietPorts serial n ctx.paula) : QuietPorts serial n (agnusSlotSchedulerStep ctx).paula := by
  have hslot := h.slot
  have hstarted : (schedulerAtLineStart (schedulerMoveBeam (schedulerDispatch (schedulerPrepare ctx)))).paula =
      (schedulerDispatch (schedulerPrepare ctx)).paula := (lineStarted _).paula
  rw [← hstarted] at hslot
  show QuietPorts serial n
    (schedulerAtVertb (schedulerAtLineStart (schedulerMoveBeam (schedulerDispatch (schedulerPrepare ctx))))).paula
  unfold schedulerAtVertb
  split
  · exact ⟨hslot.serial, hslot.disk⟩
  · exact hslot

/-- **The ports over any clocks.** -/
theorem QuietPorts.clocks : ∀ (k : Nat) {ctx : RigelContext} (_ : QuietPorts serial n ctx.paula),
    QuietPorts serial n (agnusSlotSchedulerStepUntil ctx k).paula
  | 0, _, h => h
  | k + 1, _, h => QuietPorts.clocks k h.clock

end Rigel
