import Rigel.CiaLine

/-!
# AudioIrq — the end of an audio block

`audio_dma_step_slot` offers the mask of a finished block to its interrupt sink. `rigel_chipset_wire` attaches a sink to
the disk and to the serial port, and none to the audio, so the slot that fetches the last word of a block leaves the
interrupt registers as they are.
-/

namespace Rigel

theorem iplFollows_invariant : IrqInvariant (fun _ _ _ => True) (fun _ _ irq => IplFollows irq) where
  raise _ _ _ := trivial
  op {a b irq op} _ _ := by cases op <;> rfl
  ciaA hok h := hok.ipl h
  ciaB hok h := hok.ipl h
  fresh _ := by
    show attachedInterrupts.ipl = interruptComputeIpl attachedInterrupts.intena attachedInterrupts.intreq
    decide

theorem eventAllowed_true (ctx : RigelContext) (e : MachineEvent) : EventAllowed (fun _ _ _ => True) ctx e := by
  unfold EventAllowed ClocksAllowed
  split
  · exact fun _ _ => trivial
  · exact fun _ _ _ _ _ _ _ => trivial
  · exact fun _ _ _ _ _ _ _ _ => trivial
  · exact ⟨trivial, trivial⟩
  · trivial

/-- The states that calls of the host lead to, with those inside a step: after its prologue and after each clock. -/
inductive ClockReachable : RigelContext → Prop
  | create (config : RigelConfig) (ram : ChipRam) : ClockReachable (rigelCreate config ram)
  | call {ctx : RigelContext} (h : ClockReachable ctx) (c : HostCall) : ClockReachable (hostCall ctx c)
  | prologue {ctx : RigelContext} (h : ClockReachable ctx) (cycles : UInt32) : ClockReachable (stepPrologue ctx cycles)
  | clock {ctx : RigelContext} (h : ClockReachable ctx) : ClockReachable (agnusSlotSchedulerStep ctx)

theorem ClockReachable.ofHost {ctx : RigelContext} (h : Reachable ctx) : ClockReachable ctx := by
  induction h with
  | create config ram => exact .create config ram
  | call _ c ih => exact .call ih c

theorem ClockReachable.clocks : ∀ (n : Nat) {ctx : RigelContext}, ClockReachable ctx →
    ClockReachable (agnusSlotSchedulerStepUntil ctx n)
  | 0, _, h => h
  | n + 1, _, h => ClockReachable.clocks n h.clock

theorem ClockReachable.iplFollows {ctx : RigelContext} (h : ClockReachable ctx) : IplFollows ctx.paula.interrupts := by
  induction h with
  | create config ram => exact iplFollows_invariant.fresh _
  | call _ c ih => exact iplFollows_invariant.hostCall ih c (eventAllowed_true _ _)
  | prologue _ cycles ih =>
    simp only [stepPrologue]
    split <;> exact ih
  | @clock ctx _ ih =>
    exact iplFollows_invariant.moves (a := ctx.ciaA) (b := ctx.ciaB) (clock_moves ctx) (fun _ _ => trivial) ih

theorem Reachable.iplFollows {ctx : RigelContext} (h : Reachable ctx) : IplFollows ctx.paula.interrupts :=
  (ClockReachable.ofHost h).iplFollows

/-- The slot of this clock is channel `x`'s and fetches the last word of its block. -/
def AudioBlockEnds (ctx : RigelContext) (x : Fin 4) : Prop :=
  slotOwner (schedulerPrepare ctx) = .audio x ∧
    (audioDmaStepSlot ctx.paula.audio x.val ctx.ram).2 = some (audioIrqBit x.val)

instance (ctx : RigelContext) (x : Fin 4) : Decidable (AudioBlockEnds ctx x) := inferInstanceAs (Decidable (_ ∧ _))

theorem audioIrqBit_vertb (x : Fin 4) : paulaIntVertb &&& 0x7FFF &&& audioIrqBit x.val = 0 := by
  revert x
  decide

/-- A clock whose slot is an audio channel's raises nothing but VERTB. -/
theorem audioClock_bit {ctx : RigelContext} {x : Fin 4} (h : slotOwner (schedulerPrepare ctx) = .audio x) :
    (agnusSlotSchedulerStep ctx).paula.interrupts.intreq &&& audioIrqBit x.val =
      ctx.paula.interrupts.intreq &&& audioIrqBit x.val := by
  have hslot : (schedulerDispatch (schedulerPrepare ctx)).paula.interrupts = ctx.paula.interrupts := by
    unfold schedulerDispatch
    rw [h]
    show (schedulerRestoreDsken (schedulerPrepare ctx)).paula.interrupts = _
    rw [(slotReady ctx).paula]
  unfold agnusSlotSchedulerStep schedulerAdvance schedulerAtVertb
  split
  · have hraise := or_and_of_disjoint ctx.paula.interrupts.intreq (audioIrqBit_vertb x)
    rw [← hslot] at hraise ⊢
    simp only [schedulerVertb, rigelChipsetRaiseIrqSource, interruptRaise, interruptUpdate, (lineStarted _).paula]
    exact hraise
  · rw [(lineStarted _).paula, ← hslot]
    rfl

/-- **The end of an audio block is not delivered.** At every clock of every run, after the slot that fetches the last word
of a block AUDx is set in INTREQ exactly when it was set before. -/
theorem audioIrq_set_iff {ctx : RigelContext} (h : ClockReachable ctx) (x : Fin 4) (hend : AudioBlockEnds ctx x) :
    ((agnusSlotSchedulerStep ctx).paula.interrupts.intreq &&& audioIrqBit x.val ≠ 0 ∧
        IplFollows (agnusSlotSchedulerStep ctx).paula.interrupts) ↔
      ctx.paula.interrupts.intreq &&& audioIrqBit x.val ≠ 0 := by
  have hipl : IplFollows (agnusSlotSchedulerStep ctx).paula.interrupts := h.clock.iplFollows
  rw [audioClock_bit hend.1]
  exact ⟨fun hs => hs.1, fun hs => ⟨hs, hipl⟩⟩

/-- Channel 0 plays blocks of one word, and the beam stands before its slot. -/
def audioMachine (intreq : UInt16) : RigelContext :=
  [HostCall.customWrite 0x0A4 1, .customWrite 0x09C intreq, .customWrite 0x096 0x8201, .step 11].foldl hostCall palMachine

theorem audioMachine_reachable (intreq : UInt16) : Reachable (audioMachine intreq) := palMachine_reachable.calls _

/-- Eleven clocks into a step of twenty, with AUD0 raised by software before it. -/
def audioInStep : RigelContext :=
  agnusSlotSchedulerStepUntil (stepPrologue
    ([HostCall.customWrite 0x0A4 1, .customWrite 0x09C 0x8080, .customWrite 0x096 0x8201].foldl hostCall palMachine) 20) 11

theorem audioInStep_reachable : ClockReachable audioInStep :=
  .clocks 11 (.prologue (.ofHost (palMachine_reachable.calls _)) 20)

/-- The clock in the middle of the step leaves AUD0 as the software set it. -/
theorem audioIrq_set_before :
    (agnusSlotSchedulerStep audioInStep).paula.interrupts.intreq &&& audioIrqBit 0 ≠ 0 :=
  ((audioIrq_set_iff audioInStep_reachable 0 (by decide +kernel)).mpr (by decide +kernel)).1

theorem audioIrq_not_delivered :
    Reachable (audioMachine 0) ∧ AudioBlockEnds (audioMachine 0) 0 ∧
      (agnusSlotSchedulerStep (audioMachine 0)).paula.interrupts.intreq &&& audioIrqBit 0 = 0 :=
  ⟨audioMachine_reachable 0, by decide +kernel, by decide +kernel⟩

end Rigel
