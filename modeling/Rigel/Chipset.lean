import Rigel.Scheduler

/-!
# Chipset — stepping a context, its deadlines and its bus state

`chipset/chipset.c` and `core/rigel.c`. A step advances Agnus clock by clock and then settles Paula, both TOD counters
and both CIAs once, from what the beam looked like before and after. The events of a step are reconstructed from the
same before and after samples.
-/

namespace Rigel

/-! ## `rigel_chipset_step` -/

def rigelPaulaSetDmacon (ctx : RigelContext) (dmacon : UInt16) : RigelContext :=
  { ctx with paula := { ctx.paula with audio := audioSetDmacon ctx.paula.audio dmacon } }

def paulaStepAudio (ctx : RigelContext) (ticks : UInt32) : RigelContext :=
  { ctx with paula := { ctx.paula with audio := audioStep ctx.paula.audio ticks } }

def paulaStepDisk (ctx : RigelContext) (ticks : UInt32) : RigelContext :=
  raiseIrqSources { ctx with paula := { ctx.paula with disk := (diskStep ctx.paula.disk ticks).1 } }
    (diskStep ctx.paula.disk ticks).2

def paulaStepSerial (ctx : RigelContext) (ticks : UInt32) : RigelContext :=
  raiseIrqSources { ctx with paula := { ctx.paula with serial := (serialStep ctx.paula.serial ticks).1 } }
    (serialStep ctx.paula.serial ticks).2

def rigelPaulaStep (ctx : RigelContext) (ticks : UInt32) : RigelContext :=
  paulaStepSerial (paulaStepDisk (paulaStepAudio ctx ticks) ticks) ticks

/-- An operation of CIA-A, with the interrupt registers it is wired to. -/
def onCiaA (f : CiaBus → CiaBus) (ctx : RigelContext) : RigelContext :=
  let b := f ⟨ctx.ciaA, ctx.paula.interrupts⟩
  { ctx with ciaA := b.cia, paula := { ctx.paula with interrupts := b.irq } }

def onCiaB (f : CiaBus → CiaBus) (ctx : RigelContext) : RigelContext :=
  let b := f ⟨ctx.ciaB, ctx.paula.interrupts⟩
  { ctx with ciaB := b.cia, paula := { ctx.paula with interrupts := b.irq } }

/-- The pulses that CIA-A's TOD gets from one step. -/
def vsyncPulses (before after : BeamState) : UInt32 := if !beamInVblank before && beamInVblank after then 1 else 0

/-- The pulses that CIA-B's TOD gets from one step, before the truncation to 32 bits: the difference of the line
counts, with the frame length sampled before the step. -/
def hsyncPulses (before after : BeamState) : UInt64 :=
  if before.frameLines = 0 then 0
  else
    (after.frameCount * before.frameLines.toUInt64 + after.vpos.toUInt64) -
      (before.frameCount * before.frameLines.toUInt64 + before.vpos.toUInt64)

def chipsetTodA (before : BeamState) (ctx : RigelContext) : RigelContext :=
  onCiaA (fun b => ciaTodPulse b (vsyncPulses before ctx.agnus.beam)) ctx

def chipsetTodB (before : BeamState) (ctx : RigelContext) : RigelContext :=
  onCiaB (fun b => ciaTodPulse b (hsyncPulses before ctx.agnus.beam).toUInt32) ctx

def ciaCckPerEclock : UInt32 := 5

/-- The E-clock ticks that a step of `cycles` delivers to each CIA. -/
def eclockTicks (ctx : RigelContext) (cycles : UInt32) : UInt32 := (ctx.ciaEclockRem + cycles) / ciaCckPerEclock

/-- The E-clock ticks of a step, both CIAs in turn. -/
def chipsetEclock (ctx : RigelContext) (cycles : UInt32) : RigelContext :=
  let ticks := eclockTicks ctx cycles
  let ctx := { ctx with ciaEclockRem := (ctx.ciaEclockRem + cycles) % ciaCckPerEclock }
  if ticks > 0 then
    onCiaB (fun b => ciaStep b ticks.toUInt64) (onCiaA (fun b => ciaStep b ticks.toUInt64) ctx)
  else ctx

/-- The part of a step that the beam drives. -/
def chipsetRun (ctx : RigelContext) (cycles : UInt32) : RigelContext :=
  rigelAgnusStep
    (rigelPaulaSetDmacon { ctx with cycles := ctx.cycles + cycles.toUInt64 } ctx.agnus.dma.dmacon) cycles

/-- The part of a step that settles once, after the beam. -/
def chipsetSettle (before : BeamState) (ctx : RigelContext) (cycles : UInt32) : RigelContext :=
  chipsetEclock (chipsetTodB before (chipsetTodA before (rigelPaulaStep ctx cycles))) cycles

def rigelChipsetStep (ctx : RigelContext) (cycles : UInt32) : RigelContext :=
  chipsetSettle ctx.agnus.beam (chipsetRun ctx cycles) cycles

/-! ## `rigel_step` -/

/-- The event bits that `rigel_step` can report. -/
structure RigelEvents where
  irqChanged : Bool
  frameReady : Bool
  audioReady : Bool
  blitDone : Bool
  copper : Bool
  vblank : Bool
  hblank : Bool
  deriving Repr, DecidableEq

def RigelEvents.none : RigelEvents := ⟨false, false, false, false, false, false, false⟩

structure RigelStepResult where
  time : UInt64
  events : RigelEvents
  deriving Repr, DecidableEq

def currentIpl (ctx : RigelContext) : UInt8 := ctx.paula.interrupts.ipl

/-- The events read off a context before and after its step. -/
def stepEvents (before after : RigelContext) : RigelEvents where
  irqChanged := currentIpl after != currentIpl before
  blitDone := blitterIsBusy before.agnus.blitter && !blitterIsBusy after.agnus.blitter
  copper := after.agnus.copper.eventLatched
  frameReady := after.agnus.beam.frameCount != before.agnus.beam.frameCount
  hblank := after.agnus.beam.vpos != before.agnus.beam.vpos ||
    after.agnus.beam.frameCount != before.agnus.beam.frameCount
  vblank := !beamInVblank before.agnus.beam && beamInVblank after.agnus.beam
  audioReady := after.paula.audio.sampleReady

def clearEventLatch (ctx : RigelContext) : RigelContext :=
  setCopper ctx { ctx.agnus.copper with eventLatched := false }

/-- The chipset step of `rigel_step`, between the cleared latch and the report. -/
def rigelStepRun (ctx : RigelContext) (cycles : UInt64) : RigelContext :=
  rigelChipsetStep (clearEventLatch ctx) cycles.toUInt32

def clearSampleReady (ctx : RigelContext) : RigelContext :=
  { ctx with paula := { ctx.paula with audio := { ctx.paula.audio with sampleReady := false } } }

def rigelStep (ctx : RigelContext) (cycles : UInt64) : RigelContext × RigelStepResult :=
  let after := rigelStepRun ctx cycles
  (clearSampleReady after, ⟨after.cycles, stepEvents ctx after⟩)

def rigelGetTime (ctx : RigelContext) : UInt64 := ctx.cycles

def rigelStepUntil (ctx : RigelContext) (target : UInt64) : RigelContext × RigelStepResult :=
  if target ≤ ctx.cycles then (ctx, ⟨ctx.cycles, RigelEvents.none⟩) else rigelStep ctx (target - ctx.cycles)

/-! ## Deadlines -/

/-- `agnus_deadlines_t`: cycles to each subsystem's next event. -/
structure AgnusDeadlines where
  blitter : UInt32
  beamLineEnd : UInt32
  vertb : UInt32
  copperWait : UInt32
  audio : UInt32
  disk : UInt32
  slot : UInt32
  deriving Repr, DecidableEq

def agnusDeadlineUnknown : UInt32 := 0xFFFFFFFF

def minDeadline (m d : UInt32) : UInt32 := if d < m then d else m

def agnusDeadlinesMin (d : AgnusDeadlines) : UInt32 :=
  [d.blitter, d.beamLineEnd, d.vertb, d.copperWait, d.audio, d.disk, d.slot].foldl minDeadline agnusDeadlineUnknown

def lineEndDeadline (b : BeamState) : UInt32 :=
  (if beamCyclesUntilLineEnd b = 0 then beamDefaultLineClocks else beamCyclesUntilLineEnd b).toUInt32

def contextDeadlines (ctx : RigelContext) (includeInternalSlot : Bool) : AgnusDeadlines where
  blitter := if blitterIsBusy ctx.agnus.blitter then ctx.agnus.blitter.cyclesRemaining else agnusDeadlineUnknown
  beamLineEnd := lineEndDeadline ctx.agnus.beam
  vertb := agnusCyclesToVertb ctx.agnus.beam
  copperWait := rigelCopperDomainCyclesToWait ctx.agnus.copper ctx.agnus.beam
  audio := audioCyclesToNextEvent ctx.paula.audio
  disk := diskCyclesToNextEvent ctx.paula.disk
  slot := if includeInternalSlot then agnusSlotSchedulerNextEvent ctx.agnus.scheduler ctx.agnus.beam.lineClocks
    else agnusDeadlineUnknown

def rigelGetDeadline (ctx : RigelContext) (includeInternalSlot : Bool) : UInt64 :=
  ctx.cycles + (agnusDeadlinesMin (contextDeadlines ctx includeInternalSlot)).toUInt64

def rigelGetNextDeadline (ctx : RigelContext) : UInt64 := rigelGetDeadline ctx true
def rigelGetNextObservableDeadline (ctx : RigelContext) : UInt64 := rigelGetDeadline ctx false

/-! ## Bus observation -/

inductive RigelBusOwner where
  | none
  | cpu
  | refresh
  | bitplane
  | sprite
  | copper
  | blitter
  | audio
  | disk
  | cia
  | custom
  deriving Repr, DecidableEq

def slotToBusOwner : SlotOwner → RigelBusOwner
  | .refresh => .refresh
  | .disk => .disk
  | .audio _ => .audio
  | .sprite _ => .sprite
  | .bitplane => .bitplane
  | .copper => .copper
  | .blitter => .blitter
  | .free => .cpu
  | .cpu => .cpu

def rigelBusDmaNone : UInt32 := 0
def rigelBusDmaBlitter : UInt32 := 0x10

structure RigelBusState where
  time : UInt64
  owner : RigelBusOwner
  activeDma : UInt32
  cpuCanAccessChipRam : Bool
  cpuCanAccessCustom : Bool
  cpuWouldStall : Bool
  nextChange : UInt64
  deriving Repr, DecidableEq

/-- `rigel_get_bus_state`: a busy blitter is the owner whatever the slot, and only BLTPRI makes it stall the CPU. -/
def rigelGetBusState (ctx : RigelContext) : RigelBusState :=
  let sched := ctx.agnus.scheduler
  let lineClocks := ctx.agnus.beam.lineClocks
  if blitterIsBusy ctx.agnus.blitter then
    let stall := ctx.agnus.dma.dmacon &&& dmaconBltpri != 0
    { time := ctx.cycles
      owner := .blitter
      activeDma := rigelBusDmaNone ||| rigelBusDmaBlitter
      cpuCanAccessChipRam := !stall
      cpuCanAccessCustom := true
      cpuWouldStall := stall
      nextChange := ctx.cycles + ctx.agnus.blitter.cyclesRemaining.toUInt64 }
  else
    let stall := agnusSlotSchedulerCpuStall sched
    { time := ctx.cycles
      owner := slotToBusOwner (agnusSlotSchedulerCurrentOwner sched)
      activeDma := rigelBusDmaNone
      cpuCanAccessChipRam := !stall
      cpuCanAccessCustom := true
      cpuWouldStall := stall
      nextChange := ctx.cycles +
        (if stall then agnusSlotSchedulerCpuResumeIn sched lineClocks
          else agnusSlotSchedulerNextEvent sched lineClocks).toUInt64 }

def rigelGetNextBusChange (ctx : RigelContext) : UInt64 := (rigelGetBusState ctx).nextChange

/-- `rigel_cpu_would_stall`: busy with BLTPRI, or the scheduler's own answer. -/
def rigelCpuWouldStall (ctx : RigelContext) : Bool :=
  blitterIsBusy ctx.agnus.blitter && ctx.agnus.dma.dmacon &&& dmaconBltpri != 0 ||
    agnusSlotSchedulerCpuStall ctx.agnus.scheduler

def rigelCpuCanAccessChipRam (ctx : RigelContext) : Bool := !rigelCpuWouldStall ctx

def rigelGetCpuResumeTime (ctx : RigelContext) : UInt64 :=
  if (rigelGetBusState ctx).cpuWouldStall then (rigelGetBusState ctx).nextChange else (rigelGetBusState ctx).time

/-! ## The host's other calls -/

structure RigelSnapshot where
  cycles : UInt64
  intreq : UInt16
  intena : UInt16
  deriving Repr, DecidableEq

def rigelTakeSnapshot (ctx : RigelContext) : RigelSnapshot :=
  ⟨ctx.cycles, ctx.paula.interrupts.intreq, ctx.paula.interrupts.intena⟩

/-- `rigel_load_state`: the snapshot's interrupt bits are set, none is cleared. -/
def rigelLoadState (ctx : RigelContext) (s : RigelSnapshot) : RigelContext :=
  let irq := interruptWriteIntreq (interruptWriteIntena ctx.paula.interrupts (paulaIntSetclr ||| s.intena))
    (paulaIntSetclr ||| s.intreq)
  { ctx with
    cycles := s.cycles
    paula := { ctx.paula with interrupts := irq }
    customRegs := customRegsStore (customRegsStore ctx.customRegs regIntena irq.intena) regIntreq irq.intreq }

def rigelSetCycleExact (ctx : RigelContext) (on : Bool) : RigelContext :=
  { ctx with
    config := { ctx.config with cycleExact := on }
    agnus := { ctx.agnus with blitter := { ctx.agnus.blitter with cycleExact := on } } }

/-- The drive that the first asserted select line names, and how many are asserted. -/
def selectedDrive (sel : Nat → Bool) : Nat × Nat :=
  (((List.range floppyDriveCount).find? sel).getD 0, ((List.range floppyDriveCount).filter sel).length)

/-- /SELx of CIA-B's port B, active low. -/
def prbSelects (prb : UInt8) (i : Nat) : Bool := prb &&& ((0x08 : UInt8) <<< UInt8.ofNat i) == 0

/-- CIA-A's external lines with the status of the active drive on the four disk bits. -/
def driveStatusLines (pra : UInt8) (motorOn : Bool) (count : Nat) (d : FloppyDrive) : UInt8 :=
  let pull (low : Bool) (mask v : UInt8) : UInt8 := if low then v &&& ~~~mask else v
  if count = 1 then
    let idmode := !motorOn && d.idCount ≥ 0 && d.idCount < 32
    pull (if idmode then !floppyGetIdbit d else floppyGetReady d) 0x20
      (pull (floppyGetTrack0 d) 0x10 (pull (!floppyGetWpro d) 0x08 (pull (!floppyGetDskchg d) 0x04 (pra ||| 0x3C))))
  else pra ||| 0x3C

/-- What both routings do once the select lines are known. -/
def routeDrive (ctx : RigelContext) (sel : Nat → Bool) : RigelContext :=
  let prb := ciaPortBValue ctx.ciaB
  let active := selectedDrive sel
  { ctx with
    paula := { ctx.paula with disk := { ctx.paula.disk with drive := active.1 } }
    ciaA := ciaSetExternalPra ctx.ciaA
      (driveStatusLines (ciaPortAValue ctx.ciaA) (prb &&& 0x80 == 0) active.2 (ctx.floppy active.1)) }

/-- After an insert or an eject: the select lines as they are, connected drive or not. -/
def rigelSyncFloppyCiaLines (ctx : RigelContext) : RigelContext :=
  routeDrive ctx (prbSelects (ciaPortBValue ctx.ciaB))

/-- The signals that CIA-B's port B sends to drive `i`. -/
def floppySignals (prb : UInt8) (connected : Bool) (i : Nat) : FloppySignals :=
  let selected := connected && prbSelects prb i
  { selected := selected
    motor := selected && prb &&& 0x80 == 0
    step := prb &&& 0x01 == 0
    direction := prb &&& 0x02 != 0
    side := prb &&& 0x04 == 0 }

/-- Every drive sees the lines of port B. -/
def floppyStepAll (floppy : Nat → FloppyDrive) (prb : UInt8) (i : Nat) : FloppyDrive :=
  if i < floppyDriveCount then floppyStep (floppy i) (floppySignals prb (floppy i).connected i) else floppy i

/-- After a write to CIA-B's port B: the drives move, then the routing over the connected ones. -/
def ciaBPrbUpdateFloppy (ctx : RigelContext) : RigelContext :=
  let prb := ciaPortBValue ctx.ciaB
  let stepped := { ctx with floppy := floppyStepAll ctx.floppy prb }
  routeDrive stepped fun i => prbSelects prb i && (stepped.floppy i).connected

def rigelCiaRead (ctx : RigelContext) (id : CiaId) (reg : UInt8) : RigelContext × UInt8 :=
  match id with
  | .portA => (onCiaA (fun b => (ciaReadReg b reg).1) ctx, (ciaReadReg ⟨ctx.ciaA, ctx.paula.interrupts⟩ reg).2)
  | .portB => (onCiaB (fun b => (ciaReadReg b reg).1) ctx, (ciaReadReg ⟨ctx.ciaB, ctx.paula.interrupts⟩ reg).2)

def rigelCiaWrite (ctx : RigelContext) (id : CiaId) (reg value : UInt8) : RigelContext :=
  match id with
  | .portA => onCiaA (fun b => ciaWriteReg b reg value) ctx
  | .portB =>
    let ctx := onCiaB (fun b => ciaWriteReg b reg value) ctx
    if reg = 0x1 ∨ reg = 0x3 then ciaBPrbUpdateFloppy ctx else ctx

def rigelKeyboardInject (ctx : RigelContext) (keycode : UInt8) (pressed : Bool) : RigelContext :=
  onCiaA (fun b => ciaSerialReceiveByte b (~~~((keycode <<< 1) ||| (if pressed then 0 else 1)))) ctx

def rigelInputSetJoydat (ctx : RigelContext) (port : Nat) (value : UInt16) : RigelContext :=
  { ctx with paula := { ctx.paula with input := inputSetJoydat ctx.paula.input port value } }

def rigelInputSetPotButtonX (ctx : RigelContext) (port : Nat) (pressed : Bool) : RigelContext :=
  { ctx with paula := { ctx.paula with input := inputSetPotButtonX ctx.paula.input port pressed } }

def rigelInputSetPotButtonY (ctx : RigelContext) (port : Nat) (pressed : Bool) : RigelContext :=
  { ctx with paula := { ctx.paula with input := inputSetPotButtonY ctx.paula.input port pressed } }

def rigelInputSetFire (ctx : RigelContext) (port : Nat) (pressed : Bool) : RigelContext :=
  if port > 1 then ctx
  else
    let mask : UInt8 := if port = 0 then 0x40 else 0x80
    let pra := ciaPortAValue ctx.ciaA
    { ctx with ciaA := ciaSetExternalPra ctx.ciaA (if pressed then pra &&& ~~~mask else pra ||| mask) }

/-- `rigel_floppy_insert`: no data, no size or no such drive is an error that changes nothing. -/
def rigelFloppyInsert (ctx : RigelContext) (drive : Nat) (data : Option (Nat → UInt8)) (size : UInt32) : RigelContext :=
  if data.isNone ∨ size = 0 ∨ drive ≥ floppyDriveCount then ctx
  else
    rigelSyncFloppyCiaLines
      { ctx with floppy := Function.update ctx.floppy drive (floppyInsert (ctx.floppy drive) data size) }

def rigelFloppyEject (ctx : RigelContext) (drive : Nat) : RigelContext :=
  if drive ≥ floppyDriveCount then ctx
  else
    rigelSyncFloppyCiaLines
      { ctx with floppy := Function.update ctx.floppy drive (floppyEject (ctx.floppy drive)) }

def rigelSerialReceiveByte (ctx : RigelContext) (byte : UInt8) : RigelContext :=
  raiseIrqSources { ctx with paula := { ctx.paula with serial := (serialReceiveByte ctx.paula.serial byte).1 } }
    (serialReceiveByte ctx.paula.serial byte).2

def rigelSerialPopTxByte (ctx : RigelContext) : RigelContext × Option UInt8 :=
  ({ ctx with paula := { ctx.paula with serial := (serialPopTxByte ctx.paula.serial).1 } },
    (serialPopTxByte ctx.paula.serial).2)

def rigelSerialSetTxInstant (ctx : RigelContext) (enabled : Bool) : RigelContext :=
  { ctx with paula := { ctx.paula with serial := serialSetTxInstant ctx.paula.serial enabled } }

/-- The host (or its CPU) stores into chip memory. -/
def hostWriteRam (ctx : RigelContext) (words : UInt32 → UInt16) : RigelContext :=
  { ctx with ram := { ctx.ram with words := words } }

end Rigel
