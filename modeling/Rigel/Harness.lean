import Rigel.Reach

/-!
# Harness — a 68000 host around the chipset

The host runs the CPU a timeslice at a time and hands the CPU's cycles over to the chipset, two of them for one colour
clock: before every access of the chipset the cycles run so far, and after the slice whatever the accesses left. The CPU
is not part of the repository. A `Timeslice` is what one call of `m68k_execute` does: the chipset accesses it makes, each
at its `m68k_cycles_run`, and the cycles it returns.

The sinks of the source are function pointers. A field here says whether one is installed, and the lists `cckSteps`,
`executed`, `audioOut` and `serialOut` record, in order, what `rigel_step` was given, what `m68k_execute` returned, and
what the two sinks received.
-/

namespace Rigel

def RigelEvents.or (a b : RigelEvents) : RigelEvents where
  irqChanged := a.irqChanged || b.irqChanged
  frameReady := a.frameReady || b.frameReady
  audioReady := a.audioReady || b.audioReady
  blitDone := a.blitDone || b.blitDone
  copper := a.copper || b.copper
  vblank := a.vblank || b.vblank
  hblank := a.hblank || b.hblank

/-- `harness_t`: the clocks, the sinks and the CPU's watchdog. -/
structure Harness where
  rigel : RigelContext
  /-- What `rigel_get_clock_hz` answers. -/
  clockHz : UInt32
  cpuCyclesTotal : UInt64
  cckRem : UInt32
  cyclesFlushed : Int32
  pendingEvents : RigelEvents
  lastPc : UInt32
  pcStallSteps : UInt32
  lastIpl : UInt8
  serialFn : Bool
  audioFn : Bool
  audioRate : UInt32
  audioStepQ16 : UInt32
  audioAccumQ16 : UInt32
  cckSteps : List UInt64
  executed : List Int32
  audioOut : List (Int16 × Int16)
  serialOut : List UInt8

/-- `harness_create_ex`, around a context. `pc` is the CPU's program counter after its reset. -/
def harnessCreate (rigel : RigelContext) (clockHz pc : UInt32) : Harness where
  rigel := rigel
  clockHz := clockHz
  cpuCyclesTotal := 0
  cckRem := 0
  cyclesFlushed := 0
  pendingEvents := RigelEvents.none
  lastPc := pc
  pcStallSteps := 0
  lastIpl := 0
  serialFn := false
  audioFn := false
  audioRate := 0
  audioStepQ16 := 0
  audioAccumQ16 := 0
  cckSteps := []
  executed := []
  audioOut := []
  serialOut := []

/-! ## The clock integrator -/

def harnessSyncIpl (h : Harness) : Harness :=
  if currentIpl h.rigel = h.lastIpl then h else { h with lastIpl := currentIpl h.rigel }

/-- The loop of `harness_drain_serial`, at most `fuel` bytes of it. -/
def harnessDrainLoop : Nat → Harness → Harness
  | 0, h => h
  | fuel + 1, h =>
    match rigelSerialPopTxByte h.rigel with
    | (_, none) => h
    | (rigel, some byte) => harnessDrainLoop fuel { h with rigel := rigel, serialOut := h.serialOut ++ [byte] }

/-- Every turn takes a byte out of the FIFO, so its count is fuel enough. -/
def harnessDrainSerial (h : Harness) : Harness :=
  if !h.serialFn then h else harnessDrainLoop h.rigel.paula.serial.txFifoCount h

theorem sub_toNat_lt {step accum : UInt32} (h : 0 < step ∧ step ≤ accum) : (accum - step).toNat < accum.toNat := by
  rw [UInt32.toNat_sub_of_le _ _ h.2]
  have hpos : 0 < step.toNat := h.1
  have hle : step.toNat ≤ accum.toNat := h.2
  omega

/-- The loop of `harness_advance_audio`: how many samples it lets out of `accum`, and what stays in it. The caller has
seen to a step that is not 0. -/
def audioSamplesDue (step accum : UInt32) : Nat × UInt32 :=
  if _ : 0 < step ∧ step ≤ accum then
    ((audioSamplesDue step (accum - step)).1 + 1, (audioSamplesDue step (accum - step)).2)
  else (0, accum)
termination_by accum.toNat
decreasing_by all_goals exact sub_toNat_lt ‹_›

def rigelGetAudioSample (ctx : RigelContext) : Int16 × Int16 := (ctx.paula.audio.mixedLeft, ctx.paula.audio.mixedRight)

def harnessAdvanceAudio (h : Harness) (cck : UInt64) : Harness :=
  if !h.audioFn || h.audioStepQ16 == 0 then h
  else
    let due := audioSamplesDue h.audioStepQ16 (h.audioAccumQ16 + (cck <<< 16).toUInt32)
    { h with
      audioAccumQ16 := due.2
      audioOut := h.audioOut ++ List.replicate due.1 (rigelGetAudioSample h.rigel) }

def harnessAbsorb (h : Harness) (events : RigelEvents) : Harness :=
  harnessDrainSerial (harnessSyncIpl { h with pendingEvents := h.pendingEvents.or events })

/-- Where the source calls `rigel_step`. -/
def harnessRigelStep (h : Harness) (cck : UInt64) : Harness :=
  let r := rigelStep h.rigel cck
  harnessAdvanceAudio (harnessAbsorb { h with rigel := r.1, cckSteps := h.cckSteps ++ [cck] } r.2.events) cck

/-- The lines that `harness_flush` and `harness_step` share: `cycles` CPU cycles, and the one carried over, as colour
clocks. -/
def harnessIntegrate (h : Harness) (cycles : UInt64) : Harness :=
  let scaled := h.cckRem.toUInt64 + cycles
  let carried := { h with cckRem := (scaled &&& 1).toUInt32 }
  if scaled / 2 ≠ 0 then harnessRigelStep carried (scaled / 2) else carried

/-- `run` is the answer of `m68k_cycles_run`. -/
def harnessFlush (h : Harness) (run : Int32) : Harness :=
  let delta := run.toInt - h.cyclesFlushed.toInt
  if delta ≤ 0 then h else harnessIntegrate { h with cyclesFlushed := run } delta.toNat.toUInt64

/-! ## The accesses that flush -/

/-- CIA-A answers on the odd lane when A12 is low, CIA-B on the even lane when A13 is low. -/
def harnessCiaLane (addr : UInt32) : Option CiaId :=
  if addr &&& 0x1000 == 0 && addr &&& 1 != 0 then some .portA
  else if addr &&& 0x2000 == 0 && addr &&& 1 == 0 then some .portB
  else none

def harnessCiaReg (addr : UInt32) : UInt8 := ((addr >>> 8) &&& 0x0F).toUInt8

def harnessCiaRead8 (h : Harness) (run : Int32) (addr : UInt32) : Harness × UInt8 :=
  let h := harnessFlush h run
  match harnessCiaLane addr with
  | some id =>
    let r := rigelCiaRead h.rigel id (harnessCiaReg addr)
    (harnessSyncIpl { h with rigel := r.1 }, r.2)
  | none => (h, 0xFF)

def harnessCiaWrite8 (h : Harness) (run : Int32) (addr : UInt32) (value : UInt8) : Harness :=
  let h := harnessFlush h run
  match harnessCiaLane addr with
  | some id => harnessSyncIpl { h with rigel := rigelCiaWrite h.rigel id (harnessCiaReg addr) value }
  | none => harnessSyncIpl h

def harnessCustomRead (h : Harness) (run : Int32) (reg : UInt32) : Harness × UInt16 :=
  let h := harnessFlush h run
  let r := customRegsRead16 h.rigel reg
  ({ h with rigel := r.1 }, r.2)

def harnessCustomWrite (h : Harness) (run : Int32) (reg : UInt32) (value : UInt16) : Harness :=
  let h := harnessFlush h run
  harnessSyncIpl { h with rigel := customRegsWrite16 h.rigel reg value }

/-- An access of the CPU that reaches the chipset. Every wider or narrower one is made of these. -/
inductive ChipsetAccess where
  | ciaRead8 (addr : UInt32)
  | ciaWrite8 (addr : UInt32) (value : UInt8)
  | customRead (reg : UInt32)
  | customWrite (reg : UInt32) (value : UInt16)

def harnessAccess (h : Harness) (run : Int32) : ChipsetAccess → Harness
  | .ciaRead8 addr => (harnessCiaRead8 h run addr).1
  | .ciaWrite8 addr value => harnessCiaWrite8 h run addr value
  | .customRead reg => (harnessCustomRead h run reg).1
  | .customWrite reg value => harnessCustomWrite h run reg value

/-! ## Stepping -/

/-- What one call of `m68k_execute` does: its accesses of the chipset, each with `m68k_cycles_run` at that moment, the
cycles that it returns, and the program counter it stops at. -/
structure Timeslice where
  accesses : List (Int32 × ChipsetAccess)
  returned : Int32
  pc : UInt32

def harnessQuantumCpuCycles (h : Harness) (maxCpuCycles : UInt32) : UInt32 :=
  let now := rigelGetTime h.rigel
  let deadline := rigelGetNextObservableDeadline h.rigel
  let cck := if deadline > now then deadline - now else 1
  let cpu := cck * 2
  let cpu := if h.cckRem ≠ 0 ∧ cpu > 1 then cpu - 1 else cpu
  let cpu := if maxCpuCycles ≠ 0 ∧ cpu > maxCpuCycles.toUInt64 then maxCpuCycles.toUInt64 else cpu
  if cpu ≠ 0 then cpu.toUInt32 else 1

def harnessHaltSteps : UInt32 := 4096

/-- The end of a step: has the CPU moved since the last one? -/
def harnessWatchPc (h : Harness) (pc : UInt32) : Harness :=
  if pc = h.lastPc ∧ !h.pendingEvents.irqChanged then
    if h.pcStallSteps < harnessHaltSteps then { h with pcStallSteps := h.pcStallSteps + 1 } else h
  else { h with pcStallSteps := 0, lastPc := pc }

def harnessRunAccesses (h : Harness) (accesses : List (Int32 × ChipsetAccess)) : Harness :=
  accesses.foldl (fun h a => harnessAccess h a.1 a.2) h

/-- `m68k_execute` and the hand-over of what its accesses left. -/
def harnessExecute (h : Harness) (slice : Timeslice) : Harness :=
  let h := harnessRunAccesses { h with cyclesFlushed := 0 } slice.accesses
  let consumed := if slice.returned < 0 then 0 else slice.returned
  let leftover := consumed.toInt - h.cyclesFlushed.toInt
  let h := if leftover > 0 then harnessIntegrate h leftover.toNat.toUInt64 else h
  { h with
    cpuCyclesTotal := h.cpuCyclesTotal + consumed.toInt.toNat.toUInt64
    executed := h.executed ++ [slice.returned] }

def harnessStep (h : Harness) (maxCpuCycles : UInt32) (m68kExecute : Int32 → Timeslice) : Harness × RigelEvents :=
  let h := { h with pendingEvents := RigelEvents.none }
  let slice := m68kExecute (harnessQuantumCpuCycles h maxCpuCycles).toInt32
  let h := harnessWatchPc (harnessExecute h slice) slice.pc
  ({ h with pendingEvents := RigelEvents.none }, h.pendingEvents)

def harnessCpuHalted (h : Harness) : Bool := h.pcStallSteps ≥ harnessHaltSteps

/-! ## The host's other calls -/

def harnessSetAudioSink (h : Harness) (fn : Bool) (rateHz : UInt32) : Harness :=
  if rateHz = 0 then h
  else
    { h with
      audioFn := fn
      audioRate := rateHz
      audioAccumQ16 := 0
      audioStepQ16 := (((h.clockHz / 2).toUInt64 <<< 16) / rateHz.toUInt64).toUInt32 }

def harnessSetSerialSink (h : Harness) (fn : Bool) : Harness := { h with serialFn := fn }

/-- A call on a harness. `harness_rigel` hands the context out, and `rigel` is any call that the host makes on it. -/
inductive HarnessCall where
  | step (maxCpuCycles : UInt32) (m68kExecute : Int32 → Timeslice)
  | setAudioSink (fn : Bool) (rateHz : UInt32)
  | setSerialSink (fn : Bool)
  | rigel (call : HostCall)

def harnessCall (h : Harness) : HarnessCall → Harness
  | .step maxCpuCycles m68kExecute => (harnessStep h maxCpuCycles m68kExecute).1
  | .setAudioSink fn rateHz => harnessSetAudioSink h fn rateHz
  | .setSerialSink fn => harnessSetSerialSink h fn
  | .rigel call => { h with rigel := hostCall h.rigel call }

end Rigel
