import Rigel.AgnusDma

/-!
# Paula — interrupts, audio, the serial port and the game ports

`chipset/paula` without the disk, and the `domains/` shims over it. Interrupt sinks are return values: a function that
may raise answers the masks it raised, in order, and its caller at the context level delivers them.
-/

namespace Rigel

/-! ## Interrupts -/

def paulaIntTbe : UInt16 := 0x0001
def paulaIntDskblk : UInt16 := 0x0002
def paulaIntSoft : UInt16 := 0x0004
def paulaIntPorts : UInt16 := 0x0008
def paulaIntCoper : UInt16 := 0x0010
def paulaIntVertb : UInt16 := 0x0020
def paulaIntBlit : UInt16 := 0x0040
def paulaIntAud0 : UInt16 := 0x0080
def paulaIntAud1 : UInt16 := 0x0100
def paulaIntAud2 : UInt16 := 0x0200
def paulaIntAud3 : UInt16 := 0x0400
def paulaIntRbf : UInt16 := 0x0800
def paulaIntDsksyn : UInt16 := 0x1000
def paulaIntExter : UInt16 := 0x2000
def paulaIntInten : UInt16 := 0x4000
def paulaIntSetclr : UInt16 := 0x8000

structure PaulaInterrupts where
  intena : UInt16
  intreq : UInt16
  ipl : UInt8
  deriving Repr, DecidableEq

def interruptComputeIpl (intena intreq : UInt16) : UInt8 :=
  let pending := intreq &&& intena
  if intena &&& paulaIntInten = 0 then 0
  else if pending &&& paulaIntExter ≠ 0 then 6
  else if pending &&& (paulaIntDsksyn ||| paulaIntRbf) ≠ 0 then 5
  else if pending &&& (paulaIntAud0 ||| paulaIntAud1 ||| paulaIntAud2 ||| paulaIntAud3) ≠ 0 then 4
  else if pending &&& (paulaIntBlit ||| paulaIntVertb ||| paulaIntCoper) ≠ 0 then 3
  else if pending &&& paulaIntPorts ≠ 0 then 2
  else if pending &&& (paulaIntTbe ||| paulaIntDskblk ||| paulaIntSoft) ≠ 0 then 1
  else 0

/-- Every change of the two registers ends in `rigel_interrupt_domain_update`. -/
def interruptUpdate (intena intreq : UInt16) : PaulaInterrupts := ⟨intena, intreq, interruptComputeIpl intena intreq⟩

def interruptReset : PaulaInterrupts := ⟨0, 0, 0⟩

def interruptWriteIntena (irq : PaulaInterrupts) (value : UInt16) : PaulaInterrupts :=
  interruptUpdate (applySetclr irq.intena value) irq.intreq

def interruptWriteIntreq (irq : PaulaInterrupts) (value : UInt16) : PaulaInterrupts :=
  interruptUpdate irq.intena (applySetclr irq.intreq value)

def interruptRaise (irq : PaulaInterrupts) (mask : UInt16) : PaulaInterrupts :=
  interruptUpdate irq.intena (irq.intreq ||| (mask &&& 0x7FFF))

def interruptClear (irq : PaulaInterrupts) (mask : UInt16) : PaulaInterrupts :=
  interruptUpdate irq.intena (irq.intreq &&& ~~~(mask &&& 0x7FFF))

def interruptOwnsReg (addr : UInt32) : Bool := addr == 0x09A || addr == 0x09C || addr == 0x01C || addr == 0x01E

def interruptReadReg (irq : PaulaInterrupts) (addr : UInt32) : UInt16 :=
  match addr with
  | 0x09A => irq.intena
  | 0x01C => irq.intena
  | 0x09C => irq.intreq
  | 0x01E => irq.intreq
  | _ => 0

def interruptWriteReg (irq : PaulaInterrupts) (addr : UInt32) (value : UInt16) : PaulaInterrupts :=
  match addr with
  | 0x09A => interruptWriteIntena irq value
  | 0x09C => interruptWriteIntreq irq value
  | _ => irq

/-! ## Audio -/

structure AudioChannel where
  audlen : UInt16
  audper : UInt16
  audvol : UInt16
  auddat : UInt16
  audlc : UInt32
  currentPtr : UInt32
  currentLength : UInt16
  periodCounter : UInt16
  currentSample : Int16
  dmaEnabled : Bool
  dataPending : Bool
  pendingLo : UInt8
  hasPendingLo : Bool
  dmaWord : UInt16
  dmaWordReady : Bool
  deriving Repr, DecidableEq

/-- The four channels, by number. -/
structure AudioState where
  ch : Nat → AudioChannel
  mixedLeft : Int16
  mixedRight : Int16
  sampleReady : Bool
  dmacon : UInt16

def paulaAudioChannels : Nat := 4

def AudioChannel.cleared : AudioChannel := ⟨0, 0, 0, 0, 0, 0, 0, 0, 0, false, false, 0, false, 0, false⟩

def audioReset : AudioState := ⟨fun _ => AudioChannel.cleared, 0, 0, false, 0⟩

def audioSetDmacon (a : AudioState) (dmacon : UInt16) : AudioState := { a with dmacon := dmacon }

def audioChannelDmaEnabled (a : AudioState) (channel : Nat) : Bool :=
  a.dmacon &&& ((1 : UInt16) <<< UInt16.ofNat channel) != 0

/-- `(int16_t)((int8_t)byte) << 8`. -/
def audioSampleOfByte (byte : UInt8) : Int16 := byte.toInt8.toInt16 <<< 8

def audioClamp (x : Int32) : Int16 := if x > 32767 then 32767 else if x < -32768 then -32768 else x.toInt16

def audioLevel (ch : AudioChannel) : Int32 := ch.currentSample.toInt32 * ch.audvol.toUInt32.toInt32 / 64

def audioMix (a : AudioState) : AudioState :=
  { a with
    mixedLeft := audioClamp (audioLevel (a.ch 0) + audioLevel (a.ch 3))
    mixedRight := audioClamp (audioLevel (a.ch 1) + audioLevel (a.ch 2)) }

/-- A period has elapsed: the counter reloads and the next sample, if there is one, becomes audible. -/
def audioPeriodElapsed (ch : AudioChannel) : AudioChannel :=
  let ch := { ch with periodCounter := ch.audper }
  if ch.dataPending then
    { ch with currentSample := audioSampleOfByte (ch.auddat >>> 8).toUInt8, dataPending := false }
  else if ch.hasPendingLo then
    { ch with currentSample := audioSampleOfByte ch.pendingLo, hasPendingLo := false }
  else if ch.dmaWordReady then
    { ch with
      currentSample := audioSampleOfByte (ch.dmaWord >>> 8).toUInt8
      pendingLo := (ch.dmaWord &&& 0xFF).toUInt8
      hasPendingLo := true
      dmaWordReady := false }
  else ch

/-- The period loop: the channel, the cycles left, and whether a period elapsed. The counter is never 0 here, so each
pass consumes at least one cycle. -/
def audioPeriodLoop : Nat → AudioChannel → UInt32 → Bool → AudioChannel × UInt32 × Bool
  | 0, ch, remaining, elapsed => (ch, remaining, elapsed)
  | fuel + 1, ch, remaining, elapsed =>
    if remaining ≥ ch.periodCounter.toUInt32 then
      audioPeriodLoop fuel (audioPeriodElapsed ch) (remaining - ch.periodCounter.toUInt32) true
    else (ch, remaining, elapsed)

/-- The channel's defaults for a null period and a null counter. -/
def audioPeriodDefaults (ch : AudioChannel) : AudioChannel :=
  { ch with
    audper := if ch.audper = 0 then 1 else ch.audper
    periodCounter := if ch.periodCounter = 0 then (if ch.audper = 0 then 1 else ch.audper) else ch.periodCounter }

/-- One channel of `audio_step`: the channel, and whether one of its periods elapsed. -/
def audioStepChannel (ch : AudioChannel) (dmaEnabled : Bool) (cycles : UInt32) : AudioChannel × Bool :=
  let ch := { ch with dmaEnabled := dmaEnabled }
  if !ch.dmaEnabled && !ch.dataPending then (ch, false)
  else
    let r := audioPeriodLoop (cycles.toNat + 1) (audioPeriodDefaults ch) cycles false
    ({ r.1 with periodCounter := (r.1.periodCounter.toUInt32 - r.2.1).toUInt16 }, r.2.2)

def audioStep (a : AudioState) (cycles : UInt32) : AudioState :=
  let step (i : Nat) := audioStepChannel (a.ch i) (audioChannelDmaEnabled a i) cycles
  audioMix
    { a with
      ch := fun i => if i < paulaAudioChannels then (step i).1 else a.ch i
      sampleReady := a.sampleReady || (List.range paulaAudioChannels).any fun i => (step i).2 }

def audioIrqBit (channel : Nat) : UInt16 := (0x0080 : UInt16) <<< UInt16.ofNat channel

/-- `audio_dma_step_slot`: the audio state, and the mask it offers to its interrupt sink at the end of a block. -/
def audioDmaStepSlot (a : AudioState) (channel : Nat) (mem : ChipRam) : AudioState × Option UInt16 :=
  if channel ≥ paulaAudioChannels then (a, none)
  else if !audioChannelDmaEnabled a channel || (a.ch channel).dmaWordReady then (a, none)
  else if (a.ch channel).currentLength = 0 ∧ (a.ch channel).audlen = 0 then (a, none)
  else
    let ch := a.ch channel
    let ptr := if ch.currentLength = 0 then ch.audlc else ch.currentPtr
    let length := (if ch.currentLength = 0 then ch.audlen else ch.currentLength) - 1
    let ch := { ch with
      dmaWord := chipRamRead16 mem (ptr &&& ~~~1)
      dmaWordReady := true
      currentPtr := ptr + 2
      currentLength := length }
    ({ a with ch := Function.update a.ch channel ch },
      if length = 0 then some (audioIrqBit channel) else none)

def audioDecodeReg (addr : UInt32) : Option (Nat × UInt32) :=
  if addr < 0x0A0 ∨ addr > 0x0DA then none
  else if (addr - 0x0A0) &&& 0x0F > 0x0A then none
  else some (((addr - 0x0A0) >>> 4).toNat, (addr - 0x0A0) &&& 0x0F)

def audioOwnsReg (addr : UInt32) : Bool := (audioDecodeReg addr).isSome

/-- The six writable registers of a channel, by their offset in the channel's block. -/
def audioWriteChannel (ch : AudioChannel) (offset : UInt32) (value : UInt16) : AudioChannel :=
  match offset with
  | 0x0 => { ch with audlc := (ch.audlc &&& (0x0000FFFF : UInt32)) ||| (value.toUInt32 <<< 16) }
  | 0x2 => { ch with audlc := (ch.audlc &&& 0xFFFF0000) ||| (value &&& 0xFFFE).toUInt32 }
  | 0x4 =>
    { ch with audlen := value, currentLength := if ch.currentLength = 0 then value else ch.currentLength }
  | 0x6 => { ch with audper := if value ≠ 0 then value else 1 }
  | 0x8 => { ch with audvol := if value &&& 0x007F > 64 then 64 else value &&& 0x007F }
  | 0xA => { ch with auddat := value, dataPending := true }
  | _ => ch

def audioWriteReg (a : AudioState) (addr : UInt32) (value : UInt16) : AudioState :=
  match audioDecodeReg addr with
  | none => a
  | some (channel, offset) =>
    { a with ch := Function.update a.ch channel (audioWriteChannel (a.ch channel) offset value) }

def audioChannelPending (a : AudioState) (i : Nat) : Bool :=
  audioChannelDmaEnabled a i || (a.ch i).dataPending || (a.ch i).hasPendingLo || (a.ch i).dmaWordReady

def audioChannelNext (ch : AudioChannel) : UInt32 :=
  if ch.periodCounter = 0 then (if ch.audper ≠ 0 then ch.audper.toUInt32 else 1) else ch.periodCounter.toUInt32

def audioCyclesToNextEvent (a : AudioState) : UInt32 :=
  (List.range paulaAudioChannels).foldl
    (fun m i => if audioChannelPending a i ∧ audioChannelNext (a.ch i) < m then audioChannelNext (a.ch i) else m)
    0xFFFFFFFF

/-! ## Serial port -/

def serialTxFifoSize : Nat := 16

structure SerialState where
  serper : UInt16
  txBuffer : UInt16
  txBufferValid : Bool
  txShiftReg : UInt16
  txShiftBusy : Bool
  txCyclesRemaining : UInt32
  rxBuffer : UInt16
  rxBufferFull : Bool
  overrun : Bool
  rxdLevel : Bool
  txInstant : Bool
  txFifo : Nat → UInt8
  txFifoHead : Nat
  txFifoTail : Nat
  txFifoCount : Nat
  txOverflow : Bool

/-- `serial_reset`. The bytes of the FIFO stay; its indices do not. -/
def serialReset (s : SerialState) : SerialState :=
  { s with
    serper := 0
    txBuffer := 0
    txBufferValid := false
    txShiftReg := 0
    txShiftBusy := false
    txCyclesRemaining := 0
    rxBuffer := 0
    rxBufferFull := false
    overrun := false
    rxdLevel := true
    txInstant := false
    txFifoHead := 0
    txFifoTail := 0
    txFifoCount := 0
    txOverflow := false }

def serialFrameCycles (s : SerialState) : UInt32 := 10 * ((s.serper &&& 0x7FFF).toUInt32 + 1)

def serialQueueTxByte (s : SerialState) (word : UInt16) : SerialState :=
  if s.txFifoCount ≥ serialTxFifoSize then { s with txOverflow := true }
  else
    { s with
      txFifo := Function.update s.txFifo s.txFifoTail (word &&& 0xFF).toUInt8
      txFifoTail := (s.txFifoTail + 1) % serialTxFifoSize
      txFifoCount := s.txFifoCount + 1 }

def serialStartTxShift (s : SerialState) : SerialState × List UInt16 :=
  if !s.txBufferValid || s.txShiftBusy then (s, [])
  else
    let s := { s with
      txShiftReg := s.txBuffer
      txShiftBusy := true
      txCyclesRemaining := serialFrameCycles s
      txBufferValid := false }
    (if s.txInstant then serialQueueTxByte s s.txShiftReg else s, [paulaIntTbe])

def serialWriteSerdat (s : SerialState) (value : UInt16) : SerialState × List UInt16 :=
  if s.txInstant then (serialQueueTxByte s value, [paulaIntTbe])
  else
    let s := { s with txBuffer := value, txBufferValid := true }
    if !s.txShiftBusy then serialStartTxShift s else (s, [])

def serialReadSerdatr (s : SerialState) : UInt16 :=
  (s.rxBuffer &&& 0x03FF) ||| (if s.overrun then 0x8000 else 0) ||| (if s.rxBufferFull then 0x4000 else 0) |||
    (if s.txBufferValid then 0 else 0x2000) ||| (if s.txShiftBusy then 0 else 0x1000) |||
    (if s.rxdLevel then 0x0800 else 0)

/-- The shifted word is complete. -/
def serialShiftDone (s : SerialState) : SerialState :=
  let done := { s with txCyclesRemaining := 0, txShiftBusy := false, txShiftReg := 0 }
  if done.txInstant then done else serialQueueTxByte done s.txShiftReg

def serialStep (s : SerialState) (cycles : UInt32) : SerialState × List UInt16 :=
  if !s.txShiftBusy then serialStartTxShift s
  else if cycles < s.txCyclesRemaining then ({ s with txCyclesRemaining := s.txCyclesRemaining - cycles }, [])
  else serialStartTxShift (serialShiftDone s)

def serialReceiveByte (s : SerialState) (byte : UInt8) : SerialState × List UInt16 :=
  ({ s with
      overrun := s.overrun || s.rxBufferFull
      rxBuffer := byte.toUInt16 ||| (0x0100 : UInt16)
      rxBufferFull := true
      rxdLevel := true }, [paulaIntRbf])

def serialClearRbf (s : SerialState) : SerialState := { s with rxBufferFull := false, rxBuffer := 0, overrun := false }

def serialPopTxByte (s : SerialState) : SerialState × Option UInt8 :=
  if s.txFifoCount = 0 then (s, none)
  else
    ({ s with txFifoHead := (s.txFifoHead + 1) % serialTxFifoSize, txFifoCount := s.txFifoCount - 1 },
      some (s.txFifo s.txFifoHead))

def serialSetTxInstant (s : SerialState) (enabled : Bool) : SerialState := { s with txInstant := enabled }

def serialOwnsReg (addr : UInt32) : Bool := addr == 0x018 || addr == 0x030 || addr == 0x032

/-- A read of SERDATR clears the receive buffer. -/
def serialReadReg (s : SerialState) (addr : UInt32) : SerialState × UInt16 :=
  if addr = 0x018 then (serialClearRbf s, serialReadSerdatr s) else (s, 0)

def serialWriteReg (s : SerialState) (addr : UInt32) (value : UInt16) : SerialState × List UInt16 :=
  match addr with
  | 0x030 => serialWriteSerdat s value
  | 0x032 => ({ s with serper := value }, [])
  | _ => (s, [])

/-! ## Game ports -/

structure InputState where
  potgo : UInt16
  joydat : Nat → UInt16
  potButtonX : Nat → Bool
  potButtonY : Nat → Bool

def inputReset : InputState := ⟨0xFFFF, fun _ => 0, fun _ => false, fun _ => false⟩

def inputReadJoydat (s : InputState) (port : Nat) : UInt16 := if port > 1 then 0 else s.joydat port

/-- A port's POTxDAT: a pressed button pulls its byte low while its output-enable bit is clear. -/
def inputReadPotdat (s : InputState) (port : Nat) : UInt16 :=
  if port > 1 then 0xFFFF
  else
    let maskX : UInt16 := if port = 0 then 0x0200 else 0x2000
    let maskY : UInt16 := if port = 0 then 0x0800 else 0x8000
    (if s.potgo &&& maskX = 0 ∧ s.potButtonX port then 0xFF00 else 0xFFFF) &&&
      (if s.potgo &&& maskY = 0 ∧ s.potButtonY port then 0x00FF else 0xFFFF)

/-- One button's bit of POTGOR: pulled low when both its direction and its data bit are set and it is pressed. -/
def potgorBit (potgo dir data : UInt16) (pressed : Bool) : UInt16 :=
  if potgo &&& dir ≠ 0 ∧ potgo &&& data ≠ 0 ∧ pressed then ~~~data else 0xFFFF

def inputReadPotgor (s : InputState) : UInt16 :=
  0xFF00 &&& potgorBit s.potgo 0x0200 0x0100 (s.potButtonX 0) &&& potgorBit s.potgo 0x0800 0x0400 (s.potButtonY 0) &&&
    potgorBit s.potgo 0x2000 0x1000 (s.potButtonX 1) &&& potgorBit s.potgo 0x8000 0x4000 (s.potButtonY 1)

def inputSetJoydat (s : InputState) (port : Nat) (value : UInt16) : InputState :=
  if port > 1 then s else { s with joydat := Function.update s.joydat port value }

def inputSetPotButtonX (s : InputState) (port : Nat) (pressed : Bool) : InputState :=
  if port > 1 then s else { s with potButtonX := Function.update s.potButtonX port pressed }

def inputSetPotButtonY (s : InputState) (port : Nat) (pressed : Bool) : InputState :=
  if port > 1 then s else { s with potButtonY := Function.update s.potButtonY port pressed }

def inputOwnsReg (addr : UInt32) : Bool :=
  addr == 0x00A || addr == 0x00C || addr == 0x012 || addr == 0x014 || addr == 0x016 || addr == 0x034

def inputReadReg (s : InputState) (addr : UInt32) : UInt16 :=
  match addr with
  | 0x00A => inputReadJoydat s 0
  | 0x00C => inputReadJoydat s 1
  | 0x012 => inputReadPotdat s 0
  | 0x014 => inputReadPotdat s 1
  | 0x016 => inputReadPotgor s
  | _ => 0

def inputWriteReg (s : InputState) (addr : UInt32) (value : UInt16) : InputState :=
  if addr = 0x034 then { s with potgo := value } else s

end Rigel
