import Mathlib.Logic.Function.Iterate
import Rigel.Paula

/-!
# Cia — the two 8520s

`cia/*.c`: parallel ports, the interrupt control register, both timers, the serial shifter and the time-of-day counter.
A CIA is wired to Paula: whenever its interrupt state may have changed it raises or clears its own bit of INTREQ, so
every function that can do so works on the pair `CiaBus`.
-/

namespace Rigel

inductive CiaId where
  | portA
  | portB
  deriving Repr, DecidableEq

structure CiaTodState where
  counter : UInt32
  alarm : UInt32
  latch : UInt32
  latched : Bool
  stopped : Bool
  subticks : UInt32
  ticksPerInc : UInt32
  deriving Repr, DecidableEq

structure CiaState where
  id : CiaId
  pra : UInt8
  prb : UInt8
  ddra : UInt8
  ddrb : UInt8
  extPra : UInt8
  extPrb : UInt8
  sdr : UInt8
  sdrFull : Bool
  spInputLevel : Bool
  spOutputLevel : Bool
  cntOutputLevel : Bool
  serialInShift : UInt8
  serialInBits : UInt8
  serialOutShift : UInt8
  serialOutBits : UInt8
  serialOutBusy : Bool
  serialOutBuffer : UInt8
  serialOutBufferFull : Bool
  icrMask : UInt8
  icrData : UInt8
  cra : UInt8
  crb : UInt8
  taLatch : UInt16
  taCounter : UInt16
  tbLatch : UInt16
  tbCounter : UInt16
  pbTimerOut : UInt8
  pbPulseMask : UInt8
  cntLevel : Bool
  flagLevel : Bool
  tod : CiaTodState
  irqLevel : UInt8
  paulaIrqBit : UInt16
  irqAsserted : Bool
  deriving Repr, DecidableEq

def ciaIcrTa : UInt8 := 0x01
def ciaIcrTb : UInt8 := 0x02
def ciaIcrAlrm : UInt8 := 0x04
def ciaIcrSp : UInt8 := 0x08
def ciaIcrFlg : UInt8 := 0x10

/-- A CIA with the interrupt registers of the Paula it is attached to. -/
structure CiaBus where
  cia : CiaState
  irq : PaulaInterrupts
  deriving Repr, DecidableEq

/-! ## Interrupts -/

def ciaIrqPending (c : CiaState) : Bool := c.icrData &&& c.icrMask != 0

def ciaInterruptSyncIrqLine (b : CiaBus) : CiaBus where
  cia := { b.cia with irqAsserted := ciaIrqPending b.cia }
  irq := if ciaIrqPending b.cia then interruptRaise b.irq b.cia.paulaIrqBit else interruptClear b.irq b.cia.paulaIrqBit

def ciaInterruptRaise (b : CiaBus) (mask : UInt8) : CiaBus :=
  ciaInterruptSyncIrqLine { b with cia := { b.cia with icrData := b.cia.icrData ||| (mask &&& 0x1F) } }

def ciaInterruptReadIcr (b : CiaBus) : CiaBus × UInt8 :=
  (ciaInterruptSyncIrqLine { b with cia := { b.cia with icrData := 0 } },
    b.cia.icrData ||| (if ciaIrqPending b.cia then 0x80 else 0))

def ciaInterruptWriteIcr (b : CiaBus) (value : UInt8) : CiaBus :=
  ciaInterruptSyncIrqLine
    { b with cia := { b.cia with icrMask :=
        if value &&& 0x80 ≠ 0 then b.cia.icrMask ||| (value &&& 0x1F) else b.cia.icrMask &&& ~~~(value &&& 0x1F) } }

/-! ## Ports -/

def ciaPortAValue (c : CiaState) : UInt8 :=
  match c.id with
  | .portA => (c.pra &&& c.ddra &&& 0x03) ||| (c.extPra &&& ~~~c.ddra &&& 0x03) ||| (c.extPra &&& 0xFC)
  | .portB => (c.pra &&& c.ddra) ||| (c.extPra &&& ~~~c.ddra)

/-- A timer output that PBON routes to its port pin. -/
def ciaPbPin (control mask timerOut value : UInt8) : UInt8 :=
  if control &&& 0x02 ≠ 0 then (if timerOut &&& mask ≠ 0 then value ||| mask else value &&& ~~~mask) else value

def ciaPortBValue (c : CiaState) : UInt8 :=
  ciaPbPin c.crb 0x80 c.pbTimerOut
    (ciaPbPin c.cra 0x40 c.pbTimerOut ((c.prb &&& c.ddrb) ||| (c.extPrb &&& ~~~c.ddrb)))

def ciaSetExternalPra (c : CiaState) (value : UInt8) : CiaState := { c with extPra := value }

/-! ## Serial shifter -/

def ciaSerialStartOutput (c : CiaState) : CiaState :=
  if c.serialOutBusy || !c.serialOutBufferFull then c
  else
    { c with
      serialOutShift := c.serialOutBuffer
      serialOutBits := 8
      serialOutBusy := true
      serialOutBufferFull := false }

/-- One bit leaves the shifter. -/
def ciaSerialShiftBit (c : CiaState) : CiaState :=
  { c with
    spOutputLevel := c.serialOutShift >>> 7 &&& 1 != 0
    cntOutputLevel := true
    serialOutShift := c.serialOutShift <<< 1
    serialOutBits := c.serialOutBits - 1 }

def ciaSerialOnTimerAUnderflow (b : CiaBus) : CiaBus :=
  if b.cia.cra &&& 0x40 = 0 then b
  else
    let c := ciaSerialStartOutput b.cia
    if !c.serialOutBusy then { b with cia := c }
    else
      let c := ciaSerialShiftBit c
      if c.serialOutBits ≠ 0 then { b with cia := c }
      else
        let b := ciaInterruptRaise { b with cia := { c with serialOutBusy := false, spOutputLevel := true } } ciaIcrSp
        { b with cia := ciaSerialStartOutput b.cia }

def ciaSerialWriteSdr (c : CiaState) (value : UInt8) : CiaState :=
  if c.cra &&& 0x40 = 0 then { c with sdr := value }
  else ciaSerialStartOutput { c with sdr := value, serialOutBuffer := value, serialOutBufferFull := true }

/-- `cia_serial_receive_byte`: a full data register refuses the byte. -/
def ciaSerialReceiveByte (b : CiaBus) (value : UInt8) : CiaBus :=
  if b.cia.sdrFull then b
  else ciaInterruptRaise { b with cia := { b.cia with sdr := value, sdrFull := true } } ciaIcrSp

/-! ## Timers -/

/-- `cia_timer_advance`: the counter and the number of underflows. The ticks of one call are at most `2 ^ 32 / 5`, so
the source's cast of the number to `int` is exact. -/
def ciaTimerAdvance (counter latch : UInt16) (continuous : Bool) (ticks : UInt64) : UInt16 × Nat :=
  if ticks = 0 then (counter, 0)
  else if ticks ≤ counter.toUInt64 then ((counter.toUInt64 - ticks).toUInt16, 0)
  else
    let ticks := ticks - (counter.toUInt64 + 1)
    if !continuous then (0, 1)
    else
      let cycle := latch.toUInt64 + 1
      let rem := ticks % cycle
      (if rem = 0 then latch else latch - rem.toUInt16, 1 + (ticks / cycle).toNat)

/-- The event loop: each pass but the last consumes at least one event. -/
def ciaTimerEventLoop (latch : UInt16) (continuous : Bool) : Nat → UInt16 → Nat → Nat → UInt16 × Nat
  | 0, counter, _, underflows => (counter, underflows)
  | fuel + 1, counter, events, underflows =>
    if events = 0 then (counter, underflows)
    else if events < counter.toNat + 1 then (counter - UInt16.ofNat events, underflows)
    else if !continuous then (0, underflows + 1)
    else ciaTimerEventLoop latch continuous fuel latch (events - (counter.toNat + 1)) (underflows + 1)

def ciaTimerAdvanceEvents (counter latch : UInt16) (continuous : Bool) (events : Nat) : UInt16 × Nat :=
  ciaTimerEventLoop latch continuous events counter events 0

/-- `cia_timer_apply_underflow_output`. The pin is chosen by comparing the control byte with CRA. -/
def ciaTimerApplyUnderflowOutput (c : CiaState) (control : UInt8) (underflows : Nat) : CiaState :=
  let mask : UInt8 := if control = c.cra then 0x40 else 0x80
  if control &&& 0x02 = 0 then c
  else if control &&& 0x04 ≠ 0 then
    { c with
      pbTimerOut := if underflows % 2 = 1 then c.pbTimerOut ^^^ mask else c.pbTimerOut
      pbPulseMask := c.pbPulseMask &&& ~~~mask }
  else { c with pbTimerOut := c.pbTimerOut &&& ~~~mask, pbPulseMask := c.pbPulseMask ||| mask }

def ciaTimersAdvancePbOutputs (c : CiaState) : CiaState :=
  { c with pbTimerOut := c.pbTimerOut ||| (c.pbPulseMask &&& 0xC0), pbPulseMask := 0 }

def ciaTimerRuns (control : UInt8) : Bool := control &&& 0x01 != 0
def ciaTimerContinuous (control : UInt8) : Bool := control &&& 0x08 == 0

/-- A one-shot timer stops at its underflow. -/
def ciaTimerStop (control : UInt8) : UInt8 := if control &&& 0x08 ≠ 0 then control &&& ~~~0x01 else control

/-- What timer A does with its underflows, if it has any. -/
def ciaTimerAUnderflows (b : CiaBus) (uf : Nat) : CiaBus :=
  if uf = 0 then b
  else
    let b := ciaInterruptRaise b ciaIcrTa
    let b := { b with cia := ciaTimerApplyUnderflowOutput b.cia b.cia.cra uf }
    let b := ciaSerialOnTimerAUnderflow^[uf] b
    { b with cia := { b.cia with cra := ciaTimerStop b.cia.cra } }

def ciaTimerBUnderflows (b : CiaBus) (uf : Nat) : CiaBus :=
  if uf = 0 then b
  else
    let b := ciaInterruptRaise b ciaIcrTb
    let b := { b with cia := ciaTimerApplyUnderflowOutput b.cia b.cia.crb uf }
    { b with cia := { b.cia with crb := ciaTimerStop b.cia.crb } }

/-- Timer A over E-clock ticks: its counter and underflows. -/
def ciaTimerAStep (c : CiaState) (ticks : UInt64) : UInt16 × Nat :=
  if ciaTimerRuns c.cra ∧ c.cra &&& 0x20 = 0 then
    ciaTimerAdvance c.taCounter c.taLatch (ciaTimerContinuous c.cra) ticks
  else (c.taCounter, 0)

/-- Timer B over E-clock ticks, or over the underflows of timer A that the same step produced. -/
def ciaTimerBStep (c : CiaState) (ticks : UInt64) (ufA : Nat) : UInt16 × Nat :=
  let inmode := (c.crb >>> 5) &&& 0x03
  if !ciaTimerRuns c.crb then (c.tbCounter, 0)
  else if inmode = 0 then ciaTimerAdvance c.tbCounter c.tbLatch (ciaTimerContinuous c.crb) ticks
  else if (inmode = 2 ∨ inmode = 3) ∧ ufA > 0 ∧ (inmode ≠ 3 ∨ c.cntLevel) then
    ciaTimerAdvanceEvents c.tbCounter c.tbLatch (ciaTimerContinuous c.crb) ufA
  else (c.tbCounter, 0)

def ciaTimerAStage (b : CiaBus) (ticks : UInt64) : CiaBus :=
  ciaTimerAUnderflows { b with cia := { b.cia with taCounter := (ciaTimerAStep b.cia ticks).1 } }
    (ciaTimerAStep b.cia ticks).2

def ciaTimerBStage (b : CiaBus) (ticks : UInt64) (ufA : Nat) : CiaBus :=
  ciaTimerBUnderflows { b with cia := { b.cia with tbCounter := (ciaTimerBStep b.cia ticks ufA).1 } }
    (ciaTimerBStep b.cia ticks ufA).2

def ciaTimersStep (b : CiaBus) (ticks : UInt64) : CiaBus :=
  if ticks = 0 then b else ciaTimerBStage (ciaTimerAStage b ticks) ticks (ciaTimerAStep b.cia ticks).2

def ciaTimersReadReg (c : CiaState) (reg : UInt8) : UInt8 :=
  match reg with
  | 0x4 => c.taCounter.toUInt8
  | 0x5 => (c.taCounter >>> 8).toUInt8
  | 0x6 => c.tbCounter.toUInt8
  | 0x7 => (c.tbCounter >>> 8).toUInt8
  | 0xE => c.cra
  | 0xF => c.crb
  | _ => 0xFF

def ciaTimersWriteReg (c : CiaState) (reg val : UInt8) : CiaState :=
  match reg with
  | 0x4 => { c with taLatch := (c.taLatch &&& 0xFF00) ||| val.toUInt16 }
  | 0x5 =>
    let latch := (c.taLatch &&& (0x00FF : UInt16)) ||| (val.toUInt16 <<< 8)
    if !ciaTimerRuns c.cra then
      { c with taLatch := latch, taCounter := latch, cra := if c.cra &&& 0x08 ≠ 0 then c.cra ||| 0x01 else c.cra }
    else { c with taLatch := latch }
  | 0x6 => { c with tbLatch := (c.tbLatch &&& 0xFF00) ||| val.toUInt16 }
  | 0x7 =>
    let latch := (c.tbLatch &&& (0x00FF : UInt16)) ||| (val.toUInt16 <<< 8)
    if !ciaTimerRuns c.crb then
      { c with tbLatch := latch, tbCounter := latch, crb := if c.crb &&& 0x08 ≠ 0 then c.crb ||| 0x01 else c.crb }
    else { c with tbLatch := latch }
  | 0xE =>
    { c with
      cra := val &&& ~~~0x10
      pbTimerOut := if val &&& ~~~0x10 &&& 0x02 ≠ 0 then c.pbTimerOut ||| 0x40 else c.pbTimerOut
      taCounter := if val &&& 0x10 ≠ 0 then c.taLatch else c.taCounter }
  | 0xF =>
    { c with
      crb := val &&& ~~~0x10
      pbTimerOut := if val &&& ~~~0x10 &&& 0x02 ≠ 0 then c.pbTimerOut ||| 0x80 else c.pbTimerOut
      tbCounter := if val &&& 0x10 ≠ 0 then c.tbLatch else c.tbCounter }
  | _ => c

/-! ## Time of day -/

def ciaTodReset (ticksPerInc : UInt32) : CiaTodState := ⟨0, 0x00FFFF, 0, false, false, 0, ticksPerInc⟩

/-- One pass of the `cia_tod_increment` loop. -/
def ciaTodTick (b : CiaBus) : CiaBus :=
  let counter := (b.cia.tod.counter + 1) &&& 0x00FFFFFF
  let b := { b with cia := { b.cia with tod := { b.cia.tod with counter := counter } } }
  if counter = b.cia.tod.alarm then ciaInterruptRaise b ciaIcrAlrm else b

def ciaTodIncrement (b : CiaBus) (increments : Nat) : CiaBus := ciaTodTick^[increments] b

def ciaTodStep (b : CiaBus) (ticks : UInt64) : CiaBus :=
  let t := b.cia.tod
  if ticks = 0 ∨ t.ticksPerInc = 0 ∨ t.stopped then b
  else
    let subticks := t.subticks + ticks.toUInt32
    if subticks ≥ t.ticksPerInc then
      ciaTodIncrement { b with cia := { b.cia with tod := { t with subticks := subticks % t.ticksPerInc } } }
        (subticks / t.ticksPerInc).toNat
    else { b with cia := { b.cia with tod := { t with subticks := subticks } } }

def ciaTodPulse (b : CiaBus) (pulses : UInt32) : CiaBus := ciaTodIncrement b pulses.toNat

/-- `cia_tod_read`: the high byte latches the counter, the low byte releases it. -/
def ciaTodRead (t : CiaTodState) (reg : UInt8) : CiaTodState × UInt8 :=
  let shown := if t.latched then t.latch else t.counter
  match reg with
  | 0x8 => ({ t with latched := false }, shown.toUInt8)
  | 0x9 => (t, (shown >>> 8).toUInt8)
  | 0xA => ({ t with latch := t.counter, latched := true }, (t.counter >>> 16).toUInt8)
  | _ => (t, 0xFF)

def todByte (old : UInt32) (reg val : UInt8) : UInt32 :=
  match reg with
  | 0x8 => (old &&& 0xFFFF00) ||| val.toUInt32
  | 0x9 => (old &&& (0xFF00FF : UInt32)) ||| (val.toUInt32 <<< 8)
  | 0xA => (old &&& (0x00FFFF : UInt32)) ||| (val.toUInt32 <<< 16)
  | _ => old

def ciaTodWrite (c : CiaState) (reg val : UInt8) : CiaState :=
  if c.crb &&& 0x80 ≠ 0 then { c with tod := { c.tod with alarm := todByte c.tod.alarm reg val } }
  else { c with tod := { c.tod with counter := todByte c.tod.counter reg val, stopped := reg != 0x8 } }

/-! ## Lifecycle, stepping, registers -/

def ciaPaulaIrqBit (id : CiaId) : UInt16 :=
  match id with
  | .portA => paulaIntPorts
  | .portB => paulaIntExter

/-- `cia_init`: a cleared CIA, reset before Paula is attached. Neither TOD counts E-clock ticks. -/
def ciaInit (id : CiaId) : CiaState where
  id := id
  pra := 0xFF
  prb := 0xFF
  ddra := 0
  ddrb := 0
  extPra := 0xFF
  extPrb := 0xFF
  sdr := 0
  sdrFull := false
  spInputLevel := true
  spOutputLevel := true
  cntOutputLevel := true
  serialInShift := 0
  serialInBits := 0
  serialOutShift := 0
  serialOutBits := 0
  serialOutBusy := false
  serialOutBuffer := 0
  serialOutBufferFull := false
  icrMask := 0
  icrData := 0
  cra := 0
  crb := 0
  taLatch := 0xFFFF
  taCounter := 0xFFFF
  tbLatch := 0xFFFF
  tbCounter := 0xFFFF
  pbTimerOut := 0xC0
  pbPulseMask := 0
  cntLevel := true
  flagLevel := true
  tod := ciaTodReset 0
  irqLevel := match id with
    | .portA => 2
    | .portB => 6
  paulaIrqBit := ciaPaulaIrqBit id
  irqAsserted := false

/-- `cia_attach_paula`. -/
def ciaAttachPaula (c : CiaState) (irq : PaulaInterrupts) : CiaBus := ciaInterruptSyncIrqLine ⟨c, irq⟩

def ciaStep (b : CiaBus) (ticks : UInt64) : CiaBus :=
  ciaTodStep (ciaTimersStep { b with cia := ciaTimersAdvancePbOutputs b.cia } ticks) ticks

def ciaPortsReadReg (c : CiaState) (reg : UInt8) : UInt8 :=
  match reg with
  | 0x0 => ciaPortAValue c
  | 0x1 => ciaPortBValue c
  | 0x2 => c.ddra
  | 0x3 => c.ddrb
  | _ => 0xFF

def ciaPortsWriteReg (c : CiaState) (reg value : UInt8) : CiaState :=
  match reg with
  | 0x0 => { c with pra := value }
  | 0x1 => { c with prb := value }
  | 0x2 => { c with ddra := value }
  | 0x3 => { c with ddrb := value }
  | _ => c

def isTodReg (reg : UInt8) : Bool := reg == 0x8 || reg == 0x9 || reg == 0xA
def isTimerReg (reg : UInt8) : Bool := (reg ≥ 0x4 && reg ≤ 0x7) || reg == 0xE || reg == 0xF

def ciaReadReg (b : CiaBus) (reg : UInt8) : CiaBus × UInt8 :=
  let reg := reg &&& 0x0F
  if reg ≤ 0x3 then (b, ciaPortsReadReg b.cia reg)
  else if isTimerReg reg then (b, ciaTimersReadReg b.cia reg)
  else if isTodReg reg then
    ({ b with cia := { b.cia with tod := (ciaTodRead b.cia.tod reg).1 } }, (ciaTodRead b.cia.tod reg).2)
  else if reg = 0xC then ({ b with cia := { b.cia with sdrFull := false } }, b.cia.sdr)
  else if reg = 0xD then ciaInterruptReadIcr b
  else (b, 0xFF)

def ciaWriteReg (b : CiaBus) (reg val : UInt8) : CiaBus :=
  let reg := reg &&& 0x0F
  if reg ≤ 0x3 then { b with cia := ciaPortsWriteReg b.cia reg val }
  else if isTimerReg reg then { b with cia := ciaTimersWriteReg b.cia reg val }
  else if isTodReg reg then { b with cia := ciaTodWrite b.cia reg val }
  else if reg = 0xC then { b with cia := ciaSerialWriteSdr b.cia val }
  else if reg = 0xD then ciaInterruptWriteIcr b val
  else b

/-! ## Pins

No call of the host drives CNT, FLAG or SP; the functions are the library's own. -/

/-- A bit is shifted in on the rising edge of CNT, unless the shifter has something to send. -/
def ciaSerialOnCntRising (b : CiaBus) : CiaBus :=
  if b.cia.serialOutBusy || b.cia.serialOutBufferFull then b
  else
    let shift := (b.cia.serialInShift <<< 1) ||| (if b.cia.spInputLevel then 1 else 0)
    if b.cia.serialInBits + 1 < 8 then
      { b with cia := { b.cia with serialInShift := shift, serialInBits := b.cia.serialInBits + 1 } }
    else
      ciaInterruptRaise
        { b with cia := { b.cia with sdr := shift, sdrFull := true, serialInShift := 0, serialInBits := 0 } } ciaIcrSp

/-- Timer A over edges of CNT. -/
def ciaTimerACount (c : CiaState) (pulses : UInt32) : UInt16 × Nat :=
  if ciaTimerRuns c.cra ∧ c.cra &&& 0x20 ≠ 0 then
    ciaTimerAdvanceEvents c.taCounter c.taLatch (ciaTimerContinuous c.cra) pulses.toNat
  else (c.taCounter, 0)

/-- Timer B over edges of CNT, or over the underflows of timer A that the same edges produced. -/
def ciaTimerBCount (c : CiaState) (pulses : UInt32) (ufA : Nat) : UInt16 × Nat :=
  let inmode := (c.crb >>> 5) &&& 0x03
  if !ciaTimerRuns c.crb then (c.tbCounter, 0)
  else if inmode = 1 then ciaTimerAdvanceEvents c.tbCounter c.tbLatch (ciaTimerContinuous c.crb) pulses.toNat
  else if inmode = 3 ∧ ufA > 0 then ciaTimerAdvanceEvents c.tbCounter c.tbLatch (ciaTimerContinuous c.crb) ufA
  else (c.tbCounter, 0)

def ciaTimersCountCnt (b : CiaBus) (pulses : UInt32) : CiaBus :=
  if pulses = 0 then b
  else
    let ta := ciaTimerACount b.cia pulses
    let b := ciaTimerAUnderflows { b with cia := { b.cia with taCounter := ta.1 } } ta.2
    let tb := ciaTimerBCount b.cia pulses ta.2
    ciaTimerBUnderflows { b with cia := { b.cia with tbCounter := tb.1 } } tb.2

def ciaSetSpLevel (b : CiaBus) (level : Bool) : CiaBus := { b with cia := { b.cia with spInputLevel := level } }

def ciaSetCntLevel (b : CiaBus) (level : Bool) : CiaBus :=
  let raised := { b with cia := { b.cia with cntLevel := level } }
  if !b.cia.cntLevel && level then ciaTimersCountCnt (ciaSerialOnCntRising raised) 1 else raised

/-- The falling edge of FLAG is an interrupt. -/
def ciaSetFlagLevel (b : CiaBus) (level : Bool) : CiaBus :=
  let moved := { b with cia := { b.cia with flagLevel := level } }
  if b.cia.flagLevel && !level then ciaInterruptRaise moved ciaIcrFlg else moved

def ciaPulseCnt (b : CiaBus) (pulses : UInt32) : CiaBus := ciaTimersCountCnt b pulses

end Rigel
