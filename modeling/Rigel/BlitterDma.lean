import Rigel.BlitterRef

/-!
# BlitterDma — the resumable line drawer and the DMA slots

`blitter_line.c` and `blitter_dma.c`. One call of `blitter_step_dma` may grant any number of slots; it answers the
blitter, the memory, and the interrupt mask it raised, if it raised one.
-/

namespace Rigel

def lineRotatePattern (pattern : UInt16) (shift : UInt8) : UInt16 :=
  if shift = 0 then pattern else (pattern >>> shift.toUInt16) ||| (pattern <<< (16 - shift.toUInt16))

def lineIncx (s : BlitterLineState) : BlitterLineState :=
  if s.xShift + 1 = 16 then { s with xShift := 0, cpt := (s.cpt + 2) &&& blitterChipAddrMask }
  else { s with xShift := s.xShift + 1 }

def lineDecx (s : BlitterLineState) : BlitterLineState :=
  if s.xShift = 0 then { s with xShift := 15, cpt := (s.cpt - 2) &&& blitterChipAddrMask }
  else { s with xShift := s.xShift - 1 }

def lineIncy (s : BlitterLineState) (mod : Int16) : BlitterLineState :=
  { s with cpt := (s.cpt + modOffset mod) &&& blitterChipAddrMask, oneDotCount := 0 }

def lineDecy (s : BlitterLineState) (mod : Int16) : BlitterLineState :=
  { s with cpt := (s.cpt - modOffset mod) &&& blitterChipAddrMask, oneDotCount := 0 }

def lineError (s : BlitterLineState) (cmd : BlitCommand) : BlitterLineState :=
  { s with error := if cmd.useA then (if s.sign then s.error + cmd.bmod else s.error + cmd.amod) else s.error }

def lineMinor (s : BlitterLineState) (cmd : BlitCommand) : BlitterLineState :=
  if cmd.lineOctant &&& 0x04 ≠ 0 then
    if cmd.lineOctant &&& 0x02 ≠ 0 then lineDecy s cmd.cmod else lineIncy s cmd.cmod
  else if cmd.lineOctant &&& 0x02 ≠ 0 then lineDecx s else lineIncx s

def lineMajor (s : BlitterLineState) (cmd : BlitCommand) : BlitterLineState :=
  if cmd.lineOctant &&& 0x04 ≠ 0 then
    if cmd.lineOctant &&& 0x01 ≠ 0 then lineDecx s else lineIncx s
  else if cmd.lineOctant &&& 0x01 ≠ 0 then lineDecy s cmd.cmod else lineIncy s cmd.cmod

def lineSign (s : BlitterLineState) : BlitterLineState := { s with sign := s.error < 0 }

/-- `line_advance`: the error, the minor axis when the old sign was clear, the major axis, the new sign. -/
def lineAdvance (s : BlitterLineState) (cmd : BlitCommand) : BlitterLineState :=
  lineSign (lineMajor (if s.sign then lineError s cmd else lineMinor (lineError s cmd) cmd) cmd)

def lineStateInit (s : BlitterLineState) (cmd : BlitCommand) : BlitterLineState :=
  if s.initialized then s
  else
    { error := (cmd.apt &&& 0xFFFF).toUInt16.toInt16
      pattern := lineRotatePattern cmd.bdat cmd.bshift
      cpt := cmd.cpt &&& blitterChipAddrMask
      stepIndex := 0
      xShift := cmd.lineStartBit &&& 0x0F
      oneDotCount := 0
      lastCdat := cmd.cdat
      lastDdat := 0
      zero := true
      sign := cmd.lineInitialSign
      pixelSlotPhase := 0
      initialized := true }

def linePublishPartialResult (cmd : BlitCommand) (s : BlitterLineState) : BlitterResult where
  finalApt := (cmd.apt &&& 0xFFFF0000) ||| s.error.toUInt16.toUInt32
  finalBpt := cmd.bpt
  finalCpt := s.cpt
  finalDpt := s.cpt
  finalAdat := cmd.adat
  finalBdat := cmd.bdat
  finalCdat := s.lastCdat
  finalDdat := s.lastDdat
  finalBhold := cmd.bhold
  zero := s.zero

/-- The word that a pixel writes: the minterm of the masked A bit, the pattern's bit and C. -/
def lineDval (cmd : BlitCommand) (s : BlitterLineState) (cval : UInt16) : UInt16 :=
  blitterLogic cmd.minterm ((cmd.adat &&& cmd.afwm) >>> s.xShift.toUInt16)
    (if s.pattern &&& 1 ≠ 0 then 0xFFFF else 0x0000) cval

def lineCval (cmd : BlitCommand) (s : BlitterLineState) (mem : ChipRam) : UInt16 :=
  if cmd.useC then chipRead16 mem s.cpt else cmd.cdat

def lineWritesPixel (cmd : BlitCommand) (s : BlitterLineState) : Bool :=
  cmd.useC && (!cmd.lineSingleDot || s.oneDotCount == 0)

/-- The data half of a pixel, before the line advances. -/
def linePlot (s : BlitterLineState) (cval dval : UInt16) : BlitterLineState :=
  { s with
    lastCdat := cval
    zero := if dval ≠ 0 then false else s.zero
    lastDdat := dval
    stepIndex := s.stepIndex + 1
    oneDotCount := s.oneDotCount + 1 }

def lineRotate (s : BlitterLineState) : BlitterLineState :=
  { s with pattern := (s.pattern <<< 1) ||| (s.pattern >>> 15) }

/-- One pixel of `blitter_line_step`, on the line state. -/
def linePixel (cmd : BlitCommand) (s : BlitterLineState) (mem : ChipRam) : BlitterLineState × ChipRam :=
  let cval := lineCval cmd s mem
  let dval := lineDval cmd s cval
  (lineRotate (lineAdvance (linePlot s cval dval) cmd),
    if lineWritesPixel cmd s then chipWrite16 mem s.cpt dval else mem)

def blitterLineStep (b : BlitterState) (mem : ChipRam) : BlitterState × ChipRam :=
  if b.cmd.mode ≠ .line then (b, mem)
  else
    let s := lineStateInit b.lineState b.cmd
    if s.stepIndex ≥ b.cmd.heightLines then ({ b with lineState := s }, mem)
    else
      let px := linePixel b.cmd s mem
      ({ b with lineState := px.1, result := linePublishPartialResult b.cmd px.1 }, px.2)

def blitterLineDone (b : BlitterState) : Bool :=
  if b.cmd.mode ≠ .line then true
  else b.lineState.initialized && b.lineState.stepIndex ≥ b.cmd.heightLines

/-- What a call of `blitter_step_dma` leaves behind. -/
structure BlitterStep where
  blitter : BlitterState
  mem : ChipRam
  irq : Option UInt16

/-- The end of a blit: the result goes to the registers, the blitter to idle, BLIT to Paula. -/
def blitterFinish (b : BlitterState) (mem : ChipRam) : BlitterStep :=
  ⟨blitterForceFinish (blitterPublishResult { b with cyclesRemaining := 0 }), mem, some blitterIntreqBlit⟩

/-- The head of the line loop's body: the slot is consumed and the countdown moves. -/
def lineConsumeSlot (b : BlitterState) : BlitterState :=
  { b with
    dmaSlotsConsumed := b.dmaSlotsConsumed + 1
    cyclesRemaining := if b.cyclesRemaining > 0 then b.cyclesRemaining - 1 else b.cyclesRemaining }

def linePhase (b : BlitterState) (p : UInt8) : BlitterState :=
  { b with lineState := { b.lineState with pixelSlotPhase := p } }

/-- The slot loop of LINE mode. -/
def lineDmaLoop : Nat → BlitterState → ChipRam → BlitterStep
  | 0, b, mem => ⟨b, mem, none⟩
  | slots + 1, b, mem =>
    if blitterLineDone b then ⟨b, mem, none⟩
    else
      let b1 := lineConsumeSlot b
      if b1.cycleExact && b1.lineState.pixelSlotPhase == 0 then
        -- read slot: the bus cycle is spent, the pixel waits for the write slot
        lineDmaLoop slots (linePhase b1 1) mem
      else
        let px := blitterLineStep (linePhase b1 0) mem
        if blitterLineDone px.1 then blitterFinish px.1 px.2
        else lineDmaLoop slots px.1 px.2

/-- The countdown of COPY mode, after the backend has run. -/
def copyCountdown (b : BlitterState) (mem : ChipRam) (dmaSlots : UInt32) : BlitterStep :=
  let b := { b with dmaSlotsConsumed := b.dmaSlotsConsumed + dmaSlots }
  if b.cyclesRemaining > dmaSlots then ⟨{ b with cyclesRemaining := b.cyclesRemaining - dmaSlots }, mem, none⟩
  else blitterFinish b mem

def blitterStepDma (b : BlitterState) (mem : ChipRam) (dmaSlots : UInt32) : BlitterStep :=
  if !b.busy then ⟨b, mem, none⟩
  else match b.cmd.mode with
    | .line => lineDmaLoop dmaSlots.toNat b mem
    | .copy =>
      if b.execState = .pending then
        match blitterExecuteReference b mem with
        | none => ⟨{ b with busy := false, execState := .idle, cyclesRemaining := 0 }, mem, none⟩
        | some (b, mem) => copyCountdown { b with execState := .running } mem dmaSlots
      else copyCountdown b mem dmaSlots

/-- `rigel_blitter_domain_step_dma`: a call without slots is not made. -/
def rigelBlitterDomainStepDma (b : BlitterState) (mem : ChipRam) (dmaSlots : UInt32) : BlitterStep :=
  if dmaSlots = 0 then ⟨b, mem, none⟩ else blitterStepDma b mem dmaSlots

end Rigel
