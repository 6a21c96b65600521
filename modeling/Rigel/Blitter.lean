import Mathlib.Logic.Function.Iterate
import Rigel.ChipRam

/-!
# Blitter — registers, command, reference execution and DMA time

`chipset/agnus/blitter/*.c`. A write to BLTSIZE or BLTSIZH freezes the registers into a `BlitCommand` and starts
the clock; from then on every granted DMA slot is one call of `blitter_step_dma`. A copy executes as a whole on
the first slot and then only counts down; a line is drawn pixel by pixel, with its own state between slots. The
source carries a second, one-shot line drawer (`execute_line_mode`) beside the resumable one; both are here.
-/

namespace Rigel

def blitterChipAddrMask : UInt32 := 0x001FFFFE

def blitterIntreqBlit : UInt16 := 0x8040

inductive BlitterMode where
  | copy
  | line
  deriving Repr, DecidableEq

inductive BlitterFillMode where
  | none
  | inclusive
  | exclusive
  deriving Repr, DecidableEq

inductive BlitterExecState where
  | idle
  | pending
  | running
  deriving Repr, DecidableEq

structure BlitterLineState where
  error : Int16
  pattern : UInt16
  cpt : UInt32
  stepIndex : UInt16
  xShift : UInt8
  oneDotCount : UInt8
  lastCdat : UInt16
  lastDdat : UInt16
  zero : Bool
  sign : Bool
  initialized : Bool
  pixelSlotPhase : UInt8
  deriving Repr, DecidableEq

/-- `memset(&line_state, 0, ..)`. -/
def BlitterLineState.cleared : BlitterLineState :=
  ⟨0, 0, 0, 0, 0, 0, 0, 0, false, false, false, 0⟩

structure BlitterRegs where
  bltcon0 : UInt16
  bltcon1 : UInt16
  bltapt : UInt32
  bltbpt : UInt32
  bltcpt : UInt32
  bltdpt : UInt32
  bltamod : Int16
  bltbmod : Int16
  bltcmod : Int16
  bltdmod : Int16
  bltadat : UInt16
  bltbdat : UInt16
  bltcdat : UInt16
  bltddat : UInt16
  bltbhold : UInt16
  bltafwm : UInt16
  bltalwm : UInt16
  bltsize : UInt16
  bltsizh : UInt16
  bltsizv : UInt16
  deriving Repr, DecidableEq

/-- The registers frozen at BLTSIZE time: one operation, not a live view. -/
structure BlitCommand where
  apt : UInt32
  bpt : UInt32
  cpt : UInt32
  dpt : UInt32
  amod : Int16
  bmod : Int16
  cmod : Int16
  dmod : Int16
  adat : UInt16
  bdat : UInt16
  cdat : UInt16
  bhold : UInt16
  afwm : UInt16
  alwm : UInt16
  widthWords : UInt16
  heightLines : UInt16
  minterm : UInt8
  ashift : UInt8
  bshift : UInt8
  useA : Bool
  useB : Bool
  useC : Bool
  useD : Bool
  descending : Bool
  fillCarryIn : Bool
  lineOctant : UInt8
  lineStartBit : UInt8
  lineSingleDot : Bool
  lineInitialSign : Bool
  mode : BlitterMode
  fillMode : BlitterFillMode
  deriving Repr, DecidableEq

def BlitCommand.cleared : BlitCommand :=
  ⟨0, 0, 0, 0, 0, 0, 0, 0, 0, 0, 0, 0, 0, 0, 0, 0, 0, 0, 0, false, false, false, false, false, false, 0, 0, false,
    false, .copy, .none⟩

structure BlitterResult where
  finalApt : UInt32
  finalBpt : UInt32
  finalCpt : UInt32
  finalDpt : UInt32
  finalAdat : UInt16
  finalBdat : UInt16
  finalCdat : UInt16
  finalDdat : UInt16
  finalBhold : UInt16
  zero : Bool
  deriving Repr, DecidableEq

def BlitterResult.cleared : BlitterResult := ⟨0, 0, 0, 0, 0, 0, 0, 0, 0, false⟩

structure BlitterState where
  regs : BlitterRegs
  cmd : BlitCommand
  result : BlitterResult
  execState : BlitterExecState
  commandValid : Bool
  busy : Bool
  cyclesRemaining : UInt32
  dmaSlotsConsumed : UInt32
  cycleExact : Bool
  lineState : BlitterLineState
  deriving Repr, DecidableEq

/-! ## Registers and command -/

def makePtr (oldValue : UInt32) (value : UInt16) (high : Bool) : UInt32 :=
  if high then (value.toUInt32 <<< 16) ||| (oldValue &&& 0x0000FFFF)
  else (oldValue &&& 0xFFFF0000) ||| (value &&& 0xFFFE).toUInt32

def makeBHold (r : BlitterRegs) (value : UInt16) : UInt16 :=
  let shift : UInt32 := ((r.bltcon1 >>> 12) &&& 0x0F).toUInt32
  if shift = 0 then value
  else if r.bltcon1 &&& 0x0002 ≠ 0 then
    (((value.toUInt32 <<< 16) ||| r.bltbdat.toUInt32) >>> (16 - shift)).toUInt16
  else (((r.bltbdat.toUInt32 <<< 16) ||| value.toUInt32) >>> shift).toUInt16

def blitterInit : BlitterState where
  regs := ⟨0, 0, 0, 0, 0, 0, 0, 0, 0, 0, 0, 0, 0, 0, 0, 0xFFFF, 0xFFFF, 0, 0, 0⟩
  cmd := BlitCommand.cleared
  result := { BlitterResult.cleared with zero := true }
  execState := .idle
  commandValid := false
  busy := false
  cyclesRemaining := 0
  dmaSlotsConsumed := 0
  cycleExact := false
  lineState := BlitterLineState.cleared

def blitterIsBusy (b : BlitterState) : Bool := b.busy

def decodeMode (bltcon1 : UInt16) : BlitterMode :=
  if bltcon1 &&& 0x0001 ≠ 0 then .line else .copy

def decodeFillMode (bltcon1 : UInt16) : BlitterFillMode :=
  if (bltcon1 >>> 3) &&& 0x03 = 1 then .inclusive
  else if (bltcon1 >>> 3) &&& 0x03 = 2 then .exclusive
  else .none

def blitterBuildCommand (b : BlitterState) : BlitterState :=
  let r := b.regs
  { b with
    cmd :=
      { apt := r.bltapt &&& blitterChipAddrMask
        bpt := r.bltbpt &&& blitterChipAddrMask
        cpt := r.bltcpt &&& blitterChipAddrMask
        dpt := r.bltdpt &&& blitterChipAddrMask
        amod := r.bltamod
        bmod := r.bltbmod
        cmod := r.bltcmod
        dmod := r.bltdmod
        adat := r.bltadat
        bdat := r.bltbdat
        cdat := r.bltcdat
        bhold := r.bltbhold
        afwm := r.bltafwm
        alwm := r.bltalwm
        widthWords := r.bltsizh
        heightLines := r.bltsizv
        useA := r.bltcon0 &&& 0x0800 != 0
        useB := r.bltcon0 &&& 0x0400 != 0
        useC := r.bltcon0 &&& 0x0200 != 0
        useD := r.bltcon0 &&& 0x0100 != 0
        minterm := (r.bltcon0 &&& 0x00FF).toUInt8
        ashift := ((r.bltcon0 >>> 12) &&& 0x0F).toUInt8
        bshift := ((r.bltcon1 >>> 12) &&& 0x0F).toUInt8
        descending := r.bltcon1 &&& 0x0002 != 0
        fillMode := decodeFillMode r.bltcon1
        fillCarryIn := r.bltcon1 &&& 0x0004 != 0
        lineOctant := ((r.bltcon1 >>> 2) &&& 0x07).toUInt8
        lineStartBit := ((r.bltcon0 >>> 12) &&& 0x0F).toUInt8
        lineSingleDot := r.bltcon1 &&& 0x0002 != 0
        lineInitialSign := r.bltcon1 &&& 0x0040 != 0
        mode := decodeMode r.bltcon1 }
    commandValid := true }

def blitterActiveChannelCount (cmd : BlitCommand) : UInt32 :=
  let channels : UInt32 := (if cmd.useA then 1 else 0) + (if cmd.useB then 1 else 0) +
    (if cmd.useC then 1 else 0) + (if cmd.useD then 1 else 0)
  if channels = 0 then 1 else channels

/-- One cycle an active channel, and one more when D is written without a C read to pair with. -/
def blitterWordCost (cmd : BlitCommand) : UInt32 :=
  blitterActiveChannelCount cmd + (if cmd.useD && !cmd.useC then 1 else 0)

def blitterEstimateCycles (cmd : BlitCommand) (cycleExact : Bool) : UInt32 :=
  let cycles : UInt32 := match cmd.mode with
    | .line => if cycleExact then cmd.heightLines.toUInt32 * 2 else cmd.heightLines.toUInt32
    | .copy =>
      let words := cmd.widthWords.toUInt32 * cmd.heightLines.toUInt32
      if cycleExact then words * blitterWordCost cmd else words
  if cycles = 0 then 1 else cycles

def blitterStartTiming (b : BlitterState) : BlitterState :=
  { b with
    busy := true
    execState := .pending
    result := { BlitterResult.cleared with zero := true }
    lineState := BlitterLineState.cleared
    dmaSlotsConsumed := 0
    cyclesRemaining := blitterEstimateCycles b.cmd b.cycleExact }

def blitterBeginCommand (b : BlitterState) : BlitterState :=
  blitterStartTiming (blitterBuildCommand b)

def blitterReadReg16 (b : BlitterState) (customOffset : UInt32) : UInt16 :=
  match customOffset with
  | 0x040 => b.regs.bltcon0
  | 0x042 => b.regs.bltcon1
  | 0x044 => b.regs.bltafwm
  | 0x046 => b.regs.bltalwm
  | 0x064 => b.regs.bltamod.toUInt16
  | 0x062 => b.regs.bltbmod.toUInt16
  | 0x060 => b.regs.bltcmod.toUInt16
  | 0x066 => b.regs.bltdmod.toUInt16
  | 0x074 => b.regs.bltadat
  | 0x072 => b.regs.bltbdat
  | 0x070 => b.regs.bltcdat
  | 0x000 => b.regs.bltddat
  | 0x058 => b.regs.bltsize
  | 0x002 => (if b.busy then 0x4000 else 0) ||| (if b.result.zero then 0x2000 else 0)
  | _ => 0

/-- The register part of `blitter_write_reg16`: every case but the start of a command. -/
def blitterWriteRegs (r : BlitterRegs) (customOffset : UInt32) (value : UInt16) : BlitterRegs :=
  match customOffset with
  | 0x040 => { r with bltcon0 := value }
  | 0x042 => { r with bltcon1 := value }
  | 0x05A => { r with bltcon0 := (r.bltcon0 &&& 0xFF00) ||| (value &&& 0x00FF) }
  | 0x044 => { r with bltafwm := value }
  | 0x046 => { r with bltalwm := value }
  | 0x064 => { r with bltamod := value.toInt16 }
  | 0x062 => { r with bltbmod := value.toInt16 }
  | 0x060 => { r with bltcmod := value.toInt16 }
  | 0x066 => { r with bltdmod := value.toInt16 }
  | 0x074 => { r with bltadat := value }
  | 0x072 => { r with bltbhold := makeBHold r value, bltbdat := value }
  | 0x070 => { r with bltcdat := value }
  | 0x000 => { r with bltddat := value }
  | 0x050 => { r with bltapt := makePtr r.bltapt value true }
  | 0x052 => { r with bltapt := makePtr r.bltapt value false }
  | 0x04C => { r with bltbpt := makePtr r.bltbpt value true }
  | 0x04E => { r with bltbpt := makePtr r.bltbpt value false }
  | 0x048 => { r with bltcpt := makePtr r.bltcpt value true }
  | 0x04A => { r with bltcpt := makePtr r.bltcpt value false }
  | 0x054 => { r with bltdpt := makePtr r.bltdpt value true }
  | 0x056 => { r with bltdpt := makePtr r.bltdpt value false }
  | 0x058 =>
    { r with
      bltsize := value
      bltsizh := if value &&& 0x003F = 0 then 64 else value &&& 0x003F
      bltsizv := if (value >>> 6) &&& 0x03FF = 0 then 1024 else (value >>> 6) &&& 0x03FF }
  | 0x05C => { r with bltsizv := if value &&& 0x7FFF = 0 then 32768 else value &&& 0x7FFF }
  | 0x05E => { r with bltsizh := if value &&& 0x07FF = 0 then 2048 else value &&& 0x07FF }
  | _ => r

/-- The two offsets that start a blit: BLTSIZE and the ECS BLTSIZH. -/
def blitterStartsAt (customOffset : UInt32) : Bool := customOffset == 0x058 || customOffset == 0x05E

def blitterWriteReg16 (b : BlitterState) (customOffset : UInt32) (value : UInt16) : BlitterState :=
  let b := { b with regs := blitterWriteRegs b.regs customOffset value }
  if blitterStartsAt customOffset then blitterBeginCommand b else b

def blitterPublishResult (b : BlitterState) : BlitterState :=
  { b with
    regs := { b.regs with
      bltapt := b.result.finalApt
      bltbpt := b.result.finalBpt
      bltcpt := b.result.finalCpt
      bltdpt := b.result.finalDpt
      bltadat := b.result.finalAdat
      bltbdat := b.result.finalBdat
      bltcdat := b.result.finalCdat
      bltddat := b.result.finalDdat
      bltbhold := b.result.finalBhold } }

/-- `blitter_force_finish` without its call of the interrupt sink, which the callers report. -/
def blitterForceFinish (b : BlitterState) : BlitterState :=
  { b with busy := false, execState := .idle, cyclesRemaining := 0 }

end Rigel
