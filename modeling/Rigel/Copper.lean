import Rigel.AgnusDma

/-!
# Copper — the coprocessor's state machine

`copper/copper.[ch]`, `copper/copper_wait.c`, `domains/copper/copper_domain.c`. A copper runs (an instruction fetch is
pending), waits for the beam, or is stopped until the next vertical blank. This module is the part that looks at its
own state, the beam and DMACON only; fetching and executing an instruction is in `CopperService`.
-/

namespace Rigel

structure CopperState where
  cop1lc : UInt32
  cop2lc : UInt32
  programCounter : UInt32
  waitHpos : UInt16
  waitVpos : UInt16
  waitVpmask : UInt16
  waitHpmask : UInt16
  copcon : UInt16
  waiting : Bool
  waitBlitter : Bool
  stoppedUntilVbl : Bool
  enabled : Bool
  triggered : Bool
  eventLatched : Bool
  fetchPending : Bool
  deriving Repr, DecidableEq

/-- A beam position under the two masks, as the 16-bit word that WAIT and SKIP compare. -/
def copperBeamWord (vpos hpos vpmask hpmask : UInt16) : UInt16 :=
  ((vpos &&& vpmask) <<< (8 : UInt16)) ||| (hpos &&& hpmask &&& (0xFE : UInt16))

/-- The masked comparison of WAIT and SKIP: the beam is at or past the given position. -/
def copperBeamCmp (vpos hpos waitVpos waitHpos vpmask hpmask : UInt16) : Bool :=
  copperBeamWord vpos hpos vpmask hpmask ≥ copperBeamWord waitVpos waitHpos vpmask hpmask

def copperReset : CopperState where
  cop1lc := 0
  cop2lc := 0
  programCounter := 0
  waitHpos := 0
  waitVpos := 0
  waitVpmask := 0xFF
  waitHpmask := 0xFE
  copcon := 0
  waiting := false
  waitBlitter := false
  stoppedUntilVbl := false
  enabled := false
  triggered := false
  eventLatched := false
  fetchPending := false

/-- `copper_vbl_reload`: restart from COP1LC, or stay idle when it is null. -/
def copperVblReload (c : CopperState) : CopperState :=
  { c with
    programCounter := if c.cop1lc &&& 0x001FFFFE = 0 then 0 else c.cop1lc &&& 0x001FFFFE
    waiting := false
    waitBlitter := false
    stoppedUntilVbl := false
    fetchPending := c.cop1lc &&& 0x001FFFFE != 0
    triggered := false
    eventLatched := false }

def copperSetPointerHi (ptr : UInt32) (value : UInt16) : UInt32 := 
  (ptr &&& (0x0000FFFF : UInt32)) ||| (value.toUInt32 <<< 16)

def copperSetPointerLo (ptr : UInt32) (value : UInt16) : UInt32 := (ptr &&& 0xFFFF0000) ||| value.toUInt32

def copperWaitArm (c : CopperState) (ir1 ir2 : UInt16) : CopperState :=
  { c with
    waitVpos := (ir1 >>> 8) &&& 0xFF
    waitHpos := ir1 &&& 0xFE
    waitVpmask := (ir2 >>> 8) &&& 0xFF
    waitHpmask := ir2 &&& 0xFE
    waiting := true
    waitBlitter := ir2 &&& 0x8000 == 0
    stoppedUntilVbl := ir1 == 0xFFFF && ir2 == 0xFFFE }

def copperExecSkipTest (ir1 ir2 hpos vpos : UInt16) : Bool :=
  copperBeamCmp vpos hpos ((ir1 >>> 8) &&& 0xFF) (ir1 &&& 0xFE) ((ir2 >>> 8) &&& 0xFF) (ir2 &&& 0xFE)

/-- The body of `jump1` and `jump2`. -/
def copperJump (c : CopperState) (target : UInt32) : CopperState :=
  { c with
    programCounter := target
    triggered := false
    eventLatched := false
    fetchPending := true
    waiting := false }

def rigelCopperDomainJump1 (c : CopperState) : CopperState := copperJump c c.cop1lc
def rigelCopperDomainJump2 (c : CopperState) : CopperState := copperJump c c.cop2lc

/-- The beam has reached the armed WAIT position. -/
def copperWaitReached (c : CopperState) (beam : BeamState) : Bool :=
  copperBeamCmp beam.vpos beam.hpos c.waitVpos c.waitHpos c.waitVpmask c.waitHpmask

def copperDeadlineNone : UInt32 := 0xFFFFFFFF

def rigelCopperDomainCyclesToWait (c : CopperState) (beam : BeamState) : UInt32 :=
  if !c.waiting then copperDeadlineNone
  else if copperWaitReached c beam then 0
  else if c.waitVpmask = 0xFF ∧ c.waitHpmask = 0xFE then
    let current := beam.vpos.toUInt32 * beam.lineClocks.toUInt32 + beam.hpos.toUInt32
    let target := c.waitVpos.toUInt32 * beam.lineClocks.toUInt32 + c.waitHpos.toUInt32
    if target > current then target - current
    else beam.frameLines.toUInt32 * beam.lineClocks.toUInt32 - current + target
  else beam.lineClocks.toUInt32 - beam.hpos.toUInt32

/-- The WAIT is over on this CCK. -/
def copperReleases (c : CopperState) (beam : BeamState) (dma : DmaState) (blitterBusy : Bool) : Bool :=
  dmaconCopenOn dma.dmacon && c.waiting && !(c.waitBlitter && blitterBusy) && copperWaitReached c beam

def rigelCopperDomainStep (c : CopperState) (beam : BeamState) (dma : DmaState) (blitterBusy : Bool) : CopperState :=
  let release := copperReleases c beam dma blitterBusy
  { c with
    enabled := dmaconCopenOn dma.dmacon
    triggered := release
    waiting := c.waiting && !release
    waitBlitter := c.waitBlitter && !release
    programCounter := if release then c.programCounter + 4 else c.programCounter
    eventLatched := c.eventLatched || release
    fetchPending := c.fetchPending || release }

end Rigel
