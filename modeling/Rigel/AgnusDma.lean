import Rigel.Beam
import Rigel.ChipRam

/-!
# AgnusDma — DMACON, raster geometry and the fetch channels

`dma/dmacon.h`, `domains/dma`, `timing/raster.c`, `dma/refresh_dma.c`, `dma/sprite_dma.c` and
`bitplanes/bitplane_pointers.c`: the DMA control word with its enable queries, the PAL/NTSC geometry, and the
state that the refresh, sprite and bitplane channels keep between the slots that the scheduler grants them.
-/

namespace Rigel

/-! ## DMACON -/

def dmaconDmaen : UInt16 := 0x0200
def dmaconBltpri : UInt16 := 0x0400
def dmaconBplen : UInt16 := 0x0100
def dmaconCopen : UInt16 := 0x0080
def dmaconBlten : UInt16 := 0x0040
def dmaconSpren : UInt16 := 0x0020
def dmaconDsken : UInt16 := 0x0010
def dmaconSetclr : UInt16 := 0x8000

/-- A channel is enabled when its own bit and the master bit are set. -/
def dmaconEnabled (channel d : UInt16) : Bool := d &&& (dmaconDmaen ||| channel) == dmaconDmaen ||| channel

def dmaconMaster (d : UInt16) : Bool := d &&& dmaconDmaen != 0
def dmaconBplenOn (d : UInt16) : Bool := dmaconEnabled dmaconBplen d
def dmaconCopenOn (d : UInt16) : Bool := dmaconEnabled dmaconCopen d
def dmaconBltenOn (d : UInt16) : Bool := dmaconEnabled dmaconBlten d
def dmaconSprenOn (d : UInt16) : Bool := dmaconEnabled dmaconSpren d
def dmaconDskenOn (d : UInt16) : Bool := dmaconEnabled dmaconDsken d

def dmaconAuden (d : UInt16) (ch : Nat) : Bool :=
  match ch with
  | 0 => dmaconEnabled 0x0001 d
  | 1 => dmaconEnabled 0x0002 d
  | 2 => dmaconEnabled 0x0004 d
  | 3 => dmaconEnabled 0x0008 d
  | _ => false

structure DmaState where
  dmacon : UInt16
  enabled : Bool
  blitterEnabled : Bool
  deriving Repr, DecidableEq

/-- `rigel_dma_apply_setclr`, shared by every set/clear register. -/
def applySetclr (current value : UInt16) : UInt16 :=
  if value &&& 0x8000 ≠ 0 then current ||| (value &&& 0x7FFF) else current &&& ~~~(value &&& 0x7FFF)

def rigelDmaDomainReset : DmaState := ⟨0, false, false⟩

def rigelDmaDomainSyncDmacon (dmacon : UInt16) : DmaState where
  dmacon := dmacon
  enabled := dmacon &&& dmaconDmaen != 0
  blitterEnabled := dmacon &&& dmaconBlten != 0

def rigelDmaDomainWriteDmacon (dma : DmaState) (value : UInt16) : DmaState :=
  rigelDmaDomainSyncDmacon (applySetclr dma.dmacon value)

/-! ## Geometry -/

inductive AgnusVideoStd where
  | ntsc
  | pal
  deriving Repr, DecidableEq

inductive AgnusChipRev where
  | ocs
  | ecs
  | aga
  deriving Repr, DecidableEq

structure RasterConfig where
  std : AgnusVideoStd
  lineClocks : UInt16
  frameLines : UInt16
  diwstrt : UInt16
  diwstop : UInt16
  ddfstrt : UInt16
  ddfstop : UInt16
  deriving Repr, DecidableEq

def rasterReset (std : AgnusVideoStd) : RasterConfig where
  std := std
  lineClocks := 227
  frameLines := match std with
    | .pal => 312
    | .ntsc => 262
  diwstrt := 0
  diwstop := 0
  ddfstrt := 0
  ddfstop := 0

/-! ## Refresh -/

structure RefreshDmaState where
  pendingCycles : UInt32
  slotHpos : List UInt16
  deriving Repr, DecidableEq

def refreshDmaReset : RefreshDmaState := ⟨0, [0x01, 0x03, 0x05]⟩

def refreshDmaStep (r : RefreshDmaState) (cycles : UInt32) : RefreshDmaState :=
  { r with pendingCycles := r.pendingCycles + cycles }

def refreshDmaOwnsSlot (r : RefreshDmaState) (hpos : UInt16) : Bool := r.slotHpos.contains hpos

/-! ## Sprites -/

structure SpriteDmaChannel where
  basePtr : UInt32
  ptr : UInt32
  armed : Bool
  terminated : Bool
  fetchCtrl : Bool
  vstart : UInt16
  vstop : UInt16
  w0 : UInt16
  deriving Repr, DecidableEq

/-- The eight channels, by number. -/
structure SpriteDmaState where
  sp : Nat → SpriteDmaChannel

def spriteDmaChannels : Nat := 8

def spriteDmaReset : SpriteDmaState := ⟨fun _ => ⟨0, 0, false, false, true, 0, 0, 0⟩⟩

/-- What both pointer writes do once the new base pointer is known. -/
def spriteDmaRebase (ch : SpriteDmaChannel) (basePtr : UInt32) : SpriteDmaChannel :=
  { ch with basePtr := basePtr, ptr := basePtr, armed := false, terminated := false, fetchCtrl := true }

def spriteDmaSetPtrHi (s : SpriteDmaState) (sp : Nat) (val : UInt16) : SpriteDmaState :=
  if sp ≥ spriteDmaChannels then s
  else ⟨Function.update s.sp sp
    (spriteDmaRebase (s.sp sp) (((s.sp sp).basePtr &&& (0x0000FFFF : UInt32)) ||| (val.toUInt32 <<< 16)))⟩

def spriteDmaSetPtrLo (s : SpriteDmaState) (sp : Nat) (val : UInt16) : SpriteDmaState :=
  if sp ≥ spriteDmaChannels then s
  else ⟨Function.update s.sp sp
    (spriteDmaRebase (s.sp sp) (((s.sp sp).basePtr &&& 0xFFFF0000) ||| val.toUInt32))⟩

def spriteDmaFrameStart (s : SpriteDmaState) : SpriteDmaState :=
  ⟨fun i => { spriteDmaRebase (s.sp i) (s.sp i).basePtr with vstart := 0, vstop := 0, w0 := 0 }⟩

/-- The A-slot of a channel: choose control or data for this line and latch the first word. -/
def spriteDmaSlotA (ch : SpriteDmaChannel) (vpos : UInt16) (mem : ChipRam) : SpriteDmaChannel :=
  { ch with
    fetchCtrl := !ch.armed || vpos ≥ ch.vstop
    w0 := chipRamRead16 mem ch.ptr
    ptr := ch.ptr + 2 }

/-- The B-slot of a channel: the channel, and the pair it delivers with its control flag. -/
def spriteDmaSlotB (ch : SpriteDmaChannel) (mem : ChipRam) :
    SpriteDmaChannel × Option (UInt16 × UInt16 × Bool) :=
  let w1 := chipRamRead16 mem ch.ptr
  let ch := { ch with ptr := ch.ptr + 2 }
  if ch.fetchCtrl then
    if ch.w0 = 0 ∧ w1 = 0 then ({ ch with armed := false, terminated := true, fetchCtrl := true }, none)
    else
      ({ ch with
          vstart := ((ch.w0 >>> 8) &&& (0xFF : UInt16)) ||| (((w1 >>> 2) &&& (1 : UInt16)) <<< 8)
          vstop := ((w1 >>> 8) &&& (0xFF : UInt16)) ||| (((w1 >>> 1) &&& (1 : UInt16)) <<< 8)
          armed := true }, some (ch.w0, w1, true))
  else (ch, some (ch.w0, w1, false))

/-- `sprite_dma_slot`: `some` pair where the source answers `true`. -/
def spriteDmaSlot (s : SpriteDmaState) (sp : Nat) (vpos : UInt16) (isB : Bool) (mem : ChipRam) :
    SpriteDmaState × Option (UInt16 × UInt16 × Bool) :=
  if sp ≥ spriteDmaChannels then (s, if isB then some (0, 0, true) else none)
  else if (s.sp sp).terminated || ((s.sp sp).armed && vpos < (s.sp sp).vstart) then (s, none)
  else if isB then
    (⟨Function.update s.sp sp (spriteDmaSlotB (s.sp sp) mem).1⟩, (spriteDmaSlotB (s.sp sp) mem).2)
  else (⟨Function.update s.sp sp (spriteDmaSlotA (s.sp sp) vpos mem)⟩, none)

/-! ## Bitplane pointers -/

def bitplaneCount : Nat := 6

/-- The six plane pointers, by number. -/
structure BitplanePointers where
  bplpt : Nat → UInt32

def bplptReset : BitplanePointers := ⟨fun _ => 0⟩

def bplptSetHi (p : BitplanePointers) (plane : Nat) (val : UInt16) : BitplanePointers :=
  if plane ≥ bitplaneCount then p
  else ⟨Function.update p.bplpt plane ((p.bplpt plane &&& (0x0000FFFF : UInt32)) ||| (val.toUInt32 <<< 16))⟩

def bplptSetLo (p : BitplanePointers) (plane : Nat) (val : UInt16) : BitplanePointers :=
  if plane ≥ bitplaneCount then p
  else ⟨Function.update p.bplpt plane ((p.bplpt plane &&& 0xFFFF0000) ||| (val &&& 0xFFFE).toUInt32)⟩

def bplptApplyModulo (p : BitplanePointers) (depth : Nat) (bpl1mod bpl2mod : Int16) : BitplanePointers :=
  ⟨fun i =>
    if i < depth ∧ i < bitplaneCount then
      (p.bplpt i + (if i % 2 = 1 then bpl2mod else bpl1mod).toInt32.toUInt32) &&& 0x001FFFFE
    else p.bplpt i⟩

end Rigel
