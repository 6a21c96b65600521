import Rigel.Chipset

/-!
# Reach — every state a host can bring a context into

A context is created from a configuration and then changed by calls of the public API only, in any order: steps of any
size, register accesses, resets, input, media, and stores into chip memory. `rigel_mmio_read` and `rigel_mmio_write`
are sequences of the register accesses here.
-/

namespace Rigel

/-! ## Creation -/

def SlotScheduler.cleared : SlotScheduler where
  table := fun _ => .free
  bitplaneSlotIndex := fun _ => 0
  hpos := 0
  dmacon := 0
  ddfstrt := 0
  ddfstop := 0
  depth := 0
  lineIsVbl := false
  tableDirty := false
  copperActive := false
  copperRequest := false
  blitterNasty := false
  blitterActive := false
  fetchPlaneIndex := 0
  bitplaneDmaThisLine := false
  bitplaneWordsThisLine := 0
  bitplaneLineDepth := 0
  bitplaneLineBase := fun _ => 0
  bitplaneLineBaseValid := false
  hires := false
  vstrt := 0

def RigelAgnus.cleared : RigelAgnus where
  chipRev := .ocs
  beamcon0 := 0
  beam := ⟨0, 0, 0, 0, 0, 0, 0, 0, 0, 0, 0⟩
  dma := rigelDmaDomainReset
  copper := { copperReset with waitVpmask := 0, waitHpmask := 0 }
  bplpt := bplptReset
  fetchData := fun _ => 0
  blitter := { blitterInit with
    regs := ⟨0, 0, 0, 0, 0, 0, 0, 0, 0, 0, 0, 0, 0, 0, 0, 0, 0, 0, 0, 0⟩
    result := BlitterResult.cleared }
  spriteDma := ⟨fun _ => ⟨0, 0, false, false, false, 0, 0, 0⟩⟩
  scheduler := SlotScheduler.cleared
  raster := ⟨.ntsc, 0, 0, 0, 0, 0, 0⟩
  refresh := ⟨0, [0, 0, 0]⟩

def DeniseOutputState.cleared : DeniseOutputState where
  frameCounter := 0
  beamHpos := 0
  beamVpos := 0
  currentScanline := 0
  currentPixel := 0
  scanlineWidth := 0
  frontIdx := 0
  visibleScanline := false
  scanlineDirty := false
  frameDirty := false
  beamLof := 0
  beamLofToggle := 0
  planeWords := fun _ _ => 0
  planeWordCount := 0
  lineBplcon0 := 0
  lineBplcon1 := 0
  lineBplcon2 := 0
  lineBplconValid := false
  ddfstrtLores := 0
  pendingFlags := 0
  pendingDirty := fun _ => 0
  completedFlags := 0
  completedDirty := fun _ => 0
  pendingFullRedraw := false
  completedFullRedraw := false

def RigelDenise.cleared : RigelDenise where
  chipRev := .ocs
  regs := ⟨fun _ => 0, 0, 0, 0, 0, 0, 0, 0⟩
  palette := ⟨fun _ => 0, fun _ => 0⟩
  sprites := deniseSpritesReset
  clxcon := 0
  video := ⟨0, 0, 0, 0, 0, 0⟩
  output := DeniseOutputState.cleared
  lastColorIndex := 0

def DiskState.cleared : DiskState :=
  ⟨0, 0, 0, 0, 0, 0, false, false, false, false, false, 0, 0, 0, 0, 0, 0, 0, 0, 0, fun _ => 0, 0⟩

def SerialState.cleared : SerialState :=
  ⟨0, 0, false, 0, false, 0, 0, false, false, false, false, fun _ => 0, 0, 0, 0, false⟩

def FloppyDrive.cleared : FloppyDrive :=
  { floppyInit with track0 := false, diskChanged := false, writeProtected := false, stepLatch := false }

/-- The zeroed allocation of `rigel_create`, with the configuration copied in. -/
def RigelContext.cleared (config : RigelConfig) (ram : ChipRam) : RigelContext where
  config := config
  ram := ram
  cycles := 0
  agnus := RigelAgnus.cleared
  denise := RigelDenise.cleared
  paula := ⟨interruptReset, audioReset, DiskState.cleared, inputReset, SerialState.cleared⟩
  ciaA := ciaInit .portA
  ciaB := ciaInit .portB
  ciaEclockRem := 0
  floppy := fun _ => FloppyDrive.cleared
  customRegs := fun _ => 0

/-- `rigel_create` without the clock chip. -/
def rigelCreate (config : RigelConfig) (ram : ChipRam) : RigelContext := rigelReset (RigelContext.cleared config ram)

/-! ## The host's calls -/

/-- A call of the public API that changes a context. -/
inductive HostCall where
  | reset
  | step (cycles : UInt64)
  | stepUntil (target : UInt64)
  | customRead (addr : UInt32)
  | customWrite (addr : UInt32) (value : UInt16)
  | ciaRead (id : CiaId) (reg : UInt8)
  | ciaWrite (id : CiaId) (reg value : UInt8)
  | setCycleExact (on : Bool)
  | loadState (s : RigelSnapshot)
  | setJoydat (port : Nat) (value : UInt16)
  | setPotButtonX (port : Nat) (pressed : Bool)
  | setPotButtonY (port : Nat) (pressed : Bool)
  | setFire (port : Nat) (pressed : Bool)
  | floppyInsert (drive : Nat) (data : Option (Nat → UInt8)) (size : UInt32)
  | floppyEject (drive : Nat)
  | serialReceive (byte : UInt8)
  | serialPop
  | serialSetTxInstant (enabled : Bool)
  | keyboardInject (keycode : UInt8) (pressed : Bool)
  | writeRam (words : UInt32 → UInt16)

def hostCall (ctx : RigelContext) : HostCall → RigelContext
  | .reset => rigelReset ctx
  | .step cycles => (rigelStep ctx cycles).1
  | .stepUntil target => (rigelStepUntil ctx target).1
  | .customRead addr => (customRegsRead16 ctx addr).1
  | .customWrite addr value => customRegsWrite16 ctx addr value
  | .ciaRead id reg => (rigelCiaRead ctx id reg).1
  | .ciaWrite id reg value => rigelCiaWrite ctx id reg value
  | .setCycleExact on => rigelSetCycleExact ctx on
  | .loadState s => rigelLoadState ctx s
  | .setJoydat port value => rigelInputSetJoydat ctx port value
  | .setPotButtonX port pressed => rigelInputSetPotButtonX ctx port pressed
  | .setPotButtonY port pressed => rigelInputSetPotButtonY ctx port pressed
  | .setFire port pressed => rigelInputSetFire ctx port pressed
  | .floppyInsert drive data size => rigelFloppyInsert ctx drive data size
  | .floppyEject drive => rigelFloppyEject ctx drive
  | .serialReceive byte => rigelSerialReceiveByte ctx byte
  | .serialPop => (rigelSerialPopTxByte ctx).1
  | .serialSetTxInstant enabled => rigelSerialSetTxInstant ctx enabled
  | .keyboardInject keycode pressed => rigelKeyboardInject ctx keycode pressed
  | .writeRam words => hostWriteRam ctx words

inductive Reachable : RigelContext → Prop
  | create (config : RigelConfig) (ram : ChipRam) : Reachable (rigelCreate config ram)
  | call {ctx : RigelContext} (h : Reachable ctx) (c : HostCall) : Reachable (hostCall ctx c)

theorem Reachable.calls : ∀ {ctx : RigelContext} (_ : Reachable ctx) (cs : List HostCall), Reachable (cs.foldl hostCall ctx)
  | _, h, [] => h
  | _, h, c :: cs => (h.call c).calls cs

theorem Reachable.step {ctx : RigelContext} (h : Reachable ctx) (cycles : UInt64) : Reachable (rigelStep ctx cycles).1 :=
  h.call (.step cycles)

/-- A PAL machine on OCS chips with half a megabyte of cleared memory, as created. -/
def palMachine : RigelContext := rigelCreate ⟨.pal, false, false, true, true⟩ ⟨.ocs, 0x80000, true, true, fun _ => 0⟩

theorem palMachine_reachable : Reachable palMachine := .create _ _

end Rigel
