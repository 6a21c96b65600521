import Rigel.BlitterDma
import Rigel.Cia
import Rigel.Copper
import Rigel.Denise
import Rigel.Disk
import Rigel.SlotTable

/-!
# Context — one machine, its reset and its register bus

`core/rigel_context.[ch]`, `chipset/chipset.c`, `mmio/custom_regs.c`, `agnus/mmio`, `denise.c` and `paula.c`: the state
of a context, and what a write to a custom register does, whoever issues it. CPU and copper share this one path.
-/

namespace Rigel

inductive RigelVideoStd where
  | ntsc
  | pal
  deriving Repr, DecidableEq

/-- The configuration that survives in a context, apart from the chip memory's own. The last two fields are the
process switches `RIGEL_DISK_NOMINAL_SLOTS` and `RIGEL_DISK_NO_DSKSYN_IRQ`, read once: both are on by default. -/
structure RigelConfig where
  videoStd : RigelVideoStd
  cycleExact : Bool
  serialTxInstant : Bool
  diskLegacyPriority : Bool
  dsksynIrq : Bool
  deriving Repr, DecidableEq

structure RigelAgnus where
  chipRev : AgnusChipRev
  beamcon0 : UInt16
  beam : BeamState
  dma : DmaState
  copper : CopperState
  bplpt : BitplanePointers
  fetchData : Nat → UInt16
  blitter : BlitterState
  spriteDma : SpriteDmaState
  scheduler : SlotScheduler
  raster : RasterConfig
  refresh : RefreshDmaState

structure RigelPaula where
  interrupts : PaulaInterrupts
  audio : AudioState
  disk : DiskState
  input : InputState
  serial : SerialState

/-- `RigelContext` with its `RigelChipset` laid flat. `ram` is the host's chip memory behind the callbacks, with the
two configuration fields that fold addresses; `customRegs` is indexed by `addr >> 1`, `floppy` by drive number. -/
structure RigelContext where
  config : RigelConfig
  ram : ChipRam
  cycles : UInt64
  agnus : RigelAgnus
  denise : RigelDenise
  paula : RigelPaula
  ciaA : CiaState
  ciaB : CiaState
  ciaEclockRem : UInt32
  floppy : Nat → FloppyDrive
  customRegs : UInt32 → UInt16

/-! ## The register store and the interrupt sources -/

def rigelCustomIsValidReg (addr : UInt32) : Bool := addr &&& 1 == 0 && addr ≤ 0x1FE

def rigelContextReadReg (ctx : RigelContext) (addr : UInt32) : UInt16 :=
  if rigelCustomIsValidReg addr then ctx.customRegs (addr >>> 1) else 0

/-- The store after a write; an invalid offset stores nothing. -/
def customRegsStore (regs : UInt32 → UInt16) (addr : UInt32) (value : UInt16) : UInt32 → UInt16 :=
  if rigelCustomIsValidReg addr then Function.update regs (addr >>> 1) value else regs

def rigelContextWriteReg (ctx : RigelContext) (addr : UInt32) (value : UInt16) : RigelContext :=
  { ctx with customRegs := customRegsStore ctx.customRegs addr value }

def regIntena : UInt32 := 0x09A
def regIntreq : UInt32 := 0x09C

/-- `rigel_paula_clear_irq`, which leaves the register store alone. -/
def rigelPaulaClearIrq (ctx : RigelContext) (mask : UInt16) : RigelContext :=
  { ctx with paula := { ctx.paula with interrupts := interruptClear ctx.paula.interrupts mask } }

def rigelChipsetRaiseIrqSource (ctx : RigelContext) (mask : UInt16) : RigelContext :=
  { ctx with
    paula := { ctx.paula with interrupts := interruptRaise ctx.paula.interrupts mask }
    customRegs := customRegsStore ctx.customRegs regIntreq (interruptRaise ctx.paula.interrupts mask).intreq }

/-- The masks that an interrupt sink was called with, in order. -/
def raiseIrqSources (ctx : RigelContext) (masks : List UInt16) : RigelContext :=
  masks.foldl rigelChipsetRaiseIrqSource ctx

/-! ## Agnus -/

def rigelAgnusSetVideoStd (a : RigelAgnus) (std : AgnusVideoStd) : RigelAgnus :=
  { a with
    raster := rasterReset std
    beam := { a.beam with
      lineClocks := (rasterReset std).lineClocks
      frameLines := (rasterReset std).frameLines
      visibleYStop := (rasterReset std).frameLines - 1 } }

/-- `rigel_agnus_reset`: the chip revision survives. -/
def rigelAgnusReset (a : RigelAgnus) : RigelAgnus where
  chipRev := a.chipRev
  beamcon0 := 0
  beam := { beamReset with
    lineClocks := (rasterReset .ntsc).lineClocks
    frameLines := (rasterReset .ntsc).frameLines }
  dma := rigelDmaDomainReset
  copper := copperReset
  bplpt := bplptReset
  fetchData := fun _ => 0
  blitter := blitterInit
  spriteDma := spriteDmaReset
  scheduler := agnusSlotSchedulerInit a.scheduler
  raster := rasterReset .ntsc
  refresh := refreshDmaReset

def rigelCopperRegsOwnsReg (addr : UInt32) : Bool :=
  addr == 0x02E || addr == 0x080 || addr == 0x082 || addr == 0x084 || addr == 0x086 || addr == 0x088 || addr == 0x08A

/-- The copper's half of `rigel_copper_regs_write`. -/
def copperWriteReg (c : CopperState) (addr : UInt32) (value : UInt16) : CopperState :=
  match addr with
  | 0x02E => { c with copcon := value }
  | 0x080 => { c with cop1lc := copperSetPointerHi c.cop1lc value }
  | 0x082 => { c with cop1lc := copperSetPointerLo c.cop1lc value }
  | 0x084 => { c with cop2lc := copperSetPointerHi c.cop2lc value }
  | 0x086 => { c with cop2lc := copperSetPointerLo c.cop2lc value }
  | 0x088 => rigelCopperDomainJump1 c
  | 0x08A => rigelCopperDomainJump2 c
  | _ => c

def rigelCopperRegsWrite (ctx : RigelContext) (addr : UInt32) (value : UInt16) : RigelContext :=
  { ctx with
    agnus := { ctx.agnus with copper := copperWriteReg ctx.agnus.copper addr value }
    customRegs := customRegsStore ctx.customRegs addr value }

def rigelBlitterDomainOwnsReg (addr : UInt32) : Bool :=
  addr == 0x000 || addr == 0x002 || (addr ≥ 0x040 && addr ≤ 0x066 && addr &&& 1 == 0) ||
    addr == 0x070 || addr == 0x072 || addr == 0x074

def isBplptReg (addr : UInt32) : Bool := addr ≥ 0x0E0 && addr ≤ 0x0F6 && addr &&& 1 == 0
def isSprptReg (addr : UInt32) : Bool := addr ≥ 0x120 && addr ≤ 0x13E && addr &&& 1 == 0

def rigelAgnusMmioOwnsReg (addr : UInt32) : Bool :=
  addr == 0x096 || addr == 0x002 || addr == 0x092 || addr == 0x094 || addr == 0x004 || addr == 0x006 ||
    isBplptReg addr || isSprptReg addr || addr == 0x108 || addr == 0x10A || addr == 0x1DC ||
    rigelCopperRegsOwnsReg addr || rigelBlitterDomainOwnsReg addr

/-- The pointer writes of the default branch. -/
def agnusWritePointers (a : RigelAgnus) (addr : UInt32) (value : UInt16) : RigelAgnus :=
  { a with
    bplpt :=
      if isBplptReg addr then
        (if addr &&& 2 = 0 then bplptSetHi a.bplpt ((addr - 0x0E0) / 4).toNat value
          else bplptSetLo a.bplpt ((addr - 0x0E0) / 4).toNat value)
      else a.bplpt
    spriteDma :=
      if isSprptReg addr then
        (if addr &&& 2 = 0 then spriteDmaSetPtrHi a.spriteDma ((addr - 0x120) / 4).toNat value
          else spriteDmaSetPtrLo a.spriteDma ((addr - 0x120) / 4).toNat value)
      else a.spriteDma }

def agnusWriteDmacon (ctx : RigelContext) (value : UInt16) : RigelContext :=
  let dma := rigelDmaDomainWriteDmacon ctx.agnus.dma value
  { ctx with
    agnus := { ctx.agnus with
      dma := dma
      scheduler := agnusSlotSchedulerInvalidate ctx.agnus.scheduler dma.dmacon }
    customRegs := customRegsStore ctx.customRegs 0x096 dma.dmacon }

def agnusWriteDdfstrt (ctx : RigelContext) (value : UInt16) : RigelContext :=
  let sched := agnusSlotSchedulerSetDdf ctx.agnus.scheduler value ctx.agnus.scheduler.ddfstop
  { ctx with
    agnus := { ctx.agnus with raster := { ctx.agnus.raster with ddfstrt := value }, scheduler := sched }
    denise := { ctx.denise with output := { ctx.denise.output with
      ddfstrtLores := (sched.ddfstrt &&& (0x00FC : UInt16)) <<< 1 } }
    customRegs := customRegsStore ctx.customRegs 0x092 value }

def agnusWriteDdfstop (ctx : RigelContext) (value : UInt16) : RigelContext :=
  { ctx with
    agnus := { ctx.agnus with
      raster := { ctx.agnus.raster with ddfstop := value }
      scheduler := agnusSlotSchedulerSetDdf ctx.agnus.scheduler ctx.agnus.scheduler.ddfstrt value }
    customRegs := customRegsStore ctx.customRegs 0x094 value }

/-- BEAMCON0 exists on ECS only; bit 5 selects PAL. -/
def agnusWriteBeamcon0 (ctx : RigelContext) (value : UInt16) : RigelContext :=
  if ctx.agnus.chipRev = .ecs then
    { ctx with
      agnus := rigelAgnusSetVideoStd { ctx.agnus with beamcon0 := value &&& 0x0020 }
        (if value &&& 0x0020 ≠ 0 then .pal else .ntsc)
      customRegs := customRegsStore ctx.customRegs 0x1DC (value &&& 0x0020) }
  else ctx

/-- A blitter register; BLTSIZE acknowledges the BLIT interrupt first. -/
def agnusWriteBlitter (ctx : RigelContext) (addr : UInt32) (value : UInt16) : RigelContext :=
  let ctx := if addr = 0x058 then rigelPaulaClearIrq ctx blitterIntreqBlit else ctx
  { ctx with
    agnus := { ctx.agnus with blitter := blitterWriteReg16 ctx.agnus.blitter addr value }
    customRegs := customRegsStore ctx.customRegs addr value }

def rigelAgnusMmioWrite (ctx : RigelContext) (addr : UInt32) (value : UInt16) : RigelContext :=
  if rigelBlitterDomainOwnsReg addr then agnusWriteBlitter ctx addr value
  else if rigelCopperRegsOwnsReg addr then rigelCopperRegsWrite ctx addr value
  else if addr = 0x096 then agnusWriteDmacon ctx value
  else if addr = 0x092 then agnusWriteDdfstrt ctx value
  else if addr = 0x094 then agnusWriteDdfstop ctx value
  else if addr = 0x1DC then agnusWriteBeamcon0 ctx value
  else
    { ctx with
      agnus := agnusWritePointers ctx.agnus addr value
      customRegs := customRegsStore ctx.customRegs addr value }

def agnusVposrChipId (a : RigelAgnus) : UInt16 :=
  match a.chipRev, a.raster.std with
  | .ecs, .pal => 0x20
  | .ecs, .ntsc => 0x30
  | _, .pal => 0x00
  | _, .ntsc => 0x10

def rigelCopperRegsRead (ctx : RigelContext) (addr : UInt32) : UInt16 :=
  match addr with
  | 0x080 => (ctx.agnus.copper.cop1lc >>> 16).toUInt16
  | 0x082 => ctx.agnus.copper.cop1lc.toUInt16
  | 0x084 => (ctx.agnus.copper.cop2lc >>> 16).toUInt16
  | 0x086 => ctx.agnus.copper.cop2lc.toUInt16
  | _ => rigelContextReadReg ctx addr

def rigelAgnusMmioRead (ctx : RigelContext) (addr : UInt32) : UInt16 :=
  let a := ctx.agnus
  if addr = 0x002 then
    a.dma.dmacon ||| (if blitterIsBusy a.blitter then 0x4000 else 0) ||| (if a.blitter.result.zero then 0x2000 else 0)
  else if addr = 0x096 then a.dma.dmacon
  else if rigelBlitterDomainOwnsReg addr then blitterReadReg16 a.blitter addr
  else if rigelCopperRegsOwnsReg addr then rigelCopperRegsRead ctx addr
  else if addr = 0x004 then
    (a.beam.lof.toUInt16 <<< 15) ||| (agnusVposrChipId a <<< 8) ||| ((a.beam.vpos >>> 8) &&& (0x7 : UInt16))
  else if addr = 0x006 then
    ((a.beam.vpos &&& (0xFF : UInt16)) <<< 8) ||| ((a.beam.hpos >>> 1) &&& (0xFF : UInt16))
  else if addr = 0x1DC then (if a.chipRev = .ecs then a.beamcon0 else 0)
  else rigelContextReadReg ctx addr

/-! ## Denise -/

/-- What a BPLCON0 write does to Agnus: resolution and depth of the fetch, and the interlace toggle. -/
def agnusFollowBplcon0 (a : RigelAgnus) (value : UInt16) : RigelAgnus :=
  { a with
    scheduler := agnusSlotSchedulerSetDepth (agnusSlotSchedulerSetHires a.scheduler (value &&& 0x8000 != 0))
      ((value >>> 12) &&& 0x7)
    beam := { a.beam with
      lofToggle := if value &&& 0x0004 ≠ 0 then 1 else 0
      lof := if value &&& 0x0004 = 0 then 0 else a.beam.lof } }

def agnusFollowDenise (a : RigelAgnus) (addr : UInt32) (value : UInt16) : RigelAgnus :=
  match addr with
  | 0x100 => agnusFollowBplcon0 a value
  | 0x08E =>
    { a with
      raster := { a.raster with diwstrt := value }
      scheduler := agnusSlotSchedulerSetVstrt a.scheduler value }
  | 0x090 => { a with raster := { a.raster with diwstop := value } }
  | _ => a

def rigelDeniseWriteReg (ctx : RigelContext) (addr : UInt32) (value : UInt16) : RigelContext :=
  { ctx with
    denise := rigelDeniseRegistersWrite ctx.denise addr value
    customRegs := customRegsStore ctx.customRegs addr value
    agnus := agnusFollowDenise ctx.agnus addr value }

/-! ## Paula -/

def paulaOwnsReg (addr : UInt32) : Bool :=
  inputOwnsReg addr || audioOwnsReg addr || diskOwnsReg addr || serialOwnsReg addr || interruptOwnsReg addr

/-- A disk register: the sink runs inside the write, then the store keeps DSKLEN and ADKCON as the disk holds them. -/
def paulaWriteDisk (ctx : RigelContext) (addr : UInt32) (value : UInt16) : RigelContext :=
  let r := diskWriteReg ctx.config.dsksynIrq ctx.paula.disk (ctx.floppy ctx.paula.disk.drive) addr value
  let ctx := raiseIrqSources { ctx with paula := { ctx.paula with disk := r.1 } } r.2
  rigelContextWriteReg ctx addr
    (if addr = 0x024 then r.1.dsklen else if addr = 0x09E then r.1.adkcon else value)

def paulaWriteSerial (ctx : RigelContext) (addr : UInt32) (value : UInt16) : RigelContext :=
  let r := serialWriteReg ctx.paula.serial addr value
  let ctx := raiseIrqSources { ctx with paula := { ctx.paula with serial := r.1 } } r.2
  rigelContextWriteReg ctx addr (if addr = 0x032 then r.1.serper else value)

def paulaWriteInterrupts (ctx : RigelContext) (addr : UInt32) (value : UInt16) : RigelContext :=
  let irq := interruptWriteReg ctx.paula.interrupts addr value
  rigelContextWriteReg { ctx with paula := { ctx.paula with interrupts := irq } } addr (interruptReadReg irq addr)

def paulaWriteReg (ctx : RigelContext) (addr : UInt32) (value : UInt16) : RigelContext :=
  if inputOwnsReg addr then
    rigelContextWriteReg
      { ctx with paula := { ctx.paula with input := inputWriteReg ctx.paula.input addr value } } addr value
  else if audioOwnsReg addr then
    rigelContextWriteReg
      { ctx with paula := { ctx.paula with audio := audioWriteReg ctx.paula.audio addr value } } addr value
  else if diskOwnsReg addr then paulaWriteDisk ctx addr value
  else if serialOwnsReg addr then paulaWriteSerial ctx addr value
  else if interruptOwnsReg addr then paulaWriteInterrupts ctx addr value
  else rigelContextWriteReg ctx addr value

/-- `paula_read_reg`: SERDATR and DSKBYTR change state when they are read. -/
def paulaReadReg (ctx : RigelContext) (addr : UInt32) : RigelContext × UInt16 :=
  if inputOwnsReg addr then (ctx, inputReadReg ctx.paula.input addr)
  else if audioOwnsReg addr then (ctx, rigelContextReadReg ctx addr)
  else if diskOwnsReg addr then
    ({ ctx with paula := { ctx.paula with disk := (diskReadReg ctx.paula.disk addr).1 } },
      (diskReadReg ctx.paula.disk addr).2)
  else if serialOwnsReg addr then
    ({ ctx with paula := { ctx.paula with serial := (serialReadReg ctx.paula.serial addr).1 } },
      (serialReadReg ctx.paula.serial addr).2)
  else if interruptOwnsReg addr then (ctx, interruptReadReg ctx.paula.interrupts addr)
  else (ctx, rigelContextReadReg ctx addr)

/-! ## Dispatch -/

inductive RigelCustomDomain where
  | unknown
  | agnus
  | denise
  | paula
  deriving Repr, DecidableEq

def paulaListedRegs : List UInt32 :=
  [0x09A, 0x008, 0x00A, 0x00C, 0x010, 0x012, 0x014, 0x016, 0x018, 0x01A, 0x020, 0x022, 0x024, 0x030, 0x032, 0x034,
    0x07E, 0x09E, 0x09C]

def rigelCustomDomainForReg (addr : UInt32) : RigelCustomDomain :=
  if !rigelCustomIsValidReg addr then .unknown
  else if addr = 0x096 then .agnus
  else if paulaListedRegs.contains addr then .paula
  else if addr = 0x180 then .denise
  else if rigelAgnusMmioOwnsReg addr then .agnus
  else if rigelDeniseRegistersOwnsReg addr then .denise
  else if paulaOwnsReg addr then .paula
  else .unknown

def customRegsWrite16 (ctx : RigelContext) (addr : UInt32) (value : UInt16) : RigelContext :=
  if !rigelCustomIsValidReg addr then ctx
  else match rigelCustomDomainForReg addr with
    | .agnus => rigelAgnusMmioWrite ctx addr value
    | .paula => paulaWriteReg ctx addr value
    | .denise => rigelDeniseWriteReg ctx addr value
    | .unknown => rigelContextWriteReg ctx addr value

def customRegsRead16 (ctx : RigelContext) (addr : UInt32) : RigelContext × UInt16 :=
  if !rigelCustomIsValidReg addr then (ctx, 0)
  else match rigelCustomDomainForReg addr with
    | .agnus => (ctx, rigelAgnusMmioRead ctx addr)
    | .paula => paulaReadReg ctx addr
    | .denise => (ctx, rigelDeniseRegistersRead ctx.denise addr)
    | .unknown => (ctx, rigelContextReadReg ctx addr)

/-! ## Reset -/

def floppyDriveCount : Nat := 4

/-- A drive over a chipset reset: only DF0 exists by default, and a drive with media stays connected. -/
def floppyChipsetReset (i : Nat) (d : FloppyDrive) : FloppyDrive :=
  floppySetConnected (floppyReset d) ((d.connected && d.diskInserted) || i == 0)

def rigelPaulaReset (p : RigelPaula) : RigelPaula where
  interrupts := interruptReset
  audio := audioReset
  disk := { diskReset p.disk with drive := 0 }
  input := inputReset
  serial := serialReset p.serial

/-- The interrupt registers once both fresh CIAs have been attached to the fresh Paula. -/
def attachedInterrupts : PaulaInterrupts := (ciaAttachPaula (ciaInit .portB) (ciaAttachPaula (ciaInit .portA) interruptReset).irq).irq

/-- `rigel_chipset_reset` without the clock chip. -/
def rigelChipsetReset (ctx : RigelContext) : RigelContext :=
  { ctx with
    cycles := 0
    ciaEclockRem := 0
    floppy := fun i => if i < floppyDriveCount then floppyChipsetReset i (ctx.floppy i) else ctx.floppy i
    agnus := rigelAgnusReset ctx.agnus
    denise := rigelDeniseReset ctx.denise
    paula := { rigelPaulaReset ctx.paula with interrupts := attachedInterrupts }
    ciaA := { (ciaAttachPaula (ciaInit .portA) interruptReset).cia with ddra := 0x03, extPra := 0xFF }
    ciaB := (ciaAttachPaula (ciaInit .portB) (ciaAttachPaula (ciaInit .portA) interruptReset).irq).cia
    customRegs := fun _ => 0 }

def chipRevOf (m : ChipsetModel) : AgnusChipRev :=
  match m with
  | .ecs => .ecs
  | .ocs => .ocs

def videoStdOf (v : RigelVideoStd) : AgnusVideoStd :=
  match v with
  | .pal => .pal
  | .ntsc => .ntsc

/-- `rigel_reset`: the chipset, the revision and standard of the configuration, the wiring, the blitter's cost model. -/
def rigelReset (ctx : RigelContext) : RigelContext :=
  let c := rigelChipsetReset ctx
  let a := rigelAgnusSetVideoStd { c.agnus with chipRev := chipRevOf ctx.ram.chipsetModel }
    (videoStdOf ctx.config.videoStd)
  { c with
    agnus := { a with blitter := { a.blitter with cycleExact := ctx.config.cycleExact } }
    denise := rigelDeniseSetChipRev c.denise (chipRevOf ctx.ram.chipsetModel)
    paula := { c.paula with serial :=
      if ctx.config.serialTxInstant then serialSetTxInstant c.paula.serial true else c.paula.serial } }

end Rigel
