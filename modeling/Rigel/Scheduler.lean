import Mathlib.Logic.Function.Iterate
import Rigel.Context

/-!
# Scheduler — one colour clock of the machine

`agnus/copper/copper_service.c`, `copper_exec.c` and the dynamic half of `timing/slot_scheduler.c`. A step samples
DMACON, lets the copper compare its WAIT with the beam, picks the owner of the slot (the table's, unless disk, blitter
or copper take it), runs that owner, and then moves the beam by one clock with the work that a new line and the VERTB
position bring.
-/

namespace Rigel

/-! ## Copper instructions -/

def setCopper (ctx : RigelContext) (c : CopperState) : RigelContext :=
  { ctx with agnus := { ctx.agnus with copper := c } }

/-- COPCON's CDANG opens the registers from `$40` on; without it MOVE reaches `$80` and above. -/
def copperMoveBlocked (copcon : UInt16) (reg : UInt32) : Bool :=
  if copcon &&& 0x0002 ≠ 0 then reg < 0x40 else reg < 0x80

def frameCopperActive : UInt32 := 0x8

def copperExecMove (ctx : RigelContext) (ir1 ir2 : UInt16) : RigelContext :=
  let reg : UInt32 := (ir1 &&& 0x01FE).toUInt32
  if copperMoveBlocked ctx.agnus.copper.copcon reg then
    setCopper ctx { ctx.agnus.copper with waiting := false, fetchPending := false, stoppedUntilVbl := true }
  else
    customRegsWrite16
      { ctx with denise := { ctx.denise with output := { ctx.denise.output with
          pendingFlags := ctx.denise.output.pendingFlags ||| frameCopperActive } } } reg ir2

/-- The end of a MOVE: a jump is told from straight-line execution by the program counter having moved. -/
def copperAfterMove (pcBefore : UInt32) (c : CopperState) : CopperState :=
  if c.stoppedUntilVbl then c
  else
    { c with
      programCounter := if c.programCounter = pcBefore then c.programCounter + 4 else c.programCounter
      triggered := true
      eventLatched := true
      fetchPending := true }

/-- An instruction has been fetched: SKIP, WAIT or MOVE. -/
def copperExecute (ctx : RigelContext) (ir1 ir2 : UInt16) : RigelContext :=
  let c := ctx.agnus.copper
  if ir1 &&& 0x0001 ≠ 0 then
    if ir2 &&& 0x0001 ≠ 0 then
      let skip := copperExecSkipTest ir1 ir2 ctx.agnus.beam.hpos ctx.agnus.beam.vpos
      setCopper ctx { c with programCounter := c.programCounter + (if skip then 8 else 4), fetchPending := true }
    else setCopper ctx (copperWaitArm c ir1 ir2)
  else
    let moved := copperExecMove ctx ir1 ir2
    setCopper moved (copperAfterMove c.programCounter moved.agnus.copper)

/-- `rigel_copper_service_step_program`. -/
def rigelCopperServiceStepProgram (ctx : RigelContext) : RigelContext :=
  let c := ctx.agnus.copper
  if c.stoppedUntilVbl then ctx
  else if !c.enabled || !c.fetchPending then ctx
  else
    copperExecute (setCopper ctx { c with fetchPending := false }) (chipRamRead16 ctx.ram c.programCounter)
      (chipRamRead16 ctx.ram (c.programCounter + 2))

/-! ## The other slot owners -/

def diskSlot (ctx : RigelContext) : RigelContext :=
  let r := diskDmaServiceGrant ctx.config.dsksynIrq ctx.paula.disk ctx.ram
  raiseIrqSources { ctx with ram := r.mem, paula := { ctx.paula with disk := r.disk } } r.irqs

/-- An audio slot. No code of the library attaches an interrupt sink to the audio, so the mask of a finished block goes
nowhere. -/
def audioSlot (ctx : RigelContext) (channel : Nat) : RigelContext :=
  { ctx with paula := { ctx.paula with audio := (audioDmaStepSlot ctx.paula.audio channel ctx.ram).1 } }

def spriteSlot (ctx : RigelContext) (sp : Nat) (hpos : UInt16) : RigelContext :=
  let r := spriteDmaSlot ctx.agnus.spriteDma sp ctx.agnus.beam.vpos (hpos &&& 2 != 0) ctx.ram
  { ctx with
    agnus := { ctx.agnus with spriteDma := r.1 }
    denise := { ctx.denise with sprites :=
      match r.2 with
      | none => ctx.denise.sprites
      | some (w0, w1, true) => deniseSpriteReceiveCtrl ctx.denise.sprites sp w0 w1
      | some (w0, w1, false) => deniseSpriteReceiveData ctx.denise.sprites sp w0 w1 } }

/-- The word index of a bitplane slot: the table's, or the running index where the table has none. -/
def bitplaneLogical (s : SlotScheduler) (hpos : UInt16) : UInt16 :=
  let logical := if hpos.toNat < agnusSlotsPerLine then s.bitplaneSlotIndex hpos.toNat else 0xFFFF
  if logical = 0xFFFF then s.fetchPlaneIndex else logical

/-- The pointers of this line, frozen at its first fetch. -/
def bitplaneLatchLine (a : RigelAgnus) : SlotScheduler :=
  if a.scheduler.bitplaneLineBaseValid then a.scheduler
  else
    { a.scheduler with
      bitplaneLineBase := fun p =>
        if p < bitplaneCount then a.bplpt.bplpt p &&& 0x001FFFFE else a.scheduler.bitplaneLineBase p
      bitplaneLineDepth := a.scheduler.depth
      bitplaneLineBaseValid := true }

def deniseLatchBplcon (d : RigelDenise) : DeniseOutputState :=
  if d.output.lineBplconValid then d.output
  else
    { d.output with
      lineBplcon0 := d.regs.bplcon0
      lineBplcon1 := d.regs.bplcon1
      lineBplcon2 := d.regs.bplcon2
      lineBplconValid := true }

/-- One fetched word, delivered to plane `plane` at index `widx`. -/
def bitplaneFetch (ctx : RigelContext) (plane widx : Nat) (logical : UInt16) : RigelContext :=
  let s := bitplaneLatchLine ctx.agnus
  let o := deniseLatchBplcon ctx.denise
  let data := chipRamRead16 ctx.ram ((s.bitplaneLineBase plane + UInt32.ofNat widx * 2) &&& 0x001FFFFE)
  { ctx with
    agnus := { ctx.agnus with
      fetchData := Function.update ctx.agnus.fetchData plane data
      scheduler := { s with
        bitplaneDmaThisLine := true
        bitplaneWordsThisLine :=
          if UInt16.ofNat widx + 1 > s.bitplaneWordsThisLine then UInt16.ofNat widx + 1 else s.bitplaneWordsThisLine
        fetchPlaneIndex := logical + 1 } }
    denise := { ctx.denise with output := { o with
      planeWords := Function.update o.planeWords plane (Function.update (o.planeWords plane) widx data)
      planeWordCount := if UInt16.ofNat widx + 1 > o.planeWordCount then UInt16.ofNat widx + 1 else o.planeWordCount } } }

def bitplaneSlot (ctx : RigelContext) (hpos : UInt16) : RigelContext :=
  let depth := ctx.agnus.scheduler.depth.toNat
  let logical := bitplaneLogical ctx.agnus.scheduler hpos
  if depth > 0 ∧ depth ≤ 6 ∧ logical.toNat / depth < deniseMaxPlaneWords then
    bitplaneFetch ctx (logical.toNat % depth) (logical.toNat / depth) logical
  else ctx

/-- `rigel_agnus_blitter_step_dma(ctx, 1)`. -/
def blitterSlot (ctx : RigelContext) : RigelContext :=
  let r := rigelBlitterDomainStepDma ctx.agnus.blitter ctx.ram 1
  raiseIrqSources { ctx with ram := r.mem, agnus := { ctx.agnus with blitter := r.blitter } } r.irq.toList

def refreshSlot (ctx : RigelContext) : RigelContext :=
  { ctx with agnus := { ctx.agnus with refresh := refreshDmaStep ctx.agnus.refresh 1 } }

def dispatchSlot (owner : SlotOwner) (ctx : RigelContext) (hpos : UInt16) : RigelContext :=
  match owner with
  | .free => ctx
  | .cpu => ctx
  | .refresh => refreshSlot ctx
  | .disk => diskSlot ctx
  | .audio ch => audioSlot ctx ch.val
  | .sprite sp => spriteSlot ctx sp.val hpos
  | .bitplane => bitplaneSlot ctx hpos
  | .copper => rigelCopperServiceStepProgram ctx
  | .blitter => blitterSlot ctx

/-! ## The step -/

/-- The live flags: DMACON against its cached copy, the blitter, and the copper after its WAIT comparison. -/
def schedulerSample (ctx : RigelContext) : RigelContext :=
  let a := ctx.agnus
  let live := a.dma.dmacon
  let busy := blitterIsBusy a.blitter
  let copper := rigelCopperDomainStep a.copper a.beam a.dma busy
  { ctx with agnus := { a with
      copper := copper
      scheduler := { a.scheduler with
        dmacon := live
        tableDirty := a.scheduler.tableDirty || a.scheduler.dmacon != live
        blitterActive := busy && dmaconBltenOn live
        copperActive := dmaconCopenOn live
        copperRequest := dmaconCopenOn live && copper.fetchPending
        blitterNasty := live &&& dmaconBltpri != 0
        hpos := a.beam.hpos } } }

def agnusFreshTable (a : RigelAgnus) : SlotScheduler :=
  if a.scheduler.tableDirty then agnusSlotSchedulerRebuild a.scheduler a.beam.vpos a.refresh else a.scheduler

def schedulerRefreshTable (ctx : RigelContext) : RigelContext :=
  { ctx with agnus := { ctx.agnus with scheduler := agnusFreshTable ctx.agnus } }

/-- The table's owner at the scheduler's position. -/
def staticOwner (s : SlotScheduler) : SlotOwner :=
  s.table (if s.hpos.toNat < agnusSlotsPerLine then s.hpos.toNat else 0)

/-- An active transfer takes every slot but refresh while master DMA is on. -/
def diskTakesSlot (ctx : RigelContext) : Bool :=
  staticOwner ctx.agnus.scheduler != .refresh && ctx.config.diskLegacyPriority &&
    dmaconMaster ctx.agnus.scheduler.dmacon && diskDmaWantsService ctx.paula.disk

/-- The override restores a DSKEN that was cleared in mid-transfer. -/
def schedulerRestoreDsken (ctx : RigelContext) : RigelContext :=
  if diskTakesSlot ctx && !dmaconDskenOn ctx.agnus.scheduler.dmacon then
    let dma := rigelDmaDomainWriteDmacon ctx.agnus.dma (dmaconSetclr ||| dmaconDsken)
    { ctx with agnus := { ctx.agnus with
        dma := dma
        scheduler := { ctx.agnus.scheduler with dmacon := dma.dmacon, tableDirty := true } } }
  else ctx

/-- The owner of the slot, after the disk, blitter and copper overrides. -/
def slotOwner (ctx : RigelContext) : SlotOwner :=
  dynamicOwner ctx.agnus.scheduler (if diskTakesSlot ctx then .disk else staticOwner ctx.agnus.scheduler)

/-- Everything of a step before the slot's owner runs. -/
def schedulerPrepare (ctx : RigelContext) : RigelContext := schedulerRefreshTable (schedulerSample ctx)

/-- The work of a new line: a dirty table, and the modulos after a line that fetched. -/
def schedulerLineStart (ctx : RigelContext) : RigelContext :=
  let a := ctx.agnus
  let s := a.scheduler
  let advanced : BitplanePointers :=
    if s.bitplaneLineBaseValid then
      ⟨fun p =>
        if p < s.bitplaneLineDepth.toNat ∧ p < bitplaneCount then
          (s.bitplaneLineBase p + s.bitplaneWordsThisLine.toUInt32 * 2) &&& 0x001FFFFE
        else a.bplpt.bplpt p⟩
    else a.bplpt
  { ctx with agnus := { a with
      bplpt :=
        if s.bitplaneDmaThisLine then
          bplptApplyModulo advanced s.bitplaneLineDepth.toNat (rigelContextReadReg ctx 0x108).toInt16
            (rigelContextReadReg ctx 0x10A).toInt16
        else a.bplpt
      scheduler := { s with
        tableDirty := true
        fetchPlaneIndex := 0
        bitplaneDmaThisLine := false
        bitplaneWordsThisLine := 0
        bitplaneLineDepth := 0
        bitplaneLineBaseValid := false } } }

/-- The VERTB position: the interrupt, the sprite restart, and the copper's reload while copper DMA is on. -/
def schedulerVertb (ctx : RigelContext) : RigelContext :=
  let ctx := rigelChipsetRaiseIrqSource ctx paulaIntVertb
  { ctx with
    agnus := { ctx.agnus with
      spriteDma := spriteDmaFrameStart ctx.agnus.spriteDma
      copper :=
        if dmaconCopenOn ctx.agnus.scheduler.dmacon then copperVblReload ctx.agnus.copper else ctx.agnus.copper }
    denise := { ctx.denise with sprites := deniseSpritesReset } }

/-- The beam moves one clock; the scheduler and Denise follow it. -/
def schedulerMoveBeam (ctx : RigelContext) : RigelContext :=
  let beam := beamStep ctx.agnus.beam 1
  { ctx with
    agnus := { ctx.agnus with beam := beam, scheduler := { ctx.agnus.scheduler with hpos := beam.hpos } }
    denise := rigelDeniseStep ctx.denise beam }

def schedulerAtLineStart (ctx : RigelContext) : RigelContext :=
  if ctx.agnus.beam.hpos = 0 then schedulerLineStart ctx else ctx

def schedulerAtVertb (ctx : RigelContext) : RigelContext :=
  if agnusIsVertbPosition ctx.agnus.beam.hpos ctx.agnus.beam.vpos then schedulerVertb ctx else ctx

def schedulerAdvance (ctx : RigelContext) : RigelContext :=
  schedulerAtVertb (schedulerAtLineStart (schedulerMoveBeam ctx))

def schedulerDispatch (ctx : RigelContext) : RigelContext :=
  dispatchSlot (slotOwner ctx) (schedulerRestoreDsken ctx) ctx.agnus.scheduler.hpos

/-- `agnus_slot_scheduler_step` with a context. -/
def agnusSlotSchedulerStep (ctx : RigelContext) : RigelContext :=
  schedulerAdvance (schedulerDispatch (schedulerPrepare ctx))

/-- `agnus_slot_scheduler_step_until`. -/
def agnusSlotSchedulerStepUntil (ctx : RigelContext) (cycles : Nat) : RigelContext :=
  agnusSlotSchedulerStep^[cycles] ctx

/-- `rigel_agnus_step`. -/
def rigelAgnusStep (ctx : RigelContext) (cycles : UInt32) : RigelContext :=
  if cycles = 0 then ctx
  else
    agnusSlotSchedulerStepUntil
      { ctx with agnus := { ctx.agnus with dma := rigelDmaDomainSyncDmacon ctx.agnus.dma.dmacon } } cycles.toNat

end Rigel
