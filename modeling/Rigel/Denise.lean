import Rigel.AgnusDma

/-!
# Denise — display registers, sprites and the line buffer

`chipset/denise`: the register file with the palette and the display window it implies, the sprite latches that DMA
delivers into, and the bookkeeping of the line buffer that follows the beam. Denise only listens: nothing of its state
flows back to Agnus or Paula but through register writes. The pixels stand beside it (Compositor); collisions are not
modelled.
-/

namespace Rigel

structure DeniseRegisterFile where
  color : Nat → UInt16
  bplcon0 : UInt16
  bplcon1 : UInt16
  bplcon2 : UInt16
  bplcon3 : UInt16
  diwstrt : UInt16
  diwstop : UInt16
  diwhigh : UInt16

structure DenisePaletteState where
  rgb32 : Nat → UInt32
  rgb565 : Nat → UInt16

structure DeniseSprite where
  pos : UInt16
  ctl : UInt16
  data : UInt16
  datb : UInt16
  armed : Bool
  visible : Bool
  deriving Repr, DecidableEq

structure DeniseSpritesState where
  sp : Nat → DeniseSprite
  activeMask : UInt16
  attachedMask : UInt16

structure DeniseVideoState where
  width : UInt16
  height : UInt16
  visibleXStart : UInt16
  visibleXStop : UInt16
  visibleYStart : UInt16
  visibleYStop : UInt16
  deriving Repr, DecidableEq

/-- `rigel_denise_output_state_t` without the pixel buffers and the host's target. -/
structure DeniseOutputState where
  frameCounter : UInt64
  beamHpos : UInt16
  beamVpos : UInt16
  currentScanline : UInt16
  currentPixel : UInt16
  scanlineWidth : UInt16
  frontIdx : UInt8
  visibleScanline : Bool
  scanlineDirty : Bool
  frameDirty : Bool
  beamLof : UInt8
  beamLofToggle : UInt8
  planeWords : Nat → Nat → UInt16
  planeWordCount : UInt16
  lineBplcon0 : UInt16
  lineBplcon1 : UInt16
  lineBplcon2 : UInt16
  lineBplconValid : Bool
  ddfstrtLores : UInt16
  pendingFlags : UInt32
  pendingDirty : Nat → UInt64
  completedFlags : UInt32
  completedDirty : Nat → UInt64
  pendingFullRedraw : Bool
  completedFullRedraw : Bool

structure RigelDenise where
  chipRev : AgnusChipRev
  regs : DeniseRegisterFile
  palette : DenisePaletteState
  sprites : DeniseSpritesState
  clxcon : UInt16
  video : DeniseVideoState
  output : DeniseOutputState
  lastColorIndex : UInt16

def deniseSpriteCount : Nat := 8
def deniseMaxLines : UInt16 := 312

/-! ## Reset -/

def deniseSpritesReset : DeniseSpritesState := ⟨fun _ => ⟨0, 0, 0, 0, false, false⟩, 0, 0⟩

def rigelDeniseDisplayWindowReset : DeniseVideoState := ⟨320, 256, 0, 320, 0, 256⟩

/-- `rigel_denise_framebuffer_reset`. The line's BPLCON latches keep their values, only their valid bit drops. -/
def rigelDeniseFramebufferReset (o : DeniseOutputState) : DeniseOutputState :=
  { o with
    frameCounter := 0
    beamHpos := 0
    beamVpos := 0
    currentScanline := 0
    currentPixel := 0
    scanlineWidth := 0
    frontIdx := 0
    planeWords := fun _ _ => 0
    planeWordCount := 0
    lineBplconValid := false
    ddfstrtLores := 0
    visibleScanline := false
    scanlineDirty := false
    frameDirty := true
    beamLof := 0
    beamLofToggle := 0
    pendingFlags := 0
    completedFlags := 0
    pendingDirty := fun _ => 0
    completedDirty := fun _ => 0
    pendingFullRedraw := false
    completedFullRedraw := false }

/-- `rigel_denise_reset`. The colour registers survive; the palette built from them does not. -/
def rigelDeniseReset (d : RigelDenise) : RigelDenise :=
  { d with
    palette := ⟨fun _ => 0, fun _ => 0⟩
    sprites := deniseSpritesReset
    clxcon := 0
    video := rigelDeniseDisplayWindowReset
    output := rigelDeniseFramebufferReset d.output
    regs := { d.regs with
      bplcon0 := 0
      bplcon1 := 0
      bplcon2 := 0
      bplcon3 := 0
      diwstrt := 0
      diwstop := 0
      diwhigh := 0 }
    lastColorIndex := 0 }

/-! ## The display window -/

/-- The four edges that DIWSTRT, DIWSTOP and DIWHIGH encode. -/
structure DiwEdges where
  hstrt : UInt16
  hstop : UInt16
  vstrt : UInt16
  vstop : UInt16
  deriving Repr, DecidableEq

def ocsDiw (chipRev : AgnusChipRev) (r : DeniseRegisterFile) : Bool := !(chipRev == .ecs && r.diwhigh != 0)

def diwDecodeOcs (r : DeniseRegisterFile) : DiwEdges where
  hstrt := r.diwstrt &&& 0x00FF
  vstrt := (r.diwstrt >>> 8) &&& 0x00FF
  hstop := (r.diwstop &&& 0x00FF) + 256
  vstop := (r.diwstop >>> 8) &&& 0x00FF

def diwDecodeEcs (r : DeniseRegisterFile) : DiwEdges :=
  let startHi : UInt16 := r.diwhigh &&& 0x00FF
  let stopHi : UInt16 := (r.diwhigh >>> 8) &&& 0x00FF
  { hstrt := (r.diwstrt &&& (0x00FF : UInt16)) ||| (((startHi >>> 5) &&& (0x1 : UInt16)) <<< 8)
    vstrt := ((r.diwstrt >>> 8) &&& (0x00FF : UInt16)) ||| ((startHi &&& (0x7 : UInt16)) <<< 8)
    hstop := (r.diwstop &&& (0x00FF : UInt16)) ||| (((stopHi >>> 5) &&& (0x1 : UInt16)) <<< 8)
    vstop := ((r.diwstop >>> 8) &&& (0x00FF : UInt16)) ||| ((stopHi &&& (0x7 : UInt16)) <<< 8) }

def diwWrap (e : DiwEdges) : DiwEdges :=
  { e with
    vstop := if e.vstop ≤ e.vstrt then e.vstop + 256 else e.vstop
    hstop := if e.hstop ≤ e.hstrt then e.hstop + 256 else e.hstop }

/-- An ECS window wider than the scanline buffer falls back to the OCS horizontal edges. -/
def diwNarrow (r : DeniseRegisterFile) (e : DiwEdges) : DiwEdges :=
  if e.hstop > e.hstrt ∧ e.hstop - e.hstrt > 512 then
    let o := diwDecodeOcs r
    { e with hstrt := o.hstrt, hstop := if o.hstop ≤ o.hstrt then o.hstop + 256 else o.hstop }
  else e

/-- The full-height repair of an OCS window that starts near the top and wraps too early. -/
def diwTall (e : DiwEdges) : DiwEdges :=
  if e.vstop - e.vstrt < 128 ∧ e.vstrt < 32 then { e with vstop := e.vstrt + 256 } else e

def diwEdges (chipRev : AgnusChipRev) (r : DeniseRegisterFile) : DiwEdges :=
  if ocsDiw chipRev r then diwTall (diwWrap (diwDecodeOcs r)) else diwNarrow r (diwWrap (diwDecodeEcs r))

/-- The window that accepted edges imply. -/
def diwVideo (bplcon0 : UInt16) (e : DiwEdges) : DeniseVideoState :=
  let vstop := if e.vstop > deniseMaxLines then deniseMaxLines else e.vstop
  let hscale : UInt16 := if bplcon0 &&& 0x8000 ≠ 0 then 2 else 1
  let hwidth := if e.hstop > e.hstrt then e.hstop - e.hstrt else 320
  { visibleXStart := e.hstrt * hscale
    visibleYStart := e.vstrt
    visibleXStop := e.hstrt * hscale + hwidth * hscale
    visibleYStop := vstop
    width := hwidth * hscale
    height := if vstop > e.vstrt then vstop - e.vstrt else 256 }

/-- `rigel_denise_display_window_update`: a blanked depth, DIWSTRT = $FFFF or a start below the raster leave the
window as it was. -/
def rigelDeniseDisplayWindowUpdate (d : RigelDenise) : RigelDenise :=
  let sized := d.video.width != 0 && d.video.height != 0
  let e := diwEdges d.chipRev d.regs
  if d.regs.bplcon0 ≠ 0 ∧ (d.regs.bplcon0 >>> 12) &&& 0x7 = 0 ∧ sized then d
  else if d.regs.diwstrt = 0xFFFF ∧ sized then d
  else if e.vstrt ≥ deniseMaxLines then d
  else { d with video := diwVideo d.regs.bplcon0 e }

def rigelDeniseSetChipRev (d : RigelDenise) (rev : AgnusChipRev) : RigelDenise :=
  rigelDeniseDisplayWindowUpdate { d with chipRev := rev }

/-! ## Registers -/

def rigelDeniseRegistersOwnsReg (addr : UInt32) : Bool :=
  (addr ≥ 0x180 && addr ≤ 0x1BE) || (addr ≥ 0x140 && addr ≤ 0x17E && addr &&& 1 == 0) ||
    addr == 0x07C || addr == 0x00E || addr == 0x098 || addr == 0x100 || addr == 0x102 || addr == 0x104 ||
    addr == 0x106 || addr == 0x08E || addr == 0x090 || addr == 0x1E4

def rigelDeniseColorExpand12bit (value : UInt16) : UInt32 :=
  let r : UInt32 := ((value >>> 8) &&& 0x0F).toUInt32
  let g : UInt32 := ((value >>> 4) &&& 0x0F).toUInt32
  let b : UInt32 := (value &&& 0x0F).toUInt32
  (r <<< 20) ||| (r <<< 16) ||| (g <<< 12) ||| (g <<< 8) ||| (b <<< 4) ||| b

def rigelDeniseColorExpandRgb565 (value : UInt16) : UInt16 :=
  let widen (x : UInt16) : UInt16 := (x <<< 4) ||| x
  let r := widen ((value >>> 8) &&& 0x0F)
  let g := widen ((value >>> 4) &&& 0x0F)
  let b := widen (value &&& 0x0F)
  ((r >>> 3) <<< 11) ||| ((g >>> 2) <<< 5) ||| (b >>> 3)

def colorIndex (addr : UInt32) : Nat := ((addr - 0x180) >>> 1).toNat

def rigelDeniseColorRegsWrite (d : RigelDenise) (addr : UInt32) (value : UInt16) : RigelDenise :=
  let i := colorIndex addr
  { d with
    output := { d.output with
      pendingFullRedraw := d.output.pendingFullRedraw || d.regs.color i != value }
    regs := { d.regs with color := Function.update d.regs.color i value }
    palette :=
      { rgb32 := Function.update d.palette.rgb32 i (rigelDeniseColorExpand12bit value)
        rgb565 := Function.update d.palette.rgb565 i (rigelDeniseColorExpandRgb565 value) }
    lastColorIndex := UInt16.ofNat i }

/-- The attach bit of an odd sprite's control word, folded into the mask. -/
def spriteAttachMask (mask : UInt16) (sp : Nat) (ctl : UInt16) : UInt16 :=
  if sp % 2 = 1 then
    if ctl &&& 0x80 ≠ 0 then mask ||| (1 <<< UInt16.ofNat sp) else mask &&& ~~~(1 <<< UInt16.ofNat sp)
  else mask

def rigelDeniseSpriteRegWrite (s : DeniseSpritesState) (sp sub : Nat) (value : UInt16) : DeniseSpritesState :=
  match sub with
  | 0 => { s with sp := Function.update s.sp sp { s.sp sp with pos := value } }
  | 2 =>
    { s with
      sp := Function.update s.sp sp { s.sp sp with ctl := value, armed := true }
      attachedMask := spriteAttachMask s.attachedMask sp value }
  | 4 => { s with sp := Function.update s.sp sp { s.sp sp with data := value } }
  | 6 => { s with sp := Function.update s.sp sp { s.sp sp with datb := value } }
  | _ => s

/-- The control registers of `rigel_denise_registers_write`, before the redraw flag. -/
def rigelDeniseControlWrite (d : RigelDenise) (addr : UInt32) (value : UInt16) : RigelDenise :=
  match addr with
  | 0x098 => { d with clxcon := value }
  | 0x100 => rigelDeniseDisplayWindowUpdate { d with regs := { d.regs with bplcon0 := value } }
  | 0x102 => { d with regs := { d.regs with bplcon1 := value } }
  | 0x104 => { d with regs := { d.regs with bplcon2 := value } }
  | 0x106 => if d.chipRev = .ecs then { d with regs := { d.regs with bplcon3 := value } } else d
  | 0x08E => rigelDeniseDisplayWindowUpdate { d with regs := { d.regs with diwstrt := value } }
  | 0x090 => rigelDeniseDisplayWindowUpdate { d with regs := { d.regs with diwstop := value } }
  | 0x1E4 =>
    if d.chipRev = .ecs then rigelDeniseDisplayWindowUpdate { d with regs := { d.regs with diwhigh := value } } else d
  | _ => d

def redrawsFully (addr : UInt32) : Bool :=
  addr == 0x100 || addr == 0x102 || addr == 0x104 || addr == 0x106 || addr == 0x08E || addr == 0x090 || addr == 0x1E4

def rigelDeniseRegistersWrite (d : RigelDenise) (addr : UInt32) (value : UInt16) : RigelDenise :=
  if addr ≥ 0x180 ∧ addr ≤ 0x1BE then rigelDeniseColorRegsWrite d addr value
  else if addr ≥ 0x140 ∧ addr ≤ 0x17E ∧ addr &&& 1 = 0 then
    { d with sprites :=
        rigelDeniseSpriteRegWrite d.sprites ((addr - 0x140) / 8).toNat ((addr - 0x140) % 8).toNat value }
  else
    let d' := rigelDeniseControlWrite d addr value
    { d' with output := { d'.output with
        pendingFullRedraw := d'.output.pendingFullRedraw || redrawsFully addr || d'.video != d.video } }

def rigelDeniseRegistersRead (d : RigelDenise) (addr : UInt32) : UInt16 :=
  if addr ≥ 0x180 ∧ addr ≤ 0x1BE then d.regs.color (colorIndex addr)
  else match addr with
    | 0x07C => if d.chipRev = .ecs then 0x00FC else 0x0000
    | 0x100 => d.regs.bplcon0
    | 0x102 => d.regs.bplcon1
    | 0x104 => d.regs.bplcon2
    | 0x106 => if d.chipRev = .ecs then d.regs.bplcon3 else 0
    | 0x08E => d.regs.diwstrt
    | 0x090 => d.regs.diwstop
    | 0x1E4 => if d.chipRev = .ecs then d.regs.diwhigh else 0
    | _ => 0

/-! ## Sprite delivery -/

def deniseSpriteReceiveCtrl (s : DeniseSpritesState) (sp : Nat) (pos ctl : UInt16) : DeniseSpritesState :=
  if sp ≥ deniseSpriteCount then s
  else
    { s with
      sp := Function.update s.sp sp { s.sp sp with pos := pos, ctl := ctl, armed := true }
      attachedMask := spriteAttachMask s.attachedMask sp ctl }

def deniseSpriteReceiveData (s : DeniseSpritesState) (sp : Nat) (data datb : UInt16) : DeniseSpritesState :=
  if sp ≥ deniseSpriteCount then s
  else { s with sp := Function.update s.sp sp { s.sp sp with data := data, datb := datb } }

/-! ## Following the beam -/

def beamInVisibleArea (b : BeamState) : Bool := b.vpos ≥ b.visibleYStart && b.vpos ≤ b.visibleYStop

def frameHam : UInt32 := 0x1
def frameDualPlayfield : UInt32 := 0x2
def frameSpritesActive : UInt32 := 0x4

/-- The BPLCON0 that a line is composed with. -/
def composedBplcon0 (d : RigelDenise) : UInt16 := if d.output.lineBplconValid then d.output.lineBplcon0 else d.regs.bplcon0

/-- The frame flags that `compose_line` adds for a line. -/
def composeLineFlags (d : RigelDenise) : UInt32 :=
  (if composedBplcon0 d &&& 0x0800 ≠ 0 then frameHam else 0) |||
    (if composedBplcon0 d &&& 0x0400 ≠ 0 then frameDualPlayfield else 0) |||
    (if (List.range deniseSpriteCount).any fun spr => (d.sprites.sp spr).armed then frameSpritesActive else 0)

/-- The dirty map with a line marked, one bit a line; lines below the raster have none. -/
def markLineDirty (dirty : Nat → UInt64) (y : UInt16) : Nat → UInt64 :=
  if y < deniseMaxLines then
    Function.update dirty (y.toNat / 64) (dirty (y.toNat / 64) ||| (1 <<< UInt64.ofNat (y.toNat % 64)))
  else dirty

/-- The metadata of a line that is drawn, with the flags it adds. -/
def outputMarkLine (o : DeniseOutputState) (flags : UInt32) : DeniseOutputState :=
  { o with
    scanlineDirty := true
    pendingFlags := o.pendingFlags ||| flags
    pendingDirty := markLineDirty o.pendingDirty o.beamVpos }

/-- `compose_line` on the metadata, where it composes. -/
def outputComposeLine (d : RigelDenise) : DeniseOutputState :=
  if d.output.scanlineWidth = 0 then d.output else outputMarkLine d.output (composeLineFlags d)

/-- The metadata of the line that the beam leaves: it is composed, or cleared to the border. -/
def outputLineLeft (d : RigelDenise) : DeniseOutputState :=
  if d.output.visibleScanline then outputComposeLine d else outputMarkLine d.output 0

/-- A new line empties the plane buffer. -/
def outputLineStart (o : DeniseOutputState) : DeniseOutputState :=
  { o with planeWords := fun _ _ => 0, planeWordCount := 0, lineBplconValid := false }

/-- A new frame publishes the metadata gathered so far and swaps the buffers. -/
def outputFrameStart (o : DeniseOutputState) : DeniseOutputState :=
  { o with
    completedFlags := o.pendingFlags |||
      (if o.beamLofToggle ≠ 0 then (if o.beamLof ≠ 0 then 0x10 else 0x20) else 0)
    completedDirty := o.pendingDirty
    completedFullRedraw := o.pendingFullRedraw
    pendingFlags := 0
    pendingDirty := fun _ => 0
    pendingFullRedraw := false
    frontIdx := o.frontIdx ^^^ 1 }

def outputFollow (o : DeniseOutputState) (beam : BeamState) (frameChanged : Bool) (width : UInt16) :
    DeniseOutputState :=
  { o with
    frameCounter := beam.frameCount
    beamHpos := beam.hpos
    beamVpos := beam.vpos
    beamLof := beam.lof
    beamLofToggle := beam.lofToggle
    frameDirty := frameChanged
    visibleScanline := beamInVisibleArea beam
    scanlineWidth := width
    currentScanline := if beamInVisibleArea beam then beam.vpos - beam.visibleYStart else beam.vpos
    currentPixel := if beamInVisibleArea beam then (if beam.hpos > width then width else beam.hpos) else 0 }

/-- `rigel_denise_framebuffer_sync_from_beam`, the part that keeps no pixels. -/
def framebufferSyncFromBeam (o : DeniseOutputState) (beam : BeamState) (width : UInt16) : DeniseOutputState :=
  let frameChanged := o.frameCounter != beam.frameCount
  let lineChanged := frameChanged || o.beamVpos != beam.vpos
  let o := if lineChanged then outputLineStart o else o
  let o := if frameChanged then outputFrameStart o else o
  outputFollow o beam frameChanged width

/-- `rigel_denise_compositor_tick` on the metadata. A line that begins the visible area is composed at once. -/
def compositorTickOutput (d : RigelDenise) (beam : BeamState) : DeniseOutputState :=
  let changed := d.output.beamVpos != beam.vpos || d.output.frameCounter != beam.frameCount
  let synced := framebufferSyncFromBeam (if changed then outputLineLeft d else d.output) beam d.video.width
  if changed && !d.output.visibleScanline && synced.visibleScanline then outputComposeLine { d with output := synced }
  else synced

/-- `rigel_denise_step`, but for the pixels. -/
def rigelDeniseStep (d : RigelDenise) (beam : BeamState) : RigelDenise := { d with output := compositorTickOutput d beam }

/-! ## What a tick has seen of the beam -/

/-- Denise has seen `beam`, and changed buffers if the frame is another. -/
structure OutputFollows (d : RigelDenise) (beam : BeamState) (o : DeniseOutputState) : Prop where
  vpos : o.beamVpos = beam.vpos
  frame : o.frameCounter = beam.frameCount
  visible : o.visibleScanline = beamInVisibleArea beam
  width : o.scanlineWidth = d.video.width
  front : o.frontIdx = if d.output.frameCounter = beam.frameCount then d.output.frontIdx else d.output.frontIdx ^^^ 1

theorem OutputFollows.mark {d : RigelDenise} {beam : BeamState} {o : DeniseOutputState} (h : OutputFollows d beam o)
    (flags : UInt32) : OutputFollows d beam (outputMarkLine o flags) :=
  ⟨h.vpos, h.frame, h.visible, h.width, h.front⟩

theorem framebufferSyncFromBeam_follows {d : RigelDenise} {o : DeniseOutputState} (beam : BeamState)
    (hframe : o.frameCounter = d.output.frameCounter) (hfront : o.frontIdx = d.output.frontIdx) :
    OutputFollows d beam (framebufferSyncFromBeam o beam d.video.width) := by
  refine ⟨rfl, rfl, rfl, rfl, ?_⟩
  unfold framebufferSyncFromBeam
  simp only [hframe]
  by_cases hsame : d.output.frameCounter = beam.frameCount
  · rw [if_pos hsame, hsame, bne_self_eq_false, Bool.false_or, ← hfront]
    simp only [Bool.false_eq_true, if_false, outputFollow]
    split <;> rfl
  · rw [if_neg hsame, bne_iff_ne.mpr hsame, Bool.true_or, ← hfront]
    rfl

/-- **A tick follows the beam**, whatever it composes. -/
theorem rigelDeniseStep_follows (d : RigelDenise) (beam : BeamState) :
    OutputFollows d beam (rigelDeniseStep d beam).output := by
  have hleft : ∀ changed : Bool,
      (if changed then outputLineLeft d else d.output).frameCounter = d.output.frameCounter ∧
        (if changed then outputLineLeft d else d.output).frontIdx = d.output.frontIdx := by
    intro changed
    unfold outputLineLeft outputComposeLine
    repeat' split
    all_goals exact ⟨rfl, rfl⟩
  obtain ⟨hframe, hfront⟩ := hleft (d.output.beamVpos != beam.vpos || d.output.frameCounter != beam.frameCount)
  have hsynced := framebufferSyncFromBeam_follows beam hframe hfront
  show OutputFollows d beam (compositorTickOutput d beam)
  unfold compositorTickOutput
  simp only
  generalize framebufferSyncFromBeam _ beam d.video.width = synced at hsynced ⊢
  unfold outputComposeLine
  split
  · split
    · exact hsynced
    · exact hsynced.mark _
  · exact hsynced

end Rigel
