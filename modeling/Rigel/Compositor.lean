import Rigel.Denise

/-!
# Compositor — from plane words and sprite latches to pixels

`render/compositor.c` with the decoders it calls, and the pixel half of `output/framebuffer.c`. A line is composed into
two scanline buffers at once, one a format, and copied from there into the frame buffers when the beam leaves it. The
pixels stand beside the context: no register reads them. The collision register and the host's own write target are
left out; the frame flags and the dirty map of a line are Denise's own.
-/

namespace Rigel

def deniseMaxScanlinePixels : Nat := 1024

/-- `rgb32_to_rgb565`. -/
def rgb32ToRgb565 (rgb : UInt32) : UInt16 :=
  let r : UInt32 := (rgb >>> 16) &&& 0xFF
  let g : UInt32 := (rgb >>> 8) &&& 0xFF
  let b : UInt32 := rgb &&& 0xFF
  (((r >>> 3) <<< 11) ||| ((g >>> 2) <<< 5) ||| (b >>> 3)).toUInt16

/-! ## Decoders -/

/-- `planar_to_chunky`, one of its sixteen pixels. -/
def planarToChunky (planeWords : Nat → UInt16) (numPlanes px : Nat) : UInt8 :=
  (List.range (min numPlanes 6)).foldl
    (fun index p => index ||| (((planeWords p >>> UInt16.ofNat (15 - px)) &&& 1) <<< UInt16.ofNat p).toUInt8) 0

/-- `ham6_decode_pixel`. -/
def ham6DecodePixel (planeBits : UInt8) (prevRgb : UInt32) (palette : Nat → UInt32) : UInt32 :=
  let value : UInt32 := ((planeBits &&& 0xF) <<< 4).toUInt32
  match (planeBits >>> 4) &&& 0x3 with
  | 0 => palette (planeBits &&& 0x1F).toNat
  | 1 => (prevRgb &&& 0xFFFF00) ||| value
  | 2 => (prevRgb &&& (0x00FFFF : UInt32)) ||| (value <<< 16)
  | _ => (prevRgb &&& (0xFF00FF : UInt32)) ||| (value <<< 8)

/-- `ehb_resolve_color`. -/
def ehbResolveColor (planeBits : UInt8) (palette : Nat → UInt32) : UInt32 :=
  let base := palette (planeBits &&& 0x1F).toNat
  if planeBits &&& 0x20 ≠ 0 then
    let r := ((base >>> 16) &&& (0xFF : UInt32)) >>> 1
    let g := ((base >>> 8) &&& (0xFF : UInt32)) >>> 1
    let b := (base &&& (0xFF : UInt32)) >>> 1
    (r <<< 16) ||| (g <<< 8) ||| b
  else base

/-- `dualpf_decode`: the two playfields' palette indices, 0 where a field is transparent. -/
def dualpfDecode (planeBits : UInt8) : UInt8 × UInt8 :=
  let bit (shift mask : UInt8) : UInt8 := (planeBits >>> shift) &&& mask
  let pf1 := bit 0 1 ||| bit 1 2 ||| bit 2 4
  let pf2 := bit 1 1 ||| bit 2 2 ||| bit 3 4
  (pf1, if pf2 ≠ 0 then pf2 + 8 else pf2)

/-! ## Sprites -/

def deniseSpriteHstart (sp : DeniseSprite) : UInt16 := ((sp.pos &&& 0xFF) <<< 1) ||| (sp.ctl &&& 1)

def deniseSpriteVstart (sp : DeniseSprite) : UInt16 :=
  ((sp.pos >>> 8) &&& (0xFF : UInt16)) ||| (((sp.ctl >>> 2) &&& (1 : UInt16)) <<< 8)

def deniseSpriteVstop (sp : DeniseSprite) : UInt16 :=
  ((sp.ctl >>> 8) &&& (0xFF : UInt16)) ||| (((sp.ctl >>> 1) &&& (1 : UInt16)) <<< 8)

def deniseSpriteIsAttached (s : DeniseSpritesState) (oddSp : Nat) : Bool :=
  oddSp % 2 == 1 && (s.attachedMask >>> UInt16.ofNat oddSp) &&& 1 != 0

/-- `denise_sprite_pixel`: two bits, 0 where the sprite is transparent. -/
def deniseSpritePixel (s : DeniseSpritesState) (sp : Nat) (hpos : UInt16) : UInt8 :=
  let ch := s.sp sp
  let hstart := deniseSpriteHstart ch
  if sp ≥ deniseSpriteCount ∨ !ch.armed ∨ hpos < hstart ∨ hpos ≥ hstart + 16 then 0
  else
    let shift := 15 - (hpos - hstart)
    let dataBit := (ch.data >>> shift) &&& 1
    let datbBit := (ch.datb >>> shift) &&& 1
    ((datbBit <<< 1) ||| dataBit).toUInt8

/-- `denise_sprite_attached_pixel`: a palette index from 17 on, or 0. -/
def deniseSpriteAttachedPixel (s : DeniseSpritesState) (evenSp : Nat) (hpos : UInt16) : UInt8 :=
  if evenSp ≥ deniseSpriteCount - 1 ∨ evenSp % 2 = 1 then 0
  else
    let lo := deniseSpritePixel s evenSp hpos
    let hi := deniseSpritePixel s (evenSp + 1) hpos
    if lo = 0 ∧ hi = 0 then 0 else (16 : UInt8) + ((hi <<< 2) ||| lo)

/-- The stop of the channel's vertical range as the compositor reads it: one that is not behind the start belongs to the
next 256 lines. -/
def spriteBandStop (ch : DeniseSprite) : UInt16 :=
  if deniseSpriteVstop ch ≤ deniseSpriteVstart ch then deniseSpriteVstop ch + 256 else deniseSpriteVstop ch

/-- The channel is armed and the line lies in its vertical range. -/
def spriteBandHas (ch : DeniseSprite) (y : UInt16) : Bool :=
  ch.armed && !(y < deniseSpriteVstart ch || y ≥ spriteBandStop ch)

/-- The overlay draws this channel on the line. An attached odd channel is drawn by its partner. -/
def spriteOnLine (s : DeniseSpritesState) (spr : Nat) (y : UInt16) : Bool :=
  !deniseSpriteIsAttached s spr && spriteBandHas (s.sp spr) y

/-! ## One line -/

/-- The arrays of `compose_line`: the scanline in both formats, and what the playfields left behind for the sprites. -/
structure LinePixels where
  rgba : Nat → UInt32
  rgb565 : Nat → UInt16
  pfColor : Nat → UInt8
  pfPrio : Nat → UInt8
  pfActive : Nat → UInt8

/-- What `compose_line` reads from the registers before it draws. -/
structure LineMode where
  depth : Nat
  isHam : Bool
  isDual : Bool
  isEhb : Bool
  scrollPf1 : Nat
  scrollPf2 : Nat
  pf1p : UInt8
  pf2p : UInt8
  pf2OverPf1 : Bool
  hscale : Nat
  spriteHscale : Nat
  ddf0 : Nat
  xStart : Nat
  xStop : Nat

def lineMode (d : RigelDenise) : LineMode :=
  let o := d.output
  let bplcon0 := if o.lineBplconValid then o.lineBplcon0 else d.regs.bplcon0
  let bplcon1 := if o.lineBplconValid then o.lineBplcon1 else d.regs.bplcon1
  let bplcon2 := if o.lineBplconValid then o.lineBplcon2 else d.regs.bplcon2
  let depth := ((bplcon0 >>> 12) &&& 0x7).toNat
  let isHam := bplcon0 &&& 0x0800 != 0
  let isDual := bplcon0 &&& 0x0400 != 0
  let isHires := bplcon0 &&& 0x8000 != 0
  let hscale := if isHires then 2 else 1
  { depth := depth
    isHam := isHam
    isDual := isDual
    isEhb := !isHam && !isDual && depth == 6 && bplcon2 &&& 0x0040 == 0
    scrollPf1 := (bplcon1 &&& 0x0F).toNat
    scrollPf2 := ((bplcon1 >>> 4) &&& 0x0F).toNat
    pf1p := (bplcon2 &&& 0x7).toUInt8
    pf2p := ((bplcon2 >>> 3) &&& 0x7).toUInt8
    pf2OverPf1 := bplcon2 &&& 0x0040 != 0
    hscale := hscale
    spriteHscale := if d.video.width > 512 || isHires then 2 else 1
    ddf0 := (o.ddfstrtLores.toNat + if isHires then 9 else 17) * hscale
    xStart := d.video.visibleXStart.toNat
    xStop := d.video.visibleXStop.toNat }

def LineMode.shows (m : LineMode) (x : Nat) : Bool := m.xStart ≤ x && x < m.xStop && x < deniseMaxScanlinePixels

/-- One pixel of both scanline buffers. -/
def LinePixels.draw (l : LinePixels) (x : Nat) (rgba : UInt32) (rgb565 : UInt16) : LinePixels :=
  { l with rgba := Function.update l.rgba x rgba, rgb565 := Function.update l.rgb565 x rgb565 }

def LinePixels.field (l : LinePixels) (x : Nat) (color active : UInt8) : LinePixels :=
  { l with pfColor := Function.update l.pfColor x color, pfActive := Function.update l.pfActive x active }

/-- The pixels of the words that were fetched, each with its offset from the first. -/
def fetchedPixels (o : DeniseOutputState) (depth : Nat) : List (Nat × UInt8) :=
  (List.range o.planeWordCount.toNat).flatMap fun w =>
    (List.range 16).map fun px =>
      (w * 16 + px, planarToChunky (fun p => if p < depth then o.planeWords p w else 0) depth px)

/-- A HAM pixel changes the colour before it also where it is not shown. -/
def composeHamPixel (palette : DenisePaletteState) (m : LineMode) (s : UInt32 × LinePixels) (p : Nat × UInt8) :
    UInt32 × LinePixels :=
  let x := m.ddf0 + p.1 + m.scrollPf1 * m.hscale
  let rgb := ham6DecodePixel p.2 s.1 palette.rgb32
  (rgb, if m.shows x then (s.2.draw x rgb (rgb32ToRgb565 rgb)).field x 0xFF 1 else s.2)

/-- One field of a dual playfield: drawn where nothing is yet, or over the other field when it has priority. -/
def composeFieldPixel (palette : DenisePaletteState) (m : LineMode) (l : LinePixels) (x : Nat) (index prio own other : UInt8)
    (above : Bool) : LinePixels :=
  if index ≠ 0 ∧ m.shows x then
    let drawn :=
      if l.pfActive x = 0 ∨ (l.pfActive x &&& other ≠ 0 ∧ above) then
        let l' := l.draw x (palette.rgb32 index.toNat) (palette.rgb565 index.toNat)
        { l' with
          pfColor := Function.update l'.pfColor x index
          pfPrio := Function.update l'.pfPrio x prio }
      else l
    { drawn with pfActive := Function.update drawn.pfActive x (drawn.pfActive x ||| own) }
  else l

def composeDualPixel (palette : DenisePaletteState) (m : LineMode) (l : LinePixels) (p : Nat × UInt8) : LinePixels :=
  let dpf := dualpfDecode p.2
  let l := composeFieldPixel palette m l (m.ddf0 + p.1 + m.scrollPf1 * m.hscale) dpf.1 m.pf1p 1 2 (!m.pf2OverPf1)
  composeFieldPixel palette m l (m.ddf0 + p.1 + m.scrollPf2 * m.hscale) dpf.2 m.pf2p 2 1 m.pf2OverPf1

/-- A pixel of a single playfield, EHB or not. -/
def composeSingleColor (palette : DenisePaletteState) (m : LineMode) (l : LinePixels) (x : Nat) (bits : UInt8) : LinePixels :=
  let ci := if m.isEhb then bits &&& 0x3F else bits &&& 0x1F
  let l := l.field x ci (if ci ≠ 0 then 1 else 0)
  if m.isEhb then
    let color := ehbResolveColor ci palette.rgb32
    l.draw x color (rgb32ToRgb565 color)
  else l.draw x (palette.rgb32 ci.toNat) (palette.rgb565 ci.toNat)

def composeSinglePixel (palette : DenisePaletteState) (m : LineMode) (l : LinePixels) (p : Nat × UInt8) : LinePixels :=
  let x := m.ddf0 + p.1 + m.scrollPf1 * m.hscale
  if m.shows x then composeSingleColor palette m l x p.2 else l

/-- The colour index at `x` when the two playfields scroll apart. -/
def splitScrollIndex (o : DeniseOutputState) (m : LineMode) (x : Nat) : UInt8 :=
  (List.range (min m.depth 6)).foldl
    (fun ci p =>
      let shift := (if p % 2 = 0 then m.scrollPf1 else m.scrollPf2) * m.hscale + m.ddf0
      if x < shift ∨ o.planeWordCount.toNat * 16 ≤ x - shift then ci
      else
        let src := x - shift
        if (o.planeWords p (src / 16) >>> UInt16.ofNat (15 - src % 16)) &&& 1 ≠ 0 then ci ||| ((1 : UInt8) <<< UInt8.ofNat p)
        else ci) 0

def composeSplitScroll (palette : DenisePaletteState) (o : DeniseOutputState) (m : LineMode) (l : LinePixels) : LinePixels :=
  let minX := max m.ddf0 m.xStart
  let maxX := min (min (m.ddf0 + o.planeWordCount.toNat * 16 + 15 * m.hscale) m.xStop) deniseMaxScanlinePixels
  (List.range' minX (maxX - minX)).foldl (fun l x => composeSingleColor palette m l x (splitScrollIndex o m x)) l

/-- The playfields, by mode. -/
def composePlayfields (d : RigelDenise) (m : LineMode) (l : LinePixels) : LinePixels :=
  let o := d.output
  if o.visibleScanline ∧ 0 < m.depth ∧ m.depth ≤ 6 ∧ 0 < o.planeWordCount then
    if m.isHam then
      ((fetchedPixels o m.depth).foldl (composeHamPixel d.palette m) (d.palette.rgb32 0, l)).2
    else if m.isDual then (fetchedPixels o m.depth).foldl (composeDualPixel d.palette m) l
    else if m.scrollPf1 = m.scrollPf2 then (fetchedPixels o m.depth).foldl (composeSinglePixel d.palette m) l
    else composeSplitScroll d.palette o m l
  else l

/-- The palette entry of a sprite's pixel, none where it is transparent. -/
def spriteColor (d : RigelDenise) (spr : Nat) (x : UInt16) : Option UInt32 :=
  if spr % 2 = 0 ∧ deniseSpriteIsAttached d.sprites (spr + 1) then
    let pix := deniseSpriteAttachedPixel d.sprites spr x
    if pix = 0 then none else some (d.palette.rgb32 pix.toNat)
  else
    let pix := deniseSpritePixel d.sprites spr x
    if pix = 0 then none else some (d.palette.rgb32 ((16 + spr / 2 * 4 + pix.toNat) &&& 31))

/-- One of a sprite's sixteen pixels, twice in hires: in front of a transparent field, or of one behind its pair. -/
def composeSpritePixel (d : RigelDenise) (m : LineMode) (spr : Nat) (l : LinePixels) (px : Nat) : LinePixels :=
  let hstart := deniseSpriteHstart (d.sprites.sp spr)
  match spriteColor d spr (hstart + UInt16.ofNat px) with
  | none => l
  | some color =>
    (List.range m.spriteHscale).foldl
      (fun l rep =>
        let dst := (UInt16.ofNat ((hstart.toNat + px) * m.spriteHscale) + UInt16.ofNat rep).toNat
        if dst < deniseMaxScanlinePixels ∧ (l.pfColor dst = 0 ∨ spr / 2 + (l.pfPrio dst).toNat < 4) then
          l.draw dst color (rgb32ToRgb565 color)
        else l) l

/-- The overlay, from the last channel to the first. -/
def composeSprites (d : RigelDenise) (m : LineMode) (l : LinePixels) : LinePixels :=
  [7, 6, 5, 4, 3, 2, 1, 0].foldl
    (fun l spr =>
      if spriteOnLine d.sprites spr d.output.beamVpos then (List.range 16).foldl (composeSpritePixel d m spr) l else l) l

/-! ## The buffers -/

/-- The scanline and the two frame buffers, in both formats. -/
structure DenisePixels where
  scanlineRgba : Nat → UInt32
  scanlineRgb565 : Nat → UInt16
  frameRgba : Nat → Nat → Nat → UInt32
  frameRgb565 : Nat → Nat → Nat → UInt16

/-- The buffers of `rigel_denise_framebuffer_reset`. -/
def DenisePixels.cleared : DenisePixels := ⟨fun _ => 0, fun _ => 0, fun _ _ _ => 0, fun _ _ _ => 0⟩

/-- A fill of the scanline; the buffers end where the line does. -/
def fillScanline {α : Type} (buffer : Nat → α) (value : α) : Nat → α :=
  fun x => if x < deniseMaxScanlinePixels then value else buffer x

def clearScanlineToBorder (d : RigelDenise) (p : DenisePixels) : DenisePixels :=
  { p with
    scanlineRgba := fillScanline p.scanlineRgba (d.palette.rgb32 0)
    scanlineRgb565 := fillScanline p.scanlineRgb565 (d.palette.rgb565 0) }

def composeLine (d : RigelDenise) (p : DenisePixels) : DenisePixels :=
  if d.output.scanlineWidth = 0 then p
  else
    let m := lineMode d
    let blank : LinePixels :=
      { rgba := fillScanline p.scanlineRgba (d.palette.rgb32 0)
        rgb565 := fillScanline p.scanlineRgb565 (d.palette.rgb565 0)
        pfColor := fun _ => 0
        pfPrio := fun _ => m.pf1p
        pfActive := fun _ => 0 }
    let l := composeSprites d m (composePlayfields d m blank)
    { p with scanlineRgba := l.rgba, scanlineRgb565 := l.rgb565 }

/-- The beam stands on another line than Denise last saw it on. -/
def deniseLineChanged (d : RigelDenise) (beam : BeamState) : Bool :=
  d.output.beamVpos != beam.vpos || d.output.frameCounter != beam.frameCount

/-- `rigel_denise_framebuffer_sync_from_beam`, its pixels: a line that the beam has left goes into the back buffer. -/
def framebufferCopyLine (d : RigelDenise) (beam : BeamState) (p : DenisePixels) : DenisePixels :=
  if deniseLineChanged d beam ∧ d.output.beamVpos < deniseMaxLines then
    let back := (1 ^^^ d.output.frontIdx).toNat
    let y := d.output.beamVpos.toNat
    { p with
      frameRgba := Function.update p.frameRgba back (Function.update (p.frameRgba back) y p.scanlineRgba)
      frameRgb565 := Function.update p.frameRgb565 back (Function.update (p.frameRgb565 back) y p.scanlineRgb565) }
  else p

/-- `rigel_denise_compositor_tick`: the line left is composed, or cleared where nothing is visible, and copied; a line
that begins the visible area is composed at once, and again when it is left. -/
def rigelDeniseCompositorTick (d : RigelDenise) (beam : BeamState) (p : DenisePixels) : DenisePixels :=
  let changed := deniseLineChanged d beam
  let wasVisible := d.output.visibleScanline
  let left :=
    if changed && wasVisible then composeLine d p else if changed then clearScanlineToBorder d p else p
  let copied := framebufferCopyLine d beam left
  let d' := rigelDeniseStep d beam
  if changed && !wasVisible && d'.output.visibleScanline then composeLine d' copied else copied

end Rigel
