import Rigel.PixelFormats
import Rigel.SpriteBands
import Rigel.StepEvents

/-!
# TearFree — the two frame buffers over a run

Denise composes a line when the beam leaves it and copies it into the buffer at the back; when the frame count changes,
the copy of the last line is made first and the buffers change places after it. A run is watched with a record of Denise
as it stood at the end of each line of the frame that is being scanned. At every change of the frame count the buffer
that comes to the front holds what these records compose to, each line of the frame and no other frame's.
-/

namespace Rigel

/-! ## A line is composed afresh -/

/-- Two lines show the same pixels, and the same was left behind for the sprites. -/
structure SamePicture (l l' : LinePixels) : Prop where
  rgba : ∀ x < deniseMaxScanlinePixels, l'.rgba x = l.rgba x
  rgb565 : ∀ x < deniseMaxScanlinePixels, l'.rgb565 x = l.rgb565 x
  pfColor : l'.pfColor = l.pfColor
  pfPrio : l'.pfPrio = l.pfPrio
  pfActive : l'.pfActive = l.pfActive

theorem update_agree {α : Type} {f g : Nat → α} {n : Nat} (h : ∀ x < n, g x = f x) (i : Nat) (a : α) :
    ∀ x < n, Function.update g i a x = Function.update f i a x := by
  intro x hx
  by_cases hi : x = i
  · rw [hi, Function.update_self, Function.update_self]
  · rw [Function.update_of_ne hi, Function.update_of_ne hi]
    exact h x hx

section
variable {l l' : LinePixels} (h : SamePicture l l')
include h

theorem SamePicture.draw (x : Nat) (rgba : UInt32) (rgb565 : UInt16) :
    SamePicture (l.draw x rgba rgb565) (l'.draw x rgba rgb565) :=
  ⟨update_agree h.rgba x rgba, update_agree h.rgb565 x rgb565, h.pfColor, h.pfPrio, h.pfActive⟩

theorem SamePicture.field (x : Nat) (color active : UInt8) :
    SamePicture (l.field x color active) (l'.field x color active) := by
  refine ⟨h.rgba, h.rgb565, ?_, h.pfPrio, ?_⟩
  · simp only [LinePixels.field, h.pfColor]
  · simp only [LinePixels.field, h.pfActive]

theorem SamePicture.singleColor (palette : DenisePaletteState) (m : LineMode) (x : Nat) (bits : UInt8) :
    SamePicture (composeSingleColor palette m l x bits) (composeSingleColor palette m l' x bits) := by
  unfold composeSingleColor
  simp only
  cases m.isEhb with
  | true => exact (h.field _ _ _).draw _ _ _
  | false => exact (h.field _ _ _).draw _ _ _

theorem SamePicture.singlePixel (palette : DenisePaletteState) (m : LineMode) (p : Nat × UInt8) :
    SamePicture (composeSinglePixel palette m l p) (composeSinglePixel palette m l' p) := by
  unfold composeSinglePixel
  simp only
  split
  · exact h.singleColor _ _ _ _
  · exact h

theorem SamePicture.fieldPixel (palette : DenisePaletteState) (m : LineMode) (x : Nat) (index prio own other : UInt8)
    (above : Bool) : SamePicture (composeFieldPixel palette m l x index prio own other above)
      (composeFieldPixel palette m l' x index prio own other above) := by
  unfold composeFieldPixel
  simp only [h.pfActive]
  split
  · split
    · have hdrawn := h.draw x (palette.rgb32 index.toNat) (palette.rgb565 index.toNat)
      refine ⟨hdrawn.rgba, hdrawn.rgb565, ?_, ?_, ?_⟩
      · simp only [hdrawn.pfColor]
      · simp only [hdrawn.pfPrio]
      · simp only [hdrawn.pfActive]
    · exact ⟨h.rgba, h.rgb565, h.pfColor, h.pfPrio, by simp only [h.pfActive]⟩
  · exact h

theorem SamePicture.dualPixel (palette : DenisePaletteState) (m : LineMode) (p : Nat × UInt8) :
    SamePicture (composeDualPixel palette m l p) (composeDualPixel palette m l' p) :=
  (h.fieldPixel _ _ _ _ _ _ _ _).fieldPixel _ _ _ _ _ _ _ _

theorem SamePicture.hamPixel (palette : DenisePaletteState) (m : LineMode) (rgb : UInt32) (p : Nat × UInt8) :
    SamePicture (composeHamPixel palette m (rgb, l) p).2 (composeHamPixel palette m (rgb, l') p).2 := by
  unfold composeHamPixel
  simp only
  split
  · exact (h.draw _ _ _).field _ _ _
  · exact h

theorem SamePicture.playfields (d : RigelDenise) (m : LineMode) :
    SamePicture (composePlayfields d m l) (composePlayfields d m l') := by
  unfold composePlayfields
  simp only
  split
  · split
    · -- HAM carries a colour from pixel to pixel, which is the same on both sides
      have hham := List.foldl_rel (l := fetchedPixels d.output m.depth) (f := composeHamPixel d.palette m)
        (g := composeHamPixel d.palette m) (a := (d.palette.rgb32 0, l)) (b := (d.palette.rgb32 0, l'))
        (r := fun s s' => s'.1 = s.1 ∧ SamePicture s.2 s'.2) ⟨rfl, h⟩ fun p _ s s' hs => by
          obtain ⟨rgb, l⟩ := s
          obtain ⟨rgb', l'⟩ := s'
          obtain rfl : rgb' = rgb := hs.1
          exact ⟨rfl, hs.2.hamPixel d.palette m rgb' p⟩
      exact hham.2
    split
    · exact List.foldl_rel h fun p _ _ _ hl => hl.dualPixel _ _ p
    split
    · exact List.foldl_rel h fun p _ _ _ hl => hl.singlePixel _ _ p
    · exact List.foldl_rel h fun x _ _ _ hl => hl.singleColor _ _ x _
  · exact h

theorem SamePicture.spritePixel (d : RigelDenise) (m : LineMode) (spr px : Nat) :
    SamePicture (composeSpritePixel d m spr l px) (composeSpritePixel d m spr l' px) := by
  unfold composeSpritePixel
  simp only
  split
  · exact h
  · refine List.foldl_rel h fun rep _ l l' hl => ?_
    simp only [hl.pfColor, hl.pfPrio]
    split
    · exact hl.draw _ _ _
    · exact hl

theorem SamePicture.sprites (d : RigelDenise) (m : LineMode) :
    SamePicture (composeSprites d m l) (composeSprites d m l') := by
  unfold composeSprites
  refine List.foldl_rel h fun spr _ l l' hl => ?_
  split
  · exact List.foldl_rel hl fun px _ _ _ hl => hl.spritePixel d m spr px
  · exact hl

end

/-- One line, in both formats. -/
structure Scanline where
  rgba : Nat → UInt32
  rgb565 : Nat → UInt16

/-- The pixels that a line has are the same. -/
def Scanline.Shows (s t : Scanline) : Prop := ∀ x < deniseMaxScanlinePixels, t.rgba x = s.rgba x ∧ t.rgb565 x = s.rgb565 x

def DenisePixels.scanline (p : DenisePixels) : Scanline := ⟨p.scanlineRgba, p.scanlineRgb565⟩

/-- Line `y` of a frame buffer. -/
def DenisePixels.line (p : DenisePixels) (buffer y : Nat) : Scanline := ⟨p.frameRgba buffer y, p.frameRgb565 buffer y⟩

/-- What Denise makes of the line that it stands on: composed on a visible line, the border's colour on any other. -/
def composeOrClear (d : RigelDenise) (p : DenisePixels) : DenisePixels :=
  if d.output.visibleScanline then composeLine d p else clearScanlineToBorder d p

/-- The same, over an empty buffer. -/
def lineImage (d : RigelDenise) : Scanline := (composeOrClear d .cleared).scanline

theorem fillScanline_agree {α : Type} (f g : Nat → α) (value : α) :
    ∀ x < deniseMaxScanlinePixels, fillScanline g value x = fillScanline f value x := by
  intro x hx
  rw [fillScanline, if_pos hx, fillScanline, if_pos hx]

/-- **Nothing of the line before shows through**, unless the composition is skipped for want of a width. -/
theorem composeOrClear_shows {d : RigelDenise} (hw : d.output.visibleScanline = true → d.output.scanlineWidth ≠ 0)
    (p : DenisePixels) : (lineImage d).Shows (composeOrClear d p).scanline := by
  intro x hx
  unfold lineImage composeOrClear DenisePixels.scanline
  by_cases hv : d.output.visibleScanline = true
  · simp only [if_pos hv, composeLine, if_neg (hw hv)]
    have hblank : SamePicture
        { rgba := fillScanline DenisePixels.cleared.scanlineRgba (d.palette.rgb32 0)
          rgb565 := fillScanline DenisePixels.cleared.scanlineRgb565 (d.palette.rgb565 0)
          pfColor := fun _ => 0, pfPrio := fun _ => (lineMode d).pf1p, pfActive := fun _ => 0 }
        { rgba := fillScanline p.scanlineRgba (d.palette.rgb32 0)
          rgb565 := fillScanline p.scanlineRgb565 (d.palette.rgb565 0)
          pfColor := fun _ => 0, pfPrio := fun _ => (lineMode d).pf1p, pfActive := fun _ => 0 } :=
      ⟨fillScanline_agree _ _ _, fillScanline_agree _ _ _, rfl, rfl, rfl⟩
    have hsame := (hblank.playfields d (lineMode d)).sprites d (lineMode d)
    exact ⟨hsame.rgba x hx, hsame.rgb565 x hx⟩
  · simp only [if_neg hv, clearScanlineToBorder]
    exact ⟨fillScanline_agree _ _ _ x hx, fillScanline_agree _ _ _ x hx⟩

/-! ## No line is without a width -/

/-- The horizontal edges that DIWSTOP encodes, in either decoding. -/
theorem diwDecode_hstop (r : DeniseRegisterFile) :
    (diwDecodeOcs r).hstop.toNat < 512 ∧ (diwDecodeEcs r).hstop.toNat < 512 := by
  have hlow : (r.diwstop &&& 0x00FF).toNat < 256 := by
    rw [UInt16.toNat_and]
    exact Nat.lt_of_le_of_lt Nat.and_le_right (by decide)
  constructor
  · simp only [diwDecodeOcs, UInt16.toNat_add]
    exact Nat.lt_of_le_of_lt (Nat.mod_le _ _) (Nat.add_lt_add_right hlow 256)
  · have hbit : ((((r.diwhigh >>> 8) &&& (0x00FF : UInt16)) >>> 5) &&& (0x1 : UInt16)).toNat ≤ 1 := by
      rw [UInt16.toNat_and]
      exact Nat.and_le_right
    simp only [diwDecodeEcs, UInt16.toNat_or, UInt16.toNat_shiftLeft]
    generalize ((((r.diwhigh >>> 8) &&& (0x00FF : UInt16)) >>> 5) &&& (0x1 : UInt16)).toNat = bit at hbit
    refine @Nat.or_lt_two_pow _ _ 9 (Nat.lt_trans hlow (by decide)) ?_
    simp only [UInt16.reduceToNat, Nat.reduceMod, Nat.shiftLeft_eq, Nat.reducePow]
    omega

theorem wrapped_lt {start stop : UInt16} (h : stop.toNat < 512) :
    (if stop ≤ start then stop + 256 else stop).toNat < 1024 := by
  split
  · rw [UInt16.toNat_add]
    exact Nat.lt_of_le_of_lt (Nat.mod_le _ _) (by simp only [UInt16.reduceToNat]; omega)
  · omega

theorem diwEdges_hstop (chipRev : AgnusChipRev) (r : DeniseRegisterFile) : (diwEdges chipRev r).hstop.toNat < 1024 := by
  obtain ⟨hocs, hecs⟩ := diwDecode_hstop r
  unfold diwEdges
  split
  · have htall : ∀ e, (diwTall e).hstop = e.hstop := by
      intro e
      unfold diwTall
      split <;> rfl
    rw [htall]
    exact wrapped_lt hocs
  · unfold diwNarrow
    split
    · exact wrapped_lt hocs
    · exact wrapped_lt hecs

theorem diwVideo_width {e : DiwEdges} (h : e.hstop.toNat < 1024) (bplcon0 : UInt16) : (diwVideo bplcon0 e).width ≠ 0 := by
  unfold diwVideo
  simp only
  generalize hw : (if e.hstop > e.hstrt then e.hstop - e.hstrt else 320) = hwidth
  have hpos : 0 < hwidth.toNat ∧ hwidth.toNat < 1024 := by
    rw [← hw]
    split
    · rename_i hlt
      rw [UInt16.toNat_sub_of_le _ _ (UInt16.le_of_lt hlt)]
      have := UInt16.lt_iff_toNat_lt.mp hlt
      omega
    · decide
  intro hzero
  have hnat := congrArg UInt16.toNat hzero
  rw [UInt16.toNat_mul] at hnat
  split at hnat <;> simp only [UInt16.reduceToNat] at hnat <;> omega

theorem displayWindowUpdate_wide {d : RigelDenise} (h : d.video.width ≠ 0) :
    (rigelDeniseDisplayWindowUpdate d).video.width ≠ 0 := by
  unfold rigelDeniseDisplayWindowUpdate
  simp only
  repeat' split
  all_goals first
    | exact h
    | exact diwVideo_width (diwEdges_hstop _ _) _

theorem deniseControlWrite_wide {d : RigelDenise} (h : d.video.width ≠ 0) (addr : UInt32) (value : UInt16) :
    (rigelDeniseControlWrite d addr value).video.width ≠ 0 := by
  unfold rigelDeniseControlWrite
  repeat' split
  all_goals first
    | exact h
    | exact displayWindowUpdate_wide h

/-- **The window has a width**, whatever is written into its registers. -/
theorem wide_invariant : DisplayInvariant fun _ d => d.video.width ≠ 0 where
  reset ctx := by
    have hwidth : (rigelChipsetReset ctx).denise.video.width = 320 := rfl
    have hreset : (rigelChipsetReset ctx).denise.video.width ≠ 0 := by
      rw [hwidth]
      decide
    exact displayWindowUpdate_wide (d := { (rigelChipsetReset ctx).denise with
      chipRev := chipRevOf ctx.ram.chipsetModel }) hreset
  write {a d} addr value h := by
    unfold deniseAfterWrite
    cases rigelCustomDomainForReg addr with
    | agnus =>
      rw [deniseAfterMmio_eq]
      exact h
    | denise =>
      simp only [rigelDeniseRegistersWrite]
      split
      · exact h
      split
      · exact h
      · exact deniseControlWrite_wide h addr value
    | paula => exact h
    | unknown => exact h
  still {a a' d d'} h hs := by
    rw [hs.video]
    exact h

/-! ## One clock -/

/-- Denise as the tick of this clock meets it: its slot is dispatched, and the beam has not moved. -/
def dispatchedDenise (ctx : RigelContext) : RigelDenise := (schedulerDispatch (schedulerPrepare ctx)).denise

/-- The buffer that the host is not shown. -/
def backBuffer (d : RigelDenise) : Nat := (1 ^^^ d.output.frontIdx).toNat

theorem backBuffer_ne_front (d : RigelDenise) : backBuffer d ≠ d.output.frontIdx.toNat := by
  intro h
  have hsame : 1 ^^^ d.output.frontIdx = d.output.frontIdx := UInt8.toNat_inj.mp h
  have hzero := congrArg (· ^^^ d.output.frontIdx) hsame
  simp only [UInt8.xor_assoc, UInt8.xor_self, UInt8.xor_zero] at hzero
  exact absurd hzero (by decide)

/-- **A tick of the compositor** writes one line of the back buffer, the one that the beam has left. -/
theorem compositorTick_line (d : RigelDenise) (beam : BeamState) (p : DenisePixels) (b y : Nat) :
    (rigelDeniseCompositorTick d beam p).line b y =
      if deniseLineChanged d beam = true ∧ d.output.beamVpos < deniseMaxLines ∧ b = backBuffer d ∧
          y = d.output.beamVpos.toNat then (composeOrClear d p).scanline
      else p.line b y := by
  have hcompose : ∀ d (p : DenisePixels), (composeLine d p).line b y = p.line b y := by
    intro d p
    unfold composeLine
    split <;> rfl
  have hleft : (composeOrClear d p).line b y = p.line b y := by
    unfold composeOrClear
    split
    · exact hcompose d p
    · rfl
  -- a line that begins the visible area is composed into the scanline alone
  have hafter : (rigelDeniseCompositorTick d beam p).line b y =
      (framebufferCopyLine d beam (if deniseLineChanged d beam then composeOrClear d p else p)).line b y := by
    have hpixels : (if deniseLineChanged d beam && d.output.visibleScanline then composeLine d p
        else if deniseLineChanged d beam then clearScanlineToBorder d p else p) =
        if deniseLineChanged d beam then composeOrClear d p else p := by
      unfold composeOrClear
      cases deniseLineChanged d beam <;> cases d.output.visibleScanline <;> rfl
    unfold rigelDeniseCompositorTick
    simp only
    rw [hpixels]
    split
    · exact hcompose _ _
    · rfl
  rw [hafter]
  by_cases hc : deniseLineChanged d beam = true
  · rw [if_pos hc]
    unfold framebufferCopyLine
    by_cases hy : d.output.beamVpos < deniseMaxLines
    · rw [if_pos ⟨hc, hy⟩]
      by_cases hb : b = backBuffer d
      · by_cases hline : y = d.output.beamVpos.toNat
        · rw [if_pos ⟨hc, hy, hb, hline⟩, hb, hline]
          simp only [DenisePixels.line, DenisePixels.scanline, backBuffer, Function.update_self]
        · rw [if_neg fun h => hline h.2.2.2, ← hleft, hb]
          simp only [DenisePixels.line, backBuffer, Function.update_self, Function.update_of_ne hline]
      · rw [if_neg fun h => hb h.2.2.1, ← hleft]
        unfold backBuffer at hb
        simp only [DenisePixels.line, Function.update_of_ne hb]
    · rw [if_neg fun h => hy h.2, if_neg fun h => hy h.2.1]
      exact hleft
  · rw [if_neg hc, if_neg fun h => hc h.1]
    unfold framebufferCopyLine
    rw [if_neg fun h => hc h.1]

/-- The beam leaves its line in this clock. -/
def LeavesLine (b b' : BeamState) : Prop := b'.vpos ≠ b.vpos ∨ b'.frameCount ≠ b.frameCount

instance (b b' : BeamState) : Decidable (LeavesLine b b') := inferInstanceAs (Decidable (_ ∨ _))

section
variable {ctx : RigelContext} (hf : DeniseFollows ctx)
include hf

/-- What the tick of a clock knows of the beam. -/
theorem dispatchedDenise_beam :
    (dispatchedDenise ctx).output.beamVpos = ctx.agnus.beam.vpos ∧
      (dispatchedDenise ctx).output.frameCounter = ctx.agnus.beam.frameCount ∧
      (dispatchedDenise ctx).output.frontIdx = ctx.denise.output.frontIdx := by
  obtain ⟨⟨hvpos, hframe, -, -⟩, hfront⟩ := dispatch_raster ctx
  exact ⟨hvpos.trans hf.vpos, hframe.trans hf.frame, hfront⟩

/-- **A clock** writes nothing into the frame buffers but the line that the beam leaves in it, into the one at the
back. -/
theorem pixelClock_line (p : DenisePixels) (b y : Nat) :
    (pixelClock ctx p).line b y =
      if LeavesLine ctx.agnus.beam (agnusSlotSchedulerStep ctx).agnus.beam ∧ ctx.agnus.beam.vpos < deniseMaxLines ∧
          b = backBuffer ctx.denise ∧ y = ctx.agnus.beam.vpos.toNat
      then (composeOrClear (dispatchedDenise ctx) p).scanline else p.line b y := by
  obtain ⟨hvpos, hframe, hfront⟩ := dispatchedDenise_beam hf
  have hbeam : beamStep (schedulerDispatch (schedulerPrepare ctx)).agnus.beam 1 =
      (agnusSlotSchedulerStep ctx).agnus.beam := (schedulerAdvance_beam _).symm
  have hleaves : deniseLineChanged (dispatchedDenise ctx) (agnusSlotSchedulerStep ctx).agnus.beam = true ↔
      LeavesLine ctx.agnus.beam (agnusSlotSchedulerStep ctx).agnus.beam := by
    unfold deniseLineChanged LeavesLine
    rw [hvpos, hframe, Bool.or_eq_true, bne_iff_ne, bne_iff_ne]
    exact or_congr ne_comm ne_comm
  have hback : backBuffer (dispatchedDenise ctx) = backBuffer ctx.denise := by
    unfold backBuffer
    rw [hfront]
  show (rigelDeniseCompositorTick (dispatchedDenise ctx)
    (beamStep (schedulerDispatch (schedulerPrepare ctx)).agnus.beam 1) p).line b y = _
  rw [hbeam, compositorTick_line, hvpos, hback]
  simp only [hleaves]

/-- The buffers change places where the frame count changes. -/
theorem clock_front :
    (agnusSlotSchedulerStep ctx).denise.output.frontIdx =
      if (agnusSlotSchedulerStep ctx).agnus.beam.frameCount = ctx.agnus.beam.frameCount then ctx.denise.output.frontIdx
      else 1 ^^^ ctx.denise.output.frontIdx := by
  obtain ⟨-, hframe, hfront⟩ := dispatchedDenise_beam hf
  have hseen := (rigelDeniseStep_follows (dispatchedDenise ctx) (agnusSlotSchedulerStep ctx).agnus.beam).front
  rw [hframe, hfront, UInt8.xor_comm] at hseen
  rw [clock_output]
  refine hseen.trans ?_
  by_cases hc : (agnusSlotSchedulerStep ctx).agnus.beam.frameCount = ctx.agnus.beam.frameCount
  · rw [if_pos hc, if_pos hc.symm]
  · rw [if_neg hc, if_neg (Ne.symm hc)]

end

/-! ## The run and its record -/

/-- A context, the pixels in its buffers, and Denise as it stood at the end of each line: of this frame as far as it has
come, and of the one before it. -/
structure Screen where
  ctx : RigelContext
  pixels : DenisePixels
  ended : Nat → Option RigelDenise
  finished : Nat → Option RigelDenise

def Screen.start (ctx : RigelContext) : Screen := ⟨rigelReset ctx, .cleared, fun _ => none, fun _ => none⟩

/-- The record with the beam's line. -/
def Screen.endedNow (s : Screen) : Nat → Option RigelDenise :=
  Function.update s.ended s.ctx.agnus.beam.vpos.toNat (some (dispatchedDenise s.ctx))

/-- A clock that leaves a line records it, and one that leaves a frame begins a new record. -/
def Screen.clock (s : Screen) : Screen :=
  let b := s.ctx.agnus.beam
  let b' := (agnusSlotSchedulerStep s.ctx).agnus.beam
  { ctx := agnusSlotSchedulerStep s.ctx
    pixels := pixelClock s.ctx s.pixels
    ended := if b'.frameCount ≠ b.frameCount then fun _ => none else if b'.vpos ≠ b.vpos then s.endedNow else s.ended
    finished := if b'.frameCount ≠ b.frameCount then s.endedNow else s.finished }

/-- Nothing but a clock touches the pixels. -/
def screenEvent (s : Screen) : LineEvent → Screen
  | .bus .clock => s.clock
  | e => { s with ctx := lineEvent s.ctx e }

theorem screenEvent_ctx (s : Screen) (e : LineEvent) : (screenEvent s e).ctx = lineEvent s.ctx e := by
  cases e with
  | bus e => cases e <;> rfl
  | call c => rfl

theorem screenEvent_between (s : Screen) {e : LineEvent} (hc : ¬ e.IsClock) :
    screenEvent s e = { s with ctx := lineEvent s.ctx e } := by
  cases e with
  | bus e =>
    cases e with
    | clock => exact absurd trivial hc
    | _ => rfl
  | call c => rfl

/-- The buffer that the host is shown. -/
def Screen.front (s : Screen) : Nat := s.ctx.denise.output.frontIdx.toNat

/-- The front buffer holds what the record of the last frame composes to. -/
def Screen.ShowsFrame (s : Screen) : Prop :=
  ∀ y < deniseMaxLines.toNat, ∀ d, s.finished y = some d → (lineImage d).Shows (s.pixels.line s.front y)

/-- A frame has been finished, the record has each of its lines, and the front buffer shows it. -/
structure FrameComplete (s : Screen) : Prop where
  lines : ∃ last, 261 ≤ last ∧ ∀ y, (s.finished y).isSome ↔ y ≤ last
  shown : s.ShowsFrame

/-- What an event may do to the frame buffers. Where the frame count changes, every line of the frame has been recorded,
and the buffer that comes to the front holds what the records compose to. -/
structure TearFree (s s' : Screen) : Prop where
  kept : ∀ y, s'.pixels.line s.front y = s.pixels.line s.front y
  stays : s'.ctx.agnus.beam.frameCount = s.ctx.agnus.beam.frameCount → s'.front = s.front ∧ s'.finished = s.finished
  swaps : s'.ctx.agnus.beam.frameCount ≠ s.ctx.agnus.beam.frameCount → s'.front = backBuffer s.ctx.denise
  scanned : s'.ctx.agnus.beam.frameCount ≠ s.ctx.agnus.beam.frameCount →
    261 ≤ s.ctx.agnus.beam.vpos.toNat ∧ ∀ y, (s'.finished y).isSome ↔ y ≤ s.ctx.agnus.beam.vpos.toNat
  complete : s'.ctx.agnus.beam.frameCount ≠ s.ctx.agnus.beam.frameCount → s'.ShowsFrame

/-- Along a run the record has the lines that the beam has left in this frame, and the back buffer shows them. -/
structure ScreenOk (s : Screen) : Prop where
  ok : AgnusOk s.ctx.agnus
  follows : DeniseFollows s.ctx
  wide : s.ctx.denise.video.width ≠ 0
  scanline : s.ctx.denise.output.visibleScanline = true → s.ctx.denise.output.scanlineWidth ≠ 0
  recorded : ∀ y, (s.ended y).isSome ↔ y < s.ctx.agnus.beam.vpos.toNat
  shown : ∀ y < deniseMaxLines.toNat, ∀ d, s.ended y = some d →
    (lineImage d).Shows (s.pixels.line (backBuffer s.ctx.denise) y)

/-- A machine that has been reset has left no line yet. -/
theorem ScreenOk.start (ctx : RigelContext) : ScreenOk (Screen.start ctx) := by
  have houtput : (rigelReset ctx).denise.output = rigelDeniseFramebufferReset ctx.denise.output := by
    show (rigelDeniseDisplayWindowUpdate _).output = _
    rw [displayWindowUpdate_eq]
    rfl
  have hvpos : (rigelReset ctx).agnus.beam.vpos = 0 := by
    show (rigelAgnusSetVideoStd _ _).beam.vpos = 0
    unfold rigelAgnusSetVideoStd
    rfl
  have hframe : (rigelReset ctx).agnus.beam.frameCount = 0 := by
    show (rigelAgnusSetVideoStd _ _).beam.frameCount = 0
    unfold rigelAgnusSetVideoStd
    rfl
  have hvisible : (rigelReset ctx).denise.output.visibleScanline = false := by
    rw [houtput]
    rfl
  refine ⟨rigelReset_ok ctx, ⟨?_, ?_, fun hv => ?_⟩, wide_invariant.reset ctx, fun hv => ?_, fun y => ?_,
    fun y _ d hd => ?_⟩
  · show (rigelReset ctx).denise.output.beamVpos = (rigelReset ctx).agnus.beam.vpos
    rw [houtput, hvpos]
    rfl
  · show (rigelReset ctx).denise.output.frameCounter = (rigelReset ctx).agnus.beam.frameCount
    rw [houtput, hframe]
    rfl
  · exact Bool.noConfusion (hvisible.symm.trans hv)
  · exact Bool.noConfusion (hvisible.symm.trans hv)
  · show (none : Option RigelDenise).isSome = true ↔ y < (rigelReset ctx).agnus.beam.vpos.toNat
    rw [hvpos]
    simp
  · cases hd

section
variable {s : Screen} (h : ScreenOk s)
include h

theorem ScreenOk.between {e : LineEvent} (hu : e.Unrolled) (hc : ¬ e.IsClock) :
    ScreenOk (screenEvent s e) ∧ TearFree s (screenEvent s e) := by
  obtain ⟨-, hvpos, hframe⟩ := lineEvent_position h.ok hu hc
  obtain ⟨⟨hbeam, hcount, hvisible, hwidth⟩, hfront⟩ := lineEvent_raster s.ctx hu hc
  have hwide : (lineEvent s.ctx e).denise.video.width ≠ 0 := by
    rcases lineEvent_denise s.ctx hu hc with ⟨addr, value, -, hd⟩ | hd
    · rw [hd]
      exact wide_invariant.write (a := s.ctx.agnus) addr value h.wide
    · rw [hd]
      exact h.wide
  have hback : backBuffer (lineEvent s.ctx e).denise = backBuffer s.ctx.denise := by
    unfold backBuffer
    rw [hfront]
  rw [screenEvent_between s hc]
  constructor
  · refine ⟨lineEvent_ok h.ok e, ⟨?_, ?_, ?_⟩, hwide, ?_, ?_, ?_⟩
    · exact (hbeam.trans h.follows.vpos).trans hvpos.symm
    · exact (hcount.trans h.follows.frame).trans hframe.symm
    · intro hv
      show (lineEvent s.ctx e).agnus.beam.visibleYStart ≤ (lineEvent s.ctx e).agnus.beam.vpos
      rw [lineEvent_visibleStart h.ok hu, hvpos]
      exact h.follows.visible (hvisible ▸ hv)
    · intro hv
      show (lineEvent s.ctx e).denise.output.scanlineWidth ≠ 0
      rw [hwidth]
      exact h.scanline (hvisible ▸ hv)
    · intro y
      show (s.ended y).isSome = true ↔ y < (lineEvent s.ctx e).agnus.beam.vpos.toNat
      rw [hvpos]
      exact h.recorded y
    · intro y hy d hd
      show (lineImage d).Shows (s.pixels.line (backBuffer (lineEvent s.ctx e).denise) y)
      rw [hback]
      exact h.shown y hy d hd
  · exact ⟨fun _ => rfl, fun _ => ⟨congrArg UInt8.toNat hfront, rfl⟩, fun hne => absurd hframe hne,
      fun hne => absurd hframe hne, fun hne => absurd hframe hne⟩

theorem ScreenOk.front_kept (y : Nat) : s.clock.pixels.line s.front y = s.pixels.line s.front y := by
  show (pixelClock s.ctx s.pixels).line s.front y = _
  rw [pixelClock_line h.follows, if_neg]
  rintro ⟨-, -, hb, -⟩
  exact backBuffer_ne_front s.ctx.denise hb.symm

/-- **The back buffer after a clock that leaves a line** shows the record with that line. -/
theorem ScreenOk.back_shows (hleaves : LeavesLine s.ctx.agnus.beam (agnusSlotSchedulerStep s.ctx).agnus.beam) :
    ∀ y < deniseMaxLines.toNat, ∀ d, s.endedNow y = some d →
      (lineImage d).Shows (s.clock.pixels.line (backBuffer s.ctx.denise) y) := by
  intro y hy d hd
  show (lineImage d).Shows ((pixelClock s.ctx s.pixels).line (backBuffer s.ctx.denise) y)
  rw [pixelClock_line h.follows]
  by_cases hline : y = s.ctx.agnus.beam.vpos.toNat
  · subst hline
    rw [if_pos ⟨hleaves, UInt16.lt_iff_toNat_lt.mpr hy, rfl, rfl⟩]
    obtain rfl : dispatchedDenise s.ctx = d := by
      rw [Screen.endedNow, Function.update_self] at hd
      exact Option.some.inj hd
    obtain ⟨-, -, hvisible, hwidth⟩ := dispatch_sight s.ctx
    refine composeOrClear_shows (fun hv => ?_) s.pixels
    show (schedulerDispatch (schedulerPrepare s.ctx)).denise.output.scanlineWidth ≠ 0
    rw [hwidth]
    exact h.scanline (hvisible ▸ hv)
  · rw [if_neg fun hc => hline hc.2.2.2]
    rw [Screen.endedNow, Function.update_of_ne hline] at hd
    exact h.shown y hy d hd

theorem ScreenOk.endedNow_iff (y : Nat) : (s.endedNow y).isSome ↔ y ≤ s.ctx.agnus.beam.vpos.toNat := by
  unfold Screen.endedNow
  by_cases hline : y = s.ctx.agnus.beam.vpos.toNat
  · rw [hline, Function.update_self]
    simp
  · rw [Function.update_of_ne hline, h.recorded y]
    omega

/-- Wherever the beam goes, the next line has a width. -/
theorem ScreenOk.clock_width :
    s.clock.ctx.denise.video.width ≠ 0 ∧
      (s.clock.ctx.denise.output.visibleScanline = true → s.clock.ctx.denise.output.scanlineWidth ≠ 0) := by
  have hwide : (agnusSlotSchedulerStep s.ctx).denise.video.width ≠ 0 := wide_invariant.kept.clock h.wide
  have hdispatched : (dispatchedDenise s.ctx).video.width ≠ 0 := wide_invariant.kept.dispatch h.wide
  refine ⟨hwide, fun _ => ?_⟩
  show (agnusSlotSchedulerStep s.ctx).denise.output.scanlineWidth ≠ 0
  rw [clock_output, (rigelDeniseStep_follows _ _).width]
  exact hdispatched

/-- A clock inside a frame leaves the buffers where they are. -/
theorem ScreenOk.inFrame
    (hframe : (agnusSlotSchedulerStep s.ctx).agnus.beam.frameCount = s.ctx.agnus.beam.frameCount) :
    backBuffer s.clock.ctx.denise = backBuffer s.ctx.denise ∧ TearFree s s.clock := by
  have hfront : s.clock.ctx.denise.output.frontIdx = s.ctx.denise.output.frontIdx :=
    (clock_front h.follows).trans (if_pos hframe)
  have hfinished : s.clock.finished = s.finished := if_neg (not_not.mpr hframe)
  refine ⟨?_, h.front_kept, fun _ => ⟨congrArg UInt8.toNat hfront, hfinished⟩, fun hne => absurd hframe hne,
    fun hne => absurd hframe hne, fun hne => absurd hframe hne⟩
  unfold backBuffer
  rw [hfront]

/-- A clock that ends a frame brings the back buffer to the front, with its last line written. -/
theorem ScreenOk.newFrame (hlines : 262 ≤ s.ctx.agnus.beam.vpos.toNat + 1)
    (hframe : (agnusSlotSchedulerStep s.ctx).agnus.beam.frameCount ≠ s.ctx.agnus.beam.frameCount) :
    TearFree s s.clock := by
  have hswap : s.clock.front = backBuffer s.ctx.denise :=
    congrArg UInt8.toNat ((clock_front h.follows).trans (if_neg hframe))
  have hfinished : s.clock.finished = s.endedNow := if_pos hframe
  refine ⟨h.front_kept, fun hsame => absurd hsame hframe, fun _ => hswap, fun _ => ?_, fun _ y hy d hd => ?_⟩
  · rw [hfinished]
    exact ⟨by omega, h.endedNow_iff⟩
  · rw [hfinished] at hd
    rw [hswap]
    exact h.back_shows (.inr hframe) y hy d hd

/-- **One clock.** -/
theorem ScreenOk.clock : ScreenOk s.clock ∧ TearFree s s.clock := by
  obtain ⟨hwide, hscanline⟩ := h.clock_width
  have hok : AgnusOk s.clock.ctx.agnus := agnusSlotSchedulerStep_ok _ h.ok
  have hfollows : DeniseFollows s.clock.ctx := .clock s.ctx
  have hended : s.clock.ended =
      if (agnusSlotSchedulerStep s.ctx).agnus.beam.frameCount ≠ s.ctx.agnus.beam.frameCount then fun _ => none
      else if (agnusSlotSchedulerStep s.ctx).agnus.beam.vpos ≠ s.ctx.agnus.beam.vpos then s.endedNow else s.ended := rfl
  cases clock_beam h.ok with
  | right hpos hvpos hframe =>
    obtain ⟨hback, htear⟩ := h.inFrame hframe
    rw [if_neg (not_not.mpr hframe), if_neg (not_not.mpr hvpos)] at hended
    refine ⟨⟨hok, hfollows, hwide, hscanline, fun y => ?_, fun y hy d hd => ?_⟩, htear⟩
    · rw [hended]
      show (s.ended y).isSome ↔ y < (agnusSlotSchedulerStep s.ctx).agnus.beam.vpos.toNat
      rw [hvpos]
      exact h.recorded y
    · rw [hended] at hd
      rw [hback]
      show (lineImage d).Shows ((pixelClock s.ctx s.pixels).line (backBuffer s.ctx.denise) y)
      rw [pixelClock_line h.follows, if_neg fun hc => hc.1.elim (absurd hvpos) (absurd hframe)]
      exact h.shown y hy d hd
  | line last hpos hvpos hframe =>
    obtain ⟨hback, htear⟩ := h.inFrame hframe
    have hne : (agnusSlotSchedulerStep s.ctx).agnus.beam.vpos ≠ s.ctx.agnus.beam.vpos := by
      intro hsame
      rw [hsame] at hvpos
      omega
    rw [if_neg (not_not.mpr hframe), if_pos hne] at hended
    refine ⟨⟨hok, hfollows, hwide, hscanline, fun y => ?_, fun y hy d hd => ?_⟩, htear⟩
    · rw [hended, h.endedNow_iff]
      show y ≤ _ ↔ y < (agnusSlotSchedulerStep s.ctx).agnus.beam.vpos.toNat
      rw [hvpos]
      omega
    · rw [hended] at hd
      rw [hback]
      exact h.back_shows (.inl hne) y hy d hd
  | frame last hpos hvpos lines hframe =>
    have hne : (agnusSlotSchedulerStep s.ctx).agnus.beam.frameCount ≠ s.ctx.agnus.beam.frameCount := by
      grind
    rw [if_pos hne] at hended
    refine ⟨⟨hok, hfollows, hwide, hscanline, fun y => ?_, fun y hy d hd => ?_⟩, h.newFrame lines hne⟩
    · rw [hended]
      show (none : Option RigelDenise).isSome = true ↔ y < (agnusSlotSchedulerStep s.ctx).agnus.beam.vpos.toNat
      rw [hvpos]
      simp
    · rw [hended] at hd
      cases hd

theorem ScreenOk.event {e : LineEvent} (hu : e.Unrolled) : ScreenOk (screenEvent s e) ∧ TearFree s (screenEvent s e) := by
  by_cases hc : e.IsClock
  · obtain rfl : e = .bus .clock := LineEvent.eq_clock hc
    exact h.clock
  · exact h.between hu hc

end

theorem ScreenOk.run : ∀ (es : List LineEvent) {s : Screen} (_ : ScreenOk s), (∀ e ∈ es, e.Unrolled) →
    ScreenOk (es.foldl screenEvent s) ∧ AlongRun screenEvent (fun s e => TearFree s (screenEvent s e)) s es
  | [], _, h, _ => ⟨h, trivial⟩
  | e :: es, _, h, hu =>
    have hevent := h.event (hu e List.mem_cons_self)
    have hrest := ScreenOk.run es hevent.1 fun e he => hu e (List.mem_cons_of_mem _ he)
    ⟨hrest.1, hevent.2, hrest.2⟩

/-! ## A step of the host -/

/-- The events that a step consists of. -/
def stepLine (ctx : RigelContext) (cycles : UInt64) : List LineEvent :=
  [.bus (.stepBegin cycles.toUInt32)] ++ List.replicate cycles.toUInt32.toNat (.bus .clock) ++
    [.bus (.stepEnd ctx.agnus.beam cycles.toUInt32)]

def screenStep (s : Screen) (cycles : UInt64) : Screen := (stepLine s.ctx cycles).foldl screenEvent s

theorem stepLine_unrolled (ctx : RigelContext) (cycles : UInt64) : ∀ e ∈ stepLine ctx cycles, e.Unrolled := by
  intro e he
  simp only [stepLine, List.mem_append, List.mem_singleton, List.mem_replicate] at he
  rcases he with (rfl | ⟨-, rfl⟩) | rfl <;> trivial

theorem screenRun_ctx : ∀ (es : List LineEvent) (s : Screen), (es.foldl screenEvent s).ctx = es.foldl lineEvent s.ctx
  | [], _ => rfl
  | e :: es, s => by
    rw [List.foldl_cons, List.foldl_cons, screenRun_ctx es, screenEvent_ctx]

theorem screenClocks_pixels : ∀ (n : Nat) (s : Screen),
    ((List.replicate n (LineEvent.bus .clock)).foldl screenEvent s).pixels = pixelClocks n s.ctx s.pixels
  | 0, _ => rfl
  | n + 1, s => screenClocks_pixels n s.clock

/-- **The events of a step are the step**, for the context and for the pixels. -/
theorem screenStep_eq (s : Screen) (cycles : UInt64) :
    (screenStep s cycles).ctx = (rigelStep s.ctx cycles).1 ∧
      (screenStep s cycles).pixels = pixelStep s.ctx s.pixels cycles := by
  constructor
  · have hbus : ∀ (es : List BusEvent) (ctx : RigelContext), (es.map LineEvent.bus).foldl lineEvent ctx = es.foldl busEvent ctx := by
      intro es ctx
      rw [List.foldl_map]
      rfl
    rw [screenStep, screenRun_ctx, rigelStep_eq_events, ← hbus, stepLine]
    simp only [List.map_append, List.map_cons, List.map_nil, List.map_replicate]
  · unfold screenStep stepLine
    rw [List.foldl_append, List.foldl_append, List.foldl_cons, List.foldl_nil, List.foldl_cons, List.foldl_nil]
    exact screenClocks_pixels _ _

/-- The front buffer keeps the picture that it shows until the next one is finished. -/
theorem TearFree.frameComplete {s s' : Screen} (h : TearFree s s')
    (hs : s'.ctx.agnus.beam.frameCount = s.ctx.agnus.beam.frameCount → FrameComplete s) : FrameComplete s' := by
  by_cases hframe : s'.ctx.agnus.beam.frameCount = s.ctx.agnus.beam.frameCount
  · obtain ⟨hfront, hfinished⟩ := h.stays hframe
    obtain ⟨hlines, hshown⟩ := hs hframe
    refine ⟨by rw [hfinished]; exact hlines, fun y hy d hd => ?_⟩
    rw [hfront, h.kept]
    exact hshown y hy d (by rw [← hfinished]; exact hd)
  · exact ⟨⟨_, (h.scanned hframe).1, (h.scanned hframe).2⟩, h.complete hframe⟩

/-- Along a run either no frame has been finished or the front buffer shows the last one. -/
theorem ScreenOk.front {c : UInt64} : ∀ (es : List LineEvent) {s : Screen} (_ : ScreenOk s), (∀ e ∈ es, e.Unrolled) →
    (s.ctx.agnus.beam.frameCount = c ∨ FrameComplete s) →
      (es.foldl screenEvent s).ctx.agnus.beam.frameCount = c ∨ FrameComplete (es.foldl screenEvent s)
  | [], _, _, _, hs => hs
  | e :: es, s, h, hu, hs => by
    obtain ⟨hok, htear⟩ := h.event (hu e List.mem_cons_self)
    refine ScreenOk.front es hok (fun e he => hu e (List.mem_cons_of_mem _ he)) ?_
    by_cases hframe : (screenEvent s e).ctx.agnus.beam.frameCount = s.ctx.agnus.beam.frameCount
    · rcases hs with hcount | hcomplete
      · exact .inl (hframe.trans hcount)
      · exact .inr (htear.frameComplete fun _ => hcomplete)
    · exact .inr (htear.frameComplete fun hsame => absurd hsame hframe)

/-- **A step that reports a new frame** leaves a complete one at the front. -/
theorem ScreenOk.frameReady {s : Screen} (h : ScreenOk s) {cycles : UInt64}
    (hready : (rigelStep s.ctx cycles).2.events.frameReady = true) : FrameComplete (screenStep s cycles) := by
  have hchanged : (rigelStep s.ctx cycles).1.agnus.beam.frameCount ≠ s.ctx.agnus.beam.frameCount := bne_iff_ne.mp hready
  rw [← (screenStep_eq s cycles).1] at hchanged
  exact (h.front _ (stepLine_unrolled s.ctx cycles) (.inl rfl)).resolve_left hchanged

/-- A step as long as the longest frame reports one. -/
theorem frameReady_of_longStep {ctx : RigelContext} (h : AgnusOk ctx.agnus) {cycles : UInt64}
    (hlong : 227 * 313 ≤ cycles.toUInt32.toNat) : (rigelStep ctx cycles).2.events.frameReady = true := by
  have hfit : cycles.toUInt32.toNat < 2 ^ 32 := cycles.toUInt32.toNat_lt
  have hclocks := clocks_balance h cycles.toUInt32.toNat
  have hlines := lines_balance h cycles.toUInt32.toNat
  have hframes := linesOfFrames_le h cycles.toUInt32.toNat
  have hok := agnusSlotSchedulerStepUntil_ok ctx h cycles.toUInt32.toNat
  have hhpos : (beamAt ctx cycles.toUInt32.toNat).hpos.toNat < 227 := UInt16.lt_iff_toNat_lt.mp hok.beam.hpos
  have hvpos : (beamAt ctx cycles.toUInt32.toNat).vpos.toNat ≤ 312 := UInt16.le_iff_toNat_le.mp hok.beam.vpos
  have hcompleted : 0 < framesCompleted ctx cycles.toUInt32.toNat := by omega
  have hchanged := (frameCount_ne_iff h hfit).mpr hcompleted
  rw [← stepRun_beam h] at hchanged
  exact bne_iff_ne.mpr hchanged

/-- **Tear-free double buffering.** From a reset, over any run of clocks and of what the host and the copper do between
them, the front buffer is written by nothing, the buffers change places where the frame count changes and nowhere else,
and the one that comes to the front then holds every line of the frame that is finished, as Denise composed it when the
beam left it. A step that reports a new frame leaves such a frame at the front. -/
theorem doubleBuffering_tearFree (ctx : RigelContext) (es : List LineEvent) (hu : ∀ e ∈ es, e.Unrolled) :
    AlongRun screenEvent (fun s e => TearFree s (screenEvent s e)) (Screen.start ctx) es ∧
      ∀ cycles, (rigelStep (es.foldl screenEvent (Screen.start ctx)).ctx cycles).2.events.frameReady = true →
        FrameComplete (screenStep (es.foldl screenEvent (Screen.start ctx)) cycles) := by
  obtain ⟨hok, hrun⟩ := (ScreenOk.start ctx).run es hu
  exact ⟨hrun, fun cycles hready => hok.frameReady hready⟩

/-- Half a frame, a change of the border's colour, and a step that ends the frame. -/
theorem doubleBuffering_tearFree_border :
    let es := List.replicate 40000 (.bus .clock) ++ [.call (.customWrite 0x180 0x0F83)]
    AlongRun screenEvent (fun s e => TearFree s (screenEvent s e)) (Screen.start palMachine) es ∧
      FrameComplete (screenStep (es.foldl screenEvent (Screen.start palMachine)) 80000) := by
  intro es
  have hu : ∀ e ∈ es, e.Unrolled := by
    intro e he
    simp only [es, List.mem_append, List.mem_singleton, List.mem_replicate] at he
    rcases he with ⟨-, rfl⟩ | rfl <;> trivial
  obtain ⟨hrun, hframe⟩ := doubleBuffering_tearFree palMachine es hu
  refine ⟨hrun, hframe 80000 (frameReady_of_longStep ?_ (by decide))⟩
  exact ((ScreenOk.start palMachine).run es hu).1.ok

end Rigel
