import Rigel.Compositor
import Rigel.DisplayRun

/-!
# PixelFormats — the two formats of every pixel

Each drawing branch of the compositor writes a pixel twice, the second time from the palette's own RGB565 entry or by
converting what it wrote the first time. The two palettes agree in every state, so the two buffers do: a relation between
them that a single pixel keeps, hence a mode, a line, a clock and a run.
-/

namespace Rigel

/-! ## The palette -/

/-- The entries of the second are those of the first, converted. -/
def PaletteAgrees (p : DenisePaletteState) : Prop := ∀ i, p.rgb565 i = rgb32ToRgb565 (p.rgb32 i)

/-- A nibble twice, in both formats. -/
theorem expand_nibbles : ∀ r g b : Fin 16,
    rgb32ToRgb565 ((UInt32.ofNat r.val <<< 20) ||| (UInt32.ofNat r.val <<< 16) ||| (UInt32.ofNat g.val <<< 12) |||
        (UInt32.ofNat g.val <<< 8) ||| (UInt32.ofNat b.val <<< 4) ||| UInt32.ofNat b.val) =
      ((((UInt16.ofNat r.val <<< 4) ||| UInt16.ofNat r.val) >>> 3) <<< 11) |||
        ((((UInt16.ofNat g.val <<< 4) ||| UInt16.ofNat g.val) >>> 2) <<< 5) |||
        (((UInt16.ofNat b.val <<< 4) ||| UInt16.ofNat b.val) >>> 3) := by
  decide +kernel

/-- A nibble of a colour word, as a number. -/
theorem nibble_cases (x : UInt16) : ∃ n : Fin 16, x &&& 0x0F = UInt16.ofNat n.val ∧ (x &&& 0x0F).toUInt32 = UInt32.ofNat n.val := by
  have hlt : (x &&& 0x0F).toNat < 16 := by
    rw [UInt16.toNat_and]
    exact Nat.lt_of_le_of_lt Nat.and_le_right (by decide)
  refine ⟨⟨(x &&& 0x0F).toNat, hlt⟩, UInt16.ofNat_toNat.symm, UInt32.toNat_inj.mp ?_⟩
  rw [UInt16.toNat_toUInt32, UInt32.toNat_ofNat_of_lt' (Nat.lt_trans hlt (by decide))]

/-- **A colour register.** Both expansions of a colour word are one colour. -/
theorem colorExpand_agrees (value : UInt16) :
    rigelDeniseColorExpandRgb565 value = rgb32ToRgb565 (rigelDeniseColorExpand12bit value) := by
  obtain ⟨r, hr, hr'⟩ := nibble_cases (value >>> 8)
  obtain ⟨g, hg, hg'⟩ := nibble_cases (value >>> 4)
  obtain ⟨b, hb, hb'⟩ := nibble_cases value
  simp only [rigelDeniseColorExpandRgb565, rigelDeniseColorExpand12bit, hr', hg', hb']
  rw [hr, hg, hb]
  exact (expand_nibbles r g b).symm

theorem PaletteAgrees.colorWrite {d : RigelDenise} (h : PaletteAgrees d.palette) (addr : UInt32) (value : UInt16) :
    PaletteAgrees (rigelDeniseColorRegsWrite d addr value).palette := by
  intro i
  simp only [rigelDeniseColorRegsWrite]
  by_cases hi : i = colorIndex addr
  · rw [hi, Function.update_self, Function.update_self]
    exact colorExpand_agrees value
  · rw [Function.update_of_ne hi, Function.update_of_ne hi]
    exact h i

theorem displayWindowUpdate_palette (d : RigelDenise) : (rigelDeniseDisplayWindowUpdate d).palette = d.palette := by
  rw [displayWindowUpdate_eq]

theorem PaletteAgrees.deniseWrite {d : RigelDenise} (h : PaletteAgrees d.palette) (addr : UInt32) (value : UInt16) :
    PaletteAgrees (rigelDeniseRegistersWrite d addr value).palette := by
  unfold rigelDeniseRegistersWrite
  split
  · exact h.colorWrite addr value
  split
  · exact h
  · show PaletteAgrees (rigelDeniseControlWrite d addr value).palette
    rw [(deniseControlWrite_frame d addr value).1]
    exact h

theorem rgb565_zero : (0 : UInt16) = rgb32ToRgb565 0 := by decide

theorem paletteAgrees_invariant : DisplayInvariant fun _ d => PaletteAgrees d.palette where
  reset ctx := by
    have hpalette : (rigelReset ctx).denise.palette = ⟨fun _ => 0, fun _ => 0⟩ := displayWindowUpdate_palette _
    rw [hpalette]
    exact fun _ => rgb565_zero
  write {a d} addr value h := by
    unfold deniseAfterWrite
    cases rigelCustomDomainForReg addr with
    | agnus =>
      rw [deniseAfterMmio_eq]
      exact h
    | denise => exact h.deniseWrite addr value
    | paula => exact h
    | unknown => exact h
  still {a a' d d'} h hs := by
    rw [hs.palette]
    exact h

theorem Reachable.paletteAgrees {ctx : RigelContext} (h : Reachable ctx) : PaletteAgrees ctx.denise.palette :=
  paletteAgrees_invariant.reachable h

/-! ## One line -/

/-- Two buffers hold the same pixels. -/
def SamePixels (rgba : Nat → UInt32) (rgb565 : Nat → UInt16) : Prop := ∀ x, rgb565 x = rgb32ToRgb565 (rgba x)

/-- The two scanline buffers of a line hold the same pixels. -/
def LinePixels.Agrees (l : LinePixels) : Prop := SamePixels l.rgba l.rgb565

theorem SamePixels.fill {rgba : Nat → UInt32} {rgb565 : Nat → UInt16} (h : SamePixels rgba rgb565)
    {p : DenisePaletteState} (hp : PaletteAgrees p) :
    SamePixels (fillScanline rgba (p.rgb32 0)) (fillScanline rgb565 (p.rgb565 0)) := by
  intro x
  unfold fillScanline
  by_cases hx : x < deniseMaxScanlinePixels
  · rw [if_pos hx, if_pos hx]
    exact hp 0
  · rw [if_neg hx, if_neg hx]
    exact h x

/-- **A pixel.** Two values that are one colour keep the buffers together. -/
theorem LinePixels.Agrees.draw {l : LinePixels} (h : l.Agrees) (x : Nat) {rgba : UInt32} {rgb565 : UInt16}
    (hc : rgb565 = rgb32ToRgb565 rgba) : (l.draw x rgba rgb565).Agrees := by
  intro y
  simp only [LinePixels.draw]
  by_cases hy : y = x
  · rw [hy, Function.update_self, Function.update_self]
    exact hc
  · rw [Function.update_of_ne hy, Function.update_of_ne hy]
    exact h y

section
variable {palette : DenisePaletteState} (hp : PaletteAgrees palette)
include hp

theorem composeSingleColor_agrees (m : LineMode) {l : LinePixels} (h : l.Agrees) (x : Nat) (bits : UInt8) :
    (composeSingleColor palette m l x bits).Agrees := by
  unfold composeSingleColor
  simp only
  generalize hl : l.field x _ _ = l'
  have hfield : l'.Agrees := by
    rw [← hl]
    exact h
  cases m.isEhb with
  | true => exact hfield.draw x rfl
  | false => exact hfield.draw x (hp _)

theorem composeFieldPixel_agrees (m : LineMode) {l : LinePixels} (h : l.Agrees) (x : Nat) (index prio own other : UInt8)
    (above : Bool) : (composeFieldPixel palette m l x index prio own other above).Agrees := by
  unfold composeFieldPixel
  simp only
  split
  · split
    · exact h.draw x (hp _)
    · exact h
  · exact h

theorem composeDualPixel_agrees (m : LineMode) {l : LinePixels} (h : l.Agrees) (p : Nat × UInt8) :
    (composeDualPixel palette m l p).Agrees :=
  composeFieldPixel_agrees hp m (composeFieldPixel_agrees hp m h _ _ _ _ _ _) _ _ _ _ _ _

theorem composeSinglePixel_agrees (m : LineMode) {l : LinePixels} (h : l.Agrees) (p : Nat × UInt8) :
    (composeSinglePixel palette m l p).Agrees := by
  unfold composeSinglePixel
  simp only
  split
  · exact composeSingleColor_agrees hp m h _ _
  · exact h

end

theorem composeHamPixel_agrees (palette : DenisePaletteState) (m : LineMode) {s : UInt32 × LinePixels} (h : s.2.Agrees)
    (p : Nat × UInt8) : (composeHamPixel palette m s p).2.Agrees := by
  unfold composeHamPixel
  simp only
  split
  · exact h.draw _ rfl
  · exact h

theorem composePlayfields_agrees {d : RigelDenise} (hp : PaletteAgrees d.palette) (m : LineMode) {l : LinePixels}
    (h : l.Agrees) : (composePlayfields d m l).Agrees := by
  unfold composePlayfields
  simp only
  split
  · split
    · exact List.foldlRecOn (motive := fun s : UInt32 × LinePixels => s.2.Agrees) _ _ h
        fun s hs p _ => composeHamPixel_agrees d.palette m hs p
    split
    · exact List.foldlRecOn (motive := LinePixels.Agrees) _ _ h fun l hl p _ => composeDualPixel_agrees hp m hl p
    split
    · exact List.foldlRecOn (motive := LinePixels.Agrees) _ _ h fun l hl p _ => composeSinglePixel_agrees hp m hl p
    · exact List.foldlRecOn (motive := LinePixels.Agrees) _ _ h fun l hl x _ => composeSingleColor_agrees hp m hl x _
  · exact h

theorem composeSpritePixel_agrees (d : RigelDenise) (m : LineMode) (spr : Nat) {l : LinePixels} (h : l.Agrees) (px : Nat) :
    (composeSpritePixel d m spr l px).Agrees := by
  unfold composeSpritePixel
  simp only
  split
  · exact h
  · refine List.foldlRecOn (motive := LinePixels.Agrees) _ _ h fun l hl rep _ => ?_
    split
    · exact hl.draw _ rfl
    · exact hl

theorem composeSprites_agrees (d : RigelDenise) (m : LineMode) {l : LinePixels} (h : l.Agrees) :
    (composeSprites d m l).Agrees := by
  unfold composeSprites
  refine List.foldlRecOn (motive := LinePixels.Agrees) _ _ h fun l hl spr _ => ?_
  split
  · exact List.foldlRecOn (motive := LinePixels.Agrees) _ _ hl fun l hl px _ => composeSpritePixel_agrees d m spr hl px
  · exact hl

/-! ## The buffers -/

/-- The scanline and both frame buffers hold the same pixels in both formats. -/
structure DenisePixels.Agrees (p : DenisePixels) : Prop where
  scanline : SamePixels p.scanlineRgba p.scanlineRgb565
  frame : ∀ buffer y, SamePixels (p.frameRgba buffer y) (p.frameRgb565 buffer y)

theorem DenisePixels.cleared_agrees : DenisePixels.cleared.Agrees :=
  ⟨fun _ => rgb565_zero, fun _ _ _ => rgb565_zero⟩

section
variable {d : RigelDenise} (hp : PaletteAgrees d.palette) {p : DenisePixels} (h : p.Agrees)
include h

include hp in
theorem DenisePixels.Agrees.clear : (clearScanlineToBorder d p).Agrees := ⟨h.scanline.fill hp, h.frame⟩

include hp in
theorem DenisePixels.Agrees.compose : (composeLine d p).Agrees := by
  unfold composeLine
  split
  · exact h
  · exact ⟨composeSprites_agrees d _ (composePlayfields_agrees hp _ (h.scanline.fill hp)), h.frame⟩

/-- The copy of a line that the beam has left. -/
theorem DenisePixels.Agrees.copyLine (d : RigelDenise) (beam : BeamState) : (framebufferCopyLine d beam p).Agrees := by
  unfold framebufferCopyLine
  split
  · refine ⟨h.scanline, fun buffer y => ?_⟩
    simp only
    by_cases hb : buffer = (1 ^^^ d.output.frontIdx).toNat
    · subst hb
      rw [Function.update_self, Function.update_self]
      by_cases hy : y = d.output.beamVpos.toNat
      · rw [hy, Function.update_self, Function.update_self]
        exact h.scanline
      · rw [Function.update_of_ne hy, Function.update_of_ne hy]
        exact h.frame _ y
    · rw [Function.update_of_ne hb, Function.update_of_ne hb]
      exact h.frame buffer y
  · exact h

include hp in
/-- **A tick of the compositor.** -/
theorem DenisePixels.Agrees.tick (beam : BeamState) : (rigelDeniseCompositorTick d beam p).Agrees := by
  have hstep : PaletteAgrees (rigelDeniseStep d beam).palette := hp
  unfold rigelDeniseCompositorTick
  simp only
  have hcopied : (framebufferCopyLine d beam
      (if deniseLineChanged d beam && d.output.visibleScanline then composeLine d p
        else if deniseLineChanged d beam then clearScanlineToBorder d p else p)).Agrees := by
    refine DenisePixels.Agrees.copyLine ?_ d beam
    split
    · exact h.compose hp
    split
    · exact h.clear hp
    · exact h
  split
  · exact hcopied.compose hstep
  · exact hcopied

end

/-! ## A run -/

/-- The pixels after one colour clock: Denise follows the beam once the slot is dispatched. -/
def pixelClock (ctx : RigelContext) (p : DenisePixels) : DenisePixels :=
  let dispatched := schedulerDispatch (schedulerPrepare ctx)
  rigelDeniseCompositorTick dispatched.denise (beamStep dispatched.agnus.beam 1) p

def pixelClocks : Nat → RigelContext → DenisePixels → DenisePixels
  | 0, _, p => p
  | n + 1, ctx, p => pixelClocks n (agnusSlotSchedulerStep ctx) (pixelClock ctx p)

def pixelStep (ctx : RigelContext) (p : DenisePixels) (cycles : UInt64) : DenisePixels :=
  pixelClocks cycles.toUInt32.toNat (stepPrologue ctx cycles.toUInt32) p

/-- The pixels after a call of the host: only the clocks of a step and a reset touch them. -/
def pixelCall (ctx : RigelContext) (p : DenisePixels) : HostCall → DenisePixels
  | .reset => .cleared
  | .step cycles => pixelStep ctx p cycles
  | .stepUntil target => if target ≤ ctx.cycles then p else pixelStep ctx p (target - ctx.cycles)
  | _ => p

/-- A context that a host can bring about, and the pixels in its buffers. -/
inductive ReachableScreen : RigelContext → DenisePixels → Prop
  | create (config : RigelConfig) (ram : ChipRam) : ReachableScreen (rigelCreate config ram) .cleared
  | call {ctx : RigelContext} {p : DenisePixels} (h : ReachableScreen ctx p) (c : HostCall) :
      ReachableScreen (hostCall ctx c) (pixelCall ctx p c)

theorem ReachableScreen.reachable {ctx : RigelContext} {p : DenisePixels} (h : ReachableScreen ctx p) : Reachable ctx := by
  induction h with
  | create config ram => exact .create config ram
  | call _ c ih => exact ih.call c

/-- Every reachable context has its pixels. -/
theorem Reachable.screen {ctx : RigelContext} (h : Reachable ctx) : ∃ p, ReachableScreen ctx p := by
  induction h with
  | create config ram => exact ⟨_, .create config ram⟩
  | call _ c ih =>
    obtain ⟨p, hp⟩ := ih
    exact ⟨_, hp.call c⟩

theorem pixelClocks_agrees : ∀ (n : Nat) {ctx : RigelContext} {p : DenisePixels}, PaletteAgrees ctx.denise.palette →
    p.Agrees → (pixelClocks n ctx p).Agrees
  | 0, _, _, _, h => h
  | n + 1, _, _, hp, h =>
    pixelClocks_agrees n (paletteAgrees_invariant.kept.clock hp) (h.tick (paletteAgrees_invariant.kept.dispatch hp) _)

theorem pixelStep_agrees {ctx : RigelContext} {p : DenisePixels} (hp : PaletteAgrees ctx.denise.palette) (h : p.Agrees)
    (cycles : UInt64) : (pixelStep ctx p cycles).Agrees :=
  pixelClocks_agrees _ (paletteAgrees_invariant.kept.prologue hp _) h

theorem ReachableScreen.agrees {ctx : RigelContext} {p : DenisePixels} (h : ReachableScreen ctx p) : p.Agrees := by
  induction h with
  | create config ram => exact DenisePixels.cleared_agrees
  | @call ctx p hs c ih =>
    have hp := hs.reachable.paletteAgrees
    cases c with
    | reset => exact DenisePixels.cleared_agrees
    | step cycles => exact pixelStep_agrees hp ih cycles
    | stepUntil target =>
      show (if target ≤ ctx.cycles then p else pixelStep ctx p (target - ctx.cycles)).Agrees
      split
      · exact ih
      · exact pixelStep_agrees hp ih _
    | _ => exact ih

/-- **The two formats.** In every state that a host can bring about, the two palettes agree, and every pixel of the
scanline and of both frame buffers is the same in RGBA and in RGB565. -/
theorem pixel_formats_agree {ctx : RigelContext} {p : DenisePixels} (h : ReachableScreen ctx p) :
    (∀ i, ctx.denise.palette.rgb565 i = rgb32ToRgb565 (ctx.denise.palette.rgb32 i)) ∧
      (∀ x, p.scanlineRgb565 x = rgb32ToRgb565 (p.scanlineRgba x)) ∧
      ∀ buffer y x, p.frameRgb565 buffer y x = rgb32ToRgb565 (p.frameRgba buffer y x) :=
  ⟨h.reachable.paletteAgrees, h.agrees.scanline, h.agrees.frame⟩

/-- An orange border, and the pixels after a line of it. -/
theorem pixel_formats_agree_border :
    let ctx := hostCall palMachine (.customWrite 0x180 0x0F83)
    let p := pixelCall ctx .cleared (.step 227)
    ctx.denise.palette.rgb32 0 = 0xFF8833 ∧ ctx.denise.palette.rgb565 0 = 0xFC46 ∧
      p.scanlineRgb565 40 = rgb32ToRgb565 (p.scanlineRgba 40) := by
  have hcreated : ReachableScreen palMachine .cleared := .create _ _
  have hcolor : ReachableScreen (hostCall palMachine (.customWrite 0x180 0x0F83)) .cleared := hcreated.call _
  have hrun := hcolor.call (.step 227)
  have hpalette : (hostCall palMachine (.customWrite 0x180 0x0F83)).denise.palette.rgb32 0 = 0xFF8833 := by decide +kernel
  refine ⟨hpalette, ?_, (pixel_formats_agree hrun).2.1 40⟩
  rw [(pixel_formats_agree hcolor).1 0, hpalette]
  decide

end Rigel
