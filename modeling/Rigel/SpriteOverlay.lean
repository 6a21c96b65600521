import Mathlib.Data.List.Find
import Rigel.Playfields

/-!
# SpriteOverlay — the sprites over the playfields

The overlay paints the sprites from the last to the first, each pixel of each by its own test against the playfield below.
The priority rule takes the first sprite that passes the test. A column looks the same by both, since the test of one
sprite does not depend on the others. Beside the picture the overlay keeps which sprites reach a column, for the collisions.
-/

namespace Rigel

/-! ## The rule -/

structure PriorityResult where
  colorIndex : UInt8
  fromSprite : Bool
  spriteNum : Nat
  deriving DecidableEq

/-- `denise_priority_resolve`: the first opaque sprite over a transparent field, or in front of it. -/
def denisePriorityResolve (pfColor : UInt8) (isPf2 : Bool) (spritePx : Nat → UInt8) (bplcon2 : UInt16) : PriorityResult :=
  let pfPrio := (if isPf2 then (bplcon2 >>> 3) &&& 0x7 else bplcon2 &&& 0x7).toNat
  match (List.range 8).find? fun i => spritePx i != 0 && (pfColor == 0 || decide (i / 2 + pfPrio < 4)) with
  | some i => ⟨spritePx i, true, i⟩
  | none => ⟨pfColor, false, 0⟩

/-! ## The overlay with its marks -/

/-- A line and the sprites that reach each of its columns, a bit a sprite. -/
structure OverlayLine where
  line : LinePixels
  sprActive : Nat → UInt8

/-- One column of a sprite's pixel. -/
def overlayColumn (spr : Nat) (color : UInt32) (s : OverlayLine) (dst : Nat) : OverlayLine :=
  if dst < deniseMaxScanlinePixels then
    { line :=
        if s.line.pfColor dst = 0 ∨ spr / 2 + (s.line.pfPrio dst).toNat < 4 then
          s.line.draw dst color (rgb32ToRgb565 color)
        else s.line
      sprActive := Function.update s.sprActive dst (s.sprActive dst ||| ((1 : UInt8) <<< UInt8.ofNat spr)) }
  else s

/-- `composeSpritePixel`, with its marks. -/
def overlaySpritePixel (d : RigelDenise) (m : LineMode) (spr : Nat) (s : OverlayLine) (px : Nat) : OverlayLine :=
  let hstart := deniseSpriteHstart (d.sprites.sp spr)
  match spriteColor d spr (hstart + UInt16.ofNat px) with
  | none => s
  | some color =>
    (List.range m.spriteHscale).foldl
      (fun s rep => overlayColumn spr color s (UInt16.ofNat ((hstart.toNat + px) * m.spriteHscale) + UInt16.ofNat rep).toNat) s

def overlaySprite (d : RigelDenise) (m : LineMode) (s : OverlayLine) (spr : Nat) : OverlayLine :=
  if spriteOnLine d.sprites spr d.output.beamVpos then (List.range 16).foldl (overlaySpritePixel d m spr) s else s

/-- The sprite overlay of `compose_line`, with `spr_active`. -/
def overlaySprites (d : RigelDenise) (m : LineMode) (l : LinePixels) : OverlayLine :=
  [7, 6, 5, 4, 3, 2, 1, 0].foldl (overlaySprite d m) ⟨l, fun _ => 0⟩

theorem overlayColumn_line (spr : Nat) (color : UInt32) (s : OverlayLine) (dst : Nat) :
    (overlayColumn spr color s dst).line =
      if dst < deniseMaxScanlinePixels ∧ (s.line.pfColor dst = 0 ∨ spr / 2 + (s.line.pfPrio dst).toNat < 4) then
        s.line.draw dst color (rgb32ToRgb565 color)
      else s.line := by
  unfold overlayColumn
  by_cases hin : dst < deniseMaxScanlinePixels
  · simp only [hin, if_true, true_and]
  · simp only [hin, if_false, false_and]

/-- **The marks do not disturb the picture.** -/
theorem overlaySprites_line (d : RigelDenise) (m : LineMode) (l : LinePixels) :
    (overlaySprites d m l).line = composeSprites d m l := by
  have hpixel : ∀ (spr : Nat) (s : OverlayLine) (px : Nat),
      (overlaySpritePixel d m spr s px).line = composeSpritePixel d m spr s.line px := by
    intro spr s px
    unfold overlaySpritePixel composeSpritePixel
    simp only
    generalize spriteColor d spr (deniseSpriteHstart (d.sprites.sp spr) + UInt16.ofNat px) = shown
    cases shown with
    | none => rfl
    | some color => exact foldl_view (v := OverlayLine.line) (fun s rep => overlayColumn_line spr color s _) _ s
  have hsprite : ∀ (s : OverlayLine) (spr : Nat), (overlaySprite d m s spr).line =
      if spriteOnLine d.sprites spr d.output.beamVpos then
        (List.range 16).foldl (composeSpritePixel d m spr) s.line
      else s.line := by
    intro s spr
    unfold overlaySprite
    split
    · exact foldl_view (v := OverlayLine.line) (hpixel spr) _ s
    · rfl
  exact foldl_view (v := OverlayLine.line) hsprite _ _

/-! ## One column -/

theorem deniseSpriteHstart_lt (sp : DeniseSprite) : (deniseSpriteHstart sp).toNat < 512 := by
  have hpos : (sp.pos &&& 0xFF).toNat < 256 := and_uint16_lt _ (by decide)
  have hctl : (sp.ctl &&& 1).toNat < 512 := and_uint16_lt _ (by decide)
  unfold deniseSpriteHstart
  rw [UInt16.toNat_or, UInt16.toNat_shiftLeft]
  generalize (sp.pos &&& 0xFF).toNat = high at hpos
  refine @Nat.or_lt_two_pow _ _ 9 ?_ hctl
  simp only [UInt16.reduceToNat, Nat.reduceMod, Nat.shiftLeft_eq, Nat.reducePow]
  omega

/-- A column of the overlay: the line's, and its marks. -/
def OverlayLine.cell (s : OverlayLine) (x : Nat) : LineCell × UInt8 := (s.line.cell x, s.sprActive x)

/-- A sprite's pixel reaches the column: it is marked, and drawn if it is in front. -/
def spriteHit (spr : Nat) (color : UInt32) (c : LineCell × UInt8) : LineCell × UInt8 :=
  (if c.1.pfColor = 0 ∨ spr / 2 + c.1.pfPrio.toNat < 4 then { c.1 with rgba := color } else c.1,
    c.2 ||| ((1 : UInt8) <<< UInt8.ofNat spr))

theorem overlayColumn_cell (spr : Nat) (color : UInt32) (s : OverlayLine) {x : Nat} (hx : x < deniseMaxScanlinePixels)
    (dst : Nat) : (overlayColumn spr color s dst).cell x = if x = dst then spriteHit spr color (s.cell x) else s.cell x := by
  unfold overlayColumn OverlayLine.cell LinePixels.cell spriteHit LinePixels.draw
  by_cases hxd : x = dst
  · subst hxd
    simp only [hx, if_true, Function.update_self]
    by_cases hfront : s.line.pfColor x = 0 ∨ spr / 2 + (s.line.pfPrio x).toNat < 4
    · simp only [if_pos hfront, Function.update_self]
    · simp only [if_neg hfront]
  · by_cases hin : dst < deniseMaxScanlinePixels
    · by_cases hfront : s.line.pfColor dst = 0 ∨ spr / 2 + (s.line.pfPrio dst).toNat < 4
      · simp only [hin, if_true, if_pos hfront, if_neg hxd, Function.update_of_ne hxd]
      · simp only [hin, if_true, if_neg hfront, if_neg hxd, Function.update_of_ne hxd]
    · simp only [if_neg hin, if_neg hxd]

/-- What a sprite does to column `x` at the places of its repeats. -/
def repeatPaint (spr : Nat) (color : UInt32) (x : Nat) (place : Nat → Nat) (c : LineCell × UInt8) (rep : Nat) :
    LineCell × UInt8 :=
  if x = place rep then spriteHit spr color c else c

theorem lineMode_spriteHscale (d : RigelDenise) : (lineMode d).spriteHscale = 1 ∨ (lineMode d).spriteHscale = 2 := by
  unfold lineMode
  simp only
  repeat' split
  all_goals first
    | exact Or.inl rfl
    | exact Or.inr rfl

/-- The column of one repeat of a sprite's pixel. -/
def spriteColumn (hstart px scale rep : Nat) : Nat := (UInt16.ofNat ((hstart + px) * scale) + UInt16.ofNat rep).toNat

/-- The columns of a sprite's pixel do not wrap, and a column belongs to one pixel. -/
theorem eq_spriteColumn_iff {hstart px scale rep x : Nat} (hstart512 : hstart < 512) (hpx : px < 16)
    (hscale : scale = 1 ∨ scale = 2) (hrep : rep < scale) :
    x = spriteColumn hstart px scale rep ↔ hstart + px = x / scale ∧ rep = x % scale := by
  unfold spriteColumn
  rw [UInt16.toNat_add, UInt16.toNat_ofNat', UInt16.toNat_ofNat']
  rcases hscale with rfl | rfl <;> omega

section
variable (d : RigelDenise) (spr : Nat) {x : Nat} (hx : x < deniseMaxScanlinePixels)
include hx

/-- What a sprite does to column `x` with one of its pixels. -/
def pixelPaint (x : Nat) (c : LineCell × UInt8) (px : Nat) : LineCell × UInt8 :=
  if (deniseSpriteHstart (d.sprites.sp spr)).toNat + px = x / (lineMode d).spriteHscale then
    match spriteColor d spr (deniseSpriteHstart (d.sprites.sp spr) + UInt16.ofNat px) with
    | none => c
    | some color => spriteHit spr color c
  else c

/-- **A sprite's pixel** reaches the columns of its own place. -/
theorem overlaySpritePixel_cell (s : OverlayLine) {px : Nat} (hpx : px < 16) :
    (overlaySpritePixel d (lineMode d) spr s px).cell x = pixelPaint d spr x (s.cell x) px := by
  have hscale := lineMode_spriteHscale d
  have hstart := deniseSpriteHstart_lt (d.sprites.sp spr)
  unfold overlaySpritePixel pixelPaint
  simp only
  generalize spriteColor d spr (deniseSpriteHstart (d.sprites.sp spr) + UInt16.ofNat px) = shown
  generalize (deniseSpriteHstart (d.sprites.sp spr)).toNat = hs at hstart
  generalize (lineMode d).spriteHscale = scale at hscale
  cases shown with
  | none => simp only [ite_self]
  | some color =>
    have hplace : ∀ {rep}, rep < scale → (x = spriteColumn hs px scale rep ↔ hs + px = x / scale ∧ rep = x % scale) :=
      fun hrep => eq_spriteColumn_iff hstart hpx hscale hrep
    have hother : ∀ rep ∈ List.range scale, rep ≠ x % scale →
        ∀ c, repeatPaint spr color x (spriteColumn hs px scale) c rep = c := by
      intro rep hrep hne c
      exact if_neg fun h => hne ((hplace (List.mem_range.mp hrep)).mp h).2
    have hmod : x % scale < scale := Nat.mod_lt _ (by omega)
    have hview : ((List.range scale).foldl (fun s rep => overlayColumn spr color s (spriteColumn hs px scale rep)) s).cell x =
        (List.range scale).foldl (repeatPaint spr color x (spriteColumn hs px scale)) (s.cell x) :=
      foldl_view (v := fun s : OverlayLine => s.cell x) (fun s rep => overlayColumn_cell spr color s hx _) _ s
    refine hview.trans ((foldl_reached_once (x % scale) _ _ List.nodup_range hother).trans ?_)
    rw [if_pos (List.mem_range.mpr hmod)]
    exact if_congr ((hplace hmod).trans (and_iff_left rfl)) rfl rfl

/-- The sprite's sixteen pixels reach the column. -/
def spriteReaches (m : LineMode) (x : Nat) : Bool :=
  spriteOnLine d.sprites spr d.output.beamVpos &&
    decide ((deniseSpriteHstart (d.sprites.sp spr)).toNat ≤ x / m.spriteHscale ∧
      x / m.spriteHscale < (deniseSpriteHstart (d.sprites.sp spr)).toNat + 16)

/-- The sprite's colour at a column, none where it is transparent or does not reach. -/
def spriteColorAt (m : LineMode) (x : Nat) : Option UInt32 :=
  if spriteReaches d spr m x then spriteColor d spr (UInt16.ofNat (x / m.spriteHscale)) else none

/-- **A sprite** reaches each column once. -/
theorem overlaySprite_cell (s : OverlayLine) :
    (overlaySprite d (lineMode d) s spr).cell x =
      match spriteColorAt d spr (lineMode d) x with
      | none => s.cell x
      | some color => spriteHit spr color (s.cell x) := by
  have hstart := deniseSpriteHstart_lt (d.sprites.sp spr)
  unfold overlaySprite spriteColorAt spriteReaches
  cases hline : spriteOnLine d.sprites spr d.output.beamVpos with
  | false => simp only [Bool.false_and, Bool.false_eq_true, if_false]
  | true =>
    rw [if_pos rfl, Bool.true_and]
    have hview : ((List.range 16).foldl (overlaySpritePixel d (lineMode d) spr) s).cell x =
        (List.range 16).foldl (pixelPaint d spr x) (s.cell x) :=
      foldl_view_mem (v := fun s : OverlayLine => s.cell x) _ s fun px hpx s =>
        overlaySpritePixel_cell d spr hx s (List.mem_range.mp hpx)
    have hother : ∀ px ∈ List.range 16, px ≠ x / (lineMode d).spriteHscale - (deniseSpriteHstart (d.sprites.sp spr)).toNat →
        ∀ c, pixelPaint d spr x c px = c := fun px _ hne c => if_neg fun h => hne (by omega)
    refine (hview.trans (foldl_reached_once _ _ _ List.nodup_range hother)).trans ?_
    unfold pixelPaint
    simp only [List.mem_range, decide_eq_true_eq]
    generalize hs : deniseSpriteHstart (d.sprites.sp spr) = start at hstart
    generalize x / (lineMode d).spriteHscale = place
    by_cases hreach : start.toNat ≤ place ∧ place < start.toNat + 16
    · have hat : start.toNat + (place - start.toNat) = place := by omega
      have hpx : place - start.toNat < 16 := by omega
      have hplace : start + UInt16.ofNat (place - start.toNat) = UInt16.ofNat place := by
        apply UInt16.toNat_inj.mp
        rw [UInt16.toNat_add, UInt16.toNat_ofNat', UInt16.toNat_ofNat']
        omega
      simp only [hpx, hat, hplace, hreach, if_true, and_self]
    · rw [if_neg hreach]
      simp only
      by_cases hat : start.toNat + (place - start.toNat) = place
      · have hpx : ¬ place - start.toNat < 16 := by omega
        rw [if_neg hpx]
      · rw [if_neg hat, ite_self]

end

/-! ## All sprites -/

/-- The sprite is in front of what the playfields have in the column. -/
def spriteInFront (c : LineCell) (spr : Nat) : Bool := c.pfColor == 0 || decide (spr / 2 + c.pfPrio.toNat < 4)

/-- The sprite shows in the column. -/
def spriteShows (d : RigelDenise) (c : LineCell) (x spr : Nat) : Bool :=
  (spriteColorAt d spr (lineMode d) x).isSome && spriteInFront c spr

/-- What one sprite does to a column. -/
def spritePaint (d : RigelDenise) (x : Nat) (c : LineCell × UInt8) (spr : Nat) : LineCell × UInt8 :=
  match spriteColorAt d spr (lineMode d) x with
  | none => c
  | some color => spriteHit spr color c

theorem overlaySprites_cell (d : RigelDenise) (l : LinePixels) {x : Nat} (hx : x < deniseMaxScanlinePixels) :
    (overlaySprites d (lineMode d) l).cell x = [7, 6, 5, 4, 3, 2, 1, 0].foldl (spritePaint d x) (l.cell x, 0) :=
  foldl_view (v := fun s : OverlayLine => s.cell x) (fun s spr => overlaySprite_cell d spr hx s) _ _

/-- A sprite changes the colour of a column, not what the playfields left there. -/
theorem foldl_spritePaint (d : RigelDenise) (x : Nat) : ∀ (es : List Nat) (c : LineCell) (mask : UInt8),
    (es.foldl (spritePaint d x) (c, mask)).1 =
      { c with
        rgba := es.foldl
          (fun rgba spr => if spriteShows d c x spr then (spriteColorAt d spr (lineMode d) x).getD 0 else rgba) c.rgba }
  | [], _, _ => rfl
  | spr :: es, c, mask => by
    obtain ⟨rgba, color, prio, active⟩ := c
    rw [List.foldl_cons, List.foldl_cons]
    unfold spritePaint spriteShows spriteInFront
    cases hcolor : spriteColorAt d spr (lineMode d) x with
    | none =>
      simp only [Option.isSome_none, Bool.false_and, Bool.false_eq_true, if_false]
      exact foldl_spritePaint d x es _ mask
    | some rgba' =>
      simp only [spriteHit, Option.isSome_some, Bool.true_and, Option.getD_some]
      by_cases hfront : color = 0 ∨ spr / 2 + prio.toNat < 4
      · rw [if_pos hfront, if_pos (by simpa using hfront)]
        exact foldl_spritePaint d x es _ _
      · rw [if_neg hfront, if_neg (by simpa using hfront)]
        exact foldl_spritePaint d x es _ _

/-- **The first sprite that shows has the column.** -/
theorem composeSprites_rgba (d : RigelDenise) (l : LinePixels) {x : Nat} (hx : x < deniseMaxScanlinePixels) :
    (composeSprites d (lineMode d) l).rgba x =
      (((List.range 8).find? (spriteShows d (l.cell x) x)).map
        fun spr => (spriteColorAt d spr (lineMode d) x).getD 0).getD (l.rgba x) := by
  have hcell := congrArg (fun c : LineCell × UInt8 => c.1.rgba) (overlaySprites_cell d l hx)
  have hline : ((overlaySprites d (lineMode d) l).cell x).1.rgba = (composeSprites d (lineMode d) l).rgba x := by
    rw [← overlaySprites_line]
    rfl
  rw [← hline]
  refine hcell.trans ?_
  rw [foldl_spritePaint]
  exact foldl_overwrite (spriteShows d (l.cell x) x) _ _ _

/-! ## Sprites that are not attached -/

/-- The playfield's index in the column, 0 outside the window. -/
def shownIndex (d : RigelDenise) (m : LineMode) (x : Nat) : UInt8 :=
  if playfieldsOn d m ∧ m.shows x then playfieldIndex d m x else 0

/-- The column shows playfield 2. -/
def shownIs2 (d : RigelDenise) (m : LineMode) (x : Nat) : Bool := playfieldsOn d m && m.shows x && playfieldIs2 d m x

/-- A sprite's palette index in the column: 0 where it is transparent, not armed or outside its lines. -/
def spriteIndexAt (d : RigelDenise) (m : LineMode) (x spr : Nat) : UInt8 :=
  if spriteBandHas (d.sprites.sp spr) d.output.beamVpos then
    let pix := deniseSpritePixel d.sprites spr (UInt16.ofNat (x / m.spriteHscale))
    if pix = 0 then 0 else 16 + UInt8.ofNat (spr / 2 * 4) + pix
  else 0

/-- Two bits side by side. -/
theorem twoBits_lt {a b : UInt16} (ha : a.toNat < 2) (hb : b.toNat < 2) : ((b <<< 1) ||| a).toUInt8.toNat < 4 := by
  have hcases : ∀ v : UInt16, v.toNat < 2 → v = 0 ∨ v = 1 := by
    intro v hv
    rw [← UInt16.toNat_inj, ← UInt16.toNat_inj, UInt16.toNat_zero, UInt16.toNat_one]
    omega
  rcases hcases a ha with rfl | rfl <;> rcases hcases b hb with rfl | rfl <;> decide

theorem deniseSpritePixel_lt (s : DeniseSpritesState) (spr : Nat) (hpos : UInt16) : (deniseSpritePixel s spr hpos).toNat < 4 := by
  unfold deniseSpritePixel
  simp only
  split
  · decide
  · exact twoBits_lt (and_uint16_lt _ (by decide)) (and_uint16_lt _ (by decide))

/-- Out of its sixteen columns a sprite is transparent. -/
theorem deniseSpritePixel_out (s : DeniseSpritesState) (spr : Nat) {place : Nat} (hplace : place < deniseMaxScanlinePixels)
    (hout : ¬ ((deniseSpriteHstart (s.sp spr)).toNat ≤ place ∧ place < (deniseSpriteHstart (s.sp spr)).toNat + 16)) :
    deniseSpritePixel s spr (UInt16.ofNat place) = 0 := by
  have hstart := deniseSpriteHstart_lt (s.sp spr)
  have h16 : (16 : UInt16).toNat = 16 := rfl
  unfold deniseMaxScanlinePixels at hplace
  unfold deniseSpritePixel
  simp only
  refine if_pos (Or.inr (Or.inr ?_))
  generalize deniseSpriteHstart (s.sp spr) = start at *
  have hnat : (UInt16.ofNat place).toNat = place := by
    rw [UInt16.toNat_ofNat']
    omega
  rw [UInt16.lt_iff_toNat_lt, ge_iff_le, UInt16.le_iff_toNat_le, UInt16.toNat_add, h16, hnat]
  omega

/-- A channel that neither is drawn by its partner nor draws it. -/
theorem spriteColorAt_single {d : RigelDenise} {m : LineMode} {x spr : Nat} (hspr : spr < 8)
    (hplace : x / m.spriteHscale < deniseMaxScanlinePixels) (hself : deniseSpriteIsAttached d.sprites spr = false)
    (hpair : ¬ (spr % 2 = 0 ∧ deniseSpriteIsAttached d.sprites (spr + 1) = true)) :
    spriteColorAt d spr m x =
      if spriteIndexAt d m x spr = 0 then none else some (d.palette.rgb32 (spriteIndexAt d m x spr).toNat) := by
  unfold spriteColorAt spriteReaches spriteOnLine spriteIndexAt spriteColor
  rw [hself, if_neg hpair]
  simp only [Bool.not_false, Bool.true_and]
  generalize hpix : deniseSpritePixel d.sprites spr (UInt16.ofNat (x / m.spriteHscale)) = pix
  cases spriteBandHas (d.sprites.sp spr) d.output.beamVpos with
  | false => rfl
  | true =>
    simp only [Bool.true_and, if_true, decide_eq_true_eq]
    by_cases h0 : pix = 0
    · simp only [h0, if_true, ite_self]
    · have hreach : (deniseSpriteHstart (d.sprites.sp spr)).toNat ≤ x / m.spriteHscale ∧
          x / m.spriteHscale < (deniseSpriteHstart (d.sprites.sp spr)).toNat + 16 := by
        refine Decidable.not_not.mp fun hout => h0 ?_
        rw [← hpix]
        exact deniseSpritePixel_out d.sprites spr hplace hout
      have hlt : pix.toNat < 4 := hpix ▸ deniseSpritePixel_lt d.sprites spr _
      have hindex : (16 + UInt8.ofNat (spr / 2 * 4) + pix).toNat = 16 + spr / 2 * 4 + pix.toNat := by
        have h16 : (16 : UInt8).toNat = 16 := rfl
        rw [UInt8.toNat_add, UInt8.toNat_add, UInt8.toNat_ofNat', h16]
        omega
      have hne : ¬ 16 + UInt8.ofNat (spr / 2 * 4) + pix = 0 := by
        intro hzero
        rw [hzero, UInt8.toNat_zero] at hindex
        omega
      have hmask : (16 + spr / 2 * 4 + pix.toNat) &&& 31 = 16 + spr / 2 * 4 + pix.toNat := by
        rw [Nat.and_two_pow_sub_one_eq_mod _ 5]
        omega
      simp only [if_pos hreach, if_neg h0, if_neg hne, hindex, hmask]

theorem spriteColorAt_plain {d : RigelDenise} {m : LineMode} {x spr : Nat} (hspr : spr < 8)
    (hplace : x / m.spriteHscale < deniseMaxScanlinePixels)
    (hplain : ∀ i < 8, deniseSpriteIsAttached d.sprites i = false) :
    spriteColorAt d spr m x =
      if spriteIndexAt d m x spr = 0 then none else some (d.palette.rgb32 (spriteIndexAt d m x spr).toNat) := by
  refine spriteColorAt_single hspr hplace (hplain spr hspr) ?_
  rintro ⟨heven, hattached⟩
  rw [hplain (spr + 1) (by omega)] at hattached
  exact Bool.noConfusion hattached

/-- The colour that an index has on the line where no sprite shows. -/
def fieldColor (d : RigelDenise) (m : LineMode) (index : UInt8) : UInt32 :=
  if m.isEhb then ehbResolveColor index d.palette.rgb32 else d.palette.rgb32 index.toNat

/-- What the sprites find in a column. -/
theorem playfieldLine_cell {d : RigelDenise} (hham : (lineMode d).isHam = false) (p : DenisePixels) {x : Nat}
    (hx : x < deniseMaxScanlinePixels) :
    ((playfieldLine d p).cell x).rgba = fieldColor d (lineMode d) (shownIndex d (lineMode d) x) ∧
      ((playfieldLine d p).cell x).pfColor = shownIndex d (lineMode d) x ∧
      ((playfieldLine d p).cell x).pfPrio = if shownIs2 d (lineMode d) x then (lineMode d).pf2p else (lineMode d).pf1p := by
  have hcell : (playfieldLine d p).cell x = _ := composePlayfields_cell hham p hx
  rw [hcell]
  unfold shownIndex shownIs2
  by_cases hon : playfieldsOn d (lineMode d) = true ∧ (lineMode d).shows x = true
  · rw [if_pos hon, if_pos hon, hon.1, hon.2]
    exact ⟨rfl, rfl, rfl⟩
  · have hoff : (playfieldsOn d (lineMode d) && (lineMode d).shows x) = false := by
      rw [← Bool.not_eq_true, Bool.and_eq_true]
      exact hon
    rw [if_neg hon, if_neg hon, hoff]
    refine ⟨?_, rfl, rfl⟩
    unfold fieldColor
    split <;> rfl

/-- The threshold that the overlay has in the column is BPLCON2's. -/
theorem shownPrio_toNat (d : RigelDenise) (is2 : Bool) :
    (if is2 then (lineMode d).pf2p else (lineMode d).pf1p).toNat =
      (if is2 then (lineBplcon2 d >>> 3) &&& 0x7 else lineBplcon2 d &&& 0x7).toNat := by
  have hnarrow : ∀ v : UInt16, (v &&& 0x7).toUInt8.toNat = (v &&& 0x7).toNat := by
    intro v
    have hlt : (v &&& 0x7).toNat < 8 := and_uint16_lt _ (by decide)
    rw [UInt16.toNat_toUInt8]
    omega
  cases is2 with
  | true => exact hnarrow (lineBplcon2 d >>> 3)
  | false => exact hnarrow (lineBplcon2 d)

/-- **The sprite overlay follows the priority rule.** On a line without HAM and without attached sprites every column has the
colour that the rule gives for what the playfields select there and the sprites' palette indices. -/
theorem spriteOverlay_priority {d : RigelDenise} (hwidth : d.output.scanlineWidth ≠ 0) (hham : (lineMode d).isHam = false)
    (hplain : ∀ i < 8, deniseSpriteIsAttached d.sprites i = false) (p : DenisePixels) {x : Nat}
    (hx : x < deniseMaxScanlinePixels) :
    let r := denisePriorityResolve (shownIndex d (lineMode d) x) (shownIs2 d (lineMode d) x)
      (spriteIndexAt d (lineMode d) x) (lineBplcon2 d)
    (composeLine d p).scanlineRgba x =
      if r.fromSprite then d.palette.rgb32 r.colorIndex.toNat else fieldColor d (lineMode d) r.colorIndex := by
  have hplace : x / (lineMode d).spriteHscale < deniseMaxScanlinePixels := Nat.lt_of_le_of_lt (Nat.div_le_self _ _) hx
  obtain ⟨hrgba, hcolor, hprio⟩ := playfieldLine_cell hham p hx
  have hcolorAt : ∀ {i}, i < 8 → spriteColorAt d i (lineMode d) x = _ := fun hi => spriteColorAt_plain hi hplace hplain
  have hfind : (List.range 8).find? (spriteShows d ((playfieldLine d p).cell x) x) =
      (List.range 8).find? fun i => spriteIndexAt d (lineMode d) x i != 0 && (shownIndex d (lineMode d) x == 0 ||
        decide (i / 2 + (if shownIs2 d (lineMode d) x then (lineBplcon2 d >>> 3) &&& 0x7 else lineBplcon2 d &&& 0x7).toNat
          < 4)) := by
    refine List.find?_congr fun i hi => ?_
    unfold spriteShows spriteInFront
    rw [hcolorAt (List.mem_range.mp hi), hcolor, hprio, shownPrio_toNat]
    by_cases h0 : spriteIndexAt d (lineMode d) x i = 0
    · simp [h0]
    · simp [h0]
  rw [composeLine_eq hwidth]
  simp only
  refine (composeSprites_rgba d (playfieldLine d p) hx).trans ?_
  unfold denisePriorityResolve
  simp only
  rw [hfind]
  cases hwin : (List.range 8).find? fun i => spriteIndexAt d (lineMode d) x i != 0 && (shownIndex d (lineMode d) x == 0 ||
      decide (i / 2 + (if shownIs2 d (lineMode d) x then (lineBplcon2 d >>> 3) &&& 0x7 else lineBplcon2 d &&& 0x7).toNat
        < 4)) with
  | none => exact hrgba
  | some i =>
    have hi : i < 8 := List.mem_range.mp (List.mem_of_find?_eq_some hwin)
    have hopaque := List.find?_some hwin
    have hne : ¬ spriteIndexAt d (lineMode d) x i = 0 := by
      intro h0
      simp [h0] at hopaque
    simp only [Option.map_some, Option.getD_some, if_true]
    rw [hcolorAt hi, if_neg hne]
    rfl

/-- The striped line with sprite 0 on it, eight pixels wide from column 130. -/
def overlaidLine : RigelDenise :=
  { stripedLine with
    output := { stripedLine.output with beamVpos := 60 }
    palette := ⟨fun i => if i = 17 then 0xFF0000 else stripedLine.palette.rgb32 i, stripedLine.palette.rgb565⟩
    sprites := ⟨fun i => if i = 0 then ⟨0x3241, 0x4600, 0xFF00, 0x0000, true, false⟩ else deniseSpritesReset.sp i, 0, 0⟩ }

/-- The sprite is in front of the stripes. -/
theorem overlaidLine_pixels :
    (composeLine overlaidLine .cleared).scanlineRgba 131 = 0xFF0000 ∧
      (composeLine overlaidLine .cleared).scanlineRgba 139 = 0xFFFFFF := by
  have hrule := fun {x} => @spriteOverlay_priority overlaidLine (by decide) (by decide) (by decide) .cleared x
  rw [hrule (by decide), hrule (by decide)]
  decide +kernel

end Rigel
