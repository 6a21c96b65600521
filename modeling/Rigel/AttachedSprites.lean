import Rigel.HamLine
import Rigel.SpriteOverlay

/-!
# AttachedSprites — pairs of sprites over any playfield

Two channels whose odd one is attached make one sprite of fifteen colours, drawn where the even channel stands. The
overlay draws it in the even channel's turn and passes over the odd one. So a pair follows the priority rule as a single
sprite with the even channel's number, over HAM as over any other playfield.
-/

namespace Rigel

/-! ## The rule, for any line -/

/-- **The overlay is the priority rule** wherever each channel's colour is that of a palette index, 0 for none. -/
theorem composeSprites_rule {d : RigelDenise} (l : LinePixels) {x : Nat} (hx : x < deniseMaxScanlinePixels)
    {index : Nat → UInt8} (hindex : ∀ i < 8, spriteColorAt d i (lineMode d) x =
      if index i = 0 then none else some (d.palette.rgb32 (index i).toNat)) {is2 : Bool}
    (hprio : (l.cell x).pfPrio = if is2 then (lineMode d).pf2p else (lineMode d).pf1p) :
    let r := denisePriorityResolve (l.cell x).pfColor is2 index (lineBplcon2 d)
    (composeSprites d (lineMode d) l).rgba x = if r.fromSprite then d.palette.rgb32 r.colorIndex.toNat else l.rgba x := by
  have hfind : (List.range 8).find? (spriteShows d (l.cell x) x) =
      (List.range 8).find? fun i => index i != 0 && ((l.cell x).pfColor == 0 ||
        decide (i / 2 + (if is2 then (lineBplcon2 d >>> 3) &&& 0x7 else lineBplcon2 d &&& 0x7).toNat < 4)) := by
    refine List.find?_congr fun i hi => ?_
    unfold spriteShows spriteInFront
    rw [hindex i (List.mem_range.mp hi), hprio, shownPrio_toNat]
    by_cases h0 : index i = 0
    · simp [h0]
    · simp [h0]
  intro r
  rw [composeSprites_rgba d l hx, hfind]
  have hr : r = denisePriorityResolve (l.cell x).pfColor is2 index (lineBplcon2 d) := rfl
  unfold denisePriorityResolve at hr
  simp only at hr
  rw [hr]
  cases hwin : (List.range 8).find? fun i => index i != 0 && ((l.cell x).pfColor == 0 ||
      decide (i / 2 + (if is2 then (lineBplcon2 d >>> 3) &&& 0x7 else lineBplcon2 d &&& 0x7).toNat < 4)) with
  | none => rfl
  | some i =>
    have hi : i < 8 := List.mem_range.mp (List.mem_of_find?_eq_some hwin)
    have hopaque := List.find?_some hwin
    have hne : ¬ index i = 0 := by
      intro h0
      simp [h0] at hopaque
    simp only [Option.map_some, Option.getD_some, if_true]
    rw [hindex i hi, if_neg hne]
    rfl

/-! ## Pairs -/

/-- The odd channel of the pair is attached to this one. -/
def drawsPair (s : DeniseSpritesState) (spr : Nat) : Bool := spr % 2 == 0 && deniseSpriteIsAttached s (spr + 1)

/-- A channel's palette index in the column. An attached odd channel has none of its own. A pair has two bits of each
channel, the odd one's on top, in the lines and the sixteen columns of the even one. -/
def pairIndexAt (d : RigelDenise) (m : LineMode) (x spr : Nat) : UInt8 :=
  if deniseSpriteIsAttached d.sprites spr then 0
  else if drawsPair d.sprites spr then
    let lo := deniseSpritePixel d.sprites spr (UInt16.ofNat (x / m.spriteHscale))
    let hi := deniseSpritePixel d.sprites (spr + 1) (UInt16.ofNat (x / m.spriteHscale))
    if spriteReaches d spr m x ∧ (lo ≠ 0 ∨ hi ≠ 0) then 16 + 4 * hi + lo else 0
  else spriteIndexAt d m x spr

theorem pairBits : ∀ lo hi : Fin 4, (16 : UInt8) + ((UInt8.ofNat hi.val <<< 2) ||| UInt8.ofNat lo.val) =
    16 + 4 * UInt8.ofNat hi.val + UInt8.ofNat lo.val ∧ 16 + 4 * UInt8.ofNat hi.val + UInt8.ofNat lo.val ≠ 0 := by
  decide

theorem pairIndex_eq {lo hi : UInt8} (hlo : lo.toNat < 4) (hhi : hi.toNat < 4) :
    (16 : UInt8) + ((hi <<< 2) ||| lo) = 16 + 4 * hi + lo ∧ 16 + 4 * hi + lo ≠ 0 := by
  have hbits := pairBits ⟨lo.toNat, hlo⟩ ⟨hi.toNat, hhi⟩
  rwa [UInt8.ofNat_toNat, UInt8.ofNat_toNat] at hbits

theorem spriteColorAt_pair {d : RigelDenise} {m : LineMode} {x spr : Nat} (hspr : spr < 8)
    (hplace : x / m.spriteHscale < deniseMaxScanlinePixels) :
    spriteColorAt d spr m x =
      if pairIndexAt d m x spr = 0 then none else some (d.palette.rgb32 (pairIndexAt d m x spr).toNat) := by
  unfold pairIndexAt
  cases hself : deniseSpriteIsAttached d.sprites spr with
  | true =>
    have hoff : spriteReaches d spr m x = false := by
      unfold spriteReaches spriteOnLine
      rw [hself]
      rfl
    unfold spriteColorAt
    rw [hoff]
    rfl
  | false =>
    cases hdraws : drawsPair d.sprites spr with
    | false =>
      refine spriteColorAt_single hspr hplace hself fun hpair => ?_
      have htrue : drawsPair d.sprites spr = true := by
        unfold drawsPair
        rw [hpair.1, hpair.2]
        rfl
      rw [htrue] at hdraws
      cases hdraws
    | true =>
      have hpair := hdraws
      unfold drawsPair at hpair
      rw [Bool.and_eq_true, beq_iff_eq] at hpair
      have hodd : ¬ (spr ≥ deniseSpriteCount - 1 ∨ spr % 2 = 1) := by
        unfold deniseSpriteCount
        omega
      have hlo := deniseSpritePixel_lt d.sprites spr (UInt16.ofNat (x / m.spriteHscale))
      have hhi := deniseSpritePixel_lt d.sprites (spr + 1) (UInt16.ofNat (x / m.spriteHscale))
      unfold spriteColorAt spriteColor deniseSpriteAttachedPixel
      rw [if_pos hpair, if_neg hodd]
      simp only [Bool.false_eq_true, if_false, if_true]
      generalize deniseSpritePixel d.sprites spr (UInt16.ofNat (x / m.spriteHscale)) = lo at hlo
      generalize deniseSpritePixel d.sprites (spr + 1) (UInt16.ofNat (x / m.spriteHscale)) = hi at hhi
      obtain ⟨hindex, hne⟩ := pairIndex_eq hlo hhi
      rw [hindex]
      by_cases hreach : spriteReaches d spr m x = true
      · by_cases hclear : lo = 0 ∧ hi = 0
        · have hnot : ¬ (lo ≠ 0 ∨ hi ≠ 0) := by
            rw [not_or, not_not, not_not]
            exact hclear
          simp [hreach, hclear]
        · have hsome : lo ≠ 0 ∨ hi ≠ 0 := by
            rw [← not_and_or]
            exact hclear
          simp only [hreach, hclear, hsome, hne, if_true, if_false, and_self]
      · simp [hreach]

/-! ## Any line -/

/-- What the playfields hold against the sprites in a column: a palette index, any opaque value over HAM, or 0. -/
def underIndex (d : RigelDenise) (x : Nat) : UInt8 :=
  if (lineMode d).isHam then (if playfieldsOn d (lineMode d) = true ∧ hamShown d x then 0xFF else 0)
  else shownIndex d (lineMode d) x

/-- The column shows playfield 2. -/
def underIs2 (d : RigelDenise) (x : Nat) : Bool := !(lineMode d).isHam && shownIs2 d (lineMode d) x

theorem underLine_cell (d : RigelDenise) (p : DenisePixels) {x : Nat} (hx : x < deniseMaxScanlinePixels) :
    ((playfieldLine d p).cell x).pfColor = underIndex d x ∧
      ((playfieldLine d p).cell x).pfPrio = if underIs2 d x then (lineMode d).pf2p else (lineMode d).pf1p := by
  unfold underIndex underIs2
  cases hham : (lineMode d).isHam with
  | false => exact (playfieldLine_cell hham p hx).2
  | true =>
    rw [composePlayfields_ham hham p hx]
    split <;> exact ⟨rfl, rfl⟩

/-- **Sprites and pairs over any playfield.** On every line that is composed, HAM or not, each column has the colour that the
priority rule picks for the channels' indices, a pair's being its four bits in the even channel's place; where the rule
picks no sprite, the playfields' own colour stays. -/
theorem overlay_with_pairs {d : RigelDenise} (hwidth : d.output.scanlineWidth ≠ 0) (p : DenisePixels) {x : Nat}
    (hx : x < deniseMaxScanlinePixels) :
    let r := denisePriorityResolve (underIndex d x) (underIs2 d x) (pairIndexAt d (lineMode d) x) (lineBplcon2 d)
    (composeLine d p).scanlineRgba x =
      if r.fromSprite then d.palette.rgb32 r.colorIndex.toNat else (playfieldLine d p).rgba x := by
  have hplace : x / (lineMode d).spriteHscale < deniseMaxScanlinePixels := Nat.lt_of_le_of_lt (Nat.div_le_self _ _) hx
  obtain ⟨hcolor, hprio⟩ := underLine_cell d p hx
  rw [composeLine_eq hwidth, ← hcolor]
  exact composeSprites_rule (playfieldLine d p) hx (fun i hi => spriteColorAt_pair hi hplace) hprio

/-- The ramp with a pair on it, in front of the playfield by its priority of three and the pair's number of 0. -/
def pairedLine : RigelDenise :=
  { rampLine with
    output := { rampLine.output with beamVpos := 60 }
    palette := ⟨fun i => if i = 27 then 0x00FF00 else rampLine.palette.rgb32 i, fun _ => 0⟩
    sprites := ⟨fun i =>
      if i = 0 then ⟨0x3250, 0x4600, 0xFFFF, 0xFFFF, true, false⟩
      else if i = 1 then ⟨0x3254, 0x4680, 0x0000, 0xFFFF, true, true⟩
      else deniseSpritesReset.sp i, 0, 0x02⟩ }

/-- The odd channel begins eight columns after the even one and ends with it: the pair is colour 27 where both stand. -/
theorem pairedLine_pixels : (composeLine pairedLine .cleared).scanlineRgba 170 = 0x00FF00 ∧
    (composeLine pairedLine .cleared).scanlineRgba 180 = (playfieldLine pairedLine .cleared).rgba 180 := by
  have hrule := fun {x} => @overlay_with_pairs pairedLine (by decide) .cleared x
  rw [hrule (by decide), hrule (by decide)]
  decide +kernel

end Rigel
