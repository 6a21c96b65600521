import Mathlib.Data.List.Nodup
import Rigel.PixelFormats
import Rigel.Scatter

/-!
# Playfields — every pixel of a line by itself

`compose_line` paints the playfields in three ways: a line whose two fields scroll alike word by word, one whose fields
scroll apart pixel by pixel, and a dual playfield word by word with both fields at once. Here a pixel has a definition of
its own: plane `p` gives it one bit of one fetched word, and the bits make up its index. The three ways paint that.
-/

namespace Rigel

/-! ## The index of a pixel -/

/-- Where plane `p`'s first word begins on the line. -/
def LineMode.planeStart (m : LineMode) (p : Nat) : Nat :=
  m.ddf0 + (if p % 2 = 0 then m.scrollPf1 else m.scrollPf2) * m.hscale

/-- Plane `p`'s bit at column `x`, clear outside the fetched words. -/
def planeBit (o : DeniseOutputState) (m : LineMode) (p x : Nat) : Bool :=
  let src := x - m.planeStart p
  m.planeStart p ≤ x && src < o.planeWordCount.toNat * 16 && (o.planeWords p (src / 16)).toNat.testBit (15 - src % 16)

/-- **The index of a pixel**: bit `p` from plane `p`. -/
def pixelIndex (o : DeniseOutputState) (m : LineMode) (x : Nat) : UInt8 :=
  UInt8.ofNat (Nat.ofBits fun p : Fin (min m.depth 6) => planeBit o m p x)

theorem pixelIndex_testBit (o : DeniseOutputState) (m : LineMode) (x i : Nat) :
    (pixelIndex o m x).toNat.testBit i = (decide (i < min m.depth 6) && planeBit o m i x) := by
  have hlt : Nat.ofBits (fun p : Fin (min m.depth 6) => planeBit o m p x) < 2 ^ 8 :=
    Nat.lt_of_lt_of_le (Nat.ofBits_lt_two_pow _) (Nat.pow_le_pow_right (by decide) (by omega))
  unfold pixelIndex
  rw [UInt8.toNat_ofNat', Nat.mod_eq_of_lt hlt]
  by_cases hi : i < min m.depth 6
  · rw [Nat.testBit_ofBits_lt _ i hi, decide_eq_true hi, Bool.true_and]
  · rw [Nat.testBit_ofBits_ge _ i (Nat.not_lt.mp hi), decide_eq_false hi, Bool.false_and]

/-- A single bit of a byte. -/
theorem bit_testBit : ∀ p < 6, ∀ i < 8, (((1 : UInt16) <<< UInt16.ofNat p).toUInt8).toNat.testBit i = decide (i = p) := by
  decide

theorem bit8_testBit : ∀ p < 8, ∀ i < 8, ((1 : UInt8) <<< UInt8.ofNat p).toNat.testBit i = decide (i = p) := by
  decide

/-- Bits that are gathered one after another, one a place. -/
theorem gather_testBit {f : Nat → UInt8} {b : Nat → Bool} {i : Nat} (hi : i < 8)
    (hf : ∀ p < 6, (f p).toNat.testBit i = (decide (i = p) && b p)) :
    ∀ n ≤ 6, ((List.range n).foldl (fun index p => index ||| f p) 0).toNat.testBit i = (decide (i < n) && b i)
  | 0, _ => by simp
  | n + 1, hn => by
    rw [List.range_succ, List.foldl_append, List.foldl_cons, List.foldl_nil, UInt8.toNat_or, Nat.testBit_or,
      gather_testBit hi hf n (Nat.le_of_succ_le hn), hf n hn]
    by_cases hin : i = n
    · subst hin
      simp
    · have hlt : i < n + 1 ↔ i < n := by omega
      simp [hin, hlt]

/-- A pixel of sixteen takes bit `15 - px` of each plane. -/
theorem planarToChunky_testBit (planeWords : Nat → UInt16) (numPlanes : Nat) {px i : Nat} (hpx : px < 16) (hi : i < 8) :
    (planarToChunky planeWords numPlanes px).toNat.testBit i =
      (decide (i < min numPlanes 6) && (planeWords i).toNat.testBit (15 - px)) := by
  unfold planarToChunky
  refine gather_testBit (b := fun p => (planeWords p).toNat.testBit (15 - px)) hi (fun p hp => ?_) (min numPlanes 6) (Nat.min_le_right _ _)
  rw [uint16_shiftedBit _ (by omega : 15 - px < 16)]
  split
  · rename_i hbit
    rw [bit_testBit p hp i hi, hbit, Bool.and_true]
  · rename_i hbit
    rw [Bool.not_eq_true] at hbit
    simp [hbit]

theorem fetchedPixels_eq (o : DeniseOutputState) (depth : Nat) :
    fetchedPixels o depth = (List.range (o.planeWordCount.toNat * 16)).map fun i =>
      (i, planarToChunky (fun p => if p < depth then o.planeWords p (i / 16) else 0) depth (i % 16)) := by
  unfold fetchedPixels
  generalize o.planeWordCount.toNat = count
  induction count with
  | zero => rfl
  | succ n ih =>
    rw [List.range_succ (n := n), List.flatMap_append, ih, Nat.succ_mul, List.range_add, List.map_append, List.flatMap_singleton,
      List.map_map]
    congr 1
    refine List.map_congr_left fun px hpx => ?_
    have hlt := List.mem_range.mp hpx
    have hdiv : (n * 16 + px) / 16 = n := by omega
    have hmod : (n * 16 + px) % 16 = px := by omega
    simp only [Function.comp_apply, hdiv, hmod]

/-- The index that the word painters have at offset `i` from the first fetched pixel. -/
def fetchedIndex (o : DeniseOutputState) (depth i : Nat) : UInt8 :=
  planarToChunky (fun p => if p < depth then o.planeWords p (i / 16) else 0) depth (i % 16)

theorem fetchedIndex_testBit (o : DeniseOutputState) (depth : Nat) {offset i : Nat} (hi : i < 8) :
    (fetchedIndex o depth offset).toNat.testBit i =
      (decide (i < min depth 6) && (o.planeWords i (offset / 16)).toNat.testBit (15 - offset % 16)) := by
  unfold fetchedIndex
  rw [planarToChunky_testBit _ _ (Nat.mod_lt _ (by decide)) hi]
  by_cases hlt : i < depth
  · rw [if_pos hlt]
  · have hmin : ¬ i < min depth 6 := fun h => hlt (Nat.lt_of_lt_of_le h (Nat.min_le_left _ _))
    rw [decide_eq_false hmin, Bool.false_and, Bool.false_and]

/-- The offset of column `x` in plane `p`'s words, if it has one there. -/
def LineMode.sees (m : LineMode) (o : DeniseOutputState) (p x : Nat) : Bool :=
  m.planeStart p ≤ x && x - m.planeStart p < o.planeWordCount.toNat * 16

theorem planeBit_eq (o : DeniseOutputState) (m : LineMode) (p x : Nat) : planeBit o m p x =
    (m.sees o p x && (o.planeWords p ((x - m.planeStart p) / 16)).toNat.testBit (15 - (x - m.planeStart p) % 16)) := rfl

theorem planeStart_parity (m : LineMode) {p q : Nat} (h : p % 2 = q % 2) : m.planeStart p = m.planeStart q := by
  unfold LineMode.planeStart
  rw [h]

/-- **The gathered index is the pixel's.** -/
theorem splitScrollIndex_eq (o : DeniseOutputState) (m : LineMode) (x : Nat) : splitScrollIndex o m x = pixelIndex o m x := by
  refine uint8_ext fun i hi => ?_
  rw [pixelIndex_testBit]
  have hstep : (fun (ci : UInt8) (p : Nat) =>
      let shift := (if p % 2 = 0 then m.scrollPf1 else m.scrollPf2) * m.hscale + m.ddf0
      if x < shift ∨ o.planeWordCount.toNat * 16 ≤ x - shift then ci
      else
        let src := x - shift
        if (o.planeWords p (src / 16) >>> UInt16.ofNat (15 - src % 16)) &&& 1 ≠ 0 then ci ||| ((1 : UInt8) <<< UInt8.ofNat p)
        else ci) = fun ci p => ci ||| if planeBit o m p x then (1 : UInt8) <<< UInt8.ofNat p else 0 := by
    funext ci p
    have hshift : (if p % 2 = 0 then m.scrollPf1 else m.scrollPf2) * m.hscale + m.ddf0 = m.planeStart p := Nat.add_comm _ _
    simp only [hshift]
    by_cases hsees : m.planeStart p ≤ x ∧ x - m.planeStart p < o.planeWordCount.toNat * 16
    · have hout : ¬ (x < m.planeStart p ∨ o.planeWordCount.toNat * 16 ≤ x - m.planeStart p) := by omega
      have hbit := uint16_bit_ne_zero (o.planeWords p ((x - m.planeStart p) / 16))
        (by omega : 15 - (x - m.planeStart p) % 16 < 16)
      have hplane : planeBit o m p x =
          (o.planeWords p ((x - m.planeStart p) / 16)).toNat.testBit (15 - (x - m.planeStart p) % 16) := by
        rw [planeBit_eq, LineMode.sees, decide_eq_true hsees.1, decide_eq_true hsees.2, Bool.true_and, Bool.true_and]
      rw [if_neg hout, hplane, ← hbit]
      by_cases hw : (o.planeWords p ((x - m.planeStart p) / 16) >>> UInt16.ofNat (15 - (x - m.planeStart p) % 16)) &&& 1 = 0
      · simp [hw]
      · simp [hw]
    · have hout : x < m.planeStart p ∨ o.planeWordCount.toNat * 16 ≤ x - m.planeStart p := by omega
      have hplane : planeBit o m p x = false := by
        rw [planeBit_eq, LineMode.sees, ← Bool.decide_and, decide_eq_false hsees, Bool.false_and]
      rw [if_pos hout, hplane]
      simp
  unfold splitScrollIndex
  rw [hstep]
  refine gather_testBit (b := fun p => planeBit o m p x) hi (fun p hp => ?_) (min m.depth 6) (Nat.min_le_right _ _)
  split
  · rename_i hbit
    rw [bit8_testBit p (by omega) i hi, hbit, Bool.and_true]
  · rename_i hbit
    rw [Bool.not_eq_true] at hbit
    simp [hbit]

/-- The planes of a mask that all begin at one place give the index that the word painters have there. -/
theorem pixelIndex_masked (o : DeniseOutputState) (m : LineMode) (x : Nat) (mask : UInt8) {q : Nat}
    (hmask : ∀ i < 8, mask.toNat.testBit i = true → m.planeStart i = m.planeStart q) :
    pixelIndex o m x &&& mask =
      if m.sees o q x then fetchedIndex o m.depth (x - m.planeStart q) &&& mask else 0 := by
  refine uint8_ext fun i hi => ?_
  rw [UInt8.toNat_and, Nat.testBit_and, pixelIndex_testBit, planeBit_eq]
  by_cases hbit : mask.toNat.testBit i = true
  · have hstart := hmask i hi hbit
    have hsees : m.sees o i x = m.sees o q x := by
      unfold LineMode.sees
      rw [hstart]
    rw [hsees, hstart, hbit, Bool.and_true]
    cases m.sees o q x with
    | true =>
      rw [if_pos rfl, UInt8.toNat_and, Nat.testBit_and, fetchedIndex_testBit o m.depth hi, hbit, Bool.and_true, Bool.true_and]
    | false => simp
  · rw [Bool.not_eq_true] at hbit
    split
    · rw [UInt8.toNat_and, Nat.testBit_and, hbit, Bool.and_false, Bool.and_false]
    · simp [hbit]

/-! ## One column -/

/-- What a line has in one column. Its second format is that of `composePlayfields_agrees`. -/
structure LineCell where
  rgba : UInt32
  pfColor : UInt8
  pfPrio : UInt8
  pfActive : UInt8

def LinePixels.cell (l : LinePixels) (x : Nat) : LineCell := ⟨l.rgba x, l.pfColor x, l.pfPrio x, l.pfActive x⟩

/-- A pixel of a single playfield. -/
def LineCell.single (c : LineCell) (palette : DenisePaletteState) (m : LineMode) (bits : UInt8) : LineCell :=
  let ci := if m.isEhb then bits &&& 0x3F else bits &&& 0x1F
  { c with
    rgba := if m.isEhb then ehbResolveColor ci palette.rgb32 else palette.rgb32 ci.toNat
    pfColor := ci
    pfActive := if ci ≠ 0 then 1 else 0 }

theorem composeSingleColor_cell (palette : DenisePaletteState) (m : LineMode) (l : LinePixels) (x y : Nat) (bits : UInt8) :
    (composeSingleColor palette m l x bits).cell y = if y = x then (l.cell y).single palette m bits else l.cell y := by
  unfold composeSingleColor LinePixels.cell LineCell.single LinePixels.draw LinePixels.field
  by_cases hxy : y = x
  · subst hxy
    cases m.isEhb <;> simp only [Function.update_self, if_true, Bool.false_eq_true, if_false]
  · cases m.isEhb <;> simp only [Function.update_of_ne hxy, if_neg hxy, if_true, Bool.false_eq_true, if_false]

/-- An opaque pixel of one field of a dual playfield. -/
def LineCell.fieldPixel (c : LineCell) (palette : DenisePaletteState) (index prio own other : UInt8) (above : Bool) :
    LineCell :=
  let drawn :=
    if c.pfActive = 0 ∨ (c.pfActive &&& other ≠ 0 ∧ above) then
      { c with rgba := palette.rgb32 index.toNat, pfColor := index, pfPrio := prio }
    else c
  { drawn with pfActive := c.pfActive ||| own }

theorem composeFieldPixel_cell (palette : DenisePaletteState) (m : LineMode) (l : LinePixels) (x y : Nat)
    (index prio own other : UInt8) (above : Bool) :
    (composeFieldPixel palette m l x index prio own other above).cell y =
      if y = x ∧ index ≠ 0 ∧ m.shows x then (l.cell y).fieldPixel palette index prio own other above else l.cell y := by
  unfold composeFieldPixel LinePixels.cell LineCell.fieldPixel LinePixels.draw
  by_cases hdraw : index ≠ 0 ∧ m.shows x = true
  · by_cases hxy : y = x
    · subst hxy
      by_cases hover : l.pfActive y = 0 ∨ (l.pfActive y &&& other ≠ 0 ∧ above = true)
      · simp only [true_and, if_pos hdraw, if_pos hover, Function.update_self]
      · simp only [true_and, if_pos hdraw, if_neg hover, Function.update_self]
    · have hnot : ¬ (y = x ∧ index ≠ 0 ∧ m.shows x = true) := fun h => hxy h.1
      by_cases hover : l.pfActive x = 0 ∨ (l.pfActive x &&& other ≠ 0 ∧ above = true)
      · simp only [if_pos hdraw, if_neg hnot, if_pos hover, Function.update_of_ne hxy]
      · simp only [if_pos hdraw, if_neg hnot, if_neg hover, Function.update_of_ne hxy]
  · have hnot : ¬ (y = x ∧ index ≠ 0 ∧ m.shows x = true) := fun h => hdraw h.2
    simp only [if_neg hdraw, if_neg hnot]

/-- The line before the playfields. -/
def blankLine (d : RigelDenise) (p : DenisePixels) : LinePixels where
  rgba := fillScanline p.scanlineRgba (d.palette.rgb32 0)
  rgb565 := fillScanline p.scanlineRgb565 (d.palette.rgb565 0)
  pfColor := fun _ => 0
  pfPrio := fun _ => (lineMode d).pf1p
  pfActive := fun _ => 0

/-- The scanline is the sprite overlay over the playfields of a blank line. -/
theorem composeLine_eq {d : RigelDenise} (h : d.output.scanlineWidth ≠ 0) (p : DenisePixels) :
    composeLine d p =
      { p with
        scanlineRgba := (composeSprites d (lineMode d) (composePlayfields d (lineMode d) (blankLine d p))).rgba
        scanlineRgb565 := (composeSprites d (lineMode d) (composePlayfields d (lineMode d) (blankLine d p))).rgb565 } := by
  unfold composeLine
  rw [if_neg h]
  rfl

/-- Colour 0, and no playfield. -/
def blankCell (d : RigelDenise) : LineCell := ⟨d.palette.rgb32 0, 0, (lineMode d).pf1p, 0⟩

theorem blankLine_cell (d : RigelDenise) (p : DenisePixels) {x : Nat} (hx : x < deniseMaxScanlinePixels) :
    (blankLine d p).cell x = blankCell d := by
  unfold LinePixels.cell blankLine blankCell fillScanline
  simp only [if_pos hx]

/-! ## What a column is to show -/

/-- BPLCON2 as the line was begun with it. -/
def lineBplcon2 (d : RigelDenise) : UInt16 := if d.output.lineBplconValid then d.output.lineBplcon2 else d.regs.bplcon2

/-- `dualpf_priority_resolve`: BPLCON2's bit 6 puts playfield 2 in front. -/
def dualpfPriorityResolve (pf : UInt8 × UInt8) (bplcon2 : UInt16) : UInt8 :=
  if pf.2 ≠ 0 ∧ pf.1 ≠ 0 then (if bplcon2 &&& 0x0040 ≠ 0 then pf.2 else pf.1)
  else if pf.2 ≠ 0 then pf.2
  else if pf.1 ≠ 0 then pf.1
  else 0

/-- The palette index that the playfields select. -/
def playfieldIndex (d : RigelDenise) (m : LineMode) (x : Nat) : UInt8 :=
  let ci := pixelIndex d.output m x
  if m.isDual then dualpfPriorityResolve (dualpfDecode ci) (lineBplcon2 d)
  else if m.isEhb then ci
  else ci &&& 0x1F

/-- **The colour of a pixel**: half-bright where EHB says so, else from the palette. -/
def playfieldColor (d : RigelDenise) (m : LineMode) (x : Nat) : UInt32 :=
  if m.isEhb then ehbResolveColor (playfieldIndex d m x) d.palette.rgb32
  else d.palette.rgb32 (playfieldIndex d m x).toNat

/-- The pixel is of playfield 2. -/
def playfieldIs2 (d : RigelDenise) (m : LineMode) (x : Nat) : Bool :=
  let pf := dualpfDecode (pixelIndex d.output m x)
  m.isDual && pf.2 != 0 && (m.pf2OverPf1 || pf.1 == 0)

/-- Which playfields are opaque there, bit 0 for the first. -/
def playfieldActive (d : RigelDenise) (m : LineMode) (x : Nat) : UInt8 :=
  if m.isDual then
    let pf := dualpfDecode (pixelIndex d.output m x)
    (if pf.1 ≠ 0 then 1 else 0) ||| (if pf.2 ≠ 0 then 2 else 0)
  else if playfieldIndex d m x ≠ 0 then 1
  else 0

def playfieldCell (d : RigelDenise) (m : LineMode) (x : Nat) : LineCell where
  rgba := playfieldColor d m x
  pfColor := playfieldIndex d m x
  pfPrio := if playfieldIs2 d m x then m.pf2p else m.pf1p
  pfActive := playfieldActive d m x

/-- The line has playfields. -/
def playfieldsOn (d : RigelDenise) (m : LineMode) : Bool := d.output.visibleScanline && decide (0 < m.depth ∧ m.depth ≤ 6)

/-- Six planes make no index above 63. -/
theorem pixelIndex_and_63 (o : DeniseOutputState) (m : LineMode) (x : Nat) : pixelIndex o m x &&& 0x3F = pixelIndex o m x := by
  refine uint8_ext fun i hi => ?_
  have h63 : ∀ i < 8, (0x3F : UInt8).toNat.testBit i = decide (i < 6) := by decide
  rw [UInt8.toNat_and, Nat.testBit_and, pixelIndex_testBit, h63 i hi]
  by_cases h6 : i < 6
  · rw [decide_eq_true h6, Bool.and_true]
  · have hmin : ¬ i < min m.depth 6 := fun h => h6 (Nat.lt_of_lt_of_le h (Nat.min_le_right _ _))
    rw [decide_eq_false h6, decide_eq_false hmin, Bool.and_false, Bool.false_and]

/-- No plane has a bit there. -/
theorem pixelIndex_unseen {o : DeniseOutputState} {m : LineMode} {x : Nat} (h : ∀ p, m.sees o p x = false) :
    pixelIndex o m x = 0 := by
  refine uint8_ext fun i hi => ?_
  rw [pixelIndex_testBit, planeBit_eq, h i, Bool.false_and, Bool.and_false, UInt8.toNat_zero, Nat.zero_testBit]

theorem sees_unfetched {o : DeniseOutputState} {m : LineMode} {p x : Nat} (h : ¬ 0 < o.planeWordCount) :
    m.sees o p x = false := by
  have h0 : o.planeWordCount.toNat = 0 := by
    have hle := UInt16.le_iff_toNat_le.mp (UInt16.not_lt.mp h)
    rw [UInt16.toNat_zero] at hle
    omega
  unfold LineMode.sees
  simp [h0]

/-! ## Single playfields -/

/-- On the single playfield's line, the pixel's cell is the blank one painted with its index. -/
theorem playfieldCell_single {d : RigelDenise} {m : LineMode} (hm : m = lineMode d) (hdual : m.isDual = false) (x : Nat) :
    (blankCell d).single d.palette m (pixelIndex d.output m x) = playfieldCell d m x := by
  subst hm
  unfold LineCell.single playfieldCell playfieldColor playfieldActive playfieldIs2 playfieldIndex blankCell
  simp only [hdual, pixelIndex_and_63, Bool.false_and, Bool.false_eq_true, if_false]

/-- What the word painter does to column `x` with the pixel at offset `i`. -/
def wordPaint (palette : DenisePaletteState) (o : DeniseOutputState) (m : LineMode) (x : Nat) (c : LineCell) (i : Nat) :
    LineCell :=
  if x = m.ddf0 + i + m.scrollPf1 * m.hscale ∧ m.shows x then c.single palette m (fetchedIndex o m.depth i) else c

theorem composeSinglePixel_cell (palette : DenisePaletteState) (o : DeniseOutputState) (m : LineMode) (l : LinePixels)
    (x i : Nat) :
    (composeSinglePixel palette m l (i, fetchedIndex o m.depth i)).cell x = wordPaint palette o m x (l.cell x) i := by
  unfold composeSinglePixel wordPaint
  simp only
  by_cases hx : x = m.ddf0 + i + m.scrollPf1 * m.hscale
  · rw [← hx]
    by_cases hshows : m.shows x = true
    · simp only [hshows, if_true, and_self]
      rw [composeSingleColor_cell, if_pos rfl]
    · simp only [hshows, Bool.false_eq_true, if_false, and_false]
  · have hnot : ¬ (x = m.ddf0 + i + m.scrollPf1 * m.hscale ∧ m.shows x = true) := fun h => hx h.1
    simp only [if_neg hnot]
    split
    · rw [composeSingleColor_cell, if_neg hx]
    · rfl

/-- **The word painter.** A column gets the index at its own offset. -/
theorem composeWords_cell (palette : DenisePaletteState) (o : DeniseOutputState) (m : LineMode) (l : LinePixels) (x : Nat) :
    ((fetchedPixels o m.depth).foldl (composeSinglePixel palette m) l).cell x =
      if m.sees o 0 x ∧ m.shows x then (l.cell x).single palette m (fetchedIndex o m.depth (x - m.planeStart 0))
      else l.cell x := by
  have hstart : m.planeStart 0 = m.ddf0 + m.scrollPf1 * m.hscale := rfl
  have hview : ((fetchedPixels o m.depth).foldl (composeSinglePixel palette m) l).cell x =
      (List.range (o.planeWordCount.toNat * 16)).foldl (wordPaint palette o m x) (l.cell x) := by
    rw [fetchedPixels_eq, List.foldl_map]
    exact foldl_view (v := fun l : LinePixels => l.cell x) (fun l i => composeSinglePixel_cell palette o m l x i) _ l
  have hother : ∀ i ∈ List.range (o.planeWordCount.toNat * 16), i ≠ x - m.planeStart 0 →
      ∀ c, wordPaint palette o m x c i = c := by
    intro i _ hne c
    exact if_neg fun h => hne (by omega)
  rw [hview, foldl_reached_once _ _ _ List.nodup_range hother]
  unfold LineMode.sees wordPaint
  simp only [List.mem_range, Bool.and_eq_true, decide_eq_true_eq]
  by_cases hle : m.planeStart 0 ≤ x
  · have hat : x = m.ddf0 + (x - m.planeStart 0) + m.scrollPf1 * m.hscale := by omega
    simp only [← hat, true_and, hle]
    by_cases hlt : x - m.planeStart 0 < o.planeWordCount.toNat * 16
    · simp only [hlt, true_and, if_true]
    · simp only [hlt, false_and, if_false]
  · have hnot : ¬ x = m.ddf0 + (x - m.planeStart 0) + m.scrollPf1 * m.hscale := by omega
    simp only [hnot, hle, false_and, if_false, ite_self]

/-- What the pixel painter does to column `x` when it is at column `y`. -/
def columnPaint (palette : DenisePaletteState) (o : DeniseOutputState) (m : LineMode) (x : Nat) (c : LineCell) (y : Nat) :
    LineCell :=
  if x = y then c.single palette m (pixelIndex o m y) else c

/-- **The pixel painter.** -/
theorem composeSplitScroll_cell (palette : DenisePaletteState) (o : DeniseOutputState) (m : LineMode) (l : LinePixels)
    (x : Nat) :
    (composeSplitScroll palette o m l).cell x =
      if (m.ddf0 ≤ x ∧ x < m.ddf0 + o.planeWordCount.toNat * 16 + 15 * m.hscale) ∧ m.shows x then
        (l.cell x).single palette m (pixelIndex o m x)
      else l.cell x := by
  have hstep : ∀ (l : LinePixels) (y : Nat), (composeSingleColor palette m l y (splitScrollIndex o m y)).cell x =
      columnPaint palette o m x (l.cell x) y := by
    intro l y
    rw [composeSingleColor_cell, splitScrollIndex_eq]
    rfl
  have hother : ∀ y, y ≠ x → ∀ c, columnPaint palette o m x c y = c := fun y hne c => if_neg fun h => hne h.symm
  have hhere : columnPaint palette o m x (l.cell x) x = (l.cell x).single palette m (pixelIndex o m x) := if_pos rfl
  unfold composeSplitScroll
  simp only
  rw [foldl_view (v := fun l : LinePixels => l.cell x) hstep,
    foldl_reached_once x _ _ (List.nodup_range' ..) fun y _ => hother y, hhere]
  refine if_congr ?_ rfl rfl
  unfold LineMode.shows
  simp only [List.mem_range'_1, Bool.and_eq_true, decide_eq_true_eq]
  omega

/-! ## Dual playfields -/

/-- One field's pixel of the one at offset `i`, the second field's where `e.1` is set. -/
def composeFieldEvent (palette : DenisePaletteState) (o : DeniseOutputState) (m : LineMode) (l : LinePixels) (e : Bool × Nat) :
    LinePixels :=
  let dpf := dualpfDecode (fetchedIndex o m.depth e.2)
  match e.1 with
  | false =>
    composeFieldPixel palette m l (m.ddf0 + e.2 + m.scrollPf1 * m.hscale) dpf.1 m.pf1p 1 2 (!m.pf2OverPf1)
  | true => composeFieldPixel palette m l (m.ddf0 + e.2 + m.scrollPf2 * m.hscale) dpf.2 m.pf2p 2 1 m.pf2OverPf1

/-- The fields' pixels in the order of the source: both of an offset, one offset after another. -/
def fieldEvents (n : Nat) : List (Bool × Nat) := (List.range n).flatMap fun i => [(false, i), (true, i)]

theorem mem_fieldEvents (n : Nat) (e : Bool × Nat) : e ∈ fieldEvents n ↔ e.2 < n := by
  obtain ⟨field, i⟩ := e
  unfold fieldEvents
  cases field <;> simp

theorem fieldEvents_nodup (n : Nat) : (fieldEvents n).Nodup := by
  unfold fieldEvents
  refine List.nodup_flatMap.mpr ⟨fun i _ => by simp, ?_⟩
  refine List.Pairwise.imp (fun {i j} hij => ?_) (List.nodup_range (n := n))
  simp only [Function.onFun, List.disjoint_left, List.mem_cons, List.not_mem_nil, or_false]
  rintro e (rfl | rfl) <;> simp [hij]

/-- The dual playfield's line, event by event. -/
theorem composeDual_events (palette : DenisePaletteState) (o : DeniseOutputState) (m : LineMode) (l : LinePixels) :
    (fetchedPixels o m.depth).foldl (composeDualPixel palette m) l =
      (fieldEvents (o.planeWordCount.toNat * 16)).foldl (composeFieldEvent palette o m) l := by
  unfold fieldEvents
  rw [fetchedPixels_eq, List.foldl_map, List.foldl_flatMap]
  rfl

/-- The plane of a field that stands for its scroll. -/
def fieldPlane (field : Bool) : Nat := if field then 1 else 0

/-- What a field has at column `x` once its index is known. -/
def LineCell.field (c : LineCell) (palette : DenisePaletteState) (m : LineMode) (field : Bool) (index : UInt8) : LineCell :=
  match field with
  | false => if index ≠ 0 then c.fieldPixel palette index m.pf1p 1 2 (!m.pf2OverPf1) else c
  | true => if index ≠ 0 then c.fieldPixel palette index m.pf2p 2 1 m.pf2OverPf1 else c

/-- The field's own index of the two. -/
def fieldIndex (field : Bool) (pf : UInt8 × UInt8) : UInt8 := if field then pf.2 else pf.1

/-- What an event does to column `x`. -/
def fieldPaint (palette : DenisePaletteState) (o : DeniseOutputState) (m : LineMode) (x : Nat) (c : LineCell)
    (e : Bool × Nat) : LineCell :=
  if x = m.planeStart (fieldPlane e.1) + e.2 ∧ m.shows x then
    c.field palette m e.1 (fieldIndex e.1 (dualpfDecode (fetchedIndex o m.depth e.2)))
  else c

theorem composeFieldEvent_cell (palette : DenisePaletteState) (o : DeniseOutputState) (m : LineMode) (l : LinePixels) (x : Nat)
    (e : Bool × Nat) :
    (composeFieldEvent palette o m l e).cell x = fieldPaint palette o m x (l.cell x) e := by
  obtain ⟨field, i⟩ := e
  have hcond : ∀ {y : Nat} {index : UInt8} {c c' : LineCell},
      (if x = y ∧ index ≠ 0 ∧ m.shows y then c else c') =
        if x = y ∧ m.shows x then (if index ≠ 0 then c else c') else c' := by
    intro y index c c'
    by_cases hxy : x = y
    · subst hxy
      by_cases hindex : index = 0
      · simp [hindex]
      · simp [hindex]
    · simp [hxy]
  unfold composeFieldEvent fieldPaint LineCell.field fieldIndex fieldPlane
  cases field with
  | false =>
    have hstart : m.planeStart 0 + i = m.ddf0 + i + m.scrollPf1 * m.hscale := Nat.add_right_comm _ _ _
    simp only [Bool.false_eq_true, if_false, hstart]
    rw [composeFieldPixel_cell, hcond]
  | true =>
    have hstart : m.planeStart 1 + i = m.ddf0 + i + m.scrollPf2 * m.hscale := Nat.add_right_comm _ _ _
    simp only [if_true, hstart]
    rw [composeFieldPixel_cell, hcond]

/-- The planes of a field. -/
def fieldMask (field : Bool) : UInt8 := if field then 0x2A else 0x15

theorem fieldIndex_masked (field : Bool) (bits : UInt8) :
    fieldIndex field (dualpfDecode bits) = fieldIndex field (dualpfDecode (bits &&& fieldMask field)) := by
  cases field with
  | false =>
    exact uint8_forall (P := fun bits => fieldIndex false (dualpfDecode bits) =
      fieldIndex false (dualpfDecode (bits &&& fieldMask false))) (by decide +kernel) bits
  | true =>
    exact uint8_forall (P := fun bits => fieldIndex true (dualpfDecode bits) =
      fieldIndex true (dualpfDecode (bits &&& fieldMask true))) (by decide +kernel) bits

/-- **A field's index at a column** is the one that its own planes have at its own offset. -/
theorem fieldIndex_pixel (o : DeniseOutputState) (m : LineMode) (field : Bool) (x : Nat) :
    fieldIndex field (dualpfDecode (pixelIndex o m x)) =
      if m.sees o (fieldPlane field) x then
        fieldIndex field (dualpfDecode (fetchedIndex o m.depth (x - m.planeStart (fieldPlane field))))
      else 0 := by
  have hparity : ∀ i < 8, (fieldMask field).toNat.testBit i = true → i % 2 = fieldPlane field % 2 := by
    cases field <;> decide
  have hmask := pixelIndex_masked o m x (fieldMask field) fun i hi hbit => planeStart_parity m (hparity i hi hbit)
  rw [fieldIndex_masked, hmask]
  split
  · rw [← fieldIndex_masked]
  · cases field <;> rfl

theorem LineCell.field_zero (c : LineCell) (palette : DenisePaletteState) (m : LineMode) (field : Bool) :
    c.field palette m field 0 = c := by
  cases field <;> rfl

theorem fieldPaint_own (palette : DenisePaletteState) (o : DeniseOutputState) (m : LineMode) (x : Nat) (c : LineCell)
    (field : Bool) :
    (if (field, x - m.planeStart (fieldPlane field)) ∈ fieldEvents (o.planeWordCount.toNat * 16) then
        fieldPaint palette o m x c (field, x - m.planeStart (fieldPlane field))
      else c) =
      if m.shows x then c.field palette m field (fieldIndex field (dualpfDecode (pixelIndex o m x))) else c := by
  unfold fieldPaint
  rw [fieldIndex_pixel]
  simp only [mem_fieldEvents]
  unfold LineMode.sees
  by_cases hle : m.planeStart (fieldPlane field) ≤ x
  · have hat : x = m.planeStart (fieldPlane field) + (x - m.planeStart (fieldPlane field)) := by omega
    by_cases hlt : x - m.planeStart (fieldPlane field) < o.planeWordCount.toNat * 16
    · simp only [← hat, true_and, hle, hlt, decide_true, Bool.true_and, if_true]
    · simp only [hlt, decide_false, Bool.and_false, Bool.false_eq_true, if_false, LineCell.field_zero, ite_self]
  · have hnot : ¬ x = m.planeStart (fieldPlane field) + (x - m.planeStart (fieldPlane field)) := by omega
    simp only [hnot, hle, false_and, if_false, decide_false, Bool.false_and, Bool.false_eq_true, LineCell.field_zero, ite_self]

/-- **Two fields on an empty column** look the same whichever is painted first. -/
theorem LineCell.field_comm {c : LineCell} (h : c.pfActive = 0) (palette : DenisePaletteState) (m : LineMode)
    (index1 index2 : UInt8) :
    (c.field palette m false index1).field palette m true index2 =
      (c.field palette m true index2).field palette m false index1 := by
  obtain ⟨rgba, color, prio, active⟩ := c
  cases h
  by_cases h1 : index1 = 0
  · rw [h1, LineCell.field_zero, LineCell.field_zero]
  · by_cases h2 : index2 = 0
    · rw [h2, LineCell.field_zero, LineCell.field_zero]
    · have h12 : (1 : UInt8) ||| 2 = 3 := by decide
      have h21 : (2 : UInt8) ||| 1 = 3 := by decide
      unfold LineCell.field LineCell.fieldPixel
      cases m.pf2OverPf1 <;> simp [h1, h2, h12, h21]

/-- What reaches a column in a dual playfield: nothing but its own two events. -/
theorem fieldPaint_other (palette : DenisePaletteState) (o : DeniseOutputState) (m : LineMode) (x : Nat) (e : Bool × Nat)
    (h1 : e ≠ (false, x - m.planeStart (fieldPlane false))) (h2 : e ≠ (true, x - m.planeStart (fieldPlane true)))
    (c : LineCell) : fieldPaint palette o m x c e = c := by
  obtain ⟨field, i⟩ := e
  refine if_neg fun h => ?_
  have hi : i = x - m.planeStart (fieldPlane field) := by
    have hx := h.1
    simp only at hx
    omega
  cases field with
  | false => exact h1 (by rw [hi])
  | true => exact h2 (by rw [hi])

/-- **The dual playfield's painter**, in whatever order the pixels of its fields come. -/
theorem composeFieldEvents_cell (palette : DenisePaletteState) (o : DeniseOutputState) (m : LineMode) {l : LinePixels} {x : Nat}
    (hblank : (l.cell x).pfActive = 0) {es : List (Bool × Nat)}
    (hperm : (fieldEvents (o.planeWordCount.toNat * 16)).Perm es) :
    (es.foldl (composeFieldEvent palette o m) l).cell x =
      if m.shows x then
        ((l.cell x).field palette m false (dualpfDecode (pixelIndex o m x)).1).field palette m true
          (dualpfDecode (pixelIndex o m x)).2
      else l.cell x := by
  have hne : ((false, x - m.planeStart (fieldPlane false)) : Bool × Nat) ≠ (true, x - m.planeStart (fieldPlane true)) :=
    fun h => Bool.noConfusion (Prod.mk.inj h).1
  have hother := fun e (_ : e ∈ es) => fieldPaint_other palette o m x e
  have hnodup := hperm.nodup_iff.mp (fieldEvents_nodup _)
  have hcomm : fieldPaint palette o m x (fieldPaint palette o m x (l.cell x) (false, x - m.planeStart (fieldPlane false)))
      (true, x - m.planeStart (fieldPlane true)) =
      fieldPaint palette o m x (fieldPaint palette o m x (l.cell x) (true, x - m.planeStart (fieldPlane true)))
        (false, x - m.planeStart (fieldPlane false)) := by
    unfold fieldPaint
    simp only
    split
    · split
      · exact LineCell.field_comm hblank palette m _ _
      · rfl
    · rfl
  rw [foldl_view (v := fun l : LinePixels => l.cell x) fun l e => composeFieldEvent_cell palette o m l x e,
    foldl_reached_twice hne es _ hnodup hother hcomm]
  -- first the one field, then the other over what it left
  have hown := fieldPaint_own palette o m x
  simp only [hperm.mem_iff] at hown
  have hfirst := hown (l.cell x) false
  have hsecond := hown (if m.shows x then (l.cell x).field palette m false (dualpfDecode (pixelIndex o m x)).1 else l.cell x) true
  have hshown : (if m.shows x then
      (if m.shows x then (l.cell x).field palette m false (dualpfDecode (pixelIndex o m x)).1 else l.cell x).field palette m
        true (fieldIndex true (dualpfDecode (pixelIndex o m x)))
      else if m.shows x then (l.cell x).field palette m false (dualpfDecode (pixelIndex o m x)).1 else l.cell x) =
      if m.shows x then
        ((l.cell x).field palette m false (dualpfDecode (pixelIndex o m x)).1).field palette m true
          (dualpfDecode (pixelIndex o m x)).2
      else l.cell x := by
    cases m.shows x <;> rfl
  rw [← hshown, ← hsecond]
  have hfirst' : (if m.shows x then (l.cell x).field palette m false (dualpfDecode (pixelIndex o m x)).1 else l.cell x) =
      _ := hfirst.symm
  rw [hfirst']
  by_cases hA : (false, x - m.planeStart (fieldPlane false)) ∈ es
  · by_cases hB : (true, x - m.planeStart (fieldPlane true)) ∈ es
    · simp only [if_pos hA, if_pos hB]
    · simp only [if_pos hA, if_neg hB]
  · by_cases hB : (true, x - m.planeStart (fieldPlane true)) ∈ es
    · simp only [if_neg hA, if_pos hB]
    · simp only [if_neg hA, if_neg hB]

/-- The fields that are painted make up the dual playfield's cell. -/
theorem playfieldCell_dual {d : RigelDenise} {m : LineMode} (hm : m = lineMode d) (hdual : m.isDual = true) (x : Nat) :
    ((blankCell d).field d.palette m false (dualpfDecode (pixelIndex d.output m x)).1).field d.palette m true
      (dualpfDecode (pixelIndex d.output m x)).2 = playfieldCell d m x := by
  have hehb : m.isEhb = false := by
    subst hm
    unfold lineMode at hdual ⊢
    simp only at hdual ⊢
    rw [hdual]
    simp
  have hover : m.pf2OverPf1 = (lineBplcon2 d &&& 0x0040 != 0) := by
    subst hm
    rfl
  have hprio : (lineMode d).pf1p = m.pf1p := by
    subst hm
    rfl
  unfold playfieldCell playfieldColor playfieldActive playfieldIs2 playfieldIndex dualpfPriorityResolve
  simp only [hdual, hehb, if_true, Bool.true_and, Bool.false_eq_true, if_false]
  generalize dualpfDecode (pixelIndex d.output m x) = pf
  obtain ⟨pf1, pf2⟩ := pf
  have hbit : (lineBplcon2 d &&& 0x0040 ≠ 0) ↔ m.pf2OverPf1 = true := by
    rw [hover, bne_iff_ne]
  simp only [hbit]
  unfold LineCell.field LineCell.fieldPixel blankCell
  by_cases h1 : pf1 = 0
  · by_cases h2 : pf2 = 0
    · simp [h1, h2, hprio]
    · simp [h1, h2]
  · by_cases h2 : pf2 = 0
    · simp [h1, h2]
    · cases m.pf2OverPf1 <;> simp [h1, h2]

/-- The blank cell is what index 0 paints. -/
theorem playfieldCell_zero {d : RigelDenise} {m : LineMode} (hm : m = lineMode d) {x : Nat}
    (h : pixelIndex d.output m x = 0) : playfieldCell d m x = blankCell d := by
  cases hdual : m.isDual with
  | true =>
    have hnone : dualpfDecode 0 = (0, 0) := by decide
    rw [← playfieldCell_dual hm hdual, h, hnone, LineCell.field_zero, LineCell.field_zero]
  | false =>
    rw [← playfieldCell_single hm hdual, h]
    unfold LineCell.single blankCell
    cases m.isEhb <;> rfl

/-- Where the two fields scroll alike, the word painter has the pixel's index. -/
theorem pixelIndex_equalScroll (o : DeniseOutputState) {m : LineMode} (h : m.scrollPf1 = m.scrollPf2) (x : Nat) :
    pixelIndex o m x = if m.sees o 0 x then fetchedIndex o m.depth (x - m.planeStart 0) else 0 := by
  have hall : ∀ v : UInt8, v &&& 0xFF = v := fun v =>
    uint8_forall (P := fun v => v &&& 0xFF = v) (by decide +kernel) v
  have hstart : ∀ i, m.planeStart i = m.planeStart 0 := by
    intro i
    unfold LineMode.planeStart
    rw [h]
    simp
  have hmask := pixelIndex_masked o m x 0xFF fun i _ _ => hstart i
  rw [hall, hall] at hmask
  exact hmask

theorem lineMode_scroll (d : RigelDenise) : (lineMode d).scrollPf1 ≤ 15 ∧ (lineMode d).scrollPf2 ≤ 15 := by
  unfold lineMode
  simp only [UInt16.toNat_and]
  exact ⟨Nat.and_le_right, Nat.and_le_right⟩

/-- The pixel painter goes over all columns that a plane has a bit in. -/
theorem sees_span {o : DeniseOutputState} {m : LineMode} (h : m.scrollPf1 ≤ 15 ∧ m.scrollPf2 ≤ 15) {p x : Nat}
    (hsees : m.sees o p x = true) : m.ddf0 ≤ x ∧ x < m.ddf0 + o.planeWordCount.toNat * 16 + 15 * m.hscale := by
  unfold LineMode.sees LineMode.planeStart at hsees
  rw [Bool.and_eq_true, decide_eq_true_eq, decide_eq_true_eq] at hsees
  have hscroll : (if p % 2 = 0 then m.scrollPf1 else m.scrollPf2) * m.hscale ≤ 15 * m.hscale := by
    refine Nat.mul_le_mul_right _ ?_
    split
    · exact h.1
    · exact h.2
  omega

theorem composeSplitScroll_blank {d : RigelDenise} (hdual : (lineMode d).isDual = false) (p : DenisePixels) {x : Nat}
    (hx : x < deniseMaxScanlinePixels) :
    (composeSplitScroll d.palette d.output (lineMode d) (blankLine d p)).cell x =
      if (lineMode d).shows x then playfieldCell d (lineMode d) x else blankCell d := by
  rw [composeSplitScroll_cell, blankLine_cell d p hx, playfieldCell_single rfl hdual]
  by_cases hspan : (lineMode d).ddf0 ≤ x ∧
      x < (lineMode d).ddf0 + d.output.planeWordCount.toNat * 16 + 15 * (lineMode d).hscale
  · simp only [hspan, true_and]
  · have hunseen : ∀ q, (lineMode d).sees d.output q x = false := fun q =>
      Bool.eq_false_iff.mpr fun hsees => hspan (sees_span (lineMode_scroll d) hsees)
    rw [playfieldCell_zero rfl (pixelIndex_unseen hunseen), ite_self, ite_self]

theorem composeFieldEvents_blank {d : RigelDenise} (hdual : (lineMode d).isDual = true) (p : DenisePixels) {x : Nat}
    (hx : x < deniseMaxScanlinePixels) {es : List (Bool × Nat)}
    (hperm : (fieldEvents (d.output.planeWordCount.toNat * 16)).Perm es) :
    (es.foldl (composeFieldEvent d.palette d.output (lineMode d)) (blankLine d p)).cell x =
      if (lineMode d).shows x then playfieldCell d (lineMode d) x else blankCell d := by
  have h0 : ((blankLine d p).cell x).pfActive = 0 := rfl
  rw [composeFieldEvents_cell d.palette d.output (lineMode d) h0 hperm, blankLine_cell d p hx, playfieldCell_dual rfl hdual]

/-- **Every column of a line** without HAM, before the sprites. -/
theorem composePlayfields_cell {d : RigelDenise} (hham : (lineMode d).isHam = false) (p : DenisePixels) {x : Nat}
    (hx : x < deniseMaxScanlinePixels) :
    (composePlayfields d (lineMode d) (blankLine d p)).cell x =
      if playfieldsOn d (lineMode d) ∧ (lineMode d).shows x then playfieldCell d (lineMode d) x else blankCell d := by
  have hblank := blankLine_cell d p hx
  unfold composePlayfields
  simp only
  by_cases hon : playfieldsOn d (lineMode d) = true
  · have hon' := hon
    unfold playfieldsOn at hon'
    rw [Bool.and_eq_true, decide_eq_true_eq] at hon'
    obtain ⟨hvisible, hdepth0, hdepth6⟩ := hon'
    by_cases hcount : 0 < d.output.planeWordCount
    · rw [if_pos ⟨hvisible, hdepth0, hdepth6, hcount⟩, hham, if_neg Bool.false_ne_true]
      simp only [hon, true_and]
      cases hdual : (lineMode d).isDual with
      | true =>
        rw [if_pos rfl, composeDual_events]
        exact composeFieldEvents_blank hdual p hx (List.Perm.refl _)
      | false =>
        rw [if_neg Bool.false_ne_true]
        split
        · rename_i hscroll
          have hindex := pixelIndex_equalScroll d.output hscroll x
          rw [composeWords_cell, hblank]
          cases hsees : (lineMode d).sees d.output 0 x with
          | true =>
            rw [hsees, if_pos rfl] at hindex
            rw [← hindex, playfieldCell_single rfl hdual]
            simp only [true_and]
          | false =>
            rw [hsees, if_neg Bool.false_ne_true] at hindex
            rw [playfieldCell_zero rfl hindex, ite_self]
            simp only [Bool.false_eq_true, false_and, if_false]
        · exact composeSplitScroll_blank hdual p hx
    · rw [if_neg fun h => hcount h.2.2.2, hblank,
        playfieldCell_zero rfl (pixelIndex_unseen fun _ => sees_unfetched hcount), ite_self]
  · have hoff : ¬ (d.output.visibleScanline = true ∧ 0 < (lineMode d).depth ∧ (lineMode d).depth ≤ 6 ∧
        0 < d.output.planeWordCount) := by
      rintro ⟨hvisible, hdepth0, hdepth6, -⟩
      exact hon (by
        unfold playfieldsOn
        rw [hvisible, decide_eq_true ⟨hdepth0, hdepth6⟩]
        rfl)
    rw [if_neg hoff, hblank, if_neg fun h => hon h.1]

/-- A line that Denise composes, with one to six planes and without HAM. -/
structure VisibleLine (d : RigelDenise) : Prop where
  width : d.output.scanlineWidth ≠ 0
  visible : d.output.visibleScanline = true
  depth : 0 < (lineMode d).depth ∧ (lineMode d).depth ≤ 6
  notHam : (lineMode d).isHam = false

/-- The line before the sprites. -/
def playfieldLine (d : RigelDenise) (p : DenisePixels) : LinePixels := composePlayfields d (lineMode d) (blankLine d p)

/-- **Playfield composition.** A visible line is the sprite overlay over its playfields, and these show each column of the
window as the column's own definition has it, and colour 0 outside. Where both fields scroll alike the pixel painter would
paint the same, and a dual playfield looks the same in whatever order the pixels of its fields are painted. -/
theorem playfields_by_pixel {d : RigelDenise} (h : VisibleLine d) (p : DenisePixels) :
    (composeLine d p).scanlineRgba = (composeSprites d (lineMode d) (playfieldLine d p)).rgba ∧
      (∀ x < deniseMaxScanlinePixels, (playfieldLine d p).rgba x =
        if (lineMode d).shows x then playfieldColor d (lineMode d) x else d.palette.rgb32 0) ∧
      ((lineMode d).isDual = false → (lineMode d).scrollPf1 = (lineMode d).scrollPf2 → ∀ x < deniseMaxScanlinePixels,
        (composeSplitScroll d.palette d.output (lineMode d) (blankLine d p)).cell x = (playfieldLine d p).cell x) ∧
      ((lineMode d).isDual = true → ∀ es, (fieldEvents (d.output.planeWordCount.toNat * 16)).Perm es →
        ∀ x < deniseMaxScanlinePixels,
          (es.foldl (composeFieldEvent d.palette d.output (lineMode d)) (blankLine d p)).cell x =
            (playfieldLine d p).cell x) := by
  have hon : playfieldsOn d (lineMode d) = true := by
    unfold playfieldsOn
    rw [h.visible, decide_eq_true h.depth]
    rfl
  have hcell : ∀ x < deniseMaxScanlinePixels, (playfieldLine d p).cell x =
      if (lineMode d).shows x then playfieldCell d (lineMode d) x else blankCell d := by
    intro x hx
    have hx := composePlayfields_cell h.notHam p hx
    simp only [hon, true_and] at hx
    exact hx
  refine ⟨by rw [composeLine_eq h.width]; rfl, fun x hx => ?_, fun hdual _ x hx => ?_, fun hdual es hes x hx => ?_⟩
  · have hrgba := congrArg LineCell.rgba (hcell x hx)
    refine hrgba.trans ?_
    split <;> rfl
  · rw [hcell x hx]
    exact composeSplitScroll_blank hdual p hx
  · rw [hcell x hx]
    exact composeFieldEvents_blank hdual p hx hes

/-- A lores line of one plane, every other pixel set. -/
def stripedLine : RigelDenise :=
  { RigelDenise.cleared with
    regs := { RigelDenise.cleared.regs with bplcon0 := 0x1200 }
    palette := ⟨fun i => if i = 0 then 0x000000 else 0xFFFFFF, fun i => if i = 0 then 0x0000 else 0xFFFF⟩
    video := ⟨320, 200, 129, 449, 44, 244⟩
    output := { DeniseOutputState.cleared with
      scanlineWidth := 320
      visibleScanline := true
      planeWords := fun _ _ => 0xAAAA
      planeWordCount := 20
      ddfstrtLores := 112 } }

theorem stripedLine_visible : VisibleLine stripedLine := ⟨by decide, rfl, by decide, by decide⟩

theorem stripedLine_pixels :
    (playfieldLine stripedLine .cleared).rgba 129 = 0xFFFFFF ∧ (playfieldLine stripedLine .cleared).rgba 130 = 0x000000 := by
  obtain ⟨-, hpixel, -⟩ := playfields_by_pixel stripedLine_visible .cleared
  rw [hpixel 129 (by decide), hpixel 130 (by decide)]
  decide +kernel

end Rigel
