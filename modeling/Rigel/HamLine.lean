import Rigel.Playfields

/-!
# HamLine — hold and modify, part by part

A HAM pixel loads a palette entry or replaces one of the three parts of the colour before it, so `compose_line` carries a
colour from pixel to pixel, across the ones that the window hides as well. Here every part of a pixel has a definition of
its own: it comes from the nearest column at or left of it whose pixel sets that part.
-/

namespace Rigel

/-- The parts of a colour. -/
inductive ColorPart where
  | red
  | green
  | blue
  deriving Repr, DecidableEq

def ColorPart.mask : ColorPart → UInt32
  | .red => 0xFF0000
  | .green => 0x00FF00
  | .blue => 0x0000FF

/-- The control bits of a pixel that replaces this part. -/
def ColorPart.control : ColorPart → UInt8
  | .red => 2
  | .green => 3
  | .blue => 1

def ColorPart.shift : ColorPart → UInt32
  | .red => 16
  | .green => 8
  | .blue => 0

/-- What a pixel sets a part to: that of a palette entry, its own four bits, or nothing. -/
def hamSets (palette : Nat → UInt32) (part : ColorPart) (bits : UInt8) : Option UInt32 :=
  if (bits >>> 4) &&& 0x3 = 0 then some (palette (bits &&& 0xF).toNat &&& part.mask)
  else if (bits >>> 4) &&& 0x3 = part.control then some (((bits &&& 0xF) <<< 4).toUInt32 <<< part.shift)
  else none

theorem hamLoad_index : ∀ bits : UInt8, (bits >>> 4) &&& 0x3 = 0 → bits &&& 0x1F = bits &&& 0xF := by
  intro bits
  exact uint8_forall (P := fun bits => (bits >>> 4) &&& 0x3 = 0 → bits &&& 0x1F = bits &&& 0xF) (by decide +kernel) bits

/-- The four bits of a pixel, where each control puts them, and the parts that they do not reach. -/
structure HamValue (value : UInt32) : Prop where
  blue : value &&& ColorPart.red.mask = 0 ∧ value &&& ColorPart.green.mask = 0 ∧ value &&& ColorPart.blue.mask = value
  red : (value <<< 16) &&& ColorPart.red.mask = value <<< 16 ∧ (value <<< 16) &&& ColorPart.green.mask = 0 ∧
    (value <<< 16) &&& ColorPart.blue.mask = 0
  green : (value <<< 8) &&& ColorPart.red.mask = 0 ∧ (value <<< 8) &&& ColorPart.green.mask = value <<< 8 ∧
    (value <<< 8) &&& ColorPart.blue.mask = 0

theorem hamValue_bits (bits : UInt8) : HamValue ((bits &&& 0xF) <<< 4).toUInt32 := by
  have hblue : ∀ n < 256, let value := ((UInt8.ofNat n &&& 0xF) <<< 4).toUInt32
      value &&& ColorPart.red.mask = 0 ∧ value &&& ColorPart.green.mask = 0 ∧ value &&& ColorPart.blue.mask = value := by
    decide +kernel
  have hred : ∀ n < 256, let value := ((UInt8.ofNat n &&& 0xF) <<< 4).toUInt32
      (value <<< 16) &&& ColorPart.red.mask = value <<< 16 ∧ (value <<< 16) &&& ColorPart.green.mask = 0 ∧
        (value <<< 16) &&& ColorPart.blue.mask = 0 := by
    decide +kernel
  have hgreen : ∀ n < 256, let value := ((UInt8.ofNat n &&& 0xF) <<< 4).toUInt32
      (value <<< 8) &&& ColorPart.red.mask = 0 ∧ (value <<< 8) &&& ColorPart.green.mask = value <<< 8 ∧
        (value <<< 8) &&& ColorPart.blue.mask = 0 := by
    decide +kernel
  exact uint8_forall (P := fun bits => HamValue ((bits &&& 0xF) <<< 4).toUInt32)
    (fun n hn => ⟨hblue n hn, hred n hn, hgreen n hn⟩) bits

theorem hamKeeps {keep value m : UInt32} (prev : UInt32) (hkeep : keep &&& m = m) (hvalue : value &&& m = 0) :
    ((prev &&& keep) ||| value) &&& m = prev &&& m := by
  rw [uint32_or_and_distrib, UInt32.and_assoc, hkeep, hvalue, UInt32.or_zero]

theorem hamTakes {keep value m : UInt32} (prev : UInt32) (hkeep : keep &&& m = 0) (hvalue : value &&& m = value) :
    ((prev &&& keep) ||| value) &&& m = value := by
  rw [uint32_or_and_distrib, UInt32.and_assoc, hkeep, hvalue, UInt32.and_zero, UInt32.zero_or]

/-- The control bits of a pixel, by name. -/
theorem hamControl_cases : ∀ bits : UInt8, (bits >>> 4) &&& 0x3 = 0 ∨ (bits >>> 4) &&& 0x3 = 1 ∨ (bits >>> 4) &&& 0x3 = 2 ∨
    (bits >>> 4) &&& 0x3 = 3 := by
  intro bits
  exact uint8_forall (P := fun bits => (bits >>> 4) &&& 0x3 = 0 ∨ (bits >>> 4) &&& 0x3 = 1 ∨ (bits >>> 4) &&& 0x3 = 2 ∨
    (bits >>> 4) &&& 0x3 = 3) (by decide +kernel) bits

/-- **One pixel**, part by part. -/
theorem ham6DecodePixel_part (bits : UInt8) (prev : UInt32) (palette : Nat → UInt32) (part : ColorPart) :
    ham6DecodePixel bits prev palette &&& part.mask = (hamSets palette part bits).getD (prev &&& part.mask) := by
  have hload := hamLoad_index bits
  have hvalue := hamValue_bits bits
  unfold ham6DecodePixel hamSets
  generalize ((bits &&& 0xF) <<< 4).toUInt32 = value at hvalue ⊢
  rcases hamControl_cases bits with hc | hc | hc | hc
  · rw [hc, hload hc]
    rfl
  · rw [hc]
    cases part with
    | red => exact hamKeeps prev (by decide) hvalue.blue.1
    | green => exact hamKeeps prev (by decide) hvalue.blue.2.1
    | blue => exact (hamTakes prev (by decide) hvalue.blue.2.2).trans (UInt32.shiftLeft_zero).symm
  · rw [hc]
    cases part with
    | red => exact hamTakes prev (by decide) hvalue.red.1
    | green => exact hamKeeps prev (by decide) hvalue.red.2.1
    | blue => exact hamKeeps prev (by decide) hvalue.red.2.2
  · rw [hc]
    cases part with
    | red => exact hamKeeps prev (by decide) hvalue.green.1
    | green => exact hamTakes prev (by decide) hvalue.green.2.1
    | blue => exact hamKeeps prev (by decide) hvalue.green.2.2

/-! ## A run of pixels -/

/-- The colour after `n` pixels. -/
def hamColor (d : RigelDenise) (m : LineMode) (n : Nat) : UInt32 :=
  (List.range n).foldl (fun rgb i => ham6DecodePixel (fetchedIndex d.output m.depth i) rgb d.palette.rgb32) (d.palette.rgb32 0)

theorem hamColor_succ (d : RigelDenise) (m : LineMode) (n : Nat) :
    hamColor d m (n + 1) = ham6DecodePixel (fetchedIndex d.output m.depth n) (hamColor d m n) d.palette.rgb32 := by
  unfold hamColor
  rw [List.range_succ, List.foldl_append]
  rfl

/-- A part stays while no pixel sets it. -/
theorem hamColor_unset (d : RigelDenise) (m : LineMode) (part : ColorPart) {j n : Nat} (hjn : j ≤ n)
    (h : ∀ i, j ≤ i → i < n → hamSets d.palette.rgb32 part (fetchedIndex d.output m.depth i) = none) :
    hamColor d m n &&& part.mask = hamColor d m j &&& part.mask := by
  induction n, hjn using Nat.le_induction with
  | base => rfl
  | succ n hn ih =>
    rw [hamColor_succ, ham6DecodePixel_part, h n hn (Nat.lt_succ_self n), Option.getD_none]
    exact ih fun i hi hlt => h i hi (Nat.lt_succ_of_lt hlt)

/-- The line after its first `n` fetched pixels. -/
def hamRun (d : RigelDenise) (m : LineMode) (l : LinePixels) (n : Nat) : UInt32 × LinePixels :=
  (List.range n).foldl (fun s i => composeHamPixel d.palette m s (i, fetchedIndex d.output m.depth i)) (d.palette.rgb32 0, l)

theorem hamRun_succ (d : RigelDenise) (m : LineMode) (l : LinePixels) (n : Nat) :
    hamRun d m l (n + 1) = composeHamPixel d.palette m (hamRun d m l n) (n, fetchedIndex d.output m.depth n) := by
  unfold hamRun
  rw [List.range_succ, List.foldl_append]
  rfl

/-- The colour goes on where nothing is shown. -/
theorem hamRun_color (d : RigelDenise) (m : LineMode) (l : LinePixels) (n : Nat) : (hamRun d m l n).1 = hamColor d m n := by
  induction n with
  | zero => rfl
  | succ n ih =>
    rw [hamRun_succ, hamColor_succ, ← ih]
    rfl

/-- An opaque column of a HAM line. -/
def LineCell.ham (c : LineCell) (rgb : UInt32) : LineCell := { c with rgba := rgb, pfColor := 0xFF, pfActive := 1 }

theorem composeHamPixel_cell (palette : DenisePaletteState) (m : LineMode) (s : UInt32 × LinePixels) (p : Nat × UInt8) (x : Nat) :
    (composeHamPixel palette m s p).2.cell x =
      if x = m.planeStart 0 + p.1 ∧ m.shows x then (s.2.cell x).ham (ham6DecodePixel p.2 s.1 palette.rgb32) else s.2.cell x := by
  have hstart : m.planeStart 0 + p.1 = m.ddf0 + p.1 + m.scrollPf1 * m.hscale := by
    have h0 : m.planeStart 0 = m.ddf0 + m.scrollPf1 * m.hscale := rfl
    omega
  rw [hstart]
  unfold composeHamPixel LinePixels.cell LineCell.ham LinePixels.draw LinePixels.field
  by_cases hx : x = m.ddf0 + p.1 + m.scrollPf1 * m.hscale
  · subst hx
    by_cases hshown : m.shows (m.ddf0 + p.1 + m.scrollPf1 * m.hscale) = true
    · simp only [hshown, if_true, and_self, Function.update_self]
    · simp only [hshown, Bool.false_eq_true, if_false, and_false]
  · simp only [hx, false_and, if_false]
    split
    · simp only [Function.update_of_ne hx]
    · rfl

/-- **Every column of the run.** -/
theorem hamRun_cell (d : RigelDenise) (m : LineMode) (l : LinePixels) (x : Nat) : ∀ n, (hamRun d m l n).2.cell x =
    if (m.planeStart 0 ≤ x ∧ x - m.planeStart 0 < n) ∧ m.shows x then (l.cell x).ham (hamColor d m (x - m.planeStart 0 + 1))
    else l.cell x
  | 0 => by
    rw [if_neg fun h => absurd h.1.2 (Nat.not_lt_zero _)]
    rfl
  | n + 1 => by
    rw [hamRun_succ, composeHamPixel_cell, hamRun_cell d m l x n, hamRun_color, ← hamColor_succ]
    by_cases hx : x = m.planeStart 0 + n
    · have hat : x - m.planeStart 0 = n := by omega
      have hle : m.planeStart 0 ≤ x := by omega
      simp only [← hx, hat, hle, Nat.lt_irrefl, Nat.lt_succ_self, true_and, and_false, false_and, if_false]
    · have hlt : (m.planeStart 0 ≤ x ∧ x - m.planeStart 0 < n + 1) ↔ (m.planeStart 0 ≤ x ∧ x - m.planeStart 0 < n) := by omega
      simp only [hx, false_and, if_false, hlt]

/-! ## The line -/

/-- A visible line in HAM, of one to six planes. -/
structure HamVisible (d : RigelDenise) : Prop where
  width : d.output.scanlineWidth ≠ 0
  visible : d.output.visibleScanline = true
  depth : 0 < (lineMode d).depth ∧ (lineMode d).depth ≤ 6
  isHam : (lineMode d).isHam = true

/-- The line's mode as HAM has it: every plane scrolls with the first field. -/
def hamMode (d : RigelDenise) : LineMode := { lineMode d with scrollPf2 := (lineMode d).scrollPf1 }

/-- What the pixel at column `x` sets a part of its colour to. -/
def hamColumn (d : RigelDenise) (part : ColorPart) (x : Nat) : Option UInt32 :=
  hamSets d.palette.rgb32 part (pixelIndex d.output (hamMode d) x)

/-- Where the first pixel of a HAM line stands. -/
def hamStart (d : RigelDenise) : Nat := (lineMode d).planeStart 0

/-- The column has a fetched pixel and lies in the window. -/
def hamShown (d : RigelDenise) (x : Nat) : Prop :=
  hamStart d ≤ x ∧ x < hamStart d + d.output.planeWordCount.toNat * 16 ∧ (lineMode d).shows x = true

instance (d : RigelDenise) (x : Nat) : Decidable (hamShown d x) := inferInstanceAs (Decidable (_ ∧ _ ∧ _))

theorem hamColumn_fetched (d : RigelDenise) (part : ColorPart) {i : Nat} (hi : i < d.output.planeWordCount.toNat * 16) :
    hamColumn d part (hamStart d + i) = hamSets d.palette.rgb32 part (fetchedIndex d.output (lineMode d).depth i) := by
  have hscroll : (hamMode d).scrollPf1 = (hamMode d).scrollPf2 := rfl
  have hstart : (hamMode d).planeStart 0 = hamStart d := rfl
  have hat : hamStart d + i - hamStart d = i := by omega
  have hsees : (hamMode d).sees d.output 0 (hamStart d + i) = true := by
    unfold LineMode.sees
    rw [hstart, hat, decide_eq_true (Nat.le_add_right _ _), decide_eq_true hi]
    rfl
  unfold hamColumn
  rw [pixelIndex_equalScroll d.output hscroll, hsees, if_pos rfl, hstart, hat]
  rfl

/-- **Every column of a HAM line**, before the sprites. -/
theorem composePlayfields_ham {d : RigelDenise} (hham : (lineMode d).isHam = true) (p : DenisePixels) {x : Nat}
    (hx : x < deniseMaxScanlinePixels) : (playfieldLine d p).cell x =
      if playfieldsOn d (lineMode d) = true ∧ hamShown d x then
        (blankCell d).ham (hamColor d (lineMode d) (x - hamStart d + 1))
      else blankCell d := by
  have hblank := blankLine_cell d p hx
  unfold playfieldLine composePlayfields
  simp only
  by_cases hon : playfieldsOn d (lineMode d) = true
  · have hon' := hon
    unfold playfieldsOn at hon'
    rw [Bool.and_eq_true, decide_eq_true_eq] at hon'
    obtain ⟨hvisible, hdepth0, hdepth6⟩ := hon'
    by_cases hcount : 0 < d.output.planeWordCount
    · have hspan : ((lineMode d).planeStart 0 ≤ x ∧ x - (lineMode d).planeStart 0 < d.output.planeWordCount.toNat * 16) ∧
          (lineMode d).shows x = true ↔ hamShown d x := by
        unfold hamShown hamStart
        constructor
        · rintro ⟨⟨hle, hlt⟩, hshows⟩
          exact ⟨hle, by omega, hshows⟩
        · rintro ⟨hle, hlt, hshows⟩
          exact ⟨⟨hle, by omega⟩, hshows⟩
      have hrun := hamRun_cell d (lineMode d) (blankLine d p) x (d.output.planeWordCount.toNat * 16)
      rw [hblank] at hrun
      simp only [hspan] at hrun
      rw [if_pos ⟨hvisible, hdepth0, hdepth6, hcount⟩, hham, if_pos rfl, fetchedPixels_eq, List.foldl_map]
      simp only [hon, true_and]
      exact hrun
    · have hnone : d.output.planeWordCount.toNat = 0 := by
        have hle := UInt16.le_iff_toNat_le.mp (UInt16.not_lt.mp hcount)
        rw [UInt16.toNat_zero] at hle
        omega
      have hnot : ¬ hamShown d x := by
        rintro ⟨hle, hlt, -⟩
        rw [hnone] at hlt
        omega
      rw [if_neg fun hall => hcount hall.2.2.2, if_neg fun hall => hnot hall.2, hblank]
  · have hoff : ¬ (d.output.visibleScanline = true ∧ 0 < (lineMode d).depth ∧ (lineMode d).depth ≤ 6 ∧
        0 < d.output.planeWordCount) := by
      rintro ⟨hvisible, hdepth0, hdepth6, -⟩
      apply hon
      unfold playfieldsOn
      rw [hvisible, decide_eq_true ⟨hdepth0, hdepth6⟩]
      rfl
    rw [if_neg hoff, if_neg fun hall => hon hall.1, hblank]

/-- **Hold and modify.** A visible HAM line is the sprite overlay over its playfields. In a shown column every part of the
colour is what the nearest column at or left of it that sets the part sets it to, shown or not, and colour 0's where no
fetched pixel has set it; every other column has colour 0. -/
theorem ham_by_part {d : RigelDenise} (h : HamVisible d) (p : DenisePixels) :
    (composeLine d p).scanlineRgba = (composeSprites d (lineMode d) (playfieldLine d p)).rgba ∧
      (∀ x part, hamShown d x →
        (∀ y value, hamStart d ≤ y → y ≤ x → hamColumn d part y = some value →
          (∀ z, y < z → z ≤ x → hamColumn d part z = none) → (playfieldLine d p).rgba x &&& part.mask = value) ∧
        ((∀ y, hamStart d ≤ y → y ≤ x → hamColumn d part y = none) →
          (playfieldLine d p).rgba x &&& part.mask = d.palette.rgb32 0 &&& part.mask)) ∧
      ∀ x < deniseMaxScanlinePixels, ¬ hamShown d x → (playfieldLine d p).rgba x = d.palette.rgb32 0 := by
  have hon : playfieldsOn d (lineMode d) = true := by
    unfold playfieldsOn
    rw [h.visible, decide_eq_true h.depth]
    rfl
  refine ⟨by rw [composeLine_eq h.width]; rfl, fun x part hshown => ?_, fun x hx hnot => ?_⟩
  · have hx : x < deniseMaxScanlinePixels := by
      have hshows := hshown.2.2
      unfold LineMode.shows at hshows
      simp only [Bool.and_eq_true, decide_eq_true_eq] at hshows
      exact hshows.2
    have hcell := composePlayfields_ham h.isHam p hx
    rw [if_pos ⟨hon, hshown⟩] at hcell
    have hcolor : (playfieldLine d p).rgba x = hamColor d (lineMode d) (x - hamStart d + 1) := congrArg LineCell.rgba hcell
    have hoffset : ∀ i, i ≤ x - hamStart d → hamColumn d part (hamStart d + i) =
        hamSets d.palette.rgb32 part (fetchedIndex d.output (lineMode d).depth i) := fun i hi =>
      hamColumn_fetched d part (by have := hshown.1; have := hshown.2.1; omega)
    have hle := hshown.1
    constructor
    · intro y value hy hyx hset hclear
      have hat := hoffset (y - hamStart d) (by omega)
      rw [Nat.add_sub_cancel' hy, hset] at hat
      rw [hcolor, hamColor_unset d (lineMode d) part (j := y - hamStart d + 1) (by omega), hamColor_succ,
        ham6DecodePixel_part, ← hat, Option.getD_some]
      intro i hi hlt
      rw [← hoffset i (by omega)]
      exact hclear _ (by omega) (by omega)
    · intro hclear
      rw [hcolor, hamColor_unset d (lineMode d) part (j := 0) (Nat.zero_le _)]
      · rfl
      · intro i _ hlt
        rw [← hoffset i (by omega)]
        exact hclear _ (by omega) (by omega)
  · have hcell := composePlayfields_ham h.isHam p hx
    rw [if_neg fun hall => hnot hall.2] at hcell
    exact congrArg LineCell.rgba hcell

/-- A lores HAM line of six planes: each word loads colour 3 and then replaces red by fifteen. The window hides the first
twenty columns. -/
def rampLine : RigelDenise :=
  { RigelDenise.cleared with
    regs := { RigelDenise.cleared.regs with bplcon0 := 0x6A00 }
    palette := ⟨fun i => if i = 3 then 0x112233 else 0x000000, fun _ => 0⟩
    video := ⟨320, 200, 149, 449, 44, 244⟩
    output := { DeniseOutputState.cleared with
      scanlineWidth := 320
      visibleScanline := true
      planeWords := fun p _ => if p = 0 ∨ p = 1 then 0xFFFF else if p = 4 then 0x0000 else 0x7FFF
      planeWordCount := 20
      ddfstrtLores := 112 } }

theorem rampLine_visible : HamVisible rampLine := ⟨by decide, rfl, by decide, by decide⟩

/-- Column 150 has the green of column 145, which is not shown. -/
theorem rampLine_green : (lineMode rampLine).shows 145 = false ∧
    (playfieldLine rampLine .cleared).rgba 150 &&& ColorPart.green.mask = 0x002200 := by
  have hclear : ∀ z < 151, 145 < z → hamColumn rampLine .green z = none := by decide +kernel
  obtain ⟨-, hparts, -⟩ := ham_by_part rampLine_visible .cleared
  have hshown : hamShown rampLine 150 := ⟨by decide, by decide, by decide⟩
  refine ⟨by decide, (hparts 150 .green hshown).1 145 0x002200 (by decide) (by decide) (by decide +kernel) ?_⟩
  exact fun z hlt hle => hclear z (by omega) hlt

end Rigel
