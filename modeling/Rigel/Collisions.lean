import Rigel.SpriteOverlay

/-!
# Collisions — what a line adds to CLXDAT

`sprites/collisions.c`, and the end of `compose_line`, which goes over the columns of the window with the sprites that reach
each and the playfields that are opaque there. A column without sprites and with one playfield at most is passed over, and
so is the whole line while CLXCON is clear. The first loses nothing; the second loses the collision of the two playfields,
which CLXCON does not enable.
-/

namespace Rigel

/-- `collision_check_pixel`: CLXDAT after one pixel. -/
def collisionCheckPixel (clxcon clxdat : UInt16) (spriteMask : UInt8) (pf1Active pf2Active : Bool) : UInt16 :=
  let enPairs : UInt8 := (clxcon &&& 0x0F).toUInt8
  let pair (bit sprites : UInt8) : UInt8 := if enPairs &&& bit ≠ 0 then sprites else 0
  let enAll := pair 0x01 0x03 ||| pair 0x02 0x0C ||| pair 0x04 0x30 ||| pair 0x08 0xC0
  let activeSs := spriteMask &&& enAll
  let odd : UInt8 := (activeSs >>> 1) &&& 0x55
  let even : UInt8 := activeSs &&& 0x55
  let clxdat := if odd &&& (odd - 1) ≠ 0 then clxdat ||| 0x01 else clxdat
  let clxdat := if even &&& (even - 1) ≠ 0 then clxdat ||| 0x02 else clxdat
  let oddPf : UInt8 := (spriteMask >>> 1) &&& 0x55
  let evenPf : UInt8 := spriteMask &&& 0x55
  let clxdat :=
    if (clxcon >>> 6) &&& 0x3F ≠ 0 then
      let clxdat := if oddPf ≠ 0 ∧ pf1Active then clxdat ||| 0x04 else clxdat
      let clxdat := if evenPf ≠ 0 ∧ pf1Active then clxdat ||| 0x08 else clxdat
      let clxdat := if oddPf ≠ 0 ∧ pf2Active then clxdat ||| 0x10 else clxdat
      if evenPf ≠ 0 ∧ pf2Active then clxdat ||| 0x20 else clxdat
    else clxdat
  if pf1Active ∧ pf2Active then clxdat ||| 0x40 else clxdat

/-- The columns of the window. -/
def windowColumns (m : LineMode) : List Nat := List.range' m.xStart (min m.xStop deniseMaxScanlinePixels - m.xStart)

/-- The collisions at the end of `compose_line`. -/
def composeCollisions (clxcon : UInt16) (m : LineMode) (s : OverlayLine) (clxdat : UInt16) : UInt16 :=
  if clxcon ≠ 0 then
    (windowColumns m).foldl
      (fun clxdat cx =>
        if s.sprActive cx = 0 ∧ s.line.pfActive cx < 2 then clxdat
        else
          collisionCheckPixel clxcon clxdat (s.sprActive cx) (s.line.pfActive cx &&& 1 != 0) (s.line.pfActive cx &&& 2 != 0))
      clxdat
  else clxdat

/-- CLXDAT after `compose_line`. -/
def composeLineClxdat (d : RigelDenise) (p : DenisePixels) (clxdat : UInt16) : UInt16 :=
  if d.output.scanlineWidth = 0 then clxdat
  else composeCollisions d.clxcon (lineMode d) (overlaySprites d (lineMode d) (playfieldLine d p)) clxdat

/-! ## One pixel -/

/-- The bits that a pixel sets. -/
def collisionBits (clxcon : UInt16) (spriteMask : UInt8) (pf1Active pf2Active : Bool) : UInt16 :=
  collisionCheckPixel clxcon 0 spriteMask pf1Active pf2Active

theorem or_ite_uint16 {P : Prop} [Decidable P] (c x y : UInt16) :
    (if P then c ||| x else c ||| y) = c ||| if P then x else y := by
  split <;> rfl

/-- **A pixel only sets bits**, the same ones whatever CLXDAT was. -/
theorem collisionCheckPixel_or (clxcon clxdat : UInt16) (spriteMask : UInt8) (pf1Active pf2Active : Bool) :
    collisionCheckPixel clxcon clxdat spriteMask pf1Active pf2Active =
      clxdat ||| collisionBits clxcon spriteMask pf1Active pf2Active := by
  unfold collisionBits collisionCheckPixel
  simp only
  have h0 : clxdat = clxdat ||| 0 := (UInt16.or_zero).symm
  conv => lhs; rw [h0]
  simp only [UInt16.or_assoc, or_ite_uint16]

/-- **A pixel that is passed over** sets nothing. -/
theorem collisionBits_skipped (clxcon : UInt16) (pf1Active : Bool) : collisionBits clxcon 0 pf1Active false = 0 := by
  have hshift : (0 : UInt8) >>> 1 = 0 := by decide
  unfold collisionBits collisionCheckPixel
  simp only [UInt8.zero_and, hshift, ne_eq, not_true_eq_false, false_and, and_false, if_false, Bool.false_eq_true, ite_self]

theorem collisionBits_clear (spriteMask : UInt8) (pf1Active pf2Active : Bool) :
    collisionBits 0 spriteMask pf1Active pf2Active = if pf1Active = true ∧ pf2Active = true then 0x40 else 0 := by
  have hpairs : ((0 : UInt16) &&& 0x0F).toUInt8 = 0 := by decide
  have hfields : ((0 : UInt16) >>> 6) &&& 0x3F = 0 := by decide
  have hshift : (0 : UInt8) >>> 1 = 0 := by decide
  unfold collisionBits collisionCheckPixel
  simp only [hpairs, hfields, hshift, UInt8.zero_and, UInt8.or_self, UInt8.and_zero, ne_eq, not_true_eq_false, if_false,
    UInt16.zero_or]

/-! ## One line -/

theorem foldl_or_uint16 {f : Nat → UInt16} : ∀ (xs : List Nat) (c : UInt16),
    xs.foldl (fun c x => c ||| f x) c = c ||| xs.foldl (fun c x => c ||| f x) 0
  | [], _ => (UInt16.or_zero).symm
  | x :: xs, c => by
    rw [List.foldl_cons, List.foldl_cons, foldl_or_uint16 xs (c ||| f x), foldl_or_uint16 xs (0 ||| f x), UInt16.zero_or,
      UInt16.or_assoc]

/-- The bits that a list of columns sets. -/
def columnsBits (clxcon : UInt16) (mask active : Nat → UInt8) (xs : List Nat) : UInt16 :=
  xs.foldl (fun c x => c ||| collisionBits clxcon (mask x) (active x &&& 1 != 0) (active x &&& 2 != 0)) 0

/-- **The columns that are passed over lose nothing.** -/
theorem composeCollisions_on {clxcon : UInt16} (h : clxcon ≠ 0) (m : LineMode) (s : OverlayLine) (clxdat : UInt16) :
    composeCollisions clxcon m s clxdat = clxdat ||| columnsBits clxcon s.sprActive s.line.pfActive (windowColumns m) := by
  have hone : ∀ v : UInt8, v < 2 → v &&& 2 = 0 := fun v =>
    uint8_forall (P := fun v => v < 2 → v &&& 2 = 0) (by decide +kernel) v
  have hstep : (fun (clxdat : UInt16) (cx : Nat) =>
      if s.sprActive cx = 0 ∧ s.line.pfActive cx < 2 then clxdat
      else
        collisionCheckPixel clxcon clxdat (s.sprActive cx) (s.line.pfActive cx &&& 1 != 0) (s.line.pfActive cx &&& 2 != 0)) =
      fun clxdat cx => clxdat |||
        collisionBits clxcon (s.sprActive cx) (s.line.pfActive cx &&& 1 != 0) (s.line.pfActive cx &&& 2 != 0) := by
    funext clxdat cx
    by_cases hskip : s.sprActive cx = 0 ∧ s.line.pfActive cx < 2
    · rw [if_pos hskip, hskip.1, hone _ hskip.2, bne_self_eq_false, collisionBits_skipped, UInt16.or_zero]
    · rw [if_neg hskip, collisionCheckPixel_or]
  unfold composeCollisions
  rw [if_pos h, hstep]
  exact foldl_or_uint16 _ _

theorem columnsBits_clear (mask active : Nat → UInt8) : ∀ xs : List Nat,
    columnsBits 0 mask active xs = if ∃ x ∈ xs, active x &&& 1 ≠ 0 ∧ active x &&& 2 ≠ 0 then 0x40 else 0
  | [] => rfl
  | x :: xs => by
    have ih := columnsBits_clear mask active xs
    have hhead : (∃ y ∈ x :: xs, active y &&& 1 ≠ 0 ∧ active y &&& 2 ≠ 0) ↔
        (active x &&& 1 ≠ 0 ∧ active x &&& 2 ≠ 0) ∨ ∃ y ∈ xs, active y &&& 1 ≠ 0 ∧ active y &&& 2 ≠ 0 := by
      simp
    unfold columnsBits at ih ⊢
    rw [List.foldl_cons, foldl_or_uint16, ih, collisionBits_clear, UInt16.zero_or]
    simp only [hhead, bne_iff_ne]
    by_cases hx : active x &&& 1 ≠ 0 ∧ active x &&& 2 ≠ 0
    · by_cases hxs : ∃ y ∈ xs, active y &&& 1 ≠ 0 ∧ active y &&& 2 ≠ 0
      · rw [if_pos hx, if_pos hxs, if_pos (Or.inl hx)]
        rfl
      · rw [if_pos hx, if_neg hxs, if_pos (Or.inl hx)]
        rfl
    · by_cases hxs : ∃ y ∈ xs, active y &&& 1 ≠ 0 ∧ active y &&& 2 ≠ 0
      · rw [if_neg hx, if_pos hxs, if_pos (Or.inr hxs)]
        rfl
      · rw [if_neg hx, if_neg hxs, if_neg (not_or.mpr ⟨hx, hxs⟩)]
        rfl

/-! ## What is in a column -/

/-- The sprites that are opaque in the column, a bit a sprite. -/
def spriteMaskAt (d : RigelDenise) (m : LineMode) (x : Nat) : UInt8 :=
  UInt8.ofNat (Nat.ofBits fun spr : Fin 8 => (spriteColorAt d spr m x).isSome)

/-- The playfields that are opaque in the column, bit 0 for the first. HAM counts all that is fetched as the first. -/
def lineActive (d : RigelDenise) (m : LineMode) (x : Nat) : UInt8 :=
  if playfieldsOn d m ∧ m.shows x then
    (if m.isHam then (if m.sees d.output 0 x then 1 else 0) else playfieldActive d m x)
  else 0

theorem spriteMaskAt_testBit (d : RigelDenise) (m : LineMode) (x : Nat) {i : Nat} (hi : i < 8) :
    (spriteMaskAt d m x).toNat.testBit i = (spriteColorAt d i m x).isSome := by
  unfold spriteMaskAt
  rw [UInt8.toNat_ofNat', Nat.mod_eq_of_lt (Nat.ofBits_lt_two_pow _), Nat.testBit_ofBits_lt _ i hi]

theorem foldl_spritePaint_mask (d : RigelDenise) (x : Nat) {i : Nat} (hi : i < 8) : ∀ (es : List Nat), (∀ e ∈ es, e < 8) →
    ∀ (c : LineCell) (mask : UInt8), (es.foldl (spritePaint d x) (c, mask)).2.toNat.testBit i =
      (mask.toNat.testBit i || (decide (i ∈ es) && (spriteColorAt d i (lineMode d) x).isSome))
  | [], _, _, mask => by simp
  | spr :: es, hes, c, mask => by
    have ih := foldl_spritePaint_mask d x hi es fun e he => hes e (List.mem_cons_of_mem _ he)
    rw [List.foldl_cons]
    unfold spritePaint
    cases hcolor : spriteColorAt d spr (lineMode d) x with
    | none =>
      simp only
      refine (ih c mask).trans ?_
      by_cases his : i = spr
      · subst his
        simp [hcolor]
      · simp [his]
    | some color =>
      simp only [spriteHit]
      refine (ih _ _).trans ?_
      rw [UInt8.toNat_or, Nat.testBit_or, bit8_testBit spr (hes spr List.mem_cons_self) i hi]
      by_cases his : i = spr
      · subst his
        simp [hcolor]
      · simp [his]

/-- **The marks of the overlay** are the opaque sprites. -/
theorem overlaySprites_active (d : RigelDenise) (l : LinePixels) {x : Nat} (hx : x < deniseMaxScanlinePixels) :
    (overlaySprites d (lineMode d) l).sprActive x = spriteMaskAt d (lineMode d) x ∧
      (overlaySprites d (lineMode d) l).line.pfActive x = l.pfActive x := by
  have hcell := overlaySprites_cell d l hx
  constructor
  · have hmask := congrArg Prod.snd hcell
    refine Eq.trans hmask (uint8_ext fun i hi => ?_)
    have hmem : i ∈ [7, 6, 5, 4, 3, 2, 1, 0] := by
      simp only [List.mem_cons, List.not_mem_nil, or_false]
      omega
    rw [foldl_spritePaint_mask d x hi _ (by decide), spriteMaskAt_testBit d (lineMode d) x hi, decide_eq_true hmem]
    simp
  · have hline := congrArg (fun c : LineCell × UInt8 => c.1.pfActive) hcell
    refine Eq.trans hline ?_
    rw [foldl_spritePaint]
    rfl

/-- What HAM does to a column's activity with the pixel at offset `i`. -/
def hamPaint (m : LineMode) (x : Nat) (active : UInt8) (i : Nat) : UInt8 :=
  if x = m.ddf0 + i + m.scrollPf1 * m.hscale ∧ m.shows x then 1 else active

theorem composeHamPixel_active (palette : DenisePaletteState) (m : LineMode) (x : Nat) (s : UInt32 × LinePixels)
    (p : Nat × UInt8) : (composeHamPixel palette m s p).2.pfActive x = hamPaint m x (s.2.pfActive x) p.1 := by
  unfold composeHamPixel hamPaint LinePixels.field LinePixels.draw
  simp only
  by_cases hx : x = m.ddf0 + p.1 + m.scrollPf1 * m.hscale
  · rw [← hx]
    cases m.shows x <;> simp
  · have hnot : ¬ (x = m.ddf0 + p.1 + m.scrollPf1 * m.hscale ∧ m.shows x = true) := fun h => hx h.1
    rw [if_neg hnot]
    split
    · exact Function.update_of_ne hx _ _
    · rfl

/-- **HAM** counts a shown column with fetched bits as the first playfield. -/
theorem composeHam_active (d : RigelDenise) (m : LineMode) (s : UInt32 × LinePixels) (x : Nat) :
    ((fetchedPixels d.output m.depth).foldl (composeHamPixel d.palette m) s).2.pfActive x =
      if m.sees d.output 0 x ∧ m.shows x then 1 else s.2.pfActive x := by
  have hstart : m.planeStart 0 = m.ddf0 + m.scrollPf1 * m.hscale := rfl
  have hview : ((fetchedPixels d.output m.depth).foldl (composeHamPixel d.palette m) s).2.pfActive x =
      (List.range (d.output.planeWordCount.toNat * 16)).foldl (hamPaint m x) (s.2.pfActive x) := by
    rw [fetchedPixels_eq, List.foldl_map]
    exact foldl_view (v := fun s : UInt32 × LinePixels => s.2.pfActive x)
      (fun s i => composeHamPixel_active d.palette m x s (i, _)) _ s
  have hother : ∀ i ∈ List.range (d.output.planeWordCount.toNat * 16), i ≠ x - m.planeStart 0 →
      ∀ c, hamPaint m x c i = c := by
    intro i _ hne c
    exact if_neg fun h => hne (by omega)
  rw [hview, foldl_reached_once _ _ _ List.nodup_range hother]
  unfold LineMode.sees hamPaint
  simp only [List.mem_range, Bool.and_eq_true, decide_eq_true_eq]
  by_cases hle : m.planeStart 0 ≤ x
  · have hat : x = m.ddf0 + (x - m.planeStart 0) + m.scrollPf1 * m.hscale := by omega
    simp only [← hat, true_and, hle]
    by_cases hlt : x - m.planeStart 0 < d.output.planeWordCount.toNat * 16
    · simp only [hlt, true_and, if_true]
    · simp only [hlt, false_and, if_false]
  · have hnot : ¬ x = m.ddf0 + (x - m.planeStart 0) + m.scrollPf1 * m.hscale := by omega
    simp only [hnot, hle, false_and, if_false, ite_self]

/-- **The activity that the playfields leave** is the column's own. -/
theorem playfieldLine_active (d : RigelDenise) (p : DenisePixels) {x : Nat} (hx : x < deniseMaxScanlinePixels) :
    (playfieldLine d p).pfActive x = lineActive d (lineMode d) x := by
  unfold lineActive
  cases hham : (lineMode d).isHam with
  | false =>
    have hcell := congrArg LineCell.pfActive (composePlayfields_cell hham p hx)
    refine Eq.trans hcell ?_
    split <;> rfl
  | true =>
    simp only [if_true]
    unfold playfieldLine composePlayfields playfieldsOn
    simp only [hham, if_true, Bool.and_eq_true, decide_eq_true_eq]
    by_cases hon : d.output.visibleScanline = true ∧ 0 < (lineMode d).depth ∧ (lineMode d).depth ≤ 6
    · by_cases hzero : 0 < d.output.planeWordCount
      · rw [if_pos ⟨hon.1, hon.2.1, hon.2.2, hzero⟩, composeHam_active]
        simp only [hon, true_and, and_self]
        cases (lineMode d).shows x <;> simp [blankLine]
      · rw [if_neg fun h => hzero h.2.2.2, sees_unfetched hzero]
        simp [blankLine]
    · rw [if_neg fun h => hon ⟨h.1, h.2.1, h.2.2.1⟩, if_neg fun h => hon h.1]
      rfl

/-! ## What a line loses -/

/-- The columns that the line has in the window. A line without a width is not composed. -/
def scanlineColumns (d : RigelDenise) : List Nat :=
  if d.output.scanlineWidth = 0 then [] else windowColumns (lineMode d)

/-- Both playfields of a dual playfield are opaque in the column. -/
def BothFields (d : RigelDenise) (x : Nat) : Prop :=
  playfieldsOn d (lineMode d) = true ∧ (lineMode d).isHam = false ∧ (lineMode d).isDual = true ∧
    (dualpfDecode (pixelIndex d.output (lineMode d) x)).1 ≠ 0 ∧ (dualpfDecode (pixelIndex d.output (lineMode d) x)).2 ≠ 0

instance (d : RigelDenise) (x : Nat) : Decidable (BothFields d x) :=
  inferInstanceAs (Decidable (_ ∧ _ ∧ _ ∧ _ ∧ _))

theorem mem_windowColumns {m : LineMode} {x : Nat} (h : x ∈ windowColumns m) :
    x < deniseMaxScanlinePixels ∧ m.shows x = true := by
  unfold windowColumns at h
  rw [List.mem_range'_1] at h
  unfold LineMode.shows
  simp only [Bool.and_eq_true, decide_eq_true_eq]
  omega

/-- Within the window, the marks of both playfields are `BothFields`. -/
theorem lineActive_both (d : RigelDenise) {x : Nat} (hshows : (lineMode d).shows x = true) :
    (lineActive d (lineMode d) x &&& 1 ≠ 0 ∧ lineActive d (lineMode d) x &&& 2 ≠ 0) ↔ BothFields d x := by
  have h12 : (1 : UInt8) &&& 2 = 0 := by decide
  have h21 : (2 : UInt8) &&& 1 = 0 := by decide
  have h3 : (1 : UInt8) ||| 2 = 3 := by decide
  have h31 : (3 : UInt8) &&& 1 ≠ 0 := by decide
  have h32 : (3 : UInt8) &&& 2 ≠ 0 := by decide
  unfold lineActive BothFields playfieldActive
  rw [hshows]
  cases playfieldsOn d (lineMode d) with
  | false => simp
  | true =>
    cases (lineMode d).isHam with
    | true => cases (lineMode d).sees d.output 0 x <;> simp [h12]
    | false =>
      cases (lineMode d).isDual with
      | false =>
        by_cases h0 : playfieldIndex d (lineMode d) x = 0
        · simp [h0]
        · simp [h0, h12]
      | true =>
        generalize dualpfDecode (pixelIndex d.output (lineMode d) x) = pf
        by_cases h1 : pf.1 = 0
        · by_cases h2 : pf.2 = 0 <;> simp [h1, h2, h21]
        · by_cases h2 : pf.2 = 0 <;> simp [h1, h2, h12, h3, h31, h32]

/-- A line's collisions are those of its columns' own sprites and playfields. -/
theorem columnsBits_line (d : RigelDenise) (p : DenisePixels) (clxcon : UInt16) :
    columnsBits clxcon (overlaySprites d (lineMode d) (playfieldLine d p)).sprActive
      (overlaySprites d (lineMode d) (playfieldLine d p)).line.pfActive (windowColumns (lineMode d)) =
      columnsBits clxcon (spriteMaskAt d (lineMode d)) (lineActive d (lineMode d)) (windowColumns (lineMode d)) := by
  unfold columnsBits
  refine List.foldl_ext _ _ _ fun c x hx => ?_
  have hlt := (mem_windowColumns hx).1
  obtain ⟨hsprites, hfields⟩ := overlaySprites_active d (playfieldLine d p) hlt
  rw [hsprites, hfields, playfieldLine_active d p hlt]

theorem or_bit6_eq_iff (v : UInt16) : v = v ||| 0x40 ↔ v &&& 0x40 ≠ 0 := by
  have h64 : (0x40 : UInt16).toNat = 2 ^ 6 := rfl
  have hbit : (v &&& 0x40).toNat = 2 ^ 6 * (v.toNat.testBit 6).toNat := by
    rw [UInt16.toNat_and, h64, Nat.and_two_pow, Nat.mul_comm]
  have hor : v = v ||| 0x40 ↔ v.toNat.testBit 6 = true := by
    constructor
    · intro h
      rw [h, UInt16.toNat_or, Nat.testBit_or, h64, Nat.testBit_two_pow_self, Bool.or_true]
    · intro h
      refine uint16_ext fun i _ => ?_
      rw [UInt16.toNat_or, Nat.testBit_or, h64, Nat.testBit_two_pow]
      by_cases hi : 6 = i
      · subst hi
        simp [h]
      · simp [hi]
  rw [hor, ← UInt16.toNat_inj.ne, hbit]
  cases v.toNat.testBit 6 <;> simp

/-- **When the collisions of a line are all kept**: CLXCON enables something, or the playfields' bit is set already, or no
column of the window has both playfields. -/
theorem collisions_kept_iff (d : RigelDenise) (p : DenisePixels) (clxdat : UInt16) :
    composeLineClxdat d p clxdat =
        clxdat ||| columnsBits d.clxcon (spriteMaskAt d (lineMode d)) (lineActive d (lineMode d)) (scanlineColumns d) ↔
      d.clxcon ≠ 0 ∨ clxdat &&& 0x40 ≠ 0 ∨ ∀ x ∈ scanlineColumns d, ¬ BothFields d x := by
  unfold composeLineClxdat scanlineColumns
  by_cases hwidth : d.output.scanlineWidth = 0
  · simp [hwidth, columnsBits]
  · rw [if_neg hwidth, if_neg hwidth]
    by_cases hon : d.clxcon = 0
    · have hboth : (∃ x ∈ windowColumns (lineMode d),
          lineActive d (lineMode d) x &&& 1 ≠ 0 ∧ lineActive d (lineMode d) x &&& 2 ≠ 0) ↔
          ¬ ∀ x ∈ windowColumns (lineMode d), ¬ BothFields d x := by
        simp only [not_forall, not_not, exists_prop]
        exact exists_congr fun x => and_congr_right fun hx => lineActive_both d (mem_windowColumns hx).2
      have hoff : composeCollisions d.clxcon (lineMode d) (overlaySprites d (lineMode d) (playfieldLine d p)) clxdat =
          clxdat := by
        unfold composeCollisions
        rw [hon]
        rfl
      rw [hoff, hon, columnsBits_clear]
      simp only [hboth]
      by_cases hnone : ∀ x ∈ windowColumns (lineMode d), ¬ BothFields d x
      · rw [if_neg (not_not.mpr hnone), UInt16.or_zero]
        exact iff_of_true rfl (Or.inr (Or.inr hnone))
      · rw [if_pos hnone, or_bit6_eq_iff]
        refine ⟨fun hbit => Or.inr (Or.inl hbit), fun h => ?_⟩
        obtain hclear | hbit | hall := h
        · exact absurd rfl hclear
        · exact hbit
        · exact absurd hall hnone
    · rw [composeCollisions_on hon, columnsBits_line]
      simp [hon]

/-- A lores line of two planes as a dual playfield, both fields set in every pixel, and CLXCON clear. -/
def dualLine : RigelDenise :=
  { stripedLine with
    regs := { stripedLine.regs with bplcon0 := 0x2600 }
    clxcon := 0
    output := { stripedLine.output with planeWords := fun _ _ => 0xFFFF } }

/-- The playfields collide, and CLXDAT does not have it. -/
theorem dualLine_collisions :
    composeLineClxdat dualLine .cleared 0 ≠
      0 ||| columnsBits dualLine.clxcon (spriteMaskAt dualLine (lineMode dualLine)) (lineActive dualLine (lineMode dualLine))
        (scanlineColumns dualLine) := by
  have hmem : 200 ∈ scanlineColumns dualLine := by decide
  have hactive : lineActive dualLine (lineMode dualLine) 200 &&& 1 ≠ 0 ∧ lineActive dualLine (lineMode dualLine) 200 &&& 2 ≠ 0 := by
    decide
  have hoff : composeLineClxdat dualLine .cleared 0 = 0 := rfl
  have hclxcon : dualLine.clxcon = 0 := rfl
  rw [hoff, hclxcon, columnsBits_clear, if_pos ⟨200, hmem, hactive⟩]
  decide

end Rigel
