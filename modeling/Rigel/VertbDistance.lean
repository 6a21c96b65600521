import Mathlib.Order.Bounds.Basic
import Rigel.BeamProjection

/-!
# VertbDistance — how far the vertical blank is

`agnus_cycles_to_vertb` answers by a formula what stepping the beam answers clock by clock: when the beam is next on
the position where the scheduler raises VERTB. Within a frame the beam is one counter of clocks (`frameClock`), which
runs to the frame's last line and starts over (`RasterBeam.run`). The formula counts to the end of the current line, a
frame's worth of lines, and one clock more; it looks neither at LOF nor at the clock before the position.
-/

namespace Rigel

/-! ## The beam inside its frame -/

/-- A beam of the raster, progressive or interlaced: on one of the lines of its frame. -/
structure RasterBeam (b : BeamState) : Prop where
  ok : BeamOk b
  line : b.vpos < beamFrameVmax b

/-- The lines of the current frame: one more when the frame is long. -/
def frameLength (b : BeamState) : Nat := b.frameLines.toNat + if b.lof = 0 then 0 else 1

/-- The clocks since the top of the frame. -/
def frameClock (b : BeamState) : Nat := 227 * b.vpos.toNat + b.hpos.toNat

section
variable {b : BeamState}

theorem BeamOk.frameVmax (h : BeamOk b) : (beamFrameVmax b).toNat = frameLength b := by
  unfold beamFrameVmax frameLength
  rcases h.frameLines with hf | hf <;> rw [hf] <;> by_cases hl : b.lof = 0 <;> simp only [hl, ne_eq, not_true_eq_false,
    not_false_eq_true, if_true, if_false] <;> rfl

theorem RasterBeam.hpos_lt (h : RasterBeam b) : b.hpos.toNat < 227 := UInt16.lt_iff_toNat_lt.1 h.ok.hpos

theorem RasterBeam.vpos_lt (h : RasterBeam b) : b.vpos.toNat < frameLength b := by
  rw [← h.ok.frameVmax]
  exact UInt16.lt_iff_toNat_lt.1 h.line

theorem frameLength_le (h : BeamOk b) : frameLength b ≤ 313 := by
  have hf := h.frameLines_cases
  unfold frameLength
  split <;> omega

theorem RasterBeam.step_right (h : RasterBeam b) (hlt : b.hpos.toNat + 1 < 227) :
    beamStep b 1 = { b with hpos := b.hpos + 1 } := by
  rw [h.ok.beamStep_one, if_neg]
  intro hw
  have := (succ_eq_iff_toNat (by omega)).1 hw
  simp only [UInt16.reduceToNat] at this
  omega

theorem RasterBeam.step_line (h : RasterBeam b) (hlast : b.hpos.toNat + 1 = 227) :
    beamStep b 1 = beamAdvanceLine b := by
  rw [h.ok.beamStep_one, if_pos ((succ_eq_iff_toNat (by omega)).2 hlast)]

/-- Inside the frame a clock moves the counter on, and leaves the frame's length alone. -/
theorem RasterBeam.clock (h : RasterBeam b) (hin : frameClock b + 1 < 227 * frameLength b) :
    RasterBeam (beamStep b 1) ∧ frameClock (beamStep b 1) = frameClock b + 1 ∧
      frameLength (beamStep b 1) = frameLength b := by
  have hh := h.hpos_lt
  have hv := h.vpos_lt
  have hle := frameLength_le h.ok
  have hok := h.ok.step
  unfold frameClock at *
  by_cases hlast : b.hpos.toNat + 1 = 227
  · have hvs : (b.vpos + 1).toNat = b.vpos.toNat + 1 := toNat_succ (by omega)
    have hno : ¬ b.vpos + 1 ≥ beamFrameVmax b := by
      rw [ge_iff_le, UInt16.le_iff_toNat_le, h.ok.frameVmax, hvs]
      omega
    rw [h.step_line hlast] at hok ⊢
    have hvpos : (beamAdvanceLine b).vpos = b.vpos + 1 := if_neg hno
    have hlof : (beamAdvanceLine b).lof = b.lof := if_neg hno
    have hlen : frameLength (beamAdvanceLine b) = frameLength b := by
      unfold frameLength
      rw [hlof]
      rfl
    have hhpos : (beamAdvanceLine b).hpos.toNat = 0 := rfl
    refine ⟨⟨hok, ?_⟩, ?_, hlen⟩
    · rw [UInt16.lt_iff_toNat_lt, hok.frameVmax, hlen, hvpos, hvs]
      omega
    · rw [hvpos, hvs, hhpos]
      omega
  · rw [h.step_right (by omega)] at hok ⊢
    refine ⟨⟨hok, h.line⟩, ?_, rfl⟩
    have hhs : (b.hpos + 1).toNat = b.hpos.toNat + 1 := toNat_succ (by omega)
    dsimp only
    rw [hhs]
    rfl

/-- The clock that ends the frame brings the beam to its top. -/
theorem RasterBeam.wrap (h : RasterBeam b) (hend : frameClock b + 1 = 227 * frameLength b) :
    (beamStep b 1).hpos = 0 ∧ (beamStep b 1).vpos = 0 := by
  have hh := h.hpos_lt
  have hv := h.vpos_lt
  have hle := frameLength_le h.ok
  unfold frameClock at hend
  have hvs : (b.vpos + 1).toNat = b.vpos.toNat + 1 := toNat_succ (by omega)
  have hwrap : b.vpos + 1 ≥ beamFrameVmax b := by
    rw [ge_iff_le, UInt16.le_iff_toNat_le, h.ok.frameVmax, hvs]
    omega
  rw [h.step_line (by omega)]
  exact ⟨rfl, if_pos hwrap⟩

theorem RasterBeam.clock_lt (h : RasterBeam b) : frameClock b < 227 * frameLength b := by
  have hh := h.hpos_lt
  have hv := h.vpos_lt
  unfold frameClock
  omega

/-- The beam never leaves the raster. -/
theorem RasterBeam.step (h : RasterBeam b) : RasterBeam (beamStep b 1) := by
  have hlt := h.clock_lt
  rcases Nat.lt_or_ge (frameClock b + 1) (227 * frameLength b) with hin | hout
  · exact (h.clock hin).1
  · have hok := h.ok.step
    have hf := hok.frameLines_cases
    refine ⟨hok, ?_⟩
    rw [UInt16.lt_iff_toNat_lt, hok.frameVmax, (h.wrap (by omega)).2]
    unfold frameLength
    simp only [UInt16.toNat_zero]
    omega

/-- **The beam inside its frame is a clock counter.** -/
theorem RasterBeam.run (h : RasterBeam b) :
    ∀ n, frameClock b + n < 227 * frameLength b →
      RasterBeam (beamRun b n) ∧ frameClock (beamRun b n) = frameClock b + n ∧
        frameLength (beamRun b n) = frameLength b
  | 0, _ => ⟨h, rfl, rfl⟩
  | n + 1, hn => by
    obtain ⟨hr, hc, hl⟩ := h.run n (by omega)
    obtain ⟨hr', hc', hl'⟩ := hr.clock (by rw [hc, hl]; omega)
    rw [beamRun_succ]
    exact ⟨hr', by rw [hc', hc]; omega, by rw [hl', hl]⟩

/-! ## The position where VERTB is raised -/

theorem isVertb_iff (b : BeamState) :
    agnusIsVertbPosition b.hpos b.vpos = true ↔ b.vpos.toNat = 0 ∧ b.hpos.toNat = 1 := by
  unfold agnusIsVertbPosition agnusVertbVpos agnusVertbHpos
  rw [Bool.and_eq_true, beq_iff_eq, beq_iff_eq, ← UInt16.toNat_inj, ← UInt16.toNat_inj]
  rfl

theorem isVertb_of_frameClock {b : BeamState} (h : frameClock b = 1) :
    agnusIsVertbPosition b.hpos b.vpos = true := by
  unfold frameClock at h
  exact (Rigel.isVertb_iff b).2 (by omega)

theorem frameClock_of_isVertb {b : BeamState} (h : agnusIsVertbPosition b.hpos b.vpos = true) : frameClock b = 1 := by
  obtain ⟨hv, hh⟩ := (Rigel.isVertb_iff b).1 h
  unfold frameClock
  omega

/-- How far the position is from a beam that is not on it: one clock from the top, else past the end of the frame. -/
def vertbDistance (b : BeamState) : Nat :=
  if frameClock b = 0 then 1 else 227 * frameLength b - frameClock b + 1

/-- The successive clocks on which the stepped beam is on the position. -/
def vertbClocks (b : BeamState) : Set Nat :=
  { k | 1 ≤ k ∧ agnusIsVertbPosition (beamRun b k).hpos (beamRun b k).vpos = true }

/-- The beam after the end of the frame: at the top, and a clock later on the position. -/
theorem RasterBeam.nextFrame (h : RasterBeam b) {n : Nat} (hn : frameClock b + (n + 1) = 227 * frameLength b) :
    frameClock (beamRun b (n + 1)) = 0 ∧ frameClock (beamRun b (n + 2)) = 1 := by
  obtain ⟨hr, hc, hl⟩ := h.run n (by omega)
  obtain ⟨hh0, hv0⟩ := hr.wrap (by rw [hc, hl]; omega)
  rw [beamRun_succ b (n + 1), beamRun_succ b n]
  have htop := hr.step
  have hzero : frameClock (beamStep (beamRun b n) 1) = 0 := by
    unfold frameClock
    rw [hh0, hv0]
    rfl
  have hroom : 262 ≤ frameLength (beamStep (beamRun b n) 1) := by
    have hpos := htop.ok.frameLines_cases
    unfold frameLength
    omega
  exact ⟨hzero, by rw [(htop.clock (by omega)).2.1, hzero]⟩

theorem RasterBeam.vertb_isLeast (h : RasterBeam b) (hoff : agnusIsVertbPosition b.hpos b.vpos = false) :
    IsLeast (vertbClocks b) (vertbDistance b) := by
  have hne : frameClock b ≠ 1 := fun h1 => by
    rw [isVertb_of_frameClock h1] at hoff
    cases hoff
  have hlt := h.clock_lt
  have hroom : 262 ≤ frameLength b := by
    have hpos := h.ok.frameLines_cases
    unfold frameLength
    omega
  unfold vertbDistance
  split
  · rename_i h0
    have hc := (h.run 1 (by omega)).2.1
    exact ⟨⟨le_rfl, isVertb_of_frameClock (by rw [hc, h0])⟩, fun k hk => hk.1⟩
  · rename_i h0
    obtain ⟨n, hn⟩ : ∃ n, 227 * frameLength b = frameClock b + (n + 1) :=
      ⟨227 * frameLength b - frameClock b - 1, by omega⟩
    obtain ⟨htop, hon⟩ := h.nextFrame hn.symm
    have hdist : 227 * frameLength b - frameClock b + 1 = n + 2 := by omega
    rw [hdist]
    refine ⟨⟨by omega, isVertb_of_frameClock hon⟩, fun k hk => ?_⟩
    by_contra hless
    have hv := frameClock_of_isVertb hk.2
    have hk1 := hk.1
    rcases Nat.lt_or_ge k (n + 1) with hin | hout
    · -- still in this frame, and past the position
      rw [(h.run k (by omega)).2.1] at hv
      omega
    · have hk' : k = n + 1 := by omega
      rw [hk', htop] at hv
      cases hv

/-! ## The formula -/

/-- **The VERTB distance, and where it is wrong.** On every raster beam that is not on the position, the formula is the
number of clocks to the next VERTB exactly when the beam is not on the clock just before it, and the frame is not long
or its last line is reached: the formula takes the clock before for one a whole frame away, and leaves out a long
frame's extra line. -/
theorem cyclesToVertb_isLeast_iff (b : BeamState) (h : RasterBeam b)
    (hoff : agnusIsVertbPosition b.hpos b.vpos = false) :
    IsLeast (vertbClocks b) (agnusCyclesToVertb b).toNat ↔
      ¬ (b.vpos = 0 ∧ b.hpos = 0) ∧ (b.lof = 0 ∨ b.frameLines ≤ b.vpos) := by
  have hleast := h.vertb_isLeast hoff
  have hiff : IsLeast (vertbClocks b) (agnusCyclesToVertb b).toNat ↔ (agnusCyclesToVertb b).toNat = vertbDistance b :=
    ⟨fun hl => hl.unique hleast, fun he => by rw [he]; exact hleast⟩
  have hh := h.hpos_lt
  have hv := h.vpos_lt
  have hf := h.ok.frameLines_cases
  have htop : b.vpos = 0 ∧ b.hpos = 0 ↔ frameClock b = 0 := by
    rw [← UInt16.toNat_inj, ← UInt16.toNat_inj]
    unfold frameClock
    simp only [UInt16.toNat_zero]
    omega
  rw [hiff, h.ok.cyclesToVertb hoff, htop, UInt16.le_iff_toNat_le]
  unfold vertbDistance frameClock
  unfold frameLength at hv ⊢
  by_cases hl : b.lof = 0
  · simp only [hl, if_true, true_or, and_true] at hv ⊢
    split <;> omega
  · simp only [hl, if_false, false_or] at hv ⊢
    split <;> omega

end

/-- A PAL beam in the middle of a long frame. -/
def longFrameBeam : BeamState := { beamReset with frameLines := 312, lof := 1, lofToggle := 1, vpos := 100, hpos := 5 }

theorem cyclesToVertb_isLeast_iff_long :
    IsLeast (vertbClocks longFrameBeam) (agnusCyclesToVertb longFrameBeam).toNat ↔
      ¬ (longFrameBeam.vpos = 0 ∧ longFrameBeam.hpos = 0) ∧
        (longFrameBeam.lof = 0 ∨ longFrameBeam.frameLines ≤ longFrameBeam.vpos) :=
  cyclesToVertb_isLeast_iff longFrameBeam ⟨⟨rfl, .inr rfl, by decide, by decide, rfl, rfl⟩, by decide⟩ rfl

/-- From the top of the frame VERTB is one clock away; the formula says a frame and a clock. -/
theorem cyclesToVertb_top : ¬ IsLeast (vertbClocks beamReset) (agnusCyclesToVertb beamReset).toNat := by
  intro hleast
  have hone : 1 ∈ vertbClocks beamReset := ⟨le_rfl, by decide +kernel⟩
  exact absurd (hleast.2 hone) (by decide)

end Rigel
