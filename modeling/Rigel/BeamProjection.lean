import Rigel.Invariant

/-!
# BeamProjection — a geometry snapshot against the stepped beam

`core/rigel_beam_api.c`. A host thread may take a snapshot of the beam and compute later positions from it by division,
without the context. The stepping beam is the reference: `progressive_run` says where it is after any number of clocks,
by induction over the run, and the division formula agrees with it.
-/

namespace Rigel

structure RigelBeamGeometry where
  time : UInt64
  vpos : UInt16
  hpos : UInt16
  lineClocks : UInt16
  frameLines : UInt16
  lof : UInt8
  lol : UInt8
  lofToggle : UInt8
  lolToggle : UInt8
  vposrHigh : UInt16
  deriving Repr, DecidableEq

def rigelGetBeamGeometry (ctx : RigelContext) : RigelBeamGeometry where
  time := ctx.cycles
  vpos := ctx.agnus.beam.vpos
  hpos := ctx.agnus.beam.hpos
  lineClocks := ctx.agnus.beam.lineClocks
  frameLines := ctx.agnus.beam.frameLines
  lof := ctx.agnus.beam.lof
  lol := ctx.agnus.beam.lol
  lofToggle := ctx.agnus.beam.lofToggle
  lolToggle := ctx.agnus.beam.lolToggle
  vposrHigh := (ctx.agnus.beam.lof.toUInt16 <<< 15) ||| (agnusVposrChipId ctx.agnus <<< 8)

/-- `rigel_beam_position_at`: the position `(vpos, hpos)` where the source answers `true`. -/
def rigelBeamPositionAt (g : RigelBeamGeometry) (time : UInt64) : Option (UInt16 × UInt16) :=
  if time < g.time ∨ g.lineClocks = 0 ∨ g.frameLines = 0 ∨ g.hpos ≥ g.lineClocks ∨ g.vpos ≥ g.frameLines then none
  else if g.lof ≠ 0 ∨ g.lol ≠ 0 ∨ g.lofToggle ≠ 0 ∨ g.lolToggle ≠ 0 then none
  else
    let clocks := g.hpos.toUInt64 + (time - g.time)
    let lines := clocks / g.lineClocks.toUInt64
    some (((g.vpos.toUInt64 + lines) % g.frameLines.toUInt64).toUInt16, (clocks % g.lineClocks.toUInt64).toUInt16)

/-! ## The progressive beam -/

/-- A beam without interlace, inside its frame. -/
structure Progressive (b : BeamState) : Prop where
  ok : BeamOk b
  vpos : b.vpos < b.frameLines
  lof : b.lof = 0
  lofToggle : b.lofToggle = 0

/-- `clocks` single clocks of the beam. -/
def beamRun (b : BeamState) (clocks : Nat) : BeamState := (fun b => beamStep b 1)^[clocks] b

theorem beamRun_succ (b : BeamState) (n : Nat) : beamRun b (n + 1) = beamStep (beamRun b n) 1 :=
  Function.iterate_succ_apply' _ _ _

/-- One clock of a progressive beam: right inside the line, down at its end, to the top at the frame's. -/
theorem Progressive.step_eq {b : BeamState} (h : Progressive b) :
    beamStep b 1 =
      { b with
        hpos := if b.hpos + 1 = 227 then 0 else b.hpos + 1
        vpos := if b.hpos + 1 = 227 then (if b.vpos + 1 = b.frameLines then 0 else b.vpos + 1) else b.vpos
        frameCount :=
          if b.hpos + 1 = 227 then (if b.vpos + 1 = b.frameLines then b.frameCount + 1 else b.frameCount)
          else b.frameCount } := by
  have hv := h.vpos
  have hlol := h.ok.lol
  have hfr := h.ok.frameLines
  have hwrap : b.vpos + 1 ≥ beamFrameVmax b ↔ b.vpos + 1 = b.frameLines := by
    simp only [beamFrameVmax, h.lof, ne_eq, not_true_eq_false, if_false]
    grind
  rw [h.ok.beamStep_one]
  by_cases hw : b.hpos + 1 = 227
  · simp only [hw, if_true, beamAdvanceLine, hwrap, h.lofToggle, h.ok.lolToggle, ne_eq, not_true_eq_false, if_false]
    by_cases hf : b.vpos + 1 = b.frameLines
    · simp only [hf, if_true, h.lof, hlol]
    · simp only [hf, if_false, hlol]
  · simp only [hw, if_false]

theorem Progressive.step {b : BeamState} (h : Progressive b) : Progressive (beamStep b 1) := by
  have hok := h.ok.step
  have hv := h.vpos
  have hfr := h.ok.frameLines
  have he := h.step_eq
  rw [he] at hok ⊢
  refine ⟨hok, ?_, h.lof, h.lofToggle⟩
  simp only
  split
  · split <;> grind
  · exact hv

/-- **Where a progressive beam is after `n` clocks.** -/
structure ProgressiveAt (b : BeamState) (n : Nat) (b' : BeamState) : Prop where
  progressive : Progressive b'
  frameLines : b'.frameLines = b.frameLines
  hpos : b'.hpos.toNat = (b.hpos.toNat + n) % 227
  vpos : b'.vpos.toNat = (b.vpos.toNat + (b.hpos.toNat + n) / 227) % b.frameLines.toNat
  frameCount : b'.frameCount =
    b.frameCount + UInt64.ofNat ((b.vpos.toNat + (b.hpos.toNat + n) / 227) / b.frameLines.toNat)

theorem Progressive.hpos_lt {b : BeamState} (h : Progressive b) : b.hpos.toNat < 227 := by
  have := h.ok.hpos
  rwa [UInt16.lt_iff_toNat_lt] at this

theorem Progressive.vpos_lt {b : BeamState} (h : Progressive b) : b.vpos.toNat < b.frameLines.toNat := by
  have := h.vpos
  rwa [UInt16.lt_iff_toNat_lt] at this

theorem Progressive.frameLines_le {b : BeamState} (h : Progressive b) :
    0 < b.frameLines.toNat ∧ b.frameLines.toNat ≤ 312 := by
  rcases h.ok.frameLines with hf | hf <;> rw [hf] <;> decide

theorem succ_eq_iff_toNat {x y : UInt16} (hx : x.toNat < 65535) : x + 1 = y ↔ x.toNat + 1 = y.toNat := by
  rw [← UInt16.toNat_inj, UInt16.toNat_add]
  simp only [UInt16.reduceToNat]
  omega

theorem toNat_succ {x : UInt16} (hx : x.toNat < 65535) : (x + 1).toNat = x.toNat + 1 := by
  rw [UInt16.toNat_add]
  simp only [UInt16.reduceToNat]
  omega

theorem progressiveAt_zero {b : BeamState} (h : Progressive b) : ProgressiveAt b 0 b := by
  have hh := h.hpos_lt
  have hv := h.vpos_lt
  have hd : b.hpos.toNat / 227 = 0 := Nat.div_eq_of_lt hh
  refine ⟨h, rfl, (Nat.mod_eq_of_lt hh).symm, ?_, ?_⟩
  · rw [Nat.add_zero, hd, Nat.add_zero, Nat.mod_eq_of_lt hv]
  · rw [Nat.add_zero, hd, Nat.add_zero, Nat.div_eq_of_lt hv]
    exact (UInt64.add_zero _).symm

/-- The line and clock counters after one more clock, in numbers. -/
theorem clock_succ (c : Nat) :
    (c % 227 + 1 = 227 → (c + 1) % 227 = 0 ∧ (c + 1) / 227 = c / 227 + 1) ∧
      (c % 227 + 1 ≠ 227 → (c + 1) % 227 = c % 227 + 1 ∧ (c + 1) / 227 = c / 227) := by
  constructor <;> intro h <;> constructor <;> omega

/-- The frame counter after one more line, for a frame of `f` lines. -/
theorem line_succ {f : Nat} (hf : 0 < f) (l : Nat) :
    (l % f + 1 = f → (l + 1) % f = 0 ∧ (l + 1) / f = l / f + 1) ∧
      (l % f + 1 ≠ f → (l + 1) % f = l % f + 1 ∧ (l + 1) / f = l / f) := by
  have hl := Nat.div_add_mod l f
  constructor
  · intro h
    have he : l + 1 = f * (l / f + 1) := by rw [Nat.mul_add]; omega
    rw [he]
    exact ⟨Nat.mul_mod_right _ _, Nat.mul_div_cancel_left _ hf⟩
  · intro h
    have he : l + 1 = (l % f + 1) + f * (l / f) := by omega
    have hlt : l % f + 1 < f := by
      have hm := Nat.mod_lt l hf
      omega
    rw [he, Nat.add_mul_mod_self_left, Nat.add_mul_div_left _ _ hf, Nat.mod_eq_of_lt hlt, Nat.div_eq_of_lt hlt]
    simp

theorem ProgressiveAt.step {b b' : BeamState} {n : Nat} (h : ProgressiveAt b n b') :
    ProgressiveAt b (n + 1) (beamStep b' 1) := by
  have hp := h.progressive
  have hh := hp.hpos_lt
  have hv := hp.vpos_lt
  obtain ⟨hf0, hf⟩ := hp.frameLines_le
  rw [h.frameLines] at hv hf0 hf
  have hclk := clock_succ (b.hpos.toNat + n)
  have hlin := line_succ hf0 (b.vpos.toNat + (b.hpos.toNat + n) / 227)
  rw [← h.hpos] at hclk
  rw [← h.vpos] at hlin
  have hhw : b'.hpos + 1 = 227 ↔ b'.hpos.toNat + 1 = 227 := succ_eq_iff_toNat (by omega)
  have hvw : b'.vpos + 1 = b'.frameLines ↔ b'.vpos.toNat + 1 = b.frameLines.toNat := by
    rw [succ_eq_iff_toNat (by omega), h.frameLines]
  have hstep := hp.step
  rw [hp.step_eq] at hstep ⊢
  by_cases hw : b'.hpos + 1 = 227
  · obtain ⟨hm, hd⟩ := hclk.1 (hhw.mp hw)
    by_cases hfw : b'.vpos + 1 = b'.frameLines
    · obtain ⟨lm, ld⟩ := hlin.1 (hvw.mp hfw)
      simp only [hw, hfw, if_true] at hstep ⊢
      refine ⟨hstep, h.frameLines, hm.symm, ?_, ?_⟩
      · rw [← Nat.add_assoc, hd, ← Nat.add_assoc, lm]
        rfl
      · rw [← Nat.add_assoc, hd, ← Nat.add_assoc, ld, h.frameCount, UInt64.ofNat_add]
        exact UInt64.add_assoc _ _ _
    · obtain ⟨lm, ld⟩ := hlin.2 fun e => hfw (hvw.mpr e)
      simp only [hw, hfw, if_true, if_false] at hstep ⊢
      refine ⟨hstep, h.frameLines, hm.symm, ?_, ?_⟩
      · rw [← Nat.add_assoc, hd, ← Nat.add_assoc, lm, toNat_succ (by omega)]
      · rw [← Nat.add_assoc, hd, ← Nat.add_assoc, ld, h.frameCount]
  · obtain ⟨hm, hd⟩ := hclk.2 fun e => hw (hhw.mpr e)
    simp only [hw, if_false] at hstep ⊢
    refine ⟨hstep, h.frameLines, ?_, ?_, ?_⟩
    · rw [← Nat.add_assoc, hm, toNat_succ (by omega)]
    · rw [← Nat.add_assoc, hd, h.vpos]
    · rw [← Nat.add_assoc, hd, h.frameCount]

/-- **The run of a progressive beam.** -/
theorem progressive_run {b : BeamState} (h : Progressive b) (n : Nat) : ProgressiveAt b n (beamRun b n) := by
  induction n with
  | zero => exact progressiveAt_zero h
  | succ n ih =>
    rw [beamRun_succ]
    exact ih.step

/-! ## The projection -/

theorem rigelBeamPositionAt_some {g : RigelBeamGeometry} {t : UInt64} {p : UInt16 × UInt16}
    (h : rigelBeamPositionAt g t = some p) :
    g.time ≤ t ∧ g.vpos < g.frameLines ∧ g.lof = 0 ∧ g.lofToggle = 0 ∧
      p = (((g.vpos.toUInt64 + (g.hpos.toUInt64 + (t - g.time)) / g.lineClocks.toUInt64) %
          g.frameLines.toUInt64).toUInt16, ((g.hpos.toUInt64 + (t - g.time)) % g.lineClocks.toUInt64).toUInt16) := by
  unfold rigelBeamPositionAt at h
  split at h
  · cases h
  · rename_i hr
    split at h
    · cases h
    · rename_i hl
      simp only [not_or, ge_iff_le, UInt16.not_le, UInt64.not_lt, ne_eq, Decidable.not_not] at hr hl
      exact ⟨hr.1, hr.2.2.2.2, hl.1, hl.2.2.1, (Option.some.inj h).symm⟩

/-- The division formula in numbers, for a snapshot of 227 clocks a line whose clock count does not overflow. -/
theorem projection_toNat (vpos : UInt16) {hpos frameLines : UInt16} {elapsed : UInt64} (hf : 0 < frameLines.toNat)
    (hov : hpos.toNat + elapsed.toNat < 2 ^ 64) :
    ((vpos.toUInt64 + (hpos.toUInt64 + elapsed) / (227 : UInt16).toUInt64) % frameLines.toUInt64).toUInt16.toNat =
        (vpos.toNat + (hpos.toNat + elapsed.toNat) / 227) % frameLines.toNat ∧
      ((hpos.toUInt64 + elapsed) % (227 : UInt16).toUInt64).toUInt16.toNat = (hpos.toNat + elapsed.toNat) % 227 := by
  have hc : (hpos.toUInt64 + elapsed).toNat = hpos.toNat + elapsed.toNat := by
    rw [UInt64.toNat_add, UInt16.toNat_toUInt64, Nat.mod_eq_of_lt hov]
  have h227 : ((227 : UInt16).toUInt64).toNat = 227 := by decide
  have hl : ((hpos.toUInt64 + elapsed) / (227 : UInt16).toUInt64).toNat = (hpos.toNat + elapsed.toNat) / 227 := by
    rw [UInt64.toNat_div, hc, h227]
  have hvb := vpos.toNat_lt
  have hfb := frameLines.toNat_lt
  constructor
  · have hm := Nat.mod_lt (vpos.toNat + (hpos.toNat + elapsed.toNat) / 227) hf
    rw [UInt64.toNat_toUInt16, UInt64.toNat_mod, UInt64.toNat_add, hl, UInt16.toNat_toUInt64, UInt16.toNat_toUInt64,
      Nat.mod_eq_of_lt (by omega : vpos.toNat + (hpos.toNat + elapsed.toNat) / 227 < 2 ^ 64)]
    exact Nat.mod_eq_of_lt (by omega)
  · have hm := Nat.mod_lt (hpos.toNat + elapsed.toNat) (by decide : 227 > 0)
    rw [UInt64.toNat_toUInt16, UInt64.toNat_mod, hc, h227]
    exact Nat.mod_eq_of_lt (by omega)

/-- **The projection agrees with the stepped beam.** For a snapshot of any reachable context and any later time, an
answer is the position of the beam after that many single clocks; and a snapshot without interlace, inside its line and
frame, is always answered. -/
theorem beamProjection_agrees {ctx : RigelContext} (h : Reachable ctx) (t : UInt64)
    (ht : (rigelGetBeamGeometry ctx).time ≤ t)
    (hov : (rigelGetBeamGeometry ctx).hpos.toNat + (t - (rigelGetBeamGeometry ctx).time).toNat < 2 ^ 64) :
    (∀ vpos hpos, rigelBeamPositionAt (rigelGetBeamGeometry ctx) t = some (vpos, hpos) →
      vpos = (beamRun ctx.agnus.beam (t - (rigelGetBeamGeometry ctx).time).toNat).vpos ∧
        hpos = (beamRun ctx.agnus.beam (t - (rigelGetBeamGeometry ctx).time).toNat).hpos) ∧
      ((rigelGetBeamGeometry ctx).lof = 0 → (rigelGetBeamGeometry ctx).lol = 0 →
        (rigelGetBeamGeometry ctx).lofToggle = 0 → (rigelGetBeamGeometry ctx).lolToggle = 0 →
        (rigelGetBeamGeometry ctx).hpos < (rigelGetBeamGeometry ctx).lineClocks →
        (rigelGetBeamGeometry ctx).vpos < (rigelGetBeamGeometry ctx).frameLines →
        (rigelBeamPositionAt (rigelGetBeamGeometry ctx) t).isSome = true) := by
  have hok := h.agnusOk.beam
  constructor
  · intro vpos hpos hp
    obtain ⟨-, hv, hlof, htog, he⟩ := rigelBeamPositionAt_some hp
    have hb : Progressive ctx.agnus.beam := ⟨hok, hv, hlof, htog⟩
    have hrun := progressive_run hb (t - (rigelGetBeamGeometry ctx).time).toNat
    have hnum := projection_toNat ctx.agnus.beam.vpos hb.frameLines_le.1 hov
    have hline : (rigelGetBeamGeometry ctx).lineClocks = 227 := hok.lineClocks
    rw [hline] at he
    obtain ⟨rfl, rfl⟩ := Prod.mk.inj he
    exact ⟨UInt16.toNat_inj.mp (hnum.1.trans hrun.vpos.symm), UInt16.toNat_inj.mp (hnum.2.trans hrun.hpos.symm)⟩
  · intro hlof hlol htog hltog hh hv
    have hfr : (rigelGetBeamGeometry ctx).frameLines ≠ 0 := hok.frameLines_ne
    have hlc : (rigelGetBeamGeometry ctx).lineClocks ≠ 0 := by
      intro e
      rw [e] at hh
      exact absurd hh (UInt16.not_lt_zero)
    simp [rigelBeamPositionAt, hlof, hlol, htog, hltog, hfr, hlc, hh, hv, ht]

/-- A fresh PAL context, asked one line and one clock ahead. -/
theorem beamProjection_agrees_next_line :
    rigelBeamPositionAt (rigelGetBeamGeometry (rigelCreate ⟨.pal, false, false, true, true⟩
        ⟨.ocs, 0x80000, true, true, fun _ => 0⟩)) 228 = some (1, 1) ∧
      (beamRun (rigelCreate ⟨.pal, false, false, true, true⟩ ⟨.ocs, 0x80000, true, true, fun _ => 0⟩).agnus.beam
        228).vpos = 1 := by
  have hp : rigelBeamPositionAt (rigelGetBeamGeometry (rigelCreate ⟨.pal, false, false, true, true⟩
      ⟨.ocs, 0x80000, true, true, fun _ => 0⟩)) 228 = some (1, 1) := by decide +kernel
  have ha := (beamProjection_agrees (.create ⟨.pal, false, false, true, true⟩ ⟨.ocs, 0x80000, true, true, fun _ => 0⟩)
    228 (by decide +kernel) (by decide +kernel)).1 1 1 hp
  exact ⟨hp, ha.1.symm⟩

end Rigel
