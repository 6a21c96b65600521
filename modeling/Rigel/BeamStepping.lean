import Rigel.BeamProjection
import Rigel.Countdown

/-!
# BeamStepping — the beam over a span of clocks, however it is cut up

`beam_step` takes its clocks in chunks that end with the line, whose length may change from one line to the next. The
beam counts down to the end of its line, so that its chunks are single clocks and a span may be cut up in any way. A
frame is then so many lines, each of which brings the beam back to its column one line further down.
-/

namespace Rigel

/-! ## The countdown to the end of the line -/

/-- A beam on its line, with room for one more clock and one more line in the 16-bit counters. -/
structure InLine (b : BeamState) : Prop where
  lineClocks_pos : 0 < b.lineClocks.toNat
  lineClocks_lt : b.lineClocks.toNat < 65535
  frameLines_pos : 0 < b.frameLines.toNat
  frameLines_lt : b.frameLines.toNat < 65535
  vpos_lt : b.vpos.toNat < 65535
  hpos_lt : b.hpos < beamLineHmax b

def beamCountdown : Countdown BeamState where
  need b := (beamLineHmax b).toNat - b.hpos.toNat
  spend b n := { b with hpos := b.hpos + UInt16.ofNat n }
  fire := beamAdvanceLine

variable {b : BeamState}

theorem beamLineHmax_toNat (h : b.lineClocks.toNat < 65535) :
    (beamLineHmax b).toNat = b.lineClocks.toNat + if b.lol ≠ 0 then 1 else 0 := by
  unfold beamLineHmax
  split
  · rw [UInt16.toNat_add]
    simp only [UInt16.reduceToNat]
    omega
  · rw [UInt16.toNat_add]
    simp only [UInt16.reduceToNat]
    omega

theorem beamFrameVmax_toNat (h : b.frameLines.toNat < 65535) :
    (beamFrameVmax b).toNat = b.frameLines.toNat + if b.lof ≠ 0 then 1 else 0 := by
  unfold beamFrameVmax
  split
  · rw [UInt16.toNat_add]
    simp only [UInt16.reduceToNat]
    omega
  · rw [UInt16.toNat_add]
    simp only [UInt16.reduceToNat]
    omega

theorem InLine.hpos_toNat (h : InLine b) : b.hpos.toNat < (beamLineHmax b).toNat := UInt16.lt_iff_toNat_lt.mp h.hpos_lt

theorem InLine.need_pos (h : InLine b) : 0 < beamCountdown.need b := Nat.sub_pos_of_lt h.hpos_toNat

/-- The column after some clocks that stay on the line. -/
theorem beamCountdown_hpos {n : Nat} (hn : n < beamCountdown.need b) :
    (b.hpos + UInt16.ofNat n).toNat = b.hpos.toNat + n := by
  have hmax := (beamLineHmax b).toNat_lt
  have hlt : b.hpos.toNat + n < (beamLineHmax b).toNat := Nat.add_lt_of_lt_sub' hn
  rw [UInt16.toNat_add, UInt16.toNat_ofNat', Nat.add_mod_mod, Nat.mod_eq_of_lt (by omega)]

theorem InLine.vpos_succ (h : InLine b) : (b.vpos + 1).toNat = b.vpos.toNat + 1 := toNat_succ h.vpos_lt

theorem InLine.wraps_iff (h : InLine b) :
    b.vpos + 1 ≥ beamFrameVmax b ↔ (beamFrameVmax b).toNat ≤ b.vpos.toNat + 1 := by
  rw [ge_iff_le, UInt16.le_iff_toNat_le, h.vpos_succ]

theorem InLine.advanceLine (h : InLine b) : InLine (beamAdvanceLine b) := by
  refine ⟨h.lineClocks_pos, h.lineClocks_lt, h.frameLines_pos, h.frameLines_lt, ?_, ?_⟩
  · have hmax := (beamFrameVmax b).toNat_lt
    have hwraps := h.wraps_iff
    unfold beamAdvanceLine
    simp only
    split
    · decide
    · rename_i hwrap
      rw [hwraps] at hwrap
      rw [h.vpos_succ]
      omega
  · have hlen := @beamLineHmax_toNat (beamAdvanceLine b) h.lineClocks_lt
    have hpos := h.lineClocks_pos
    rw [UInt16.lt_iff_toNat_lt, hlen]
    exact Nat.lt_add_right _ hpos

theorem beamCountdown_lawful : beamCountdown.Lawful InLine where
  need_pos _ h := h.need_pos
  need_spend b n h hn := by
    show (beamLineHmax b).toNat - (b.hpos + UInt16.ofNat n).toNat = (beamLineHmax b).toNat - b.hpos.toNat - n
    rw [beamCountdown_hpos hn, Nat.sub_sub]
  spend_zero b _ := by
    show { b with hpos := b.hpos + 0 } = b
    rw [UInt16.add_zero]
  spend_add b n m _ _ := by
    show { b with hpos := b.hpos + UInt16.ofNat (n + m) } =
      { b with hpos := b.hpos + UInt16.ofNat n + UInt16.ofNat m }
    rw [UInt16.ofNat_add, UInt16.add_assoc]
  fire_spend _ _ _ _ := rfl
  ok_spend b n h hn := by
    refine ⟨h.lineClocks_pos, h.lineClocks_lt, h.frameLines_pos, h.frameLines_lt, h.vpos_lt, ?_⟩
    rw [UInt16.lt_iff_toNat_lt]
    show (b.hpos + UInt16.ofNat n).toNat < (beamLineHmax b).toNat
    rw [beamCountdown_hpos hn]
    exact Nat.add_lt_of_lt_sub' hn
  ok_fire _ h := h.advanceLine

/-! ## The loop -/

theorem InLine.stepPass (h : InLine b) (clocks : UInt16) :
    (beamStepPass b clocks).1 = (beamCountdown.pass b clocks.toNat).1 ∧
      (beamStepPass b clocks).2.toNat = (beamCountdown.pass b clocks.toNat).2 := by
  have hh := h.hpos_toNat
  have hle : b.hpos ≤ beamLineHmax b := UInt16.le_iff_toNat_le.mpr (Nat.le_of_lt hh)
  have hneed : (beamLineHmax b - b.hpos).toNat = beamCountdown.need b := UInt16.toNat_sub_of_le _ _ hle
  have hpos := h.need_pos
  have hne : beamLineHmax b - b.hpos ≠ 0 := by
    intro e
    rw [e] at hneed
    exact absurd hneed (Nat.ne_of_lt hpos)
  have hend : b.hpos + (beamLineHmax b - b.hpos) = beamLineHmax b := by
    rw [UInt16.add_comm, UInt16.sub_add_cancel]
  have hlt : clocks < beamLineHmax b - b.hpos ↔ clocks.toNat < beamCountdown.need b := by
    rw [UInt16.lt_iff_toNat_lt, hneed]
  unfold beamStepPass Countdown.pass
  simp only [if_neg hne, hlt, hend, ge_iff_le, UInt16.le_refl, if_true]
  split
  · refine ⟨?_, rfl⟩
    show { b with hpos := b.hpos + clocks } = { b with hpos := b.hpos + UInt16.ofNat clocks.toNat }
    rw [UInt16.ofNat_toNat]
  · rename_i hge
    refine ⟨rfl, ?_⟩
    rw [UInt16.toNat_sub_of_le _ _ (UInt16.le_iff_toNat_le.mpr (by omega)), hneed]

/-- **The loop takes its clocks one by one and leaves none.** -/
theorem InLine.stepLoop : ∀ (fuel : Nat) {b : BeamState} (_ : InLine b) {clocks : UInt16}, clocks.toNat ≤ fuel →
    beamStepLoop fuel b clocks = (beamCountdown.tick^[clocks.toNat] b, 0)
  | 0, b, h, clocks, hf => by
    have hzero : clocks = 0 := UInt16.toNat_inj.mp (Nat.le_zero.mp hf)
    subst hzero
    rfl
  | fuel + 1, b, h, clocks, hf => by
    unfold beamStepLoop
    split
    · rename_i hzero
      subst hzero
      rfl
    · rename_i hne
      have hpos : 0 < clocks.toNat := Nat.pos_of_ne_zero fun e => hne (UInt16.toNat_inj.mp e)
      obtain ⟨hbeam, hleft⟩ := h.stepPass clocks
      have hless := beamCountdown_lawful.pass_lt h hpos
      have hok := beamCountdown_lawful.ok_pass h clocks.toNat
      rw [← hbeam] at hok
      rw [InLine.stepLoop fuel hok (by omega), hleft, hbeam, ← beamCountdown_lawful.iterate_pass h]

theorem InLine.step_eq (h : InLine b) (clocks : UInt16) : beamStep b clocks = beamCountdown.tick^[clocks.toNat] b := by
  have hlc : b.lineClocks ≠ 0 := fun e => absurd h.lineClocks_pos (by rw [e]; decide)
  have hfl : b.frameLines ≠ 0 := fun e => absurd h.frameLines_pos (by rw [e]; decide)
  unfold beamStep
  simp only [hlc, hfl, or_self, if_false]
  rw [InLine.stepLoop _ h (by omega)]

theorem InLine.step (h : InLine b) (clocks : UInt16) : InLine (beamStep b clocks) := by
  rw [h.step_eq]
  exact beamCountdown_lawful.ok_iterate h _

theorem InLine.step_add (h : InLine b) {m n : UInt16} (hfit : m.toNat + n.toNat < 2 ^ 16) :
    beamStep b (m + n) = beamStep (beamStep b m) n := by
  rw [h.step_eq, (h.step m).step_eq, h.step_eq, ← Function.iterate_add_apply, UInt16.toNat_add,
    Nat.mod_eq_of_lt hfit, Nat.add_comm]

/-! ## Frames -/

/-- The first clock of a frame. -/
def frameTop (b : BeamState) : Bool := b.hpos == 0 && b.vpos == 0

/-- **One clock counts a frame exactly when it brings the beam back to the top.** -/
theorem InLine.tick_frameCount (h : InLine b) :
    (beamCountdown.tick b).frameCount = b.frameCount + if frameTop (beamCountdown.tick b) then 1 else 0 := by
  have hpos := h.need_pos
  unfold Countdown.tick
  split
  · have hwraps := h.wraps_iff
    have hne : b.vpos + 1 ≠ 0 := fun e => by
      have hsucc := h.vpos_succ
      rw [e] at hsucc
      exact absurd hsucc (Nat.succ_ne_zero _).symm
    show (beamAdvanceLine b).frameCount = b.frameCount + if frameTop (beamAdvanceLine b) then 1 else 0
    by_cases hwrap : b.vpos + 1 ≥ beamFrameVmax b
    · simp [beamAdvanceLine, frameTop, hwrap]
    · simp [beamAdvanceLine, frameTop, hwrap, hne]
  · rename_i hone
    have hcol := beamCountdown_hpos (b := b) (n := 1) (by omega)
    have hne : b.hpos + UInt16.ofNat 1 ≠ 0 := fun e => by
      rw [e] at hcol
      exact absurd hcol (Nat.succ_ne_zero _).symm
    have htop : frameTop (beamCountdown.spend b 1) = false := by
      show (b.hpos + UInt16.ofNat 1 == 0 && b.vpos == 0) = false
      rw [beq_eq_false_iff_ne.mpr hne, Bool.false_and]
    rw [htop]
    exact (UInt64.add_zero _).symm

theorem InLine.iterate_frameCount (h : InLine b) : ∀ n : Nat,
    (beamCountdown.tick^[n] b).frameCount =
      b.frameCount + UInt64.ofNat ((List.range n).countP fun k => frameTop (beamCountdown.tick^[k + 1] b))
  | 0 => (UInt64.add_zero _).symm
  | n + 1 => by
    have hok := beamCountdown_lawful.ok_iterate h n
    rw [Function.iterate_succ_apply', hok.tick_frameCount, h.iterate_frameCount n, List.range_succ, List.countP_append,
      List.countP_singleton, Function.iterate_succ_apply', UInt64.ofNat_add, UInt64.add_assoc]
    split <;> rfl

theorem InLine.step_frameCount (h : InLine b) (clocks : UInt16) :
    (beamStep b clocks).frameCount =
      b.frameCount +
        UInt64.ofNat ((List.range clocks.toNat).countP fun k => frameTop (beamStep b (UInt16.ofNat (k + 1)))) := by
  rw [h.step_eq, h.iterate_frameCount]
  refine congrArg (fun k => b.frameCount + UInt64.ofNat k) (List.countP_congr fun k hk => ?_)
  have hlt := clocks.toNat_lt
  have hk := List.mem_range.mp hk
  rw [h.step_eq, UInt16.toNat_ofNat', Nat.mod_eq_of_lt (by omega)]

/-! ## A frame as a number of lines -/

/-- A beam inside its frame whose lines all have the same length. -/
structure InFrame (b : BeamState) : Prop where
  line : InLine b
  vpos_lt : b.vpos < beamFrameVmax b
  lol : b.lol = 0
  lolToggle : b.lolToggle = 0

/-- The frame counts down in lines, at whatever column. -/
def frameCountdown : Countdown BeamState where
  need b := (beamFrameVmax b).toNat - b.vpos.toNat
  spend b n := { b with vpos := b.vpos + UInt16.ofNat n }
  fire b :=
    { b with
      vpos := 0
      frameCount := b.frameCount + 1
      lof := if b.lofToggle ≠ 0 then b.lof ^^^ 1 else 0 }

theorem InFrame.vpos_toNat (h : InFrame b) : b.vpos.toNat < (beamFrameVmax b).toNat := UInt16.lt_iff_toNat_lt.mp h.vpos_lt

/-- The line after some lines that stay in the frame. -/
theorem frameCountdown_vpos {n : Nat} (hn : n < frameCountdown.need b) :
    (b.vpos + UInt16.ofNat n).toNat = b.vpos.toNat + n := by
  have hmax := (beamFrameVmax b).toNat_lt
  have hlt : b.vpos.toNat + n < (beamFrameVmax b).toNat := Nat.add_lt_of_lt_sub' hn
  rw [UInt16.toNat_add, UInt16.toNat_ofNat', Nat.add_mod_mod, Nat.mod_eq_of_lt (by omega)]

theorem InFrame.at_line (h : InFrame b) {n : Nat} (hn : n < frameCountdown.need b) :
    InFrame (frameCountdown.spend b n) := by
  have hvpos := frameCountdown_vpos hn
  have hmax := beamFrameVmax_toNat h.line.frameLines_lt
  have hlt : b.vpos.toNat + n < (beamFrameVmax b).toNat := Nat.add_lt_of_lt_sub' hn
  have hlast : (beamFrameVmax b).toNat ≤ 65535 := Nat.le_of_lt_succ (beamFrameVmax b).toNat_lt
  refine ⟨⟨h.line.lineClocks_pos, h.line.lineClocks_lt, h.line.frameLines_pos, h.line.frameLines_lt, ?_,
    h.line.hpos_lt⟩, ?_, h.lol, h.lolToggle⟩
  · show (b.vpos + UInt16.ofNat n).toNat < 65535
    omega
  · show b.vpos + UInt16.ofNat n < beamFrameVmax b
    rw [UInt16.lt_iff_toNat_lt, hvpos]
    exact hlt

theorem InFrame.next_frame (h : InFrame b) : InFrame (frameCountdown.fire b) := by
  have hmax := @beamFrameVmax_toNat (frameCountdown.fire b) h.line.frameLines_lt
  have hpos := h.line.frameLines_pos
  refine ⟨⟨h.line.lineClocks_pos, h.line.lineClocks_lt, h.line.frameLines_pos, h.line.frameLines_lt, Nat.succ_pos _,
    h.line.hpos_lt⟩, ?_, h.lol, h.lolToggle⟩
  rw [UInt16.lt_iff_toNat_lt, hmax]
  exact Nat.lt_add_right _ hpos

theorem frameCountdown_lawful : frameCountdown.Lawful InFrame where
  need_pos _ h := Nat.sub_pos_of_lt h.vpos_toNat
  need_spend b n h hn := by
    show (beamFrameVmax b).toNat - (b.vpos + UInt16.ofNat n).toNat = (beamFrameVmax b).toNat - b.vpos.toNat - n
    rw [frameCountdown_vpos hn, Nat.sub_sub]
  spend_zero b _ := by
    show { b with vpos := b.vpos + 0 } = b
    rw [UInt16.add_zero]
  spend_add b n m _ _ := by
    show { b with vpos := b.vpos + UInt16.ofNat (n + m) } =
      { b with vpos := b.vpos + UInt16.ofNat n + UInt16.ofNat m }
    rw [UInt16.ofNat_add, UInt16.add_assoc]
  fire_spend _ _ _ _ := rfl
  ok_spend _ _ h hn := h.at_line hn
  ok_fire _ h := h.next_frame

theorem InFrame.advanceLine (h : InFrame b) : beamAdvanceLine b = { frameCountdown.tick b with hpos := 0 } := by
  have hv := h.vpos_toNat
  have hlast : b.vpos + 1 ≥ beamFrameVmax b ↔ frameCountdown.need b = 1 := by
    rw [h.line.wraps_iff]
    show _ ↔ (beamFrameVmax b).toNat - b.vpos.toNat = 1
    omega
  unfold beamAdvanceLine Countdown.tick
  simp only [hlast]
  split <;> simp [frameCountdown, h.lol, h.lolToggle]

/-- **As many clocks as the line has bring the beam to the same column one line further on.** -/
theorem InFrame.line_clocks (h : InFrame b) : beamCountdown.tick^[b.lineClocks.toNat] b = frameCountdown.tick b := by
  have hmax : (beamLineHmax b).toNat = b.lineClocks.toNat := by
    rw [beamLineHmax_toNat h.line.lineClocks_lt, h.lol]
    rfl
  have hcol := h.line.hpos_toNat
  have hadv := h.advanceLine
  have hnext : (beamAdvanceLine b).hpos = 0 ∧ beamCountdown.need (beamAdvanceLine b) = b.lineClocks.toNat := by
    refine ⟨rfl, ?_⟩
    show (beamLineHmax (beamAdvanceLine b)).toNat - 0 = _
    rw [@beamLineHmax_toNat (beamAdvanceLine b) h.line.lineClocks_lt]
    simp [beamAdvanceLine, h.lolToggle]
  calc beamCountdown.tick^[b.lineClocks.toNat] b
      = beamCountdown.tick^[b.hpos.toNat] (beamCountdown.tick^[beamCountdown.need b] b) := by
        rw [← Function.iterate_add_apply]
        congr 1
        show _ = b.hpos.toNat + ((beamLineHmax b).toNat - b.hpos.toNat)
        omega
    _ = beamCountdown.tick^[b.hpos.toNat] (beamAdvanceLine b) := by rw [beamCountdown_lawful.iterate_need h.line]; rfl
    _ = beamCountdown.spend (beamAdvanceLine b) b.hpos.toNat :=
        beamCountdown_lawful.iterate_of_lt h.line.advanceLine (by rw [hnext.2]; omega)
    _ = frameCountdown.tick b := by
        rw [hadv]
        show { frameCountdown.tick b with hpos := 0 + UInt16.ofNat b.hpos.toNat } = frameCountdown.tick b
        rw [UInt16.ofNat_toNat, UInt16.zero_add]
        unfold Countdown.tick
        split <;> rfl

theorem frameCountdown_lineClocks (b : BeamState) : (frameCountdown.tick b).lineClocks = b.lineClocks := by
  unfold Countdown.tick
  split <;> rfl

theorem InFrame.lines : ∀ (n : Nat) {b : BeamState} (_ : InFrame b),
    beamCountdown.tick^[b.lineClocks.toNat * n] b = frameCountdown.tick^[n] b
  | 0, _, _ => rfl
  | n + 1, b, h => by
    have ih := InFrame.lines n (frameCountdown_lawful.ok_tick h)
    rw [frameCountdown_lineClocks] at ih
    rw [Nat.mul_succ, Function.iterate_add_apply, h.line_clocks, ih, Function.iterate_succ_apply]

/-! ## The recurrence -/

/-- The same beam but for its frame counter. -/
def SameBeam (b b' : BeamState) : Prop := b' = { b with frameCount := b'.frameCount }

/-- From a line of one frame to the same line of the next, past the end of the first. -/
theorem InFrame.next_line (h : InFrame b) {n : Nat} (hn : n < frameCountdown.need (frameCountdown.fire b)) :
    frameCountdown.tick^[frameCountdown.need b + n] b = frameCountdown.spend (frameCountdown.fire b) n := by
  rw [Nat.add_comm, Function.iterate_add_apply, frameCountdown_lawful.iterate_need h,
    frameCountdown_lawful.iterate_of_lt h.next_frame hn]

theorem spend_vpos (c : BeamState) (v : UInt16) :
    frameCountdown.spend { c with vpos := 0 } v.toNat = { c with vpos := v } := by
  show { c with vpos := 0 + UInt16.ofNat v.toNat } = { c with vpos := v }
  rw [UInt16.ofNat_toNat, UInt16.zero_add]

/-- **A progressive frame comes round after its lines.** -/
theorem InFrame.recurs (h : InFrame b) (hlof : b.lof = 0) (htoggle : b.lofToggle = 0) :
    SameBeam b (frameCountdown.tick^[b.frameLines.toNat] b) := by
  have hmax : (beamFrameVmax b).toNat = b.frameLines.toNat := by
    rw [beamFrameVmax_toNat h.line.frameLines_lt, hlof]
    rfl
  have hv := h.vpos_toNat
  have hfire : frameCountdown.fire b = { { b with frameCount := b.frameCount + 1 } with vpos := 0 } := by
    simp [frameCountdown, hlof, htoggle]
  have hneed : frameCountdown.need (frameCountdown.fire b) = b.frameLines.toNat := by
    rw [hfire]
    exact hmax
  have hsum : b.frameLines.toNat = frameCountdown.need b + b.vpos.toNat := by
    show _ = (beamFrameVmax b).toNat - b.vpos.toNat + b.vpos.toNat
    omega
  rw [hsum, h.next_line (by omega), hfire, spend_vpos]
  rfl

/-- The lines of two frames in a row when LOF toggles between them. -/
theorem frameLines_toggled (x : UInt8) :
    ((if x ≠ 0 then 1 else 0) + if x ^^^ 1 ≠ 0 then 1 else 0) = if x ≤ 1 then 1 else 2 := by
  have hone : x ^^^ 1 = 0 ↔ x = 1 := UInt8.xor_eq_zero_iff
  by_cases h0 : x = 0
  · subst h0
    decide
  · by_cases h1 : x = 1
    · subst h1
      decide
    · have hgt : ¬ x ≤ 1 := by
        rw [UInt8.le_iff_toNat_le]
        rw [← UInt8.toNat_inj] at h0 h1
        simp only [UInt8.reduceToNat] at h0 h1 ⊢
        omega
      simp [h0, h1, hone, hgt]

/-- **An interlaced beam comes round after two frames.** -/
theorem InFrame.recurs_toggled (h : InFrame b) (htoggle : b.lofToggle ≠ 0) :
    SameBeam b (frameCountdown.tick^[2 * b.frameLines.toNat + if b.lof ≤ 1 then 1 else 2] b) := by
  have hmax := beamFrameVmax_toNat h.line.frameLines_lt
  have hmax' := @beamFrameVmax_toNat (frameCountdown.fire b) h.line.frameLines_lt
  have hlof : (frameCountdown.fire b).lof = b.lof ^^^ 1 := if_pos htoggle
  have hv := h.vpos_toNat
  have hfire : frameCountdown.fire (frameCountdown.fire b) =
      { { b with frameCount := b.frameCount + 1 + 1 } with vpos := 0 } := by
    simp [frameCountdown, htoggle, UInt8.xor_assoc]
  have hneed : frameCountdown.need (frameCountdown.fire b) = (beamFrameVmax (frameCountdown.fire b)).toNat := rfl
  have hneed' : frameCountdown.need (frameCountdown.fire (frameCountdown.fire b)) = (beamFrameVmax b).toNat := by
    rw [hfire]
    rfl
  have hlines := frameLines_toggled b.lof
  have hsum : (2 * b.frameLines.toNat + if b.lof ≤ 1 then 1 else 2) =
      frameCountdown.need (frameCountdown.fire b) + b.vpos.toNat + frameCountdown.need b := by
    rw [hneed, hmax', hlof]
    show _ = _ + b.vpos.toNat + ((beamFrameVmax b).toNat - b.vpos.toNat)
    have hframe : (frameCountdown.fire b).frameLines = b.frameLines := rfl
    rw [hframe, ← hlines]
    omega
  rw [hsum, Function.iterate_add_apply, frameCountdown_lawful.iterate_need h, h.next_frame.next_line (by omega), hfire,
    spend_vpos]
  rfl

/-! ## The law -/

/-- The clocks of a span that is stepped in pieces. -/
def clocksOf (pieces : List UInt16) : Nat := (pieces.map UInt16.toNat).sum

theorem InLine.pieces : ∀ (pieces : List UInt16) {b : BeamState} (_ : InLine b),
    pieces.foldl beamStep b = beamCountdown.tick^[clocksOf pieces] b
  | [], _, _ => rfl
  | n :: pieces, b, h => by
    have hsum : clocksOf (n :: pieces) = clocksOf pieces + n.toNat := by
      simp [clocksOf, Nat.add_comm]
    rw [List.foldl_cons, InLine.pieces pieces (h.step n), h.step_eq, hsum, Function.iterate_add_apply]

/-- **The beam over a span of clocks.** A span may be cut up in any way; the beam stays on its line; the loop ends with
no clock left; every return to the top counts one frame; and with lines of one length the beam comes round after a
frame, or after two of them when LOF toggles. -/
theorem beamStep_law (b : BeamState) (h : InLine b) :
    (∀ m n : UInt16, m.toNat + n.toNat < 2 ^ 16 → beamStep b (m + n) = beamStep (beamStep b m) n) ∧
    (∀ n, (beamStep b n).hpos < beamLineHmax (beamStep b n)) ∧
    (∀ (n : UInt16) (fuel : Nat), n.toNat ≤ fuel → (beamStepLoop fuel b n).2 = 0) ∧
    (∀ n : UInt16, (beamStep b n).frameCount =
      b.frameCount +
        UInt64.ofNat ((List.range n.toNat).countP fun k => frameTop (beamStep b (UInt16.ofNat (k + 1))))) ∧
    (b.vpos < beamFrameVmax b → b.lol = 0 → b.lolToggle = 0 → ∀ pieces : List UInt16,
      (b.lof = 0 → b.lofToggle = 0 → clocksOf pieces = b.lineClocks.toNat * b.frameLines.toNat →
        SameBeam b (pieces.foldl beamStep b)) ∧
      (b.lofToggle ≠ 0 →
        clocksOf pieces = b.lineClocks.toNat * (2 * b.frameLines.toNat + if b.lof ≤ 1 then 1 else 2) →
        SameBeam b (pieces.foldl beamStep b))) := by
  refine ⟨fun m n hfit => h.step_add hfit, fun n => (h.step n).hpos_lt, fun n fuel hf => ?_, h.step_frameCount, ?_⟩
  · rw [h.stepLoop fuel hf]
  · intro hv hlol htog pieces
    have hframe : InFrame b := ⟨h, hv, hlol, htog⟩
    rw [h.pieces]
    refine ⟨fun hlof htoggle hclocks => ?_, fun htoggle hclocks => ?_⟩
    · rw [hclocks, InFrame.lines _ hframe]
      exact hframe.recurs hlof htoggle
    · rw [hclocks, InFrame.lines _ hframe]
      exact hframe.recurs_toggled htoggle

/-- One line of one clock, in a frame of one line. -/
def smallBeam (lof lofToggle : UInt8) : BeamState := ⟨0, 0, 1, 1, 0, 0, lof, lofToggle, 0, 0, 0⟩

theorem smallBeam_inLine (lof lofToggle : UInt8) : InLine (smallBeam lof lofToggle) :=
  ⟨Nat.one_pos, show (1 : UInt16).toNat < 65535 by decide, Nat.one_pos, show (1 : UInt16).toNat < 65535 by decide,
    Nat.succ_pos _, show (0 : UInt16) < 1 + 0 by decide⟩

theorem beamStep_law_small :
    InLine (smallBeam 0 1) ∧ beamStep (smallBeam 0 1) (1 + 2) = beamStep (beamStep (smallBeam 0 1) 1) 2 ∧
      SameBeam (smallBeam 0 1) ([1, 2].foldl beamStep (smallBeam 0 1)) := by
  have h := beamStep_law (smallBeam 0 1) (smallBeam_inLine 0 1)
  exact ⟨smallBeam_inLine 0 1, h.1 1 2 (by decide),
    (h.2.2.2.2 (by decide) rfl rfl [1, 2]).2 (by decide) (by decide)⟩

/-- A LOF of 2 is not cleared by its toggle, so that both frames are long. -/
theorem beamStep_late :
    InLine (smallBeam 2 1) ∧ (smallBeam 2 1).vpos < beamFrameVmax (smallBeam 2 1) ∧ (smallBeam 2 1).lol = 0 ∧
      (smallBeam 2 1).lolToggle = 0 ∧ (smallBeam 2 1).lofToggle ≠ 0 ∧
      clocksOf [3] = (smallBeam 2 1).lineClocks.toNat * (2 * (smallBeam 2 1).frameLines.toNat + 1) ∧
      ¬ SameBeam (smallBeam 2 1) ([3].foldl beamStep (smallBeam 2 1)) := by
  refine ⟨smallBeam_inLine 2 1, by decide, rfl, rfl, by decide, by decide, fun h => ?_⟩
  have hv := congrArg BeamState.vpos h
  exact absurd hv (by decide +kernel)

end Rigel
