import Mathlib.Order.Bounds.Basic
import Rigel.BeamProjection
import Rigel.DeadlineProgress

/-!
# WaitDeadline — how far a copper WAIT is

`rigel_copper_domain_cycles_to_wait` tells the host when a waiting copper may go on: exactly for the full mask, and for
a partial mask not later than the next line. The copper itself compares eight bits of the line and the even part of the
clock on every clock. The estimate counts whole lines of 227 clocks to a position that the comparison may take for
another one: past the end of a line, or on the second pass of the line's low byte.
-/

namespace Rigel

/-- The clocks, from `b` on, on which the stepped beam satisfies the comparison. -/
def waitClocks (c : CopperState) (b : BeamState) : Set Nat := { k | copperWaitReached c (beamRun b k) = true }

/-- The estimate is never past the first clock on which the comparison holds, and is that clock for the full mask. -/
def WaitDeadlineSound (c : CopperState) (b : BeamState) : Prop :=
  ∀ k, IsLeast (waitClocks c b) k →
    (rigelCopperDomainCyclesToWait c b).toNat ≤ k ∧
      (c.waitVpmask = 0xFF → c.waitHpmask = 0xFE → (rigelCopperDomainCyclesToWait c b).toNat = k)

/-- The waits that the estimate gets right: the comparison holds already; under the full mask the position is inside a
line and the low byte of its line does not come round again in this frame, or it is past the end of line 255 and is
never met; under a partial mask nothing on the rest of the line satisfies the comparison. -/
def WaitDeadlineCovered (c : CopperState) (b : BeamState) : Prop :=
  copperWaitReached c b = true ∨
    if c.waitVpmask = 0xFF ∧ c.waitHpmask = 0xFE then
      (c.waitHpos ≤ 226 ∧ (b.vpos ≤ 255 ∨ b.frameLines ≤ c.waitVpos + 256)) ∨ (226 < c.waitHpos ∧ c.waitVpos = 255)
    else ∀ h, b.hpos < h → h ≤ 226 →
      copperBeamCmp b.vpos h c.waitVpos c.waitHpos c.waitVpmask c.waitHpmask = false

/-! ## The comparison under the full mask -/

theorem evenPart (h : UInt16) (hh : h.toNat < 256) : (h &&& 0xFE &&& 0xFE).toNat = h.toNat - h.toNat % 2 := by
  rw [UInt16.and_assoc, show (0xFE : UInt16) &&& 0xFE = 0xFE from rfl, UInt16.toNat_and]
  exact (by decide +kernel : ∀ n < 256, n &&& 0xFE = n - n % 2) h.toNat hh

/-- The full-mask comparison in numbers. -/
def fullReached (wv wh v h : Nat) : Prop := wv < v % 256 ∨ wv = v % 256 ∧ wh ≤ h - h % 2

theorem copperWaitReached_full {c : CopperState} {b : BeamState} (hvm : c.waitVpmask = 0xFF) (hhm : c.waitHpmask = 0xFE)
    (hwv : c.waitVpos.toNat ≤ 255) (hwh : c.waitHpos.toNat ≤ 254) (heven : c.waitHpos.toNat % 2 = 0)
    (hh : b.hpos.toNat < 227) :
    copperWaitReached c b = true ↔ fullReached c.waitVpos.toNat c.waitHpos.toNat b.vpos.toNat b.hpos.toNat := by
  have h1 := copperBeamWord_toNat b.vpos b.hpos
  have h2 := copperBeamWord_toNat c.waitVpos c.waitHpos
  rw [evenPart b.hpos (by omega)] at h1
  rw [evenPart c.waitHpos (by omega)] at h2
  simp only [copperWaitReached, copperBeamCmp, hvm, hhm, ge_iff_le, decide_eq_true_eq, UInt16.le_iff_toNat_le]
  unfold fullReached
  omega

/-! ## The estimate in numbers -/

/-- The full-mask estimate, for a frame of `f` lines. -/
def fullEstimate (f wv wh v h : Nat) : Nat :=
  if v * 227 + h < wv * 227 + wh then wv * 227 + wh - (v * 227 + h) else f * 227 - (v * 227 + h) + (wv * 227 + wh)

section
variable {f wv wh v h : Nat}

/-- The position `n` clocks on, when the lines passed are `q` and the frame does not end before. -/
theorem position_in {n q r : Nat} (hr : r < 227) (hn : h + n = 227 * q + r) (hin : v + q < f) :
    (h + n) % 227 = r ∧ (v + (h + n) / 227) % f = v + q := by
  have hq : (h + n) / 227 = q := by omega
  exact ⟨by omega, by rw [hq, Nat.mod_eq_of_lt hin]⟩

theorem position_next {n q r u : Nat} (hr : r < 227) (hn : h + n = 227 * q + r) (hout : v + q = f + u) (hu : u < f) :
    (h + n) % 227 = r ∧ (v + (h + n) / 227) % f = u := by
  have hq : (h + n) / 227 = q := by omega
  exact ⟨by omega, by rw [hq, hout, Nat.add_mod_left, Nat.mod_eq_of_lt hu]⟩

/-- While the comparison does not hold, the line's next pass is in this frame down to line 255, and in the next below. -/
theorem fullEstimate_eq (hh : h < 227) (hwh : wh ≤ 226) (heven : wh % 2 = 0) (hwv : wv ≤ 255)
    (hno : ¬ fullReached wv wh v h) :
    (v ≤ 255 → v * 227 + h < wv * 227 + wh) ∧ (256 ≤ v → wv * 227 + wh ≤ v * 227 + h) := by
  unfold fullReached at hno
  refine ⟨fun hlow => ?_, fun hhigh => by omega⟩
  rw [Nat.mod_eq_of_lt (by omega : v < 256)] at hno
  omega

/-- Inside a line and without a second pass, nothing before the estimate satisfies the comparison. -/
theorem full_before (hf : f = 262 ∨ f = 312) (hv : v < f) (hh : h < 227) (hwv : wv ≤ 255) (hwh : wh ≤ 226)
    (heven : wh % 2 = 0) (hcase : v ≤ 255 ∨ f ≤ wv + 256) (hno : ¬ fullReached wv wh v h) {n : Nat}
    (hn : n < fullEstimate f wv wh v h) :
    ¬ fullReached wv wh ((v + (h + n) / 227) % f) ((h + n) % 227) := by
  obtain ⟨hsoon, hlate⟩ := fullEstimate_eq hh hwh heven hwv hno
  have hr : (h + n) % 227 < 227 := Nat.mod_lt _ (by decide)
  have hqr : h + n = 227 * ((h + n) / 227) + (h + n) % 227 := by omega
  generalize (h + n) / 227 = q at hqr ⊢
  generalize (h + n) % 227 = r at hr hqr ⊢
  unfold fullEstimate at hn
  unfold fullReached
  rcases Nat.lt_or_ge 255 v with hhigh | hlow
  · -- past line 255: the rest of the frame is below the line, and then the next frame comes up to it
    have hcase' : f ≤ wv + 256 := by omega
    rw [if_neg (Nat.not_lt.2 (hlate hhigh))] at hn
    rcases Nat.lt_or_ge (v + q) f with hin | hout
    · rw [Nat.mod_eq_of_lt hin]
      have hbyte : (v + q) % 256 = v + q - 256 := by omega
      omega
    · have hu : v + q - f ≤ wv := by omega
      rw [Nat.mod_eq_sub_mod hout, Nat.mod_eq_of_lt (by omega : v + q - f < f),
        Nat.mod_eq_of_lt (by omega : v + q - f < 256)]
      omega
  · rw [if_pos (hsoon hlow)] at hn
    have hline : v + q ≤ wv := by omega
    rw [Nat.mod_eq_of_lt (by omega : v + q < f), Nat.mod_eq_of_lt (by omega : v + q < 256)]
    omega

/-- There the estimate is exact. -/
theorem full_at (hf : f = 262 ∨ f = 312) (hv : v < f) (hh : h < 227) (hwv : wv ≤ 255) (hwh : wh ≤ 226)
    (heven : wh % 2 = 0) :
    fullReached wv wh ((v + (h + fullEstimate f wv wh v h) / 227) % f) ((h + fullEstimate f wv wh v h) % 227) := by
  have htarget : fullReached wv wh wv wh := by
    unfold fullReached
    omega
  unfold fullEstimate
  split
  · rename_i hlt
    obtain ⟨h1, h2⟩ := @position_in f v h (wv * 227 + wh - (v * 227 + h)) (wv - v) wh (by omega)
      (by omega) (by rcases hf with rfl | rfl <;> omega)
    rw [h1, h2, show v + (wv - v) = wv by omega]
    exact htarget
  · obtain ⟨h1, h2⟩ := @position_next f v h (f * 227 - (v * 227 + h) + (wv * 227 + wh)) (f - v + wv) wh wv (by omega)
      (by rcases hf with rfl | rfl <;> omega) (by omega) (by rcases hf with rfl | rfl <;> omega)
    rw [h1, h2]
    exact htarget

/-- A position past the end of its line is met earlier, at the start of the next. -/
theorem full_past_line (hf : f = 262 ∨ f = 312) (hv : v < f) (hh : h < 227) (hwv : wv ≤ 254) (hwh : 226 < wh)
    (hwh' : wh ≤ 254) (heven : wh % 2 = 0) (hno : ¬ fullReached wv wh v h) :
    ∃ n < fullEstimate f wv wh v h, fullReached wv wh ((v + (h + n) / 227) % f) ((h + n) % 227) := by
  have htarget : fullReached wv wh (wv + 1) 0 := by
    unfold fullReached
    omega
  unfold fullEstimate
  split
  · rename_i hlt
    have hbefore : v * 227 + h < (wv + 1) * 227 := by
      unfold fullReached at hno
      omega
    obtain ⟨h1, h2⟩ := @position_in f v h ((wv + 1) * 227 - (v * 227 + h)) (wv + 1 - v) 0 (by omega)
      (by omega) (by rcases hf with rfl | rfl <;> omega)
    refine ⟨(wv + 1) * 227 - (v * 227 + h), by omega, ?_⟩
    rw [h1, h2, show v + (wv + 1 - v) = wv + 1 by omega]
    exact htarget
  · obtain ⟨h1, h2⟩ := @position_next f v h (f * 227 - (v * 227 + h) + (wv + 1) * 227) (f - v + (wv + 1)) 0 (wv + 1)
      (by omega) (by rcases hf with rfl | rfl <;> omega) (by omega) (by rcases hf with rfl | rfl <;> omega)
    refine ⟨f * 227 - (v * 227 + h) + (wv + 1) * 227, by omega, ?_⟩
    rw [h1, h2]
    exact htarget

/-- The low byte of the line comes round again below line 255. -/
theorem full_second_pass (hf : f = 262 ∨ f = 312) (hv : v < f) (hh : h < 227) (hwh : wh ≤ 226) (heven : wh % 2 = 0)
    (hlow : 256 ≤ v) (hagain : wv + 256 < f) (hno : ¬ fullReached wv wh v h) :
    ∃ n < fullEstimate f wv wh v h, fullReached wv wh ((v + (h + n) / 227) % f) ((h + n) % 227) := by
  unfold fullReached at hno
  have htarget : fullReached wv wh (wv + 256) wh := by
    unfold fullReached
    rcases hf with rfl | rfl <;> omega
  have hv256 : v % 256 = v - 256 := by rcases hf with rfl | rfl <;> omega
  obtain ⟨h1, h2⟩ := @position_in f v h ((wv + 256) * 227 + wh - (v * 227 + h)) (wv + 256 - v) wh (by omega)
    (by omega) (by omega)
  refine ⟨(wv + 256) * 227 + wh - (v * 227 + h), ?_, ?_⟩
  · unfold fullEstimate
    rcases hf with rfl | rfl <;> split <;> omega
  · rw [h1, h2, show v + (wv + 256 - v) = wv + 256 by omega]
    exact htarget

end

/-! ## The estimate of an armed WAIT -/

theorem even_low_byte (w : UInt16) : (w &&& 0xFE).toNat ≤ 254 ∧ (w &&& 0xFE).toNat % 2 = 0 := by
  constructor
  · rw [UInt16.toNat_and]
    exact Nat.and_le_right
  · have h : (w &&& 0xFE) &&& 1 = 0 := by
      rw [UInt16.and_assoc, show (0xFE : UInt16) &&& 1 = 0 from rfl, UInt16.and_zero]
    rw [← Nat.and_one_is_mod, ← UInt16.toNat_one, ← UInt16.toNat_and, h]
    rfl

/-- A clock that the estimate passes over refutes it. -/
theorem not_sound_of_early {c : CopperState} {b : BeamState} {n : Nat} (hn : n ∈ waitClocks c b)
    (hlt : n < (rigelCopperDomainCyclesToWait c b).toNat) : ¬ WaitDeadlineSound c b := by
  intro hsound
  have hex : ∃ k, copperWaitReached c (beamRun b k) = true := ⟨n, hn⟩
  have hle := (hsound _ (Nat.isLeast_find hex)).1
  have hfind := Nat.find_min' hex hn
  omega

section
variable {c : CopperState} {b : BeamState}

theorem Progressive.full_clocks (h : Progressive b) (hvm : c.waitVpmask = 0xFF) (hhm : c.waitHpmask = 0xFE)
    (hwv : c.waitVpos.toNat ≤ 255) (hwh : c.waitHpos.toNat ≤ 254) (heven : c.waitHpos.toNat % 2 = 0) (n : Nat) :
    n ∈ waitClocks c b ↔ fullReached c.waitVpos.toNat c.waitHpos.toNat
      ((b.vpos.toNat + (b.hpos.toNat + n) / 227) % b.frameLines.toNat) ((b.hpos.toNat + n) % 227) := by
  have hat := progressive_run h n
  rw [← hat.hpos, ← hat.vpos]
  exact copperWaitReached_full hvm hhm hwv hwh heven hat.progressive.hpos_lt

theorem Progressive.full_estimate (h : Progressive b) (hw : c.waiting = true) (hno : copperWaitReached c b = false)
    (hvm : c.waitVpmask = 0xFF) (hhm : c.waitHpmask = 0xFE) (hwv : c.waitVpos.toNat ≤ 255)
    (hwh : c.waitHpos.toNat ≤ 254) :
    (rigelCopperDomainCyclesToWait c b).toNat =
      fullEstimate b.frameLines.toNat c.waitVpos.toNat c.waitHpos.toNat b.vpos.toNat b.hpos.toNat := by
  have hh := h.hpos_lt
  have hv := h.vpos_lt
  obtain ⟨-, hf⟩ := h.frameLines_le
  have hcur := clockIndex_toNat (v := b.vpos) (h := b.hpos) (by omega) (by omega)
  have htgt := clockIndex_toNat (v := c.waitVpos) (h := c.waitHpos) (by omega) hwh
  have hframe : (b.frameLines.toUInt32 * (227 : UInt16).toUInt32).toNat = b.frameLines.toNat * 227 := by
    rw [UInt32.toNat_mul, UInt16.toNat_toUInt32, UInt16.toNat_toUInt32]
    simp only [UInt16.reduceToNat]
    omega
  unfold rigelCopperDomainCyclesToWait fullEstimate
  rw [hw, hno, h.ok.lineClocks, if_neg (by decide), if_neg (by decide), if_pos ⟨hvm, hhm⟩]
  dsimp only
  rw [← hcur, ← htgt]
  simp only [gt_iff_lt, UInt32.lt_iff_toNat_lt]
  split
  · rename_i hlt
    exact UInt32.toNat_sub_of_le _ _ (UInt32.le_iff_toNat_le.2 (Nat.le_of_lt hlt))
  · rename_i hge
    have hle : b.vpos.toUInt32 * (227 : UInt16).toUInt32 + b.hpos.toUInt32 ≤
        b.frameLines.toUInt32 * (227 : UInt16).toUInt32 := by
      rw [UInt32.le_iff_toNat_le, hcur, hframe]
      omega
    rw [hcur, htgt] at hge
    rw [UInt32.toNat_add, UInt32.toNat_sub_of_le _ _ hle, hframe, hcur, htgt]
    omega

theorem Progressive.partial_estimate (h : Progressive b) (hw : c.waiting = true) (hno : copperWaitReached c b = false)
    (hmask : ¬ (c.waitVpmask = 0xFF ∧ c.waitHpmask = 0xFE)) :
    (rigelCopperDomainCyclesToWait c b).toNat = 227 - b.hpos.toNat := by
  have hh := h.hpos_lt
  unfold rigelCopperDomainCyclesToWait
  rw [hw, hno, h.ok.lineClocks, if_neg (by decide), if_neg (by decide), if_neg hmask, UInt32.toNat_sub_of_le,
    UInt16.toNat_toUInt32, UInt16.toNat_toUInt32]
  · rfl
  · rw [UInt32.le_iff_toNat_le, UInt16.toNat_toUInt32, UInt16.toNat_toUInt32]
    exact hh.le

/-- Until the end of the line only the clock moves. -/
theorem Progressive.line_clocks (h : Progressive b) {n : Nat} (hn : b.hpos.toNat + n < 227) :
    (beamRun b n).vpos = b.vpos ∧ (beamRun b n).hpos.toNat = b.hpos.toNat + n := by
  have hat := progressive_run h n
  have hv := h.vpos_lt
  refine ⟨UInt16.toNat_inj.1 ?_, ?_⟩
  · rw [hat.vpos, Nat.div_eq_of_lt hn, Nat.add_zero, Nat.mod_eq_of_lt hv]
  · rw [hat.hpos, Nat.mod_eq_of_lt hn]

/-- **The full mask.** -/
theorem Progressive.full_iff (h : Progressive b) (hw : c.waiting = true) (hno : copperWaitReached c b = false)
    (hvm : c.waitVpmask = 0xFF) (hhm : c.waitHpmask = 0xFE) (hwv : c.waitVpos.toNat ≤ 255)
    (hwh : c.waitHpos.toNat ≤ 254) (heven : c.waitHpos.toNat % 2 = 0) :
    WaitDeadlineSound c b ↔
      (c.waitHpos.toNat ≤ 226 ∧ (b.vpos.toNat ≤ 255 ∨ b.frameLines.toNat ≤ c.waitVpos.toNat + 256)) ∨
        (226 < c.waitHpos.toNat ∧ c.waitVpos.toNat = 255) := by
  have hclk := h.full_clocks hvm hhm hwv hwh heven
  have hest := h.full_estimate hw hno hvm hhm hwv hwh
  have hf : b.frameLines.toNat = 262 ∨ b.frameLines.toNat = 312 := by
    rcases h.ok.frameLines with hf | hf <;> rw [hf]
    · exact .inl rfl
    · exact .inr rfl
  have hv := h.vpos_lt
  have hh := h.hpos_lt
  have hno' : ¬ fullReached c.waitVpos.toNat c.waitHpos.toNat b.vpos.toNat b.hpos.toNat := fun hr => by
    rw [(copperWaitReached_full hvm hhm hwv hwh heven hh).2 hr] at hno
    cases hno
  rcases Nat.lt_or_ge 226 c.waitHpos.toNat with hpast | hin
  · by_cases hlast : c.waitVpos.toNat = 255
    · -- line 255 is the last of the low bytes: no clock satisfies the comparison
      refine ⟨fun _ => .inr ⟨hpast, hlast⟩, fun _ k hk => ?_⟩
      have hk' := (hclk k).1 hk.1
      unfold fullReached at hk'
      have hmod := Nat.mod_lt (b.hpos.toNat + k) (show 227 > 0 by decide)
      omega
    · obtain ⟨n, hn, hr⟩ := full_past_line hf hv hh (show c.waitVpos.toNat ≤ 254 by omega) hpast hwh heven hno'
      refine ⟨fun hs => absurd hs (not_sound_of_early ((hclk n).2 hr) (by rw [hest]; exact hn)), fun hc => ?_⟩
      omega
  · by_cases hcase : b.vpos.toNat ≤ 255 ∨ b.frameLines.toNat ≤ c.waitVpos.toNat + 256
    · refine ⟨fun _ => .inl ⟨hin, hcase⟩, fun _ k hk => ?_⟩
      have hle : (rigelCopperDomainCyclesToWait c b).toNat ≤ k := by
        by_contra hlt
        exact full_before hf hv hh hwv hin heven hcase hno' (by rw [← hest]; omega) ((hclk k).1 hk.1)
      have hat := (hclk (rigelCopperDomainCyclesToWait c b).toNat).2 (by rw [hest]; exact full_at hf hv hh hwv hin heven)
      exact ⟨hle, fun _ _ => Nat.le_antisymm hle (hk.2 hat)⟩
    · obtain ⟨n, hn, hr⟩ := full_second_pass hf hv hh hin heven (show 256 ≤ b.vpos.toNat by omega)
        (show c.waitVpos.toNat + 256 < b.frameLines.toNat by omega) hno'
      refine ⟨fun hs => absurd hs (not_sound_of_early ((hclk n).2 hr) (by rw [hest]; exact hn)), fun hc => ?_⟩
      omega

/-- **A partial mask.** -/
theorem Progressive.partial_iff (h : Progressive b) (hw : c.waiting = true) (hno : copperWaitReached c b = false)
    (hmask : ¬ (c.waitVpmask = 0xFF ∧ c.waitHpmask = 0xFE)) :
    WaitDeadlineSound c b ↔ ∀ j, b.hpos < j → j ≤ 226 →
      copperBeamCmp b.vpos j c.waitVpos c.waitHpos c.waitVpmask c.waitHpmask = false := by
  have hest := h.partial_estimate hw hno hmask
  have hh := h.hpos_lt
  constructor
  · intro hs j hj hle
    by_contra hr
    have hj' := UInt16.lt_iff_toNat_lt.1 hj
    have hle' := UInt16.le_iff_toNat_le.1 hle
    simp only [UInt16.reduceToNat] at hle'
    obtain ⟨hv, hp⟩ := @Progressive.line_clocks b h (j.toNat - b.hpos.toNat) (by omega)
    have hpos : (beamRun b (j.toNat - b.hpos.toNat)).hpos = j := UInt16.toNat_inj.1 (by rw [hp]; omega)
    refine not_sound_of_early (n := j.toNat - b.hpos.toNat) ?_ (by rw [hest]; omega) hs
    show copperWaitReached c (beamRun b (j.toNat - b.hpos.toNat)) = true
    unfold copperWaitReached
    rw [hv, hpos]
    exact Bool.not_eq_false _ ▸ hr
  · intro hrest k hk
    refine ⟨?_, fun hvm hhm => absurd ⟨hvm, hhm⟩ hmask⟩
    by_contra hlt
    rw [hest] at hlt
    obtain ⟨hv, hp⟩ := @Progressive.line_clocks b h k (by omega)
    have hr : copperWaitReached c (beamRun b k) = true := hk.1
    rcases Nat.eq_zero_or_pos k with rfl | hpos
    · rw [show beamRun b 0 = b from rfl, hno] at hr
      cases hr
    · have hcmp := hrest (beamRun b k).hpos (UInt16.lt_iff_toNat_lt.2 (by rw [hp]; omega))
        (UInt16.le_iff_toNat_le.2 (by rw [hp]; simp only [UInt16.reduceToNat]; omega))
      unfold copperWaitReached at hr
      rw [hv, hcmp] at hr
      cases hr

end

/-- **The copper's deadline, and where it is late.** For every armed WAIT and every progressive PAL or NTSC beam the
estimate is sound exactly on the covered waits. -/
theorem waitDeadline_iff (c : CopperState) (ir1 ir2 : UInt16) (b : BeamState) (h : Progressive b) :
    WaitDeadlineSound (copperWaitArm c ir1 ir2) b ↔ WaitDeadlineCovered (copperWaitArm c ir1 ir2) b := by
  have hwv : (copperWaitArm c ir1 ir2).waitVpos.toNat ≤ 255 := by
    have hand : (copperWaitArm c ir1 ir2).waitVpos.toNat = (ir1 >>> 8).toNat &&& 255 := UInt16.toNat_and _ _
    rw [hand]
    exact Nat.and_le_right
  obtain ⟨hwh, heven⟩ : (copperWaitArm c ir1 ir2).waitHpos.toNat ≤ 254 ∧
      (copperWaitArm c ir1 ir2).waitHpos.toNat % 2 = 0 := even_low_byte ir1
  have hw : (copperWaitArm c ir1 ir2).waiting = true := rfl
  generalize copperWaitArm c ir1 ir2 = c at *
  unfold WaitDeadlineCovered
  cases hr : copperWaitReached c b
  · simp only [Bool.false_eq_true, false_or]
    by_cases hmask : c.waitVpmask = 0xFF ∧ c.waitHpmask = 0xFE
    · have hsecond : (c.waitVpos + 256).toNat = c.waitVpos.toNat + 256 := by
        rw [UInt16.toNat_add]
        simp only [UInt16.reduceToNat]
        omega
      rw [if_pos hmask, h.full_iff hw hr hmask.1 hmask.2 hwv hwh heven]
      simp only [UInt16.le_iff_toNat_le, UInt16.lt_iff_toNat_lt, ← UInt16.toNat_inj, hsecond, UInt16.reduceToNat]
    · rw [if_neg hmask]
      exact h.partial_iff hw hr hmask
  · simp only [true_or, iff_true]
    intro k hk
    have hest : (rigelCopperDomainCyclesToWait c b).toNat = 0 := by
      unfold rigelCopperDomainCyclesToWait
      rw [hw, hr]
      rfl
    have hzero : 0 ∈ waitClocks c b := hr
    have hk0 := hk.2 hzero
    omega

/-- Line 100, with a position past the line's last clock. -/
def lateWait : CopperState := copperWaitArm copperReset 0x64E5 0xFFFE

def lineHundred : BeamState := { beamReset with vpos := 100 }

theorem waitDeadline_iff_late : WaitDeadlineSound lateWait lineHundred ↔ WaitDeadlineCovered lateWait lineHundred :=
  waitDeadline_iff copperReset 0x64E5 0xFFFE lineHundred
    ⟨⟨rfl, .inl rfl, by decide, by decide, rfl, rfl⟩, by decide, rfl, rfl⟩

/-- The comparison holds at the top of line 101, a clock before the estimate. -/
theorem waitDeadline_late : ¬ WaitDeadlineSound lateWait lineHundred := by
  have hmeets : 227 ∈ waitClocks lateWait lineHundred := by
    show copperWaitReached lateWait (beamRun lineHundred 227) = true
    decide +kernel
  exact not_sound_of_early hmeets (by decide)

end Rigel
