import Mathlib.Tactic.Push
import Rigel.LineBlit

/-!
# SingleDot — the pixels of a line blit, and its one dot a scanline

The pixels of a line, numbered: `linePixelRun` is the state that pixel `k` starts from, for the resumable drawer and
for the one-shot one alike. What the line does next depends on the sign of its error only, and the error on nothing
but the command (`lineErrors`). The one-dot counter is a byte that a vertical step clears, so on one row it comes back
to zero after 256 pixels.
-/

namespace Rigel

/-! ## The pixels -/

/-- The state before pixel `k`. -/
def linePixelRun (cmd : BlitCommand) (mem : ChipRam) : Nat → BlitterLineState × ChipRam
  | 0 => (lineStateInit BlitterLineState.cleared cmd, mem)
  | k + 1 => linePixel cmd (linePixelRun cmd mem k).1 (linePixelRun cmd mem k).2

/-- `k` calls of `blitter_line_step`. -/
def lineStepRun (b : BlitterState) (mem : ChipRam) : Nat → BlitterState × ChipRam
  | 0 => (b, mem)
  | k + 1 => blitterLineStep (lineStepRun b mem k).1 (lineStepRun b mem k).2

theorem lineStateInit_fresh (s : BlitterLineState) (cmd : BlitCommand) (h : s.initialized = false) :
    lineStateInit s cmd = lineStateInit BlitterLineState.cleared cmd := by
  unfold lineStateInit
  rw [h]
  rfl

theorem linePixelRun_frame (cmd : BlitCommand) (mem : ChipRam) :
    ∀ k, (linePixelRun cmd mem k).1.stepIndex = UInt16.ofNat k ∧ (linePixelRun cmd mem k).1.initialized = true
  | 0 => ⟨rfl, rfl⟩
  | k + 1 => by
    obtain ⟨hindex, hinit⟩ := linePixelRun_frame cmd mem k
    have hframe := linePixel_frame cmd (linePixelRun cmd mem k).1 (linePixelRun cmd mem k).2
    simp only [lineFrame, Prod.mk.injEq] at hframe
    refine ⟨?_, hframe.2.1.trans hinit⟩
    rw [UInt16.ofNat_add, ← hindex]
    exact hframe.1

/-- The calls of `blitter_line_step` draw the pixels in order, as long as the line lasts. -/
theorem lineStepRun_pixels {b : BlitterState} (mem : ChipRam) (hmode : b.cmd.mode = .line)
    (hfresh : b.lineState.initialized = false) :
    ∀ k ≤ b.cmd.heightLines.toNat, (lineStepRun b mem k).1.cmd = b.cmd ∧
      (lineStateInit (lineStepRun b mem k).1.lineState b.cmd, (lineStepRun b mem k).2) = linePixelRun b.cmd mem k
  | 0, _ => ⟨rfl, congrArg (·, mem) (lineStateInit_fresh _ _ hfresh)⟩
  | k + 1, hk => by
    obtain ⟨hcmd, hpix⟩ := lineStepRun_pixels mem hmode hfresh k (Nat.le_of_succ_le hk)
    obtain ⟨hs, hm⟩ := Prod.ext_iff.1 hpix
    dsimp only at hs hm
    have hlt := b.cmd.heightLines.toNat_lt
    have hindex : (lineStateInit (lineStepRun b mem k).1.lineState b.cmd).stepIndex.toNat = k := by
      rw [hs, (linePixelRun_frame b.cmd mem k).1, UInt16.toNat_ofNat']
      exact Nat.mod_eq_of_lt (by omega)
    have hopen : ¬ (lineStateInit (lineStepRun b mem k).1.lineState b.cmd).stepIndex ≥ b.cmd.heightLines := by
      rw [ge_iff_le, UInt16.le_iff_toNat_le, hindex]
      omega
    have hstep : blitterLineStep (lineStepRun b mem k).1 (lineStepRun b mem k).2 =
        ({ (lineStepRun b mem k).1 with
            cmd := b.cmd
            lineState := (linePixelRun b.cmd mem (k + 1)).1
            result := linePublishPartialResult b.cmd (linePixelRun b.cmd mem (k + 1)).1 },
          (linePixelRun b.cmd mem (k + 1)).2) := by
      unfold blitterLineStep
      rw [hcmd, if_neg (by rw [hmode]; decide), if_neg hopen, hs, hm]
      rfl
    unfold lineStepRun
    rw [hstep]
    exact ⟨rfl, congrArg (·, _) (lineStateInit_of_initialized b.cmd (linePixelRun_frame b.cmd mem (k + 1)).2)⟩

/-- The reference loop draws the same pixels. -/
theorem refLineLoop_pixels (cmd : BlitCommand) (mem : ChipRam) :
    ∀ k, refLineLoop cmd k (refLineStart cmd) mem =
      (refOfLine (linePixelRun cmd mem k).1, (linePixelRun cmd mem k).2)
  | 0 => congrArg (·, mem) (refOfLine_start _ cmd rfl).symm
  | k + 1 => by
    rw [refLineLoop_succ, refLineLoop_pixels cmd mem k]
    exact (linePixel_ref cmd _ _).symm

/-! ## The error and the sign -/

/-- The error and its sign before pixel `k`, from the command alone. -/
def lineErrors (cmd : BlitCommand) : Nat → Int16 × Bool
  | 0 => ((cmd.apt &&& 0xFFFF).toUInt16.toInt16, cmd.lineInitialSign)
  | k + 1 =>
    let e := lineErrors cmd k
    let next := if cmd.useA then (if e.2 then e.1 + cmd.bmod else e.1 + cmd.amod) else e.1
    (next, next < 0)

/-- A step of the pointer leaves the error term and the pattern. -/
theorem lineMinor_kept (s : BlitterLineState) (cmd : BlitCommand) :
    (lineMinor s cmd).error = s.error ∧ (lineMinor s cmd).pattern = s.pattern := by
  unfold lineMinor lineDecx lineIncx
  repeat' split
  all_goals exact ⟨rfl, rfl⟩

theorem lineMajor_kept (s : BlitterLineState) (cmd : BlitCommand) :
    (lineMajor s cmd).error = s.error ∧ (lineMajor s cmd).pattern = s.pattern := by
  unfold lineMajor lineDecx lineIncx
  repeat' split
  all_goals exact ⟨rfl, rfl⟩

theorem linePixel_error (cmd : BlitCommand) (s : BlitterLineState) (mem : ChipRam) :
    (linePixel cmd s mem).1.error =
        (if cmd.useA then (if s.sign then s.error + cmd.bmod else s.error + cmd.amod) else s.error) ∧
      (linePixel cmd s mem).1.sign = decide ((linePixel cmd s mem).1.error < 0) := by
  refine ⟨?_, rfl⟩
  have hmove : (linePixel cmd s mem).1.error = (lineMajor (if (linePlot s (lineCval cmd s mem)
      (lineDval cmd s (lineCval cmd s mem))).sign then lineError (linePlot s (lineCval cmd s mem)
      (lineDval cmd s (lineCval cmd s mem))) cmd else lineMinor (lineError (linePlot s (lineCval cmd s mem)
      (lineDval cmd s (lineCval cmd s mem))) cmd) cmd) cmd).error := rfl
  rw [hmove, (lineMajor_kept _ _).1]
  split
  · rfl
  · rw [(lineMinor_kept _ _).1]
    rfl

theorem linePixelRun_errors (cmd : BlitCommand) (mem : ChipRam) :
    ∀ k, ((linePixelRun cmd mem k).1.error, (linePixelRun cmd mem k).1.sign) = lineErrors cmd k
  | 0 => rfl
  | k + 1 => by
    have ih := linePixelRun_errors cmd mem k
    obtain ⟨herror, hsign⟩ := linePixel_error cmd (linePixelRun cmd mem k).1 (linePixelRun cmd mem k).2
    have he := congrArg Prod.fst ih
    have hs := congrArg Prod.snd ih
    dsimp only at he hs
    rw [he, hs] at herror
    unfold linePixelRun lineErrors
    rw [hsign, herror]

/-! ## Vertical steps and the dot counter -/

/-- Whether the advance after a pixel leaves the scanline: the major axis is vertical, or the minor axis is and the
error was not negative. -/
def lineStepsVertically (cmd : BlitCommand) (sign : Bool) : Bool := cmd.lineOctant &&& 0x04 == 0 || !sign

theorem linePixel_oneDot (cmd : BlitCommand) (s : BlitterLineState) (mem : ChipRam) :
    (linePixel cmd s mem).1.oneDotCount =
      if lineStepsVertically cmd s.sign then 0 else s.oneDotCount + 1 := by
  have hx : ∀ t : BlitterLineState, (lineIncx t).oneDotCount = t.oneDotCount ∧ (lineDecx t).oneDotCount = t.oneDotCount := by
    intro t
    unfold lineIncx lineDecx
    constructor <;> split <;> rfl
  have hmajor : ∀ t : BlitterLineState, (lineMajor t cmd).oneDotCount =
      if cmd.lineOctant &&& 0x04 = 0 then 0 else t.oneDotCount := by
    intro t
    unfold lineMajor
    by_cases h : cmd.lineOctant &&& 0x04 = 0
    · rw [if_neg (not_not.2 h), if_pos h]
      split <;> rfl
    · rw [if_pos h, if_neg h]
      split
      · exact (hx t).2
      · exact (hx t).1
  have hminor : ∀ t : BlitterLineState, (lineMinor t cmd).oneDotCount =
      if cmd.lineOctant &&& 0x04 = 0 then t.oneDotCount else 0 := by
    intro t
    unfold lineMinor
    by_cases h : cmd.lineOctant &&& 0x04 = 0
    · rw [if_neg (not_not.2 h), if_pos h]
      split
      · exact (hx t).2
      · exact (hx t).1
    · rw [if_pos h, if_neg h]
      split <;> rfl
  unfold lineStepsVertically linePixel lineAdvance
  dsimp only [lineRotate, lineSign]
  rw [hmajor]
  by_cases h : cmd.lineOctant &&& 0x04 = 0
  · simp [h]
  · cases hs : s.sign
    · simp [h, hs, hminor, linePlot, lineError]
    · simp [h, hs, linePlot, lineError]

/-! ## One dot a row -/

/-- Between two writes the line has left the row. -/
def OneDotARow (length : Nat) (writes vertical : Nat → Bool) : Prop :=
  ∀ i j, i < j → j < length → writes i = true → writes j = true → ∃ k, i ≤ k ∧ k < j ∧ vertical k = true

section
variable {count : Nat → UInt8} {vertical : Nat → Bool}

theorem count_on_row (hstep : ∀ k, count (k + 1) = if vertical k then 0 else count k + 1) {i : Nat}
    (hi : count i = 0) : ∀ n, (∀ k, i ≤ k → k < i + n → vertical k = false) → count (i + n) = UInt8.ofNat n
  | 0, _ => hi
  | n + 1, h => by
    rw [← Nat.add_assoc, hstep, h (i + n) (Nat.le_add_right i n) (Nat.lt_succ_self _), if_neg Bool.false_ne_true,
      count_on_row hstep hi n (fun k hk hn => h k hk (by omega)), UInt8.ofNat_add]
    rfl

/-- Every pixel is on a row that started with the counter clear. -/
theorem row_start (hzero : count 0 = 0) (hstep : ∀ k, count (k + 1) = if vertical k then 0 else count k + 1) :
    ∀ i, ∃ start ≤ i, count start = 0 ∧ ∀ k, start ≤ k → k < i → vertical k = false
  | 0 => ⟨0, Nat.le_refl 0, hzero, fun k _ hk => absurd hk k.not_lt_zero⟩
  | i + 1 => by
    cases hv : vertical i with
    | true => exact ⟨i + 1, Nat.le_refl _, by rw [hstep, hv, if_pos rfl], fun k hk hk' => by omega⟩
    | false =>
      obtain ⟨start, hle, hclear, hrow⟩ := row_start hzero hstep i
      refine ⟨start, Nat.le_succ_of_le hle, hclear, fun k hk hk' => ?_⟩
      rcases Nat.lt_succ_iff_lt_or_eq.1 hk' with h | rfl
      · exact hrow k hk h
      · exact hv

/-- **A byte that counts the pixels of a row** marks one pixel a row exactly when no row runs on for more than 256. -/
theorem oneDot_iff (hzero : count 0 = 0) (hstep : ∀ k, count (k + 1) = if vertical k then 0 else count k + 1)
    (length : Nat) :
    OneDotARow length (fun k => count k == 0) vertical ↔
      ∀ i, i + 256 < length → ∃ k, i ≤ k ∧ k < i + 256 ∧ vertical k = true := by
  constructor
  · intro hdot i hi
    by_contra hnone
    push Not at hnone
    obtain ⟨start, hle, hclear, hrow⟩ := row_start hzero hstep i
    have hstay : ∀ k, start ≤ k → k < start + 256 → vertical k = false := fun k hk hk' => by
      by_cases hki : k < i
      · exact hrow k hk hki
      · exact Bool.eq_false_iff.2 (hnone k (Nat.not_lt.1 hki) (by omega))
    have hagain : count (start + 256) = 0 := count_on_row hstep hclear 256 hstay
    obtain ⟨k, hk, hk', hv⟩ := hdot start (start + 256) (by omega) (by omega) (beq_iff_eq.2 hclear) (beq_iff_eq.2 hagain)
    rw [hstay k hk hk'] at hv
    cases hv
  · intro hrows i j hij hj hi hcj
    by_contra hnone
    push Not at hnone
    have hstay : ∀ k, i ≤ k → k < i + (j - i) → vertical k = false := fun k hk hk' =>
      Bool.eq_false_iff.2 (hnone k hk (by omega))
    have hcount := count_on_row hstep (beq_iff_eq.1 hi) (j - i) hstay
    rw [Nat.add_sub_cancel' (Nat.le_of_lt hij), beq_iff_eq.1 hcj] at hcount
    have hwrap : (j - i) % 256 = 0 := by
      have h := congrArg UInt8.toNat hcount
      rw [UInt8.toNat_ofNat'] at h
      exact h.symm
    obtain ⟨k, hk, hk', hv⟩ := hrows i (by omega)
    rw [hstay k hk (by omega)] at hv
    cases hv

end

/-- The pixels that `execute_line_mode` writes. -/
def refWritesPixel (cmd : BlitCommand) (v : RefLineVars) : Bool :=
  cmd.useC && (!cmd.lineSingleDot || v.oneDotCount == 0)

/-- The dots of the line that `b` has started: of the successive calls of `blitter_line_step`, and of the passes of
`execute_line_mode`. -/
def SingleDotLine (b : BlitterState) (mem : ChipRam) : Prop :=
  let cmd := b.cmd
  let s := fun k => lineStateInit (lineStepRun b mem k).1.lineState cmd
  let v := fun k => (refLineLoop cmd k (refLineStart cmd) mem).1
  OneDotARow cmd.heightLines.toNat (fun k => lineWritesPixel cmd (s k)) (fun k => lineStepsVertically cmd (s k).sign) ∧
    OneDotARow cmd.heightLines.toNat (fun k => refWritesPixel cmd (v k)) (fun k => lineStepsVertically cmd (v k).sign)

theorem OneDotARow.congr {length : Nat} {w w' v v' : Nat → Bool} (hw : ∀ k < length, w k = w' k)
    (hv : ∀ k < length, v k = v' k) : OneDotARow length w v ↔ OneDotARow length w' v' := by
  have hmp : ∀ {w w' v v' : Nat → Bool}, (∀ k < length, w k = w' k) → (∀ k < length, v k = v' k) →
      OneDotARow length w v → OneDotARow length w' v' := by
    intro w w' v v' hw hv h i j hij hj hi hcj
    obtain ⟨k, hk, hk', hvk⟩ := h i j hij hj ((hw i (by omega)).trans hi) ((hw j hj).trans hcj)
    exact ⟨k, hk, hk', (hv k (by omega)).symm.trans hvk⟩
  exact ⟨hmp hw hv, hmp (fun k hk => (hw k hk).symm) (fun k hk => (hv k hk).symm)⟩

/-- Both drawers make the dots of the pixel run, where the error's sign says which steps leave the row. -/
theorem singleDotLine_dots {b : BlitterState} (mem : ChipRam) (hline : b.cmd.mode = .line)
    (hfresh : b.lineState.initialized = false) (hdot : b.cmd.lineSingleDot = true) :
    SingleDotLine b mem ↔ OneDotARow b.cmd.heightLines.toNat
      (fun k => b.cmd.useC && (linePixelRun b.cmd mem k).1.oneDotCount == 0)
      (fun k => lineStepsVertically b.cmd (lineErrors b.cmd k).2) := by
  have hstate : ∀ k < b.cmd.heightLines.toNat,
      lineStateInit (lineStepRun b mem k).1.lineState b.cmd = (linePixelRun b.cmd mem k).1 := fun k hk =>
    congrArg Prod.fst (lineStepRun_pixels mem hline hfresh k (Nat.le_of_lt hk)).2
  have hvars : ∀ k, (refLineLoop b.cmd k (refLineStart b.cmd) mem).1 = refOfLine (linePixelRun b.cmd mem k).1 :=
    fun k => congrArg Prod.fst (refLineLoop_pixels b.cmd mem k)
  have hsign : ∀ k, (linePixelRun b.cmd mem k).1.sign = (lineErrors b.cmd k).2 := fun k =>
    congrArg Prod.snd (linePixelRun_errors b.cmd mem k)
  refine (and_congr (OneDotARow.congr (fun k hk => ?_) (fun k hk => ?_))
    (OneDotARow.congr (fun k _ => ?_) (fun k _ => ?_))).trans and_self_iff
  · simp only [hstate k hk, lineWritesPixel, hdot, Bool.not_true, Bool.false_or]
  · simp only [hstate k hk, hsign]
  · simp only [hvars, refWritesPixel, refOfLine, hdot, Bool.not_true, Bool.false_or]
  · simp only [hvars, refOfLine, hsign]

theorem linePixelRun_oneDot (cmd : BlitCommand) (mem : ChipRam) (k : Nat) :
    (linePixelRun cmd mem (k + 1)).1.oneDotCount =
      if lineStepsVertically cmd (lineErrors cmd k).2 then 0 else (linePixelRun cmd mem k).1.oneDotCount + 1 := by
  rw [← congrArg Prod.snd (linePixelRun_errors cmd mem k)]
  exact linePixel_oneDot ..

theorem blitterStart_line_fresh (b : BlitterState) {off : UInt32} (v : UInt16) (hs : blitterStartsAt off = true) :
    (blitterWriteReg16 b off v).lineState.initialized = false := by
  rw [blitterWriteReg16_start b v hs]
  rfl

/-- **Single dots, and where the counter wraps.** A single-dot line, in either drawer, writes at most once a scanline
exactly when it does not write at all or no 257 successive pixels lie on one row: the counter is a byte. -/
theorem singleDot_iff (b : BlitterState) (off : UInt32) (v : UInt16) (mem : ChipRam) (hs : blitterStartsAt off = true)
    (hline : (blitterWriteReg16 b off v).cmd.mode = .line)
    (hdot : (blitterWriteReg16 b off v).cmd.lineSingleDot = true) :
    SingleDotLine (blitterWriteReg16 b off v) mem ↔
      let cmd := (blitterWriteReg16 b off v).cmd
      cmd.useC = true → ∀ i, i + 256 < cmd.heightLines.toNat →
        ∃ k, i ≤ k ∧ k < i + 256 ∧ lineStepsVertically cmd (lineErrors cmd k).2 = true := by
  have hfresh := blitterStart_line_fresh b v hs
  generalize blitterWriteReg16 b off v = b0 at *
  rw [singleDotLine_dots mem hline hfresh hdot]
  dsimp only
  cases hc : b0.cmd.useC
  · simp only [Bool.false_eq_true, false_imp_iff, iff_true]
    intro i j _ _ hi
    simp at hi
  · simp only [Bool.true_and, forall_const]
    exact oneDot_iff rfl (linePixelRun_oneDot b0.cmd mem) _

/-- The registers of a horizontal single-dot line of 257 pixels, 300 wide by its error terms. -/
def longDottedLine : BlitterState := { blitterInit with
  regs := { blitterInit.regs with
    bltcon0 := 0x0BCA, bltcon1 := 0x0053, bltapt := 0xFDA8, bltamod := -1200, bltadat := 0x8000, bltbdat := 0xFFFF } }

theorem singleDot_iff_long : SingleDotLine (blitterWriteReg16 longDottedLine 0x058 0x4042) blankRam ↔
    let cmd := (blitterWriteReg16 longDottedLine 0x058 0x4042).cmd
    cmd.useC = true → ∀ i, i + 256 < cmd.heightLines.toNat →
      ∃ k, i ≤ k ∧ k < i + 256 ∧ lineStepsVertically cmd (lineErrors cmd k).2 = true :=
  singleDot_iff longDottedLine 0x058 0x4042 blankRam rfl rfl rfl

/-- Pixel 256 writes again on the row of pixel 0. -/
theorem singleDot_long : ¬ SingleDotLine (blitterWriteReg16 longDottedLine 0x058 0x4042) blankRam := by
  rw [singleDotLine_dots blankRam rfl rfl rfl]
  intro hdot
  obtain ⟨k, -, hk, hv⟩ := (oneDot_iff rfl (linePixelRun_oneDot _ blankRam) _).1 hdot 0 (by decide)
  have hrow : ∀ k < 256, lineStepsVertically (blitterWriteReg16 longDottedLine 0x058 0x4042).cmd
      (lineErrors (blitterWriteReg16 longDottedLine 0x058 0x4042).cmd k).2 = false := by decide +kernel
  rw [hrow k (by omega)] at hv
  cases hv

end Rigel
