import Mathlib.Algebra.Ring.Nat
import Rigel.BlitterDma

/-!
# LineBlit — the resumable line drawer against the one-shot one

The source draws a line twice: `execute_line_mode` in one call, `blitter_line_step` one pixel a DMA slot with the
state kept in `BlitterLineState`. Read in the reference's vocabulary (`refOfLine`) one resumable pixel is one pass of
the reference loop (`linePixel_ref`); the slots in between only move a phase bit. What is left is the bookkeeping of
how many pixels the granted slots have drawn (`LineProgress`), for any cut of the slots into calls.
-/

namespace Rigel

/-! ## One pixel -/

/-- The line state in the vocabulary of the reference loop. -/
def refOfLine (s : BlitterLineState) : RefLineVars where
  error := s.error
  xShift := s.xShift
  oneDotCount := s.oneDotCount
  pattern := s.pattern
  cpt := s.cpt
  zero := s.zero
  sign := s.sign
  lastCdat := s.lastCdat
  finalDdat := s.lastDdat

theorem refOfLine_start (s : BlitterLineState) (cmd : BlitCommand) (h : s.initialized = false) :
    refOfLine (lineStateInit s cmd) = refLineStart cmd := by
  simp only [lineStateInit, h, refOfLine, refLineStart, lineRotatePattern, Bool.false_eq_true, if_false, ne_eq,
    ite_not]

theorem refOfLine_minor (s : BlitterLineState) (cmd : BlitCommand) :
    refOfLine (lineMinor s cmd) = refLineMinor cmd (refOfLine s) := by
  unfold lineMinor refLineMinor lineDecx lineIncx
  rw [apply_ite refOfLine, apply_ite refOfLine, apply_ite refOfLine, apply_ite refOfLine, apply_ite refOfLine]
  rfl

theorem refOfLine_major (s : BlitterLineState) (cmd : BlitCommand) :
    refOfLine (lineMajor s cmd) = refLineMajor cmd (refOfLine s) := by
  unfold lineMajor refLineMajor lineDecx lineIncx
  rw [apply_ite refOfLine, apply_ite refOfLine, apply_ite refOfLine, apply_ite refOfLine, apply_ite refOfLine]
  rfl

theorem refOfLine_turn (s : BlitterLineState) : refOfLine (lineRotate (lineSign s)) = refLineTurn (refOfLine s) := rfl

theorem refOfLine_plot (s : BlitterLineState) (cmd : BlitCommand) (cval dval : UInt16) :
    refOfLine (lineError (linePlot s cval dval) cmd) = refLinePlot cmd (refOfLine s) cval dval := rfl

/-- **One pixel, both ways.** A pixel of the resumable drawer is a pass of the reference loop. -/
theorem linePixel_ref (cmd : BlitCommand) (s : BlitterLineState) (mem : ChipRam) :
    (refOfLine (linePixel cmd s mem).1, (linePixel cmd s mem).2) = refLinePixel cmd (refOfLine s) mem := by
  unfold linePixel lineAdvance refLinePixel
  dsimp only
  rw [refOfLine_turn, refOfLine_major, apply_ite refOfLine, refOfLine_minor, refOfLine_plot]
  rfl

/-- The part of the line state that the Bresenham arithmetic never touches. -/
def lineFrame (s : BlitterLineState) : UInt16 × Bool × UInt8 := (s.stepIndex, s.initialized, s.pixelSlotPhase)

theorem lineMinor_frame (s : BlitterLineState) (cmd : BlitCommand) : lineFrame (lineMinor s cmd) = lineFrame s := by
  unfold lineMinor lineDecx lineIncx
  repeat' split
  all_goals rfl

theorem lineMajor_frame (s : BlitterLineState) (cmd : BlitCommand) : lineFrame (lineMajor s cmd) = lineFrame s := by
  unfold lineMajor lineDecx lineIncx
  repeat' split
  all_goals rfl

theorem linePixel_frame (cmd : BlitCommand) (s : BlitterLineState) (mem : ChipRam) :
    lineFrame (linePixel cmd s mem).1 = (s.stepIndex + 1, s.initialized, s.pixelSlotPhase) := by
  unfold linePixel lineAdvance
  dsimp only
  have hturn : ∀ t : BlitterLineState, lineFrame (lineRotate (lineSign t)) = lineFrame t := fun _ => rfl
  rw [hturn, lineMajor_frame, apply_ite lineFrame, lineMinor_frame, ite_self]
  rfl

/-! ## The slots -/

/-- The lines a command draws before it is done: a command of height zero still spends one. -/
def lineSpan (cmd : BlitCommand) : Nat := max cmd.heightLines.toNat 1

/-- What a finished line blit leaves: the reference's result, except that a command of height zero publishes the
cleared result that the start of the blit left. -/
def lineOutcome (cmd : BlitCommand) (mem : ChipRam) : BlitterResult × ChipRam :=
  if cmd.heightLines = 0 then ({ BlitterResult.cleared with zero := true }, mem) else executeLineMode cmd mem

/-- `k` pixels of the command frozen in `b0` are drawn, and the blit is not over. -/
structure LineProgress (b0 : BlitterState) (mem0 : ChipRam) (k : Nat) (b : BlitterState) (mem : ChipRam) : Prop where
  busy : b.busy = true
  exec : b.execState = .pending
  mode : b0.cmd.mode = .line
  cmd : b.cmd = b0.cmd
  regs : b.regs = b0.regs
  lt : k < lineSpan b0.cmd
  fresh : b.lineState.initialized = false → k = 0
  open_ : b.lineState.initialized = true → k < b0.cmd.heightLines.toNat
  index : (lineStateInit b.lineState b0.cmd).stepIndex.toNat = k
  drawn : (refOfLine (lineStateInit b.lineState b0.cmd), mem) =
    refLineLoop b0.cmd k (refLineStart b0.cmd) mem0
  result : b.result = if k = 0 then { BlitterResult.cleared with zero := true }
    else linePublishPartialResult b0.cmd (lineStateInit b.lineState b0.cmd)

/-- The blit that `b0` started is over, with the outcome published. -/
structure LineFinished (b0 : BlitterState) (mem0 : ChipRam) (b : BlitterState) (mem : ChipRam) : Prop where
  busy : b.busy = false
  exec : b.execState = .idle
  remaining : b.cyclesRemaining = 0
  outcome : (b.result, mem) = lineOutcome b0.cmd mem0
  regs : b.regs = (blitterPublishResult { b0 with result := (lineOutcome b0.cmd mem0).1 }).regs

theorem refLineLoop_succ (cmd : BlitCommand) : ∀ (k : Nat) (v : RefLineVars) (mem : ChipRam),
    refLineLoop cmd (k + 1) v mem =
      refLinePixel cmd (refLineLoop cmd k v mem).1 (refLineLoop cmd k v mem).2
  | 0, _, _ => rfl
  | k + 1, v, mem => refLineLoop_succ cmd k (refLinePixel cmd v mem).1 (refLinePixel cmd v mem).2

theorem lineStateInit_phase (s : BlitterLineState) (cmd : BlitCommand) (p : UInt8) :
    refOfLine (lineStateInit { s with pixelSlotPhase := p } cmd) = refOfLine (lineStateInit s cmd) ∧
      (lineStateInit { s with pixelSlotPhase := p } cmd).stepIndex = (lineStateInit s cmd).stepIndex ∧
      linePublishPartialResult cmd (lineStateInit { s with pixelSlotPhase := p } cmd) =
        linePublishPartialResult cmd (lineStateInit s cmd) := by
  unfold lineStateInit
  cases h : s.initialized
  · exact ⟨rfl, rfl, rfl⟩
  · exact ⟨rfl, rfl, rfl⟩

theorem lineStateInit_initialized (s : BlitterLineState) (cmd : BlitCommand) :
    (lineStateInit s cmd).initialized = true := by
  unfold lineStateInit
  split
  · assumption
  · rfl

theorem lineStateInit_of_initialized {s : BlitterLineState} (cmd : BlitCommand) (h : s.initialized = true) :
    lineStateInit s cmd = s := by
  simp only [lineStateInit, h, if_true]

section
variable {b0 b : BlitterState} {mem0 mem : ChipRam} {k : Nat}

theorem LineProgress.not_done (h : LineProgress b0 mem0 k b mem) : blitterLineDone b = false := by
  unfold blitterLineDone
  rw [h.cmd, h.mode]
  simp only [ne_eq, not_true_eq_false, if_false, Bool.and_eq_false_imp, decide_eq_false_iff_not, ge_iff_le,
    UInt16.not_le]
  intro hinit
  have hidx := h.index
  rw [lineStateInit_of_initialized _ hinit] at hidx
  rw [UInt16.lt_iff_toNat_lt, hidx]
  exact h.open_ hinit

/-- A slot's head and its phase bit leave the drawing where it is. -/
theorem LineProgress.phase (h : LineProgress b0 mem0 k b mem) (p : UInt8) :
    LineProgress b0 mem0 k (linePhase (lineConsumeSlot b) p) mem := by
  obtain ⟨href, hidx, hres⟩ := lineStateInit_phase b.lineState b0.cmd p
  refine ⟨h.busy, h.exec, h.mode, h.cmd, h.regs, h.lt, h.fresh, h.open_, ?_, ?_, ?_⟩
  · exact (congrArg UInt16.toNat hidx).trans h.index
  · exact (congrArg (·, mem) href).trans h.drawn
  · exact h.result.trans (congrArg (ite (k = 0) _) hres.symm)

theorem LineProgress.step_eq (h : LineProgress b0 mem0 k b mem) :
    blitterLineStep b mem =
      if k < b0.cmd.heightLines.toNat then
        ({ b with
            lineState := (linePixel b0.cmd (lineStateInit b.lineState b0.cmd) mem).1
            result := linePublishPartialResult b0.cmd
              (linePixel b0.cmd (lineStateInit b.lineState b0.cmd) mem).1 },
          (linePixel b0.cmd (lineStateInit b.lineState b0.cmd) mem).2)
      else ({ b with lineState := lineStateInit b.lineState b0.cmd }, mem) := by
  unfold blitterLineStep
  rw [h.cmd, h.mode]
  simp only [ne_eq, not_true_eq_false, if_false, ge_iff_le, UInt16.le_iff_toNat_le, h.index]
  by_cases hk : k < b0.cmd.heightLines.toNat
  · rw [if_neg (by omega), if_pos hk]
  · rw [if_pos (by omega), if_neg hk]

theorem LineProgress.pixel_ref (h : LineProgress b0 mem0 k b mem) :
    (refOfLine (linePixel b0.cmd (lineStateInit b.lineState b0.cmd) mem).1,
        (linePixel b0.cmd (lineStateInit b.lineState b0.cmd) mem).2) =
      refLineLoop b0.cmd (k + 1) (refLineStart b0.cmd) mem0 := by
  rw [linePixel_ref, refLineLoop_succ, ← h.drawn]

theorem LineProgress.pixel_frame (h : LineProgress b0 mem0 k b mem) (hk : k < b0.cmd.heightLines.toNat) :
    (linePixel b0.cmd (lineStateInit b.lineState b0.cmd) mem).1.stepIndex.toNat = k + 1 ∧
      (linePixel b0.cmd (lineStateInit b.lineState b0.cmd) mem).1.initialized = true ∧
      (linePixel b0.cmd (lineStateInit b.lineState b0.cmd) mem).1.pixelSlotPhase =
        (lineStateInit b.lineState b0.cmd).pixelSlotPhase := by
  have hframe := linePixel_frame b0.cmd (lineStateInit b.lineState b0.cmd) mem
  simp only [lineFrame, Prod.mk.injEq] at hframe
  have hlt := b0.cmd.heightLines.toNat_lt
  refine ⟨?_, ?_, hframe.2.2⟩
  · rw [hframe.1, UInt16.toNat_add, h.index]
    simp only [UInt16.reduceToNat]
    omega
  · rw [hframe.2.1, lineStateInit_initialized]

theorem LineProgress.pixel (h : LineProgress b0 mem0 k b mem) (hk : k + 1 < lineSpan b0.cmd) :
    LineProgress b0 mem0 (k + 1) (blitterLineStep b mem).1 (blitterLineStep b mem).2 := by
  have hspan : k + 1 < b0.cmd.heightLines.toNat := by unfold lineSpan at hk; omega
  obtain ⟨hidx, hinit, _⟩ := h.pixel_frame (by omega)
  rw [h.step_eq, if_pos (by omega)]
  have hsame := lineStateInit_of_initialized b0.cmd hinit
  refine ⟨h.busy, h.exec, h.mode, h.cmd, h.regs, hk, ?_, fun _ => hspan, ?_, ?_, ?_⟩
  · intro hfalse
    exact absurd hfalse (by simp [hinit])
  · rw [hsame]; exact hidx
  · rw [hsame]; exact h.pixel_ref
  · rw [hsame, if_neg (Nat.succ_ne_zero k)]

theorem executeLineMode_of_pos {cmd : BlitCommand} (hpos : cmd.heightLines ≠ 0) (s : BlitterLineState)
    (mem mem' : ChipRam)
    (h : (refOfLine s, mem') = refLineLoop cmd cmd.heightLines.toNat (refLineStart cmd) mem) :
    executeLineMode cmd mem = (linePublishPartialResult cmd s, mem') := by
  unfold executeLineMode
  rw [if_neg hpos, ← h]
  rfl

/-- The last pixel: the blit is done, and what it publishes is the outcome. -/
theorem LineProgress.last (h : LineProgress b0 mem0 k b mem) (hk : k + 1 = lineSpan b0.cmd) :
    blitterLineDone (blitterLineStep b mem).1 = true ∧
      LineFinished b0 mem0 (blitterFinish (blitterLineStep b mem).1 (blitterLineStep b mem).2).blitter
        (blitterFinish (blitterLineStep b mem).1 (blitterLineStep b mem).2).mem := by
  rw [h.step_eq]
  by_cases hh : k < b0.cmd.heightLines.toNat
  · rw [if_pos hh]
    obtain ⟨hidx, hinit, _⟩ := h.pixel_frame hh
    have hlast : k + 1 = b0.cmd.heightLines.toNat := by unfold lineSpan at hk; omega
    have hpos : b0.cmd.heightLines ≠ 0 := by
      intro hz; rw [hz] at hh; simp at hh
    have hexec := executeLineMode_of_pos hpos _ mem0 _ (hlast ▸ h.pixel_ref)
    have hout : lineOutcome b0.cmd mem0 = executeLineMode b0.cmd mem0 := if_neg hpos
    refine ⟨?_, rfl, rfl, rfl, ?_, ?_⟩
    · unfold blitterLineDone
      simp only [h.cmd, h.mode, hinit, UInt16.le_iff_toNat_le, hidx, hlast, ne_eq, not_true_eq_false, if_false,
        ge_iff_le, Nat.le_refl, decide_true, Bool.and_self]
    · rw [hout, hexec]; rfl
    · rw [hout, hexec]
      unfold blitterFinish blitterForceFinish blitterPublishResult
      dsimp only
      rw [h.regs]
  · rw [if_neg hh]
    have hzero : b0.cmd.heightLines = 0 := by
      have hlt := h.lt
      unfold lineSpan at hlt
      rw [← UInt16.toNat_inj]
      simp only [UInt16.reduceToNat]
      omega
    have hk0 : k = 0 := by unfold lineSpan at hk; rw [hzero] at hk; simpa using hk
    have hout : lineOutcome b0.cmd mem0 = ({ BlitterResult.cleared with zero := true }, mem0) := if_pos hzero
    have hres := h.result
    rw [if_pos hk0] at hres
    have hmem : mem = mem0 := by
      have hd := congrArg Prod.snd h.drawn
      rw [hk0] at hd
      exact hd
    refine ⟨?_, rfl, rfl, rfl, ?_, ?_⟩
    · unfold blitterLineDone
      simp only [h.cmd, h.mode, lineStateInit_initialized, hzero, ne_eq, not_true_eq_false, if_false, ge_iff_le,
        UInt16.zero_le, decide_true, Bool.and_self]
    · rw [hout, ← hres, ← hmem]; rfl
    · rw [hout, ← hres]
      unfold blitterFinish blitterForceFinish blitterPublishResult
      dsimp only
      rw [h.regs]

theorem LineProgress.step_phase (h : LineProgress b0 mem0 k b mem) (hp : b.lineState.pixelSlotPhase = 0) :
    (blitterLineStep b mem).1.lineState.pixelSlotPhase = 0 := by
  have hinit : (lineStateInit b.lineState b0.cmd).pixelSlotPhase = 0 := by
    unfold lineStateInit
    split
    · exact hp
    · rfl
  rw [h.step_eq]
  split
  · rename_i hk
    exact (h.pixel_frame hk).2.2.trans hinit
  · exact hinit

end

theorem blitterLineStep_timing (b : BlitterState) (mem : ChipRam) :
    (blitterLineStep b mem).1.cyclesRemaining = b.cyclesRemaining ∧
      (blitterLineStep b mem).1.cycleExact = b.cycleExact := by
  unfold blitterLineStep
  dsimp only
  repeat' split
  all_goals exact ⟨rfl, rfl⟩

theorem lineConsumeSlot_remaining (b : BlitterState) :
    (lineConsumeSlot b).cyclesRemaining.toNat = b.cyclesRemaining.toNat - 1 := by
  unfold lineConsumeSlot
  dsimp only
  split
  · rename_i hpos
    rw [gt_iff_lt, UInt32.lt_iff_toNat_lt] at hpos
    rw [UInt32.toNat_sub_of_le _ _ (by rw [UInt32.le_iff_toNat_le]; exact hpos)]
    rfl
  · rename_i hzero
    rw [gt_iff_lt, UInt32.lt_iff_toNat_lt] at hzero
    simp only [UInt32.toNat_zero] at hzero
    omega

/-- The slots a line still needs with `k` pixels drawn: two a pixel in the cycle-exact model, one of them spent
when the phase bit is set. -/
def lineDue (exact : Bool) (cmd : BlitCommand) (k : Nat) (phase : UInt8) : Nat :=
  if exact then 2 * (lineSpan cmd - k) - (if phase = 0 then 0 else 1) else lineSpan cmd - k

theorem lineDue_pos {cmd : BlitCommand} {k : Nat} (h : k < lineSpan cmd) (exact : Bool) (phase : UInt8) :
    0 < lineDue exact cmd k phase := by
  unfold lineDue
  split
  · split <;> omega
  · omega

/-- What one call with `n` slots leaves when the line needs `d`: with `n < d` the drawing has moved `n` slots on,
otherwise it is over and BLIT is raised. -/
structure LineCall (b0 : BlitterState) (mem0 : ChipRam) (b : BlitterState) (d n : Nat) (out : BlitterStep) : Prop where
  short : n < d → ∃ k, LineProgress b0 mem0 k out.blitter out.mem ∧ out.irq = none ∧
    lineDue b.cycleExact b0.cmd k out.blitter.lineState.pixelSlotPhase = d - n ∧
    out.blitter.cycleExact = b.cycleExact ∧
    out.blitter.cyclesRemaining.toNat = b.cyclesRemaining.toNat - n
  enough : d ≤ n → LineFinished b0 mem0 out.blitter out.mem ∧ out.irq = some blitterIntreqBlit

/-- **The slot loop.** Whatever number of slots a call grants, the line spends exactly the slots it needs. -/
theorem lineDmaLoop_call {b0 : BlitterState} {mem0 : ChipRam} : ∀ (n : Nat) (b : BlitterState) (mem : ChipRam) (k : Nat),
    LineProgress b0 mem0 k b mem →
    LineCall b0 mem0 b (lineDue b.cycleExact b0.cmd k b.lineState.pixelSlotPhase) n (lineDmaLoop n b mem)
  | 0, b, mem, k, h => by
    refine ⟨fun _ => ⟨k, h, rfl, rfl, rfl, rfl⟩, fun hd => ?_⟩
    have hpos := lineDue_pos h.lt b.cycleExact b.lineState.pixelSlotPhase
    omega
  | n + 1, b, mem, k, h => by
    unfold lineDmaLoop
    rw [h.not_done]
    simp only [Bool.false_eq_true, if_false]
    -- a later call is this call one slot on, whichever kind of slot this one was
    have hnext : ∀ {b' : BlitterState} {mem' : ChipRam} {k' : Nat}, LineProgress b0 mem0 k' b' mem' →
        b'.cycleExact = b.cycleExact → b'.cyclesRemaining.toNat = b.cyclesRemaining.toNat - 1 →
        lineDue b.cycleExact b0.cmd k' b'.lineState.pixelSlotPhase + 1 =
          lineDue b.cycleExact b0.cmd k b.lineState.pixelSlotPhase →
        LineCall b0 mem0 b (lineDue b.cycleExact b0.cmd k b.lineState.pixelSlotPhase) (n + 1)
          (lineDmaLoop n b' mem') := by
      intro b' mem' k' h' hexact hrem hdue
      have hcall := lineDmaLoop_call n b' mem' k' h'
      rw [hexact] at hcall
      refine ⟨fun hn => ?_, fun hn => hcall.enough (by omega)⟩
      obtain ⟨k2, hp, hirq, hd, he, hr⟩ := hcall.short (by omega)
      rw [hexact] at hd he
      exact ⟨k2, hp, hirq, by omega, he, by omega⟩
    split
    · rename_i hread
      simp only [lineConsumeSlot, Bool.and_eq_true, beq_iff_eq] at hread
      refine hnext (h.phase 1) rfl (lineConsumeSlot_remaining b) ?_
      have hlt := h.lt
      simp only [lineDue, hread.1, hread.2, linePhase, if_true]
      simp
      omega
    · rename_i hwrite
      have hb2 := h.phase 0
      have hphase := hb2.step_phase rfl
      have htime := blitterLineStep_timing (linePhase (lineConsumeSlot b) 0) mem
      have hone : lineDue b.cycleExact b0.cmd k b.lineState.pixelSlotPhase =
          lineDue b.cycleExact b0.cmd (k + 1) 0 + 1 := by
        have hlt := h.lt
        simp only [lineConsumeSlot, Bool.and_eq_true, beq_iff_eq, not_and] at hwrite
        unfold lineDue
        cases he : b.cycleExact
        · simp; omega
        · simp [hwrite he]; omega
      by_cases hk : k + 1 < lineSpan b0.cmd
      · have hpx := hb2.pixel hk
        rw [hpx.not_done]
        simp only [Bool.false_eq_true, if_false]
        refine hnext hpx htime.2 ?_ ?_
        · rw [htime.1]; exact lineConsumeSlot_remaining b
        · rw [hphase, hone]
      · obtain ⟨hdone, hfin⟩ := hb2.last (by have := h.lt; omega)
        rw [hdone]
        simp only [if_true]
        refine ⟨fun hn => ?_, fun _ => ⟨hfin, rfl⟩⟩
        have hlast : lineDue b.cycleExact b0.cmd (k + 1) 0 = 0 := by
          unfold lineDue
          split
          · simp; omega
          · omega
        omega

/-! ## The start and the calls -/

theorem blitterWriteReg16_start (b : BlitterState) {off : UInt32} (v : UInt16) (hs : blitterStartsAt off = true) :
    blitterWriteReg16 b off v = blitterBeginCommand { b with regs := blitterWriteRegs b.regs off v } := by
  unfold blitterWriteReg16
  rw [hs]
  rfl

theorem LineProgress.start {b : BlitterState} {off : UInt32} {v : UInt16} (mem : ChipRam)
    (hs : blitterStartsAt off = true) (hline : (blitterWriteReg16 b off v).cmd.mode = .line) :
    LineProgress (blitterWriteReg16 b off v) mem 0 (blitterWriteReg16 b off v) mem := by
  rw [blitterWriteReg16_start b v hs] at hline ⊢
  refine ⟨rfl, rfl, hline, rfl, rfl, ?_, fun _ => rfl, ?_, rfl, ?_, rfl⟩
  · unfold lineSpan; omega
  · intro h; cases h
  · exact congrArg (·, mem) (refOfLine_start _ _ rfl)

/-- A sequence of `blitter_step_dma` calls: before each the host may have switched the cost model. -/
def grantRun : List (Bool × UInt32) → BlitterState → ChipRam → BlitterState × ChipRam
  | [], b, mem => (b, mem)
  | (exact, slots) :: grants, b, mem =>
    let out := blitterStepDma { b with cycleExact := exact } mem slots
    grantRun grants out.blitter out.mem

def grantTotal (grants : List (Bool × UInt32)) : Nat := (grants.map fun g => g.2.toNat).sum

theorem grantRun_finished {b0 : BlitterState} {mem0 : ChipRam} :
    ∀ (grants : List (Bool × UInt32)) (b : BlitterState) (mem : ChipRam), LineFinished b0 mem0 b mem →
      LineFinished b0 mem0 (grantRun grants b mem).1 (grantRun grants b mem).2
  | [], _, _, h => h
  | (exact, slots) :: grants, b, mem, h => by
    have hidle : blitterStepDma { b with cycleExact := exact } mem slots = ⟨{ b with cycleExact := exact }, mem, none⟩ := by
      unfold blitterStepDma
      simp only [h.busy, Bool.not_false, if_true]
    unfold grantRun
    rw [hidle]
    exact grantRun_finished grants _ mem ⟨h.busy, h.exec, h.remaining, h.outcome, h.regs⟩

theorem LineProgress.stepDma {b0 b : BlitterState} {mem0 mem : ChipRam} {k : Nat}
    (h : LineProgress b0 mem0 k b mem) (slots : UInt32) :
    blitterStepDma b mem slots = lineDmaLoop slots.toNat b mem := by
  unfold blitterStepDma
  rw [h.busy, h.cmd, h.mode]
  rfl

/-- **Any sequence of calls.** The line is still being drawn, and each granted slot has brought its end nearer in
the slower of the two cost models, or it is finished. -/
theorem grantRun_progress {b0 : BlitterState} {mem0 : ChipRam} :
    ∀ (grants : List (Bool × UInt32)) (b : BlitterState) (mem : ChipRam) (k : Nat), LineProgress b0 mem0 k b mem →
      (∃ k', LineProgress b0 mem0 k' (grantRun grants b mem).1 (grantRun grants b mem).2 ∧
        lineDue true b0.cmd k' (grantRun grants b mem).1.lineState.pixelSlotPhase + grantTotal grants ≤
          lineDue true b0.cmd k b.lineState.pixelSlotPhase) ∨
      LineFinished b0 mem0 (grantRun grants b mem).1 (grantRun grants b mem).2
  | [], _, _, k, h => Or.inl ⟨k, h, by simp [grantTotal, grantRun]⟩
  | (exact, slots) :: grants, b, mem, k, h => by
    have hb : LineProgress b0 mem0 k { b with cycleExact := exact } mem :=
      ⟨h.busy, h.exec, h.mode, h.cmd, h.regs, h.lt, h.fresh, h.open_, h.index, h.drawn, h.result⟩
    have htotal : grantTotal ((exact, slots) :: grants) = slots.toNat + grantTotal grants := rfl
    unfold grantRun
    rw [hb.stepDma]
    have hcall := lineDmaLoop_call slots.toNat _ mem k hb
    dsimp only at hcall ⊢
    by_cases hzero : slots.toNat = 0
    · rw [hzero] at htotal ⊢
      rcases grantRun_progress grants _ mem k hb with ⟨k', hp, hdue⟩ | hfin
      · exact Or.inl ⟨k', hp, by rw [htotal]; dsimp only at hdue; simp only [lineDmaLoop]; omega⟩
      · exact Or.inr hfin
    · by_cases hd : slots.toNat < lineDue exact b0.cmd k b.lineState.pixelSlotPhase
      · obtain ⟨k1, hp1, -, hdue1, -, -⟩ := hcall.short hd
        dsimp only at hdue1
        rcases grantRun_progress grants _ _ k1 hp1 with ⟨k', hp, hdue⟩ | hfin
        · refine Or.inl ⟨k', hp, ?_⟩
          have hlt := h.lt
          have hlt1 := hp1.lt
          have hspent : lineDue true b0.cmd k1 (lineDmaLoop slots.toNat { b with cycleExact := exact }
              mem).blitter.lineState.pixelSlotPhase + slots.toNat ≤
              lineDue true b0.cmd k b.lineState.pixelSlotPhase := by
            cases exact
            · simp only [lineDue, Bool.false_eq_true, if_false, if_true] at hdue1 hd ⊢
              split <;> split <;> omega
            · omega
          omega
        · exact Or.inr hfin
      · exact Or.inr (grantRun_finished grants _ _ (hcall.enough (by omega)).1)

/-- The incremental path, whenever it has finished, agrees with the one-shot reference run on the same command
and memory: in memory, in the published result and in the registers it went to. -/
def LineBlitAgrees (b0 : BlitterState) (mem : ChipRam) : Prop :=
  ∀ grants : List (Bool × UInt32), (grantRun grants b0 mem).1.busy = false →
    ((grantRun grants b0 mem).1.result, (grantRun grants b0 mem).2) = executeLineMode b0.cmd mem ∧
      (grantRun grants b0 mem).1.regs =
        (blitterPublishResult { b0 with result := (executeLineMode b0.cmd mem).1 }).regs

/-- Every pointer and data register that a line command froze is zero. -/
def lineCommandBlank (cmd : BlitCommand) : Bool :=
  cmd.apt == 0 && cmd.bpt == 0 && cmd.cpt == 0 && cmd.dpt == 0 && cmd.adat == 0 && cmd.bdat == 0 && cmd.cdat == 0 &&
    cmd.bhold == 0

theorem lineOutcome_eq_execute_iff (cmd : BlitCommand) (mem : ChipRam) :
    lineOutcome cmd mem = executeLineMode cmd mem ↔ cmd.heightLines ≠ 0 ∨ lineCommandBlank cmd = true := by
  unfold lineOutcome
  by_cases hz : cmd.heightLines = 0
  · rw [if_pos hz]
    unfold executeLineMode lineCommandBlank
    rw [if_pos hz]
    simp only [BlitterResult.cleared, hz, Prod.mk.injEq, BlitterResult.mk.injEq, and_true, ne_eq, not_true_eq_false,
      false_or, Bool.and_eq_true, beq_iff_eq]
    constructor
    · rintro ⟨ha, hb, hc, hd, hea, heb, hec, -, hbh⟩
      exact ⟨⟨⟨⟨⟨⟨⟨ha.symm, hb.symm⟩, hc.symm⟩, hd.symm⟩, hea.symm⟩, heb.symm⟩, hec.symm⟩, hbh.symm⟩
    · rintro ⟨⟨⟨⟨⟨⟨⟨ha, hb⟩, hc⟩, hd⟩, hea⟩, heb⟩, hec⟩, hbh⟩
      exact ⟨ha.symm, hb.symm, hc.symm, hd.symm, hea.symm, heb.symm, hec.symm, trivial, hbh.symm⟩
  · rw [if_neg hz]
    exact ⟨fun _ => Or.inl hz, fun _ => rfl⟩

/-- **The resumable line drawer against the reference.** A line blit finishes within two slots a pixel however the
slots are cut into calls and the cost model is switched between them; and the finished blit agrees with the one-shot
reference exactly when its height is not zero, or it froze nothing but zeros. -/
theorem lineBlit_agrees_iff (b : BlitterState) (off : UInt32) (v : UInt16) (mem : ChipRam)
    (hs : blitterStartsAt off = true) (hline : (blitterWriteReg16 b off v).cmd.mode = .line) :
    (∀ grants : List (Bool × UInt32),
        2 * max (blitterWriteReg16 b off v).cmd.heightLines.toNat 1 ≤ grantTotal grants →
        (grantRun grants (blitterWriteReg16 b off v) mem).1.busy = false) ∧
      (LineBlitAgrees (blitterWriteReg16 b off v) mem ↔
        (blitterWriteReg16 b off v).cmd.heightLines ≠ 0 ∨
          lineCommandBlank (blitterWriteReg16 b off v).cmd = true) := by
  have hstart := LineProgress.start mem hs hline
  generalize blitterWriteReg16 b off v = b0 at hstart
  have hfinish : ∀ grants : List (Bool × UInt32), 2 * lineSpan b0.cmd ≤ grantTotal grants →
      LineFinished b0 mem (grantRun grants b0 mem).1 (grantRun grants b0 mem).2 := by
    intro grants htotal
    rcases grantRun_progress grants b0 mem 0 hstart with ⟨k', hp, hdue⟩ | hfin
    · have hpos := lineDue_pos hp.lt true (grantRun grants b0 mem).1.lineState.pixelSlotPhase
      have hmax : lineDue true b0.cmd 0 b0.lineState.pixelSlotPhase ≤ 2 * lineSpan b0.cmd := by
        simp only [lineDue, if_true]; omega
      omega
    · exact hfin
  refine ⟨fun grants h => (hfinish grants h).busy, ?_⟩
  rw [← lineOutcome_eq_execute_iff b0.cmd mem]
  constructor
  · intro hagrees
    have hslots : (2 * b0.cmd.heightLines.toUInt32 + 2).toNat = 2 * b0.cmd.heightLines.toNat + 2 := by
      have hlt := b0.cmd.heightLines.toNat_lt
      simp only [UInt32.toNat_add, UInt32.toNat_mul, UInt16.toNat_toUInt32, UInt32.reduceToNat]
      omega
    have hfin := hfinish [(false, 2 * b0.cmd.heightLines.toUInt32 + 2)] (by
      simp only [grantTotal, List.map_cons, List.map_nil, List.sum_cons, List.sum_nil, hslots, lineSpan]
      omega)
    exact hfin.outcome.symm.trans (hagrees _ hfin.busy).1
  · intro heq grants hbusy
    rcases grantRun_progress grants b0 mem 0 hstart with ⟨k', hp, -⟩ | hfin
    · exact absurd hp.busy (by simp [hbusy])
    · exact ⟨hfin.outcome.trans heq, hfin.regs.trans (by rw [heq])⟩

/-- An empty 512K chip memory. -/
def blankRam : ChipRam := ⟨.ocs, 0, true, true, fun _ => 0⟩

/-- The registers after reset, BLTCON1 := LINE and BLTADAT := $8000, with BLTSIZV never written. -/
def lineWithoutHeight : BlitterState :=
  blitterWriteReg16 (blitterWriteReg16 blitterInit 0x042 0x0001) 0x074 0x8000

/-- The registers of a line of eight pixels, two rows to a column, into the words at $1000. -/
def lineOfEight : BlitterState :=
  ([(0x040, 0x0BCA), (0x042, 0x0041), (0x04A, 0x1000), (0x052, 0xFFFE), (0x056, 0x1000), (0x060, 2), (0x062, 12),
    (0x064, 0xFFF0), (0x066, 2), (0x072, 0xFFFF), (0x074, 0x8000)] : List (UInt32 × UInt16)).foldl
    (fun b w => blitterWriteReg16 b w.1 w.2) blitterInit

/-- Sixteen slots in three calls, the second under the other cost model. -/
def threeGrants : List (Bool × UInt32) := [(true, 5), (false, 2), (true, 9)]

/-- The eight pixels, however the slots are cut: after these three calls the blit has ended, and the last row's pixel
stands in the memory and in the reference's. -/
theorem lineBlit_agrees_eight_pixels :
    LineBlitAgrees (blitterWriteReg16 lineOfEight 0x058 0x0202) blankRam ∧
      (grantRun threeGrants (blitterWriteReg16 lineOfEight 0x058 0x0202) blankRam).1.busy = false ∧
      chipRamRead16 (grantRun threeGrants (blitterWriteReg16 lineOfEight 0x058 0x0202) blankRam).2 0x100E = 0x1000 ∧
      chipRamRead16 (executeLineMode (blitterWriteReg16 lineOfEight 0x058 0x0202).cmd blankRam).2 0x100E = 0x1000 := by
  have hagrees : LineBlitAgrees (blitterWriteReg16 lineOfEight 0x058 0x0202) blankRam :=
    (lineBlit_agrees_iff lineOfEight 0x058 0x0202 blankRam rfl (by decide +kernel)).2.mpr (.inl (by decide +kernel))
  have hbusy : (grantRun threeGrants (blitterWriteReg16 lineOfEight 0x058 0x0202) blankRam).1.busy = false := by
    decide +kernel
  have hword : chipRamRead16 (grantRun threeGrants (blitterWriteReg16 lineOfEight 0x058 0x0202) blankRam).2 0x100E = 0x1000 := by
    decide +kernel
  have hmem := congrArg Prod.snd (hagrees threeGrants hbusy).1
  exact ⟨hagrees, hbusy, hword, hmem ▸ hword⟩

/-- BLTSIZH alone starts a line of height zero: the first slot ends it and publishes zeros over BLTADAT, where the
reference publishes the frozen registers. -/
theorem lineBlit_height_zero_disagrees :
    ¬ LineBlitAgrees (blitterWriteReg16 lineWithoutHeight 0x05E 0x0001) blankRam := by
  intro hagrees
  have hres := congrArg (fun r => r.1.finalAdat) (hagrees [(false, 1)] rfl).1
  exact absurd hres (by decide)

end Rigel
