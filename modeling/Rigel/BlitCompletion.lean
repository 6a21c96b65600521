import Rigel.LineBlit

/-!
# BlitCompletion — a blit ends on the slot its estimate names

`blitter_estimate_cycles` is computed once, at the start; the DMA slots then arrive in calls of any size. A copy keeps
time by its countdown alone, a line by its pixels and phases beside the countdown. The two clocks agree, slot for
slot, in every case but one: a cycle-exact line of height zero, whose estimate of one slot forgets the read slot.
-/

namespace Rigel

theorem clampOne_pos (cycles : UInt32) : 0 < (if cycles = 0 then 1 else cycles).toNat := by
  split
  · decide
  · rename_i hne
    rw [← UInt32.toNat_inj] at hne
    exact Nat.pos_of_ne_zero hne

theorem blitterEstimateCycles_pos (cmd : BlitCommand) (exact : Bool) :
    0 < (blitterEstimateCycles cmd exact).toNat := clampOne_pos _

theorem blitterEstimateCycles_line {cmd : BlitCommand} (h : cmd.mode = .line) (exact : Bool) :
    (blitterEstimateCycles cmd exact).toNat =
      if exact then max (2 * cmd.heightLines.toNat) 1 else lineSpan cmd := by
  have hlt := cmd.heightLines.toNat_lt
  unfold blitterEstimateCycles lineSpan
  rw [h]
  cases exact
  · simp only [Bool.false_eq_true, if_false]
    split
    · rename_i hz
      rw [← UInt32.toNat_inj] at hz
      simp only [UInt16.toNat_toUInt32, UInt32.reduceToNat] at hz ⊢
      omega
    · rename_i hz
      rw [← UInt32.toNat_inj] at hz
      simp only [UInt16.toNat_toUInt32, UInt32.reduceToNat] at hz ⊢
      omega
  · simp only [if_true]
    split
    · rename_i hz
      rw [← UInt32.toNat_inj] at hz
      simp only [UInt32.toNat_mul, UInt16.toNat_toUInt32, UInt32.reduceToNat] at hz ⊢
      omega
    · rename_i hz
      rw [← UInt32.toNat_inj] at hz
      simp only [UInt32.toNat_mul, UInt16.toNat_toUInt32, UInt32.reduceToNat] at hz ⊢
      omega

/-- The one command whose estimate and cadence disagree. -/
def estimateMissesReadSlot (b : BlitterState) : Bool :=
  b.cmd.mode == .line && b.cmd.heightLines == 0 && b.cycleExact

theorem lineDue_start_of_estimate {b : BlitterState} (h : b.cmd.mode = .line)
    (hok : estimateMissesReadSlot b = false) :
    lineDue b.cycleExact b.cmd 0 0 = (blitterEstimateCycles b.cmd b.cycleExact).toNat := by
  rw [blitterEstimateCycles_line h]
  simp only [estimateMissesReadSlot, h, BEq.rfl, Bool.true_and, Bool.and_eq_false_imp, beq_iff_eq] at hok
  unfold lineDue lineSpan
  cases he : b.cycleExact
  · simp
  · have hz : b.cmd.heightLines.toNat ≠ 0 := by
      intro hz
      have hzero : b.cmd.heightLines = 0 := UInt16.toNat_inj.mp hz
      exact absurd (hok hzero) (by simp [he])
    simp only [if_true]
    omega

/-! ## Live and dead blits -/

/-- `t` of the `n` slots of the blit that `b0` started are granted, and it still counts. -/
structure BlitCounting (b0 : BlitterState) (mem0 : ChipRam) (n t : Nat) (b : BlitterState) (mem : ChipRam) : Prop where
  busy : b.busy = true
  lt : t < n
  remaining : b.cyclesRemaining.toNat = n - t
  cadence :
    (b.cmd.mode = .copy ∧ ((b.execState = .pending ∧ b.commandValid = true) ∨ b.execState = .running)) ∨
      ∃ k, LineProgress b0 mem0 k b mem ∧ lineDue b.cycleExact b0.cmd k b.lineState.pixelSlotPhase = n - t

theorem BlitCounting.exec {b0 b : BlitterState} {mem0 mem : ChipRam} {n t : Nat}
    (h : BlitCounting b0 mem0 n t b mem) : b.execState ≠ .idle := by
  rcases h.cadence with ⟨-, ⟨hp, -⟩ | hr⟩ | ⟨k, hk, -⟩
  · rw [hp]; decide
  · rw [hr]; decide
  · rw [hk.exec]; decide

theorem copyCountdown_counting {b0 b : BlitterState} {mem0 mem : ChipRam} {n t : Nat} (hbusy : b.busy = true)
    (hmode : b.cmd.mode = .copy) (hrun : b.execState = .running) (hlt : t < n)
    (hrem : b.cyclesRemaining.toNat = n - t) (slots : UInt32) :
    (t + slots.toNat < n →
      BlitCounting b0 mem0 n (t + slots.toNat) (copyCountdown b mem slots).blitter (copyCountdown b mem slots).mem ∧
        (copyCountdown b mem slots).irq = none) ∧
      (n ≤ t + slots.toNat → (copyCountdown b mem slots).blitter.busy = false ∧
        (copyCountdown b mem slots).irq = some blitterIntreqBlit) := by
  unfold copyCountdown
  dsimp only
  split
  · rename_i hgt
    rw [gt_iff_lt, UInt32.lt_iff_toNat_lt] at hgt
    refine ⟨fun hs => ⟨⟨hbusy, hs, ?_, Or.inl ⟨hmode, Or.inr hrun⟩⟩, rfl⟩, fun hs => by omega⟩
    dsimp only
    rw [UInt32.toNat_sub_of_le _ _ (by rw [UInt32.le_iff_toNat_le]; omega)]
    omega
  · rename_i hle
    rw [gt_iff_lt, UInt32.lt_iff_toNat_lt] at hle
    exact ⟨fun hs => by omega, fun _ => ⟨rfl, rfl⟩⟩

/-- **One call.** It moves the count by its slots, or it contains slot `n`: then it ends the blit and raises BLIT. -/
theorem BlitCounting.call {b0 b : BlitterState} {mem0 mem : ChipRam} {n t : Nat}
    (h : BlitCounting b0 mem0 n t b mem) (slots : UInt32) :
    (t + slots.toNat < n →
      BlitCounting b0 mem0 n (t + slots.toNat) (blitterStepDma b mem slots).blitter
        (blitterStepDma b mem slots).mem ∧ (blitterStepDma b mem slots).irq = none) ∧
      (n ≤ t + slots.toNat → (blitterStepDma b mem slots).blitter.busy = false ∧
        (blitterStepDma b mem slots).irq = some blitterIntreqBlit) := by
  have hlt := h.lt
  have hrem := h.remaining
  rcases h.cadence with ⟨hmode, hexec⟩ | ⟨k, hk, hdue⟩
  · unfold blitterStepDma
    rw [h.busy, hmode]
    simp only [Bool.not_true, Bool.false_eq_true, if_false]
    rcases hexec with ⟨hpend, hvalid⟩ | hrun
    · rw [if_pos hpend]
      unfold blitterExecuteReference
      rw [hvalid, hmode]
      simp only [Bool.not_true, Bool.false_eq_true, if_false]
      refine copyCountdown_counting ?_ ?_ ?_ hlt ?_ slots
      · exact h.busy
      · exact hmode
      · rfl
      · exact hrem
    · rw [if_neg (by rw [hrun]; decide)]
      exact copyCountdown_counting h.busy hmode hrun hlt hrem slots
  · rw [hk.stepDma]
    have hcall := lineDmaLoop_call slots.toNat b mem k hk
    rw [hdue] at hcall
    refine ⟨fun hs => ?_, fun hs => ?_⟩
    · obtain ⟨k', hp, hirq, hd, he, hr⟩ := hcall.short (by omega)
      refine ⟨⟨hp.busy, hs, by omega, Or.inr ⟨k', hp, ?_⟩⟩, hirq⟩
      rw [he]
      omega
    · obtain ⟨hfin, hirq⟩ := hcall.enough (by omega)
      exact ⟨hfin.busy, hirq⟩

theorem blitterStepDma_idle {b : BlitterState} (mem : ChipRam) (h : b.busy = false) (slots : UInt32) :
    blitterStepDma b mem slots = ⟨b, mem, none⟩ := by
  unfold blitterStepDma
  rw [h]
  rfl

/-! ## The calls -/

/-- A sequence of `blitter_step_dma` calls with the given slots. -/
def callRun : List UInt32 → BlitterState → ChipRam → BlitterState × ChipRam
  | [], b, mem => (b, mem)
  | slots :: calls, b, mem =>
    callRun calls (blitterStepDma b mem slots).blitter (blitterStepDma b mem slots).mem

def callTotal (calls : List UInt32) : Nat := (calls.map UInt32.toNat).sum

theorem callRun_idle : ∀ (calls : List UInt32) (b : BlitterState) (mem : ChipRam), b.busy = false →
    callRun calls b mem = (b, mem)
  | [], _, _, _ => rfl
  | slots :: calls, b, mem, h => by
    unfold callRun
    rw [blitterStepDma_idle mem h]
    exact callRun_idle calls b mem h

theorem callRun_counting {b0 : BlitterState} {mem0 : ChipRam} {n : Nat} :
    ∀ (calls : List UInt32) (b : BlitterState) (mem : ChipRam) (t : Nat), BlitCounting b0 mem0 n t b mem →
      (t + callTotal calls < n →
        BlitCounting b0 mem0 n (t + callTotal calls) (callRun calls b mem).1 (callRun calls b mem).2) ∧
      (n ≤ t + callTotal calls → (callRun calls b mem).1.busy = false)
  | [], b, mem, t, h => by
    have hlt := h.lt
    refine ⟨fun _ => h, fun hn => ?_⟩
    simp only [callTotal, List.map_nil, List.sum_nil] at hn
    omega
  | slots :: calls, b, mem, t, h => by
    have htotal : callTotal (slots :: calls) = slots.toNat + callTotal calls := rfl
    obtain ⟨hshort, henough⟩ := h.call slots
    rw [htotal, ← Nat.add_assoc]
    unfold callRun
    by_cases hs : t + slots.toNat < n
    · exact callRun_counting calls _ _ _ (hshort hs).1
    · have hidle := (henough (by omega)).1
      rw [callRun_idle calls _ _ hidle]
      exact ⟨fun hn => by omega, fun _ => hidle⟩

/-- The blit started in `b0` ends on exactly the slot its estimate names: with `n` the estimate and `t` slots granted
in any calls, it is busy with `n - t` cycles left while `t < n` and over from `t = n` on, and a further call raises
BLIT just when the `n`-th slot is in it. -/
def BlitCompletes (b0 : BlitterState) (mem : ChipRam) : Prop :=
  ∀ calls : List UInt32,
    let n := (blitterEstimateCycles b0.cmd b0.cycleExact).toNat
    let t := callTotal calls
    let out := callRun calls b0 mem
    (t < n → out.1.busy = true ∧ out.1.execState ≠ .idle ∧ out.1.cyclesRemaining.toNat = n - t) ∧
      (n ≤ t → out.1.busy = false) ∧
      ∀ slots : UInt32, (blitterStepDma out.1 out.2 slots).irq =
        if t < n ∧ n ≤ t + slots.toNat then some blitterIntreqBlit else none

theorem BlitCounting.start {b : BlitterState} {off : UInt32} {v : UInt16} (mem : ChipRam)
    (hs : blitterStartsAt off = true) (hok : estimateMissesReadSlot (blitterWriteReg16 b off v) = false) :
    BlitCounting (blitterWriteReg16 b off v) mem
      (blitterEstimateCycles (blitterWriteReg16 b off v).cmd (blitterWriteReg16 b off v).cycleExact).toNat 0
      (blitterWriteReg16 b off v) mem := by
  have hpos := blitterEstimateCycles_pos (blitterWriteReg16 b off v).cmd (blitterWriteReg16 b off v).cycleExact
  have hform := blitterWriteReg16_start b v hs
  refine ⟨?_, hpos, ?_, ?_⟩
  · rw [hform]; rfl
  · rw [hform]; rfl
  · cases hmode : (blitterWriteReg16 b off v).cmd.mode with
    | copy =>
      refine Or.inl ⟨rfl, Or.inl ?_⟩
      rw [hform]
      exact ⟨rfl, rfl⟩
    | line =>
      refine Or.inr ⟨0, LineProgress.start mem hs hmode, ?_⟩
      have hphase : (blitterWriteReg16 b off v).lineState.pixelSlotPhase = 0 := by rw [hform]; rfl
      rw [hphase]
      exact lineDue_start_of_estimate hmode hok

/-- **Completion accounting.** In either cost model and for every programming of the registers, a started blit ends
on exactly the slot its estimate names, unless it is a cycle-exact line of height zero. -/
theorem blitCompletes_iff (b : BlitterState) (off : UInt32) (v : UInt16) (mem : ChipRam)
    (hs : blitterStartsAt off = true) :
    BlitCompletes (blitterWriteReg16 b off v) mem ↔ estimateMissesReadSlot (blitterWriteReg16 b off v) = false := by
  constructor
  · intro hcomp
    by_contra hmiss
    simp only [Bool.not_eq_false, estimateMissesReadSlot, Bool.and_eq_true, beq_iff_eq] at hmiss
    obtain ⟨⟨hmode, hzero⟩, hexact⟩ := hmiss
    have hstart := LineProgress.start mem hs hmode
    have hphase : (blitterWriteReg16 b off v).lineState.pixelSlotPhase = 0 := by
      rw [blitterWriteReg16_start b v hs]; rfl
    have hest : (blitterEstimateCycles (blitterWriteReg16 b off v).cmd
        (blitterWriteReg16 b off v).cycleExact).toNat = 1 := by
      rw [blitterEstimateCycles_line hmode, hexact, hzero]; rfl
    -- the read slot is the one slot of the estimate, and the blit is still on
    have hcall := lineDmaLoop_call 1 _ mem 0 hstart
    have hdue : lineDue true (blitterWriteReg16 b off v).cmd 0 0 = 2 := by
      simp [lineDue, lineSpan, hzero]
    rw [hexact, hphase, hdue] at hcall
    obtain ⟨k, hp, -⟩ := hcall.short (by omega)
    have hover := (hcomp [1]).2.1 (by rw [hest]; exact Nat.le_refl 1)
    have hrun : (callRun [1] (blitterWriteReg16 b off v) mem).1 =
        (lineDmaLoop 1 (blitterWriteReg16 b off v) mem).blitter := by
      show (blitterStepDma (blitterWriteReg16 b off v) mem 1).blitter = _
      rw [hstart.stepDma]
      rfl
    rw [hrun, hp.busy] at hover
    cases hover
  · intro hok calls
    have hstart := BlitCounting.start mem hs hok
    obtain ⟨hshort, henough⟩ := callRun_counting calls _ mem 0 hstart
    rw [Nat.zero_add] at hshort henough
    dsimp only
    refine ⟨fun ht => ?_, henough, fun slots => ?_⟩
    · have hc := hshort ht
      exact ⟨hc.busy, hc.exec, hc.remaining⟩
    · by_cases ht : callTotal calls <
          (blitterEstimateCycles (blitterWriteReg16 b off v).cmd (blitterWriteReg16 b off v).cycleExact).toNat
      · obtain ⟨hgo, hend⟩ := (hshort ht).call slots
        split
        · rename_i hin
          exact (hend hin.2).2
        · rename_i hout
          exact (hgo (by omega)).2
      · rw [blitterStepDma_idle _ (henough (by omega)), if_neg (by omega)]

/-- A cycle-exact line of eight pixels takes its sixteen slots: three calls of fifteen leave it busy with one to go, and
the next slot ends it with its interrupt. -/
theorem blitCompletes_eight_pixels :
    BlitCompletes (blitterWriteReg16 { lineOfEight with cycleExact := true } 0x058 0x0202) blankRam ∧
      (callRun [5, 2, 8] (blitterWriteReg16 { lineOfEight with cycleExact := true } 0x058 0x0202) blankRam).1.busy = true ∧
      (callRun [5, 2, 8] (blitterWriteReg16 { lineOfEight with cycleExact := true } 0x058 0x0202) blankRam).1.cyclesRemaining.toNat = 1 ∧
      (callRun [5, 2, 9] (blitterWriteReg16 { lineOfEight with cycleExact := true } 0x058 0x0202) blankRam).1.busy = false := by
  have hcomp := (blitCompletes_iff { lineOfEight with cycleExact := true } 0x058 0x0202 blankRam rfl).mpr
    (by decide +kernel)
  obtain ⟨hbusy, -, hleft⟩ := (hcomp [5, 2, 8]).1 (by decide +kernel)
  exact ⟨hcomp, hbusy, hleft.trans (by decide +kernel), (hcomp [5, 2, 9]).2.1 (by decide +kernel)⟩

/-- With the cycle-exact model on, BLTSIZH alone starts a line whose one estimated slot passes without ending it. -/
theorem blitCompletes_fails_height_zero :
    ¬ BlitCompletes (blitterWriteReg16 { lineWithoutHeight with cycleExact := true } 0x05E 0x0001) blankRam := by
  intro hcomp
  exact absurd ((hcomp [1]).2.1 (by decide)) (by decide)

end Rigel
