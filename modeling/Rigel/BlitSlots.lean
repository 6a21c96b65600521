import Rigel.BlitFrozen
import Rigel.CiaLine

/-!
# BlitSlots — how many slots a busy blitter cannot end in

A copy counts its slots down, a line is over with its last pixel, whatever its count says. `BlitLasts n b` says that the
blit in `b` has more than `n` slots to go; a granted slot takes one of them and a register write that starts no blit takes
none. What a colour clock does to the blitter is one of the two.
-/

namespace Rigel

/-! ## Slots to go -/

/-- The slots that a line needs for the pixels it has not drawn. -/
def lineSlotsLeft (b : BlitterState) : Nat :=
  lineDue b.cycleExact b.cmd (if b.lineState.initialized then b.lineState.stepIndex.toNat else 0)
    b.lineState.pixelSlotPhase

def blitSlotsLeft (b : BlitterState) : Nat :=
  match b.cmd.mode with
  | .copy => b.cyclesRemaining.toNat
  | .line => lineSlotsLeft b

/-- The blitter is busy with a command it can execute, and `n` slots do not end it. -/
structure BlitLasts (n : Nat) (b : BlitterState) : Prop where
  busy : b.busy = true
  valid : b.commandValid = true
  left : n < blitSlotsLeft b

variable {b : BlitterState} {n : Nat}

theorem BlitLasts.copyCountdown (h : BlitLasts (n + 1) b) (hmode : b.cmd.mode = .copy) (mem : ChipRam) :
    BlitLasts n (copyCountdown b mem 1).blitter ∧ (copyCountdown b mem 1).irq = none := by
  have hleft : n + 1 < b.cyclesRemaining.toNat := by
    have hl := h.left
    unfold blitSlotsLeft at hl
    rwa [hmode] at hl
  have hgt : b.cyclesRemaining > 1 := by
    rw [gt_iff_lt, UInt32.lt_iff_toNat_lt]
    simp only [UInt32.reduceToNat]
    omega
  unfold Rigel.copyCountdown
  simp only [hgt, if_true]
  refine ⟨⟨h.busy, h.valid, ?_⟩, trivial⟩
  unfold blitSlotsLeft
  simp only [hmode]
  rw [UInt32.toNat_sub_of_le _ _ (UInt32.le_of_lt hgt)]
  simp only [UInt32.reduceToNat]
  omega

/-- A pixel of a line that is not over. -/
theorem blitterLineStep_pixel (hmode : b.cmd.mode = .line) (hopen : blitterLineDone b = false)
    (hheight : b.cmd.heightLines ≠ 0) (mem : ChipRam) :
    (blitterLineStep b mem).1.lineState.stepIndex.toNat =
        (if b.lineState.initialized then b.lineState.stepIndex.toNat else 0) + 1 ∧
      (blitterLineStep b mem).1.lineState.initialized = true ∧
      (b.lineState.pixelSlotPhase = 0 → (blitterLineStep b mem).1.lineState.pixelSlotPhase = 0) ∧
      (blitterLineStep b mem).1.cmd = b.cmd := by
  have hstart : (lineStateInit b.lineState b.cmd).stepIndex.toNat =
      if b.lineState.initialized then b.lineState.stepIndex.toNat else 0 := by
    unfold lineStateInit
    split <;> rfl
  have hphase : b.lineState.pixelSlotPhase = 0 → (lineStateInit b.lineState b.cmd).pixelSlotPhase = 0 := by
    intro hp
    unfold lineStateInit
    split
    · exact hp
    · rfl
  have hlt : (lineStateInit b.lineState b.cmd).stepIndex.toNat < b.cmd.heightLines.toNat := by
    rw [hstart]
    split
    · rename_i hinit
      simp only [blitterLineDone, hmode, hinit, ne_eq, not_true_eq_false, if_false, Bool.true_and,
        decide_eq_false_iff_not, ge_iff_le, UInt16.not_le, UInt16.lt_iff_toNat_lt] at hopen
      exact hopen
    · exact Nat.pos_of_ne_zero fun h0 => hheight (UInt16.toNat_inj.mp h0)
  have hnot : ¬ (lineStateInit b.lineState b.cmd).stepIndex ≥ b.cmd.heightLines := by
    rw [ge_iff_le, UInt16.le_iff_toNat_le]
    omega
  have hframe := linePixel_frame b.cmd (lineStateInit b.lineState b.cmd) mem
  simp only [lineFrame, Prod.mk.injEq] at hframe
  obtain ⟨hindex, hinit, hslot⟩ := hframe
  have hsmall := b.cmd.heightLines.toNat_lt
  unfold blitterLineStep
  simp only [hmode, ne_eq, not_true_eq_false, if_false, hnot]
  refine ⟨?_, hinit.trans (lineStateInit_initialized _ _), fun hp => hslot.trans (hphase hp), trivial⟩
  rw [hstart] at hlt
  rw [hindex, UInt16.toNat_add, hstart]
  simp only [UInt16.reduceToNat]
  omega

theorem BlitLasts.lineSlot (h : BlitLasts (n + 1) b) (hmode : b.cmd.mode = .line) (mem : ChipRam) :
    BlitLasts n (lineDmaLoop 1 b mem).blitter ∧ (lineDmaLoop 1 b mem).irq = none := by
  have hleft : n + 1 < lineSlotsLeft b := by
    have hl := h.left
    unfold blitSlotsLeft at hl
    rwa [hmode] at hl
  have hslots : ∀ {b' : BlitterState}, b'.cmd = b.cmd → n < lineSlotsLeft b' → n < blitSlotsLeft b' := by
    intro b' hcmd hl
    unfold blitSlotsLeft
    rw [hcmd, hmode]
    exact hl
  unfold lineDmaLoop
  by_cases hdone : blitterLineDone b = true
  · rw [if_pos hdone]
    exact ⟨⟨h.busy, h.valid, Nat.lt_of_succ_lt h.left⟩, rfl⟩
  rw [Bool.not_eq_true] at hdone
  rw [if_neg (by rw [hdone]; decide)]
  by_cases hread : ((lineConsumeSlot b).cycleExact && (lineConsumeSlot b).lineState.pixelSlotPhase == 0) = true
  · -- the read slot of a pixel
    simp only [hread, if_true, lineDmaLoop]
    simp only [lineConsumeSlot, Bool.and_eq_true, beq_iff_eq] at hread
    refine ⟨⟨h.busy, h.valid, hslots rfl ?_⟩, trivial⟩
    unfold lineSlotsLeft at hleft ⊢
    simp only [linePhase, lineConsumeSlot, lineDue, hread.1, hread.2, if_true] at hleft ⊢
    simp only [show ¬ (1 : UInt8) = 0 by decide, if_false]
    omega
  · simp only [hread, if_false, Bool.false_eq_true]
    simp only [lineConsumeSlot, Bool.and_eq_true, beq_iff_eq, not_and] at hread
    by_cases hheight : b.cmd.heightLines = 0
    · -- a line without a pixel has two slots at most, and the first of two is a read slot
      exfalso
      unfold lineSlotsLeft lineDue lineSpan at hleft
      rw [hheight] at hleft
      simp only [UInt16.reduceToNat] at hleft
      cases hexact : b.cycleExact with
      | true =>
        rw [hexact, if_pos rfl, if_neg (hread hexact)] at hleft
        omega
      | false =>
        rw [hexact, if_neg (by decide)] at hleft
        omega
    · obtain ⟨hindex, hinit, hphase, hcmd⟩ :=
        blitterLineStep_pixel (b := linePhase (lineConsumeSlot b) 0) hmode hdone hheight mem
      have hexact : (blitterLineStep (linePhase (lineConsumeSlot b) 0) mem).1.cycleExact = b.cycleExact :=
        (blitterLineStep_timing _ mem).2
      obtain ⟨hvalid, hbusy⟩ := blitterLineStep_keeps (linePhase (lineConsumeSlot b) 0) mem
      have hcmdB : (blitterLineStep (linePhase (lineConsumeSlot b) 0) mem).1.cmd = b.cmd := hcmd
      have hone : n < lineSlotsLeft (blitterLineStep (linePhase (lineConsumeSlot b) 0) mem).1 := by
        unfold lineSlotsLeft at hleft ⊢
        rw [hinit, hindex, hphase rfl, hexact, hcmdB]
        have hk : (if (linePhase (lineConsumeSlot b) 0).lineState.initialized then
            (linePhase (lineConsumeSlot b) 0).lineState.stepIndex.toNat else 0) =
            if b.lineState.initialized then b.lineState.stepIndex.toNat else 0 := rfl
        rw [hk]
        generalize (if b.lineState.initialized then b.lineState.stepIndex.toNat else 0) = k at hleft ⊢
        unfold lineDue at hleft ⊢
        cases hex : b.cycleExact with
        | true =>
          rw [hex, if_pos rfl, if_neg (hread hex)] at hleft
          simp only [if_true]
          omega
        | false =>
          rw [hex, if_neg (by decide)] at hleft
          simp only [Bool.false_eq_true, if_false, if_true]
          omega
      have hopen : blitterLineDone (blitterLineStep (linePhase (lineConsumeSlot b) 0) mem).1 = false := by
        have hpos := hone
        unfold lineSlotsLeft lineDue lineSpan at hpos
        rw [hinit, if_pos rfl, hcmdB] at hpos
        have hne : b.cmd.heightLines.toNat ≠ 0 := fun h0 => hheight (UInt16.toNat_inj.mp h0)
        unfold blitterLineDone
        simp only [hcmdB, hmode, hinit, ne_eq, not_true_eq_false, if_false, Bool.true_and, decide_eq_false_iff_not,
          ge_iff_le, UInt16.le_iff_toNat_le]
        split at hpos <;> omega
      rw [hopen]
      simp only [Bool.false_eq_true, if_false, lineDmaLoop]
      exact ⟨⟨hbusy.trans h.busy, hvalid.trans h.valid, hslots hcmdB hone⟩, trivial⟩

/-- **A granted slot takes one slot of the blit**, and raises nothing while there are more. -/
theorem BlitLasts.slot (h : BlitLasts (n + 1) b) (mem : ChipRam) :
    BlitLasts n (blitterStepDma b mem 1).blitter ∧ (blitterStepDma b mem 1).irq = none := by
  unfold blitterStepDma
  rw [h.busy]
  cases hmode : b.cmd.mode with
  | line => exact h.lineSlot hmode mem
  | copy =>
    simp only [Bool.not_true, Bool.false_eq_true, if_false]
    by_cases hpend : b.execState = .pending
    · rw [if_pos hpend]
      unfold blitterExecuteReference
      rw [h.valid, hmode]
      simp only [Bool.not_true, Bool.false_eq_true, if_false]
      apply BlitLasts.copyCountdown
      · exact ⟨h.busy, rfl, h.left⟩
      · exact hmode
    · rw [if_neg hpend]
      exact h.copyCountdown hmode mem

theorem BlitLasts.fewer (h : BlitLasts (n + 1) b) : BlitLasts n b := ⟨h.busy, h.valid, Nat.lt_of_succ_lt h.left⟩

/-- A register write that starts no blit leaves the one in progress alone. -/
theorem BlitLasts.write (h : BlitLasts n b) {addr : UInt32} (haddr : blitterStartsAt addr = false) (value : UInt16) :
    BlitLasts n (blitterWriteReg16 b addr value) := by
  rw [frozenSame_write b haddr value]
  exact ⟨h.busy, h.valid, h.left⟩

end Rigel
