import Rigel.SerialOrder

/-!
# SerialStepping — the serial port over a span of cycles, cut in two

A step that reaches the end of a frame starts the buffered word with a whole frame of its own and drops the cycles that
were left. Cutting the step there gives them back, so that the two ways agree only where no word starts before the cut,
or where nothing comes after it.
-/

namespace Rigel

/-- Two steps in a row, with the masks of both. -/
def serialStepTwice (s : SerialState) (m n : UInt32) : SerialState × List UInt16 :=
  ((serialStep (serialStep s m).1 n).1, (serialStep s m).2 ++ (serialStep (serialStep s m).1 n).2)

/-- One step does what its two parts do: the same port, the same bytes in its FIFO, the same interrupts. -/
def SerialAdditive (s : SerialState) (m n : UInt32) : Prop := serialStep s (m + n) = serialStepTwice s m n

variable {s : SerialState}

theorem serialFrameCycles_toNat (s : SerialState) :
    (serialFrameCycles s).toNat = 10 * ((s.serper &&& 0x7FFF).toUInt32.toNat + 1) := by
  have hle : (s.serper &&& 0x7FFF).toUInt32.toNat ≤ 0x7FFF := by
    rw [UInt16.toNat_toUInt32, UInt16.toNat_and]
    simp only [UInt16.reduceToNat]
    exact Nat.and_le_right
  have hbits : (s.serper &&& 0x7FFF).toUInt32.toNat + UInt32.toNat 1 < 2 ^ 32 :=
    Nat.lt_of_le_of_lt (Nat.add_le_add_right hle _) (by decide)
  unfold serialFrameCycles
  rw [UInt32.toNat_mul, UInt32.toNat_add, Nat.mod_eq_of_lt hbits, Nat.mod_eq_of_lt]
  · rfl
  · exact Nat.lt_of_le_of_lt (Nat.mul_le_mul_left _ (Nat.add_le_add_right hle _)) (by decide)

theorem serialFrameCycles_pos (s : SerialState) : 0 < serialFrameCycles s := by
  rw [UInt32.lt_iff_toNat_lt, serialFrameCycles_toNat]
  exact Nat.mul_pos (by decide) (Nat.succ_pos _)

/-- A word that starts takes a whole frame, whatever time is left. -/
theorem startTxShift_loaded (hvalid : s.txBufferValid = true) (hidle : s.txShiftBusy = false) :
    (serialStartTxShift s).1.txShiftBusy = true ∧ (serialStartTxShift s).1.txBufferValid = false ∧
      (serialStartTxShift s).1.txCyclesRemaining = serialFrameCycles s := by
  rw [startTxShift_eq]
  simp only [hvalid, hidle, Bool.not_false, Bool.and_self, if_true]
  split
  · unfold serialQueueTxByte
    split <;> exact ⟨rfl, rfl, rfl⟩
  · exact ⟨rfl, rfl, rfl⟩

theorem startTxShift_empty (hvalid : s.txBufferValid = false) : serialStartTxShift s = (s, []) := by
  unfold serialStartTxShift
  simp [hvalid]

theorem serialStep_idle (hvalid : s.txBufferValid = false) (hidle : s.txShiftBusy = false) (n : UInt32) :
    serialStep s n = (s, []) := by
  unfold serialStep
  simp [hidle, startTxShift_empty hvalid]

/-- A word that has just started is as it was only if no time passes. -/
theorem serialStep_loaded {r : SerialState} (hbusy : r.txShiftBusy = true) (hvalid : r.txBufferValid = false)
    (hpos : 0 < r.txCyclesRemaining) (n : UInt32) : serialStep r n = (r, []) ↔ n = 0 := by
  have hzero : (0 : UInt32) < r.txCyclesRemaining := hpos
  unfold serialStep
  rw [if_neg (by simp [hbusy])]
  constructor
  · intro h
    by_cases hlt : n < r.txCyclesRemaining
    · rw [if_pos hlt] at h
      have hleft := congrArg (fun p => p.1.txCyclesRemaining.toNat) h
      have hle := UInt32.toNat_sub_of_le _ _ (UInt32.le_of_lt hlt)
      rw [UInt32.lt_iff_toNat_lt] at hlt
      simp only at hleft
      exact UInt32.toNat_inj.mp (show n.toNat = 0 by omega)
    · rw [if_neg hlt, startTxShift_empty ((shiftDone_frame r).2.1.trans hvalid)] at h
      have hend := congrArg (fun p => p.1.txShiftBusy) h
      rw [(shiftDone_frame r).1, hbusy] at hend
      exact Bool.noConfusion hend
  · rintro rfl
    rw [if_pos hzero, UInt32.sub_zero]

/-- **After the point where the next word may start**, a step of its own is seen unless it is empty or no word started. -/
theorem startTxShift_then_step (hidle : s.txShiftBusy = false) (n : UInt32) :
    serialStartTxShift s = ((serialStep (serialStartTxShift s).1 n).1,
      (serialStartTxShift s).2 ++ (serialStep (serialStartTxShift s).1 n).2) ↔ n = 0 ∨ s.txBufferValid = false := by
  by_cases hvalid : s.txBufferValid = true
  · obtain ⟨hbusy, hempty, hframe⟩ := startTxShift_loaded hvalid hidle
    have hpos : 0 < (serialStartTxShift s).1.txCyclesRemaining := by rw [hframe]; exact serialFrameCycles_pos s
    have hstep := serialStep_loaded hbusy hempty hpos n
    have hpair : serialStep (serialStartTxShift s).1 n = ((serialStartTxShift s).1, []) ↔
        serialStartTxShift s = ((serialStep (serialStartTxShift s).1 n).1,
          (serialStartTxShift s).2 ++ (serialStep (serialStartTxShift s).1 n).2) := by
      rw [Prod.ext_iff, Prod.ext_iff, eq_comm]
      simp
    rw [← hpair, hstep]
    simp [hvalid]
  · rw [Bool.not_eq_true] at hvalid
    rw [startTxShift_empty hvalid, serialStep_idle hvalid hidle]
    simp [hvalid]

/-- **When one step does what its two parts do**: nothing comes after the cut, no word waits in the buffer, or the frame
that is being shifted does not end before the cut. -/
theorem serialStep_additive_iff (s : SerialState) (m n : UInt32) (hfit : m.toNat + n.toNat < 2 ^ 32) :
    SerialAdditive s m n ↔
      n = 0 ∨ s.txBufferValid = false ∨ (s.txShiftBusy = true ∧ m < s.txCyclesRemaining) := by
  have hsum : (m + n).toNat = m.toNat + n.toNat := by rw [UInt32.toNat_add, Nat.mod_eq_of_lt hfit]
  unfold SerialAdditive serialStepTwice
  cases hbusy : s.txShiftBusy with
  | false =>
    have hstep : ∀ k, serialStep s k = serialStartTxShift s := fun k => by simp [serialStep, hbusy]
    rw [hstep, hstep, startTxShift_then_step hbusy]
    simp
  | true =>
    have hopen : ∀ k, serialStep s k =
        if k < s.txCyclesRemaining then ({ s with txCyclesRemaining := s.txCyclesRemaining - k }, [])
        else serialStartTxShift (serialShiftDone s) := fun k => by simp [serialStep, hbusy]
    by_cases hm : m < s.txCyclesRemaining
    · have hleft := UInt32.toNat_sub_of_le _ _ (UInt32.le_of_lt hm)
      have hcut : m + n < s.txCyclesRemaining ↔ n < s.txCyclesRemaining - m := by
        rw [UInt32.lt_iff_toNat_lt] at hm
        rw [UInt32.lt_iff_toNat_lt, UInt32.lt_iff_toNat_lt, hsum, hleft]
        omega
      rw [hopen, hopen m, if_pos hm, serialStep]
      simp only [hbusy, Bool.not_true, Bool.false_eq_true, if_false, hcut, hm, and_self, or_true, iff_true]
      have hsub : s.txCyclesRemaining - (m + n) = s.txCyclesRemaining - m - n := by grind
      split
      · rw [hsub]
        rfl
      · rfl
    · have hsumLe : ¬ m + n < s.txCyclesRemaining := by
        rw [UInt32.lt_iff_toNat_lt] at hm ⊢
        omega
      obtain ⟨hidle, hvalid, -, -⟩ := shiftDone_frame s
      rw [hopen, hopen m, if_neg hsumLe, if_neg hm, startTxShift_then_step hidle, hvalid]
      simp [hm]

/-- A port at the highest rate with a word in the register and one in the buffer. -/
def twoWords : SerialState := (serialWriteSerdat (serialWriteSerdat (serialReset SerialState.cleared) 0x41).1 0x42).1

theorem serialStep_additive_twoWords : (5 : UInt32).toNat + (5 : UInt32).toNat < 2 ^ 32 ∧ SerialAdditive twoWords 5 5 :=
  ⟨by decide, (serialStep_additive_iff twoWords 5 5 (by decide)).mpr (.inr (.inr ⟨by decide, by decide⟩))⟩

/-- Twenty cycles are two frames; taken at once they end only the first. -/
theorem serialStep_not_additive : ¬ SerialAdditive twoWords 15 5 := by
  intro h
  have hleft := congrArg (fun p => p.1.txCyclesRemaining) h
  exact absurd hleft (by decide)

end Rigel
