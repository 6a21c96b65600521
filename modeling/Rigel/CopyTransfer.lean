import Rigel.Bits
import Rigel.CopyBlit

/-!
# CopyTransfer — a copy blit as a two-pass transfer

What `execute_copy_mode` is for, said without its loops: number the words in processing order, read every source from
the memory as it was, mask, shift and combine them into `copyD`, then write the results in order. The loop differs in
three ways: it reads while it writes, a D word reaches memory one word late, and the shifters carry words over. When no
D word is read two words later or more, none of this shows.
-/

namespace Rigel

/-! ## The transfer -/

/-- The minterm's truth table at every bit: bit `4a + 2b + c` of the function byte. -/
def mintermWord (minterm : UInt8) (a b c : UInt16) : UInt16 :=
  UInt16.ofNat (Nat.ofBits fun n : Fin 16 => minterm.toNat.testBit
    (4 * (a.toNat.testBit n).toNat + 2 * (b.toNat.testBit n).toNat + (c.toNat.testBit n).toNat))

/-- The 16-bit window that a barrel shifter cuts out of two successive words: `shift` bits back into the previous
word, which lies above the current one in ascending mode and below it in descending mode. -/
def shiftWindow (descending : Bool) (previous current : UInt16) (shift : UInt8) : UInt16 :=
  if descending then UInt16.ofNat ((2 ^ 16 * current.toNat + previous.toNat) / 2 ^ (16 - shift.toNat))
  else UInt16.ofNat ((2 ^ 16 * previous.toNat + current.toNat) / 2 ^ shift.toNat)

/-- The word before word `i` of a stream, zero before the first. -/
def previousWord (stream : Nat → UInt16) : Nat → UInt16
  | 0 => 0
  | i + 1 => stream i

section
variable (cmd : BlitCommand) (mem : ChipRam)

/-- The words of a copy, and the pointer with which a channel meets each of them. -/
def copyWords : Nat := cmd.heightLines.toNat * cmd.widthWords.toNat

def copyWordPtr (X : BlitChannel) (i : Nat) : UInt32 :=
  copyPtr cmd X (i / cmd.widthWords.toNat) (i % cmd.widthWords.toNat)

/-- The word of chip memory that channel `X` meets as word `i`. -/
def copyCell (X : BlitChannel) (i : Nat) : UInt32 :=
  chipRamMapAddr mem (copyWordPtr cmd X i &&& blitterChipAddrMask)

/-- Word `i` of a source channel, from the memory as it was. -/
def copySource (X : BlitChannel) (i : Nat) : UInt16 :=
  if cmd.use X then chipRead16 mem (copyWordPtr cmd X i) else cmd.dat X

/-- The A stream under BLTAFWM and BLTALWM. -/
def copyMaskedA (i : Nat) : UInt16 :=
  copySource cmd mem .a i &&& (if i % cmd.widthWords.toNat = 0 then cmd.afwm else 0xFFFF) &&&
    (if i % cmd.widthWords.toNat + 1 = cmd.widthWords.toNat then cmd.alwm else 0xFFFF)

def copyA (i : Nat) : UInt16 :=
  shiftWindow cmd.descending (previousWord (copyMaskedA cmd mem) i) (copyMaskedA cmd mem i) cmd.ashift

def copyB (i : Nat) : UInt16 :=
  if cmd.useB then
    shiftWindow cmd.descending (previousWord (copySource cmd mem .b) i) (copySource cmd mem .b i) cmd.bshift
  else cmd.bhold

/-- Word `i` of the result. -/
def copyD (i : Nat) : UInt16 := mintermWord cmd.minterm (copyA cmd mem i) (copyB cmd mem i) (copySource cmd mem .c i)

/-- The memory after the first `n` results have been written in order. -/
def copyWritten : Nat → ChipRam
  | 0 => mem
  | n + 1 =>
    if cmd.useD then chipWrite16 (copyWritten n) (copyWordPtr cmd .d n) (copyD cmd mem n) else copyWritten n

/-- No word that D writes is read two words later or more. -/
def CopySeparate : Prop :=
  cmd.useD = true → ∀ X, X ≠ .d → cmd.use X = true → ∀ i j, i + 2 ≤ j → j < copyWords cmd →
    copyCell cmd mem .d i ≠ copyCell cmd mem X j

end

/-! ## The data path -/

theorem blitterLogic_bit (minterm : UInt8) (a b c : UInt16) {i : Nat} (hi : i < 16) :
    (blitterLogic minterm a b c).toNat.testBit i = minterm.toNat.testBit
      (4 * (a.toNat.testBit i).toNat + 2 * (b.toNat.testBit i).toNat + (c.toNat.testBit i).toNat) := by
  simp only [blitterLogic, UInt16.toNat_or, Nat.testBit_or, uint16_testBit_ite, UInt16.toNat_and, Nat.testBit_and,
    uint16_testBit_not _ hi]
  cases a.toNat.testBit i <;> cases b.toNat.testBit i <;> cases c.toNat.testBit i <;>
    simp only [Bool.and_true, Bool.and_false, Bool.not_true, Bool.not_false, Bool.or_false, Bool.false_or,
      Bool.toNat_true, Bool.toNat_false]
  · exact uint8_and_bit minterm (show 0 < 8 by decide)
  · exact uint8_and_bit minterm (show 1 < 8 by decide)
  · exact uint8_and_bit minterm (show 2 < 8 by decide)
  · exact uint8_and_bit minterm (show 3 < 8 by decide)
  · exact uint8_and_bit minterm (show 4 < 8 by decide)
  · exact uint8_and_bit minterm (show 5 < 8 by decide)
  · exact uint8_and_bit minterm (show 6 < 8 by decide)
  · exact uint8_and_bit minterm (show 7 < 8 by decide)

theorem blitterLogic_eq (minterm : UInt8) (a b c : UInt16) :
    blitterLogic minterm a b c = mintermWord minterm a b c := by
  refine uint16_ext fun i hi => ?_
  rw [blitterLogic_bit minterm a b c hi, mintermWord, UInt16.toNat_ofNat', Nat.mod_eq_of_lt (Nat.ofBits_lt_two_pow _),
    Nat.testBit_ofBits_lt _ i hi]

theorem blitterApplyShift_eq (descending : Bool) (previous current : UInt16) {shift : UInt8} (h : shift.toNat < 16) :
    blitterApplyShift descending previous current shift = shiftWindow descending previous current shift := by
  have hs : shift.toUInt16.toNat = shift.toNat := UInt8.toNat_toUInt16 shift
  have hsub : (16 - shift.toUInt16).toNat = 16 - shift.toNat := by
    rw [UInt16.toNat_sub_of_le _ _ (UInt16.le_iff_toNat_le.2 (by rw [hs]; exact h.le)), hs]
    rfl
  refine uint16_ext fun i hi => ?_
  unfold blitterApplyShift shiftAscending shiftDescending shiftWindow
  by_cases hz : shift = 0
  · subst hz
    cases descending
    · rw [if_neg Bool.false_ne_true, if_neg Bool.false_ne_true, if_pos rfl, uint16_testBit_window _ _ _ hi]
      simp [hi]
    · rw [if_pos rfl, if_pos rfl, if_pos rfl, uint16_testBit_window _ _ _ hi]
      simp
  have hpos : 0 < shift.toNat := Nat.pos_of_ne_zero (fun h0 => hz (UInt8.toNat_inj.1 h0))
  cases descending
  · rw [if_neg Bool.false_ne_true, if_neg Bool.false_ne_true, if_neg hz, uint16_testBit_window _ _ _ hi,
      UInt16.toNat_or, Nat.testBit_or, uint16_testBit_shiftLeft previous hsub (by omega) hi,
      uint16_testBit_shiftRight current hs h]
    by_cases hlt : shift.toNat + i < 16
    · simp [hlt, show ¬ 16 - shift.toNat ≤ i by omega]
    · rw [uint16_testBit_ge current (by omega)]
      simp [hlt, show 16 - shift.toNat ≤ i by omega, show shift.toNat + i - 16 = i - (16 - shift.toNat) by omega]
  · rw [if_pos rfl, if_pos rfl, if_neg hz, uint16_testBit_window _ _ _ hi, UInt16.toNat_or, Nat.testBit_or,
      uint16_testBit_shiftLeft current hs h hi, uint16_testBit_shiftRight previous hsub (by omega)]
    by_cases hlt : 16 - shift.toNat + i < 16
    · simp [hlt, show ¬ shift.toNat ≤ i by omega]
    · rw [uint16_testBit_ge previous (by omega)]
      simp [hlt, show shift.toNat ≤ i by omega, show 16 - shift.toNat + i - 16 = i - shift.toNat by omega]

theorem blitterApplyAMasks_eq (cmd : BlitCommand) (value : UInt16) {x : Nat} (hx : x < cmd.widthWords.toNat) :
    blitterApplyAMasks cmd value (UInt32.ofNat x) =
      value &&& (if x = 0 then cmd.afwm else 0xFFFF) &&& (if x + 1 = cmd.widthWords.toNat then cmd.alwm else 0xFFFF) := by
  have hlt : x + 1 < 4294967296 := by have := cmd.widthWords.toNat_lt; omega
  have hfirst : UInt32.ofNat x = 0 ↔ x = 0 := by
    rw [← UInt32.toNat_inj, UInt32.toNat_ofNat_of_lt' (by simpa [UInt32.size] using (show x < 4294967296 by omega))]
    rfl
  have hlast : UInt32.ofNat x + 1 = cmd.widthWords.toUInt32 ↔ x + 1 = cmd.widthWords.toNat := by
    rw [show UInt32.ofNat x + 1 = UInt32.ofNat (x + 1) from (UInt32.ofNat_add x 1).symm, ← UInt32.toNat_inj,
      UInt32.toNat_ofNat_of_lt' (by simpa [UInt32.size] using hlt), UInt16.toNat_toUInt32]
  have hfull : ∀ v : UInt16, v &&& 0xFFFF = v := fun _ => UInt16.and_neg_one
  simp only [blitterApplyAMasks, hfirst, hlast]
  by_cases h0 : x = 0 <;> by_cases hw : x + 1 = cmd.widthWords.toNat
  · rw [if_pos hw, if_pos hw, if_pos h0, if_pos h0]
  · rw [if_neg hw, if_neg hw, if_pos h0, if_pos h0, hfull]
  · rw [if_pos hw, if_pos hw, if_neg h0, if_neg h0, hfull]
  · rw [if_neg hw, if_neg hw, if_neg h0, if_neg h0, hfull, hfull]

/-! ## The memory between the words -/

section
variable {cmd : BlitCommand} {mem : ChipRam}

theorem chipRamMapAddr_write (m : ChipRam) (addr p : UInt32) (value : UInt16) :
    chipRamMapAddr (chipWrite16 m addr value) p = chipRamMapAddr m p := by
  unfold chipWrite16 chipRamWrite16
  split <;> rfl

theorem hasRead16_write (m : ChipRam) (addr : UInt32) (value : UInt16) :
    (chipWrite16 m addr value).hasRead16 = m.hasRead16 := by
  unfold chipWrite16 chipRamWrite16
  split <;> rfl

theorem hasWrite16_write (m : ChipRam) (addr : UInt32) (value : UInt16) :
    (chipWrite16 m addr value).hasWrite16 = m.hasWrite16 := by
  unfold chipWrite16 chipRamWrite16
  split <;> rfl

/-- The writes change words only, and with the host's callback in place they are a `WriteLog`. -/
theorem copyWritten_frame (n : Nat) :
    (∀ p, chipRamMapAddr (copyWritten cmd mem n) p = chipRamMapAddr mem p) ∧
      (copyWritten cmd mem n).hasRead16 = mem.hasRead16 ∧ (copyWritten cmd mem n).hasWrite16 = mem.hasWrite16 := by
  induction n with
  | zero => exact ⟨fun _ => rfl, rfl, rfl⟩
  | succ n ih =>
    unfold copyWritten
    split
    · exact ⟨fun p => (chipRamMapAddr_write ..).trans (ih.1 p), (hasRead16_write ..).trans ih.2.1,
        (hasWrite16_write ..).trans ih.2.2⟩
    · exact ih

theorem copyWritten_words (hd : cmd.useD = true) (hw : mem.hasWrite16 = true) :
    ∀ n, (copyWritten cmd mem n).words = WriteLog.written mem.words (copyCell cmd mem .d) (copyD cmd mem) n
  | 0 => rfl
  | n + 1 => by
    have hframe := @copyWritten_frame cmd mem n
    unfold copyWritten WriteLog.written
    rw [if_pos hd, chipWrite16, chipRamWrite16, if_pos (hframe.2.2.trans hw), hframe.1, copyWritten_words hd hw n]
    rfl

theorem copyWritten_words_off (h : cmd.useD = false ∨ mem.hasWrite16 = false) :
    ∀ n, (copyWritten cmd mem n).words = mem.words
  | 0 => rfl
  | n + 1 => by
    have hframe := @copyWritten_frame cmd mem n
    unfold copyWritten
    rw [chipWrite16, chipRamWrite16, hframe.2.2]
    rcases h with hd | hw
    · rw [if_neg (by rw [hd]; exact Bool.false_ne_true)]
      exact copyWritten_words_off (.inl hd) n
    · rw [hw]
      simp only [Bool.false_eq_true, if_false, ite_self]
      exact copyWritten_words_off (.inr hw) n

/-- A cell that none of the first `n` results is for holds what it held. -/
theorem copyWritten_other {a : UInt32} {n : Nat} (h : cmd.useD = true → ∀ i < n, copyCell cmd mem .d i ≠ a) :
    (copyWritten cmd mem n).words a = mem.words a := by
  cases hd : cmd.useD
  · rw [copyWritten_words_off (.inl hd)]
  cases hw : mem.hasWrite16
  · rw [copyWritten_words_off (.inr hw)]
  rw [copyWritten_words hd hw]
  exact WriteLog.written_of_not_named (h hd)

/-- **No read sees a write.** Word `i` of a source, read when the results before the last are in memory, is its word
of the initial memory. -/
theorem copySource_written (hsep : CopySeparate cmd mem) {X : BlitChannel} (hX : X ≠ .d) {i : Nat}
    (hi : i < copyWords cmd) :
    (if cmd.use X then chipRead16 (copyWritten cmd mem (i - 1)) (copyWordPtr cmd X i) else cmd.dat X) =
      copySource cmd mem X i := by
  unfold copySource
  split
  · rename_i hu
    have hframe := @copyWritten_frame cmd mem (i - 1)
    have hkept : (copyWritten cmd mem (i - 1)).words (copyCell cmd mem X i) = mem.words (copyCell cmd mem X i) :=
      copyWritten_other (fun hd j hj => hsep hd X hX hu j i (by omega) hi)
    unfold chipRead16 chipRamRead16
    rw [hframe.2.1, hframe.1]
    exact if_congr Iff.rfl hkept rfl
  · rfl

/-! ## The loops -/

/-- The loops before word `x` of row `y`, in the terms of the transfer. The D word of the word before is pending. -/
structure CopyAt (cmd : BlitCommand) (mem : ChipRam) (y x : Nat) (s : BlitterCopyState) (m : ChipRam) : Prop where
  ptr : ∀ X, s.ptr X = copyPtr cmd X y x
  previousA : s.previousA = previousWord (copyMaskedA cmd mem) (y * cmd.widthWords.toNat + x)
  previousB : cmd.useB = true → s.previousB = previousWord (copySource cmd mem .b) (y * cmd.widthWords.toNat + x)
  bhold : cmd.useB = false → s.bhold = cmd.bhold
  zero : s.zero = true ↔ ∀ i < y * cmd.widthWords.toNat + x, copyD cmd mem i = 0
  written : m = copyWritten cmd mem (y * cmd.widthWords.toNat + x - 1)
  flushed : copyFlushD s m = copyWritten cmd mem (y * cmd.widthWords.toNat + x)

theorem CopyAt.init : CopyAt cmd mem 0 0 (blitterCopyStateInit cmd) mem where
  ptr X := by
    rw [copyPtr_zero]
    cases X <;> rfl
  previousA := by rw [Nat.zero_mul]; rfl
  previousB _ := by rw [Nat.zero_mul]; rfl
  bhold _ := rfl
  zero := by
    rw [Nat.zero_mul]
    exact ⟨fun _ i hi => absurd hi i.not_lt_zero, fun _ => rfl⟩
  written := by rw [Nat.zero_mul]; rfl
  flushed := by rw [Nat.zero_mul]; rfl

theorem CopyAt.carry {y : Nat} {s : BlitterCopyState} {m : ChipRam} (c : Bool) (h : CopyAt cmd mem y 0 s m) :
    CopyAt cmd mem y 0 { s with fillCarry := c } m where
  ptr X := by
    rw [← h.ptr X]
    cases X <;> rfl
  previousA := h.previousA
  previousB := h.previousB
  bhold := h.bhold
  zero := h.zero
  written := h.written
  flushed := h.flushed

theorem CopyAt.line {y : Nat} {s : BlitterCopyState} {m : ChipRam} (h : CopyAt cmd mem y cmd.widthWords.toNat s m) :
    CopyAt cmd mem (y + 1) 0 (blitterCopyAdvanceLine s cmd) m := by
  have hi : (y + 1) * cmd.widthWords.toNat + 0 = y * cmd.widthWords.toNat + cmd.widthWords.toNat := by
    rw [Nat.succ_mul, Nat.add_zero]
  have hkept : ∀ {γ : Type} (f : BlitterCopyState → γ), (∀ a b c d, f { s with apt := a, bpt := b, cpt := c, dpt := d } = f s) →
      f (blitterCopyAdvanceLine s cmd) = f s := by
    intro γ f hf
    unfold blitterCopyAdvanceLine
    split
    · exact hf _ _ _ _
    · exact hf _ _ _ _
  refine ⟨fun X => ?_, ?_, fun hu => ?_, fun hu => ?_, ?_, ?_, ?_⟩
  · rw [blitterCopyAdvanceLine_ptr, copyPtr_line, h.ptr X]
  · rw [hi, ← h.previousA]
    exact hkept (·.previousA) (fun _ _ _ _ => rfl)
  · rw [hi, ← h.previousB hu]
    exact hkept (·.previousB) (fun _ _ _ _ => rfl)
  · rw [← h.bhold hu]
    exact hkept (·.bhold) (fun _ _ _ _ => rfl)
  · rw [hi, ← h.zero, hkept (·.zero) (fun _ _ _ _ => rfl)]
  · rw [hi]
    exact h.written
  · rw [hi, ← h.flushed]
    exact hkept (copyFlushD · m) (fun _ _ _ _ => rfl)

variable {y x : Nat} {s : BlitterCopyState} {m : ChipRam}

theorem copyWordPtr_at (X : BlitChannel) (hx : x < cmd.widthWords.toNat) :
    copyWordPtr cmd X (y * cmd.widthWords.toNat + x) = copyPtr cmd X y x := by
  have hw : 0 < cmd.widthWords.toNat := Nat.zero_lt_of_lt hx
  unfold copyWordPtr
  rw [Nat.mul_comm, Nat.mul_add_div hw, Nat.div_eq_of_lt hx, Nat.mul_add_mod, Nat.mod_eq_of_lt hx, Nat.add_zero]

theorem CopyAt.fetch (h : CopyAt cmd mem y x s m) (hsep : CopySeparate cmd mem) (hx : x < cmd.widthWords.toNat)
    (hi : y * cmd.widthWords.toNat + x < copyWords cmd) {X : BlitChannel} (hX : X ≠ .d) (inc : UInt32) (last : UInt16) :
    (blitterFetchWord m (cmd.use X) (s.ptr X) inc (cmd.dat X) last).1 =
      copySource cmd mem X (y * cmd.widthWords.toNat + x) := by
  rw [← copySource_written hsep hX hi, ← h.written, copyWordPtr_at X hx, ← h.ptr X]
  unfold blitterFetchWord
  split <;> rfl

/-- A word's data path, on the loops' state: its A and B words go to the shifters, and its D word is the transfer's. -/
theorem CopyAt.data (h : CopyAt cmd mem y x s m) (hsep : CopySeparate cmd mem) (hx : x < cmd.widthWords.toNat)
    (hi : y * cmd.widthWords.toNat + x < copyWords cmd) (hfill : cmd.fillMode = .none) (ha : cmd.ashift.toNat < 16)
    (hb : cmd.bshift.toNat < 16) :
    let r := (copyWordStep cmd (UInt32.ofNat x) s m).1
    let i := y * cmd.widthWords.toNat + x
    r.previousA = copyMaskedA cmd mem i ∧ (cmd.useB = true → r.previousB = copySource cmd mem .b i) ∧
      r.bhold = copyB cmd mem i ∧ r.lastDdat = copyD cmd mem i := by
  have fetchA := h.fetch hsep hx hi (X := .a) (by decide)
  have fetchB := h.fetch hsep hx hi (X := .b) (by decide)
  have fetchC := h.fetch hsep hx hi (X := .c) (by decide)
  have hA : (copyWordStep cmd (UInt32.ofNat x) s m).1.previousA = copyMaskedA cmd mem (y * cmd.widthWords.toNat + x) := by
    refine (congrArg (blitterApplyAMasks cmd · (UInt32.ofNat x)) (fetchA _ s.lastAdat)).trans ?_
    rw [blitterApplyAMasks_eq cmd _ hx, copyMaskedA, Nat.mul_comm y, Nat.mul_add_mod, Nat.mod_eq_of_lt hx]
  have hB : cmd.useB = true →
      (copyWordStep cmd (UInt32.ofNat x) s m).1.previousB = copySource cmd mem .b (y * cmd.widthWords.toNat + x) := by
    intro hu
    refine (if_pos hu).trans ?_
    exact fetchB _ s.lastBdat
  have hhold : (copyWordStep cmd (UInt32.ofNat x) s m).1.bhold = copyB cmd mem (y * cmd.widthWords.toNat + x) := by
    unfold copyB
    cases hu : cmd.useB
    · rw [if_neg Bool.false_ne_true, ← h.bhold hu]
      exact if_neg (by rw [hu]; exact Bool.false_ne_true)
    · rw [if_pos rfl, ← blitterApplyShift_eq _ _ _ hb, ← h.previousB hu]
      refine (if_pos hu).trans ?_
      exact congrArg (blitterApplyShift cmd.descending s.previousB · cmd.bshift) (fetchB _ s.lastBdat)
  have hD : (copyWordStep cmd (UInt32.ofNat x) s m).1.lastDdat =
      blitterLogic cmd.minterm
        (blitterApplyShift cmd.descending s.previousA (copyWordStep cmd (UInt32.ofNat x) s m).1.previousA cmd.ashift)
        (copyWordStep cmd (UInt32.ofNat x) s m).1.bhold
        (blitterFetchWord m (cmd.use .c) (s.ptr .c) (if cmd.descending then 0 - 2 else 2) (cmd.dat .c) s.lastCdat).1 := by
    have hnone : ∀ v c, (blitterApplyFill cmd v c).1 = v := fun v c => by unfold blitterApplyFill; rw [hfill]
    exact hnone _ _
  refine ⟨hA, hB, hhold, ?_⟩
  rw [hD, hA, hhold, fetchC, h.previousA, blitterApplyShift_eq _ _ _ ha, blitterLogic_eq]
  rfl

theorem CopyAt.word (h : CopyAt cmd mem y x s m) (hsep : CopySeparate cmd mem) (hx : x < cmd.widthWords.toNat)
    (hi : y * cmd.widthWords.toNat + x < copyWords cmd) (hfill : cmd.fillMode = .none) (ha : cmd.ashift.toNat < 16)
    (hb : cmd.bshift.toNat < 16) :
    CopyAt cmd mem y (x + 1) (copyWordStep cmd (UInt32.ofNat x) s m).1 (copyWordStep cmd (UInt32.ofNat x) s m).2 := by
  obtain ⟨hA, hB, hhold, hD⟩ := h.data hsep hx hi hfill ha hb
  have hmem : (copyWordStep cmd (UInt32.ofNat x) s m).2 = copyWritten cmd mem (y * cmd.widthWords.toNat + x) := h.flushed
  refine ⟨fun X => ?_, hA, hB, fun hu => ?_, ?_, hmem, ?_⟩
  · rw [copyWordStep_ptr, copyPtr_word, h.ptr X]
  · rw [hhold]
    exact if_neg (by rw [hu]; exact Bool.false_ne_true)
  · have hz : (copyWordStep cmd (UInt32.ofNat x) s m).1.zero =
        if (copyWordStep cmd (UInt32.ofNat x) s m).1.lastDdat ≠ 0 then false else s.zero := rfl
    rw [hz, hD, ← Nat.add_assoc, Nat.forall_lt_succ_right, ← h.zero]
    by_cases h0 : copyD cmd mem (y * cmd.widthWords.toNat + x) = 0
    · simp [h0]
    · simp [h0]
  · -- the word's own result waits for the next word
    rw [hmem, ← Nat.add_assoc]
    cases hu : cmd.useD
    · have hpend : (copyWordStep cmd (UInt32.ofNat x) s m).1.pendingD = false := hu
      rw [copyFlushD, hpend, copyWritten, if_neg Bool.false_ne_true, if_neg (by rw [hu]; exact Bool.false_ne_true)]
    · have hpend : (copyWordStep cmd (UInt32.ofNat x) s m).1.pendingD = true := hu
      have hptr : (copyWordStep cmd (UInt32.ofNat x) s m).1.pendingDpt =
          copyWordPtr cmd .d (y * cmd.widthWords.toNat + x) := by
        rw [copyWordPtr_at .d hx, ← h.ptr .d]
        exact if_pos hu
      have hdat : (copyWordStep cmd (UInt32.ofNat x) s m).1.pendingDdat =
          copyD cmd mem (y * cmd.widthWords.toNat + x) := by
        rw [← hD]
        exact if_pos hu
      rw [copyFlushD, if_pos hpend, hptr, hdat, copyWritten, if_pos hu]

/-- **The copy loop is the transfer.** -/
theorem executeCopyMode_eq (hsep : CopySeparate cmd mem) (hfill : cmd.fillMode = .none) (ha : cmd.ashift.toNat < 16)
    (hb : cmd.bshift.toNat < 16) :
    (executeCopyMode cmd mem).2 = copyWritten cmd mem (copyWords cmd) ∧
      ((executeCopyMode cmd mem).1.zero = true ↔ ∀ i < copyWords cmd, copyD cmd mem i = 0) := by
  have hrun := (@copyRow_induction cmd mem
    (fun y x s m => y * cmd.widthWords.toNat + x ≤ copyWords cmd → CopyAt cmd mem y x s m)
    (fun _ => CopyAt.init) (fun y s m h hle => (h hle).carry cmd.fillCarryIn)
    (fun y x s m hx h hle => (h (by omega)).word hsep hx (by omega) hfill ha hb)
    (fun y s m h hle => (h (by rw [Nat.succ_mul] at hle; omega)).line) cmd.heightLines.toNat).1 le_rfl
  exact ⟨hrun.flushed, hrun.zero⟩

end

/-! ## On the registers -/

/-- What the transfer of `cmd` leaves of the memory `mem`: the results in order, so that the last writer of a word
wins and the other words stay, and the zero flag over all results, written or not. -/
structure Transferred (cmd : BlitCommand) (mem : ChipRam) (result : BlitterResult) (mem' : ChipRam) : Prop where
  memory : mem' = copyWritten cmd mem (copyWords cmd)
  last : cmd.useD = true → mem.hasWrite16 = true → ∀ i < copyWords cmd,
    (∀ j, i < j → j < copyWords cmd → copyCell cmd mem .d j ≠ copyCell cmd mem .d i) →
      mem'.words (copyCell cmd mem .d i) = copyD cmd mem i
  other : ∀ a, (cmd.useD = true → ∀ i < copyWords cmd, copyCell cmd mem .d i ≠ a) → mem'.words a = mem.words a
  zero : result.zero = true ↔ ∀ i < copyWords cmd, copyD cmd mem i = 0

theorem nibble_lt (w : UInt16) : (w &&& 0x0F).toUInt8.toNat < 16 := by
  have h : (w &&& 0x0F).toNat ≤ 15 := by
    rw [UInt16.toNat_and]
    exact Nat.and_le_right
  rw [UInt16.toNat_toUInt8]
  omega

/-- **Copy blit semantics.** Whatever the registers hold, a copy without fill whose results are not read two words
later or more is the two-pass transfer. -/
theorem copyBlit_transferred (b : BlitterState) (mem : ChipRam) (hmode : (blitterBuildCommand b).cmd.mode = .copy)
    (hfill : (blitterBuildCommand b).cmd.fillMode = .none) (hsep : CopySeparate (blitterBuildCommand b).cmd mem) :
    ∃ out, blitterExecuteReference (blitterBuildCommand b) mem = some out ∧
      Transferred (blitterBuildCommand b).cmd mem out.1.result out.2 := by
  obtain ⟨hmem, hzero⟩ := executeCopyMode_eq hsep hfill (nibble_lt _) (nibble_lt _)
  refine ⟨_, blitterExecuteReference_copy hmode rfl mem, hmem, fun hd hw i hi hlast => ?_, fun a ha => ?_, hzero⟩
  · rw [hmem, copyWritten_words hd hw]
    exact WriteLog.written_last hi hlast
  · rw [hmem]
    exact copyWritten_other ha

/-- Memory in which every word is told from its neighbours. -/
def numberedRam : ChipRam := { blankRam with words := fun a => a.toUInt16 * 0x0301 }

/-- Two rows of three words, A shifted by four under its masks and B by eight, with A XOR B written over A one word on: each
row's D word is the A word that is read next. -/
def twoRowCopy : BlitterState := { blitterInit with
  regs := { blitterInit.regs with
    bltcon0 := 0x4D3C, bltcon1 := 0x8000, bltafwm := 0x0FFF, bltalwm := 0xFFF0, bltapt := 0x1000, bltbpt := 0x2000,
    bltdpt := 0x1002, bltamod := 4, bltdmod := 4, bltsizh := 3, bltsizv := 2 } }

theorem twoRowCopy_separate : CopySeparate (blitterBuildCommand twoRowCopy).cmd numberedRam := by
  have hcells : ∀ X, X ≠ .d → (blitterBuildCommand twoRowCopy).cmd.use X = true → ∀ j < 6, ∀ i < j, i + 2 ≤ j →
      copyCell (blitterBuildCommand twoRowCopy).cmd numberedRam .d i ≠
        copyCell (blitterBuildCommand twoRowCopy).cmd numberedRam X j := by
    intro X hX huse
    cases X with
    | a => decide
    | b => decide
    | c => exact absurd huse (by decide)
    | d => exact absurd rfl hX
  intro _ X hX huse i j hij hj
  exact hcells X hX huse j hj i (by omega) hij

/-- The second row's second word, from words of A and B that were read over two rows. -/
theorem copyBlit_transferred_rows :
    ∃ out, blitterExecuteReference (blitterBuildCommand twoRowCopy) numberedRam = some out ∧
      Transferred (blitterBuildCommand twoRowCopy).cmd numberedRam out.1.result out.2 ∧ out.2.words 0x100E = 42360 := by
  obtain ⟨out, hout, htransferred⟩ := copyBlit_transferred twoRowCopy numberedRam rfl rfl twoRowCopy_separate
  have hlast : ∀ j, 4 < j → j < 6 → copyCell (blitterBuildCommand twoRowCopy).cmd numberedRam .d j ≠
      copyCell (blitterBuildCommand twoRowCopy).cmd numberedRam .d 4 := by
    intro j h4 h6
    obtain rfl : j = 5 := by omega
    decide
  exact ⟨out, hout, htransferred, (htransferred.last rfl rfl 4 (by decide) hlast).trans (by decide +kernel)⟩

end Rigel
