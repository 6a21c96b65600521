import Rigel.DmaconStatus
import Rigel.SaveLoad

/-!
# ByteLane — byte writes to the custom registers

`mmio/rigel_mmio.c` has no byte bus: a byte write reads the register's word, replaces one half and writes the word back.
What that does to the other half depends on what the read answers, which is not always what the register holds, and on
what the write does with the word, which is not always to store it. A `RegKind` says both for one register, and the
last result says for which states and bytes the other half stays as it was.
-/

namespace Rigel

/-! ## `rigel_mmio_write` -/

/-- A context, and the collision latch that the pixels of a line add to and only a read of CLXDAT empties. -/
structure MmioState where
  ctx : RigelContext
  clxdat : UInt16

inductive RigelMmioResult where
  | unmapped
  | handled
  | unsupported
  deriving Repr, DecidableEq

def customAddress (addr : UInt32) : Bool := addr ≥ 0x00DFF000 && addr ≤ 0x00DFFFFF

/-- CIA-A answers at odd addresses, CIA-B at even ones. -/
def ciaIdForAddress (addr : UInt32) : Option CiaId :=
  if addr &&& 1 ≠ 0 ∧ addr ≥ 0x00BFE000 ∧ addr ≤ 0x00BFEF01 then some .portA
  else if addr &&& 1 = 0 ∧
      ((addr ≥ 0x00BFD000 ∧ addr ≤ 0x00BFDF00) ∨ (addr ≥ 0x00BFE000 ∧ addr < 0x00BFEF01)) then some .portB
  else none

/-- The register that an address of the custom range selects. -/
def customReg (addr : UInt32) : UInt32 := addr &&& 0x1FE

def customReadWord (s : MmioState) (addr : UInt32) : MmioState × UInt16 :=
  if customReg addr = 0x00E then ({ s with clxdat := 0 }, s.clxdat)
  else ({ s with ctx := (customRegsRead16 s.ctx (customReg addr)).1 }, (customRegsRead16 s.ctx (customReg addr)).2)

def customWriteWord (s : MmioState) (addr : UInt32) (value : UInt16) : MmioState :=
  { s with ctx := customRegsWrite16 s.ctx (customReg addr) value }

/-- The word that a byte write writes back: `word` with one half replaced. -/
def mergeByte (addr : UInt32) (word : UInt16) (value : UInt32) : UInt16 :=
  if addr &&& 1 ≠ 0 then (word &&& (0xFF00 : UInt16)) ||| (value &&& (0xFF : UInt32)).toUInt16
  else (word &&& (0x00FF : UInt16)) ||| ((value &&& (0xFF : UInt32)) <<< 8).toUInt16

/-- `rigel_mmio_write`, where the clock chip takes its bytes without a state of its own. -/
def rigelMmioWrite (s : MmioState) (addr : UInt32) (size : UInt8) (value : UInt32) : MmioState × RigelMmioResult :=
  if addr > 0x00FFFFFF then (s, .unmapped)
  else if customAddress addr then
    if (size = 2 ∨ size = 4) ∧ addr &&& 1 ≠ 0 then (s, .unsupported)
    else if size = 4 ∧ !customAddress (addr + 3) then (s, .unsupported)
    else if size = 1 then
      let r := customReadWord s addr
      (customWriteWord r.1 addr (mergeByte addr r.2 value), .handled)
    else if size = 2 then (customWriteWord s addr value.toUInt16, .handled)
    else if size = 4 then
      (customWriteWord (customWriteWord s addr (value >>> 16).toUInt16) (addr + 2) value.toUInt16, .handled)
    else (s, .unsupported)
  else
    match ciaIdForAddress addr with
    | some id =>
      if size ≠ 1 then (s, .unsupported)
      else ({ s with ctx := rigelCiaWrite s.ctx id ((addr >>> 8) &&& 0x0F).toUInt8 value.toUInt8 }, .handled)
    | none =>
      if addr ≥ 0x00DC0000 ∧ addr ≤ 0x00DCFFFF then (s, if size = 1 then .handled else .unsupported)
      else (s, .unmapped)

theorem rigelMmioWrite_byte (s : MmioState) {addr : UInt32} (h : customAddress addr = true) (value : UInt32) :
    (rigelMmioWrite s addr 1 value).1 =
      customWriteWord (customReadWord s addr).1 addr (mergeByte addr (customReadWord s addr).2 value) := by
  have hmapped : ¬ addr > 0x00FFFFFF := by
    simp only [customAddress, Bool.and_eq_true, decide_eq_true_eq] at h
    exact fun hgt => absurd (UInt32.lt_of_lt_of_le hgt h.2) (by decide)
  simp [rigelMmioWrite, hmapped, h]

/-! ## Reachable states -/

theorem Reachable.customReadWord {s : MmioState} (h : Reachable s.ctx) (addr : UInt32) :
    Reachable (customReadWord s addr).1.ctx := by
  unfold Rigel.customReadWord
  split
  · exact h
  · exact h.call (.customRead (customReg addr))

theorem Reachable.customWriteWord {s : MmioState} (h : Reachable s.ctx) (addr : UInt32) (value : UInt16) :
    Reachable (customWriteWord s addr value).ctx := h.call (.customWrite (customReg addr) value)

/-- **An access of any size and address is a sequence of register accesses.** -/
theorem Reachable.mmioWrite {s : MmioState} (h : Reachable s.ctx) (addr : UInt32) (size : UInt8) (value : UInt32) :
    Reachable (rigelMmioWrite s addr size value).1.ctx := by
  unfold rigelMmioWrite
  split
  · exact h
  split
  · repeat' split
    · exact h
    · exact h
    · exact (h.customReadWord addr).customWriteWord addr _
    · exact h.customWriteWord addr _
    · exact (h.customWriteWord addr _).customWriteWord (addr + 2) _
    · exact h
  split
  · rename_i id _
    split
    · exact h
    · exact h.call (.ciaWrite id _ _)
  · split <;> exact h

/-- DMACON holds no bit 15 either. -/
theorem dmaconTop_invariant : AgnusInvariant fun a => a.dma.dmacon &&& 0x8000 = 0 where
  reset ctx := by
    have h0 : (rigelReset ctx).agnus.dma.dmacon = 0 := rfl
    rw [h0]
    rfl
  write {a a'} h hw := by
    cases hw with
    | dmacon value => exact applySetclr_top h value
    | _ => exact h
  latch h := h
  sync h := h
  clock {ctx} h := by
    unfold agnusSlotSchedulerStep
    rw [schedulerAdvance_dma]
    exact schedulerDispatch_dma (Q := fun _ => True) (fun hd _ => applySetclr_top hd _) trivial h fun _ _ => trivial
  cycleExact _ h := h

/-! ## Kinds of register -/

/-- What a read answers and what a write stores, for one register. -/
inductive RegKind where
  /-- A write does nothing; a read empties the bits of `clears`. -/
  | readOnly (clears : UInt16)
  /-- The bits of `mask` are stored and read back. -/
  | live (mask : UInt16)
  /-- The bits of `mask` are stored; a read answers zero. -/
  | writeOnly (mask : UInt16)
  /-- The bits of `mask` are stored; a read answers the last word written, which the state may have left behind. -/
  | shadowed (mask : UInt16)
  /-- Bit 15 of the word says whether its other bits are set or cleared; the state is read back. -/
  | setClr
  /-- As `setClr`, but a read at this offset answers zero. -/
  | setClrZero
  /-- AUDxPER: shadowed, and a null word counts as 1. -/
  | period
  /-- AUDxVOL: shadowed, and the seven bits saturate at 64. -/
  | volume
  deriving Repr, DecidableEq

namespace RegKind

/-- AUDxVOL as the channel keeps it. -/
def loudness (word : UInt16) : UInt16 := if word &&& 0x007F > 64 then 64 else word &&& 0x007F

/-- The state after `word` is written over `state`. -/
def store (state word : UInt16) : RegKind → UInt16
  | readOnly _ => state
  | live mask | writeOnly mask | shadowed mask => word &&& mask
  | setClr | setClrZero => applySetclr state word
  | period => if word ≠ 0 then word else 1
  | volume => loudness word

/-- The bits that a read empties. -/
def cleared : RegKind → UInt16
  | readOnly clears => clears
  | _ => 0

/-- `word` is what a read answers when the state is `state` and the last word written was `last`. -/
def Answers (state last word : UInt16) : RegKind → Prop
  | readOnly _ => True
  | live mask => word &&& mask = state
  | setClr => word = state
  | writeOnly _ | setClrZero => word = 0
  | shadowed _ | period | volume => word = last

end RegKind

/-- The half of the register that a byte write to `addr` leaves out. -/
def otherHalf (addr : UInt32) : UInt16 := if addr &&& 1 ≠ 0 then 0xFF00 else 0x00FF

/-- When a byte write leaves the other half of a register of this kind as it was. -/
def RegKind.LaneSafe (addr : UInt32) (state last : UInt16) (value : UInt32) : RegKind → Prop
  | readOnly clears => state &&& otherHalf addr &&& clears = 0
  | live _ | setClrZero => True
  | writeOnly _ => state &&& otherHalf addr = 0
  | shadowed mask => last &&& mask &&& otherHalf addr = state &&& otherHalf addr
  -- nothing to lose, or the byte that carries bit 15 has it set
  | setClr => state &&& otherHalf addr = 0 ∨ (addr &&& 1 = 0 ∧ value &&& 0x80 ≠ 0)
  | period =>
    state &&& otherHalf addr =
      if last &&& otherHalf addr = 0 ∧ value &&& 0xFF = 0 then 1 &&& otherHalf addr else last &&& otherHalf addr
  | volume => loudness last &&& otherHalf addr = state &&& otherHalf addr

/-! ## One word -/

/-- The byte, in the half that it is written to. -/
def placedByte (addr value : UInt32) : UInt16 :=
  if addr &&& 1 ≠ 0 then (value &&& (0xFF : UInt32)).toUInt16 else ((value &&& (0xFF : UInt32)) <<< 8).toUInt16

theorem mergeByte_eq (addr : UInt32) (word : UInt16) (value : UInt32) :
    mergeByte addr word value = (word &&& otherHalf addr) ||| placedByte addr value := by
  unfold mergeByte otherHalf placedByte
  split <;> rfl

theorem placedByte_other (addr value : UInt32) : placedByte addr value &&& otherHalf addr = 0 := by
  have hlow : ∀ i, (hi : i < 16) → (255#16)[i] = true → (65280#16)[i] = false := by decide
  have hhigh : ∀ i, (hi : i < 16) → 8 ≤ i → (255#16)[i] = false := by decide
  unfold placedByte otherHalf
  split
  · apply UInt16.toBitVec_inj.mp
    ext i hi
    simpa using fun _ => hlow i hi
  · apply UInt16.toBitVec_inj.mp
    ext i hi
    simpa using fun h8 _ _ => hhigh i hi h8

theorem placedByte_toNat (addr value : UInt32) :
    (placedByte addr value).toNat =
      if addr &&& 1 ≠ 0 then (value &&& (0xFF : UInt32)).toNat else (value &&& (0xFF : UInt32)).toNat * 256 := by
  have hbyte : (value &&& (0xFF : UInt32)).toNat < 256 := by
    rw [UInt32.toNat_and]
    exact Nat.lt_of_le_of_lt Nat.and_le_right (by decide)
  unfold placedByte
  split
  · rw [UInt32.toNat_toUInt16]
    omega
  · rw [UInt32.toNat_toUInt16, UInt32.toNat_shiftLeft, show UInt32.toNat 8 % 32 = 8 from rfl, Nat.shiftLeft_eq]
    omega

theorem placedByte_eq_zero (addr value : UInt32) : placedByte addr value = 0 ↔ value &&& 0xFF = 0 := by
  rw [← UInt16.toNat_inj, ← UInt32.toNat_inj, placedByte_toNat]
  split <;> simp

theorem placedByte_top (addr value : UInt32) :
    placedByte addr value &&& 0x8000 ≠ 0 ↔ addr &&& 1 = 0 ∧ value &&& 0x80 ≠ 0 := by
  have hbit : value &&& 0x80 ≠ 0 ↔ value.toNat.testBit 7 = true := by
    rw [Ne, ← UInt32.toNat_inj, UInt32.toNat_and, show UInt32.toNat 0x80 = 2 ^ 7 from rfl, Nat.and_two_pow]
    cases value.toNat.testBit 7 <;> simp
  rw [hbit, Ne, ← UInt16.toNat_inj, UInt16.toNat_and, show UInt16.toNat 0x8000 = 2 ^ 15 from rfl, Nat.and_two_pow,
    placedByte_toNat]
  by_cases hodd : addr &&& 1 = 0
  · simp only [hodd, ne_eq, not_true_eq_false, if_false, true_and]
    rw [show (256 : Nat) = 2 ^ 8 from rfl, Nat.testBit_mul_two_pow]
    simpa using fun _ => (by decide : Nat.testBit 255 7 = true)
  · simpa [hodd] using fun _ => (by decide : Nat.testBit 255 15 = false)

theorem mergeByte_other (addr : UInt32) (word : UInt16) (value : UInt32) :
    mergeByte addr word value &&& otherHalf addr = word &&& otherHalf addr := by
  rw [mergeByte_eq, or_and_of_disjoint _ (placedByte_other addr value), UInt16.and_assoc, UInt16.and_self]

theorem applySetclr_of_top {reg word : UInt16} (h : word &&& 0x8000 ≠ 0) : applySetclr reg word = reg ||| (word &&& 0x7FFF) :=
  if_pos h

theorem applySetclr_of_not_top {reg word : UInt16} (h : ¬ word &&& 0x8000 ≠ 0) :
    applySetclr reg word = reg &&& ~~~(word &&& 0x7FFF) := if_neg h

/-- A byte of a set/clear word that shows the register's own bits clears them, or sets them again. -/
theorem setClr_kept_iff (addr : UInt32) {state : UInt16} (htop : state &&& 0x8000 = 0) (value : UInt32) :
    applySetclr state (mergeByte addr state value) &&& otherHalf addr = state &&& otherHalf addr ↔
      state &&& otherHalf addr = 0 ∨ (addr &&& 1 = 0 ∧ value &&& 0x80 ≠ 0) := by
  have hheld : state &&& otherHalf addr &&& 0x7FFF = state &&& otherHalf addr := by
    apply and_low_of_top
    rw [and_swap_right, htop, UInt16.zero_and]
  have hword : mergeByte addr state value &&& 0x7FFF &&& otherHalf addr = state &&& otherHalf addr := by
    rw [and_swap_right, mergeByte_other, hheld]
  have hsets : mergeByte addr state value &&& 0x8000 ≠ 0 ↔ addr &&& 1 = 0 ∧ value &&& 0x80 ≠ 0 := by
    rw [← placedByte_top, mergeByte_eq, or_and_distrib, and_swap_right, htop, UInt16.zero_and, UInt16.zero_or]
  rw [← hsets]
  by_cases hset : mergeByte addr state value &&& 0x8000 ≠ 0
  · rw [applySetclr_of_top hset, or_and_distrib, hword]
    simp [hset]
  · rw [applySetclr_of_not_top hset, and_not_and, hword, UInt16.and_not_self]
    simp only [hset, or_false]
    exact eq_comm

/-- A byte of a set/clear word whose other half is zero touches nothing there. -/
theorem setClrZero_kept (addr : UInt32) (state : UInt16) (value : UInt32) :
    applySetclr state (mergeByte addr 0 value) &&& otherHalf addr = state &&& otherHalf addr := by
  have hword : mergeByte addr 0 value &&& 0x7FFF &&& otherHalf addr = 0 := by
    rw [and_swap_right, mergeByte_other, UInt16.zero_and, UInt16.zero_and]
  unfold applySetclr
  split
  · exact or_and_of_disjoint _ hword
  · exact and_not_and_of_disjoint _ hword

theorem loudness_high (word : UInt16) : RegKind.loudness word &&& 0xFF00 = 0 := by
  unfold RegKind.loudness
  split
  · rfl
  · rw [UInt16.and_assoc, show (0x007F : UInt16) &&& 0xFF00 = 0 from rfl, UInt16.and_zero]

theorem loudness_other (addr : UInt32) (last : UInt16) (value : UInt32) :
    RegKind.loudness (mergeByte addr last value) &&& otherHalf addr = RegKind.loudness last &&& otherHalf addr := by
  by_cases heven : addr &&& 1 = 0
  · have hhalf : otherHalf addr = 0x00FF := if_neg (not_not.mpr heven)
    have hother := mergeByte_other addr last value
    rw [hhalf] at hother
    have hlow : mergeByte addr last value &&& 0x007F = last &&& 0x007F := by
      rw [show (0x007F : UInt16) = 0x00FF &&& 0x007F from rfl, ← UInt16.and_assoc, hother, UInt16.and_assoc]
    unfold RegKind.loudness
    rw [hlow]
  · have hhalf : otherHalf addr = 0xFF00 := if_pos heven
    rw [hhalf, loudness_high, loudness_high]

theorem RegKind.and_not_cleared {kind : RegKind} (h : kind.cleared = 0) (state : UInt16) :
    state &&& ~~~kind.cleared = state := by
  rw [h]
  exact UInt16.and_neg_one

/-- **The law of one register.** -/
theorem RegKind.kept_iff (kind : RegKind) (addr : UInt32) {state last word : UInt16} (hread : kind.Answers state last word)
    (htop : kind = .setClr → state &&& 0x8000 = 0) (value : UInt32) :
    kind.store (state &&& ~~~kind.cleared) (mergeByte addr word value) &&& otherHalf addr = state &&& otherHalf addr ↔
      kind.LaneSafe addr state last value := by
  cases kind with
  | readOnly clears =>
    simp only [store, cleared, LaneSafe]
    rw [and_swap_right, and_not_eq_self_iff]
  | live mask =>
    simp only [Answers] at hread
    simp only [store, LaneSafe, iff_true]
    rw [and_swap_right, mergeByte_other, and_swap_right, hread]
  | writeOnly mask =>
    simp only [Answers] at hread
    simp only [store, LaneSafe]
    rw [and_swap_right, mergeByte_other, hread, UInt16.zero_and, UInt16.zero_and]
    exact eq_comm
  | shadowed mask =>
    simp only [Answers] at hread
    simp only [store, LaneSafe]
    rw [and_swap_right, mergeByte_other, and_swap_right, hread]
  | setClr =>
    simp only [Answers] at hread
    subst hread
    simp only [store, cleared, UInt16.not_zero, UInt16.and_neg_one, LaneSafe]
    exact setClr_kept_iff addr (htop rfl) value
  | setClrZero =>
    simp only [Answers] at hread
    subst hread
    simp only [store, cleared, UInt16.not_zero, UInt16.and_neg_one, LaneSafe, iff_true]
    exact setClrZero_kept addr state value
  | period =>
    simp only [Answers] at hread
    subst hread
    have hzero : mergeByte addr word value = 0 ↔ word &&& otherHalf addr = 0 ∧ value &&& 0xFF = 0 := by
      rw [mergeByte_eq, UInt16.or_eq_zero_iff, placedByte_eq_zero]
    simp only [store, LaneSafe]
    by_cases h0 : mergeByte addr word value = 0
    · rw [if_neg (not_not.mpr h0), if_pos (hzero.mp h0)]
      exact eq_comm
    · rw [if_pos h0, if_neg (mt hzero.mpr h0), mergeByte_other]
      exact eq_comm
  | volume =>
    simp only [Answers] at hread
    subst hread
    simp only [store, LaneSafe]
    rw [loudness_other]

/-! ## The blitter's registers -/

/-- The half of a pointer that an offset of a register pair names. -/
def pointerHalf (ptr : UInt32) (low : Bool) : UInt16 := if low then ptr.toUInt16 else (ptr >>> 16).toUInt16

/-- What the blitter holds of a register. A size of all zeros is held as the maximum. -/
def blitterRegState (b : BlitterState) (addr : UInt32) : UInt16 :=
  match addr with
  | 0x048 => pointerHalf b.regs.bltcpt false
  | 0x04A => pointerHalf b.regs.bltcpt true
  | 0x04C => pointerHalf b.regs.bltbpt false
  | 0x04E => pointerHalf b.regs.bltbpt true
  | 0x050 => pointerHalf b.regs.bltapt false
  | 0x052 => pointerHalf b.regs.bltapt true
  | 0x054 => pointerHalf b.regs.bltdpt false
  | 0x056 => pointerHalf b.regs.bltdpt true
  | 0x05A => b.regs.bltcon0 &&& 0x00FF
  | 0x05C => b.regs.bltsizv &&& 0x7FFF
  | 0x05E => b.regs.bltsizh &&& 0x07FF
  | _ => blitterReadReg16 b addr

def blitterRegKind (addr : UInt32) : RegKind :=
  match addr with
  | 0x048 | 0x04C | 0x050 | 0x054 => .writeOnly 0xFFFF
  | 0x04A | 0x04E | 0x052 | 0x056 => .writeOnly 0xFFFE
  | 0x05A => .writeOnly 0x00FF
  | 0x05C => .writeOnly 0x7FFF
  | 0x05E => .writeOnly 0x07FF
  | _ => .live 0xFFFF

def blitterOffsets : List UInt32 :=
  [0x000, 0x040, 0x042, 0x044, 0x046, 0x048, 0x04A, 0x04C, 0x04E, 0x050, 0x052, 0x054, 0x056, 0x058, 0x05A, 0x05C,
    0x05E, 0x060, 0x062, 0x064, 0x066, 0x070, 0x072, 0x074]

/-- An even offset below $200, by its index. -/
theorem validReg_index {addr : UInt32} (h : rigelCustomIsValidReg addr = true) :
    ∃ n < 256, addr = UInt32.ofNat (2 * n) := by
  simp only [rigelCustomIsValidReg, Bool.and_eq_true, beq_iff_eq, decide_eq_true_eq] at h
  have heven : addr.toNat % 2 = 0 := by
    have hbit := congrArg UInt32.toNat h.1
    rw [UInt32.toNat_and, show UInt32.toNat 1 = 2 ^ 1 - 1 from rfl, Nat.and_two_pow_sub_one_eq_mod] at hbit
    exact hbit
  have hle := UInt32.le_iff_toNat_le.mp h.2
  rw [show UInt32.toNat 0x1FE = 510 from rfl] at hle
  refine ⟨addr.toNat / 2, by omega, ?_⟩
  rw [show 2 * (addr.toNat / 2) = addr.toNat by omega, UInt32.ofNat_toNat]

/-- What holds of the 256 registers holds of every valid one. -/
theorem validReg_forall {P : UInt32 → Prop} (h : ∀ n < 256, P (UInt32.ofNat (2 * n))) {addr : UInt32}
    (hv : rigelCustomIsValidReg addr = true) : P addr := by
  obtain ⟨n, hn, rfl⟩ := validReg_index hv
  exact h n hn

theorem mem_blitterOffsets {addr : UInt32} (hv : rigelCustomIsValidReg addr = true)
    (h : rigelBlitterDomainOwnsReg addr = true) (hne : addr ≠ 0x002) : addr ∈ blitterOffsets := by
  exact validReg_forall (P := fun addr => rigelBlitterDomainOwnsReg addr = true → addr ≠ 0x002 → addr ∈ blitterOffsets)
    (by decide +kernel) hv h hne

theorem pointerHalf_high (ptr : UInt32) (value : UInt16) :
    pointerHalf ((ptr &&& (0x0000FFFF : UInt32)) ||| (value.toUInt32 <<< 16)) false = value := by
  have hlow : ∀ i < 16, (65535#32).getLsbD (16 + i) = false := by decide
  apply UInt16.toBitVec_inj.mp
  ext i hi
  simp [pointerHalf, hlow i hi, ← BitVec.getLsbD_eq_getElem, hi, show i < 32 by omega, show 16 + i < 32 by omega,
    show ¬ 16 + i < 16 by omega]

theorem pointerHalf_low (ptr : UInt32) (value : UInt16) :
    pointerHalf ((ptr &&& 0xFFFF0000) ||| value.toUInt32) true = value := by
  apply UInt16.toBitVec_inj.mp
  ext i hi
  simp [pointerHalf]

theorem makePtr_high (ptr : UInt32) (value : UInt16) : pointerHalf (makePtr ptr value true) false = value := by
  rw [makePtr, if_pos rfl, UInt32.or_comm]
  exact pointerHalf_high ptr value

theorem makePtr_low (ptr : UInt32) (value : UInt16) : pointerHalf (makePtr ptr value false) true = value &&& 0xFFFE := by
  rw [makePtr, if_neg (by decide)]
  exact pointerHalf_low ptr _

/-- A size of all zeros is the maximum, whose own bits under the mask are zeros. -/
theorem sizeOrMax_and {mask top : UInt16} (h : top &&& mask = 0) (value : UInt16) :
    (if value &&& mask = 0 then top else value &&& mask) &&& mask = value &&& mask := by
  split
  · rename_i h0
    rw [h, h0]
  · rw [UInt16.and_assoc, UInt16.and_self]

theorem bltcon0l_and (bltcon0 value : UInt16) :
    ((bltcon0 &&& 0xFF00) ||| (value &&& 0x00FF)) &&& 0x00FF = value &&& 0x00FF := by
  have hdisjoint : bltcon0 &&& 0xFF00 &&& 0x00FF = 0 := by
    rw [UInt16.and_assoc, show (0xFF00 : UInt16) &&& 0x00FF = 0 from rfl, UInt16.and_zero]
  rw [or_and_distrib, hdisjoint, UInt16.zero_or, UInt16.and_assoc, UInt16.and_self]

theorem blitterRegState_write (b : BlitterState) {addr : UInt32} (h : addr ∈ blitterOffsets) (value : UInt16) :
    blitterRegState (blitterWriteReg16 b addr value) addr =
      (blitterRegKind addr).store (blitterRegState b addr) value := by
  simp only [blitterOffsets, List.mem_cons, List.not_mem_nil, or_false] at h
  rcases h with rfl | rfl | rfl | rfl | rfl | rfl | rfl | rfl | rfl | rfl | rfl | rfl | rfl | rfl | rfl | rfl | rfl |
    rfl | rfl | rfl | rfl | rfl | rfl | rfl
  all_goals first
    | exact UInt16.and_neg_one.symm
    | exact (UInt16.toUInt16_toInt16 value).trans UInt16.and_neg_one.symm
    | exact (makePtr_high _ value).trans UInt16.and_neg_one.symm
    | exact makePtr_low _ value
    | exact bltcon0l_and b.regs.bltcon0 value
    | exact sizeOrMax_and rfl value

theorem blitterRegState_read (b : BlitterState) {addr : UInt32} (h : addr ∈ blitterOffsets) (last : UInt16) :
    (blitterRegKind addr).Answers (blitterRegState b addr) last (blitterReadReg16 b addr) := by
  simp only [blitterOffsets, List.mem_cons, List.not_mem_nil, or_false] at h
  rcases h with rfl | rfl | rfl | rfl | rfl | rfl | rfl | rfl | rfl | rfl | rfl | rfl | rfl | rfl | rfl | rfl | rfl |
    rfl | rfl | rfl | rfl | rfl | rfl | rfl
  all_goals first | rfl | exact UInt16.and_neg_one

/-! ## Agnus's other registers -/

/-- The low half of a pair is at the offset with bit 1 set. -/
def isLowHalf (addr : UInt32) : Bool := addr &&& 2 != 0

/-- What Agnus holds of a register. The bitplane and sprite pointers are the live ones, and DDFSTRT and DDFSTOP those
of the scheduler; a modulo, a strobe and a register that only the display reads are in the register store. -/
def agnusRegState (ctx : RigelContext) (addr : UInt32) : UInt16 :=
  let a := ctx.agnus
  if addr = 0x002 ∨ addr = 0x004 ∨ addr = 0x006 then rigelAgnusMmioRead ctx addr
  else if rigelBlitterDomainOwnsReg addr then blitterRegState a.blitter addr
  else if addr = 0x02E then a.copper.copcon
  else if rigelCopperRegsOwnsReg addr then rigelCopperRegsRead ctx addr
  else if addr = 0x096 then a.dma.dmacon
  else if addr = 0x092 then a.scheduler.ddfstrt
  else if addr = 0x094 then a.scheduler.ddfstop
  else if addr = 0x1DC then rigelAgnusMmioRead ctx addr &&& 0x0020
  else if isBplptReg addr then pointerHalf (a.bplpt.bplpt ((addr - 0x0E0) / 4).toNat) (isLowHalf addr)
  else if isSprptReg addr then pointerHalf (a.spriteDma.sp ((addr - 0x120) / 4).toNat).ptr (isLowHalf addr)
  else rigelContextReadReg ctx addr

def agnusRegKind (ctx : RigelContext) (addr : UInt32) : RegKind :=
  if addr = 0x002 ∨ addr = 0x004 ∨ addr = 0x006 then .readOnly 0
  else if rigelBlitterDomainOwnsReg addr then blitterRegKind addr
  else if addr = 0x02E then .shadowed 0xFFFF
  else if rigelCopperRegsOwnsReg addr then .live 0xFFFF
  else if addr = 0x096 then .setClr
  else if addr = 0x092 ∨ addr = 0x094 then .shadowed 0x00FC
  else if addr = 0x1DC then (if ctx.agnus.chipRev = .ecs then .live 0x0020 else .readOnly 0)
  else if isBplptReg addr then .shadowed (if isLowHalf addr then 0xFFFE else 0xFFFF)
  else if isSprptReg addr then .shadowed 0xFFFF
  else .live 0xFFFF

theorem contextReadReg_valid (ctx : RigelContext) {addr : UInt32} (hv : rigelCustomIsValidReg addr = true) :
    rigelContextReadReg ctx addr = ctx.customRegs (addr >>> 1) := if_pos hv

theorem customRegsStore_self (regs : UInt32 → UInt16) {addr : UInt32} (hv : rigelCustomIsValidReg addr = true)
    (value : UInt16) : customRegsStore regs addr value (addr >>> 1) = value := by
  rw [customRegsStore, if_pos hv, Function.update_self]

theorem copperOwned {addr : UInt32} (h : rigelCopperRegsOwnsReg addr = true) :
    addr = 0x02E ∨ addr = 0x080 ∨ addr = 0x082 ∨ addr = 0x084 ∨ addr = 0x086 ∨ addr = 0x088 ∨ addr = 0x08A := by
  simpa [rigelCopperRegsOwnsReg, or_assoc] using h

theorem copperRegState_write (ctx : RigelContext) {addr : UInt32} (h : rigelCopperRegsOwnsReg addr = true)
    (hne : addr ≠ 0x02E) (value : UInt16) : rigelCopperRegsRead (rigelCopperRegsWrite ctx addr value) addr = value := by
  rcases copperOwned h with rfl | rfl | rfl | rfl | rfl | rfl | rfl
  · exact absurd rfl hne
  · exact pointerHalf_high _ value
  · exact pointerHalf_low _ value
  · exact pointerHalf_high _ value
  · exact pointerHalf_low _ value
  · rfl
  · rfl

/-- The register pair of a pointer, by number. -/
theorem pairIndex_lt {addr base top : UInt32} {n : Nat} (hlo : base ≤ addr) (hhi : addr ≤ top)
    (hn : top.toNat < base.toNat + 4 * n) : ((addr - base) / 4).toNat < n := by
  rw [UInt32.toNat_div, UInt32.toNat_sub_of_le _ _ hlo, show UInt32.toNat 4 = 4 from rfl]
  have hbase := UInt32.le_iff_toNat_le.mp hlo
  have htop := UInt32.le_iff_toNat_le.mp hhi
  omega

theorem bplptPlane_lt {addr : UInt32} (h : isBplptReg addr = true) : ((addr - 0x0E0) / 4).toNat < bitplaneCount := by
  simp only [isBplptReg, Bool.and_eq_true, decide_eq_true_eq] at h
  exact pairIndex_lt h.1.1 h.1.2 (by decide)

theorem sprptChannel_lt {addr : UInt32} (h : isSprptReg addr = true) :
    ((addr - 0x120) / 4).toNat < spriteDmaChannels := by
  simp only [isSprptReg, Bool.and_eq_true, decide_eq_true_eq] at h
  exact pairIndex_lt h.1.1 h.1.2 (by decide)

theorem isLowHalf_eq (addr : UInt32) : isLowHalf addr = false ↔ addr &&& 2 = 0 := by
  simp [isLowHalf]

theorem bplptHalf_write (a : RigelAgnus) {addr : UInt32} (h : isBplptReg addr = true) (value : UInt16) :
    pointerHalf ((agnusWritePointers a addr value).bplpt.bplpt ((addr - 0x0E0) / 4).toNat) (isLowHalf addr) =
      value &&& (if isLowHalf addr then 0xFFFE else 0xFFFF) := by
  have hplane := not_le.mpr (bplptPlane_lt h)
  simp only [agnusWritePointers, h, if_true]
  cases hlow : isLowHalf addr with
  | false =>
    rw [if_pos ((isLowHalf_eq addr).mp hlow), bplptSetHi, if_neg hplane]
    simp only [Function.update_self, pointerHalf_high]
    exact UInt16.and_neg_one.symm
  | true =>
    have hne : ¬ addr &&& 2 = 0 := fun h0 => Bool.noConfusion (hlow.symm.trans ((isLowHalf_eq addr).mpr h0))
    rw [if_neg hne, bplptSetLo, if_neg hplane]
    simp only [Function.update_self, pointerHalf_low]
    rfl

theorem sprptHalf_write (a : RigelAgnus) {addr : UInt32} (h : isSprptReg addr = true) (value : UInt16) :
    pointerHalf ((agnusWritePointers a addr value).spriteDma.sp ((addr - 0x120) / 4).toNat).ptr (isLowHalf addr) = value := by
  have hchannel := not_le.mpr (sprptChannel_lt h)
  simp only [agnusWritePointers, h, if_true]
  cases hlow : isLowHalf addr with
  | false =>
    rw [if_pos ((isLowHalf_eq addr).mp hlow), spriteDmaSetPtrHi, if_neg hchannel]
    simp only [Function.update_self]
    exact pointerHalf_high _ value
  | true =>
    have hne : ¬ addr &&& 2 = 0 := fun h0 => Bool.noConfusion (hlow.symm.trans ((isLowHalf_eq addr).mpr h0))
    rw [if_neg hne, spriteDmaSetPtrLo, if_neg hchannel]
    simp only [Function.update_self]
    exact pointerHalf_low _ value

theorem beamcon0State_write (ctx : RigelContext) (value : UInt16) :
    agnusRegState (rigelAgnusMmioWrite ctx 0x1DC value) 0x1DC =
      (agnusRegKind ctx 0x1DC).store (agnusRegState ctx 0x1DC) value := by
  have hwrite : rigelAgnusMmioWrite ctx 0x1DC value = agnusWriteBeamcon0 ctx value := rfl
  have hkind : agnusRegKind ctx 0x1DC = if ctx.agnus.chipRev = .ecs then .live 0x0020 else .readOnly 0 := rfl
  have hstate : ∀ c : RigelContext,
      agnusRegState c 0x1DC = (if c.agnus.chipRev = .ecs then c.agnus.beamcon0 else 0) &&& 0x0020 := fun _ => rfl
  rw [hwrite, hkind, hstate, hstate]
  unfold agnusWriteBeamcon0
  by_cases hecs : ctx.agnus.chipRev = .ecs
  · rw [if_pos hecs, if_pos hecs, if_pos hecs]
    show (if ctx.agnus.chipRev = .ecs then value &&& 0x0020 else 0) &&& 0x0020 = value &&& 0x0020
    rw [if_pos hecs, UInt16.and_assoc, UInt16.and_self]
  · rw [if_neg hecs, if_neg hecs, if_neg hecs]
    rfl

/-- **A write leaves in Agnus what its kind says.** -/
theorem agnusRegState_write (ctx : RigelContext) {addr : UInt32} (hv : rigelCustomIsValidReg addr = true) (value : UInt16) :
    agnusRegState (rigelAgnusMmioWrite ctx addr value) addr =
      (agnusRegKind ctx addr).store (agnusRegState ctx addr) value := by
  by_cases hro : addr = 0x002 ∨ addr = 0x004 ∨ addr = 0x006
  · rcases hro with rfl | rfl | rfl <;> rfl
  by_cases hb : rigelBlitterDomainOwnsReg addr = true
  · have hmem := mem_blitterOffsets hv hb fun h => hro (.inl h)
    simp only [agnusRegState, agnusRegKind, hro, hb, if_true, if_false, rigelAgnusMmioWrite_agnus, agnusAfterMmio]
    exact blitterRegState_write ctx.agnus.blitter hmem value
  by_cases hcopcon : addr = 0x02E
  · subst hcopcon
    exact UInt16.and_neg_one.symm
  by_cases hc : rigelCopperRegsOwnsReg addr = true
  · simp only [agnusRegState, agnusRegKind, rigelAgnusMmioWrite, hro, hb, hc, hcopcon, if_true, if_false]
    exact (copperRegState_write ctx hc hcopcon value).trans UInt16.and_neg_one.symm
  by_cases hdmacon : addr = 0x096
  · subst hdmacon
    rfl
  by_cases hddfstrt : addr = 0x092
  · subst hddfstrt
    rfl
  by_cases hddfstop : addr = 0x094
  · subst hddfstop
    rfl
  by_cases hbeamcon0 : addr = 0x1DC
  · subst hbeamcon0
    exact beamcon0State_write ctx value
  simp only [agnusRegState, agnusRegKind, rigelAgnusMmioWrite, hro, hb, hc, hcopcon, hdmacon, hddfstrt, hddfstop,
    hbeamcon0, or_self, if_false]
  by_cases hbpl : isBplptReg addr = true
  · simp only [hbpl, if_true]
    exact bplptHalf_write ctx.agnus hbpl value
  by_cases hspr : isSprptReg addr = true
  · simp only [hbpl, hspr, if_true]
    exact (sprptHalf_write ctx.agnus hspr value).trans UInt16.and_neg_one.symm
  simp only [hbpl, hspr]
  rw [contextReadReg_valid _ hv]
  exact (customRegsStore_self ctx.customRegs hv value).trans UInt16.and_neg_one.symm

/-- **A read of Agnus answers what its kind says.** -/
theorem agnusRegState_read (ctx : RigelContext) {addr : UInt32} (hv : rigelCustomIsValidReg addr = true) :
    (agnusRegKind ctx addr).Answers (agnusRegState ctx addr) (ctx.customRegs (addr >>> 1)) (rigelAgnusMmioRead ctx addr) := by
  by_cases hro : addr = 0x002 ∨ addr = 0x004 ∨ addr = 0x006
  · rw [agnusRegKind, if_pos hro]
    trivial
  obtain ⟨hne2, hne4, hne6⟩ : addr ≠ 0x002 ∧ addr ≠ 0x004 ∧ addr ≠ 0x006 := by
    simpa only [not_or] using hro
  by_cases hdmacon : addr = 0x096
  · subst hdmacon
    rfl
  by_cases hb : rigelBlitterDomainOwnsReg addr = true
  · simp only [agnusRegState, agnusRegKind, rigelAgnusMmioRead, hne2, hne4, hne6, hdmacon, hb, or_self, if_true, if_false]
    exact blitterRegState_read ctx.agnus.blitter (mem_blitterOffsets hv hb hne2) _
  by_cases hcopcon : addr = 0x02E
  · subst hcopcon
    rfl
  by_cases hc : rigelCopperRegsOwnsReg addr = true
  · simp only [agnusRegState, agnusRegKind, rigelAgnusMmioRead, hne2, hne4, hne6, hdmacon, hb, hc, hcopcon, or_self,
      if_true, if_false, Bool.false_eq_true]
    exact UInt16.and_neg_one
  by_cases hddf : addr = 0x092 ∨ addr = 0x094
  · rcases hddf with rfl | rfl <;> rfl
  by_cases hbeamcon0 : addr = 0x1DC
  · subst hbeamcon0
    have hkind : agnusRegKind ctx 0x1DC = if ctx.agnus.chipRev = .ecs then .live 0x0020 else .readOnly 0 := rfl
    rw [hkind]
    split
    · rfl
    · trivial
  have hread : rigelAgnusMmioRead ctx addr = ctx.customRegs (addr >>> 1) := by
    simp only [rigelAgnusMmioRead, hne2, hne4, hne6, hdmacon, hb, hc, hbeamcon0, if_false]
    exact contextReadReg_valid ctx hv
  obtain ⟨hddfstrt, hddfstop⟩ := not_or.mp hddf
  simp only [agnusRegState, agnusRegKind, hro, hb, hc, hcopcon, hdmacon, hddfstrt, hddfstop, hbeamcon0, or_self,
    if_false, hread]
  by_cases hbpl : isBplptReg addr = true
  · simp only [hbpl, if_true]
    rfl
  by_cases hspr : isSprptReg addr = true
  · simp only [hbpl, hspr, if_true]
    rfl
  simp only [hbpl, hspr, contextReadReg_valid ctx hv]
  exact UInt16.and_neg_one

/-! ## Denise's registers -/

def isSpriteReg (addr : UInt32) : Bool := addr ≥ 0x140 && addr ≤ 0x17E

/-- A sprite's latch, by its offset in the sprite's block. -/
def spriteLatch (s : DeniseSprite) (sub : Nat) : UInt16 :=
  match sub with
  | 0 => s.pos
  | 2 => s.ctl
  | 4 => s.data
  | 6 => s.datb
  | _ => 0

def deniseRegState (d : RigelDenise) (addr : UInt32) : UInt16 :=
  if addr ≥ 0x180 ∧ addr ≤ 0x1BE then d.regs.color (colorIndex addr)
  else if isSpriteReg addr then spriteLatch (d.sprites.sp ((addr - 0x140) / 8).toNat) ((addr - 0x140) % 8).toNat
  else
    match addr with
    | 0x098 => d.clxcon
    | _ => rigelDeniseRegistersRead d addr

def deniseRegKind (d : RigelDenise) (addr : UInt32) : RegKind :=
  if addr ≥ 0x180 ∧ addr ≤ 0x1BE then .live 0xFFFF
  else if isSpriteReg addr then .writeOnly 0xFFFF
  else
    match addr with
    | 0x098 => .writeOnly 0xFFFF
    | 0x07C => .readOnly 0
    | 0x00E => .readOnly 0xFFFF
    | 0x106 | 0x1E4 => if d.chipRev = .ecs then .live 0xFFFF else .readOnly 0
    | _ => .live 0xFFFF

theorem denise_owned {addr : UInt32} (hv : rigelCustomIsValidReg addr = true)
    (h : rigelDeniseRegistersOwnsReg addr = true) :
    (addr ≥ 0x180 ∧ addr ≤ 0x1BE) ∨ isSpriteReg addr = true ∨ addr = 0x07C ∨ addr = 0x00E ∨ addr = 0x098 ∨
      addr = 0x100 ∨ addr = 0x102 ∨ addr = 0x104 ∨ addr = 0x106 ∨ addr = 0x08E ∨ addr = 0x090 ∨ addr = 0x1E4 := by
  simp only [rigelCustomIsValidReg, Bool.and_eq_true] at hv
  simp only [rigelDeniseRegistersOwnsReg, hv.1, Bool.and_true, Bool.or_eq_true, Bool.and_eq_true, decide_eq_true_eq,
    beq_iff_eq, or_assoc] at h
  simpa only [isSpriteReg, Bool.and_eq_true, decide_eq_true_eq] using h

theorem spriteSub_cases {addr : UInt32} (hv : rigelCustomIsValidReg addr = true) (h : isSpriteReg addr = true) :
    ((addr - 0x140) % 8).toNat = 0 ∨ ((addr - 0x140) % 8).toNat = 2 ∨ ((addr - 0x140) % 8).toNat = 4 ∨
      ((addr - 0x140) % 8).toNat = 6 := by
  exact validReg_forall (P := fun addr => isSpriteReg addr = true → ((addr - 0x140) % 8).toNat = 0 ∨
    ((addr - 0x140) % 8).toNat = 2 ∨ ((addr - 0x140) % 8).toNat = 4 ∨ ((addr - 0x140) % 8).toNat = 6)
    (by decide +kernel) hv h

theorem spriteLatch_write (s : DeniseSpritesState) (sp : Nat) {sub : Nat} (h : sub = 0 ∨ sub = 2 ∨ sub = 4 ∨ sub = 6)
    (value : UInt16) : spriteLatch ((rigelDeniseSpriteRegWrite s sp sub value).sp sp) sub = value := by
  rcases h with rfl | rfl | rfl | rfl <;> simp [rigelDeniseSpriteRegWrite, spriteLatch]

theorem not_color_of_sprite {addr : UInt32} (h : isSpriteReg addr = true) : ¬ (addr ≥ 0x180 ∧ addr ≤ 0x1BE) := by
  simp only [isSpriteReg, Bool.and_eq_true, decide_eq_true_eq] at h
  exact fun hc => absurd (UInt32.le_trans hc.1 h.2) (by decide)

/-- The two registers that only an ECS Denise has. -/
theorem ecsRegState_write (d : RigelDenise) {addr : UInt32} (h : addr = 0x106 ∨ addr = 0x1E4) (value : UInt16) :
    deniseRegState (rigelDeniseRegistersWrite d addr value) addr =
      (if d.chipRev = .ecs then RegKind.live 0xFFFF else .readOnly 0).store (deniseRegState d addr) value := by
  have hstate : ∀ c : RigelDenise, deniseRegState c addr =
      if c.chipRev = .ecs then (if addr = 0x106 then c.regs.bplcon3 else c.regs.diwhigh) else 0 := by
    intro c
    rcases h with rfl | rfl <;> rfl
  have hwrite : deniseRegState (rigelDeniseRegistersWrite d addr value) addr =
      deniseRegState (rigelDeniseControlWrite d addr value) addr := by
    rw [hstate, hstate]
    rcases h with rfl | rfl <;> rfl
  rw [hwrite]
  by_cases hecs : d.chipRev = .ecs
  · rw [if_pos hecs, hstate]
    rcases h with rfl | rfl
    · simp only [rigelDeniseControlWrite, if_pos hecs, if_true]
      exact UInt16.and_neg_one.symm
    · simp only [rigelDeniseControlWrite, if_pos hecs, displayWindowUpdate_frame]
      exact UInt16.and_neg_one.symm
  · rw [if_neg hecs]
    rcases h with rfl | rfl
    · rw [rigelDeniseControlWrite, if_neg hecs]
      rfl
    · rw [rigelDeniseControlWrite, if_neg hecs]
      rfl

theorem deniseRegState_write (d : RigelDenise) {addr : UInt32} (hv : rigelCustomIsValidReg addr = true)
    (h : rigelDeniseRegistersOwnsReg addr = true) (value : UInt16) :
    deniseRegState (rigelDeniseRegistersWrite d addr value) addr =
      (deniseRegKind d addr).store (deniseRegState d addr) value := by
  have hwindow : ∀ c : RigelDenise, (rigelDeniseDisplayWindowUpdate c).regs = c.regs := fun c =>
    (displayWindowUpdate_frame c).1
  rcases denise_owned hv h with hcolor | hsprite | rfl | rfl | rfl | rfl | rfl | rfl | rfl | rfl | rfl | rfl
  · simp only [deniseRegState, deniseRegKind, if_pos hcolor, rigelDeniseRegistersWrite, rigelDeniseColorRegsWrite,
      Function.update_self]
    exact UInt16.and_neg_one.symm
  · have hcolor := not_color_of_sprite hsprite
    have hrange : addr ≥ 0x140 ∧ addr ≤ 0x17E ∧ addr &&& 1 = 0 := by
      simp only [rigelCustomIsValidReg, Bool.and_eq_true, beq_iff_eq] at hv
      simp only [isSpriteReg, Bool.and_eq_true, decide_eq_true_eq] at hsprite
      exact ⟨hsprite.1, hsprite.2, hv.1⟩
    simp only [deniseRegState, deniseRegKind, hsprite, if_true, rigelDeniseRegistersWrite, if_neg hcolor, if_pos hrange]
    exact (spriteLatch_write d.sprites _ (spriteSub_cases hv hsprite) value).trans UInt16.and_neg_one.symm
  · rfl
  · rfl
  · exact UInt16.and_neg_one.symm
  · exact (congrArg DeniseRegisterFile.bplcon0 (hwindow _)).trans UInt16.and_neg_one.symm
  · exact UInt16.and_neg_one.symm
  · exact UInt16.and_neg_one.symm
  · exact ecsRegState_write d (.inl rfl) value
  · exact (congrArg DeniseRegisterFile.diwstrt (hwindow _)).trans UInt16.and_neg_one.symm
  · exact (congrArg DeniseRegisterFile.diwstop (hwindow _)).trans UInt16.and_neg_one.symm
  · exact ecsRegState_write d (.inr rfl) value

theorem deniseRegState_read (d : RigelDenise) {addr : UInt32} (hv : rigelCustomIsValidReg addr = true)
    (h : rigelDeniseRegistersOwnsReg addr = true) (last : UInt16) :
    (deniseRegKind d addr).Answers (deniseRegState d addr) last (rigelDeniseRegistersRead d addr) := by
  have hecs : ∀ word : UInt16,
      (if d.chipRev = .ecs then RegKind.live 0xFFFF else .readOnly 0).Answers word last word := by
    intro word
    split
    · exact UInt16.and_neg_one
    · trivial
  rcases denise_owned hv h with hcolor | hsprite | rfl | rfl | rfl | rfl | rfl | rfl | rfl | rfl | rfl | rfl
  · simp only [deniseRegState, deniseRegKind, if_pos hcolor, rigelDeniseRegistersRead]
    exact UInt16.and_neg_one
  · simp only [deniseRegKind, if_neg (not_color_of_sprite hsprite), hsprite, if_true]
    show rigelDeniseRegistersRead d addr = 0
    unfold rigelDeniseRegistersRead
    rw [if_neg (not_color_of_sprite hsprite)]
    split
    all_goals first
      | rfl
      | exact absurd hsprite (by decide)
  · trivial
  · trivial
  · rfl
  · exact UInt16.and_neg_one
  · exact UInt16.and_neg_one
  · exact UInt16.and_neg_one
  · exact hecs _
  · exact UInt16.and_neg_one
  · exact UInt16.and_neg_one
  · exact hecs _

/-! ## Paula's registers -/

/-- A channel's register, by its offset in the channel's block. -/
def audioLatch (ch : AudioChannel) (offset : UInt32) : UInt16 :=
  match offset with
  | 0x0 => pointerHalf ch.audlc false
  | 0x2 => pointerHalf ch.audlc true
  | 0x4 => ch.audlen
  | 0x6 => ch.audper
  | 0x8 => ch.audvol
  | 0xA => ch.auddat
  | _ => 0

def audioRegKind (offset : UInt32) : RegKind :=
  match offset with
  | 0x2 => .shadowed 0xFFFE
  | 0x6 => .period
  | 0x8 => .volume
  | _ => .shadowed 0xFFFF

def diskRegState (d : DiskState) (addr : UInt32) : UInt16 :=
  match addr with
  | 0x09E => d.adkcon
  | _ => (diskReadReg d addr).2

def diskRegKind (addr : UInt32) : RegKind :=
  match addr with
  | 0x01A => .readOnly 0x8000
  | 0x020 | 0x022 | 0x024 | 0x07E => .live 0xFFFF
  | 0x09E => .setClrZero
  | _ => .readOnly 0

def serialRegState (s : SerialState) (addr : UInt32) : UInt16 :=
  match addr with
  | 0x030 => s.txBuffer
  | 0x032 => s.serper
  | _ => serialReadSerdatr s

/-- A word goes through SERDAT's buffer unless the port sends at once. -/
def serialRegKind (s : SerialState) (addr : UInt32) : RegKind :=
  match addr with
  | 0x018 => .readOnly 0xC3FF
  | 0x030 => if s.txInstant then .readOnly 0 else .writeOnly 0xFFFF
  | _ => .writeOnly 0xFFFF

def paulaRegState (p : RigelPaula) (addr : UInt32) : UInt16 :=
  if addr = 0x034 then p.input.potgo
  else if inputOwnsReg addr then inputReadReg p.input addr
  else
    match audioDecodeReg addr with
    | some (channel, offset) => audioLatch (p.audio.ch channel) offset
    | none =>
      if diskOwnsReg addr then diskRegState p.disk addr
      else if serialOwnsReg addr then serialRegState p.serial addr
      else interruptReadReg p.interrupts addr

def paulaRegKind (p : RigelPaula) (addr : UInt32) : RegKind :=
  if addr = 0x034 then .writeOnly 0xFFFF
  else if inputOwnsReg addr then .readOnly 0
  else
    match audioDecodeReg addr with
    | some (_, offset) => audioRegKind offset
    | none =>
      if diskOwnsReg addr then diskRegKind addr
      else if serialOwnsReg addr then serialRegKind p.serial addr
      else if addr = 0x09A ∨ addr = 0x09C then .setClr
      else .readOnly 0

theorem audioOffset_cases {addr : UInt32} (hv : rigelCustomIsValidReg addr = true) {channel : Nat} {offset : UInt32}
    (h : audioDecodeReg addr = some (channel, offset)) :
    offset = 0x0 ∨ offset = 0x2 ∨ offset = 0x4 ∨ offset = 0x6 ∨ offset = 0x8 ∨ offset = 0xA := by
  exact validReg_forall (P := fun addr => ∀ r ∈ audioDecodeReg addr,
    r.2 = 0x0 ∨ r.2 = 0x2 ∨ r.2 = 0x4 ∨ r.2 = 0x6 ∨ r.2 = 0x8 ∨ r.2 = 0xA) (by decide +kernel) hv _ h

theorem audioLatch_write (ch : AudioChannel) {offset : UInt32}
    (h : offset = 0x0 ∨ offset = 0x2 ∨ offset = 0x4 ∨ offset = 0x6 ∨ offset = 0x8 ∨ offset = 0xA) (value : UInt16) :
    audioLatch (audioWriteChannel ch offset value) offset = (audioRegKind offset).store (audioLatch ch offset) value := by
  rcases h with rfl | rfl | rfl | rfl | rfl | rfl
  · exact (pointerHalf_high _ value).trans UInt16.and_neg_one.symm
  · exact pointerHalf_low _ _
  · exact UInt16.and_neg_one.symm
  · rfl
  · rfl
  · exact UInt16.and_neg_one.symm

theorem diskLoadTrack_dsklen (d : DiskState) (buf : Nat → UInt8) : (diskLoadTrack d buf).dsklen = d.dsklen := by
  unfold diskLoadTrack diskLoadDskbytr
  simp only
  split <;> rfl

theorem diskStartDma_dsklen (irq : Bool) (d : DiskState) (drive : FloppyDrive) (value : UInt16) :
    (diskStartDma irq d drive value).1.dsklen = value := by
  unfold diskStartDma
  simp only
  repeat' split
  · rfl
  · rfl
  · rfl
  · rfl
  · rename_i buf _
    have hloaded : (diskMaybeEmitSync irq (diskLoadTrack (diskStartBase d value) buf)).1.dsklen = value := by
      rw [diskMaybeEmitSync_eq]
      simp only [diskLoadTrack_dsklen]
      rfl
    generalize diskMaybeEmitSync irq (diskLoadTrack (diskStartBase d value) buf) = loaded at hloaded ⊢
    exact hloaded

theorem diskWriteDsklen_dsklen (irq : Bool) (d : DiskState) (drive : FloppyDrive) (value : UInt16) :
    (diskWriteDsklen irq d drive value).1.dsklen = value := by
  unfold diskWriteDsklen
  repeat' split
  · rfl
  · rfl
  · exact diskStartDma_dsklen irq d drive value

theorem disk_owned {addr : UInt32} (h : diskOwnsReg addr = true) :
    addr = 0x008 ∨ addr = 0x010 ∨ addr = 0x01A ∨ addr = 0x020 ∨ addr = 0x022 ∨ addr = 0x024 ∨ addr = 0x07E ∨
      addr = 0x09E := by
  simpa [diskOwnsReg, or_assoc] using h

theorem diskRegState_write (irq : Bool) (d : DiskState) (drive : FloppyDrive) {addr : UInt32}
    (h : diskOwnsReg addr = true) (value : UInt16) :
    diskRegState (diskWriteReg irq d drive addr value).1 addr = (diskRegKind addr).store (diskRegState d addr) value := by
  rcases disk_owned h with rfl | rfl | rfl | rfl | rfl | rfl | rfl | rfl
  · rfl
  · rfl
  · rfl
  · exact (pointerHalf_high _ value).trans UInt16.and_neg_one.symm
  · exact (pointerHalf_low _ value).trans UInt16.and_neg_one.symm
  · exact (diskWriteDsklen_dsklen irq d drive value).trans UInt16.and_neg_one.symm
  · exact (congrArg DiskState.dsksync (diskMaybeEmitSync_eq irq _)).trans UInt16.and_neg_one.symm
  · exact congrArg DiskState.adkcon (diskMaybeEmitSync_eq irq _)

/-- A read of DSKBYTR drops its byte-ready bit. -/
theorem diskRegState_read (d : DiskState) {addr : UInt32} (h : diskOwnsReg addr = true) (last : UInt16) :
    (diskRegKind addr).Answers (diskRegState d addr) last (diskReadReg d addr).2 ∧
      diskRegState (diskReadReg d addr).1 addr = diskRegState d addr &&& ~~~(diskRegKind addr).cleared := by
  rcases disk_owned h with rfl | rfl | rfl | rfl | rfl | rfl | rfl | rfl
  · exact ⟨trivial, UInt16.and_neg_one.symm⟩
  · exact ⟨trivial, UInt16.and_neg_one.symm⟩
  · refine ⟨trivial, ?_⟩
    show (d.dskbytrData &&& ~~~0x8000 &&& 0x80FF) ||| (if d.syncSeen then dskbytrWordsync else 0) |||
      (if d.dmaActive then dskbytrDmaon else 0) =
      ((d.dskbytrData &&& 0x80FF) ||| (if d.syncSeen then dskbytrWordsync else 0) |||
        (if d.dmaActive then dskbytrDmaon else 0)) &&& ~~~0x8000
    have hsync : (if d.syncSeen then dskbytrWordsync else 0) &&& ~~~0x8000 = if d.syncSeen then dskbytrWordsync else 0 := by
      split <;> rfl
    have hactive : (if d.dmaActive then dskbytrDmaon else 0) &&& ~~~0x8000 = if d.dmaActive then dskbytrDmaon else 0 := by
      split <;> rfl
    rw [or_and_distrib, or_and_distrib, hsync, hactive, and_swap_right]
  · exact ⟨UInt16.and_neg_one, UInt16.and_neg_one.symm⟩
  · exact ⟨UInt16.and_neg_one, UInt16.and_neg_one.symm⟩
  · exact ⟨UInt16.and_neg_one, UInt16.and_neg_one.symm⟩
  · exact ⟨UInt16.and_neg_one, UInt16.and_neg_one.symm⟩
  · exact ⟨rfl, UInt16.and_neg_one.symm⟩

theorem serial_owned {addr : UInt32} (h : serialOwnsReg addr = true) : addr = 0x018 ∨ addr = 0x030 ∨ addr = 0x032 := by
  simpa [serialOwnsReg, or_assoc] using h

theorem startTxShift_buffer (s : SerialState) : (serialStartTxShift s).1.txBuffer = s.txBuffer := by
  unfold serialStartTxShift serialQueueTxByte
  simp only
  repeat' split
  all_goals rfl

theorem serialRegState_write (s : SerialState) {addr : UInt32} (h : serialOwnsReg addr = true) (value : UInt16) :
    serialRegState (serialWriteReg s addr value).1 addr = (serialRegKind s addr).store (serialRegState s addr) value := by
  rcases serial_owned h with rfl | rfl | rfl
  · rfl
  · show (serialWriteSerdat s value).1.txBuffer =
      (if s.txInstant then RegKind.readOnly 0 else .writeOnly 0xFFFF).store s.txBuffer value
    unfold serialWriteSerdat
    by_cases hinstant : s.txInstant = true
    · rw [if_pos hinstant, if_pos hinstant]
      unfold serialQueueTxByte
      split <;> rfl
    · rw [if_neg hinstant, if_neg hinstant]
      refine Eq.trans ?_ UInt16.and_neg_one.symm
      simp only
      split
      · rw [startTxShift_buffer]
      · rfl
  · exact UInt16.and_neg_one.symm

/-- A read of SERDATR drops the received word, its full bit and its overrun bit. -/
theorem readSerdatr_clearRbf (s : SerialState) : serialReadSerdatr (serialClearRbf s) = serialReadSerdatr s &&& ~~~0xC3FF := by
  have hword : s.rxBuffer &&& 0x03FF &&& ~~~0xC3FF = 0 := by
    rw [UInt16.and_assoc, show (0x03FF : UInt16) &&& ~~~0xC3FF = 0 from rfl, UInt16.and_zero]
  unfold serialReadSerdatr serialClearRbf
  simp only [or_and_distrib, hword]
  cases s.overrun <;> cases s.rxBufferFull <;> cases s.txBufferValid <;> cases s.txShiftBusy <;> cases s.rxdLevel <;> rfl

theorem serialRegState_read (s : SerialState) {addr : UInt32} (h : serialOwnsReg addr = true) (last : UInt16) :
    (serialRegKind s addr).Answers (serialRegState s addr) last (serialReadReg s addr).2 ∧
      serialRegState (serialReadReg s addr).1 addr = serialRegState s addr &&& ~~~(serialRegKind s addr).cleared := by
  rcases serial_owned h with rfl | rfl | rfl
  · exact ⟨trivial, readSerdatr_clearRbf s⟩
  · show (if s.txInstant then RegKind.readOnly 0 else .writeOnly 0xFFFF).Answers s.txBuffer last 0 ∧
      s.txBuffer = s.txBuffer &&& ~~~(if s.txInstant then RegKind.readOnly 0 else .writeOnly 0xFFFF).cleared
    split
    · exact ⟨trivial, UInt16.and_neg_one.symm⟩
    · exact ⟨rfl, UInt16.and_neg_one.symm⟩
  · show 0 = 0 ∧ s.serper = s.serper &&& ~~~0
    exact ⟨rfl, UInt16.and_neg_one.symm⟩

theorem input_owned {addr : UInt32} (h : inputOwnsReg addr = true) :
    addr = 0x00A ∨ addr = 0x00C ∨ addr = 0x012 ∨ addr = 0x014 ∨ addr = 0x016 ∨ addr = 0x034 := by
  simpa [inputOwnsReg, or_assoc] using h

theorem interrupt_owned {addr : UInt32} (h : interruptOwnsReg addr = true) :
    addr = 0x09A ∨ addr = 0x09C ∨ addr = 0x01C ∨ addr = 0x01E := by
  simpa [interruptOwnsReg, or_assoc] using h

theorem ne_potgo {addr : UInt32} (hi : ¬ inputOwnsReg addr = true) : addr ≠ 0x034 := fun e => hi (e ▸ rfl)

theorem paulaReg_audio (p : RigelPaula) {addr : UInt32} (hi : ¬ inputOwnsReg addr = true) {channel : Nat}
    {offset : UInt32} (ha : audioDecodeReg addr = some (channel, offset)) :
    paulaRegState p addr = audioLatch (p.audio.ch channel) offset ∧ paulaRegKind p addr = audioRegKind offset := by
  unfold paulaRegState paulaRegKind
  rw [if_neg (ne_potgo hi), if_neg (ne_potgo hi), if_neg hi, if_neg hi, ha]
  exact ⟨rfl, rfl⟩

theorem paulaReg_disk (p : RigelPaula) {addr : UInt32} (hi : ¬ inputOwnsReg addr = true)
    (ha : audioDecodeReg addr = none) (hd : diskOwnsReg addr = true) :
    paulaRegState p addr = diskRegState p.disk addr ∧ paulaRegKind p addr = diskRegKind addr := by
  unfold paulaRegState paulaRegKind
  rw [if_neg (ne_potgo hi), if_neg (ne_potgo hi), if_neg hi, if_neg hi, ha]
  exact ⟨if_pos hd, if_pos hd⟩

theorem paulaReg_serial (p : RigelPaula) {addr : UInt32} (hi : ¬ inputOwnsReg addr = true)
    (ha : audioDecodeReg addr = none) (hd : ¬ diskOwnsReg addr = true) (hs : serialOwnsReg addr = true) :
    paulaRegState p addr = serialRegState p.serial addr ∧ paulaRegKind p addr = serialRegKind p.serial addr := by
  unfold paulaRegState paulaRegKind
  rw [if_neg (ne_potgo hi), if_neg (ne_potgo hi), if_neg hi, if_neg hi, ha]
  simp only [hd, hs, if_true]
  exact ⟨rfl, rfl⟩

theorem paulaReg_interrupt (p : RigelPaula) {addr : UInt32} (hi : ¬ inputOwnsReg addr = true)
    (ha : audioDecodeReg addr = none) (hd : ¬ diskOwnsReg addr = true) (hs : ¬ serialOwnsReg addr = true) :
    paulaRegState p addr = interruptReadReg p.interrupts addr ∧
      paulaRegKind p addr = if addr = 0x09A ∨ addr = 0x09C then .setClr else .readOnly 0 := by
  unfold paulaRegState paulaRegKind
  rw [if_neg (ne_potgo hi), if_neg (ne_potgo hi), if_neg hi, if_neg hi, ha]
  simp only [hd, hs]
  exact ⟨rfl, rfl⟩

/-- **A write leaves in Paula what its kind says.** -/
theorem paulaRegState_write (ctx : RigelContext) {addr : UInt32} (hv : rigelCustomIsValidReg addr = true)
    (h : paulaOwnsReg addr = true) (value : UInt16) :
    paulaRegState (paulaWriteReg ctx addr value).paula addr =
      (paulaRegKind ctx.paula addr).store (paulaRegState ctx.paula addr) value := by
  by_cases hi : inputOwnsReg addr = true
  · rcases input_owned hi with rfl | rfl | rfl | rfl | rfl | rfl
    · rfl
    · rfl
    · rfl
    · rfl
    · rfl
    · exact UInt16.and_neg_one.symm
  unfold paulaWriteReg
  rw [if_neg hi]
  cases ha : audioDecodeReg addr with
  | some r =>
    obtain ⟨channel, offset⟩ := r
    have ho : audioOwnsReg addr = true := by rw [audioOwnsReg, ha]; rfl
    rw [if_pos ho, (paulaReg_audio _ hi ha).1, (paulaReg_audio _ hi ha).1, (paulaReg_audio _ hi ha).2]
    simp only [rigelContextWriteReg, audioWriteReg, ha, Function.update_self]
    exact audioLatch_write _ (audioOffset_cases hv ha) value
  | none =>
    have ho : ¬ audioOwnsReg addr = true := by rw [audioOwnsReg, ha]; decide
    rw [if_neg ho]
    by_cases hd : diskOwnsReg addr = true
    · rw [if_pos hd, (paulaReg_disk _ hi ha hd).1, (paulaReg_disk _ hi ha hd).1, (paulaReg_disk _ hi ha hd).2]
      simp only [paulaWriteDisk, rigelContextWriteReg, raiseIrqSources_disk]
      exact diskRegState_write _ _ _ hd value
    rw [if_neg hd]
    by_cases hs : serialOwnsReg addr = true
    · rw [if_pos hs, (paulaReg_serial _ hi ha hd hs).1, (paulaReg_serial _ hi ha hd hs).1,
        (paulaReg_serial _ hi ha hd hs).2]
      simp only [paulaWriteSerial, rigelContextWriteReg]
      rw [raiseIrqSources_eq]
      exact serialRegState_write ctx.paula.serial hs value
    have hirq : interruptOwnsReg addr = true := by
      simpa only [paulaOwnsReg, hi, ho, hd, hs, Bool.or_eq_true, Bool.false_eq_true, false_or] using h
    rw [if_neg hs, if_pos hirq, (paulaReg_interrupt _ hi ha hd hs).1, (paulaReg_interrupt _ hi ha hd hs).1,
      (paulaReg_interrupt _ hi ha hd hs).2]
    rcases interrupt_owned hirq with rfl | rfl | rfl | rfl <;> rfl

/-- **A read of Paula answers what its kind says, and drops what its kind says.** -/
theorem paulaRegState_read (ctx : RigelContext) {addr : UInt32} (hv : rigelCustomIsValidReg addr = true)
    (h : paulaOwnsReg addr = true) :
    (paulaRegKind ctx.paula addr).Answers (paulaRegState ctx.paula addr) (ctx.customRegs (addr >>> 1))
        (paulaReadReg ctx addr).2 ∧
      paulaRegState (paulaReadReg ctx addr).1.paula addr =
        paulaRegState ctx.paula addr &&& ~~~(paulaRegKind ctx.paula addr).cleared := by
  unfold paulaReadReg
  by_cases hi : inputOwnsReg addr = true
  · rw [if_pos hi]
    rcases input_owned hi with rfl | rfl | rfl | rfl | rfl | rfl
    · exact ⟨trivial, (RegKind.and_not_cleared rfl _).symm⟩
    · exact ⟨trivial, (RegKind.and_not_cleared rfl _).symm⟩
    · exact ⟨trivial, (RegKind.and_not_cleared rfl _).symm⟩
    · exact ⟨trivial, (RegKind.and_not_cleared rfl _).symm⟩
    · exact ⟨trivial, (RegKind.and_not_cleared rfl _).symm⟩
    · exact ⟨rfl, (RegKind.and_not_cleared rfl _).symm⟩
  rw [if_neg hi]
  cases ha : audioDecodeReg addr with
  | some r =>
    obtain ⟨channel, offset⟩ := r
    have ho : audioOwnsReg addr = true := by rw [audioOwnsReg, ha]; rfl
    rw [if_pos ho, (paulaReg_audio _ hi ha).1, (paulaReg_audio _ hi ha).2, contextReadReg_valid ctx hv]
    rcases audioOffset_cases hv ha with rfl | rfl | rfl | rfl | rfl | rfl <;> exact ⟨rfl, UInt16.and_neg_one.symm⟩
  | none =>
    have ho : ¬ audioOwnsReg addr = true := by rw [audioOwnsReg, ha]; decide
    rw [if_neg ho]
    by_cases hd : diskOwnsReg addr = true
    · rw [if_pos hd, (paulaReg_disk _ hi ha hd).1, (paulaReg_disk _ hi ha hd).1, (paulaReg_disk _ hi ha hd).2]
      exact diskRegState_read ctx.paula.disk hd _
    rw [if_neg hd]
    by_cases hs : serialOwnsReg addr = true
    · rw [if_pos hs, (paulaReg_serial _ hi ha hd hs).1, (paulaReg_serial _ hi ha hd hs).1,
        (paulaReg_serial _ hi ha hd hs).2]
      exact serialRegState_read ctx.paula.serial hs _
    have hirq : interruptOwnsReg addr = true := by
      simpa only [paulaOwnsReg, hi, ho, hd, hs, Bool.or_eq_true, Bool.false_eq_true, false_or] using h
    rw [if_neg hs, if_pos hirq, (paulaReg_interrupt _ hi ha hd hs).1, (paulaReg_interrupt _ hi ha hd hs).2]
    rcases interrupt_owned hirq with rfl | rfl | rfl | rfl
    · exact ⟨rfl, UInt16.and_neg_one.symm⟩
    · exact ⟨rfl, UInt16.and_neg_one.symm⟩
    · exact ⟨trivial, UInt16.and_neg_one.symm⟩
    · exact ⟨trivial, UInt16.and_neg_one.symm⟩

theorem paulaRegKind_read (ctx : RigelContext) (addr : UInt32) :
    paulaRegKind (paulaReadReg ctx addr).1.paula addr = paulaRegKind ctx.paula addr := by
  unfold paulaReadReg serialReadReg
  repeat' split
  all_goals rfl

/-! ## Every register -/

/-- What the owner of a register holds of it. CLXDAT is in the collision latch. -/
def regState (s : MmioState) (addr : UInt32) : UInt16 :=
  if addr = 0x00E then s.clxdat
  else
    match rigelCustomDomainForReg addr with
    | .agnus => agnusRegState s.ctx addr
    | .denise => deniseRegState s.ctx.denise addr
    | .paula => paulaRegState s.ctx.paula addr
    | .unknown => rigelContextReadReg s.ctx addr

/-- A register that no chip owns is storage. -/
def regKind (ctx : RigelContext) (addr : UInt32) : RegKind :=
  match rigelCustomDomainForReg addr with
  | .agnus => agnusRegKind ctx addr
  | .denise => deniseRegKind ctx.denise addr
  | .paula => paulaRegKind ctx.paula addr
  | .unknown => .live 0xFFFF

/-- The last word written to a register, from the register store. -/
def lastWord (s : MmioState) (addr : UInt32) : UInt16 := s.ctx.customRegs (addr >>> 1)

/-- A byte write to `addr` leaves the register's other half as it was. -/
def ByteLaneKept (s : MmioState) (addr value : UInt32) : Prop :=
  regState (rigelMmioWrite s addr 1 value).1 (customReg addr) &&& otherHalf addr =
    regState s (customReg addr) &&& otherHalf addr

instance (s : MmioState) (addr value : UInt32) : Decidable (ByteLaneKept s addr value) := inferInstanceAs (Decidable (_ = _))

/-- The condition on the register, its state and the byte. -/
def ByteLaneSafe (s : MmioState) (addr value : UInt32) : Prop :=
  (regKind s.ctx (customReg addr)).LaneSafe addr (regState s (customReg addr)) (lastWord s (customReg addr)) value

theorem customReg_valid (addr : UInt32) : rigelCustomIsValidReg (customReg addr) = true := by
  have heven : addr &&& 0x1FE &&& 1 = 0 := by
    rw [UInt32.and_assoc, show (0x1FE : UInt32) &&& 1 = 0 from rfl, UInt32.and_zero]
  have hle : addr &&& 0x1FE ≤ 0x1FE := by
    rw [UInt32.le_iff_toNat_le, UInt32.toNat_and]
    exact Nat.and_le_right
  simp only [rigelCustomIsValidReg, customReg, heven, hle, beq_self_eq_true, decide_true, Bool.and_self]

theorem denise_domain {addr : UInt32} (hv : rigelCustomIsValidReg addr = true)
    (h : rigelCustomDomainForReg addr = .denise) : rigelDeniseRegistersOwnsReg addr = true := by
  exact validReg_forall (P := fun addr => rigelCustomDomainForReg addr = .denise → rigelDeniseRegistersOwnsReg addr = true)
    (by decide +kernel) hv h

theorem paula_domain {addr : UInt32} (hv : rigelCustomIsValidReg addr = true)
    (h : rigelCustomDomainForReg addr = .paula) : paulaOwnsReg addr = true := by
  exact validReg_forall (P := fun addr => rigelCustomDomainForReg addr = .paula → paulaOwnsReg addr = true)
    (by decide +kernel) hv h

theorem clxdat_kind (ctx : RigelContext) : regKind ctx 0x00E = .readOnly 0xFFFF := rfl

/-- **A write leaves in the owner what the register's kind says.** -/
theorem regState_write (s : MmioState) {addr : UInt32} (hv : rigelCustomIsValidReg addr = true) (value : UInt16) :
    regState { s with ctx := customRegsWrite16 s.ctx addr value } addr =
      (regKind s.ctx addr).store (regState s addr) value := by
  by_cases hclx : addr = 0x00E
  · subst hclx
    rfl
  have hinvalid : ¬ (!rigelCustomIsValidReg addr) = true := by rw [hv]; decide
  unfold regState regKind customRegsWrite16
  rw [if_neg hclx, if_neg hclx, if_neg hinvalid]
  cases hd : rigelCustomDomainForReg addr with
  | agnus => exact agnusRegState_write s.ctx hv value
  | denise => exact deniseRegState_write s.ctx.denise hv (denise_domain hv hd) value
  | paula => exact paulaRegState_write s.ctx hv (paula_domain hv hd) value
  | unknown =>
    simp only [contextReadReg_valid _ hv]
    exact (customRegsStore_self s.ctx.customRegs hv value).trans UInt16.and_neg_one.symm

theorem agnusRegKind_cleared (ctx : RigelContext) (addr : UInt32) : (agnusRegKind ctx addr).cleared = 0 := by
  unfold agnusRegKind blitterRegKind
  repeat' split
  all_goals rfl

theorem deniseRegKind_cleared (d : RigelDenise) {addr : UInt32} (h : addr ≠ 0x00E) : (deniseRegKind d addr).cleared = 0 := by
  unfold deniseRegKind
  repeat' split
  all_goals first
    | rfl
    | exact absurd rfl h

/-- **A read answers what the register's kind says, drops what its kind says, and changes no other word and no kind.** -/
theorem regState_read (s : MmioState) (addr : UInt32) :
    let reg := customReg addr
    let r := customReadWord s addr
    (regKind s.ctx reg).Answers (regState s reg) (lastWord s reg) r.2 ∧
      regState r.1 reg = regState s reg &&& ~~~(regKind s.ctx reg).cleared ∧ regKind r.1.ctx reg = regKind s.ctx reg := by
  intro reg r
  have hv : rigelCustomIsValidReg reg = true := customReg_valid addr
  by_cases hclx : reg = 0x00E
  · have hr : r = ({ s with clxdat := 0 }, s.clxdat) := if_pos hclx
    rw [hclx, hr, clxdat_kind]
    exact ⟨trivial, UInt16.and_zero.symm, rfl⟩
  have hr : r = ({ s with ctx := (customRegsRead16 s.ctx reg).1 }, (customRegsRead16 s.ctx reg).2) := if_neg hclx
  have hinvalid : ¬ (!rigelCustomIsValidReg reg) = true := by rw [hv]; decide
  rw [hr]
  unfold regState regKind customRegsRead16
  rw [if_neg hclx, if_neg hclx, if_neg hinvalid]
  cases hd : rigelCustomDomainForReg reg with
  | agnus =>
    exact ⟨agnusRegState_read s.ctx hv, (RegKind.and_not_cleared (agnusRegKind_cleared _ _) _).symm, rfl⟩
  | denise =>
    exact ⟨deniseRegState_read s.ctx.denise hv (denise_domain hv hd) _,
      (RegKind.and_not_cleared (deniseRegKind_cleared _ hclx) _).symm, rfl⟩
  | paula =>
    obtain ⟨hanswers, hstate⟩ := paulaRegState_read s.ctx hv (paula_domain hv hd)
    exact ⟨hanswers, hstate, paulaRegKind_read s.ctx reg⟩
  | unknown =>
    simp only [contextReadReg_valid _ hv]
    exact ⟨UInt16.and_neg_one, UInt16.and_neg_one.symm, trivial⟩

theorem agnusRegKind_setClr {ctx : RigelContext} {addr : UInt32} (hk : agnusRegKind ctx addr = .setClr) :
    addr = 0x096 := by
  unfold agnusRegKind blitterRegKind at hk
  repeat' split at hk
  all_goals first
    | assumption
    | cases hk

theorem deniseRegKind_setClr {d : RigelDenise} {addr : UInt32} : deniseRegKind d addr ≠ .setClr := by
  intro hk
  unfold deniseRegKind at hk
  repeat' split at hk
  all_goals cases hk

theorem paulaRegKind_setClr {p : RigelPaula} {addr : UInt32} (hk : paulaRegKind p addr = .setClr) :
    addr = 0x09A ∨ addr = 0x09C := by
  unfold paulaRegKind audioRegKind diskRegKind serialRegKind at hk
  repeat' split at hk
  all_goals first
    | assumption
    | cases hk

/-- A set/clear register of a reachable state holds fifteen bits. -/
theorem setClr_top {s : MmioState} (h : Reachable s.ctx) (addr : UInt32) (hk : regKind s.ctx (customReg addr) = .setClr) :
    regState s (customReg addr) &&& 0x8000 = 0 := by
  have hirq := h.fifteenBits
  unfold regKind at hk
  cases hd : rigelCustomDomainForReg (customReg addr) with
  | agnus =>
    rw [hd] at hk
    rw [agnusRegKind_setClr hk]
    exact dmaconTop_invariant.reachable h
  | denise =>
    rw [hd] at hk
    exact absurd hk deniseRegKind_setClr
  | paula =>
    rw [hd] at hk
    rcases paulaRegKind_setClr hk with ha | ha
    · rw [ha]
      exact hirq.intena
    · rw [ha]
      exact hirq.intreq
  | unknown =>
    rw [hd] at hk
    cases hk

/-- **Byte writes.** Of every register and every reachable state, a byte write keeps the other half exactly when the
register's kind, its state and the byte say so. -/
theorem byteLane_kept_iff (s : MmioState) (h : Reachable s.ctx) (addr : UInt32) (haddr : customAddress addr = true)
    (value : UInt32) : ByteLaneKept s addr value ↔ ByteLaneSafe s addr value := by
  obtain ⟨hanswers, hstate, hkind⟩ := regState_read s addr
  unfold ByteLaneKept ByteLaneSafe
  rw [rigelMmioWrite_byte s haddr, customWriteWord, regState_write _ (customReg_valid addr), hstate, hkind]
  exact RegKind.kept_iff _ addr hanswers (setClr_top h addr) value

theorem byteLane_kept_color :
    Reachable palMachine ∧ customAddress 0x00DFF181 = true ∧ ByteLaneKept ⟨palMachine, 0⟩ 0x00DFF181 0x0F :=
  ⟨palMachine_reachable, by decide,
    (byteLane_kept_iff ⟨palMachine, 0⟩ palMachine_reachable 0x00DFF181 (by decide) 0x0F).mpr trivial⟩

/-- The master enable is on; a byte $08 for the low half of INTENA is the word $4008, which clears it. -/
theorem byteLane_lost_intena :
    Reachable (hostCall palMachine (.customWrite 0x09A 0xC000)) ∧ customAddress 0x00DFF09B = true ∧
      ¬ ByteLaneKept ⟨hostCall palMachine (.customWrite 0x09A 0xC000), 0⟩ 0x00DFF09B 0x08 :=
  ⟨palMachine_reachable.call _, by decide, by decide +kernel⟩

end Rigel
