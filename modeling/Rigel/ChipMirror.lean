import Rigel.Bits
import Rigel.ChipRam

/-!
# ChipMirror — the mirrors of chip memory

An access is meant to wrap modulo the visible size. The fold masks with that size less one, which is the same exactly for
powers of two: any other size leaves part of the memory out of reach and folds two of its addresses together.
-/

namespace Rigel

/-- The address with bit 0 cleared, modulo the visible size. -/
def mirrorAddr (m : ChipRam) (addr : UInt32) : UInt32 := (addr &&& ~~~1) % chipRamVisibleSize m

/-- **Chip memory is mirrored**: whatever the host's memory holds, a read and a write go to the address modulo the size, and
the even addresses below the size reach themselves, no two of them the same word. -/
structure ChipRamMirrored (m : ChipRam) : Prop where
  read : ∀ words addr, chipRamRead16 { m with hasRead16 := true, words := words } addr = words (mirrorAddr m addr)
  write : ∀ words addr value, (chipRamWrite16 { m with hasWrite16 := true, words := words } addr value).words =
    Function.update words (mirrorAddr m addr) value
  self : ∀ addr, addr &&& 1 = 0 → addr < chipRamVisibleSize m → chipRamMapAddr m addr = addr
  apart : ∀ addr addr', addr &&& 1 = 0 → addr' &&& 1 = 0 → addr < chipRamVisibleSize m → addr' < chipRamVisibleSize m →
    chipRamMapAddr m addr = chipRamMapAddr m addr' → addr = addr'

/-- The host's size where it is below the model's limit, and the limit otherwise. -/
theorem chipRamVisibleSize_bounds (m : ChipRam) :
    0 < (chipRamVisibleSize m).toNat ∧ (chipRamVisibleSize m).toNat ≤ 0x100000 := by
  have hclamp : ∀ limit : UInt32, 0 < limit.toNat → limit.toNat ≤ 0x100000 →
      0 < (if m.chipRamSize ≠ 0 ∧ m.chipRamSize < limit then m.chipRamSize else limit).toNat ∧
        (if m.chipRamSize ≠ 0 ∧ m.chipRamSize < limit then m.chipRamSize else limit).toNat ≤ 0x100000 := by
    intro limit hpos hle
    split
    · rename_i h
      have hlt := UInt32.lt_iff_toNat_lt.mp h.2
      exact ⟨Nat.pos_of_ne_zero fun hz => h.1 (UInt32.toNat_inj.mp hz), by omega⟩
    · exact ⟨hpos, hle⟩
  unfold chipRamVisibleSize
  cases m.chipsetModel with
  | ecs => exact hclamp 0x00100000 (by decide) (by decide)
  | ocs => exact hclamp 0x00080000 (by decide) (by decide)

theorem chipRamVisibleSize_pos (m : ChipRam) : 0 < chipRamVisibleSize m := by
  rw [UInt32.lt_iff_toNat_lt]
  exact (chipRamVisibleSize_bounds m).1

theorem chipRamMapAddr_eq (m : ChipRam) (addr : UInt32) :
    chipRamMapAddr m addr = (addr &&& ~~~1) &&& (chipRamVisibleSize m - 1) :=
  if_pos (chipRamVisibleSize_pos m)

theorem even_aligned {addr : UInt32} (h : addr &&& 1 = 0) : addr &&& ~~~1 = addr := by
  refine and_not_one ?_
  have hnat := congrArg UInt32.toNat h
  rw [UInt32.toNat_and, UInt32.toNat_one, Nat.and_one_is_mod] at hnat
  rw [Nat.testBit_zero, hnat]
  rfl

/-- The mask is the remainder for powers of two, and for no other size. -/
theorem chipRamMapAddr_mirror_iff (m : ChipRam) :
    (∀ addr, chipRamMapAddr m addr = mirrorAddr m addr) ↔ (chipRamVisibleSize m).toNat.isPowerOfTwo := by
  obtain ⟨hpos, hle⟩ := chipRamVisibleSize_bounds m
  have hone : (chipRamVisibleSize m - 1).toNat = (chipRamVisibleSize m).toNat - 1 := by
    rw [UInt32.toNat_sub_of_le _ _ (by rw [UInt32.le_iff_toNat_le]; exact hpos)]
    rfl
  constructor
  · intro h
    rw [← Nat.and_sub_one_eq_zero_iff_isPowerOfTwo (Nat.ne_of_gt hpos)]
    by_cases heven : (chipRamVisibleSize m).toNat % 2 = 0
    · -- an even size is an address that wraps to zero
      have halign : chipRamVisibleSize m &&& ~~~1 = chipRamVisibleSize m := by
        refine and_not_one ?_
        rw [Nat.testBit_zero, heven]
        rfl
      have hself := congrArg UInt32.toNat (h (chipRamVisibleSize m))
      rw [chipRamMapAddr_eq, mirrorAddr, halign, UInt32.toNat_and, UInt32.toNat_mod, hone, Nat.mod_self] at hself
      exact hself
    · -- the address after an odd size wraps to one, unless the size is one
      by_cases hsize : (chipRamVisibleSize m).toNat = 1
      · rw [hsize]
        rfl
      have hnext : (chipRamVisibleSize m + 1).toNat = (chipRamVisibleSize m).toNat + 1 := by
        rw [UInt32.toNat_add, UInt32.toNat_one]
        exact Nat.mod_eq_of_lt (by omega)
      have halign : (chipRamVisibleSize m + 1) &&& ~~~1 = chipRamVisibleSize m + 1 := by
        refine and_not_one ?_
        rw [hnext, Nat.testBit_zero, show ((chipRamVisibleSize m).toNat + 1) % 2 = 0 by omega]
        rfl
      have hwrap := congrArg UInt32.toNat (h (chipRamVisibleSize m + 1))
      rw [chipRamMapAddr_eq, mirrorAddr, halign, UInt32.toNat_and, UInt32.toNat_mod, hone, hnext, Nat.add_mod_left,
        Nat.mod_eq_of_lt (by omega)] at hwrap
      have hbit : ((chipRamVisibleSize m).toNat + 1 &&& ((chipRamVisibleSize m).toNat - 1)).testBit 0 = true := by
        rw [hwrap]
        rfl
      rw [Nat.testBit_and, Nat.testBit_zero, show ((chipRamVisibleSize m).toNat + 1) % 2 = 0 by omega] at hbit
      exact Bool.noConfusion hbit
  · rintro ⟨k, hk⟩ addr
    apply UInt32.toNat_inj.mp
    rw [chipRamMapAddr_eq, mirrorAddr, UInt32.toNat_and, UInt32.toNat_mod, hone, hk, Nat.and_two_pow_sub_one_eq_mod]

/-- **When chip memory is mirrored**: exactly when its visible size is a power of two. -/
theorem chipRamMirrored_iff (m : ChipRam) : ChipRamMirrored m ↔ (chipRamVisibleSize m).toNat.isPowerOfTwo := by
  rw [← chipRamMapAddr_mirror_iff]
  constructor
  · intro h addr
    -- a host whose word at the mirrored address differs from all others
    have hread := h.read (fun a => if a = mirrorAddr m addr then 1 else 0) addr
    rw [if_pos rfl] at hread
    by_cases heq : chipRamMapAddr m addr = mirrorAddr m addr
    · exact heq
    · exact absurd (hread.symm.trans (if_neg heq)) (by decide)
  · intro h
    have hself : ∀ addr, addr &&& 1 = 0 → addr < chipRamVisibleSize m → chipRamMapAddr m addr = addr := by
      intro addr heven hlt
      rw [h addr, mirrorAddr, even_aligned heven]
      apply UInt32.toNat_inj.mp
      rw [UInt32.toNat_mod, Nat.mod_eq_of_lt (UInt32.lt_iff_toNat_lt.mp hlt)]
    refine ⟨fun words addr => ?_, fun words addr value => ?_, hself, fun addr addr' he he' hl hl' heq => ?_⟩
    · exact congrArg words (h addr)
    · exact congrArg (Function.update words · value) (h addr)
    · rw [← hself addr he hl, heq, hself addr' he' hl']

/-- A machine with three quarters of an OCS chip memory. -/
def oddChipRam : ChipRam := ⟨.ocs, 0x60000, true, true, fun _ => 0⟩

theorem chipRamMirrored_odd : ¬ ChipRamMirrored oddChipRam :=
  fun h => absurd (h.self 0x20000 rfl (by decide)) (by decide)

end Rigel
