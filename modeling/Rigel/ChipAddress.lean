import Mathlib.Data.ZMod.Basic
import Rigel.BlitterRef

/-!
# ChipAddress — pointers modulo the chip range

The blitter's pointers are `u32`s that the source masks to 21 bits only where it reads or writes; in between they
run with a signed modulo added as a `u32`. Two pointers name the same chip address when they agree modulo 2^21, and
modulo 2^21 the pointer arithmetic of the source is plain arithmetic.
-/

namespace Rigel

/-- The chip address that a pointer names. -/
def chipAddr (p : UInt32) : ZMod (2 ^ 21) := (p.toNat : ZMod (2 ^ 21))

theorem chipAddr_eq_iff (p q : UInt32) : chipAddr p = chipAddr q ↔ p.toNat % 2 ^ 21 = q.toNat % 2 ^ 21 :=
  ZMod.natCast_eq_natCast_iff' _ _ _

theorem cast_mod_two_pow (n : Nat) : ((n % 2 ^ 32 : Nat) : ZMod (2 ^ 21)) = (n : ZMod (2 ^ 21)) :=
  (ZMod.natCast_eq_natCast_iff' _ _ _).2 (Nat.mod_mod_of_dvd n (Nat.pow_dvd_pow 2 (by decide)))

theorem chipAddr_add (p q : UInt32) : chipAddr (p + q) = chipAddr p + chipAddr q := by
  unfold chipAddr
  rw [UInt32.toNat_add, cast_mod_two_pow, Nat.cast_add]

theorem chipAddr_sub (p q : UInt32) : chipAddr (p - q) = chipAddr p - chipAddr q := by
  have h := chipAddr_add (p - q) q
  rw [UInt32.sub_add_cancel] at h
  rw [h, add_sub_cancel_right]

theorem chipAddr_mul (p q : UInt32) : chipAddr (p * q) = chipAddr p * chipAddr q := by
  unfold chipAddr
  rw [UInt32.toNat_mul, cast_mod_two_pow, Nat.cast_mul]

theorem chipAddr_ofNat (n : Nat) : chipAddr (UInt32.ofNat n) = (n : ZMod (2 ^ 21)) := by
  unfold chipAddr
  rw [UInt32.toNat_ofNat']
  exact cast_mod_two_pow n

theorem chipAddr_two : chipAddr 2 = 2 := chipAddr_ofNat 2

theorem toInt_modOffset (m : Int16) : (modOffset m).toBitVec.toInt = m.toInt := by
  unfold modOffset
  rw [Int32.toBitVec_toUInt32, Int16.toBitVec_toInt32, BitVec.toInt_signExtend_of_le (by decide)]
  rfl

/-- The `u32` that a signed modulo becomes is that modulo. -/
theorem chipAddr_modOffset (m : Int16) : chipAddr (modOffset m) = (m.toInt : ZMod (2 ^ 21)) := by
  have h : (modOffset m).toNat % 4294967296 = (modOffset m).toNat := Nat.mod_eq_of_lt (modOffset m).toNat_lt
  have hm := toInt_modOffset m
  rw [BitVec.toInt_eq_toNat_bmod, Int.bmod_def, UInt32.toNat_toBitVec] at hm
  unfold chipAddr
  rw [← Int.cast_natCast, ZMod.intCast_eq_intCast_iff']
  omega

/-! ## Even pointers under the mask -/

theorem even_mask (p : UInt32) : (p &&& blitterChipAddrMask).toNat % 2 = 0 := by
  have h : (p &&& blitterChipAddrMask) &&& 1 = 0 := by
    rw [UInt32.and_assoc, show blitterChipAddrMask &&& 1 = 0 from by decide, UInt32.and_zero]
  rw [← Nat.and_one_is_mod, ← UInt32.toNat_one, ← UInt32.toNat_and, h]
  rfl

theorem chipAddr_mask {p : UInt32} (h : p.toNat % 2 = 0) : chipAddr (p &&& blitterChipAddrMask) = chipAddr p := by
  have hmask : p.toNat &&& 0x1FFFFE = p.toNat % 2 ^ 21 := by
    rw [← Nat.and_two_pow_sub_one_eq_mod, show 2 ^ 21 - 1 = 0x1FFFFE ||| 1 from by decide, Nat.and_or_distrib_left,
      Nat.and_one_is_mod, h, Nat.or_zero]
  rw [chipAddr_eq_iff, UInt32.toNat_and]
  exact (congrArg (· % 2 ^ 21) hmask).trans (Nat.mod_mod p.toNat (2 ^ 21))

theorem even_add {p q : UInt32} (hp : p.toNat % 2 = 0) (hq : q.toNat % 2 = 0) : (p + q).toNat % 2 = 0 := by
  rw [UInt32.toNat_add]
  omega

theorem even_sub {p q : UInt32} (hp : p.toNat % 2 = 0) (hq : q.toNat % 2 = 0) : (p - q).toNat % 2 = 0 := by
  have hp' := p.toNat_lt
  have hq' := q.toNat_lt
  rw [UInt32.toNat_sub]
  omega

theorem even_modOffset {m : Int16} (h : m.toInt % 2 = 0) : (modOffset m).toNat % 2 = 0 := by
  have hlt := (modOffset m).toNat_lt
  have hm := toInt_modOffset m
  rw [BitVec.toInt_eq_toNat_bmod, Int.bmod_def, UInt32.toNat_toBitVec] at hm
  omega

end Rigel
