import Mathlib.Data.Nat.Bitwise

/-!
# Bits — masks of words, and the bytes of longwords

What setting and clearing the bits of one mask does to the bits of another, and which byte a bit of a longword is in.
Nothing here knows what the words are.
-/

namespace Rigel

theorem and_le_right_uint16 (x m : UInt16) : x &&& m ≤ m := by
  rw [UInt16.le_iff_toNat_le, UInt16.toNat_and]
  exact Nat.and_le_right

theorem and_uint16_lt {m : UInt16} {n : Nat} (x : UInt16) (h : m.toNat < n) : (x &&& m).toNat < n := by
  rw [UInt16.toNat_and]
  exact Nat.lt_of_le_of_lt Nat.and_le_right h

theorem or_and_self_uint16 (m c : UInt16) : (m ||| c) &&& m = m := by
  apply UInt16.toBitVec_inj.mp
  ext i hi
  simp only [UInt16.toBitVec_and, UInt16.toBitVec_or, BitVec.getElem_and, BitVec.getElem_or]
  cases m.toBitVec[i] <;> simp

theorem or_and_distrib (x y m : UInt16) : (x ||| y) &&& m = (x &&& m) ||| (y &&& m) := by
  apply UInt16.toNat_inj.mp
  simp only [UInt16.toNat_and, UInt16.toNat_or, Nat.and_or_distrib_right]

theorem uint8_or_and_distrib (x y m : UInt8) : (x ||| y) &&& m = (x &&& m) ||| (y &&& m) := by
  apply UInt8.toNat_inj.mp
  simp only [UInt8.toNat_and, UInt8.toNat_or, Nat.and_or_distrib_right]

theorem and_not_and_of_disjoint (x : UInt16) {w m : UInt16} (h : w &&& m = 0) : (x &&& ~~~w) &&& m = x &&& m := by
  apply UInt16.toBitVec_inj.mp
  ext i hi
  have hb := congrArg (fun b : UInt16 => b.toBitVec[i]) h
  simp only [UInt16.toBitVec_and, UInt16.toBitVec_not, BitVec.getElem_and, BitVec.getElem_not, UInt16.toBitVec_ofNat,
    BitVec.getElem_zero] at hb ⊢
  grind

theorem or_and_ne_zero {x m : UInt16} (y : UInt16) (h : x &&& m ≠ 0) : (x ||| y) &&& m ≠ 0 := by
  intro h0
  apply h
  apply UInt16.toBitVec_inj.mp
  ext i hi
  have hb := congrArg (fun b : UInt16 => b.toBitVec[i]) h0
  simp only [UInt16.toBitVec_and, UInt16.toBitVec_or, BitVec.getElem_and, BitVec.getElem_or, UInt16.toBitVec_ofNat,
    BitVec.getElem_zero] at hb ⊢
  grind

theorem or_and_of_disjoint (x : UInt16) {w m : UInt16} (h : w &&& m = 0) : (x ||| w) &&& m = x &&& m := by
  apply UInt16.toBitVec_inj.mp
  ext i hi
  have hb := congrArg (fun b : UInt16 => b.toBitVec[i]) h
  simp only [UInt16.toBitVec_and, UInt16.toBitVec_or, BitVec.getElem_and, BitVec.getElem_or, UInt16.toBitVec_ofNat,
    BitVec.getElem_zero] at hb ⊢
  grind

theorem and_or_and_not (x m : UInt16) : (x &&& m) ||| (x &&& ~~~m) = x := by
  rw [UInt16.and_comm x m, UInt16.and_comm x (~~~m), ← or_and_distrib, UInt16.or_not_self, UInt16.and_comm,
    UInt16.and_neg_one]

theorem and_low_of_top {x : UInt16} (h : x &&& 0x8000 = 0) : x &&& 0x7FFF = x := by
  have hsplit := and_or_and_not x 0x7FFF
  rw [show ~~~(0x7FFF : UInt16) = 0x8000 from rfl, h, UInt16.or_zero] at hsplit
  exact hsplit

theorem and_not_and (x w m : UInt16) : (x &&& ~~~w) &&& m = (x &&& m) &&& ~~~(w &&& m) := by
  apply UInt16.toBitVec_inj.mp
  ext i hi
  simp
  grind

theorem and_swap_right (x y m : UInt16) : x &&& y &&& m = x &&& m &&& y := by
  rw [UInt16.and_assoc, UInt16.and_comm y, ← UInt16.and_assoc]

theorem and_not_eq_self_iff (x c : UInt16) : x &&& ~~~c = x ↔ x &&& c = 0 := by
  constructor
  · intro h
    rw [← h, UInt16.and_assoc, UInt16.not_and_self, UInt16.and_zero]
  · intro h
    have hsplit := and_or_and_not x c
    rwa [h, UInt16.zero_or] at hsplit

theorem or_eq_right_iff (x y : UInt16) : x ||| y = y ↔ x &&& ~~~y = 0 := by
  constructor
  · intro h
    rw [← h]
    apply UInt16.toBitVec_inj.mp
    ext i hi
    simp
    grind
  · intro h
    have hsplit := and_or_and_not x y
    rw [h, UInt16.or_zero] at hsplit
    rw [← hsplit]
    apply UInt16.toBitVec_inj.mp
    ext i hi
    simp

theorem and_foldr_or_ne_zero {x : UInt16} : ∀ {ms : List UInt16}, x &&& ms.foldr (· ||| ·) 0 ≠ 0 → ∃ m ∈ ms, x &&& m ≠ 0
  | [], h => absurd (by simp) h
  | m :: ms, h => by
    rw [List.foldr_cons, UInt16.and_comm, or_and_distrib, UInt16.and_comm m, UInt16.and_comm _ x] at h
    by_cases hm : x &&& m = 0
    · rw [hm, UInt16.zero_or] at h
      obtain ⟨m', hmem, hm'⟩ := and_foldr_or_ne_zero h
      exact ⟨m', List.mem_cons_of_mem _ hmem, hm'⟩
    · exact ⟨m, List.mem_cons_self, hm⟩

/-! ## Longwords and their bytes -/

theorem uint32_ext {x y : UInt32} (h : ∀ i, (hi : i < 32) → x.toBitVec[i] = y.toBitVec[i]) : x = y :=
  UInt32.toBitVec_inj.mp (BitVec.eq_of_getElem_eq h)

theorem shiftLeft_one_bit (x : UInt32) (i : Nat) (hi : i < 32) :
    (x <<< 1).toBitVec[i] = if h : 0 < i then x.toBitVec[i - 1] else false := by
  simp only [UInt32.toBitVec_shiftLeft, show UInt32.toBitVec 1 % 32 = 1#32 from rfl, BitVec.shiftLeft_eq']
  rw [BitVec.getElem_shiftLeft]
  by_cases h : 0 < i
  · simp [h, show ¬ i < 1 by omega]
  · simp [show i = 0 by omega]

theorem shiftRight_one_bit (x : UInt32) (i : Nat) (hi : i < 32) :
    (x >>> 1).toBitVec[i] = if h : i + 1 < 32 then x.toBitVec[i + 1] else false := by
  simp only [UInt32.toBitVec_shiftRight, show UInt32.toBitVec 1 % 32 = 1#32 from rfl, BitVec.ushiftRight_eq']
  rw [BitVec.getElem_ushiftRight]
  by_cases h : i + 1 < 32
  · simp [h, Nat.add_comm 1]
  · simp [h, Nat.add_comm 1, BitVec.getLsbD_of_ge _ _ (Nat.not_lt.mp h)]

theorem uint32_testBit_ge (x : UInt32) {i : Nat} (h : 32 ≤ i) : x.toNat.testBit i = false :=
  Nat.testBit_eq_false_of_lt (lt_of_lt_of_le x.toNat_lt (Nat.pow_le_pow_right (by decide) h))

theorem uint8_testBit_ge (x : UInt8) {i : Nat} (h : 8 ≤ i) : x.toNat.testBit i = false :=
  Nat.testBit_eq_false_of_lt (lt_of_lt_of_le x.toNat_lt (Nat.pow_le_pow_right (by decide) h))

/-- The bits of a longword are those of its bytes. -/
theorem bytes_testBit (b0 b1 b2 b3 : UInt8) (i : Nat) :
    ((b0.toUInt32 <<< 24) ||| (b1.toUInt32 <<< 16) ||| (b2.toUInt32 <<< 8) ||| b3.toUInt32).toNat.testBit i =
      if i < 8 then b3.toNat.testBit i else if i < 16 then b2.toNat.testBit (i - 8)
      else if i < 24 then b1.toNat.testBit (i - 16) else if i < 32 then b0.toNat.testBit (i - 24) else false := by
  simp only [UInt32.toNat_or, UInt32.toNat_shiftLeft, UInt8.toNat_toUInt32, Nat.testBit_lor, Nat.testBit_mod_two_pow,
    Nat.testBit_shiftLeft, UInt32.reduceToNat, Nat.reduceMod]
  by_cases h8 : i < 8
  · simp [h8, show ¬ 24 ≤ i by omega, show ¬ 16 ≤ i by omega, show ¬ 8 ≤ i by omega]
  rw [uint8_testBit_ge b3 (by omega)]
  by_cases h16 : i < 16
  · simp [h8, h16, show ¬ 24 ≤ i by omega, show ¬ 16 ≤ i by omega, show 8 ≤ i by omega, show i < 32 by omega]
  rw [uint8_testBit_ge b2 (by omega)]
  by_cases h24 : i < 24
  · simp [h8, h16, h24, show ¬ 24 ≤ i by omega, show 16 ≤ i by omega, show i < 32 by omega]
  rw [uint8_testBit_ge b1 (by omega)]
  by_cases h32 : i < 32
  · simp [h8, h16, h24, h32, show 24 ≤ i by omega]
  · simp [h8, h16, h24, h32]

theorem toUInt8_of_bits {y : UInt32} {b : UInt8} (h : ∀ j < 8, y.toNat.testBit j = b.toNat.testBit j) : y.toUInt8 = b := by
  apply UInt8.toNat_inj.mp
  apply Nat.eq_of_testBit_eq
  intro j
  rw [UInt32.toNat_toUInt8, Nat.testBit_mod_two_pow]
  by_cases hj : j < 8
  · simp [hj, h j hj]
  · simp [hj, uint8_testBit_ge b (Nat.not_lt.mp hj)]

/-- The bytes of a longword are read back. -/
theorem be32_read (v : UInt32) :
    ((v >>> 24).toUInt8.toUInt32 <<< 24) ||| ((v >>> 16).toUInt8.toUInt32 <<< 16) |||
      ((v >>> 8).toUInt8.toUInt32 <<< 8) ||| v.toUInt8.toUInt32 = v := by
  apply UInt32.toNat_inj.mp
  apply Nat.eq_of_testBit_eq
  intro i
  rw [bytes_testBit]
  simp only [UInt32.toNat_toUInt8, UInt32.toNat_shiftRight, Nat.testBit_mod_two_pow, Nat.testBit_shiftRight,
    UInt32.reduceToNat, Nat.reduceMod]
  repeat' split
  · simp; omega
  · simp [show 8 + (i - 8) = i by omega]; omega
  · simp [show 16 + (i - 16) = i by omega]; omega
  · simp [show 24 + (i - 24) = i by omega]; omega
  · rw [uint32_testBit_ge v (by omega)]

/-! ## Words bit by bit -/

theorem uint8_ext {x y : UInt8} (h : ∀ i < 8, x.toNat.testBit i = y.toNat.testBit i) : x = y := by
  refine UInt8.toNat_inj.mp (Nat.eq_of_testBit_eq fun i => ?_)
  by_cases hi : i < 8
  · exact h i hi
  · rw [uint8_testBit_ge x (Nat.not_lt.mp hi), uint8_testBit_ge y (Nat.not_lt.mp hi)]

theorem uint16_testBit_ge (x : UInt16) {i : Nat} (h : 16 ≤ i) : x.toNat.testBit i = false :=
  Nat.testBit_lt_two_pow (Nat.lt_of_lt_of_le x.toNat_lt (Nat.pow_le_pow_right (by decide) h))

theorem uint16_ext {x y : UInt16} (h : ∀ i < 16, x.toNat.testBit i = y.toNat.testBit i) : x = y := by
  refine UInt16.toNat_inj.1 (Nat.eq_of_testBit_eq fun i => ?_)
  by_cases hi : i < 16
  · exact h i hi
  · rw [uint16_testBit_ge x (Nat.le_of_not_lt hi), uint16_testBit_ge y (Nat.le_of_not_lt hi)]

theorem uint16_testBit_ite (p : Prop) [Decidable p] (x : UInt16) (i : Nat) :
    (if p then x else 0).toNat.testBit i = (decide p && x.toNat.testBit i) := by
  split
  · simp [*]
  · simp [*]

theorem uint16_testBit_not (x : UInt16) {i : Nat} (hi : i < 16) : (~~~x).toNat.testBit i = !x.toNat.testBit i := by
  rw [← UInt16.toNat_toBitVec, ← UInt16.toNat_toBitVec, UInt16.toBitVec_not, BitVec.testBit_toNat,
    BitVec.testBit_toNat, BitVec.getLsbD_not]
  simp [hi]

theorem uint16_testBit_shiftLeft (x : UInt16) {s : UInt16} {k : Nat} (hs : s.toNat = k) (hk : k < 16) {i : Nat}
    (hi : i < 16) : (x <<< s).toNat.testBit i = (decide (k ≤ i) && x.toNat.testBit (i - k)) := by
  rw [UInt16.toNat_shiftLeft, hs, Nat.mod_eq_of_lt hk, Nat.testBit_mod_two_pow, Nat.testBit_shiftLeft]
  simp [hi]

theorem uint16_testBit_shiftRight (x : UInt16) {s : UInt16} {k : Nat} (hs : s.toNat = k) (hk : k < 16) (i : Nat) :
    (x >>> s).toNat.testBit i = x.toNat.testBit (k + i) := by
  rw [UInt16.toNat_shiftRight, hs, Nat.mod_eq_of_lt hk, Nat.testBit_shiftRight]

theorem uint16_ofNat_toNat {i : Nat} (hi : i < 16) : (UInt16.ofNat i).toNat = i := by
  rw [UInt16.toNat_ofNat']
  exact Nat.mod_eq_of_lt (by omega)

theorem uint16_shiftedBit (d : UInt16) {i : Nat} (hi : i < 16) :
    (d >>> UInt16.ofNat i) &&& 1 = if d.toNat.testBit i then 1 else 0 := by
  have hnat : ((d >>> UInt16.ofNat i) &&& 1).toNat = (d.toNat.testBit i).toNat := by
    rw [UInt16.toNat_and, UInt16.toNat_shiftRight, uint16_ofNat_toNat hi, Nat.mod_eq_of_lt hi, UInt16.toNat_one,
      Nat.and_one_is_mod, Nat.toNat_testBit, Nat.shiftRight_eq_div_pow]
  rw [← UInt16.toNat_inj, hnat]
  cases d.toNat.testBit i <;> rfl

theorem uint16_bit_ne_zero (d : UInt16) {i : Nat} (hi : i < 16) :
    ((d >>> UInt16.ofNat i) &&& 1 != 0) = d.toNat.testBit i := by
  rw [uint16_shiftedBit d hi]
  cases d.toNat.testBit i <;> rfl

theorem uint16_testBit_window (high low : UInt16) (k : Nat) {i : Nat} (hi : i < 16) :
    (UInt16.ofNat ((2 ^ 16 * high.toNat + low.toNat) / 2 ^ k)).toNat.testBit i =
      if k + i < 16 then low.toNat.testBit (k + i) else high.toNat.testBit (k + i - 16) := by
  rw [UInt16.toNat_ofNat', Nat.testBit_mod_two_pow, Nat.testBit_div_two_pow, Nat.testBit_two_pow_mul_add _ low.toNat_lt]
  simp [hi, Nat.add_comm]

/-- A one-bit mask reads the bit. -/
theorem uint8_and_bit (m : UInt8) {k : Nat} (hk : k < 8) :
    decide (m &&& UInt8.ofNat (2 ^ k) ≠ 0) = m.toNat.testBit k := by
  have h : (UInt8.ofNat (2 ^ k)).toNat = 2 ^ k := by
    rw [UInt8.toNat_ofNat']
    exact Nat.mod_eq_of_lt (Nat.pow_lt_pow_right (by decide) hk)
  have hand : (m &&& UInt8.ofNat (2 ^ k)).toNat = (m.toNat.testBit k).toNat * 2 ^ k := by
    rw [UInt8.toNat_and, h, Nat.and_two_pow]
  have hne : m &&& UInt8.ofNat (2 ^ k) ≠ 0 ↔ m.toNat.testBit k = true := by
    rw [ne_eq, ← UInt8.toNat_inj, hand]
    cases m.toNat.testBit k <;> simp
  rw [Bool.eq_iff_iff, decide_eq_true_iff, hne]

theorem uint8_forall {P : UInt8 → Prop} (h : ∀ n < 256, P (UInt8.ofNat n)) (x : UInt8) : P x := by
  have hx := h x.toNat x.toNat_lt
  rwa [UInt8.ofNat_toNat] at hx

theorem uint8_xor_and_not (x m : UInt8) : (x ^^^ m) &&& ~~~m = x &&& ~~~m := by
  apply UInt8.toBitVec_inj.mp
  ext i
  simp only [UInt8.toBitVec_and, UInt8.toBitVec_xor, UInt8.toBitVec_not, BitVec.getElem_and, BitVec.getElem_xor,
    BitVec.getElem_not]
  cases m.toBitVec[i] <;> simp

theorem uint8_or_and_not (x m : UInt8) : (x ||| m) &&& ~~~m = x &&& ~~~m := by
  apply UInt8.toBitVec_inj.mp
  ext i
  simp only [UInt8.toBitVec_and, UInt8.toBitVec_or, UInt8.toBitVec_not, BitVec.getElem_and, BitVec.getElem_or,
    BitVec.getElem_not]
  cases m.toBitVec[i] <;> simp

theorem uint8_and_not_and_not (x m : UInt8) : x &&& ~~~m &&& ~~~m = x &&& ~~~m := by
  rw [UInt8.and_assoc, UInt8.and_self]

theorem uint32_or_and_distrib (x y m : UInt32) : (x ||| y) &&& m = (x &&& m) ||| (y &&& m) := by
  apply UInt32.toNat_inj.mp
  simp only [UInt32.toNat_and, UInt32.toNat_or, Nat.and_or_distrib_right]

theorem and_not_one {q : UInt32} (h : q.toNat.testBit 0 = false) : q &&& ~~~1 = q := by
  refine uint32_ext fun i hi => ?_
  have hbit : (~~~(1 : UInt32)).toBitVec[i] = decide (0 < i) := by
    revert i
    decide
  rw [UInt32.toBitVec_and, BitVec.getElem_and, hbit]
  cases i with
  | zero =>
    have hq : q.toBitVec[0] = false := h
    rw [hq]
    rfl
  | succ i => simp

end Rigel
