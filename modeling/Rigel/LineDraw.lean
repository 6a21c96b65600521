import Rigel.Bresenham
import Rigel.CopyTransfer
import Rigel.SingleDot

/-!
# LineDraw — a line blit draws the Bresenham line

With the standard set-up of the registers the blitter's error accumulator is the error term of `Bresenham`, exactly,
so the sign bit steps the minor axis where the digital line does. The pixel itself is a pointer and a shift: a step in
x moves the shift and carries into the pointer at a word boundary, a step in y adds the modulo (`LinePoint`). The
octant says which of the two axes is which, and in which direction.
-/

namespace Rigel

/-! ## Where a pixel is -/

/-- `s` is at offset `(X, Y)` from the start pixel: the word address modulo the chip range, and the bit in the word. -/
structure LinePoint (cmd : BlitCommand) (X Y : Int) (s : BlitterLineState) : Prop where
  word : chipAddr s.cpt = chipAddr cmd.cpt + ((Y * cmd.cmod.toInt + 2 * ((cmd.lineStartBit.toNat + X) / 16) : Int) : ZMod (2 ^ 21))
  shift : (s.xShift.toNat : Int) = (cmd.lineStartBit.toNat + X) % 16
  even : s.cpt.toNat % 2 = 0

section
variable {cmd : BlitCommand} {X Y : Int} {s : BlitterLineState}

theorem chipAddr_incr {p : UInt32} (h : p.toNat % 2 = 0) :
    chipAddr ((p + 2) &&& blitterChipAddrMask) = chipAddr p + 2 := by
  rw [chipAddr_mask (even_add h rfl), chipAddr_add, chipAddr_two]

theorem chipAddr_decr {p : UInt32} (h : p.toNat % 2 = 0) :
    chipAddr ((p - 2) &&& blitterChipAddrMask) = chipAddr p - 2 := by
  rw [chipAddr_mask (even_sub h rfl), chipAddr_sub, chipAddr_two]

theorem LinePoint.incx (h : LinePoint cmd X Y s) : LinePoint cmd (X + 1) Y (lineIncx s) := by
  have hshift := h.shift
  have hnext : s.xShift + 1 = 16 ↔ s.xShift.toNat = 15 := by
    rw [← UInt8.toNat_inj, UInt8.toNat_add]
    simp only [UInt8.reduceToNat]
    omega
  unfold lineIncx
  split
  · rename_i hwrap
    have h15 := hnext.1 hwrap
    have hword : (cmd.lineStartBit.toNat + (X + 1)) / 16 = (cmd.lineStartBit.toNat + X) / 16 + 1 := by omega
    refine ⟨?_, ?_, even_mask _⟩
    · rw [chipAddr_incr h.even, h.word, hword]
      push_cast
      ring
    · simp only [UInt8.toNat_zero, Nat.cast_zero]
      omega
  · rename_i hwrap
    have h15 : s.xShift.toNat ≠ 15 := fun h15 => hwrap (hnext.2 h15)
    have hadd : (s.xShift + 1).toNat = s.xShift.toNat + 1 := by
      rw [UInt8.toNat_add]
      simp only [UInt8.reduceToNat]
      omega
    have hword : (cmd.lineStartBit.toNat + (X + 1)) / 16 = (cmd.lineStartBit.toNat + X) / 16 := by omega
    refine ⟨?_, ?_, h.even⟩
    · rw [hword]
      exact h.word
    · dsimp only
      rw [hadd]
      omega

theorem LinePoint.decx (h : LinePoint cmd X Y s) : LinePoint cmd (X - 1) Y (lineDecx s) := by
  have hshift := h.shift
  have hzero : s.xShift = 0 ↔ s.xShift.toNat = 0 := UInt8.toNat_inj.symm
  unfold lineDecx
  split
  · rename_i hwrap
    have h0 := hzero.1 hwrap
    have hword : (cmd.lineStartBit.toNat + (X - 1)) / 16 = (cmd.lineStartBit.toNat + X) / 16 - 1 := by omega
    refine ⟨?_, ?_, even_mask _⟩
    · rw [chipAddr_decr h.even, h.word, hword]
      push_cast
      ring
    · simp only [UInt8.reduceToNat]
      omega
  · rename_i hwrap
    have h0 : s.xShift.toNat ≠ 0 := fun h0 => hwrap (hzero.2 h0)
    have hsub : (s.xShift - 1).toNat = s.xShift.toNat - 1 :=
      UInt8.toNat_sub_of_le _ _ (UInt8.le_iff_toNat_le.2 (by simp only [UInt8.reduceToNat]; omega))
    have hword : (cmd.lineStartBit.toNat + (X - 1)) / 16 = (cmd.lineStartBit.toNat + X) / 16 := by omega
    refine ⟨?_, ?_, h.even⟩
    · rw [hword]
      exact h.word
    · dsimp only
      rw [hsub]
      omega

theorem LinePoint.incy (hm : cmd.cmod.toInt % 2 = 0) (h : LinePoint cmd X Y s) :
    LinePoint cmd X (Y + 1) (lineIncy s cmd.cmod) := by
  refine ⟨?_, h.shift, even_mask _⟩
  unfold lineIncy
  rw [chipAddr_mask (even_add h.even (even_modOffset hm)), chipAddr_add, h.word, chipAddr_modOffset]
  push_cast
  ring

theorem LinePoint.decy (hm : cmd.cmod.toInt % 2 = 0) (h : LinePoint cmd X Y s) :
    LinePoint cmd X (Y - 1) (lineDecy s cmd.cmod) := by
  refine ⟨?_, h.shift, even_mask _⟩
  unfold lineDecy
  rw [chipAddr_mask (even_sub h.even (even_modOffset hm)), chipAddr_sub, h.word, chipAddr_modOffset]
  push_cast
  ring

/-! ## Octants -/

/-- The x offset of a pixel `major` steps along the major axis and `minor` along the minor one: the octant's bit 2
makes x the major axis, its bits 0 and 1 turn the major and the minor direction round. -/
def octantX (cmd : BlitCommand) (major minor : Int) : Int :=
  if cmd.lineOctant &&& 0x04 ≠ 0 then (if cmd.lineOctant &&& 0x01 ≠ 0 then -major else major)
  else if cmd.lineOctant &&& 0x02 ≠ 0 then -minor else minor

def octantY (cmd : BlitCommand) (major minor : Int) : Int :=
  if cmd.lineOctant &&& 0x04 ≠ 0 then (if cmd.lineOctant &&& 0x02 ≠ 0 then -minor else minor)
  else if cmd.lineOctant &&& 0x01 ≠ 0 then -major else major

variable {M m : Int}

theorem LinePoint.major (hm : cmd.cmod.toInt % 2 = 0) (h : LinePoint cmd (octantX cmd M m) (octantY cmd M m) s) :
    LinePoint cmd (octantX cmd (M + 1) m) (octantY cmd (M + 1) m) (lineMajor s cmd) := by
  unfold lineMajor
  unfold octantX octantY at h ⊢
  by_cases hx : cmd.lineOctant &&& 0x04 ≠ 0 <;> by_cases hneg : cmd.lineOctant &&& 0x01 ≠ 0
  · simp only [if_pos hx, if_pos hneg, neg_add] at h ⊢
    exact h.decx
  · simp only [if_pos hx, if_neg hneg] at h ⊢
    exact h.incx
  · simp only [if_neg hx, if_pos hneg, neg_add] at h ⊢
    exact h.decy hm
  · simp only [if_neg hx, if_neg hneg] at h ⊢
    exact h.incy hm

theorem LinePoint.minor (hm : cmd.cmod.toInt % 2 = 0) (h : LinePoint cmd (octantX cmd M m) (octantY cmd M m) s) :
    LinePoint cmd (octantX cmd M (m + 1)) (octantY cmd M (m + 1)) (lineMinor s cmd) := by
  unfold lineMinor
  unfold octantX octantY at h ⊢
  by_cases hx : cmd.lineOctant &&& 0x04 ≠ 0 <;> by_cases hneg : cmd.lineOctant &&& 0x02 ≠ 0
  · simp only [if_pos hx, if_pos hneg, neg_add] at h ⊢
    exact h.decy hm
  · simp only [if_pos hx, if_neg hneg] at h ⊢
    exact h.incy hm
  · simp only [if_neg hx, if_pos hneg, neg_add] at h ⊢
    exact h.decx
  · simp only [if_neg hx, if_neg hneg] at h ⊢
    exact h.incx

theorem LinePoint.congr {s' : BlitterLineState} (h : LinePoint cmd X Y s) (hc : s'.cpt = s.cpt)
    (hx : s'.xShift = s.xShift) : LinePoint cmd X Y s' :=
  ⟨by rw [hc]; exact h.word, by rw [hx]; exact h.shift, by rw [hc]; exact h.even⟩

/-- One pixel: a step along the major axis, and one along the minor axis when the error was not negative. -/
theorem LinePoint.pixel (hm : cmd.cmod.toInt % 2 = 0) (mem : ChipRam)
    (h : LinePoint cmd (octantX cmd M m) (octantY cmd M m) s) :
    LinePoint cmd (octantX cmd (M + 1) (if s.sign then m else m + 1)) (octantY cmd (M + 1) (if s.sign then m else m + 1))
      (linePixel cmd s mem).1 := by
  have hplot : LinePoint cmd (octantX cmd M m) (octantY cmd M m)
      (lineError (linePlot s (lineCval cmd s mem) (lineDval cmd s (lineCval cmd s mem))) cmd) := h.congr rfl rfl
  cases hs : s.sign
  · have hstep := (hplot.minor hm).major hm
    refine LinePoint.congr hstep ?_ ?_
    · unfold linePixel lineAdvance
      simp only [linePlot, hs, Bool.false_eq_true, if_false]
      rfl
    · unfold linePixel lineAdvance
      simp only [linePlot, hs, Bool.false_eq_true, if_false]
      rfl
  · have hstep := hplot.major hm
    refine LinePoint.congr hstep ?_ ?_
    · unfold linePixel lineAdvance
      simp only [linePlot, hs, if_true]
      rfl
    · unfold linePixel lineAdvance
      simp only [linePlot, hs, if_true]
      rfl

end

/-! ## The pattern -/

/-- Before pixel `k` bit `i` of the pattern is bit `BSH + i - k` of BLTBDAT, round the word. -/
def PatternAt (cmd : BlitCommand) (k : Nat) (pattern : UInt16) : Prop :=
  ∀ i < 16, pattern.toNat.testBit i = cmd.bdat.toNat.testBit ((cmd.bshift.toNat + i - k : Int) % 16).toNat

theorem patternAt_start (cmd : BlitCommand) (hb : cmd.bshift.toNat < 16) :
    PatternAt cmd 0 (lineRotatePattern cmd.bdat cmd.bshift) := by
  intro i hi
  have hwindow : lineRotatePattern cmd.bdat cmd.bshift = shiftWindow false cmd.bdat cmd.bdat cmd.bshift := by
    rw [← blitterApplyShift_eq false cmd.bdat cmd.bdat hb]
    unfold lineRotatePattern blitterApplyShift shiftAscending
    rw [if_neg Bool.false_ne_true, UInt16.or_comm]
  rw [hwindow, shiftWindow, if_neg Bool.false_ne_true, uint16_testBit_window _ _ _ hi, ← apply_ite]
  congr 1
  split <;> omega

theorem PatternAt.rotate {cmd : BlitCommand} {k : Nat} {p : UInt16} (h : PatternAt cmd k p) :
    PatternAt cmd (k + 1) ((p <<< 1) ||| (p >>> 15)) := by
  intro i hi
  rw [UInt16.toNat_or, Nat.testBit_or, uint16_testBit_shiftLeft p (show (1 : UInt16).toNat = 1 from rfl) (by decide) hi,
    uint16_testBit_shiftRight p (show (15 : UInt16).toNat = 15 from rfl) (by decide)]
  cases i with
  | zero =>
    rw [h 15 (by decide)]
    simp only [Nat.le_zero, Nat.one_ne_zero, decide_false, Bool.false_and, Bool.false_or]
    congr 1
    omega
  | succ i =>
    rw [uint16_testBit_ge p (show 16 ≤ 15 + (i + 1) by omega), Nat.add_sub_cancel, h i (by omega)]
    simp only [Nat.le_add_left, decide_true, Bool.true_and, Bool.or_false]
    congr 1
    omega

theorem linePixel_pattern (cmd : BlitCommand) (s : BlitterLineState) (mem : ChipRam) :
    (linePixel cmd s mem).1.pattern = (s.pattern <<< 1) ||| (s.pattern >>> 15) := by
  unfold linePixel lineAdvance
  dsimp only [lineRotate, lineSign]
  rw [(lineMajor_kept _ _).2]
  split
  · rfl
  · rw [(lineMinor_kept _ _).2]
    rfl

/-! ## The standard set-up -/

/-- The registers of a line from its start pixel, `dx` along the major axis and `dy` along the minor one. -/
structure StandardLine (r : BlitterRegs) (dx dy : Nat) : Prop where
  pos : 1 ≤ dx
  slope : dy ≤ dx
  range : dx ≤ 8191
  useA : r.bltcon0 &&& 0x0800 ≠ 0
  useC : r.bltcon0 &&& 0x0200 ≠ 0
  apt : r.bltapt.toUInt16.toInt16.toInt = 4 * dy - 2 * dx
  bmod : r.bltbmod.toInt = 4 * dy
  amod : r.bltamod.toInt = 4 * ((dy : Int) - dx)
  sign : r.bltcon1 &&& 0x0040 ≠ 0 ↔ 4 * (dy : Int) - 2 * dx < 0
  cmod : r.bltcmod.toInt % 2 = 0

/-- The pixel that the blit draws in its state `s` is pixel `k` of the digital line, with its bit of the pattern; and
its error has not overflowed, nor will the advance make it. -/
structure BresenhamPixel (cmd : BlitCommand) (dx dy k : Nat) (s : BlitterLineState) : Prop where
  point : LinePoint cmd (octantX cmd k (Bresenham.minor dx dy k)) (octantY cmd k (Bresenham.minor dx dy k)) s
  pattern : decide (s.pattern &&& 1 ≠ 0) = cmd.bdat.toNat.testBit ((cmd.bshift.toNat - k : Int) % 16).toNat
  error : s.error.toInt = Bresenham.error dx dy k
  low : -32768 ≤ s.error.toInt + (if s.sign then cmd.bmod else cmd.amod).toInt
  high : s.error.toInt + (if s.sign then cmd.bmod else cmd.amod).toInt ≤ 32767

theorem pattern_bit (p : UInt16) : decide (p &&& 1 ≠ 0) = p.toNat.testBit 0 := by
  rw [← uint16_bit_ne_zero p (by decide : 0 < 16), Bool.eq_iff_iff, decide_eq_true_iff, bne_iff_ne]
  exact Iff.of_eq (congrArg (fun x : UInt16 => x &&& 1 ≠ 0) (UInt16.shiftRight_zero).symm)

/-- What the standard set-up puts into a line command. -/
structure StandardCommand (cmd : BlitCommand) (dx dy : Nat) : Prop where
  pos : 1 ≤ dx
  slope : dy ≤ dx
  range : dx ≤ 8191
  useA : cmd.useA = true
  start : (cmd.apt &&& 0xFFFF).toUInt16.toInt16.toInt = 4 * dy - 2 * dx
  bmod : cmd.bmod.toInt = 4 * dy
  amod : cmd.amod.toInt = 4 * ((dy : Int) - dx)
  sign : cmd.lineInitialSign = decide (4 * (dy : Int) - 2 * dx < 0)
  cmod : cmd.cmod.toInt % 2 = 0
  bshift : cmd.bshift.toNat < 16
  startBit : cmd.lineStartBit.toNat < 16
  even : cmd.cpt.toNat % 2 = 0

section
variable {cmd : BlitCommand} {dx dy : Nat}

/-- **The accumulator is the error term**, and its sign bit the term's sign. -/
theorem StandardCommand.errors (h : StandardCommand cmd dx dy) :
    ∀ k, (lineErrors cmd k).1.toInt = Bresenham.error dx dy k ∧
      (lineErrors cmd k).2 = decide (Bresenham.error dx dy k < 0)
  | 0 => by
    rw [Bresenham.error_zero h.pos]
    exact ⟨h.start, h.sign⟩
  | k + 1 => by
    obtain ⟨herror, hsign⟩ := h.errors k
    have hpos := h.pos
    have hslope := h.slope
    have hrange := h.range
    have hb := @Bresenham.error_bounds dx dy h.pos (k + 1)
    have hsucc := Bresenham.error_succ h.pos h.slope k
    have hnext : (lineErrors cmd (k + 1)).1.toInt = Bresenham.error dx dy (k + 1) := by
      unfold lineErrors
      simp only [h.useA, if_true, hsign, decide_eq_true_eq]
      split
      · rename_i hneg
        rw [if_pos hneg] at hsucc
        rw [Int16.toInt_add, herror, h.bmod, ← hsucc]
        exact Int.bmod_eq_of_le (by omega) (by omega)
      · rename_i hneg
        rw [if_neg hneg] at hsucc
        rw [Int16.toInt_add, herror, h.amod, ← hsucc]
        exact Int.bmod_eq_of_le (by omega) (by omega)
    refine ⟨hnext, ?_⟩
    have hlt : (lineErrors cmd (k + 1)).1 < 0 ↔ Bresenham.error dx dy (k + 1) < 0 := by
      rw [Int16.lt_iff_toInt_lt, hnext]
      rfl
    exact decide_eq_decide.2 hlt

theorem StandardCommand.pixels (h : StandardCommand cmd dx dy) (mem : ChipRam) (k : Nat) :
    LinePoint cmd (octantX cmd k (Bresenham.minor dx dy k)) (octantY cmd k (Bresenham.minor dx dy k))
        (linePixelRun cmd mem k).1 ∧
      PatternAt cmd k (linePixelRun cmd mem k).1.pattern := by
  induction k with
  | zero =>
    have hzero : ∀ c : BlitCommand, octantX c 0 0 = 0 ∧ octantY c 0 0 = 0 := fun c => by
      unfold octantX octantY
      simp only [neg_zero, ite_self, and_self]
    have hbit : (cmd.lineStartBit &&& 0x0F).toNat = cmd.lineStartBit.toNat := by
      rw [UInt8.toNat_and]
      exact (Nat.and_two_pow_sub_one_eq_mod _ 4).trans (Nat.mod_eq_of_lt h.startBit)
    have hstart := h.startBit
    rw [Bresenham.minor_zero h.pos, Nat.cast_zero, (hzero cmd).1, (hzero cmd).2]
    refine ⟨⟨?_, ?_, even_mask cmd.cpt⟩, patternAt_start cmd h.bshift⟩
    · have hoff : (0 * cmd.cmod.toInt + 2 * ((cmd.lineStartBit.toNat + 0) / 16) : Int) = 0 := by omega
      rw [hoff, Int.cast_zero, add_zero]
      exact chipAddr_mask h.even
    · refine (congrArg Nat.cast hbit).trans ?_
      omega
  | succ k ih =>
    have hstep := ih.1.pixel h.cmod (linePixelRun cmd mem k).2
    have hsign : (linePixelRun cmd mem k).1.sign = decide (Bresenham.error dx dy k < 0) :=
      (congrArg Prod.snd (linePixelRun_errors cmd mem k)).trans (h.errors k).2
    have hminor : (Bresenham.minor dx dy (k + 1) : Int) =
        if (linePixelRun cmd mem k).1.sign then (Bresenham.minor dx dy k : Int) else Bresenham.minor dx dy k + 1 := by
      rw [Bresenham.minor_succ h.pos h.slope, hsign]
      simp only [decide_eq_true_eq]
      split <;> simp
    rw [← hminor] at hstep
    refine ⟨by exact_mod_cast hstep, ?_⟩
    have hpat := ih.2.rotate
    rw [← linePixel_pattern cmd _ (linePixelRun cmd mem k).2] at hpat
    exact hpat

end

theorem low_word_even {p : UInt32} (h : p.toUInt16.toInt16.toInt % 2 = 0) :
    ((p &&& blitterChipAddrMask) &&& 0xFFFF).toUInt16 = p.toUInt16 := by
  have heven : p.toNat % 2 = 0 := by
    have hint : p.toUInt16.toInt16.toInt = Int.bmod p.toUInt16.toNat (2 ^ 16) := BitVec.toInt_eq_toNat_bmod _
    rw [hint, Int.bmod_def, UInt32.toNat_toUInt16] at h
    omega
  have hlow : p.toNat &&& 0xFFFE = p.toNat % 2 ^ 16 := by
    rw [← Nat.and_two_pow_sub_one_eq_mod, show 2 ^ 16 - 1 = 0xFFFE ||| 1 from by decide, Nat.and_or_distrib_left,
      Nat.and_one_is_mod, heven, Nat.or_zero]
  have hmask : (p &&& blitterChipAddrMask) &&& 0xFFFF = p &&& 0xFFFE := by
    rw [UInt32.and_assoc]
    rfl
  rw [hmask, ← UInt16.toNat_inj, UInt32.toNat_toUInt16, UInt32.toNat_toUInt16, UInt32.toNat_and]
  exact (congrArg (· % 2 ^ 16) hlow).trans (Nat.mod_mod p.toNat (2 ^ 16))

theorem StandardLine.command {b : BlitterState} {dx dy : Nat} (h : StandardLine b.regs dx dy) :
    StandardCommand (blitterBuildCommand b).cmd dx dy where
  pos := h.pos
  slope := h.slope
  range := h.range
  useA := bne_iff_ne.2 h.useA
  start := by
    have heven : b.regs.bltapt.toUInt16.toInt16.toInt % 2 = 0 := by rw [h.apt]; omega
    rw [← h.apt, ← low_word_even heven]
    rfl
  bmod := h.bmod
  amod := h.amod
  sign := by
    rw [Bool.eq_iff_iff, decide_eq_true_iff, ← h.sign]
    exact bne_iff_ne
  cmod := h.cmod
  bshift := nibble_lt _
  startBit := nibble_lt _
  even := even_mask _

/-- **A line blit draws the Bresenham line.** In every octant, from every start pixel and over every length, the state
in which `blitter_line_step` draws pixel `k` is that of pixel `k` of the digital line. -/
theorem lineBlit_bresenham (b : BlitterState) (off : UInt32) (v : UInt16) (mem : ChipRam) (dx dy : Nat)
    (hs : blitterStartsAt off = true) (hline : (blitterWriteReg16 b off v).cmd.mode = .line)
    (hstd : StandardLine (blitterWriteReg16 b off v).regs dx dy) :
    ∀ k < (blitterWriteReg16 b off v).cmd.heightLines.toNat,
      BresenhamPixel (blitterWriteReg16 b off v).cmd dx dy k
        (lineStateInit (lineStepRun (blitterWriteReg16 b off v) mem k).1.lineState (blitterWriteReg16 b off v).cmd) := by
  have hfresh := blitterStart_line_fresh b v hs
  have hcmd : StandardCommand (blitterWriteReg16 b off v).cmd dx dy := by
    rw [blitterWriteReg16_start b v hs] at hstd ⊢
    exact hstd.command
  generalize blitterWriteReg16 b off v = b0 at *
  intro k hk
  have hstate : lineStateInit (lineStepRun b0 mem k).1.lineState b0.cmd = (linePixelRun b0.cmd mem k).1 :=
    congrArg Prod.fst (lineStepRun_pixels mem hline hfresh k hk.le).2
  obtain ⟨hpoint, hpat⟩ := hcmd.pixels mem k
  obtain ⟨herr, hsign⟩ := hcmd.errors k
  have hrun := linePixelRun_errors b0.cmd mem k
  have herror : (linePixelRun b0.cmd mem k).1.error.toInt = Bresenham.error dx dy k := by
    rw [← herr, ← congrArg Prod.fst hrun]
  have hsign' : (linePixelRun b0.cmd mem k).1.sign = decide (Bresenham.error dx dy k < 0) :=
    (congrArg Prod.snd hrun).trans hsign
  have hnext : (linePixelRun b0.cmd mem k).1.error.toInt +
      (if (linePixelRun b0.cmd mem k).1.sign then b0.cmd.bmod else b0.cmd.amod).toInt =
        Bresenham.error dx dy (k + 1) := by
    rw [herror, Bresenham.error_succ hcmd.pos hcmd.slope, hsign']
    simp only [decide_eq_true_eq]
    split
    · rw [hcmd.bmod]
    · rw [hcmd.amod]
  have hbounds := @Bresenham.error_bounds dx dy hcmd.pos (k + 1)
  have hrange := hcmd.range
  have hslope := hcmd.slope
  rw [hstate]
  refine ⟨hpoint, ?_, herror, by omega, by omega⟩
  rw [pattern_bit, hpat 0 (by decide), Nat.cast_zero, add_zero]

/-- The registers of a line three right and two down, from the top bit of `$1000` on rows of 40 bytes. -/
def slopedLine : BlitterState := { blitterInit with
  regs := { blitterInit.regs with
    bltcon0 := 0x0BCA, bltcon1 := 0x0011, bltapt := 0x0002, bltbmod := 8, bltamod := -4, bltcmod := 40,
    bltcpt := 0x1000, bltadat := 0x8000, bltbdat := 0xFFFF } }

/-- Its last pixel. -/
theorem lineBlit_bresenham_sloped :
    BresenhamPixel (blitterWriteReg16 slopedLine 0x058 0x0102).cmd 3 2 3
      (lineStateInit (lineStepRun (blitterWriteReg16 slopedLine 0x058 0x0102) blankRam 3).1.lineState
        (blitterWriteReg16 slopedLine 0x058 0x0102).cmd) :=
  lineBlit_bresenham slopedLine 0x058 0x0102 blankRam 3 2 rfl rfl
    ⟨by decide, by decide, by decide, by decide, by decide, by decide, by decide, by decide, by decide, by decide⟩ 3
    (by decide)

end Rigel
