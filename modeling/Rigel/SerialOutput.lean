import Rigel.Bits
import Rigel.Cia

/-!
# SerialOutput — the bits that a CIA sends

In output mode the shifter and the one-byte buffer behind it hold a queue of bits. A write of the data register appends
the eight bits of its byte, and an underflow of timer A takes the first bit. The level that can be seen after the eighth
bit of a byte is the idle one, whatever the bit was, so that the stream is right exactly for odd bytes.
-/

namespace Rigel

/-! ## What is sent and what is seen -/

inductive SdrEvent where
  | write (value : UInt8)
  | underflow
  deriving Repr, DecidableEq

def sdrStep (b : CiaBus) : SdrEvent → CiaBus
  | .write value => { b with cia := ciaSerialWriteSdr b.cia value }
  | .underflow => ciaSerialOnTimerAUnderflow b

/-- What an underflow that shifts a bit shows: the level after it, and whether it raises SP in a cleared ICR. -/
def sdrSeen (b : CiaBus) : SdrEvent → List (Bool × Bool)
  | .write _ => []
  | .underflow =>
    if (ciaSerialStartOutput b.cia).serialOutBusy then
      [((ciaSerialOnTimerAUnderflow b).cia.spOutputLevel,
        (ciaSerialOnTimerAUnderflow { b with cia := { b.cia with icrData := 0 } }).cia.icrData &&& ciaIcrSp != 0)]
    else []

def sdrObserved (b : CiaBus) : List SdrEvent → List (Bool × Bool)
  | [] => []
  | e :: es => sdrSeen b e ++ sdrObserved (sdrStep b e) es

/-- The bytes that are written. -/
def sdrBytes : List SdrEvent → List UInt8
  | [] => []
  | .write value :: es => value :: sdrBytes es
  | .underflow :: es => sdrBytes es

/-- How many underflows shift a bit, with so many bits to send at first. -/
def sdrShifted : Nat → List SdrEvent → Nat
  | _, [] => 0
  | left, .write _ :: es => sdrShifted (left + 8) es
  | 0, .underflow :: es => sdrShifted 0 es
  | left + 1, .underflow :: es => sdrShifted left es + 1

/-- The first `n` bits of a byte, each with whether it is the last one. -/
def sdrFrame (value : UInt8) (n : Nat) : List (Bool × Bool) :=
  (List.range n).map fun i => (value.toNat.testBit (7 - i), i + 1 == n)

/-- Every write comes when the buffer is free. -/
def SdrFree : CiaBus → List SdrEvent → Prop
  | _, [] => True
  | b, .write value :: es => b.cia.serialOutBufferFull = false ∧ SdrFree (sdrStep b (.write value)) es
  | b, .underflow :: es => SdrFree (sdrStep b .underflow) es

/-- **The stream is right**: the underflows that shift a bit show the bits of the bytes in order, the most significant
first, with SP at the eighth of each. -/
def SdrStreamRight (b : CiaBus) (es : List SdrEvent) : Prop :=
  sdrObserved b es = ((sdrBytes es).flatMap fun value => sdrFrame value 8).take (sdrShifted 0 es)

/-! ## The queue -/

/-- The bits that the shifter and its buffer hold. -/
def sdrQueue (c : CiaState) : List (Bool × Bool) :=
  if c.serialOutBusy then
    sdrFrame c.serialOutShift c.serialOutBits.toNat ++ (if c.serialOutBufferFull then sdrFrame c.serialOutBuffer 8 else [])
  else []

/-- In output mode a shifter at rest has nothing behind it, and a busy one has one to eight bits left. -/
structure SdrOk (c : CiaState) : Prop where
  mode : c.cra &&& 0x40 ≠ 0
  rest : c.serialOutBusy = false → c.serialOutBufferFull = false
  bits : c.serialOutBusy = true → 0 < c.serialOutBits.toNat ∧ c.serialOutBits.toNat ≤ 8

theorem sdrFrame_length (value : UInt8) (n : Nat) : (sdrFrame value n).length = n := by
  rw [sdrFrame, List.length_map, List.length_range]

/-- The first bit of a frame is the top of the shifter, and the rest of it is the frame of what is left. -/
theorem sdrFrame_succ (value : UInt8) {n : Nat} (h : n < 8) :
    sdrFrame value (n + 1) = (value.toNat.testBit 7, n == 0) :: sdrFrame (value <<< 1) n := by
  unfold sdrFrame
  rw [List.range_succ_eq_map, List.map_cons, List.map_map]
  refine congrArg₂ List.cons (Prod.ext rfl ?_) (List.map_congr_left fun i hi => Prod.ext ?_ ?_)
  · simp
  · have hlt := List.mem_range.mp hi
    simp only [Function.comp_apply, UInt8.toNat_shiftLeft, UInt8.reduceToNat, Nat.reduceMod, Nat.testBit_mod_two_pow,
      Nat.testBit_shiftLeft]
    have hbit : 7 - i < 8 := by omega
    have hpos : 1 ≤ 7 - i := by omega
    simp [hbit, hpos]
    congr 1
    omega
  · simp

/-- What is seen of a bit: the level after the last one is the idle level. -/
def sdrMasked (x : Bool × Bool) : Bool × Bool := (x.1 || x.2, x.2)

theorem sdrTop (value : UInt8) : (value >>> 7 &&& 1 != 0) = value.toNat.testBit 7 :=
  uint8_forall (P := fun v => (v >>> 7 &&& 1 != 0) = v.toNat.testBit 7) (by decide +kernel) value

theorem startOutput_busy {c : CiaState} (h : c.serialOutBusy = true) : ciaSerialStartOutput c = c := by
  unfold ciaSerialStartOutput
  rw [h]
  rfl

theorem startOutput_empty {c : CiaState} (h : c.serialOutBufferFull = false) : ciaSerialStartOutput c = c := by
  unfold ciaSerialStartOutput
  rw [h, Bool.not_false, Bool.or_true, if_pos rfl]

theorem startOutput_load {c : CiaState} (hbusy : c.serialOutBusy = false) (hfull : c.serialOutBufferFull = true) :
    ciaSerialStartOutput c = { c with serialOutShift := c.serialOutBuffer, serialOutBits := 8, serialOutBusy := true,
                                      serialOutBufferFull := false } := by
  unfold ciaSerialStartOutput
  rw [hbusy, hfull]
  rfl

theorem SdrOk.start {c : CiaState} (h : SdrOk c) : ciaSerialStartOutput c = c := by
  by_cases hbusy : c.serialOutBusy = true
  · exact startOutput_busy hbusy
  · exact startOutput_empty (h.rest (Bool.eq_false_of_not_eq_true hbusy))

/-- The byte is in the buffer. -/
def sdrBuffered (c : CiaState) (value : UInt8) : CiaState :=
  { c with sdr := value, serialOutBuffer := value, serialOutBufferFull := true }

/-- A write into a free buffer appends a frame. -/
theorem SdrOk.write {c : CiaState} (h : SdrOk c) (hfree : c.serialOutBufferFull = false) (value : UInt8) :
    sdrQueue (ciaSerialWriteSdr c value) = sdrQueue c ++ sdrFrame value 8 ∧ SdrOk (ciaSerialWriteSdr c value) := by
  have hwrite : ciaSerialWriteSdr c value = ciaSerialStartOutput (sdrBuffered c value) := if_neg h.mode
  rw [hwrite]
  by_cases hbusy : c.serialOutBusy = true
  · rw [startOutput_busy (c := sdrBuffered c value) hbusy]
    refine ⟨?_, h.mode, fun hrest => ?_, h.bits⟩
    · simp [sdrQueue, sdrBuffered, hbusy, hfree]
    · exact absurd (hbusy.symm.trans hrest) (by decide)
  · have hrest : c.serialOutBusy = false := Bool.eq_false_of_not_eq_true hbusy
    rw [startOutput_load (c := sdrBuffered c value) hrest rfl]
    refine ⟨?_, h.mode, fun _ => rfl, fun _ => ⟨Nat.succ_pos 7, Nat.le_refl 8⟩⟩
    simp [sdrQueue, sdrBuffered, hrest]

theorem underflow_more {b : CiaBus} (h : SdrOk b.cia) (hbusy : b.cia.serialOutBusy = true) {n : Nat}
    (hn : b.cia.serialOutBits.toNat = n + 1) (hmore : n ≠ 0) :
    ciaSerialOnTimerAUnderflow b = { b with cia := ciaSerialShiftBit b.cia } ∧
      (ciaSerialShiftBit b.cia).serialOutBits.toNat = n := by
  have hbits : (b.cia.serialOutBits - 1).toNat = n := by
    rw [UInt8.toNat_sub_of_le _ _ (by rw [UInt8.le_iff_toNat_le, hn]; exact Nat.succ_le_succ (Nat.zero_le n)), hn]
    rfl
  have hne : (ciaSerialShiftBit b.cia).serialOutBits ≠ 0 := by
    intro hzero
    have hnat := congrArg UInt8.toNat hzero
    exact hmore (hbits.symm.trans hnat)
  refine ⟨?_, hbits⟩
  unfold ciaSerialOnTimerAUnderflow
  rw [if_neg h.mode, h.start]
  simp only [hbusy, Bool.not_true, Bool.false_eq_true, if_false]
  rw [if_pos hne]

/-- The last bit leaves it: SP is raised, and the buffer's byte is next. -/
theorem underflow_last {b : CiaBus} (h : SdrOk b.cia) (hbusy : b.cia.serialOutBusy = true)
    (hn : b.cia.serialOutBits.toNat = 1) : (ciaSerialOnTimerAUnderflow b).cia = ciaSerialStartOutput
      (ciaInterruptRaise { b with cia := { ciaSerialShiftBit b.cia with serialOutBusy := false, spOutputLevel := true } }
        ciaIcrSp).cia := by
  have hone : b.cia.serialOutBits = 1 := UInt8.toNat_inj.mp hn
  have hzero : ¬ (ciaSerialShiftBit b.cia).serialOutBits ≠ 0 := by
    show ¬ b.cia.serialOutBits - 1 ≠ 0
    rw [hone]
    decide
  unfold ciaSerialOnTimerAUnderflow
  rw [if_neg h.mode, h.start]
  simp only [hbusy, Bool.not_true, Bool.false_eq_true, if_false]
  rw [if_neg hzero]

theorem startOutput_frame (c : CiaState) : (ciaSerialStartOutput c).spOutputLevel = c.spOutputLevel ∧
    (ciaSerialStartOutput c).icrData = c.icrData ∧ (ciaSerialStartOutput c).cra = c.cra := by
  unfold ciaSerialStartOutput
  split <;> exact ⟨rfl, rfl, rfl⟩

/-- What a shifter at the end of its byte goes on with. -/
theorem startOutput_next {c : CiaState} (hmode : c.cra &&& 0x40 ≠ 0) (hbusy : c.serialOutBusy = false) :
    sdrQueue (ciaSerialStartOutput c) = (if c.serialOutBufferFull then sdrFrame c.serialOutBuffer 8 else []) ∧
      SdrOk (ciaSerialStartOutput c) := by
  by_cases hfull : c.serialOutBufferFull = true
  · rw [startOutput_load hbusy hfull, if_pos hfull]
    exact ⟨List.append_nil _, hmode, fun _ => rfl, fun _ => ⟨Nat.succ_pos 7, Nat.le_refl 8⟩⟩
  · have hempty : c.serialOutBufferFull = false := Bool.eq_false_of_not_eq_true hfull
    rw [startOutput_empty hempty, if_neg hfull]
    refine ⟨?_, hmode, fun _ => hempty, fun h => absurd (hbusy.symm.trans h) (by decide)⟩
    unfold sdrQueue
    rw [hbusy]
    rfl

/-- A busy shifter shows a bit at every underflow. -/
theorem sdrSeen_busy {b : CiaBus} (h : SdrOk b.cia) (hbusy : b.cia.serialOutBusy = true) :
    sdrSeen b .underflow = [((ciaSerialOnTimerAUnderflow b).cia.spOutputLevel,
      (ciaSerialOnTimerAUnderflow { b with cia := { b.cia with icrData := 0 } }).cia.icrData &&& ciaIcrSp != 0)] :=
  if_pos (by rw [h.start]; exact hbusy)

theorem SdrOk.more {b : CiaBus} (h : SdrOk b.cia) (hbusy : b.cia.serialOutBusy = true) {n : Nat}
    (hn : b.cia.serialOutBits.toNat = n + 1) (hmore : n ≠ 0) :
    sdrSeen b .underflow = [(b.cia.serialOutShift.toNat.testBit 7, false)] ∧
      sdrQueue (ciaSerialOnTimerAUnderflow b).cia = sdrFrame (b.cia.serialOutShift <<< 1) n ++
        (if b.cia.serialOutBufferFull then sdrFrame b.cia.serialOutBuffer 8 else []) ∧
      SdrOk (ciaSerialOnTimerAUnderflow b).cia := by
  have hcleared : SdrOk { b.cia with icrData := 0 } := ⟨h.mode, h.rest, h.bits⟩
  obtain ⟨hafter, hleft⟩ := underflow_more h hbusy hn hmore
  obtain ⟨hclear, -⟩ := underflow_more (b := { b with cia := { b.cia with icrData := 0 } }) hcleared hbusy hn hmore
  have hle := (h.bits hbusy).2
  refine ⟨?_, ?_, ?_⟩
  · rw [sdrSeen_busy h hbusy, hclear, hafter]
    refine congrArg₂ (fun level sp => [(level, sp)]) (sdrTop b.cia.serialOutShift) ?_
    show ((0 : UInt8) &&& ciaIcrSp != 0) = false
    decide
  · rw [hafter]
    unfold sdrQueue
    rw [if_pos (show (ciaSerialShiftBit b.cia).serialOutBusy = true from hbusy), hleft]
    rfl
  · rw [hafter]
    refine ⟨h.mode, fun hrest => absurd (hbusy.symm.trans hrest) (by decide), fun _ => ?_⟩
    show 0 < (ciaSerialShiftBit b.cia).serialOutBits.toNat ∧ (ciaSerialShiftBit b.cia).serialOutBits.toNat ≤ 8
    omega

theorem SdrOk.last {b : CiaBus} (h : SdrOk b.cia) (hbusy : b.cia.serialOutBusy = true)
    (hn : b.cia.serialOutBits.toNat = 1) :
    sdrSeen b .underflow = [(true, true)] ∧
      sdrQueue (ciaSerialOnTimerAUnderflow b).cia =
        (if b.cia.serialOutBufferFull then sdrFrame b.cia.serialOutBuffer 8 else []) ∧
      SdrOk (ciaSerialOnTimerAUnderflow b).cia := by
  have hcleared : SdrOk { b.cia with icrData := 0 } := ⟨h.mode, h.rest, h.bits⟩
  have hafter := underflow_last h hbusy hn
  have hclear := underflow_last (b := { b with cia := { b.cia with icrData := 0 } }) hcleared hbusy hn
  refine ⟨?_, ?_⟩
  · rw [sdrSeen_busy h hbusy, hafter, hclear, (startOutput_frame _).1, (startOutput_frame _).2.1]
    refine congrArg (fun sp => [(true, sp)]) ?_
    show (((0 : UInt8) ||| (ciaIcrSp &&& 0x1F)) &&& ciaIcrSp != 0) = true
    decide
  · rw [hafter]
    exact startOutput_next h.mode rfl

/-- **An underflow takes the first bit of the queue**, and shows it as far as the idle level lets it. -/
theorem SdrOk.underflow {b : CiaBus} (h : SdrOk b.cia) :
    sdrSeen b .underflow = ((sdrQueue b.cia).take 1).map sdrMasked ∧
      sdrQueue (ciaSerialOnTimerAUnderflow b).cia = (sdrQueue b.cia).drop 1 ∧ SdrOk (ciaSerialOnTimerAUnderflow b).cia := by
  by_cases hbusy : b.cia.serialOutBusy = true
  · obtain ⟨hpos, hle⟩ := h.bits hbusy
    obtain ⟨n, hn⟩ : ∃ n, b.cia.serialOutBits.toNat = n + 1 := ⟨b.cia.serialOutBits.toNat - 1, by omega⟩
    have hqueue : sdrQueue b.cia = (b.cia.serialOutShift.toNat.testBit 7, n == 0) ::
        (sdrFrame (b.cia.serialOutShift <<< 1) n ++
          if b.cia.serialOutBufferFull then sdrFrame b.cia.serialOutBuffer 8 else []) := by
      unfold sdrQueue
      rw [if_pos hbusy, hn, sdrFrame_succ _ (by omega), List.cons_append]
    rw [hqueue]
    by_cases hmore : n = 0
    · subst hmore
      obtain ⟨hseen, hrest, hok⟩ := h.last hbusy hn
      refine ⟨?_, hrest, hok⟩
      rw [hseen]
      simp [sdrMasked]
    · obtain ⟨hseen, hrest, hok⟩ := h.more hbusy hn hmore
      refine ⟨?_, hrest, hok⟩
      rw [hseen]
      simp [sdrMasked, hmore]
  · have hrest : b.cia.serialOutBusy = false := Bool.eq_false_of_not_eq_true hbusy
    have hsame : ciaSerialOnTimerAUnderflow b = b := by
      unfold ciaSerialOnTimerAUnderflow
      rw [if_neg h.mode, h.start]
      simp only [hrest, Bool.not_false, if_true]
    have hempty : sdrQueue b.cia = [] := by
      unfold sdrQueue
      rw [if_neg hbusy]
    have hnone : sdrSeen b .underflow = [] := if_neg (by rw [h.start]; exact hbusy)
    rw [hnone, hsame, hempty]
    exact ⟨rfl, rfl, h⟩

/-! ## The stream -/

/-- **What a run shows** is the queue at its start and the frames of the bytes written, bit by bit. -/
theorem sdrObserved_eq : ∀ (es : List SdrEvent) (b : CiaBus), SdrOk b.cia → SdrFree b es →
    sdrObserved b es = ((sdrQueue b.cia ++ (sdrBytes es).flatMap fun value => sdrFrame value 8).take
      (sdrShifted (sdrQueue b.cia).length es)).map sdrMasked
  | [], b, _, _ => by
    rw [sdrShifted, List.take_zero]
    rfl
  | .write value :: es, b, h, hfree => by
    obtain ⟨hqueue, hok⟩ := h.write hfree.1 value
    have hrest := sdrObserved_eq es (sdrStep b (.write value)) hok hfree.2
    rw [show sdrQueue (sdrStep b (.write value)).cia = _ from hqueue, List.length_append, sdrFrame_length,
      List.append_assoc] at hrest
    show [] ++ sdrObserved (sdrStep b (.write value)) es = _
    rw [List.nil_append, hrest, sdrBytes, List.flatMap_cons, sdrShifted]
  | .underflow :: es, b, h, hfree => by
    obtain ⟨hseen, hqueue, hok⟩ := h.underflow
    have hrest := sdrObserved_eq es (sdrStep b .underflow) hok hfree
    rw [show sdrQueue (sdrStep b .underflow).cia = _ from hqueue] at hrest
    show sdrSeen b .underflow ++ sdrObserved (sdrStep b .underflow) es = _
    rw [hseen, hrest, sdrBytes]
    cases sdrQueue b.cia with
    | nil => rfl
    | cons x q => rfl

theorem sdrMasked_eq (x : Bool × Bool) : sdrMasked x = x ↔ (x.2 = true → x.1 = true) := by
  obtain ⟨level, last⟩ := x
  cases level <;> cases last <;> simp [sdrMasked]

theorem map_sdrMasked_eq (l : List (Bool × Bool)) : l.map sdrMasked = l ↔ ∀ x ∈ l, x.2 = true → x.1 = true := by
  induction l with
  | nil => simp
  | cons x l ih => rw [List.map_cons, List.cons.injEq, ih, sdrMasked_eq, List.forall_mem_cons]

/-- Only the eighth bit of a frame is a last one. -/
theorem sdrFrame_last (value : UInt8) (n : Nat) :
    (∀ x ∈ (sdrFrame value 8).take n, x.2 = true → x.1 = true) ↔ (8 ≤ n → value.toNat.testBit 0 = true) := by
  have hframe : sdrFrame value 8 = ((List.range 7).map fun i => (value.toNat.testBit (7 - i), false)) ++
      [(value.toNat.testBit 0, true)] := rfl
  have hlen : ((List.range 7).map fun i => (value.toNat.testBit (7 - i), false)).length = 7 := rfl
  have hinit : ∀ (m : Nat), ∀ x ∈ ((List.range 7).map fun i => (value.toNat.testBit (7 - i), false)).take m,
      x.2 = true → x.1 = true := by
    intro m x hx hlast
    obtain ⟨i, -, rfl⟩ := List.mem_map.mp (List.mem_of_mem_take hx)
    exact Bool.noConfusion hlast
  rw [hframe, List.take_append, hlen]
  by_cases hn : 8 ≤ n
  · have hone : [(value.toNat.testBit 0, true)].take (n - 7) = [(value.toNat.testBit 0, true)] :=
      List.take_of_length_le (by simp only [List.length_singleton]; omega)
    rw [hone, List.forall_mem_append, List.forall_mem_singleton]
    exact ⟨fun h hle => h.2 rfl, fun h => ⟨hinit n, fun _ => h hn⟩⟩
  · have hnone : [(value.toNat.testBit 0, true)].take (n - 7) = [] := by
      have hzero : n - 7 = 0 := by omega
      rw [hzero]
      rfl
    rw [hnone, List.append_nil]
    exact iff_of_true (hinit n) fun hle => absurd hle hn

theorem sdrFrames_last (bytes : List UInt8) : ∀ n : Nat,
    (∀ x ∈ (bytes.flatMap fun value => sdrFrame value 8).take n, x.2 = true → x.1 = true) ↔
      ∀ k value, bytes[k]? = some value → 8 * (k + 1) ≤ n → value.toNat.testBit 0 = true := by
  induction bytes with
  | nil =>
    intro n
    simp
  | cons first bytes ih =>
    intro n
    rw [List.flatMap_cons, List.take_append, List.forall_mem_append, sdrFrame_last, sdrFrame_length, ih (n - 8)]
    constructor
    · rintro ⟨hfirst, hrest⟩ k value hk hn
      cases k with
      | zero =>
        obtain rfl : first = value := Option.some.inj hk
        exact hfirst (by omega)
      | succ k => exact hrest k value hk (by omega)
    · intro h
      exact ⟨fun hn => h 0 first rfl (by omega), fun k value hk hn => h (k + 1) value hk (by omega)⟩

/-- **When the stream is right**: exactly when every byte whose eighth bit leaves the shifter is odd. -/
theorem sdrStreamRight_iff {b : CiaBus} (hmode : b.cia.cra &&& 0x40 ≠ 0) (hidle : b.cia.serialOutBusy = false)
    (hempty : b.cia.serialOutBufferFull = false) {es : List SdrEvent} (hfree : SdrFree b es) :
    SdrStreamRight b es ↔
      ∀ k value, (sdrBytes es)[k]? = some value → 8 * (k + 1) ≤ sdrShifted 0 es → value.toNat.testBit 0 = true := by
  have hok : SdrOk b.cia := ⟨hmode, fun _ => hempty, fun h => absurd (hidle.symm.trans h) (by decide)⟩
  have hqueue : sdrQueue b.cia = [] := by
    unfold sdrQueue
    rw [hidle]
    rfl
  have hobserved := sdrObserved_eq es b hok hfree
  rw [hqueue, List.nil_append, List.length_nil] at hobserved
  unfold SdrStreamRight
  rw [hobserved, map_sdrMasked_eq, sdrFrames_last]

/-- An idle CIA in output mode. -/
def sdrIdle : CiaBus where
  cia := { ciaInit .portA with cra := 0x40 }
  irq := interruptReset

/-- Two odd bytes, the second written while the first is shifted out, and an underflow more than their bits. -/
def twoOddBytes : List SdrEvent :=
  .write 0xA5 :: .underflow :: .underflow :: .underflow :: .write 0x0F :: List.replicate 14 .underflow

theorem sdrBytes_twoOddBytes : sdrBytes twoOddBytes = [0xA5, 0x0F] := rfl

/-- Both bytes leave the shifter whole, each with SP at its eighth bit. -/
theorem sdrStreamRight_two_bytes :
    SdrStreamRight sdrIdle twoOddBytes ∧ sdrShifted 0 twoOddBytes = 16 ∧
      (sdrObserved sdrIdle twoOddBytes)[7]? = some (true, true) ∧
      (sdrObserved sdrIdle twoOddBytes)[15]? = some (true, true) := by
  have hfree : SdrFree sdrIdle twoOddBytes := ⟨rfl, rfl, trivial⟩
  refine ⟨(sdrStreamRight_iff (by decide) rfl rfl hfree).mpr fun k value hk _ => ?_, by decide, by decide, by decide⟩
  rw [sdrBytes_twoOddBytes] at hk
  rcases List.mem_cons.mp (List.mem_of_getElem? hk) with rfl | hmem
  · decide
  · obtain rfl := List.eq_of_mem_singleton hmem
    decide

/-- The byte zero: its eighth bit is seen as the idle level. -/
theorem sdrStreamRight_zero : ¬ SdrStreamRight sdrIdle (.write 0x00 :: List.replicate 8 .underflow) := by
  unfold SdrStreamRight
  decide

end Rigel
