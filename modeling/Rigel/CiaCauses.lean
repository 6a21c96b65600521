import Rigel.IrqLedger
import Rigel.Tod

/-!
# CiaCauses — what the timers and the clock of a CIA do to its interrupt line

A cause that comes up in a CIA's interrupt data makes it set its line in INTREQ anew: up if something it lets through is
pending, down if not. Over any number of ticks or pulses that is one edge, that of the last cause, and none without a cause.
The causes are read off the timers' counts, the bits left in the serial register and the alarm (`ciaStep_rose`,
`ciaTodPulse_rose`).
-/

namespace Rigel

/-! ## Causes and the line -/

/-- The edge of the line of a CIA in whose data `causes` have come up. -/
def ciaEdges (c : CiaState) (causes : UInt8) : List IrqEdge :=
  if causes = 0 then [] else [.request c.paulaIrqBit ((c.icrData ||| causes) &&& c.icrMask != 0)]

/-- The CIA `c` with `causes` come up, and the registers it is wired to after the edge. -/
structure CiaRose (irq : PaulaInterrupts) (c : CiaState) (causes : UInt8) (b : CiaBus) : Prop where
  bit : b.cia.paulaIrqBit = c.paulaIrqBit
  mask : b.cia.icrMask = c.icrMask
  data : b.cia.icrData = c.icrData ||| causes
  irq : b.irq = (ciaEdges c causes).foldl IrqEdge.apply irq

variable {irq : PaulaInterrupts} {c : CiaState} {causes : UInt8} {b : CiaBus}

theorem CiaRose.start (irq : PaulaInterrupts) (c : CiaState) : CiaRose irq c 0 ⟨c, irq⟩ :=
  ⟨rfl, rfl, UInt8.or_zero.symm, rfl⟩

/-- A change of the CIA that its interrupts do not see. -/
theorem CiaRose.same (h : CiaRose irq c causes b) {c' : CiaState} (hbit : c'.paulaIrqBit = b.cia.paulaIrqBit)
    (hdata : c'.icrData = b.cia.icrData) (hmask : c'.icrMask = b.cia.icrMask) :
    CiaRose irq c causes { b with cia := c' } :=
  ⟨hbit.trans h.bit, hmask.trans h.mask, hdata.trans h.data, h.irq⟩

/-- The second edge of a bit covers the first. -/
theorem edgeBits_again (bits mask : UInt16) (on on' : Bool) :
    edgeBits (edgeBits bits mask on) mask on' = edgeBits bits mask on' := by
  unfold edgeBits
  generalize mask &&& 0x7FFF = m
  apply UInt16.toBitVec_inj.mp
  cases on <;> cases on' <;> ext i hi <;>
    simp only [if_true, if_false, Bool.false_eq_true, UInt16.toBitVec_or, UInt16.toBitVec_and, UInt16.toBitVec_not,
      BitVec.getElem_or, BitVec.getElem_and, BitVec.getElem_not] <;>
    cases m.toBitVec[i] <;> simp

theorem CiaRose.raise (h : CiaRose irq c causes b) {mask : UInt8} (hmask : mask &&& 0x1F = mask) (hne : mask ≠ 0) :
    CiaRose irq c (causes ||| mask) (ciaInterruptRaise b mask) := by
  have hdata : (ciaInterruptRaise b mask).cia.icrData = c.icrData ||| (causes ||| mask) := by
    show b.cia.icrData ||| (mask &&& 0x1F) = _
    rw [hmask, h.data, UInt8.or_assoc]
  have hsome : causes ||| mask ≠ 0 := fun h0 => hne (UInt8.or_eq_zero_iff.mp h0).2
  refine ⟨h.bit, h.mask, hdata, ?_⟩
  have hpending : ciaIrqPending (ciaInterruptRaise b mask).cia = ((c.icrData ||| (causes ||| mask)) &&& c.icrMask != 0) := by
    rw [ciaIrqPending, hdata]
    show (_ &&& b.cia.icrMask != 0) = _
    rw [h.mask]
  have hsync : (ciaInterruptRaise b mask).irq =
      IrqEdge.apply b.irq (.request b.cia.paulaIrqBit (ciaIrqPending (ciaInterruptRaise b mask).cia)) := by
    have hline : (ciaInterruptRaise b mask).irq = if ciaIrqPending (ciaInterruptRaise b mask).cia
        then interruptRaise b.irq b.cia.paulaIrqBit else interruptClear b.irq b.cia.paulaIrqBit := rfl
    rw [hline]
    cases ciaIrqPending (ciaInterruptRaise b mask).cia <;> rfl
  rw [hsync, hpending, h.bit, h.irq]
  unfold ciaEdges
  rw [if_neg hsome]
  split
  · rfl
  · simp only [List.foldl_cons, List.foldl_nil, IrqEdge.apply, interruptUpdate, edgeBits_again]

/-! ## The serial register -/

/-- The bits left of the byte that leaves, or that is next to leave. -/
def serialBitsLeft (c : CiaState) : Nat := ((if c.serialOutBusy then c.serialOutBits else 8) - 1).toNat + 1

/-- `n` underflows of timer A send the last bit of a byte. -/
def serialEnds (c : CiaState) (n : Nat) : Bool :=
  c.cra &&& 0x40 != 0 && (c.serialOutBusy || c.serialOutBufferFull) && decide (serialBitsLeft c ≤ n)

theorem CiaRose.startOutput (h : CiaRose irq c causes b) : CiaRose irq c causes { b with cia := ciaSerialStartOutput b.cia } := by
  unfold ciaSerialStartOutput
  split
  · exact h
  · exact h.same rfl rfl rfl

/-- What the shifter leaves of the rest of the CIA. -/
structure ShifterOnly (c c' : CiaState) : Prop where
  bit : c'.paulaIrqBit = c.paulaIrqBit
  data : c'.icrData = c.icrData
  mask : c'.icrMask = c.icrMask
  cra : c'.cra = c.cra

/-- A shifter with a byte to send has its bits left. -/
theorem startOutput_sends {c : CiaState} (h : (c.serialOutBusy || c.serialOutBufferFull) = true) :
    ShifterOnly c (ciaSerialStartOutput c) ∧ (ciaSerialStartOutput c).serialOutBusy = true ∧
      (ciaSerialStartOutput c).serialOutBits = if c.serialOutBusy then c.serialOutBits else 8 := by
  unfold ciaSerialStartOutput
  cases hbusy : c.serialOutBusy with
  | true => exact ⟨⟨rfl, rfl, rfl, rfl⟩, hbusy, rfl⟩
  | false =>
    rw [hbusy, Bool.false_or] at h
    rw [h]
    exact ⟨⟨rfl, rfl, rfl, rfl⟩, rfl, rfl⟩

/-- One underflow: the register is no output or has nothing to send, or sends a bit, which may be the last. -/
inductive SerialUnderflow (b : CiaBus) : CiaBus → Prop
  | rest (h : ∀ n, serialEnds b.cia n = false) : SerialUnderflow b b
  | bit (c : CiaState) (hsame : ShifterOnly b.cia c) (hbusy : c.serialOutBusy = true)
      (hleft : serialBitsLeft c + 1 = serialBitsLeft b.cia) (hmore : ∀ n, serialEnds b.cia (n + 1) = serialEnds c n) :
      SerialUnderflow b { b with cia := c }
  | last (c : CiaState) (hsame : ShifterOnly b.cia c) (hends : ∀ n, serialEnds b.cia (n + 1) = true) :
      SerialUnderflow b { ciaInterruptRaise { b with cia := c } ciaIcrSp with
        cia := ciaSerialStartOutput (ciaInterruptRaise { b with cia := c } ciaIcrSp).cia }

/-- A bit that is sent and is not the last leaves one less. -/
theorem shiftBit_left {c : CiaState} (hsends : (c.serialOutBusy || c.serialOutBufferFull) = true)
    (hmore : (ciaSerialStartOutput c).serialOutBits - 1 ≠ 0) :
    serialBitsLeft (ciaSerialShiftBit (ciaSerialStartOutput c)) + 1 = serialBitsLeft c := by
  obtain ⟨-, hbusy, hbits⟩ := startOutput_sends hsends
  have hafter : (ciaSerialShiftBit (ciaSerialStartOutput c)).serialOutBusy = true := hbusy
  have hcount : (ciaSerialShiftBit (ciaSerialStartOutput c)).serialOutBits = (ciaSerialStartOutput c).serialOutBits - 1 := rfl
  unfold serialBitsLeft
  rw [hafter, if_pos rfl, hcount, ← hbits]
  generalize (ciaSerialStartOutput c).serialOutBits - 1 = left at hmore
  have hpos : left.toNat ≠ 0 := fun h0 => hmore (UInt8.toNat_inj.mp h0)
  have hone : 1 ≤ left := by
    rw [UInt8.le_iff_toNat_le]
    exact Nat.one_le_iff_ne_zero.mpr hpos
  have hsub : (left - 1).toNat = left.toNat - 1 := UInt8.toNat_sub_of_le _ _ hone
  omega

/-- A register that is an output and has something to send, while its timer underflows. -/
theorem serialUnderflow_sends {b : CiaBus} (hout : b.cia.cra &&& 0x40 ≠ 0)
    (hsends : (b.cia.serialOutBusy || b.cia.serialOutBufferFull) = true) :
    SerialUnderflow b (ciaSerialOnTimerAUnderflow b) := by
  obtain ⟨hsame, hbusy, hbits⟩ := startOutput_sends hsends
  have hmode : (b.cia.cra &&& 0x40 != 0) = true := bne_iff_ne.mpr hout
  unfold ciaSerialOnTimerAUnderflow
  simp only
  rw [if_neg hout, hbusy, Bool.not_true, if_neg Bool.false_ne_true]
  split
  · rename_i hmore
    have hleft := shiftBit_left hsends hmore
    refine .bit _ ⟨hsame.bit, hsame.data, hsame.mask, hsame.cra⟩ hbusy hleft fun n => ?_
    have hcra : (ciaSerialShiftBit (ciaSerialStartOutput b.cia)).cra = b.cia.cra := hsame.cra
    have hafter : (ciaSerialShiftBit (ciaSerialStartOutput b.cia)).serialOutBusy = true := hbusy
    unfold serialEnds
    rw [hsends, hcra, hafter, Bool.true_or, ← hleft, decide_eq_decide.mpr Nat.add_le_add_iff_right]
  · rename_i hlast
    have hzero : (ciaSerialStartOutput b.cia).serialOutBits - 1 = 0 := not_not.mp hlast
    refine .last _ ⟨hsame.bit, hsame.data, hsame.mask, hsame.cra⟩ fun n => ?_
    have hone : serialBitsLeft b.cia = 1 := by
      unfold serialBitsLeft
      rw [← hbits, hzero]
      rfl
    unfold serialEnds
    rw [hmode, hsends, hone, decide_eq_true (Nat.le_add_left 1 n)]
    rfl

theorem serialUnderflow (b : CiaBus) : SerialUnderflow b (ciaSerialOnTimerAUnderflow b) := by
  by_cases hin : b.cia.cra &&& 0x40 = 0
  · have hrest : ciaSerialOnTimerAUnderflow b = b := if_pos hin
    rw [hrest]
    refine .rest fun n => ?_
    rw [serialEnds, hin]
    rfl
  cases hsends : (b.cia.serialOutBusy || b.cia.serialOutBufferFull) with
  | true => exact serialUnderflow_sends hin hsends
  | false =>
    obtain ⟨hbusy, hfull⟩ := Bool.or_eq_false_iff.mp hsends
    have hstart : ciaSerialStartOutput b.cia = b.cia := by
      unfold ciaSerialStartOutput
      rw [hbusy, hfull]
      rfl
    have hrest : ciaSerialOnTimerAUnderflow b = b := by
      unfold ciaSerialOnTimerAUnderflow
      simp only
      rw [if_neg hin, hstart, hbusy]
      rfl
    rw [hrest]
    refine .rest fun n => ?_
    rw [serialEnds, hsends, Bool.and_false, Bool.false_and]

/-- **The register over `n` underflows**: SP comes up if a byte ends. -/
theorem CiaRose.serials (h : CiaRose irq c causes b) (n : Nat) :
    CiaRose irq c (causes ||| (if serialEnds b.cia n then ciaIcrSp else 0)) (ciaSerialOnTimerAUnderflow^[n] b) := by
  induction n generalizing causes b with
  | zero =>
    have hnone : serialEnds b.cia 0 = false := by
      unfold serialEnds serialBitsLeft
      rw [decide_eq_false (Nat.not_succ_le_zero _), Bool.and_false]
    rw [hnone, if_neg Bool.false_ne_true, UInt8.or_zero]
    exact h
  | succ n ih =>
    rw [Function.iterate_succ_apply]
    have hunderflow := serialUnderflow b
    generalize ciaSerialOnTimerAUnderflow b = after at hunderflow ⊢
    cases hunderflow with
    | rest hrest =>
      have hn := ih h
      rw [hrest] at hn ⊢
      exact hn
    | bit c' hsame _ _ hmore =>
      have hn := ih (h.same hsame.bit hsame.data hsame.mask)
      rw [hmore]
      exact hn
    | last c' hsame hends =>
      have hbit := h.same hsame.bit hsame.data hsame.mask
      have hrose : CiaRose irq c (causes ||| ciaIcrSp) (ciaInterruptRaise { b with cia := c' } ciaIcrSp) :=
        hbit.raise (by decide) (by decide)
      have hn := ih hrose.startOutput
      have hagain : ∀ on : Bool, causes ||| ciaIcrSp ||| (if on then ciaIcrSp else 0) = causes ||| ciaIcrSp := by
        intro on
        cases on with
        | true => rw [if_pos rfl, UInt8.or_assoc, UInt8.or_self]
        | false => rw [if_neg Bool.false_ne_true, UInt8.or_zero]
      rw [hagain] at hn
      rw [hends, if_pos rfl]
      exact hn

/-! ## The timers -/

/-- The causes that `ticks` of the E-clock set: an underflow of either timer, and the end of a byte that timer A sends. -/
def ciaTimerCauses (c : CiaState) (ticks : UInt64) : UInt8 :=
  (if (ciaTimerAStep c ticks).2 = 0 then 0
    else ciaIcrTa ||| (if serialEnds c (ciaTimerAStep c ticks).2 then ciaIcrSp else 0)) |||
    (if (ciaTimerBStep c ticks (ciaTimerAStep c ticks).2).2 = 0 then 0 else ciaIcrTb)

/-- What the serial register and timer A leave of timer B. -/
structure TimerBSame (c c' : CiaState) : Prop where
  crb : c'.crb = c.crb
  tbCounter : c'.tbCounter = c.tbCounter
  tbLatch : c'.tbLatch = c.tbLatch
  cntLevel : c'.cntLevel = c.cntLevel

theorem TimerBSame.trans {a b c : CiaState} (h : TimerBSame a b) (h' : TimerBSame b c) : TimerBSame a c :=
  ⟨h'.crb.trans h.crb, h'.tbCounter.trans h.tbCounter, h'.tbLatch.trans h.tbLatch, h'.cntLevel.trans h.cntLevel⟩

theorem TimerBSame.step {c c' : CiaState} (h : TimerBSame c c') (ticks : UInt64) (ufA : Nat) :
    ciaTimerBStep c' ticks ufA = ciaTimerBStep c ticks ufA := by
  unfold ciaTimerBStep
  rw [h.crb, h.tbCounter, h.tbLatch, h.cntLevel]

theorem startOutput_timerB (c : CiaState) : TimerBSame c (ciaSerialStartOutput c) := by
  unfold ciaSerialStartOutput
  split <;> exact ⟨rfl, rfl, rfl, rfl⟩

theorem serial_timerB (b : CiaBus) : TimerBSame b.cia (ciaSerialOnTimerAUnderflow b).cia := by
  have hs := startOutput_timerB b.cia
  unfold ciaSerialOnTimerAUnderflow
  simp only
  split
  · exact ⟨rfl, rfl, rfl, rfl⟩
  split
  · exact hs
  split
  · exact ⟨hs.crb, hs.tbCounter, hs.tbLatch, hs.cntLevel⟩
  · refine TimerBSame.trans ?_ (startOutput_timerB _)
    exact ⟨hs.crb, hs.tbCounter, hs.tbLatch, hs.cntLevel⟩

theorem serials_timerB (b : CiaBus) (n : Nat) : TimerBSame b.cia (ciaSerialOnTimerAUnderflow^[n] b).cia := by
  induction n generalizing b with
  | zero => exact ⟨rfl, rfl, rfl, rfl⟩
  | succ n ih =>
    rw [Function.iterate_succ_apply]
    exact (serial_timerB b).trans (ih _)

/-- The port pin of a timer. -/
theorem underflowOutput_same (c : CiaState) (control : UInt8) (uf : Nat) :
    TimerBSame c (ciaTimerApplyUnderflowOutput c control uf) ∧ ShifterOnly c (ciaTimerApplyUnderflowOutput c control uf) ∧
      serialEnds (ciaTimerApplyUnderflowOutput c control uf) = serialEnds c := by
  unfold ciaTimerApplyUnderflowOutput
  simp only
  repeat' split
  all_goals exact ⟨⟨rfl, rfl, rfl, rfl⟩, ⟨rfl, rfl, rfl, rfl⟩, rfl⟩

theorem timerA_timerB (b : CiaBus) (uf : Nat) : TimerBSame b.cia (ciaTimerAUnderflows b uf).cia := by
  unfold ciaTimerAUnderflows
  split
  · exact ⟨rfl, rfl, rfl, rfl⟩
  · have hraise : TimerBSame b.cia (ciaInterruptRaise b ciaIcrTa).cia := ⟨rfl, rfl, rfl, rfl⟩
    have hpin := hraise.trans (underflowOutput_same _ (ciaInterruptRaise b ciaIcrTa).cia.cra uf).1
    have hserial := serials_timerB { ciaInterruptRaise b ciaIcrTa with
      cia := ciaTimerApplyUnderflowOutput (ciaInterruptRaise b ciaIcrTa).cia (ciaInterruptRaise b ciaIcrTa).cia.cra uf } uf
    have hall := hpin.trans hserial
    exact ⟨hall.crb, hall.tbCounter, hall.tbLatch, hall.cntLevel⟩

/-- **Timer A**, with any number of underflows. -/
theorem CiaRose.timerA (h : CiaRose irq c causes b) (uf : Nat) :
    CiaRose irq c (causes ||| (if uf = 0 then 0 else ciaIcrTa ||| (if serialEnds b.cia uf then ciaIcrSp else 0)))
      (ciaTimerAUnderflows b uf) := by
  unfold ciaTimerAUnderflows
  split
  · rw [UInt8.or_zero]
    exact h
  · have hup : CiaRose irq c (causes ||| ciaIcrTa) (ciaInterruptRaise b ciaIcrTa) := h.raise (by decide) (by decide)
    obtain ⟨-, hpin, hends⟩ := underflowOutput_same (ciaInterruptRaise b ciaIcrTa).cia (ciaInterruptRaise b ciaIcrTa).cia.cra uf
    have hserial := (hup.same hpin.bit hpin.data hpin.mask).serials uf
    have hsame : serialEnds (ciaInterruptRaise b ciaIcrTa).cia = serialEnds b.cia := rfl
    rw [hends, hsame, UInt8.or_assoc] at hserial
    exact hserial.same rfl rfl rfl

/-- **Timer B.** -/
theorem CiaRose.timerB (h : CiaRose irq c causes b) (uf : Nat) :
    CiaRose irq c (causes ||| (if uf = 0 then 0 else ciaIcrTb)) (ciaTimerBUnderflows b uf) := by
  unfold ciaTimerBUnderflows
  split
  · rw [UInt8.or_zero]
    exact h
  · have hup : CiaRose irq c (causes ||| ciaIcrTb) (ciaInterruptRaise b ciaIcrTb) := h.raise (by decide) (by decide)
    obtain ⟨-, hpin, -⟩ := underflowOutput_same (ciaInterruptRaise b ciaIcrTb).cia (ciaInterruptRaise b ciaIcrTb).cia.crb uf
    exact (hup.same hpin.bit hpin.data hpin.mask).same rfl rfl rfl

theorem ciaTimerCauses_none (c : CiaState) : ciaTimerCauses c 0 = 0 := by
  have hA : (ciaTimerAStep c 0).2 = 0 := by
    unfold ciaTimerAStep ciaTimerAdvance
    split <;> rfl
  have hB : (ciaTimerBStep c 0 0).2 = 0 := by
    unfold ciaTimerBStep ciaTimerAdvance
    simp only
    split
    · rfl
    split
    · rfl
    · rw [if_neg fun h => absurd h.2.1 (Nat.lt_irrefl 0)]
  unfold ciaTimerCauses
  rw [hA, hB, if_pos rfl, if_pos rfl, UInt8.or_zero]

/-- **A CIA over its E-clock ticks.** -/
theorem ciaStep_rose (htod : c.tod.ticksPerInc = 0) (irq : PaulaInterrupts) (ticks : UInt64) :
    CiaRose irq c (ciaTimerCauses c ticks) (ciaStep ⟨c, irq⟩ ticks) := by
  rw [ciaStep_eq_timers htod]
  unfold ciaTimersStep ciaTimerAStage ciaTimerBStage
  by_cases hticks : ticks = 0
  · subst hticks
    rw [if_pos rfl, ciaTimerCauses_none]
    exact (CiaRose.start irq c).same rfl rfl rfl
  · rw [if_neg hticks]
    have hstepA : ciaTimerAStep (ciaTimersAdvancePbOutputs c) ticks = ciaTimerAStep c ticks := rfl
    have hstart : CiaRose irq c 0 ⟨{ ciaTimersAdvancePbOutputs c with taCounter := (ciaTimerAStep c ticks).1 }, irq⟩ :=
      (CiaRose.start irq c).same rfl rfl rfl
    have hA := hstart.timerA (ciaTimerAStep c ticks).2
    have hsame := timerA_timerB ⟨{ ciaTimersAdvancePbOutputs c with taCounter := (ciaTimerAStep c ticks).1 }, irq⟩
      (ciaTimerAStep c ticks).2
    have hends : serialEnds { ciaTimersAdvancePbOutputs c with taCounter := (ciaTimerAStep c ticks).1 } = serialEnds c := rfl
    simp only [hstepA]
    rw [hends, UInt8.zero_or] at hA
    generalize ciaTimerAUnderflows ⟨{ ciaTimersAdvancePbOutputs c with taCounter := (ciaTimerAStep c ticks).1 }, irq⟩
      (ciaTimerAStep c ticks).2 = after at hA hsame ⊢
    have hsameC : TimerBSame c after.cia := ⟨hsame.crb, hsame.tbCounter, hsame.tbLatch, hsame.cntLevel⟩
    rw [hsameC.step]
    have hcount : CiaRose irq c _
        { after with cia := { after.cia with tbCounter := (ciaTimerBStep c ticks (ciaTimerAStep c ticks).2).1 } } :=
      hA.same rfl rfl rfl
    exact hcount.timerB _

/-! ## The time of day -/

/-- One of the next `n` pulses takes the counter to the alarm. -/
def todRings (t : CiaTodState) (n : Nat) : Bool := (List.range n).any fun i => (todAdvance (i + 1) t).counter == t.alarm

/-- **A CIA over the pulses of its time of day.** -/
theorem ciaTodPulse_rose (c : CiaState) (irq : PaulaInterrupts) (pulses : UInt32) :
    CiaRose irq c (if todRings c.tod pulses.toNat then ciaIcrAlrm else 0) (ciaTodPulse ⟨c, irq⟩ pulses) := by
  have htod : ∀ n, (ciaTodIncrement ⟨c, irq⟩ n).cia.tod = todAdvance n c.tod := by
    intro n
    induction n with
    | zero => rfl
    | succ n ih =>
      unfold ciaTodIncrement at ih ⊢
      rw [Function.iterate_succ_apply', ciaTodTick_tod, ih, todAdvance_add]
  unfold ciaTodPulse
  generalize pulses.toNat = n
  induction n with
  | zero => exact CiaRose.start irq c
  | succ n ih =>
    have hstate := htod n
    have hnext : (todAdvance n c.tod).counter + 1 &&& 0x00FFFFFF = (todAdvance (n + 1) c.tod).counter := by
      rw [← todAdvance_add]
      rfl
    have hrings : todRings c.tod (n + 1) = (todRings c.tod n || (todAdvance (n + 1) c.tod).counter == c.tod.alarm) := by
      unfold todRings
      rw [List.range_succ, List.any_append, List.any_cons, List.any_nil, Bool.or_false]
    unfold ciaTodIncrement at ih hstate ⊢
    rw [Function.iterate_succ_apply']
    generalize ciaTodTick^[n] ⟨c, irq⟩ = b at ih hstate ⊢
    have hcount : CiaRose irq c (if todRings c.tod n then ciaIcrAlrm else 0)
        { b with cia := { b.cia with tod := { b.cia.tod with counter := (b.cia.tod.counter + 1) &&& 0x00FFFFFF } } } :=
      ih.same rfl rfl rfl
    unfold ciaTodTick
    simp only
    rw [hrings, hstate, hnext]
    rw [hstate, hnext] at hcount
    by_cases halarm : (todAdvance (n + 1) c.tod).counter = c.tod.alarm
    · rw [if_pos (show _ = (todAdvance n c.tod).alarm from halarm), beq_iff_eq.mpr halarm, Bool.or_true, if_pos rfl]
      have hring := hcount.raise (show ciaIcrAlrm &&& 0x1F = ciaIcrAlrm by decide) (by decide)
      have hagain : ∀ on : Bool, (if on then ciaIcrAlrm else 0) ||| ciaIcrAlrm = ciaIcrAlrm := by decide
      rw [hagain] at hring
      exact hring
    · rw [if_neg (show ¬ _ = (todAdvance n c.tod).alarm from halarm), beq_eq_false_iff_ne.mpr halarm, Bool.or_false]
      exact hcount

end Rigel
