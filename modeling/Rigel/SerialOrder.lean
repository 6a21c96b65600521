import Rigel.Bits
import Rigel.Reach
import Rigel.Ring
import Rigel.Run

/-!
# SerialOrder — what the serial port sends, and in what order

A word written to SERDAT passes through the buffer and the shift register, and its low byte is put into the host's FIFO
either when its shift starts or when it ends. Which of the two is decided by the instant mode at the start and once more
at the end, and in instant mode a new word does not go through the register at all. `SerialRun` keeps the history beside
the port: what was written, what the host has taken, and the mode in which the word in the register was started.
-/

namespace Rigel

/-! ## A run of the port -/

inductive SerialEvent where
  | write (value : UInt16)
  | serper (value : UInt16)
  | step (cycles : UInt32)
  | pop
  | setTxInstant (enabled : Bool)
  | receive (byte : UInt8)
  | readSerdatr
  deriving Repr, DecidableEq

/-- The port, and its history. `startedInstant` says that the word in the shift register was queued as its shift
started. -/
structure SerialRun where
  serial : SerialState
  written : List UInt8
  popped : List UInt8
  startedInstant : Bool

def serialStart (s : SerialState) : SerialRun := ⟨serialReset s, [], [], false⟩

def lowByte (word : UInt16) : UInt8 := (word &&& 0xFF).toUInt8

/-- The shift ends within `cycles`. -/
def shiftEnds (s : SerialState) (cycles : UInt32) : Bool := s.txShiftBusy && decide (s.txCyclesRemaining ≤ cycles)

/-- The event moves a word into the shift register. -/
def shiftStarts (s : SerialState) : SerialEvent → Bool
  | .write _ => !s.txInstant && !s.txShiftBusy
  | .step cycles => s.txBufferValid && (!s.txShiftBusy || shiftEnds s cycles)
  | _ => false

def serialAfter (s : SerialState) : SerialEvent → SerialState
  | .write value => (serialWriteReg s 0x030 value).1
  | .serper value => (serialWriteReg s 0x032 value).1
  | .step cycles => (serialStep s cycles).1
  | .pop => (serialPopTxByte s).1
  | .setTxInstant enabled => serialSetTxInstant s enabled
  | .receive byte => (serialReceiveByte s byte).1
  | .readSerdatr => (serialReadReg s 0x018).1

def serialEvent (r : SerialRun) (e : SerialEvent) : SerialRun where
  serial := serialAfter r.serial e
  written := match e with
    | .write value => r.written ++ [lowByte value]
    | _ => r.written
  popped := match e with
    | .pop => r.popped ++ (serialPopTxByte r.serial).2.toList
    | _ => r.popped
  startedInstant := if shiftStarts r.serial e then r.serial.txInstant else r.startedInstant

/-- SERDAT is written only while SERDATR shows the transmit buffer empty. -/
def WritesWhenEmpty (r : SerialRun) : SerialEvent → Prop
  | .write _ => serialReadSerdatr r.serial &&& 0x2000 ≠ 0
  | _ => True

instance (r : SerialRun) (e : SerialEvent) : Decidable (WritesWhenEmpty r e) := by
  unfold WritesWhenEmpty
  split <;> infer_instance

/-! ## Where the bytes are -/

def txFifoBytes (s : SerialState) : List UInt8 := ringContents s.txFifo serialTxFifoSize s.txFifoHead s.txFifoCount

/-- The word in the shift register, unless it was queued when its shift started. -/
def shiftByte (s : SerialState) (startedInstant : Bool) : List UInt8 :=
  if s.txShiftBusy && !startedInstant then [lowByte s.txShiftReg] else []

def bufferByte (s : SerialState) : List UInt8 := if s.txBufferValid then [lowByte s.txBuffer] else []

/-- **No byte is lost, duplicated or reordered**: what the host has taken, what waits for it, and what is not queued yet
are the bytes written. -/
def InOrder (r : SerialRun) : Prop :=
  r.popped ++ txFifoBytes r.serial ++ shiftByte r.serial r.startedInstant ++ bufferByte r.serial = r.written

instance (r : SerialRun) : Decidable (InOrder r) := inferInstanceAs (Decidable (_ = _))

/-- A shift ends in the mode in which it started, and no other byte is written past a word that is still to be queued. -/
def ModeKept (r : SerialRun) : SerialEvent → Prop
  | .step cycles => shiftEnds r.serial cycles = true → r.serial.txInstant = r.startedInstant
  | .write value => r.serial.txInstant = true → r.serial.txShiftBusy = true → r.startedInstant = false →
      lowByte value = lowByte r.serial.txShiftReg
  | _ => True

instance (r : SerialRun) (e : SerialEvent) : Decidable (ModeKept r e) := by
  unfold ModeKept
  split <;> infer_instance

/-! ## The ring -/

/-- The tail is the cell behind the newest byte. -/
structure FifoOk (s : SerialState) : Prop where
  head : s.txFifoHead < serialTxFifoSize
  tail : s.txFifoTail = (s.txFifoHead + s.txFifoCount) % serialTxFifoSize

theorem FifoOk.queue {s : SerialState} (hf : FifoOk s) (word : UInt16) : FifoOk (serialQueueTxByte s word) := by
  unfold serialQueueTxByte
  split
  · exact ⟨hf.head, hf.tail⟩
  · refine ⟨hf.head, ?_⟩
    show (s.txFifoTail + 1) % serialTxFifoSize = (s.txFifoHead + (s.txFifoCount + 1)) % serialTxFifoSize
    rw [hf.tail, Nat.mod_add_mod, Nat.add_assoc]

/-- Queueing a word without overflow appends its low byte. -/
theorem FifoOk.queue_bytes {s : SerialState} (hf : FifoOk s) {word : UInt16}
    (h : (serialQueueTxByte s word).txOverflow = false) :
    txFifoBytes (serialQueueTxByte s word) = txFifoBytes s ++ [lowByte word] := by
  unfold serialQueueTxByte at h ⊢
  by_cases hfull : s.txFifoCount ≥ serialTxFifoSize
  · rw [if_pos hfull] at h
    contradiction
  · rw [if_neg hfull]
    unfold txFifoBytes
    simp only [hf.tail]
    exact ringContents_push (Nat.lt_of_not_ge hfull) (lowByte word)

theorem queueTxByte_frame (s : SerialState) (word : UInt16) :
    (serialQueueTxByte s word).txShiftBusy = s.txShiftBusy ∧ (serialQueueTxByte s word).txShiftReg = s.txShiftReg ∧
      (serialQueueTxByte s word).txBufferValid = s.txBufferValid ∧ (serialQueueTxByte s word).txBuffer = s.txBuffer ∧
      (serialQueueTxByte s word).txInstant = s.txInstant := by
  unfold serialQueueTxByte
  split <;> exact ⟨rfl, rfl, rfl, rfl, rfl⟩

/-- An overflow is never taken back. -/
theorem queueTxByte_overflow {s : SerialState} {word : UInt16} (h : (serialQueueTxByte s word).txOverflow = false) :
    s.txOverflow = false := by
  unfold serialQueueTxByte at h
  split at h
  · contradiction
  · exact h

/-- The buffer's word in the shift register. -/
def shiftLoaded (s : SerialState) : SerialState := { s with
  txShiftReg := s.txBuffer
  txShiftBusy := true
  txCyclesRemaining := serialFrameCycles s
  txBufferValid := false }

theorem startTxShift_eq (s : SerialState) :
    (serialStartTxShift s).1 =
      if s.txBufferValid && !s.txShiftBusy then
        (if s.txInstant then serialQueueTxByte (shiftLoaded s) s.txBuffer else shiftLoaded s)
      else s := by
  unfold serialStartTxShift shiftLoaded
  cases s.txBufferValid <;> cases s.txShiftBusy <;> rfl

theorem startTxShift_overflow {s : SerialState} (h : (serialStartTxShift s).1.txOverflow = false) :
    s.txOverflow = false := by
  rw [startTxShift_eq] at h
  split at h
  · split at h
    · exact queueTxByte_overflow (s := shiftLoaded s) h
    · exact h
  · exact h

/-- The host takes the oldest byte. -/
theorem FifoOk.pop {s : SerialState} (hf : FifoOk s) :
    FifoOk (serialPopTxByte s).1 ∧ txFifoBytes s = (serialPopTxByte s).2.toList ++ txFifoBytes (serialPopTxByte s).1 := by
  unfold serialPopTxByte
  by_cases h0 : s.txFifoCount = 0
  · rw [if_pos h0]
    exact ⟨hf, rfl⟩
  · rw [if_neg h0]
    obtain ⟨n, hn⟩ := Nat.exists_eq_succ_of_ne_zero h0
    refine ⟨⟨Nat.mod_lt _ (by decide), ?_⟩, ?_⟩
    · show s.txFifoTail = ((s.txFifoHead + 1) % serialTxFifoSize + (s.txFifoCount - 1)) % serialTxFifoSize
      rw [hf.tail, hn, Nat.mod_add_mod, Nat.succ_sub_one, Nat.add_assoc, Nat.add_comm 1 n]
    · unfold txFifoBytes
      simp only [hn, Nat.succ_sub_one, Option.toList_some, List.singleton_append]
      exact ringContents_pop s.txFifo hf.head n

/-! ## The shift register -/

/-- Between two events a word waits in the buffer only while another is being shifted. -/
structure PortOk (s : SerialState) : Prop where
  fifo : FifoOk s
  idle : s.txShiftBusy = false → s.txBufferValid = false

/-- **The start of a shift** keeps the bytes in their order: the buffer's goes to the FIFO in instant mode, and into the
register otherwise. -/
theorem FifoOk.startTxShift {s : SerialState} (hf : FifoOk s) (hidle : s.txShiftBusy = false) (started : Bool)
    (h : (serialStartTxShift s).1.txOverflow = false) :
    PortOk (serialStartTxShift s).1 ∧
      txFifoBytes (serialStartTxShift s).1 ++
          shiftByte (serialStartTxShift s).1 (if s.txBufferValid then s.txInstant else started) ++
          bufferByte (serialStartTxShift s).1 = txFifoBytes s ++ bufferByte s := by
  rw [startTxShift_eq] at h ⊢
  by_cases hv : s.txBufferValid = true
  · have hload : FifoOk (shiftLoaded s) := ⟨hf.head, hf.tail⟩
    have hb : bufferByte s = [lowByte s.txBuffer] := if_pos hv
    simp only [hidle, hv, hb, Bool.not_false, Bool.and_self, if_true] at h ⊢
    by_cases hi : s.txInstant = true
    · obtain ⟨-, -, hvalid, -, -⟩ := queueTxByte_frame (shiftLoaded s) s.txBuffer
      simp only [hi, if_true] at h ⊢
      refine ⟨⟨hload.queue _, fun _ => hvalid⟩, ?_⟩
      rw [hload.queue_bytes h, bufferByte, hvalid]
      simp [shiftByte, shiftLoaded, txFifoBytes]
    · rw [if_neg hi, shiftByte, bufferByte]
      refine ⟨⟨hload, fun _ => rfl⟩, ?_⟩
      simp [hi, shiftLoaded, txFifoBytes]
  · rw [Bool.not_eq_true] at hv
    simp only [hv, Bool.false_and, Bool.false_eq_true, if_false]
    refine ⟨⟨hf, fun _ => hv⟩, ?_⟩
    simp [shiftByte, hidle]

/-- **The end of a shift** queues the word unless the mode is instant. -/
theorem FifoOk.shiftDone {s : SerialState} (hf : FifoOk s) (h : (serialShiftDone s).txOverflow = false) :
    FifoOk (serialShiftDone s) ∧
      txFifoBytes (serialShiftDone s) = txFifoBytes s ++ (if s.txInstant then [] else [lowByte s.txShiftReg]) := by
  unfold serialShiftDone at h ⊢
  simp only at h ⊢
  by_cases hi : s.txInstant = true
  · rw [if_pos hi, if_pos hi, List.append_nil]
    exact ⟨⟨hf.head, hf.tail⟩, rfl⟩
  · rw [if_neg hi] at h
    rw [if_neg hi, if_neg hi]
    have hdone : FifoOk { s with txCyclesRemaining := 0, txShiftBusy := false, txShiftReg := 0 } := ⟨hf.head, hf.tail⟩
    exact ⟨hdone.queue _, hdone.queue_bytes h⟩

theorem shiftDone_frame (s : SerialState) :
    (serialShiftDone s).txShiftBusy = false ∧ (serialShiftDone s).txBufferValid = s.txBufferValid ∧
      (serialShiftDone s).txBuffer = s.txBuffer ∧ (serialShiftDone s).txInstant = s.txInstant := by
  unfold serialShiftDone
  simp only
  split
  · exact ⟨rfl, rfl, rfl, rfl⟩
  · obtain ⟨hbusy, -, hvalid, hbuf, hinst⟩ := queueTxByte_frame
      { s with txCyclesRemaining := 0, txShiftBusy := false, txShiftReg := 0 } s.txShiftReg
    exact ⟨hbusy, hvalid, hbuf, hinst⟩

/-! ## One event -/

theorem serialReadSerdatr_empty {s : SerialState} (h : serialReadSerdatr s &&& 0x2000 ≠ 0) : s.txBufferValid = false := by
  by_contra hv
  rw [Bool.not_eq_false] at hv
  apply h
  have hrx : s.rxBuffer &&& 0x03FF &&& 0x2000 = 0 := by
    rw [UInt16.and_assoc, show (0x03FF : UInt16) &&& 0x2000 = 0 from rfl, UInt16.and_zero]
  unfold serialReadSerdatr
  simp only [or_and_distrib, hrx, hv, if_true]
  cases s.overrun <;> cases s.rxBufferFull <;> cases s.txShiftBusy <;> cases s.rxdLevel <;> rfl

/-- A step from a shift that does not end, or without one. -/
theorem serialStep_quiet {s : SerialState} (h : PortOk s) {cycles : UInt32} (hend : shiftEnds s cycles = false) :
    ∃ remaining, (serialStep s cycles).1 = { s with txCyclesRemaining := remaining } := by
  unfold serialStep
  by_cases hbusy : s.txShiftBusy = true
  · have hlt : cycles < s.txCyclesRemaining := by
      rw [shiftEnds, hbusy, Bool.true_and, decide_eq_false_iff_not] at hend
      exact UInt32.not_le.mp hend
    rw [if_neg (by simp [hbusy]), if_pos hlt]
    exact ⟨_, rfl⟩
  · rw [Bool.not_eq_true] at hbusy
    rw [if_pos (by simp [hbusy]), startTxShift_eq, if_neg (by simp [h.idle hbusy])]
    exact ⟨s.txCyclesRemaining, rfl⟩

theorem serialStep_end {s : SerialState} {cycles : UInt32} (hend : shiftEnds s cycles = true) :
    (serialStep s cycles).1 = (serialStartTxShift (serialShiftDone s)).1 := by
  rw [shiftEnds, Bool.and_eq_true, decide_eq_true_eq] at hend
  unfold serialStep
  rw [hend.1, if_neg (by decide), if_neg (UInt32.not_lt.mpr hend.2)]

/-- A word in the buffer. -/
def bufferLoaded (s : SerialState) (value : UInt16) : SerialState := { s with txBuffer := value, txBufferValid := true }

/-- The port after SERDAT is written with the buffer empty, in instant mode and out of it. -/
theorem serialWriteSerdat_cases (s : SerialState) (value : UInt16) :
    (serialWriteSerdat s value).1 =
      if s.txInstant then serialQueueTxByte s value
      else if s.txShiftBusy then bufferLoaded s value
      else (serialStartTxShift (bufferLoaded s value)).1 := by
  unfold serialWriteSerdat bufferLoaded
  cases s.txInstant <;> cases s.txShiftBusy <;> rfl

/-- The port stays well formed, whatever happens to it. -/
theorem PortOk.after {s : SerialState} (h : PortOk s) {e : SerialEvent} (ho : (serialAfter s e).txOverflow = false) :
    PortOk (serialAfter s e) := by
  cases e with
  | write value =>
    show PortOk (serialWriteSerdat s value).1
    have ho' : (serialWriteSerdat s value).1.txOverflow = false := ho
    rw [serialWriteSerdat_cases] at ho' ⊢
    by_cases hi : s.txInstant = true
    · rw [if_pos hi]
      obtain ⟨hbusy, -, hvalid, -, -⟩ := queueTxByte_frame s value
      refine ⟨h.fifo.queue value, fun hb => ?_⟩
      rw [hvalid]
      exact h.idle (hbusy.symm.trans hb)
    rw [if_neg hi] at ho' ⊢
    by_cases hbusy : s.txShiftBusy = true
    · rw [if_pos hbusy]
      exact ⟨⟨h.fifo.head, h.fifo.tail⟩, fun hb => absurd (hbusy.symm.trans hb) (by decide)⟩
    · rw [if_neg hbusy] at ho' ⊢
      rw [Bool.not_eq_true] at hbusy
      have hf : FifoOk (bufferLoaded s value) := ⟨h.fifo.head, h.fifo.tail⟩
      exact (hf.startTxShift hbusy false ho').1
  | serper value => exact ⟨⟨h.fifo.head, h.fifo.tail⟩, h.idle⟩
  | step cycles =>
    show PortOk (serialStep s cycles).1
    by_cases hend : shiftEnds s cycles = true
    · have ho' : (serialStep s cycles).1.txOverflow = false := ho
      rw [serialStep_end hend] at ho' ⊢
      exact ((h.fifo.shiftDone (startTxShift_overflow ho')).1.startTxShift (shiftDone_frame s).1 false ho').1
    · rw [Bool.not_eq_true] at hend
      obtain ⟨remaining, he⟩ := serialStep_quiet h hend
      rw [he]
      exact ⟨⟨h.fifo.head, h.fifo.tail⟩, h.idle⟩
  | pop =>
    refine ⟨h.fifo.pop.1, ?_⟩
    show (serialPopTxByte s).1.txShiftBusy = false → (serialPopTxByte s).1.txBufferValid = false
    unfold serialPopTxByte
    split <;> exact h.idle
  | setTxInstant enabled => exact ⟨⟨h.fifo.head, h.fifo.tail⟩, h.idle⟩
  | receive byte => exact ⟨⟨h.fifo.head, h.fifo.tail⟩, h.idle⟩
  | readSerdatr => exact ⟨⟨h.fifo.head, h.fifo.tail⟩, h.idle⟩

structure SerialOk (r : SerialRun) : Prop where
  port : PortOk r.serial
  order : InOrder r

/-- **A write.** It keeps the order unless it is queued past a word that still has to be. -/
theorem SerialOk.write_iff {r : SerialRun} (h : SerialOk r) {value : UInt16} (hv : r.serial.txBufferValid = false)
    (ho : (serialEvent r (.write value)).serial.txOverflow = false) :
    InOrder (serialEvent r (.write value)) ↔ ModeKept r (.write value) := by
  have horder := h.order
  unfold InOrder at horder ⊢
  have hbuf : bufferByte r.serial = [] := by
    rw [bufferByte, hv]
    rfl
  rw [hbuf, List.append_nil] at horder
  have hafter : (serialEvent r (.write value)).serial = (serialWriteSerdat r.serial value).1 := rfl
  have hstarts : (serialEvent r (.write value)).startedInstant =
      if (!r.serial.txInstant && !r.serial.txShiftBusy) = true then r.serial.txInstant else r.startedInstant := rfl
  rw [hafter] at ho
  rw [hafter, hstarts, serialWriteSerdat_cases]
  rw [serialWriteSerdat_cases] at ho
  show r.popped ++ _ ++ _ ++ _ = r.written ++ [lowByte value] ↔ _
  rw [← horder]
  unfold ModeKept
  by_cases hi : r.serial.txInstant = true
  · rw [if_pos hi] at ho
    obtain ⟨hbusy, hreg, hvalid, -, -⟩ := queueTxByte_frame r.serial value
    simp only [hi, if_true, Bool.not_true, Bool.false_and, Bool.false_eq_true, if_false, h.port.fifo.queue_bytes ho]
    simp only [shiftByte, bufferByte, hbusy, hreg, hvalid, hv, Bool.false_eq_true, if_false, List.append_nil,
      List.append_assoc, List.append_cancel_left_eq]
    cases r.serial.txShiftBusy <;> cases r.startedInstant <;> simp [eq_comm]
  rw [if_neg hi] at ho ⊢
  have hloaded : bufferByte (bufferLoaded r.serial value) = [lowByte value] := rfl
  by_cases hbusy : r.serial.txShiftBusy = true
  · rw [if_pos hbusy, if_neg (by simp [hbusy]), hloaded]
    exact iff_of_true rfl (fun hinst => absurd hinst hi)
  · rw [if_neg hbusy] at ho ⊢
    rw [Bool.not_eq_true] at hbusy
    have hf : FifoOk (bufferLoaded r.serial value) := ⟨h.port.fifo.head, h.port.fifo.tail⟩
    have hstart := (hf.startTxShift hbusy r.startedInstant ho).2
    rw [if_pos (show (bufferLoaded r.serial value).txBufferValid = true from rfl), hloaded] at hstart
    have hnone : shiftByte r.serial r.startedInstant = [] := by
      rw [shiftByte, hbusy]
      rfl
    rw [if_pos (by simp [hi, hbusy]), hnone, List.append_nil, List.append_assoc r.popped, List.append_assoc r.popped]
    refine iff_of_true ?_ (fun hinst => absurd hinst hi)
    rw [List.append_assoc r.popped]
    exact congrArg (r.popped ++ ·) hstart

/-- **A step.** It keeps the order unless a shift ends in another mode than it started in. -/
theorem SerialOk.step_iff {r : SerialRun} (h : SerialOk r) {cycles : UInt32}
    (ho : (serialEvent r (.step cycles)).serial.txOverflow = false) :
    InOrder (serialEvent r (.step cycles)) ↔ ModeKept r (.step cycles) := by
  have horder := h.order
  have hafter : (serialEvent r (.step cycles)).serial = (serialStep r.serial cycles).1 := rfl
  rw [hafter] at ho
  unfold ModeKept
  by_cases hend : shiftEnds r.serial cycles = true
  · have hbusy : r.serial.txShiftBusy = true := (Bool.and_eq_true_iff.mp hend).1
    rw [serialStep_end hend] at ho hafter
    obtain ⟨hidle, hvalid, hbuf, hinst⟩ := shiftDone_frame r.serial
    obtain ⟨hf, hbytes⟩ := h.port.fifo.shiftDone (startTxShift_overflow ho)
    have hstart := (hf.startTxShift hidle r.startedInstant ho).2
    have hstarts : (serialEvent r (.step cycles)).startedInstant =
        if (serialShiftDone r.serial).txBufferValid then (serialShiftDone r.serial).txInstant else r.startedInstant := by
      rw [hvalid, hinst]
      show (if (r.serial.txBufferValid && (!r.serial.txShiftBusy || shiftEnds r.serial cycles)) = true then _ else _) = _
      rw [hend, Bool.or_true, Bool.and_true]
    have hbufs : bufferByte (serialShiftDone r.serial) = bufferByte r.serial := by
      rw [bufferByte, bufferByte, hvalid, hbuf]
    unfold InOrder at horder ⊢
    show r.popped ++ _ ++ _ ++ _ = r.written ↔ _
    rw [hafter, hstarts, List.append_assoc r.popped, List.append_assoc r.popped, hstart, hbytes, hbufs, ← horder]
    simp only [shiftByte, hbusy, Bool.true_and, List.append_assoc, List.append_cancel_left_eq,
      List.append_cancel_right_eq, hend, forall_const]
    cases r.serial.txInstant <;> cases r.startedInstant <;> simp
  · rw [Bool.not_eq_true] at hend
    obtain ⟨remaining, he⟩ := serialStep_quiet h.port hend
    have hstarts : (serialEvent r (.step cycles)).startedInstant = r.startedInstant := by
      show (if (r.serial.txBufferValid && (!r.serial.txShiftBusy || shiftEnds r.serial cycles)) = true then _ else _) = _
      rw [hend, Bool.or_false]
      have hidle := h.port.idle
      cases hb : r.serial.txShiftBusy with
      | true => simp
      | false => simp [hidle hb]
    refine iff_of_true ?_ (fun hc => absurd (hend.symm.trans hc) (by decide))
    unfold InOrder at horder ⊢
    rw [hafter, hstarts, he]
    exact horder

/-- What the run has to satisfy for the order to be promised: the guest waits for the buffer, and the FIFO has never
overflowed. -/
def Promised (r : SerialRun) (e : SerialEvent) : Prop :=
  WritesWhenEmpty r e ∧ (serialEvent r e).serial.txOverflow = false

instance (r : SerialRun) (e : SerialEvent) : Decidable (Promised r e) := inferInstanceAs (Decidable (_ ∧ _))

/-- **One event keeps the order exactly when it keeps the mode.** -/
theorem SerialOk.event_iff {r : SerialRun} (h : SerialOk r) {e : SerialEvent} (hp : Promised r e) :
    InOrder (serialEvent r e) ↔ ModeKept r e := by
  cases e with
  | write value => exact h.write_iff (serialReadSerdatr_empty hp.1) hp.2
  | step cycles => exact h.step_iff hp.2
  | pop =>
    refine iff_of_true ?_ trivial
    have horder := h.order
    unfold InOrder at horder ⊢
    rw [h.port.fifo.pop.2, ← List.append_assoc] at horder
    have hsame : (serialPopTxByte r.serial).1.txShiftBusy = r.serial.txShiftBusy ∧
        (serialPopTxByte r.serial).1.txShiftReg = r.serial.txShiftReg ∧
        (serialPopTxByte r.serial).1.txBufferValid = r.serial.txBufferValid ∧
        (serialPopTxByte r.serial).1.txBuffer = r.serial.txBuffer := by
      unfold serialPopTxByte
      split <;> exact ⟨rfl, rfl, rfl, rfl⟩
    obtain ⟨hbusy, hreg, hvalid, hbuf⟩ := hsame
    show r.popped ++ (serialPopTxByte r.serial).2.toList ++ txFifoBytes (serialPopTxByte r.serial).1 ++
      shiftByte (serialPopTxByte r.serial).1 r.startedInstant ++ bufferByte (serialPopTxByte r.serial).1 = r.written
    rw [shiftByte, bufferByte, hbusy, hreg, hvalid, hbuf]
    exact horder
  | serper value => exact iff_of_true h.order trivial
  | setTxInstant enabled => exact iff_of_true h.order trivial
  | receive byte => exact iff_of_true h.order trivial
  | readSerdatr => exact iff_of_true h.order trivial

/-! ## A run -/

theorem serialOk_start (s : SerialState) : SerialOk (serialStart s) := by
  have hhead : 0 < serialTxFifoSize := by decide
  exact ⟨⟨⟨hhead, rfl⟩, fun _ => rfl⟩, rfl⟩

/-- **When the serial port delivers each byte once and in order.** Along a run in which SERDAT is written only while
SERDATR shows the buffer empty and the FIFO never overflows, every state has the written bytes in order exactly when
every event keeps the mode. -/
theorem serial_inOrder_iff (s : SerialState) (events : List SerialEvent)
    (hrun : AlongRun serialEvent Promised (serialStart s) events) :
    AlongRun serialEvent (fun r e => InOrder (serialEvent r e)) (serialStart s) events ↔
      AlongRun serialEvent ModeKept (serialStart s) events :=
  alongRun_iff_of SerialOk (fun _ _ h hp => h.event_iff hp)
    (fun _ _ h hp hm => ⟨h.port.after hp.2, (h.event_iff hp).mpr hm⟩) events _ (serialOk_start s) hrun

/-- Two bytes in turn, the second in instant mode. -/
def twoBytes : List SerialEvent := [.write 0x41, .step 4, .step 10, .pop, .setTxInstant true, .write 0x42, .pop]

theorem serial_inOrder_twoBytes :
    AlongRun serialEvent (fun r e => InOrder (serialEvent r e)) (serialStart SerialState.cleared) twoBytes :=
  (serial_inOrder_iff SerialState.cleared twoBytes (by decide)).mpr (by decide)

/-- A byte whose shift starts before the mode is switched to instant, and ends after, is never queued. -/
theorem serial_loses_byte :
    AlongRun serialEvent Promised (serialStart SerialState.cleared) [.write 0x41, .setTxInstant true, .step 10] ∧
      ¬ InOrder ([SerialEvent.write 0x41, .setTxInstant true, .step 10].foldl serialEvent
        (serialStart SerialState.cleared)) := by
  decide

end Rigel
