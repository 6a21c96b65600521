import Rigel.IrqFlow

/-!
# CiaLine — the interrupt lines of the two CIAs and their bits of INTREQ

A CIA mirrors its line into INTREQ whenever its own state may have changed: an asserted line sets the bit, a released one
clears it. `CiaStepOk` says once what any operation of a CIA does to the registers it is wired to, and every function of
a CIA meets it. What is left to break the mirror is the guest, which may clear the bit of a line that is still asserted.
-/

namespace Rigel

/-! ## One CIA -/

/-- An asserted line has its bit in INTREQ. -/
def LineHeld (c : CiaState) (irq : PaulaInterrupts) : Prop :=
  ciaIrqPending c = true → irq.intreq &&& c.paulaIrqBit ≠ 0

/-- The level is the one that the two registers give. -/
def IplFollows (irq : PaulaInterrupts) : Prop := irq.ipl = interruptComputeIpl irq.intena irq.intreq

/-- A CIA's bit is one that INTREQ can hold. -/
def BitOk (c : CiaState) : Prop := c.paulaIrqBit ≠ 0 ∧ c.paulaIrqBit &&& 0x7FFF = c.paulaIrqBit

/-- What an operation of a CIA may do: its line is held after it, INTENA and every other bit of INTREQ are as before. -/
structure CiaStepOk (b b' : CiaBus) : Prop where
  bit : b'.cia.paulaIrqBit = b.cia.paulaIrqBit
  intena : b'.irq.intena = b.irq.intena
  line : BitOk b.cia → LineHeld b.cia b.irq → LineHeld b'.cia b'.irq
  other : ∀ m, b.cia.paulaIrqBit &&& m = 0 → b'.irq.intreq &&& m = b.irq.intreq &&& m
  ipl : IplFollows b.irq → IplFollows b'.irq

theorem CiaStepOk.refl (b : CiaBus) : CiaStepOk b b := ⟨rfl, rfl, fun _ h => h, fun _ _ => rfl, fun h => h⟩

theorem CiaStepOk.trans {a b c : CiaBus} (h : CiaStepOk a b) (h' : CiaStepOk b c) : CiaStepOk a c := by
  refine ⟨h'.bit.trans h.bit, h'.intena.trans h.intena, fun hb hl => ?_, fun m hm => ?_, fun hi => h'.ipl (h.ipl hi)⟩
  · exact h'.line (by unfold BitOk at hb ⊢; rw [h.bit]; exact hb) (h.line hb hl)
  · rw [h'.other m (by rw [h.bit]; exact hm), h.other m hm]

/-- A change of the CIA that neither its interrupt state nor Paula sees. -/
theorem ciaStepOk_of_same {b : CiaBus} {c : CiaState} (hbit : c.paulaIrqBit = b.cia.paulaIrqBit)
    (hdata : c.icrData = b.cia.icrData) (hmask : c.icrMask = b.cia.icrMask) : CiaStepOk b { b with cia := c } := by
  refine ⟨hbit, rfl, fun _ hl hp => ?_, fun _ _ => rfl, fun hi => hi⟩
  rw [hbit]
  refine hl ?_
  unfold ciaIrqPending at hp ⊢
  rwa [hdata, hmask] at hp

/-- The mirror itself: whatever the line was before, its bit follows it. -/
theorem ciaStepOk_sync {b : CiaBus} {c : CiaState} (hbit : c.paulaIrqBit = b.cia.paulaIrqBit) :
    CiaStepOk b (ciaInterruptSyncIrqLine { b with cia := c }) := by
  refine ⟨hbit, ?_, fun hb _ hp => ?_, fun m hm => ?_, fun _ => ?_⟩
  · unfold ciaInterruptSyncIrqLine
    split <;> rfl
  · have hpend : ciaIrqPending c = true := hp
    simp only [ciaInterruptSyncIrqLine, hpend, if_true, interruptRaise, interruptUpdate, hbit, hb.2]
    rw [UInt16.or_comm]
    exact or_and_ne_zero _ (by rw [UInt16.and_self]; exact hb.1)
  · have hmask : b.cia.paulaIrqBit &&& 0x7FFF &&& m = 0 := by
      rw [UInt16.and_assoc, UInt16.and_comm 0x7FFF m, ← UInt16.and_assoc, hm, UInt16.zero_and]
    simp only [ciaInterruptSyncIrqLine, hbit]
    split
    · exact or_and_of_disjoint _ hmask
    · exact and_not_and_of_disjoint _ hmask
  · simp only [ciaInterruptSyncIrqLine]
    split <;> rfl

theorem ciaStepOk_raise (b : CiaBus) (mask : UInt8) : CiaStepOk b (ciaInterruptRaise b mask) := ciaStepOk_sync rfl

theorem ciaStepOk_readIcr (b : CiaBus) : CiaStepOk b (ciaInterruptReadIcr b).1 := ciaStepOk_sync rfl

theorem ciaStepOk_writeIcr (b : CiaBus) (value : UInt8) : CiaStepOk b (ciaInterruptWriteIcr b value) := ciaStepOk_sync rfl

theorem ciaStepOk_startOutput (b : CiaBus) : CiaStepOk b { b with cia := ciaSerialStartOutput b.cia } := by
  unfold ciaSerialStartOutput
  split
  · exact .refl b
  · exact ciaStepOk_of_same rfl rfl rfl

theorem CiaStepOk.iterate {f : CiaBus → CiaBus} (h : ∀ b, CiaStepOk b (f b)) (n : Nat) (b : CiaBus) :
    CiaStepOk b (f^[n] b) := by
  induction n generalizing b with
  | zero => exact .refl b
  | succ n ih => exact (h b).trans (ih (f b))

theorem ciaStepOk_timerAUnderflow (b : CiaBus) : CiaStepOk b (ciaSerialOnTimerAUnderflow b) := by
  unfold ciaSerialOnTimerAUnderflow
  simp only
  split
  · exact .refl b
  refine (ciaStepOk_startOutput b).trans ?_
  split
  · exact .refl _
  split
  · exact ciaStepOk_of_same rfl rfl rfl
  · refine CiaStepOk.trans ?_ (ciaStepOk_startOutput _)
    refine CiaStepOk.trans ?_ (ciaStepOk_raise _ ciaIcrSp)
    exact ciaStepOk_of_same rfl rfl rfl

theorem ciaStepOk_underflowOutput (b : CiaBus) (control : UInt8) (uf : Nat) :
    CiaStepOk b { b with cia := ciaTimerApplyUnderflowOutput b.cia control uf } := by
  unfold ciaTimerApplyUnderflowOutput
  simp only
  repeat' split
  · exact .refl b
  all_goals exact ciaStepOk_of_same rfl rfl rfl

theorem ciaStepOk_timerAUnderflows (b : CiaBus) (uf : Nat) : CiaStepOk b (ciaTimerAUnderflows b uf) := by
  unfold ciaTimerAUnderflows
  split
  · exact .refl b
  · refine (ciaStepOk_raise b ciaIcrTa).trans ?_
    refine (ciaStepOk_underflowOutput _ (ciaInterruptRaise b ciaIcrTa).cia.cra uf).trans ?_
    refine (CiaStepOk.iterate ciaStepOk_timerAUnderflow uf _).trans ?_
    exact ciaStepOk_of_same rfl rfl rfl

theorem ciaStepOk_timerBUnderflows (b : CiaBus) (uf : Nat) : CiaStepOk b (ciaTimerBUnderflows b uf) := by
  unfold ciaTimerBUnderflows
  split
  · exact .refl b
  · refine (ciaStepOk_raise b ciaIcrTb).trans ?_
    refine (ciaStepOk_underflowOutput _ (ciaInterruptRaise b ciaIcrTb).cia.crb uf).trans ?_
    exact ciaStepOk_of_same rfl rfl rfl

theorem ciaStepOk_timers (b : CiaBus) (ticks : UInt64) : CiaStepOk b (ciaTimersStep b ticks) := by
  unfold ciaTimersStep ciaTimerAStage ciaTimerBStage
  split
  · exact .refl b
  · refine CiaStepOk.trans ?_ (ciaStepOk_timerBUnderflows _ _)
    refine CiaStepOk.trans ?_ (ciaStepOk_of_same rfl rfl rfl)
    refine CiaStepOk.trans ?_ (ciaStepOk_timerAUnderflows _ _)
    exact ciaStepOk_of_same rfl rfl rfl

theorem ciaStepOk_todTick (b : CiaBus) : CiaStepOk b (ciaTodTick b) := by
  unfold ciaTodTick
  simp only
  split
  · refine CiaStepOk.trans ?_ (ciaStepOk_raise _ ciaIcrAlrm)
    exact ciaStepOk_of_same rfl rfl rfl
  · exact ciaStepOk_of_same rfl rfl rfl

theorem ciaStepOk_todPulse (b : CiaBus) (pulses : UInt32) : CiaStepOk b (ciaTodPulse b pulses) :=
  CiaStepOk.iterate ciaStepOk_todTick _ b

theorem ciaStepOk_todStep (b : CiaBus) (ticks : UInt64) : CiaStepOk b (ciaTodStep b ticks) := by
  unfold ciaTodStep
  simp only
  repeat' split
  · exact .refl b
  · refine CiaStepOk.trans ?_ (CiaStepOk.iterate ciaStepOk_todTick _ _)
    exact ciaStepOk_of_same rfl rfl rfl
  · exact ciaStepOk_of_same rfl rfl rfl

theorem ciaStepOk_step (b : CiaBus) (ticks : UInt64) : CiaStepOk b (ciaStep b ticks) := by
  unfold ciaStep
  refine CiaStepOk.trans ?_ (ciaStepOk_todStep _ _)
  refine CiaStepOk.trans ?_ (ciaStepOk_timers _ _)
  exact ciaStepOk_of_same rfl rfl rfl

theorem ciaStepOk_receiveByte (b : CiaBus) (value : UInt8) : CiaStepOk b (ciaSerialReceiveByte b value) := by
  unfold ciaSerialReceiveByte
  split
  · exact .refl b
  · refine CiaStepOk.trans ?_ (ciaStepOk_raise _ ciaIcrSp)
    exact ciaStepOk_of_same rfl rfl rfl

theorem ciaStepOk_readReg (b : CiaBus) (reg : UInt8) : CiaStepOk b (ciaReadReg b reg).1 := by
  unfold ciaReadReg
  simp only
  repeat' split
  · exact .refl b
  · exact .refl b
  · exact ciaStepOk_of_same rfl rfl rfl
  · exact ciaStepOk_of_same rfl rfl rfl
  · exact ciaStepOk_readIcr b
  · exact .refl b

theorem ciaPortsWriteReg_icr (c : CiaState) (reg value : UInt8) :
    (ciaPortsWriteReg c reg value).paulaIrqBit = c.paulaIrqBit ∧ (ciaPortsWriteReg c reg value).icrData = c.icrData ∧
      (ciaPortsWriteReg c reg value).icrMask = c.icrMask := by
  unfold ciaPortsWriteReg
  split <;> exact ⟨rfl, rfl, rfl⟩

theorem ciaTimersWriteReg_icr (c : CiaState) (reg value : UInt8) :
    (ciaTimersWriteReg c reg value).paulaIrqBit = c.paulaIrqBit ∧ (ciaTimersWriteReg c reg value).icrData = c.icrData ∧
      (ciaTimersWriteReg c reg value).icrMask = c.icrMask := by
  unfold ciaTimersWriteReg
  repeat' split
  all_goals exact ⟨rfl, rfl, rfl⟩

theorem ciaTodWrite_icr (c : CiaState) (reg value : UInt8) :
    (ciaTodWrite c reg value).paulaIrqBit = c.paulaIrqBit ∧ (ciaTodWrite c reg value).icrData = c.icrData ∧
      (ciaTodWrite c reg value).icrMask = c.icrMask := by
  unfold ciaTodWrite
  split <;> exact ⟨rfl, rfl, rfl⟩

theorem ciaSerialWriteSdr_icr (c : CiaState) (value : UInt8) :
    (ciaSerialWriteSdr c value).paulaIrqBit = c.paulaIrqBit ∧ (ciaSerialWriteSdr c value).icrData = c.icrData ∧
      (ciaSerialWriteSdr c value).icrMask = c.icrMask := by
  unfold ciaSerialWriteSdr ciaSerialStartOutput
  repeat' split
  all_goals exact ⟨rfl, rfl, rfl⟩

theorem ciaStepOk_writeReg (b : CiaBus) (reg value : UInt8) : CiaStepOk b (ciaWriteReg b reg value) := by
  unfold ciaWriteReg
  simp only
  repeat' split
  · obtain ⟨hb, hd, hm⟩ := ciaPortsWriteReg_icr b.cia (reg &&& 0x0F) value
    exact ciaStepOk_of_same hb hd hm
  · obtain ⟨hb, hd, hm⟩ := ciaTimersWriteReg_icr b.cia (reg &&& 0x0F) value
    exact ciaStepOk_of_same hb hd hm
  · obtain ⟨hb, hd, hm⟩ := ciaTodWrite_icr b.cia (reg &&& 0x0F) value
    exact ciaStepOk_of_same hb hd hm
  · obtain ⟨hb, hd, hm⟩ := ciaSerialWriteSdr_icr b.cia value
    exact ciaStepOk_of_same hb hd hm
  · exact ciaStepOk_writeIcr b value
  · exact .refl b

theorem ciaStepOk_countCnt (b : CiaBus) (pulses : UInt32) : CiaStepOk b (ciaTimersCountCnt b pulses) := by
  unfold ciaTimersCountCnt
  simp only
  split
  · exact .refl b
  · refine CiaStepOk.trans ?_ (ciaStepOk_timerBUnderflows _ _)
    refine CiaStepOk.trans ?_ (ciaStepOk_of_same rfl rfl rfl)
    refine CiaStepOk.trans ?_ (ciaStepOk_timerAUnderflows _ _)
    exact ciaStepOk_of_same rfl rfl rfl

theorem ciaStepOk_cntRising (b : CiaBus) : CiaStepOk b (ciaSerialOnCntRising b) := by
  unfold ciaSerialOnCntRising
  simp only
  generalize (b.cia.serialInShift <<< 1) ||| (if b.cia.spInputLevel then 1 else 0) = shift
  repeat' split
  · exact .refl b
  · exact ciaStepOk_of_same rfl rfl rfl
  · refine CiaStepOk.trans ?_ (ciaStepOk_raise _ ciaIcrSp)
    exact ciaStepOk_of_same rfl rfl rfl

theorem ciaStepOk_cntLevel (b : CiaBus) (level : Bool) : CiaStepOk b (ciaSetCntLevel b level) := by
  unfold ciaSetCntLevel
  simp only
  split
  · refine CiaStepOk.trans ?_ (ciaStepOk_countCnt _ 1)
    refine CiaStepOk.trans ?_ (ciaStepOk_cntRising _)
    exact ciaStepOk_of_same rfl rfl rfl
  · exact ciaStepOk_of_same rfl rfl rfl

theorem ciaStepOk_flagLevel (b : CiaBus) (level : Bool) : CiaStepOk b (ciaSetFlagLevel b level) := by
  unfold ciaSetFlagLevel
  simp only
  split
  · refine CiaStepOk.trans ?_ (ciaStepOk_raise _ ciaIcrFlg)
    exact ciaStepOk_of_same rfl rfl rfl
  · exact ciaStepOk_of_same rfl rfl rfl

/-! ## Both CIAs, over a run -/

/-- A pin of a CIA that no call of the host drives. -/
inductive CiaPin where
  | flag
  | cnt
  | sp
  deriving Repr, DecidableEq

def ciaSetPin (pin : CiaPin) (b : CiaBus) (level : Bool) : CiaBus :=
  match pin with
  | .flag => ciaSetFlagLevel b level
  | .cnt => ciaSetCntLevel b level
  | .sp => ciaSetSpLevel b level

theorem ciaStepOk_pin (pin : CiaPin) (b : CiaBus) (level : Bool) : CiaStepOk b (ciaSetPin pin b level) := by
  cases pin with
  | flag => exact ciaStepOk_flagLevel b level
  | cnt => exact ciaStepOk_cntLevel b level
  | sp => exact ciaStepOk_of_same rfl rfl rfl

/-- What can happen to a machine: a call of the host, or an edge on a pin of one of its CIAs. -/
inductive MachineEvent where
  | call (c : HostCall)
  | pin (id : CiaId) (p : CiaPin) (level : Bool)

def machineEvent (ctx : RigelContext) : MachineEvent → RigelContext
  | .call c => hostCall ctx c
  | .pin .portA p level => onCiaA (fun b => ciaSetPin p b level) ctx
  | .pin .portB p level => onCiaB (fun b => ciaSetPin p b level) ctx

/-- A property of the two CIAs and the interrupt registers that survives the allowed operations on the registers and
everything a CIA does by itself. -/
structure IrqInvariant (Allowed : CiaState → CiaState → IrqOp → Prop)
    (P : CiaState → CiaState → PaulaInterrupts → Prop) : Prop where
  raise : ∀ a b mask, Allowed a b (.raise mask)
  op : ∀ {a b irq op}, Allowed a b op → P a b irq → P a b (op.apply irq)
  ciaA : ∀ {a b irq} {s : CiaBus}, CiaStepOk ⟨a, irq⟩ s → P a b irq → P s.cia b s.irq
  ciaB : ∀ {a b irq} {s : CiaBus}, CiaStepOk ⟨b, irq⟩ s → P a b irq → P a s.cia s.irq
  fresh : ∀ ctx : RigelContext, P (rigelReset ctx).ciaA (rigelReset ctx).ciaB (rigelReset ctx).paula.interrupts

/-- The property at a context. -/
def HoldsAt (P : CiaState → CiaState → PaulaInterrupts → Prop) (ctx : RigelContext) : Prop :=
  P ctx.ciaA ctx.ciaB ctx.paula.interrupts

/-- The register writes of the clocks of a step perform allowed operations only. -/
def ClocksAllowed (Allowed : CiaState → CiaState → IrqOp → Prop) (ctx : RigelContext) (cycles : UInt64) : Prop :=
  ∀ i < cycles.toUInt32.toNat, ∀ addr value,
    clockWrite (agnusSlotSchedulerStepUntil (stepPrologue ctx cycles.toUInt32) i) = some (addr, value) →
    ∀ op, WriteOps addr value op → Allowed ctx.ciaA ctx.ciaB op

/-- The register writes of an event, the CPU's or the copper's, perform allowed operations only. -/
def EventAllowed (Allowed : CiaState → CiaState → IrqOp → Prop) (ctx : RigelContext) : MachineEvent → Prop
  | .call (.customWrite addr value) => ∀ op, WriteOps addr value op → Allowed ctx.ciaA ctx.ciaB op
  | .call (.step cycles) => ClocksAllowed Allowed ctx cycles
  | .call (.stepUntil target) => ctx.cycles < target → ClocksAllowed Allowed ctx (target - ctx.cycles)
  | .call (.loadState s) => Allowed ctx.ciaA ctx.ciaB (.intena (paulaIntSetclr ||| s.intena)) ∧
      Allowed ctx.ciaA ctx.ciaB (.intreq (paulaIntSetclr ||| s.intreq))
  | _ => True

section
variable {Allowed : CiaState → CiaState → IrqOp → Prop} {P : CiaState → CiaState → PaulaInterrupts → Prop}
  (inv : IrqInvariant Allowed P)
include inv

theorem IrqInvariant.moves {a b : CiaState} {irq irq' : PaulaInterrupts} {ops : IrqOp → Prop}
    (hm : IrqMoves ops irq irq') (hops : ∀ op, ops op → Allowed a b op) (h : P a b irq) : P a b irq' :=
  hm.keeps (fun _ op ho hp => inv.op (hops op ho) hp) h

theorem IrqInvariant.raises {a b : CiaState} {irq irq' : PaulaInterrupts} (hm : IrqMoves RaisesOnly irq irq')
    (h : P a b irq) : P a b irq' := by
  refine inv.moves hm (fun op ho => ?_) h
  cases op with
  | raise mask => exact inv.raise a b mask
  | _ => exact ho.elim

theorem IrqInvariant.onCiaA {f : CiaBus → CiaBus} (hf : ∀ b, CiaStepOk b (f b)) {ctx : RigelContext}
    (h : HoldsAt P ctx) : HoldsAt P (onCiaA f ctx) :=
  inv.ciaA (hf ⟨ctx.ciaA, ctx.paula.interrupts⟩) h

theorem IrqInvariant.onCiaB {f : CiaBus → CiaBus} (hf : ∀ b, CiaStepOk b (f b)) {ctx : RigelContext}
    (h : HoldsAt P ctx) : HoldsAt P (onCiaB f ctx) :=
  inv.ciaB (hf ⟨ctx.ciaB, ctx.paula.interrupts⟩) h

theorem IrqInvariant.clocks {ctx : RigelContext} {n : Nat} (h : HoldsAt P ctx)
    (hops : ∀ i < n, ∀ addr value, clockWrite (agnusSlotSchedulerStepUntil ctx i) = some (addr, value) →
      ∀ op, WriteOps addr value op → Allowed ctx.ciaA ctx.ciaB op) :
    HoldsAt P (agnusSlotSchedulerStepUntil ctx n) := by
  induction n with
  | zero => exact h
  | succ n ih =>
    have hn := ih fun i hi => hops i (Nat.lt_succ_of_lt hi)
    have hout := sameOutside_stepUntil ctx n
    have hclock := sameOutside_schedulerStep (agnusSlotSchedulerStepUntil ctx n)
    have hstep : P ctx.ciaA ctx.ciaB
        (agnusSlotSchedulerStep (agnusSlotSchedulerStepUntil ctx n)).paula.interrupts := by
      refine inv.moves (clock_moves _) (fun op ho => ?_) (by rw [← hout.ciaA, ← hout.ciaB]; exact hn)
      rcases ho with ho | ⟨addr, value, hw, ho⟩
      · cases op with
        | raise mask => exact inv.raise _ _ mask
        | _ => exact ho.elim
      · exact hops n (Nat.lt_succ_self n) addr value hw op ho
    rw [agnusSlotSchedulerStepUntil, Function.iterate_succ_apply']
    show P _ _ _
    rw [← agnusSlotSchedulerStepUntil, hclock.ciaA, hclock.ciaB, hout.ciaA, hout.ciaB]
    exact hstep

theorem IrqInvariant.settle (before : BeamState) {ctx : RigelContext} (cycles : UInt32) (h : HoldsAt P ctx) :
    HoldsAt P (chipsetSettle before ctx cycles) := by
  have hout := sameOutside_paulaStep ctx cycles
  have hpaula : HoldsAt P (rigelPaulaStep ctx cycles) := by
    unfold HoldsAt
    rw [hout.ciaA, hout.ciaB]
    exact inv.raises (paulaStep_moves ctx cycles) h
  have htod : HoldsAt P (chipsetTodB before (chipsetTodA before (rigelPaulaStep ctx cycles))) :=
    inv.onCiaB (fun b => ciaStepOk_todPulse b _) (inv.onCiaA (fun b => ciaStepOk_todPulse b _) hpaula)
  unfold chipsetSettle chipsetEclock
  simp only
  split
  · exact inv.onCiaB (fun b => ciaStepOk_step b _) (inv.onCiaA (fun b => ciaStepOk_step b _) htod)
  · exact htod

theorem IrqInvariant.step {ctx : RigelContext} {cycles : UInt64} (h : HoldsAt P ctx)
    (hops : ClocksAllowed Allowed ctx cycles) : HoldsAt P (rigelStep ctx cycles).1 := by
  have hstart : HoldsAt P (stepPrologue ctx cycles.toUInt32) := by
    unfold stepPrologue
    simp only
    split <;> exact h
  have hcia : (stepPrologue ctx cycles.toUInt32).ciaA = ctx.ciaA ∧
      (stepPrologue ctx cycles.toUInt32).ciaB = ctx.ciaB := by
    unfold stepPrologue
    simp only
    split <;> exact ⟨rfl, rfl⟩
  have hrun : HoldsAt P (chipsetRun (clearEventLatch ctx) cycles.toUInt32) := by
    rw [chipsetRun_eq_clocks]
    refine inv.clocks hstart ?_
    rw [hcia.1, hcia.2]
    exact hops
  exact inv.settle _ _ hrun

theorem IrqInvariant.routeDrive {ctx : RigelContext} (h : HoldsAt P ctx) (sel : Nat → Bool) :
    HoldsAt P (routeDrive ctx sel) := by
  have hok : ∀ pra, CiaStepOk ⟨ctx.ciaA, ctx.paula.interrupts⟩ ⟨ciaSetExternalPra ctx.ciaA pra, ctx.paula.interrupts⟩ :=
    fun pra => ciaStepOk_of_same rfl rfl rfl
  exact inv.ciaA (hok _) h

/-- **The property survives every call of the host whose register writes are allowed.** -/
theorem IrqInvariant.hostCall {ctx : RigelContext} (h : HoldsAt P ctx) (c : HostCall)
    (hops : EventAllowed Allowed ctx (.call c)) : HoldsAt P (hostCall ctx c) := by
  cases c with
  | reset => exact inv.fresh ctx
  | step cycles => exact inv.step h hops
  | stepUntil target =>
    simp only [Rigel.hostCall, rigelStepUntil]
    split
    · exact h
    · rename_i hlt
      exact inv.step h (hops (by simpa using hlt))
  | customRead addr =>
    simp only [Rigel.hostCall, customRegsRead16, paulaReadReg]
    repeat' split
    all_goals exact h
  | customWrite addr value =>
    have hout := sameOutside_customWrite ctx addr value
    have hw : P ctx.ciaA ctx.ciaB (customRegsWrite16 ctx addr value).paula.interrupts :=
      inv.moves (customWrite_moves ctx addr value) hops h
    unfold HoldsAt
    rw [Rigel.hostCall, hout.ciaA, hout.ciaB]
    exact hw
  | ciaRead id reg =>
    cases id with
    | portA => exact inv.onCiaA (fun b => ciaStepOk_readReg b reg) h
    | portB => exact inv.onCiaB (fun b => ciaStepOk_readReg b reg) h
  | ciaWrite id reg value =>
    cases id with
    | portA => exact inv.onCiaA (fun b => ciaStepOk_writeReg b reg value) h
    | portB =>
      have hb := inv.onCiaB (fun b => ciaStepOk_writeReg b reg value) h
      simp only [Rigel.hostCall, rigelCiaWrite]
      split
      · refine IrqInvariant.routeDrive inv ?_ _
        exact hb
      · exact hb
  | loadState s => exact inv.op hops.2 (inv.op hops.1 h)
  | setFire port pressed =>
    simp only [Rigel.hostCall, rigelInputSetFire]
    split
    · exact h
    · have hok : ∀ pra, CiaStepOk ⟨ctx.ciaA, ctx.paula.interrupts⟩
          ⟨ciaSetExternalPra ctx.ciaA pra, ctx.paula.interrupts⟩ := fun pra => ciaStepOk_of_same rfl rfl rfl
      exact inv.ciaA (hok _) h
  | floppyInsert drive data size =>
    simp only [Rigel.hostCall, rigelFloppyInsert]
    split
    · exact h
    · refine IrqInvariant.routeDrive inv ?_ _
      exact h
  | floppyEject drive =>
    simp only [Rigel.hostCall, rigelFloppyEject]
    split
    · exact h
    · refine IrqInvariant.routeDrive inv ?_ _
      exact h
  | serialReceive byte =>
    have hout := sameOutside_raise
      { ctx with paula := { ctx.paula with serial := (serialReceiveByte ctx.paula.serial byte).1 } }
      (serialReceiveByte ctx.paula.serial byte).2
    have hr : P ctx.ciaA ctx.ciaB (rigelSerialReceiveByte ctx byte).paula.interrupts :=
      inv.raises (raiseIrqSources_moves rfl) h
    unfold HoldsAt
    rw [Rigel.hostCall, rigelSerialReceiveByte, hout.ciaA, hout.ciaB]
    exact hr
  | keyboardInject keycode pressed => exact inv.onCiaA (fun b => ciaStepOk_receiveByte b _) h
  | _ => exact h

/-- **And every run of calls and pins whose register writes are allowed.** -/
theorem IrqInvariant.run {ctx : RigelContext} (h : HoldsAt P ctx) {events : List MachineEvent}
    (hrun : AlongRun machineEvent (EventAllowed Allowed) ctx events) : HoldsAt P (events.foldl machineEvent ctx) := by
  refine AlongRun.invariant (HoldsAt P) (fun ctx e hp ho => ?_) events ctx h hrun
  cases e with
  | call c => exact inv.hostCall hp c ho
  | pin id p level =>
    cases id with
    | portA => exact inv.onCiaA (fun b => ciaStepOk_pin p b level) hp
    | portB => exact inv.onCiaB (fun b => ciaStepOk_pin p b level) hp

end

/-! ## The mirror -/

/-- PORTS mirrors CIA-A's line and EXTER mirrors CIA-B's, as far as an asserted line goes. -/
structure LinesHeld (a b : CiaState) (irq : PaulaInterrupts) : Prop where
  bitA : a.paulaIrqBit = paulaIntPorts
  bitB : b.paulaIrqBit = paulaIntExter
  lineA : LineHeld a irq
  lineB : LineHeld b irq

/-- A write to INTREQ does not clear the bit of a line that is still asserted. -/
def AckKeeps (a b : CiaState) : IrqOp → Prop
  | .intreq value => value &&& paulaIntSetclr = 0 →
      (ciaIrqPending a = true → value &&& paulaIntPorts = 0) ∧ (ciaIrqPending b = true → value &&& paulaIntExter = 0)
  | _ => True

theorem bitOk_ports {c : CiaState} (h : c.paulaIrqBit = paulaIntPorts) : BitOk c := by
  unfold BitOk
  rw [h]
  decide

theorem bitOk_exter {c : CiaState} (h : c.paulaIrqBit = paulaIntExter) : BitOk c := by
  unfold BitOk
  rw [h]
  decide

/-- Clearing INTREQ keeps a line that the written mask does not touch. -/
theorem lineHeld_writeIntreq {c : CiaState} {irq : PaulaInterrupts} (h : LineHeld c irq) {value : UInt16}
    (hack : value &&& paulaIntSetclr = 0 → ciaIrqPending c = true → value &&& c.paulaIrqBit = 0) :
    LineHeld c (interruptWriteIntreq irq value) := by
  intro hp
  have hbit := h hp
  unfold interruptWriteIntreq interruptUpdate applySetclr
  simp only
  by_cases hset : value &&& 0x8000 = 0
  · have hmask : value &&& 0x7FFF &&& c.paulaIrqBit = 0 := by
      rw [UInt16.and_assoc, UInt16.and_comm 0x7FFF, ← UInt16.and_assoc, hack hset hp, UInt16.zero_and]
    rw [if_neg (not_not_intro hset), and_not_and_of_disjoint _ hmask]
    exact hbit
  · rw [if_pos hset]
    exact or_and_ne_zero _ hbit

theorem lineHeld_op {c : CiaState} {irq : PaulaInterrupts} (h : LineHeld c irq) (hbit : blitterIntreqBlit &&& 0x7FFF &&& c.paulaIrqBit = 0)
    (op : IrqOp) (hack : ∀ value, op = .intreq value → value &&& paulaIntSetclr = 0 → ciaIrqPending c = true →
      value &&& c.paulaIrqBit = 0) : LineHeld c (op.apply irq) := by
  cases op with
  | raise mask => exact fun hp => or_and_ne_zero _ (h hp)
  | ackBlit =>
    intro hp
    simp only [IrqOp.apply, interruptClear, interruptUpdate]
    rw [and_not_and_of_disjoint _ hbit]
    exact h hp
  | intena value => exact h
  | intreq value => exact lineHeld_writeIntreq h (hack value rfl)

theorem lineHeld_other {c : CiaState} {b b' : CiaBus} (hok : CiaStepOk b b') (hdis : b.cia.paulaIrqBit &&& c.paulaIrqBit = 0)
    (h : LineHeld c b.irq) : LineHeld c b'.irq := by
  intro hp
  rw [hok.other _ hdis]
  exact h hp

theorem linesHeld_invariant : IrqInvariant AckKeeps LinesHeld where
  raise _ _ _ := trivial
  op {a b irq op} hack h := by
    refine ⟨h.bitA, h.bitB, lineHeld_op h.lineA (by rw [h.bitA]; decide) op ?_,
      lineHeld_op h.lineB (by rw [h.bitB]; decide) op ?_⟩
    · rintro value rfl hset hp
      rw [h.bitA]
      exact (hack hset).1 hp
    · rintro value rfl hset hp
      rw [h.bitB]
      exact (hack hset).2 hp
  ciaA {a b irq s} hok h := by
    refine ⟨hok.bit.trans h.bitA, h.bitB, hok.line (bitOk_ports h.bitA) h.lineA, lineHeld_other hok ?_ h.lineB⟩
    simp only [h.bitA, h.bitB]
    decide
  ciaB {a b irq s} hok h := by
    refine ⟨h.bitA, hok.bit.trans h.bitB, lineHeld_other hok ?_ h.lineA, hok.line (bitOk_exter h.bitB) h.lineB⟩
    simp only [h.bitA, h.bitB]
    decide
  fresh ctx := by
    have hA : ciaIrqPending (rigelReset ctx).ciaA = ciaIrqPending (ciaInit .portA) := rfl
    have hB : ciaIrqPending (rigelReset ctx).ciaB = ciaIrqPending (ciaInit .portB) := rfl
    refine ⟨rfl, rfl, fun hp => ?_, fun hp => ?_⟩
    · exact absurd (hA.symm.trans hp) (by decide)
    · exact absurd (hB.symm.trans hp) (by decide)

/-- **No lost CIA interrupt.** In every state of every run of calls and pins in which no write to INTREQ, by the CPU or
by a copper MOVE, clears the bit of a line that is still asserted, an asserted line has its bit in INTREQ. -/
theorem ciaLines_held (config : RigelConfig) (ram : ChipRam) (events : List MachineEvent)
    (hrun : AlongRun machineEvent (EventAllowed AckKeeps) (rigelCreate config ram) events) :
    (ciaIrqPending (events.foldl machineEvent (rigelCreate config ram)).ciaA = true →
      (events.foldl machineEvent (rigelCreate config ram)).paula.interrupts.intreq &&& paulaIntPorts ≠ 0) ∧
    (ciaIrqPending (events.foldl machineEvent (rigelCreate config ram)).ciaB = true →
      (events.foldl machineEvent (rigelCreate config ram)).paula.interrupts.intreq &&& paulaIntExter ≠ 0) := by
  have hfresh : HoldsAt LinesHeld (rigelCreate config ram) := linesHeld_invariant.fresh _
  have h := linesHeld_invariant.run hfresh hrun
  refine ⟨fun hp => ?_, fun hp => ?_⟩
  · have hl := h.lineA hp
    rwa [h.bitA] at hl
  · have hl := h.lineB hp
    rwa [h.bitB] at hl

/-- CIA-A's timer A counts down from 5 and may interrupt. -/
def timerCalls : List HostCall :=
  [.ciaWrite .portA 0xD 0x81, .ciaWrite .portA 0x4 0x05, .ciaWrite .portA 0x5 0x00, .ciaWrite .portA 0xE 0x01, .step 40]

def timerMachine : RigelContext := timerCalls.foldl hostCall palMachine

/-- The timer has run out and its interrupt is enabled. -/
theorem ciaLines_held_timer :
    ciaIrqPending timerMachine.ciaA = true ∧ timerMachine.paula.interrupts.intreq &&& paulaIntPorts ≠ 0 := by
  have hquiet : ∀ i < (40 : UInt64).toUInt32.toNat,
      clockWrite (agnusSlotSchedulerStepUntil (stepPrologue (timerCalls.dropLast.foldl hostCall palMachine) 40) i) =
        none := by decide +kernel
  have hp : ciaIrqPending timerMachine.ciaA = true := by decide +kernel
  refine ⟨hp, (ciaLines_held _ _ (timerCalls.map .call) ⟨trivial, trivial, trivial, trivial, ?_, trivial⟩).1 hp⟩
  intro i hi addr value hw
  exact absurd (hw.symm.trans (hquiet i hi)) (by simp)

/-- A handler that clears INTREQ and leaves ICR for later: the line is still asserted, and INTREQ does not show it. -/
theorem ciaLine_hidden :
    Reachable (customRegsWrite16 timerMachine 0x09C 0x0008) ∧
      ciaIrqPending (customRegsWrite16 timerMachine 0x09C 0x0008).ciaA = true ∧
      (customRegsWrite16 timerMachine 0x09C 0x0008).paula.interrupts.intreq &&& paulaIntPorts = 0 := by
  refine ⟨(palMachine_reachable.calls timerCalls).call (.customWrite 0x09C 0x0008), ?_, ?_⟩
  · decide +kernel
  · decide +kernel

end Rigel
