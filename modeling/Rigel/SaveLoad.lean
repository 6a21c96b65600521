import Rigel.IrqPriority

/-!
# SaveLoad — a snapshot saved and loaded again

`rigel_load_state` restores the interrupt registers by writing them with the set bit on, so it can add requests and
enables to the target and can take none away. The round trip is exact when the target has nothing that the snapshot
lacks, and then only.
-/

namespace Rigel

/-- The bytes of a `rigel_snapshot_t`: a 64-bit counter, two registers, and the padding to the counter's alignment. -/
def rigelSnapshotSize : Nat := 16

/-- `rigel_save_state` into a buffer of the given size. -/
def rigelSaveState (ctx : RigelContext) (bufferSize : Nat) : Option RigelSnapshot :=
  if bufferSize < rigelSnapshotSize then none else some (rigelTakeSnapshot ctx)

/-! ## Registers of fifteen bits -/

/-- INTENA and INTREQ hold no bit 15: it is the set bit of the writes. -/
structure FifteenBits (irq : PaulaInterrupts) : Prop where
  intena : irq.intena &&& 0x8000 = 0
  intreq : irq.intreq &&& 0x8000 = 0

theorem low_and_top (value : UInt16) : value &&& 0x7FFF &&& 0x8000 = 0 := by
  rw [UInt16.and_assoc, show (0x7FFF : UInt16) &&& 0x8000 = 0 from rfl, UInt16.and_zero]

theorem applySetclr_top {reg : UInt16} (h : reg &&& 0x8000 = 0) (value : UInt16) :
    applySetclr reg value &&& 0x8000 = 0 := by
  unfold applySetclr
  split
  · rw [or_and_of_disjoint _ (low_and_top value)]
    exact h
  · rw [and_not_and_of_disjoint _ (low_and_top value)]
    exact h

theorem FifteenBits.op {irq : PaulaInterrupts} (h : FifteenBits irq) (op : IrqOp) : FifteenBits (op.apply irq) := by
  cases op with
  | raise mask =>
    refine ⟨h.intena, ?_⟩
    exact (or_and_of_disjoint _ (low_and_top mask)).trans h.intreq
  | ackBlit =>
    refine ⟨h.intena, ?_⟩
    exact (and_not_and_of_disjoint _ (low_and_top blitterIntreqBlit)).trans h.intreq
  | intena value => exact ⟨applySetclr_top h.intena value, h.intreq⟩
  | intreq value => exact ⟨h.intena, applySetclr_top h.intreq value⟩

/-- A CIA raises and clears the bit it is wired to, which is not bit 15. -/
structure FifteenBitsWired (a b : CiaState) (irq : PaulaInterrupts) : Prop where
  bitA : a.paulaIrqBit = paulaIntPorts
  bitB : b.paulaIrqBit = paulaIntExter
  bits : FifteenBits irq

theorem fifteenBits_invariant : IrqInvariant (fun _ _ _ => True) FifteenBitsWired where
  raise _ _ _ := trivial
  op _ h := ⟨h.bitA, h.bitB, h.bits.op _⟩
  ciaA {a b irq s} hok h := by
    refine ⟨hok.bit.trans h.bitA, h.bitB, ⟨?_, ?_⟩⟩
    · rw [hok.intena]
      exact h.bits.intena
    · rw [hok.other _ (by simp only [h.bitA]; decide)]
      exact h.bits.intreq
  ciaB {a b irq s} hok h := by
    refine ⟨h.bitA, hok.bit.trans h.bitB, ⟨?_, ?_⟩⟩
    · rw [hok.intena]
      exact h.bits.intena
    · rw [hok.other _ (by simp only [h.bitB]; decide)]
      exact h.bits.intreq
  fresh _ := by
    have hbits : FifteenBits attachedInterrupts := ⟨by decide, by decide⟩
    exact ⟨rfl, rfl, hbits⟩

theorem Reachable.fifteenBits {ctx : RigelContext} (h : Reachable ctx) : FifteenBits ctx.paula.interrupts := by
  suffices hwired : HoldsAt FifteenBitsWired ctx from hwired.bits
  induction h with
  | create config ram => exact fifteenBits_invariant.fresh _
  | call _ c ih => exact fifteenBits_invariant.hostCall ih c (eventAllowed_true _ _)

/-! ## Loading -/

/-- Writing a register's value with the set bit on adds its bits. -/
theorem applySetclr_set (reg : UInt16) {value : UInt16} (h : value &&& 0x8000 = 0) :
    applySetclr reg (paulaIntSetclr ||| value) = reg ||| value := by
  have hset : (paulaIntSetclr ||| value) &&& 0x8000 ≠ 0 := by
    rw [or_and_of_disjoint _ h]
    decide
  have hlow : (paulaIntSetclr ||| value) &&& 0x7FFF = value := by
    rw [or_and_distrib, show paulaIntSetclr &&& 0x7FFF = 0 from rfl, UInt16.zero_or]
    exact and_low_of_top h
  unfold applySetclr
  rw [if_pos hset, hlow]

/-- **What loading leaves.** The target keeps its bits and gets the snapshot's besides. -/
theorem loadState_interrupts (ctx : RigelContext) {irq : PaulaInterrupts} (h : FifteenBits irq) (cycles : UInt64) :
    (rigelLoadState ctx ⟨cycles, irq.intreq, irq.intena⟩).paula.interrupts =
      interruptUpdate (ctx.paula.interrupts.intena ||| irq.intena) (ctx.paula.interrupts.intreq ||| irq.intreq) := by
  simp only [rigelLoadState, interruptWriteIntreq, interruptWriteIntena, interruptUpdate, applySetclr_set _ h.intena,
    applySetclr_set _ h.intreq]

/-- Loading `c2` with `c1`'s snapshot gives `c1`'s snapshot and level back, and what `c2` had in its interrupt registers
made no difference. -/
structure RoundTrips (c1 c2 : RigelContext) (s : RigelSnapshot) : Prop where
  snapshot : rigelTakeSnapshot (rigelLoadState c2 s) = rigelTakeSnapshot c1
  ipl : (rigelLoadState c2 s).paula.interrupts.ipl = c1.paula.interrupts.ipl
  independent : (rigelLoadState c2 s).paula.interrupts =
    (rigelLoadState { c2 with paula := { c2.paula with interrupts := interruptReset } } s).paula.interrupts

/-- The target has no request and no enable that the saved machine lacks. -/
def NothingExtra (c1 c2 : RigelContext) : Prop :=
  c2.paula.interrupts.intena &&& ~~~c1.paula.interrupts.intena = 0 ∧
    c2.paula.interrupts.intreq &&& ~~~c1.paula.interrupts.intreq = 0

instance (c1 c2 : RigelContext) : Decidable (NothingExtra c1 c2) := inferInstanceAs (Decidable (_ ∧ _))

/-- **When a saved state comes back.** Exactly when the target has no interrupt bit that the snapshot lacks. -/
theorem saveLoad_roundTrips_iff {c1 c2 : RigelContext} (h1 : Reachable c1) {bufferSize : Nat} {s : RigelSnapshot}
    (hs : rigelSaveState c1 bufferSize = some s) : RoundTrips c1 c2 s ↔ NothingExtra c1 c2 := by
  have hsave : s = ⟨c1.cycles, c1.paula.interrupts.intreq, c1.paula.interrupts.intena⟩ := by
    unfold rigelSaveState at hs
    split at hs
    · contradiction
    · exact (Option.some.inj hs).symm
  subst hsave
  have hipl := h1.iplFollows
  have hload := fun c => loadState_interrupts c h1.fifteenBits c1.cycles
  unfold NothingExtra
  rw [← or_eq_right_iff, ← or_eq_right_iff]
  constructor
  · intro h
    have hsnap := h.snapshot
    simp only [rigelTakeSnapshot, hload, interruptUpdate, RigelSnapshot.mk.injEq] at hsnap
    exact ⟨hsnap.2.2, hsnap.2.1⟩
  · rintro ⟨hena, hreq⟩
    refine ⟨?_, ?_, ?_⟩
    · simp only [rigelTakeSnapshot, hload, interruptUpdate, hena, hreq]
      rfl
    · rw [hload, hena, hreq]
      exact hipl.symm
    · rw [hload, hload, hena, hreq]
      simp only [interruptReset, UInt16.zero_or]

/-- INTEN and VERTB enabled, and VERTB requested. -/
def vertbMachine : RigelContext :=
  [HostCall.customWrite 0x09A 0xC020, .customWrite 0x09C 0x8020].foldl hostCall palMachine

theorem vertbMachine_reachable : Reachable vertbMachine := palMachine_reachable.calls _

/-- Into a machine as created. -/
theorem saveLoad_roundTrips_fresh : RoundTrips vertbMachine palMachine ⟨0, 0x0020, 0x4020⟩ := by
  have hs : rigelSaveState vertbMachine 16 = some ⟨0, 0x0020, 0x4020⟩ := by decide +kernel
  exact (saveLoad_roundTrips_iff vertbMachine_reachable hs).mpr (by decide +kernel)

/-- The snapshot of a machine as created does not take the request and the enable back. -/
theorem saveLoad_keeps_extra :
    Reachable palMachine ∧ Reachable vertbMachine ∧ rigelSaveState palMachine 16 = some ⟨0, 0, 0⟩ ∧
      ¬ RoundTrips palMachine vertbMachine ⟨0, 0, 0⟩ := by
  refine ⟨palMachine_reachable, vertbMachine_reachable, by decide +kernel, fun h => ?_⟩
  have hlevel : (rigelLoadState vertbMachine ⟨0, 0, 0⟩).paula.interrupts.ipl ≠ palMachine.paula.interrupts.ipl := by
    decide +kernel
  exact hlevel h.ipl

end Rigel
