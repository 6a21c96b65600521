import Rigel.BeamTrace
import Rigel.BlitCompletion
import Rigel.BlitSlots
import Rigel.BusQuery

/-!
# BlitBalance — the blits that start and end along the clocks

Inside a step the busy flag goes up with a MOVE to BLTSIZE or BLTSIZH and down with the slot that ends the blit, and in no
other way. So over any clocks the starts and the ends differ by the change of the flag (`blit_balance`): a busy blitter is
busy again after them exactly when as many blits start as end. While nothing is started anew the slots that a blit has to go
keep it busy (`BlitLasts.clocks`).
-/

namespace Rigel

/-! ## A busy blitter has a command -/

def BlitValid (a : RigelAgnus) : Prop := a.blitter.busy = true → a.blitter.commandValid = true

theorem blitterWrite_valid {b : BlitterState} (h : b.busy = true → b.commandValid = true) (addr : UInt32)
    (value : UInt16) :
    (blitterWriteReg16 b addr value).busy = true → (blitterWriteReg16 b addr value).commandValid = true := by
  cases hs : blitterStartsAt addr with
  | true =>
    rw [blitterWriteReg16_start b value hs]
    exact fun _ => rfl
  | false =>
    rw [frozenSame_write b hs value]
    exact h

theorem blitterSlot_valid {b : BlitterState} (h : b.busy = true → b.commandValid = true) (mem : ChipRam) :
    (blitterStepDma b mem 1).blitter.busy = true → (blitterStepDma b mem 1).blitter.commandValid = true := by
  cases hbusy : b.busy with
  | true => exact fun _ => (blitterStepDma_keeps (h hbusy) mem 1).valid.trans (h hbusy)
  | false =>
    rw [blitterStepDma_idle mem hbusy 1]
    exact h

/-- The blitter sees a register write, or does not. -/
theorem agnusAfterWrite_blitter (a : RigelAgnus) (addr : UInt32) (value : UInt16) :
    (agnusAfterWrite a addr value).blitter = a.blitter ∨
      (agnusAfterWrite a addr value).blitter = blitterWriteReg16 a.blitter addr value := by
  unfold agnusAfterWrite
  cases rigelCustomDomainForReg addr with
  | agnus =>
    simp only [agnusAfterMmio]
    split
    · exact Or.inr rfl
    · left
      repeat' split
      all_goals rfl
  | denise =>
    left
    simp only [agnusFollowDenise]
    split <;> rfl
  | paula => exact Or.inl rfl
  | unknown => exact Or.inl rfl

theorem slotEffect_valid {a a' : RigelAgnus} (h : BlitValid a) (hs : SlotEffect a a') : BlitValid a' := by
  cases hs with
  | blitter mem => exact blitterSlot_valid h mem
  | copper hc =>
    cases hc with
    | move pc reg value =>
      rcases agnusAfterWrite_blitter { a with copper := { a.copper with fetchPending := false } } reg value with he | he
      · unfold BlitValid
        simp only [he]
        exact h
      · unfold BlitValid
        simp only [he]
        exact blitterWrite_valid h reg value
    | _ => exact h
  | _ => exact h

theorem schedulerAdvance_blitter (ctx : RigelContext) : (schedulerAdvance ctx).agnus.blitter = ctx.agnus.blitter := by
  unfold schedulerAdvance schedulerAtVertb schedulerAtLineStart
  split
  · split <;> rfl
  · split <;> rfl

theorem clock_blitter (ctx : RigelContext) :
    (agnusSlotSchedulerStep ctx).agnus.blitter = (schedulerDispatch (schedulerPrepare ctx)).agnus.blitter :=
  schedulerAdvance_blitter _

theorem blitValid_invariant : AgnusInvariant BlitValid where
  reset _ := fun h => Bool.noConfusion h
  write h hw := by
    cases hw with
    | blitter addr value => exact blitterWrite_valid h addr value
    | _ => exact h
  latch h := h
  sync h := h
  clock {ctx} h := by
    have hready : BlitValid (schedulerRestoreDsken (schedulerPrepare ctx)).agnus := by
      rw [BlitValid, (slotReady ctx).blitter]
      exact h
    have hslot := slotEffect_valid hready
      (dispatchSlot_cases (slotOwner (schedulerPrepare ctx)) (schedulerRestoreDsken (schedulerPrepare ctx))
        (schedulerPrepare ctx).agnus.scheduler.hpos)
    rw [BlitValid, clock_blitter]
    exact hslot
  cycleExact _ h := h

/-! ## Starts and ends -/

/-- The copper writes a size in this clock: it starts a blit, or starts the one in progress anew. -/
def clockSizes (ctx : RigelContext) : Bool := (clockWrite ctx).any fun w => blitterStartsAt w.1

def clockStartsBlit (ctx : RigelContext) : Bool := !ctx.agnus.blitter.busy && clockSizes ctx

/-- The slot of this clock is the blitter's, and its last. -/
def clockEndsBlit (ctx : RigelContext) : Bool :=
  dispatchedOwner ctx == .blitter && (rigelBlitterDomainStepDma ctx.agnus.blitter ctx.ram 1).irq.isSome

def blitStarts (ctx : RigelContext) (n : Nat) : Nat :=
  traceSum (fun x _ => (clockStartsBlit x).toNat) (agnusSlotSchedulerStepUntil ctx) n

def blitEnds (ctx : RigelContext) (n : Nat) : Nat :=
  traceSum (fun x _ => (clockEndsBlit x).toNat) (agnusSlotSchedulerStepUntil ctx) n

theorem agnusAfterWrite_busy (a : RigelAgnus) (addr : UInt32) (value : UInt16) :
    (agnusAfterWrite a addr value).blitter.busy = (a.blitter.busy || blitterStartsAt addr) := by
  cases hs : blitterStartsAt addr with
  | true =>
    have hwrite : (agnusAfterWrite a addr value).blitter = blitterWriteReg16 a.blitter addr value := by
      unfold blitterStartsAt at hs
      rw [Bool.or_eq_true, beq_iff_eq, beq_iff_eq] at hs
      rcases hs with rfl | rfl <;> rfl
    rw [hwrite, blitterWriteReg16_start a.blitter value hs, Bool.or_true]
    rfl
  | false =>
    rw [Bool.or_false]
    rcases agnusAfterWrite_blitter a addr value with he | he
    · rw [he]
    · rw [he, frozenSame_write a.blitter hs value]

/-- The interrupt that ends a blit. -/
theorem lineDmaLoop_ends : ∀ (slots : Nat) {b : BlitterState} {mem : ChipRam},
    (lineDmaLoop slots b mem).irq ≠ none → (lineDmaLoop slots b mem).blitter.busy = false
  | 0, _, _, h => absurd rfl h
  | slots + 1, b, mem, h => by
    unfold lineDmaLoop at h ⊢
    simp only at h ⊢
    split at h
    · exact absurd rfl h
    rename_i hopen
    rw [if_neg hopen]
    split at h
    · rename_i hread
      rw [if_pos hread]
      exact lineDmaLoop_ends slots h
    rename_i hread
    rw [if_neg hread]
    split at h
    · rename_i hdone
      rw [if_pos hdone]
      rfl
    · rename_i hdone
      rw [if_neg hdone]
      exact lineDmaLoop_ends slots h

theorem copyCountdown_ends {b : BlitterState} {mem : ChipRam} {slots : UInt32} (h : (copyCountdown b mem slots).irq ≠ none) :
    (copyCountdown b mem slots).blitter.busy = false := by
  unfold copyCountdown at h ⊢
  simp only at h ⊢
  split at h
  · exact absurd rfl h
  · rename_i hlast
    rw [if_neg hlast]
    rfl

theorem blitterStepDma_ends {b : BlitterState} {mem : ChipRam} {slots : UInt32}
    (h : (blitterStepDma b mem slots).irq ≠ none) : (blitterStepDma b mem slots).blitter.busy = false := by
  unfold blitterStepDma at h ⊢
  split at h
  · exact absurd rfl h
  rename_i hbusy
  rw [if_neg hbusy]
  cases hmode : b.cmd.mode with
  | line =>
    rw [hmode] at h
    exact lineDmaLoop_ends _ h
  | copy =>
    rw [hmode] at h
    simp only at h ⊢
    split at h
    · rename_i hpend
      rw [if_pos hpend]
      split at h
      · exact absurd rfl h
      · exact copyCountdown_ends h
    · rename_i hrun
      rw [if_neg hrun]
      exact copyCountdown_ends h

/-- A slot of the blitter: the interrupt is the end of a blit. -/
theorem blitterSlot_busy {b : BlitterState} (h : b.busy = true → b.commandValid = true) (mem : ChipRam) :
    (blitterStepDma b mem 1).irq.isSome.toNat + (blitterStepDma b mem 1).blitter.busy.toNat = b.busy.toNat := by
  cases hbusy : b.busy with
  | false =>
    rw [blitterStepDma_idle mem hbusy 1, hbusy]
    rfl
  | true =>
    cases hirq : (blitterStepDma b mem 1).irq with
    | none =>
      rw [(blitterStepDma_keeps (h hbusy) mem 1).busy hirq, hbusy]
      rfl
    | some mask =>
      rw [blitterStepDma_ends (by rw [hirq]; exact Option.some_ne_none mask)]
      rfl

/-- What a slot may do to the blitter, and what the clock says of it. -/
inductive BlitterClock (ctx : RigelContext) : BlitterState → Prop
  | same (hends : clockEndsBlit ctx = false) (hsizes : clockSizes ctx = false) : BlitterClock ctx ctx.agnus.blitter
  | write (a : RigelAgnus) (ha : a.blitter = ctx.agnus.blitter) (reg : UInt32) (value : UInt16)
      (hends : clockEndsBlit ctx = false) (hsizes : clockSizes ctx = blitterStartsAt reg) :
      BlitterClock ctx (agnusAfterWrite a reg value).blitter
  | slot (hends : clockEndsBlit ctx = (blitterStepDma ctx.agnus.blitter ctx.ram 1).irq.isSome)
      (hsizes : clockSizes ctx = false) : BlitterClock ctx (blitterStepDma ctx.agnus.blitter ctx.ram 1).blitter

theorem clockEndsBlit_other {ctx : RigelContext} (h : dispatchedOwner ctx ≠ .blitter) : clockEndsBlit ctx = false := by
  rw [clockEndsBlit, beq_eq_false_iff_ne.mpr h, Bool.false_and]

theorem clockSizes_other {ctx : RigelContext} (h : dispatchedOwner ctx ≠ .copper) : clockSizes ctx = false := by
  have hnone : clockWrite ctx = none := if_neg h
  rw [clockSizes, hnone]
  rfl

/-- The copper's slot writes a register or nothing. -/
theorem copperSlot_clock {ctx : RigelContext} (h : dispatchedOwner ctx = .copper) :
    BlitterClock ctx (rigelCopperServiceStepProgram (schedulerRestoreDsken (schedulerPrepare ctx))).agnus.blitter := by
  have hblitter := (slotReady ctx).blitter
  have hclock : clockWrite ctx = copperServiceWrite (schedulerRestoreDsken (schedulerPrepare ctx)) := if_pos h
  have hends := @clockEndsBlit_other ctx (by rw [h]; exact SlotOwner.noConfusion)
  rcases copperService_write (schedulerRestoreDsken (schedulerPrepare ctx)) with ⟨hnone, c, hc⟩ | ⟨reg, value, c, c', hw, -, hc⟩
  · have hquiet : clockSizes ctx = false := by
      rw [clockSizes, hclock, hnone]
      rfl
    rw [hc]
    show BlitterClock ctx (schedulerRestoreDsken (schedulerPrepare ctx)).agnus.blitter
    rw [hblitter]
    exact .same hends hquiet
  · have hsize : clockSizes ctx = blitterStartsAt reg := by
      rw [clockSizes, hclock, hw]
      rfl
    rw [hc]
    show BlitterClock ctx (customRegsWrite16 _ reg value).agnus.blitter
    rw [customRegsWrite16_agnus]
    exact .write (copperWriting _ c).agnus hblitter reg value hends hsize

theorem blitterClock (ctx : RigelContext) : BlitterClock ctx (agnusSlotSchedulerStep ctx).agnus.blitter := by
  have hready := slotReady ctx
  have hother : ∀ {b : BlitterState}, dispatchedOwner ctx ≠ .blitter → dispatchedOwner ctx ≠ .copper →
      b = ctx.agnus.blitter → BlitterClock ctx b := by
    rintro b hb hc rfl
    exact .same (clockEndsBlit_other hb) (clockSizes_other hc)
  rw [clock_blitter]
  unfold schedulerDispatch
  change BlitterClock ctx (dispatchSlot (dispatchedOwner ctx) _ _).agnus.blitter
  cases howner : dispatchedOwner ctx with
  | copper => exact copperSlot_clock howner
  | blitter =>
    have hslot : clockEndsBlit ctx = (blitterStepDma ctx.agnus.blitter ctx.ram 1).irq.isSome := by
      rw [clockEndsBlit, howner]
      rfl
    simp only [dispatchSlot, blitterSlot, raiseIrqSources_agnus]
    rw [hready.blitter, hready.ram]
    exact .slot hslot (clockSizes_other (by rw [howner]; exact SlotOwner.noConfusion))
  | disk =>
    refine hother (by rw [howner]; exact SlotOwner.noConfusion) (by rw [howner]; exact SlotOwner.noConfusion) ?_
    simp only [dispatchSlot, diskSlot, raiseIrqSources_agnus]
    exact hready.blitter
  | bitplane =>
    refine hother (by rw [howner]; exact SlotOwner.noConfusion) (by rw [howner]; exact SlotOwner.noConfusion) ?_
    simp only [dispatchSlot, bitplaneSlot]
    split <;> exact hready.blitter
  | _ => exact hother (by rw [howner]; exact SlotOwner.noConfusion) (by rw [howner]; exact SlotOwner.noConfusion) hready.blitter

/-- **The busy flag over one clock.** -/
theorem clock_busy {ctx : RigelContext} (h : BlitValid ctx.agnus) :
    (clockStartsBlit ctx).toNat + ctx.agnus.blitter.busy.toNat =
      (clockEndsBlit ctx).toNat + (agnusSlotSchedulerStep ctx).agnus.blitter.busy.toNat := by
  unfold clockStartsBlit
  have hclock := blitterClock ctx
  generalize (agnusSlotSchedulerStep ctx).agnus.blitter = b at hclock ⊢
  cases hclock with
  | same hends hsizes =>
    rw [hends, hsizes, Bool.and_false]
  | write a ha reg value hends hsizes =>
    rw [agnusAfterWrite_busy, ha, hends, hsizes]
    cases ctx.agnus.blitter.busy <;> cases blitterStartsAt reg <;> rfl
  | slot hends hsizes =>
    rw [hends, hsizes, Bool.and_false, blitterSlot_busy h]
    exact Nat.zero_add _

/-- **Starts, ends and the flag**, over any clocks. -/
theorem blit_balance {ctx : RigelContext} (h : BlitValid ctx.agnus) (n : Nat) :
    blitStarts ctx n + ctx.agnus.blitter.busy.toNat =
      blitEnds ctx n + (agnusSlotSchedulerStepUntil ctx n).agnus.blitter.busy.toNat := by
  refine traceSum_telescope (p := fun x : RigelContext => x.agnus.blitter.busy.toNat) (fun i => ?_) n
  rw [agnusSlotSchedulerStepUntil_succ]
  exact clock_busy (blitValid_invariant.clocks h i)

/-- The flag is as it was exactly when as many blits start as end. -/
theorem blit_balance_iff {ctx : RigelContext} (h : BlitValid ctx.agnus) (n : Nat) :
    (agnusSlotSchedulerStepUntil ctx n).agnus.blitter.busy = ctx.agnus.blitter.busy ↔ blitStarts ctx n = blitEnds ctx n := by
  have hbal := blit_balance h n
  cases hthen : (agnusSlotSchedulerStepUntil ctx n).agnus.blitter.busy <;> cases hnow : ctx.agnus.blitter.busy <;>
    rw [hthen, hnow] at hbal <;> simp only [Bool.toNat_true, Bool.toNat_false] at hbal <;> simp <;> omega

/-- **A blit that no clock starts anew** has a slot less to go after each. -/
theorem BlitLasts.clock {m : Nat} {ctx : RigelContext} (h : BlitLasts (m + 1) ctx.agnus.blitter) (hs : clockSizes ctx = false) :
    BlitLasts m (agnusSlotSchedulerStep ctx).agnus.blitter := by
  have hclock := blitterClock ctx
  generalize (agnusSlotSchedulerStep ctx).agnus.blitter = b at hclock ⊢
  cases hclock with
  | same _ _ => exact h.fewer
  | write a ha reg value _ hsizes =>
    rw [hs] at hsizes
    rcases agnusAfterWrite_blitter a reg value with he | he
    · rw [he, ha]
      exact h.fewer
    · rw [he, ha]
      exact h.fewer.write hsizes.symm value
  | slot _ _ => exact (h.slot ctx.ram).1

theorem BlitLasts.clocks {m : Nat} : ∀ (k : Nat) {ctx : RigelContext} (_ : BlitLasts (m + k) ctx.agnus.blitter)
    (_ : ∀ i < k, clockSizes (agnusSlotSchedulerStepUntil ctx i) = false),
    BlitLasts m (agnusSlotSchedulerStepUntil ctx k).agnus.blitter
  | 0, _, h, _ => h
  | k + 1, ctx, h, hs => by
    have hone : BlitLasts (m + k) (agnusSlotSchedulerStep ctx).agnus.blitter := h.clock (hs 0 (Nat.succ_pos k))
    exact BlitLasts.clocks k hone fun i hi => hs (i + 1) (Nat.succ_lt_succ hi)

end Rigel
