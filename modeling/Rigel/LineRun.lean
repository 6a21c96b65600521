import Rigel.BeamTrace
import Rigel.BusRun
import Rigel.SlotCoherence

/-!
# LineRun — the clocks of a line, and what the host does between them

A run here is bus events and calls of the host in any order; a step of the host stands in it as its prologue, its clocks
and its settling, so that a condition on each clock meets every clock.
-/

namespace Rigel

inductive LineEvent where
  | bus (e : BusEvent)
  | call (c : HostCall)

def lineEvent (ctx : RigelContext) : LineEvent → RigelContext
  | .bus e => busEvent ctx e
  | .call c => hostCall ctx c

def LineEvent.IsClock : LineEvent → Prop
  | .bus .clock => True
  | _ => False

theorem LineEvent.eq_clock {e : LineEvent} (h : e.IsClock) : e = .bus .clock := by
  cases e with
  | bus e =>
    cases e with
    | clock => rfl
    | _ => exact absurd h id
  | call c => exact absurd h id

/-- The call is not one that brings clocks of its own, and not a reset. -/
def LineEvent.Unrolled : LineEvent → Prop
  | .call .reset => False
  | .call (.step _) => False
  | .call (.stepUntil _) => False
  | _ => True

instance : DecidablePred LineEvent.IsClock
  | .bus .clock => .isTrue trivial
  | .bus (.write _ _) => .isFalse id
  | .bus (.stepBegin _) => .isFalse id
  | .bus (.stepEnd _ _) => .isFalse id
  | .call _ => .isFalse id

instance (e : LineEvent) : Decidable e.Unrolled := by
  unfold LineEvent.Unrolled
  split <;> infer_instance

/-- The clocks among the events. -/
def clocksIn (es : List LineEvent) : Nat := es.countP (fun e => decide e.IsClock)

theorem clocksIn_concat (es : List LineEvent) (e : LineEvent) :
    clocksIn (es ++ [e]) = clocksIn es + if e.IsClock then 1 else 0 := by
  simp [clocksIn, List.countP_append, List.countP_singleton]

theorem clocksIn_replicate (n : Nat) : clocksIn (List.replicate n (.bus .clock)) = n := by
  have hclock : decide (LineEvent.bus .clock).IsClock = true := by decide
  simp [clocksIn, List.countP_replicate, hclock]

theorem lineEvent_clocks : ∀ (n : Nat) (ctx : RigelContext),
    (List.replicate n (LineEvent.bus .clock)).foldl lineEvent ctx = agnusSlotSchedulerStepUntil ctx n
  | 0, _ => rfl
  | n + 1, ctx => lineEvent_clocks n (agnusSlotSchedulerStep ctx)

/-- The register write of an event between two clocks. -/
def LineEvent.writes : LineEvent → Option (UInt32 × UInt16)
  | .bus (.write addr value) => some (addr, value)
  | .call (.customWrite addr value) => some (addr, value)
  | _ => none

/-- Agnus but for the copper and the blitter. -/
def SameLine (a a' : RigelAgnus) : Prop := a' = { a with copper := a'.copper, blitter := a'.blitter }

theorem SameLine.refl (a : RigelAgnus) : SameLine a a := rfl

/-- **Between two clocks Agnus changes by register writes**, but for the event latch and the blitter's cost model. -/
theorem lineEvent_agnus {ctx : RigelContext} (h : AgnusOk ctx.agnus) {e : LineEvent} (hu : e.Unrolled)
    (hc : ¬ e.IsClock) :
    (∃ addr value, e.writes = some (addr, value) ∧ (lineEvent ctx e).agnus = agnusAfterWrite ctx.agnus addr value) ∨
      (e.writes = none ∧ SameLine ctx.agnus (lineEvent ctx e).agnus) := by
  cases e with
  | bus e =>
    cases e with
    | clock => exact absurd trivial hc
    | write addr value => exact .inl ⟨addr, value, rfl, customRegsWrite16_agnus ctx addr value⟩
    | stepBegin cycles =>
      refine .inr ⟨rfl, ?_⟩
      show SameLine ctx.agnus (stepPrologue ctx cycles).agnus
      unfold stepPrologue
      simp only
      split
      · rfl
      · unfold SameLine
        rw [← h.dma]
        rfl
    | stepEnd before cycles =>
      refine .inr ⟨rfl, ?_⟩
      show SameLine ctx.agnus (chipsetSettle before ctx cycles).agnus
      rw [(chipsetSettle_frame before ctx cycles).1]
      exact .refl _
  | call c =>
    have hagnus := hostCall_agnus ctx c
    cases c with
    | reset => exact absurd hu id
    | step cycles => exact absurd hu id
    | stepUntil target => exact absurd hu id
    | customWrite addr value => exact .inl ⟨addr, value, rfl, hagnus⟩
    | setCycleExact on => exact .inr ⟨rfl, rfl⟩
    | _ =>
      refine .inr ⟨rfl, ?_⟩
      show SameLine ctx.agnus (hostCall ctx _).agnus
      rw [hagnus]
      exact .refl _

/-- **A property of Agnus that survives the host's calls survives the events of a line.** -/
theorem AgnusInvariant.lineEvent {P : RigelAgnus → Prop} (inv : AgnusInvariant P) {ctx : RigelContext} (h : P ctx.agnus)
    (e : LineEvent) : P (lineEvent ctx e).agnus := by
  cases e with
  | bus e =>
    cases e with
    | clock => exact inv.clock h
    | write addr value =>
      have hwrite := inv.write h (agnusAfterWrite_cases ctx.agnus addr value)
      rw [← customRegsWrite16_agnus] at hwrite
      exact hwrite
    | stepBegin cycles =>
      have hlatch := inv.latch h
      show P (stepPrologue ctx cycles).agnus
      unfold stepPrologue
      simp only
      split
      · exact hlatch
      · exact inv.sync hlatch
    | stepEnd before cycles =>
      have hsettle := (chipsetSettle_frame before ctx cycles).1
      rw [← hsettle] at h
      exact h
  | call c => exact inv.hostCall h c

theorem lineEvent_ok {ctx : RigelContext} (h : AgnusOk ctx.agnus) (e : LineEvent) :
    AgnusOk (lineEvent ctx e).agnus := agnusOk_invariant.lineEvent h e

/-- The beam keeps its place between two clocks. -/
theorem lineEvent_position {ctx : RigelContext} (h : AgnusOk ctx.agnus) {e : LineEvent} (hu : e.Unrolled)
    (hc : ¬ e.IsClock) : SamePosition ctx.agnus.beam (lineEvent ctx e).agnus.beam := by
  rcases lineEvent_agnus h hu hc with ⟨addr, value, -, hw⟩ | ⟨-, hs⟩
  · rw [hw]
    exact agnusWrite_position (agnusAfterWrite_cases _ _ _)
  · rw [hs]
    exact ⟨rfl, rfl, rfl⟩

/-! ## The register store -/

/-- A register write stores at its own index, and an interrupt at INTREQ's. -/
theorem customRegsWrite16_store (ctx : RigelContext) {addr i : UInt32} (hi : i ≠ 0x4E) (hne : i ≠ addr >>> 1)
    (value : UInt16) : (customRegsWrite16 ctx addr value).customRegs i = ctx.customRegs i := by
  unfold customRegsWrite16
  split
  · rfl
  · split
    · rw [agnusWrite_customRegs]
      unfold agnusStore
      repeat' split
      all_goals first
        | rfl
        | exact customRegsStore_of_ne _ hne _
        | (subst addr; exact customRegsStore_of_ne _ hne _)
    · exact paulaWrite_customRegs ctx hi hne value
    · exact customRegsStore_of_ne _ hne _
    · exact customRegsStore_of_ne _ hne _

/-- The indices of BPL1MOD and BPL2MOD in the store. -/
def isModuloIndex (i : UInt32) : Prop := i = 0x84 ∨ i = 0x85

theorem isModuloIndex.ne_intreq {i : UInt32} (h : isModuloIndex i) : i ≠ 0x4E := by
  rcases h with rfl | rfl <;> decide

theorem customRegsWrite16_modulo (ctx : RigelContext) {addr i : UInt32} (hi : isModuloIndex i) (h1 : addr ≠ 0x108)
    (h2 : addr ≠ 0x10A) (value : UInt16) : (customRegsWrite16 ctx addr value).customRegs i = ctx.customRegs i := by
  by_cases hvalid : rigelCustomIsValidReg addr = true
  · refine customRegsWrite16_store ctx hi.ne_intreq (fun e => ?_) value
    have heven : addr.toNat % 2 = 0 := by
      simp only [rigelCustomIsValidReg, Bool.and_eq_true, beq_iff_eq] at hvalid
      have hbit := congrArg UInt32.toNat hvalid.1
      rw [UInt32.toNat_and] at hbit
      simp only [UInt32.reduceToNat, Nat.and_one_is_mod] at hbit
      exact hbit
    have hhalf : i.toNat = addr.toNat / 2 := by
      rw [e, UInt32.toNat_shiftRight]
      simp only [UInt32.reduceToNat, Nat.reduceMod, Nat.shiftRight_eq_div_pow, Nat.pow_one]
    rcases hi with rfl | rfl
    · refine h1 (UInt32.toNat_inj.mp ?_)
      simp only [UInt32.reduceToNat] at hhalf ⊢
      omega
    · refine h2 (UInt32.toNat_inj.mp ?_)
      simp only [UInt32.reduceToNat] at hhalf ⊢
      omega
  · unfold customRegsWrite16
    rw [if_pos (by simpa using hvalid)]

theorem settle_modulo {i : UInt32} (hi : isModuloIndex i) (before : BeamState) (ctx : RigelContext) (cycles : UInt32) :
    (chipsetSettle before ctx cycles).customRegs i = ctx.customRegs i := by
  have hpaula : (rigelPaulaStep ctx cycles).customRegs i = ctx.customRegs i := by
    simp only [rigelPaulaStep, paulaStepSerial, paulaStepDisk]
    rw [raiseIrqSources_customRegs _ _ hi.ne_intreq, raiseIrqSources_customRegs _ _ hi.ne_intreq]
    rfl
  unfold chipsetSettle chipsetEclock
  simp only
  split <;> exact hpaula

/-- Between two clocks the modulos change by writes to them. -/
theorem lineEvent_modulo {i : UInt32} (hi : isModuloIndex i) (ctx : RigelContext) {e : LineEvent} (hu : e.Unrolled)
    (hc : ¬ e.IsClock) (hw : ∀ addr value, e.writes = some (addr, value) → addr ≠ 0x108 ∧ addr ≠ 0x10A) :
    (lineEvent ctx e).customRegs i = ctx.customRegs i := by
  cases e with
  | bus e =>
    cases e with
    | clock => exact absurd trivial hc
    | write addr value =>
      obtain ⟨h1, h2⟩ := hw addr value rfl
      exact customRegsWrite16_modulo ctx hi h1 h2 value
    | stepBegin cycles =>
      show (stepPrologue ctx cycles).customRegs i = ctx.customRegs i
      unfold stepPrologue
      simp only
      split <;> rfl
    | stepEnd before cycles => exact settle_modulo hi before ctx cycles
  | call c =>
    cases c with
    | reset => exact absurd hu id
    | step cycles => exact absurd hu id
    | stepUntil target => exact absurd hu id
    | customWrite addr value =>
      obtain ⟨h1, h2⟩ := hw addr value rfl
      exact customRegsWrite16_modulo ctx hi h1 h2 value
    | customRead addr =>
      simp only [lineEvent, hostCall, customRegsRead16, paulaReadReg]
      repeat' split
      all_goals rfl
    | ciaRead id reg => cases id <;> rfl
    | ciaWrite id reg value =>
      cases id with
      | portA => rfl
      | portB =>
        simp only [lineEvent, hostCall, rigelCiaWrite]
        split <;> rfl
    | setFire port pressed =>
      simp only [lineEvent, hostCall, rigelInputSetFire]
      split <;> rfl
    | floppyInsert drive data size =>
      simp only [lineEvent, hostCall, rigelFloppyInsert]
      split <;> rfl
    | floppyEject drive =>
      simp only [lineEvent, hostCall, rigelFloppyEject]
      split <;> rfl
    | serialReceive byte =>
      simp only [lineEvent, hostCall, rigelSerialReceiveByte]
      rw [raiseIrqSources_customRegs _ _ hi.ne_intreq]
    | loadState snapshot =>
      have hne : i ≠ regIntena >>> 1 ∧ i ≠ regIntreq >>> 1 := by
        rcases hi with rfl | rfl <;> decide
      exact (customRegsStore_of_ne _ hne.2 _).trans (customRegsStore_of_ne _ hne.1 _)
    | _ => rfl

end Rigel
