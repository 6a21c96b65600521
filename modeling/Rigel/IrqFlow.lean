import Mathlib.Logic.Relation
import Rigel.Bits
import Rigel.Invariant
import Rigel.BusRun

/-!
# IrqFlow — what can move the interrupt registers

Every change of INTENA and INTREQ is one of four operations of the interrupt domain. This module says once which of them
a register write, a colour clock and a step can perform: sources are raised anywhere, BLTSIZE acknowledges the blitter,
and only a write to INTENA or INTREQ, by the CPU or by a copper MOVE, does anything else.
-/

namespace Rigel

/-! ## Operations -/

/-- One operation on the interrupt registers. -/
inductive IrqOp where
  | raise (mask : UInt16)
  | ackBlit
  | intena (value : UInt16)
  | intreq (value : UInt16)

def IrqOp.apply (irq : PaulaInterrupts) : IrqOp → PaulaInterrupts
  | .raise mask => interruptRaise irq mask
  | .ackBlit => interruptClear irq blitterIntreqBlit
  | .intena value => interruptWriteIntena irq value
  | .intreq value => interruptWriteIntreq irq value

/-- The second state comes from the first by operations of the allowed kinds. -/
def IrqMoves (allowed : IrqOp → Prop) : PaulaInterrupts → PaulaInterrupts → Prop :=
  Relation.ReflTransGen fun irq irq' => ∃ op, allowed op ∧ irq' = op.apply irq

theorem IrqMoves.refl {allowed : IrqOp → Prop} (irq : PaulaInterrupts) : IrqMoves allowed irq irq :=
  Relation.ReflTransGen.refl

theorem IrqMoves.trans {allowed : IrqOp → Prop} {a b c : PaulaInterrupts} (h : IrqMoves allowed a b)
    (h' : IrqMoves allowed b c) : IrqMoves allowed a c :=
  Relation.ReflTransGen.trans h h'

theorem IrqMoves.one {allowed : IrqOp → Prop} {irq : PaulaInterrupts} (op : IrqOp) (h : allowed op) :
    IrqMoves allowed irq (op.apply irq) :=
  Relation.ReflTransGen.single ⟨op, h, rfl⟩

theorem IrqMoves.mono {allowed allowed' : IrqOp → Prop} (h : ∀ op, allowed op → allowed' op) {a b : PaulaInterrupts}
    (hm : IrqMoves allowed a b) : IrqMoves allowed' a b := by
  refine Relation.ReflTransGen.mono ?_ a b hm
  rintro irq irq' ⟨op, ho, e⟩
  exact ⟨op, h op ho, e⟩

/-- What every allowed operation keeps, the moves keep. -/
theorem IrqMoves.keeps {allowed : IrqOp → Prop} {P : PaulaInterrupts → Prop} {a b : PaulaInterrupts}
    (hm : IrqMoves allowed a b) (hstep : ∀ irq op, allowed op → P irq → P (op.apply irq)) (h : P a) : P b := by
  induction hm with
  | refl => exact h
  | tail _ hop ih =>
    obtain ⟨op, ho, rfl⟩ := hop
    exact hstep _ op ho ih

/-- The operations that need no register write: sources are raised. -/
def RaisesOnly : IrqOp → Prop
  | .raise _ => True
  | _ => False

/-- The operations that a write of `value` to register `addr` can perform. -/
def WriteOps (addr : UInt32) (value : UInt16) : IrqOp → Prop
  | .raise _ => True
  | .ackBlit => addr = 0x058
  | .intena v => addr = regIntena ∧ v = value
  | .intreq v => addr = regIntreq ∧ v = value

theorem raiseIrqSources_moves {ctx : RigelContext} {masks : List UInt16} {irq : PaulaInterrupts}
    (h : ctx.paula.interrupts = irq) : IrqMoves RaisesOnly irq (raiseIrqSources ctx masks).paula.interrupts := by
  subst h
  induction masks generalizing ctx with
  | nil => exact .refl _
  | cons m ms ih =>
    have hone : IrqMoves RaisesOnly ctx.paula.interrupts (rigelChipsetRaiseIrqSource ctx m).paula.interrupts :=
      IrqMoves.one (.raise m) trivial
    exact hone.trans ih

theorem raisesOnly_writeOps {addr : UInt32} {value : UInt16} (op : IrqOp) (h : RaisesOnly op) :
    WriteOps addr value op := by
  cases op with
  | raise mask => trivial
  | _ => exact h.elim

/-! ## A register write -/

theorem agnusWrite_moves (ctx : RigelContext) (addr : UInt32) (value : UInt16) :
    IrqMoves (WriteOps addr value) ctx.paula.interrupts (rigelAgnusMmioWrite ctx addr value).paula.interrupts := by
  unfold rigelAgnusMmioWrite agnusWriteBlitter agnusWriteBeamcon0
  split
  · split
    · rename_i he
      exact IrqMoves.one .ackBlit he
    · exact .refl _
  · repeat' split
    all_goals exact .refl _

theorem paulaWrite_moves (ctx : RigelContext) (addr : UInt32) (value : UInt16) :
    IrqMoves (WriteOps addr value) ctx.paula.interrupts (paulaWriteReg ctx addr value).paula.interrupts := by
  unfold paulaWriteReg
  repeat' split
  · exact .refl _
  · exact .refl _
  · refine IrqMoves.mono raisesOnly_writeOps ?_
    exact raiseIrqSources_moves rfl
  · refine IrqMoves.mono raisesOnly_writeOps ?_
    exact raiseIrqSources_moves rfl
  · simp only [paulaWriteInterrupts, rigelContextWriteReg, interruptWriteReg]
    split
    · exact IrqMoves.one (.intena value) ⟨rfl, rfl⟩
    · exact IrqMoves.one (.intreq value) ⟨rfl, rfl⟩
    · exact .refl _
  · exact .refl _

/-- **What a register write can do to the interrupt registers.** -/
theorem customWrite_moves (ctx : RigelContext) (addr : UInt32) (value : UInt16) :
    IrqMoves (WriteOps addr value) ctx.paula.interrupts (customRegsWrite16 ctx addr value).paula.interrupts := by
  unfold customRegsWrite16
  split
  · exact .refl _
  · cases rigelCustomDomainForReg addr with
    | agnus => exact agnusWrite_moves ctx addr value
    | denise => exact .refl _
    | paula => exact paulaWrite_moves ctx addr value
    | unknown => exact .refl _

/-! ## A clock -/

/-- The operations of a register write that may not happen. -/
def MaybeWriteOps (write : Option (UInt32 × UInt16)) (op : IrqOp) : Prop :=
  RaisesOnly op ∨ ∃ addr value, write = some (addr, value) ∧ WriteOps addr value op

theorem copperService_moves (ctx : RigelContext) :
    IrqMoves (MaybeWriteOps (copperServiceWrite ctx)) ctx.paula.interrupts
      (rigelCopperServiceStepProgram ctx).paula.interrupts := by
  rcases copperService_write ctx with ⟨-, c, hc⟩ | ⟨reg, value, c, c', hw, -, hc⟩
  · rw [hc]
    exact .refl _
  · rw [hc]
    exact (customWrite_moves (copperWriting ctx c) reg value).mono fun op ho => Or.inr ⟨reg, value, hw, ho⟩

theorem dispatchSlot_moves {owner : SlotOwner} (h : owner ≠ .copper) (ctx : RigelContext) (hpos : UInt16) :
    IrqMoves RaisesOnly ctx.paula.interrupts (dispatchSlot owner ctx hpos).paula.interrupts := by
  cases owner with
  | copper => exact absurd rfl h
  | disk => exact raiseIrqSources_moves rfl
  | blitter => exact raiseIrqSources_moves rfl
  | bitplane =>
    simp only [dispatchSlot, bitplaneSlot]
    split <;> exact .refl _
  | _ => exact .refl _

theorem schedulerDispatch_moves (ctx : RigelContext) :
    IrqMoves (MaybeWriteOps (clockWrite ctx)) ctx.paula.interrupts
      (schedulerDispatch (schedulerPrepare ctx)).paula.interrupts := by
  have hp : (schedulerRestoreDsken (schedulerPrepare ctx)).paula.interrupts = ctx.paula.interrupts :=
    congrArg RigelPaula.interrupts (slotReady ctx).paula
  unfold schedulerDispatch clockWrite
  by_cases ho : slotOwner (schedulerPrepare ctx) = .copper
  · rw [ho, if_pos rfl, ← hp]
    exact copperService_moves _
  · have hm := dispatchSlot_moves ho (schedulerRestoreDsken (schedulerPrepare ctx))
      (schedulerPrepare ctx).agnus.scheduler.hpos
    rw [hp] at hm
    exact hm.mono fun op h => Or.inl h

theorem schedulerAdvance_moves (ctx : RigelContext) :
    IrqMoves RaisesOnly ctx.paula.interrupts (schedulerAdvance ctx).paula.interrupts := by
  have hvertb : ∀ c : RigelContext, IrqMoves RaisesOnly c.paula.interrupts (schedulerAtVertb c).paula.interrupts := by
    intro c
    unfold schedulerAtVertb
    split
    · exact IrqMoves.one (.raise paulaIntVertb) trivial
    · exact .refl _
  have hadv := hvertb (schedulerAtLineStart (schedulerMoveBeam ctx))
  rw [(lineStarted _).paula] at hadv
  exact hadv

/-- **What a clock can do to the interrupt registers.** -/
theorem clock_moves (ctx : RigelContext) :
    IrqMoves (MaybeWriteOps (clockWrite ctx)) ctx.paula.interrupts (agnusSlotSchedulerStep ctx).paula.interrupts :=
  (schedulerDispatch_moves ctx).trans ((schedulerAdvance_moves _).mono fun _ h => Or.inl h)

/-! ## The settling -/

theorem paulaStep_moves (ctx : RigelContext) (ticks : UInt32) :
    IrqMoves RaisesOnly ctx.paula.interrupts (rigelPaulaStep ctx ticks).paula.interrupts := by
  have hdisk : IrqMoves RaisesOnly ctx.paula.interrupts
      (paulaStepDisk (paulaStepAudio ctx ticks) ticks).paula.interrupts := raiseIrqSources_moves rfl
  exact hdisk.trans (raiseIrqSources_moves rfl)

end Rigel
