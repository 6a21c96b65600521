import Rigel.BlitFrozen
import Rigel.Reach
import Rigel.Bits

/-!
# BlitTriggers — BLTSIZE against BLTSIZV and BLTSIZH

A blit starts with the write of BLTSIZE, or with the write of BLTSIZH after BLTSIZV. Both freeze the same command and set
the same clock; only the first acknowledges the BLIT interrupt of the blit before.
-/

namespace Rigel

def regBltsize : UInt32 := 0x058
def regBltsizv : UInt32 := 0x05C
def regBltsizh : UInt32 := 0x05E

/-- A blit of `w` words by `h` lines started by BLTSIZE. -/
def startBySize (ctx : RigelContext) (w h : UInt16) : RigelContext :=
  customRegsWrite16 ctx regBltsize ((h <<< 6) ||| w)

/-- The same blit started by the two ECS registers. -/
def startByEcs (ctx : RigelContext) (w h : UInt16) : RigelContext :=
  customRegsWrite16 (customRegsWrite16 ctx regBltsizv h) regBltsizh w

/-- The same command, the same timing state and the same pending interrupts. -/
def SameStart (ctx ctx' : RigelContext) : Prop :=
  FrozenSame ctx.agnus.blitter ctx'.agnus.blitter ∧
    ctx'.paula.interrupts.intreq = ctx.paula.interrupts.intreq

/-! ## The sizes -/

/-- The two fields of BLTSIZE. -/
theorem bltsize_fields {w h : UInt16} (hw : w < 64) (hh : h < 1024) :
    ((h <<< 6) ||| w) &&& 0x003F = w ∧ (((h <<< 6) ||| w) >>> 6) &&& 0x03FF = h := by
  have hw' : w.toNat < 64 := UInt16.lt_iff_toNat_lt.mp hw
  have hh' : h.toNat < 1024 := UInt16.lt_iff_toNat_lt.mp hh
  have hsize : ((h <<< 6) ||| w).toNat = 2 ^ 6 * h.toNat + w.toNat := by
    rw [UInt16.toNat_or, UInt16.toNat_shiftLeft, Nat.two_pow_add_eq_or_of_lt hw', Nat.mul_comm]
    congr 1
    show h.toNat <<< 6 % 2 ^ 16 = _
    rw [Nat.shiftLeft_eq, Nat.mod_eq_of_lt (by omega)]
  constructor
  · apply UInt16.toNat_inj.mp
    rw [UInt16.toNat_and, hsize]
    show (2 ^ 6 * h.toNat + w.toNat) &&& (2 ^ 6 - 1) = w.toNat
    rw [Nat.and_two_pow_sub_one_eq_mod]
    omega
  · apply UInt16.toNat_inj.mp
    rw [UInt16.toNat_and, UInt16.toNat_shiftRight, hsize]
    show ((2 ^ 6 * h.toNat + w.toNat) >>> 6) &&& (2 ^ 10 - 1) = h.toNat
    rw [Nat.and_two_pow_sub_one_eq_mod, Nat.shiftRight_eq_div_pow]
    omega

theorem and_mask_of_lt {x : UInt16} (k : Nat) {m : UInt16} (hm : m.toNat = 2 ^ k - 1) (hx : x.toNat < 2 ^ k) :
    x &&& m = x := by
  apply UInt16.toNat_inj.mp
  rw [UInt16.toNat_and, hm, Nat.and_two_pow_sub_one_eq_mod, Nat.mod_eq_of_lt hx]

/-! ## The two triggers -/

theorem start_intreq (ctx : RigelContext) (w h : UInt16) :
    (startBySize ctx w h).paula.interrupts.intreq = ctx.paula.interrupts.intreq &&& ~~~paulaIntBlit ∧
      (startByEcs ctx w h).paula.interrupts.intreq = ctx.paula.interrupts.intreq :=
  ⟨rfl, rfl⟩

/-- Two register files that a command is built from in the same way. -/
theorem beginCommand_frozen {b : BlitterState} {r r' : BlitterRegs} (h : r' = { r with bltsize := r'.bltsize }) :
    FrozenSame (blitterBeginCommand { b with regs := r }) (blitterBeginCommand { b with regs := r' }) := by
  rw [h]
  rfl

/-- **The same blit starts either way**, whatever the chipset was doing. -/
theorem start_frozen (ctx : RigelContext) {w h : UInt16} (hw : 0 < w ∧ w < 64) (hh : 0 < h ∧ h < 1024) :
    FrozenSame (startBySize ctx w h).agnus.blitter (startByEcs ctx w h).agnus.blitter := by
  obtain ⟨hwidth, hheight⟩ := bltsize_fields hw.2 hh.2
  have hw0 : w ≠ 0 := fun e => absurd hw.1 (by rw [e]; decide)
  have hh0 : h ≠ 0 := fun e => absurd hh.1 (by rw [e]; decide)
  have hw' : w.toNat < 64 := UInt16.lt_iff_toNat_lt.mp hw.2
  have hh' : h.toNat < 1024 := UInt16.lt_iff_toNat_lt.mp hh.2
  have hecsw : w &&& 0x07FF = w := and_mask_of_lt 11 rfl (by omega)
  have hecsh : h &&& 0x7FFF = h := and_mask_of_lt 15 rfl (by omega)
  have hsize : blitterWriteRegs ctx.agnus.blitter.regs regBltsize ((h <<< 6) ||| w) =
      { ctx.agnus.blitter.regs with bltsize := (h <<< 6) ||| w, bltsizh := w, bltsizv := h } := by
    show { ctx.agnus.blitter.regs with
      bltsize := (h <<< 6) ||| w
      bltsizh := if ((h <<< 6) ||| w) &&& 0x003F = 0 then 64 else ((h <<< 6) ||| w) &&& 0x003F
      bltsizv := if (((h <<< 6) ||| w) >>> 6) &&& 0x03FF = 0 then 1024 else (((h <<< 6) ||| w) >>> 6) &&& 0x03FF } = _
    rw [hwidth, hheight, if_neg hw0, if_neg hh0]
  have hecs : blitterWriteRegs (blitterWriteRegs ctx.agnus.blitter.regs regBltsizv h) regBltsizh w =
      { ctx.agnus.blitter.regs with bltsizh := w, bltsizv := h } := by
    show { ctx.agnus.blitter.regs with
      bltsizv := if h &&& 0x7FFF = 0 then 32768 else h &&& 0x7FFF
      bltsizh := if w &&& 0x07FF = 0 then 2048 else w &&& 0x07FF } = _
    rw [hecsw, hecsh, if_neg hw0, if_neg hh0]
  show FrozenSame
    (blitterBeginCommand { ctx.agnus.blitter with
      regs := blitterWriteRegs ctx.agnus.blitter.regs regBltsize ((h <<< 6) ||| w) })
    (blitterBeginCommand { ctx.agnus.blitter with
      regs := blitterWriteRegs (blitterWriteRegs ctx.agnus.blitter.regs regBltsizv h) regBltsizh w })
  rw [hsize, hecs]
  exact beginCommand_frozen rfl

/-- **When both triggers agree**: no BLIT interrupt is pending. -/
theorem blitTriggers_agree_iff (ctx : RigelContext) (w h : UInt16) (hw : 0 < w ∧ w < 64) (hh : 0 < h ∧ h < 1024) :
    SameStart (startBySize ctx w h) (startByEcs ctx w h) ↔ ctx.paula.interrupts.intreq &&& paulaIntBlit = 0 := by
  obtain ⟨hsize, hecs⟩ := start_intreq ctx w h
  unfold SameStart
  rw [hsize, hecs, eq_comm, and_not_eq_self_iff]
  exact and_iff_right (start_frozen ctx hw hh)

/-- A machine with the interrupt of an earlier blit still pending. -/
def blitPending : RigelContext := hostCall palMachine (.customWrite regIntreq 0x8040)

theorem blitPending_reachable : Reachable blitPending := palMachine_reachable.call _

theorem blitTriggers_agree_fresh :
    (0 : UInt16) < 20 ∧ (0 : UInt16) < 100 ∧ SameStart (startBySize palMachine 20 100) (startByEcs palMachine 20 100) :=
  ⟨by decide, by decide,
    (blitTriggers_agree_iff palMachine 20 100 ⟨by decide, by decide⟩ ⟨by decide, by decide⟩).mpr (by decide +kernel)⟩

theorem blitTriggers_pending :
    Reachable blitPending ∧ ¬ SameStart (startBySize blitPending 1 1) (startByEcs blitPending 1 1) := by
  refine ⟨blitPending_reachable, fun h => ?_⟩
  have hclear := (blitTriggers_agree_iff blitPending 1 1 ⟨by decide, by decide⟩ ⟨by decide, by decide⟩).mp h
  exact absurd hclear (by decide +kernel)

end Rigel
