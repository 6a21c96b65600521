import Rigel.Bits
import Rigel.PaulaPads

/-!
# Controllers — from the host's calls to the guest's registers

The game ports have three ways into the machine: the counters of JOYxDAT, the buttons that POTGOR shows where the guest's POTGO
lets it, and the fire buttons on two lines of CIA-A's port A, beside the status of the disk drives. Nothing that the machine
does reaches any of them.
-/

namespace Rigel

/-- What the host has set since the last reset, and the POTGO that the guest has written. -/
structure Controllers where
  joydat : Nat → UInt16
  buttonX : Nat → Bool
  buttonY : Nat → Bool
  fire : Nat → Bool
  potgo : UInt16

def Controllers.released : Controllers := ⟨fun _ => 0, fun _ => false, fun _ => false, fun _ => false, 0xFFFF⟩

/-- There are two ports. -/
def setPort {α : Type} (f : Nat → α) (port : Nat) (value : α) : Nat → α := if port > 1 then f else Function.update f port value

def controllersCall (c : Controllers) : HostCall → Controllers
  | .reset => .released
  | .setJoydat port value => { c with joydat := setPort c.joydat port value }
  | .setPotButtonX port pressed => { c with buttonX := setPort c.buttonX port pressed }
  | .setPotButtonY port pressed => { c with buttonY := setPort c.buttonY port pressed }
  | .setFire port pressed => { c with fire := setPort c.fire port pressed }
  | .customWrite addr value => { c with potgo := if addr = 0x034 then value else c.potgo }
  | _ => c

/-! ## What leaves the ports alone -/

/-- Paula's input, and the lines of CIA-A, are as they were. -/
structure SamePorts (ctx ctx' : RigelContext) : Prop where
  input : ctx'.paula.input = ctx.paula.input
  id : ctx'.ciaA.id = ctx.ciaA.id
  lines : ctx'.ciaA.extPra &&& 0xC0 = ctx.ciaA.extPra &&& 0xC0

theorem SamePorts.refl (ctx : RigelContext) : SamePorts ctx ctx := ⟨rfl, rfl, rfl⟩

theorem SamePorts.trans {a b c : RigelContext} (h : SamePorts a b) (h' : SamePorts b c) : SamePorts a c :=
  ⟨h'.input.trans h.input, h'.id.trans h.id, h'.lines.trans h.lines⟩

/-- Outside the bus are the lines. -/
theorem SameOutside.ports {ctx ctx' : RigelContext} (h : SameOutside ctx ctx') (hinput : ctx'.paula.input = ctx.paula.input) :
    SamePorts ctx ctx' := ⟨hinput, by rw [h.ciaA], by rw [h.ciaA]⟩

/-! ## The lines of a CIA -/

/-- The lines are as they were, and so is the CIA. -/
structure SameLines (b b' : CiaBus) : Prop where
  id : b'.cia.id = b.cia.id
  extPra : b'.cia.extPra = b.cia.extPra

theorem SameLines.refl (b : CiaBus) : SameLines b b := ⟨rfl, rfl⟩

theorem SameLines.trans {a b c : CiaBus} (h : SameLines a b) (h' : SameLines b c) : SameLines a c :=
  ⟨h'.id.trans h.id, h'.extPra.trans h.extPra⟩

theorem SameLines.iterate {f : CiaBus → CiaBus} (h : ∀ b, SameLines b (f b)) : ∀ (n : Nat) (b : CiaBus), SameLines b (f^[n] b)
  | 0, b => .refl b
  | n + 1, b => (h b).trans (SameLines.iterate h n (f b))

theorem sameLines_raise (b : CiaBus) (mask : UInt8) : SameLines b (ciaInterruptRaise b mask) := ⟨rfl, rfl⟩

/-- A change of other fields. -/
theorem sameLines_of_same {b : CiaBus} {c : CiaState} (hid : c.id = b.cia.id) (hext : c.extPra = b.cia.extPra) :
    SameLines b { b with cia := c } := ⟨hid, hext⟩

theorem sameLines_startOutput (c : CiaState) (irq : PaulaInterrupts) : SameLines ⟨c, irq⟩ ⟨ciaSerialStartOutput c, irq⟩ := by
  unfold ciaSerialStartOutput
  split <;> exact ⟨rfl, rfl⟩

theorem sameLines_timerAUnderflow (b : CiaBus) : SameLines b (ciaSerialOnTimerAUnderflow b) := by
  unfold ciaSerialOnTimerAUnderflow
  simp only
  split
  · exact .refl b
  refine (sameLines_startOutput b.cia b.irq).trans ?_
  split
  · exact .refl _
  split
  · exact ⟨rfl, rfl⟩
  · refine SameLines.trans ?_ (sameLines_startOutput _ _)
    exact ⟨rfl, rfl⟩

theorem sameLines_underflowOutput (b : CiaBus) (control : UInt8) (uf : Nat) :
    SameLines b { b with cia := ciaTimerApplyUnderflowOutput b.cia control uf } := by
  unfold ciaTimerApplyUnderflowOutput
  simp only
  repeat' split
  all_goals exact ⟨rfl, rfl⟩

theorem sameLines_timerAUnderflows (b : CiaBus) (uf : Nat) : SameLines b (ciaTimerAUnderflows b uf) := by
  unfold ciaTimerAUnderflows
  split
  · exact .refl b
  · refine (sameLines_raise b ciaIcrTa).trans ?_
    refine (sameLines_underflowOutput _ (ciaInterruptRaise b ciaIcrTa).cia.cra uf).trans ?_
    refine (SameLines.iterate sameLines_timerAUnderflow uf _).trans ?_
    exact sameLines_of_same rfl rfl

theorem sameLines_timerBUnderflows (b : CiaBus) (uf : Nat) : SameLines b (ciaTimerBUnderflows b uf) := by
  unfold ciaTimerBUnderflows
  split
  · exact .refl b
  · refine (sameLines_raise b ciaIcrTb).trans ?_
    refine (sameLines_underflowOutput _ (ciaInterruptRaise b ciaIcrTb).cia.crb uf).trans ?_
    exact sameLines_of_same rfl rfl

theorem sameLines_timers (b : CiaBus) (ticks : UInt64) : SameLines b (ciaTimersStep b ticks) := by
  unfold ciaTimersStep ciaTimerAStage ciaTimerBStage
  split
  · exact .refl b
  · refine SameLines.trans ?_ (sameLines_timerBUnderflows _ _)
    refine SameLines.trans ?_ (sameLines_of_same rfl rfl)
    refine SameLines.trans ?_ (sameLines_timerAUnderflows _ _)
    exact sameLines_of_same rfl rfl

theorem sameLines_todTick (b : CiaBus) : SameLines b (ciaTodTick b) := by
  unfold ciaTodTick
  simp only
  split <;> exact ⟨rfl, rfl⟩

theorem sameLines_step (b : CiaBus) (ticks : UInt64) : SameLines b (ciaStep b ticks) := by
  have htod : ∀ b, SameLines b (ciaTodStep b ticks) := by
    intro b
    unfold ciaTodStep
    simp only
    repeat' split
    · exact .refl b
    · refine SameLines.trans ?_ (SameLines.iterate sameLines_todTick _ _)
      exact sameLines_of_same rfl rfl
    · exact sameLines_of_same rfl rfl
  unfold ciaStep
  refine SameLines.trans ?_ (htod _)
  refine SameLines.trans ?_ (sameLines_timers _ _)
  exact sameLines_of_same rfl rfl

theorem sameLines_readReg (b : CiaBus) (reg : UInt8) : SameLines b (ciaReadReg b reg).1 := by
  unfold ciaReadReg
  simp only
  repeat' split
  all_goals exact ⟨rfl, rfl⟩

theorem sameLines_writeReg (b : CiaBus) (reg value : UInt8) : SameLines b (ciaWriteReg b reg value) := by
  unfold ciaWriteReg ciaPortsWriteReg ciaTimersWriteReg ciaTodWrite ciaInterruptWriteIcr ciaInterruptSyncIrqLine
    ciaSerialWriteSdr ciaSerialStartOutput
  simp only
  repeat' split
  all_goals exact ⟨rfl, rfl⟩

theorem sameLines_receive (b : CiaBus) (byte : UInt8) : SameLines b (ciaSerialReceiveByte b byte) := by
  unfold ciaSerialReceiveByte
  split <;> exact ⟨rfl, rfl⟩

/-! ## Calls -/

theorem samePorts_onCiaA {f : CiaBus → CiaBus} (hf : ∀ b, SameLines b (f b)) (ctx : RigelContext) :
    SamePorts ctx (onCiaA f ctx) := by
  have h := hf ⟨ctx.ciaA, ctx.paula.interrupts⟩
  exact ⟨rfl, h.id, congrArg (· &&& 0xC0) h.extPra⟩

theorem samePorts_onCiaB (f : CiaBus → CiaBus) (ctx : RigelContext) : SamePorts ctx (onCiaB f ctx) := ⟨rfl, rfl, rfl⟩

theorem samePorts_eclock (ctx : RigelContext) (cycles : UInt32) : SamePorts ctx (chipsetEclock ctx cycles) := by
  unfold chipsetEclock
  simp only
  split
  · refine SamePorts.trans ?_ (samePorts_onCiaB _ _)
    refine SamePorts.trans ?_ (samePorts_onCiaA (fun b => sameLines_step b _) _)
    exact ⟨rfl, rfl, rfl⟩
  · exact ⟨rfl, rfl, rfl⟩

/-- The CIAs, after Paula. -/
theorem samePorts_cias (before : BeamState) (ctx : RigelContext) (cycles : UInt32) :
    SamePorts ctx (chipsetEclock (chipsetTodB before (chipsetTodA before ctx)) cycles) := by
  have htodA : SamePorts ctx (chipsetTodA before ctx) :=
    samePorts_onCiaA (fun b => SameLines.iterate sameLines_todTick _ b) _
  have htod : SamePorts ctx (chipsetTodB before (chipsetTodA before ctx)) := htodA.trans (samePorts_onCiaB _ _)
  exact htod.trans (samePorts_eclock _ cycles)

/-- **A step** does not reach the ports. -/
theorem samePorts_step (ctx : RigelContext) (cycles : UInt64) : SamePorts ctx (rigelStep ctx cycles).1 := by
  have hprologue : (stepPrologue ctx cycles.toUInt32).ciaA = ctx.ciaA := by
    unfold stepPrologue
    simp only
    split <;> rfl
  have hpaula : (rigelPaulaStep (chipsetRun (clearEventLatch ctx) cycles.toUInt32) cycles.toUInt32).ciaA = ctx.ciaA := by
    rw [(sameOutside_paulaStep _ _).ciaA, chipsetRun_eq_clocks, (sameOutside_stepUntil _ _).ciaA, hprologue]
  have hcias := samePorts_cias ctx.agnus.beam
    (rigelPaulaStep (chipsetRun (clearEventLatch ctx) cycles.toUInt32) cycles.toUInt32) cycles.toUInt32
  have hlines := hcias.lines
  rw [hpaula] at hlines
  exact ⟨(rigelStep_pads ctx cycles).1, hcias.id.trans (congrArg CiaState.id hpaula), hlines⟩

/-- The status of the drives goes to the other lines. -/
theorem driveStatusLines_fire (pra : UInt8) (motorOn : Bool) (count : Nat) (d : FloppyDrive) :
    driveStatusLines pra motorOn count d &&& 0xC0 = pra &&& 0xC0 := by
  have hhigh : (pra ||| 0x3C) &&& 0xC0 = pra &&& 0xC0 := by
    rw [uint8_or_and_distrib, show (0x3C &&& 0xC0 : UInt8) = 0 by decide, UInt8.or_zero]
  have hpull : ∀ (low : Bool) (mask v : UInt8), ~~~mask &&& 0xC0 = 0xC0 → v &&& 0xC0 = pra &&& 0xC0 →
      (if low then v &&& ~~~mask else v) &&& 0xC0 = pra &&& 0xC0 := by
    intro low mask v hmask hv
    split
    · rw [UInt8.and_assoc, hmask, hv]
    · exact hv
  unfold driveStatusLines
  simp only
  split
  · refine hpull _ _ _ (by decide) (hpull _ _ _ (by decide) (hpull _ _ _ (by decide) (hpull _ _ _ (by decide) hhigh)))
  · exact hhigh

/-- Port A of CIA-A shows its external lines there, whatever their directions are. -/
theorem portA_lines {c : CiaState} (hid : c.id = .portA) : ciaPortAValue c &&& 0xC0 = c.extPra &&& 0xC0 := by
  unfold ciaPortAValue
  rw [hid]
  simp only
  rw [uint8_or_and_distrib, uint8_or_and_distrib, UInt8.and_assoc _ 0x03, UInt8.and_assoc _ 0x03, UInt8.and_assoc _ 0xFC,
    show (0x03 &&& 0xC0 : UInt8) = 0 by decide, show (0xFC &&& 0xC0 : UInt8) = 0xC0 by decide, UInt8.and_zero, UInt8.and_zero,
    UInt8.zero_or, UInt8.zero_or]

theorem samePorts_routeDrive (ctx : RigelContext) (hid : ctx.ciaA.id = .portA) (sel : Nat → Bool) :
    SamePorts ctx (routeDrive ctx sel) :=
  ⟨rfl, rfl, (driveStatusLines_fire _ _ _ _).trans (portA_lines hid)⟩

/-- The fire lines, low while pressed. -/
def fireLines (fire : Nat → Bool) : UInt8 := (if fire 0 then 0 else 0x40) ||| (if fire 1 then 0 else 0x80)

/-- The machine is at the controls. -/
structure ShowsControllers (c : Controllers) (ctx : RigelContext) : Prop where
  input : ctx.paula.input = ⟨c.potgo, c.joydat, c.buttonX, c.buttonY⟩
  id : ctx.ciaA.id = .portA
  lines : ctx.ciaA.extPra &&& 0xC0 = fireLines c.fire

theorem ShowsControllers.same {c : Controllers} {ctx ctx' : RigelContext} (h : ShowsControllers c ctx)
    (hsame : SamePorts ctx ctx') : ShowsControllers c ctx' :=
  ⟨hsame.input.trans h.input, hsame.id.trans h.id, hsame.lines.trans h.lines⟩

/-- The drives have moved, and their status is shown. -/
theorem ShowsControllers.routeDrive {c : Controllers} {ctx : RigelContext} (h : ShowsControllers c ctx)
    (floppy : Nat → FloppyDrive) (sel : Nat → Bool) : ShowsControllers c (routeDrive { ctx with floppy := floppy } sel) := by
  have hmoved : ShowsControllers c { ctx with floppy := floppy } := ⟨h.input, h.id, h.lines⟩
  exact hmoved.same (samePorts_routeDrive _ hmoved.id sel)

theorem showsControllers_reset (ctx : RigelContext) : ShowsControllers .released (rigelReset ctx) :=
  ⟨rfl, rfl, show (0xFF &&& 0xC0 : UInt8) = fireLines fun _ => false by decide⟩

/-- **A fire button** moves its line alone. -/
theorem ShowsControllers.setFire {c : Controllers} {ctx : RigelContext} (h : ShowsControllers c ctx) (port : Nat)
    (pressed : Bool) : ShowsControllers { c with fire := setPort c.fire port pressed } (rigelInputSetFire ctx port pressed) := by
  have hclear : ∀ v m : UInt8, (v &&& ~~~m) &&& 0xC0 = v &&& 0xC0 &&& ~~~m := by
    intro v m
    rw [UInt8.and_assoc, UInt8.and_comm _ 0xC0, ← UInt8.and_assoc]
  have hpra := (portA_lines h.id).trans h.lines
  unfold rigelInputSetFire setPort
  by_cases hport : port > 1
  · rw [if_pos hport, if_pos hport]
    exact h
  rw [if_neg hport, if_neg hport]
  refine ⟨h.input, h.id, ?_⟩
  obtain rfl | rfl : port = 0 ∨ port = 1 := by omega
  all_goals
    cases pressed
    all_goals
      simp only [ciaSetExternalPra, if_true, if_false, Bool.false_eq_true, hclear, uint8_or_and_distrib, hpra, fireLines,
        Function.update_self, ne_eq, one_ne_zero, zero_ne_one, not_false_eq_true, Function.update_of_ne]
      cases c.fire 0 <;> cases c.fire 1 <;> decide

/-- **Every call of the host.** -/
theorem ShowsControllers.hostCall {c : Controllers} {ctx : RigelContext} (h : ShowsControllers c ctx) (call : HostCall) :
    ShowsControllers (controllersCall c call) (hostCall ctx call) := by
  cases call with
  | reset => exact showsControllers_reset ctx
  | step cycles => exact h.same (samePorts_step ctx cycles)
  | stepUntil target =>
    simp only [Rigel.hostCall, rigelStepUntil]
    split
    · exact h
    · exact h.same (samePorts_step ctx _)
  | customRead addr =>
    simp only [Rigel.hostCall, customRegsRead16, paulaReadReg]
    repeat' split
    all_goals exact h.same ⟨rfl, rfl, rfl⟩
  | customWrite addr value =>
    by_cases hpotgo : addr = 0x034
    · subst hpotgo
      exact ⟨congrArg (inputWriteReg · 0x034 value) h.input, h.id, h.lines⟩
    · have hinput := (customRegsWrite16_pads ctx addr value).1.trans (inputWriteReg_other _ hpotgo value)
      have hsame := (sameOutside_customWrite ctx addr value).ports hinput
      have hcall : controllersCall c (.customWrite addr value) = c := by rw [controllersCall, if_neg hpotgo]
      rw [hcall]
      exact h.same hsame
  | ciaRead id reg =>
    cases id with
    | portA => exact h.same (samePorts_onCiaA (fun b => sameLines_readReg b reg) ctx)
    | portB => exact h.same ⟨rfl, rfl, rfl⟩
  | ciaWrite id reg value =>
    cases id with
    | portA => exact h.same (samePorts_onCiaA (fun b => sameLines_writeReg b reg value) ctx)
    | portB =>
      have hwritten := h.same (samePorts_onCiaB (fun b => ciaWriteReg b reg value) ctx)
      simp only [Rigel.hostCall, rigelCiaWrite]
      split
      · exact hwritten.routeDrive _ _
      · exact hwritten
  | setJoydat port value =>
    refine ⟨?_, h.id, h.lines⟩
    show inputSetJoydat ctx.paula.input port value = _
    rw [h.input, inputSetJoydat, controllersCall, setPort]
    split <;> rfl
  | setPotButtonX port pressed =>
    refine ⟨?_, h.id, h.lines⟩
    show inputSetPotButtonX ctx.paula.input port pressed = _
    rw [h.input, inputSetPotButtonX, controllersCall, setPort]
    split <;> rfl
  | setPotButtonY port pressed =>
    refine ⟨?_, h.id, h.lines⟩
    show inputSetPotButtonY ctx.paula.input port pressed = _
    rw [h.input, inputSetPotButtonY, controllersCall, setPort]
    split <;> rfl
  | setFire port pressed => exact h.setFire port pressed
  | floppyInsert drive data size =>
    simp only [Rigel.hostCall, rigelFloppyInsert]
    split
    · exact h
    · exact h.routeDrive _ _
  | floppyEject drive =>
    simp only [Rigel.hostCall, rigelFloppyEject]
    split
    · exact h
    · exact h.routeDrive _ _
  | serialReceive byte =>
    let received : RigelContext := { ctx with paula := { ctx.paula with serial := (serialReceiveByte ctx.paula.serial byte).1 } }
    have hraised := (sameOutside_raise received (serialReceiveByte ctx.paula.serial byte).2).ports
      ((SamePads.refl received.paula).raise _).input
    exact h.same ⟨hraised.input, hraised.id, hraised.lines⟩
  | keyboardInject keycode pressed => exact h.same (samePorts_onCiaA (fun b => sameLines_receive b _) ctx)
  | _ => exact h.same ⟨rfl, rfl, rfl⟩

/-- Any number of them. -/
theorem ShowsControllers.run : ∀ (calls : List HostCall) {c : Controllers} {ctx : RigelContext}, ShowsControllers c ctx →
    ShowsControllers (calls.foldl controllersCall c) (calls.foldl Rigel.hostCall ctx)
  | [], _, _, h => h
  | call :: calls, _, _, h => ShowsControllers.run calls (h.hostCall call)

/-! ## What the guest reads -/

/-- A button pulls its line low while the guest drives the line high. -/
def PullsLow (potgo dir data : UInt16) (pressed : Bool) : Prop := potgo &&& dir ≠ 0 ∧ potgo &&& data ≠ 0 ∧ pressed = true

instance (potgo dir data : UInt16) (pressed : Bool) : Decidable (PullsLow potgo dir data pressed) :=
  inferInstanceAs (Decidable (_ ∧ _))

theorem four_lines (p q r s : Bool) :
    let v : UInt16 := 0xFF00 &&& (if p then ~~~0x0100 else 0xFFFF) &&& (if q then ~~~0x0400 else 0xFFFF) &&&
      (if r then ~~~0x1000 else 0xFFFF) &&& (if s then ~~~0x4000 else 0xFFFF)
    (v &&& 0x0100 = 0 ↔ p = true) ∧ (v &&& 0x0400 = 0 ↔ q = true) ∧ (v &&& 0x1000 = 0 ↔ r = true) ∧
      (v &&& 0x4000 = 0 ↔ s = true) := by
  revert p q r s
  decide

theorem potgor_lines (i : InputState) :
    (inputReadPotgor i &&& 0x0100 = 0 ↔ PullsLow i.potgo 0x0200 0x0100 (i.potButtonX 0)) ∧
      (inputReadPotgor i &&& 0x0400 = 0 ↔ PullsLow i.potgo 0x0800 0x0400 (i.potButtonY 0)) ∧
      (inputReadPotgor i &&& 0x1000 = 0 ↔ PullsLow i.potgo 0x2000 0x1000 (i.potButtonX 1)) ∧
      (inputReadPotgor i &&& 0x4000 = 0 ↔ PullsLow i.potgo 0x8000 0x4000 (i.potButtonY 1)) := by
  have hlines := four_lines (decide (PullsLow i.potgo 0x0200 0x0100 (i.potButtonX 0)))
    (decide (PullsLow i.potgo 0x0800 0x0400 (i.potButtonY 0))) (decide (PullsLow i.potgo 0x2000 0x1000 (i.potButtonX 1)))
    (decide (PullsLow i.potgo 0x8000 0x4000 (i.potButtonY 1)))
  simp only [decide_eq_true_eq] at hlines
  exact hlines

theorem fire_lines {pra : UInt8} {fire : Nat → Bool} (h : pra &&& 0xC0 = fireLines fire) :
    (pra &&& 0x40 = 0 ↔ fire 0 = true) ∧ (pra &&& 0x80 = 0 ↔ fire 1 = true) := by
  have h0 : pra &&& 0x40 = fireLines fire &&& 0x40 := by
    rw [← h, UInt8.and_assoc, show (0xC0 &&& 0x40 : UInt8) = 0x40 by decide]
  have h1 : pra &&& 0x80 = fireLines fire &&& 0x80 := by
    rw [← h, UInt8.and_assoc, show (0xC0 &&& 0x80 : UInt8) = 0x80 by decide]
  rw [h0, h1, fireLines]
  cases fire 0 <;> cases fire 1 <;> decide

/-- **The guest sees the controllers.** In whatever way the machine has been used since it was made, each register of the game
ports shows what the host set last, and each button only through POTGO; the fire buttons are on port A of CIA-A, whatever the
guest drives there and whatever the drives show beside them. -/
theorem controllers_seen (config : RigelConfig) (ram : ChipRam) (calls : List HostCall) :
    let ctx := calls.foldl hostCall (rigelCreate config ram)
    let c := calls.foldl controllersCall .released
    let potgor := (customRegsRead16 ctx 0x016).2
    let pra := (rigelCiaRead ctx .portA 0x0).2
    (customRegsRead16 ctx 0x00A).2 = c.joydat 0 ∧ (customRegsRead16 ctx 0x00C).2 = c.joydat 1 ∧
      (pra &&& 0x40 = 0 ↔ c.fire 0 = true) ∧ (pra &&& 0x80 = 0 ↔ c.fire 1 = true) ∧
      (potgor &&& 0x0100 = 0 ↔ PullsLow c.potgo 0x0200 0x0100 (c.buttonX 0)) ∧
      (potgor &&& 0x0400 = 0 ↔ PullsLow c.potgo 0x0800 0x0400 (c.buttonY 0)) ∧
      (potgor &&& 0x1000 = 0 ↔ PullsLow c.potgo 0x2000 0x1000 (c.buttonX 1)) ∧
      (potgor &&& 0x4000 = 0 ↔ PullsLow c.potgo 0x8000 0x4000 (c.buttonY 1)) := by
  intro ctx c potgor pra
  have hshows : ShowsControllers c ctx := ShowsControllers.run calls (showsControllers_reset _)
  obtain ⟨hfire0, hfire1⟩ := fire_lines ((portA_lines hshows.id).trans hshows.lines)
  have hjoy0 : (customRegsRead16 ctx 0x00A).2 = ctx.paula.input.joydat 0 := rfl
  have hjoy1 : (customRegsRead16 ctx 0x00C).2 = ctx.paula.input.joydat 1 := rfl
  have hpotgor : potgor = inputReadPotgor ⟨c.potgo, c.joydat, c.buttonX, c.buttonY⟩ := by
    rw [← hshows.input]
    rfl
  rw [hjoy0, hjoy1, hshows.input, hpotgor]
  exact ⟨rfl, rfl, hfire0, hfire1, potgor_lines _⟩

end Rigel
