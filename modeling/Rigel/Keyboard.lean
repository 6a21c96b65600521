import Rigel.CiaLine

/-!
# Keyboard — keys through the data register

`rigel_keyboard_inject` puts a key into the serial data register of CIA-A and raises SP; a register that has not been read
refuses it. Nothing else that the machine does reaches the register: not the timers that shift its output, not the ports, not
the clocks. What the guest reads is therefore what has been accepted, in order.
-/

namespace Rigel

/-! ## Keys -/

/-- The byte of a key on the wire. -/
def keyByte (keycode : UInt8) (pressed : Bool) : UInt8 := ~~~((keycode <<< 1) ||| (if pressed then 0 else 1))

/-- The key that a guest takes from the byte: seven bits of code, and whether it is down. -/
def keyOf (byte : UInt8) : UInt8 × Bool := (~~~byte >>> 1, ~~~byte &&& 1 == 0)

theorem keyOf_keyByte (keycode : UInt8) (pressed : Bool) : keyOf (keyByte keycode pressed) = (keycode &&& 0x7F, pressed) := by
  have hall : ∀ n < 256, ∀ down, keyOf (keyByte (UInt8.ofNat n) down) = (UInt8.ofNat n &&& 0x7F, down) := by decide +kernel
  have hcode := hall keycode.toNat keycode.toNat_lt pressed
  rw [UInt8.ofNat_toNat] at hcode
  exact hcode

/-! ## What leaves the register alone -/

/-- The data register is as it was, and an SP that was set still is. -/
structure SameSdr (b b' : CiaBus) : Prop where
  sdr : b'.cia.sdr = b.cia.sdr
  full : b'.cia.sdrFull = b.cia.sdrFull
  sp : b.cia.icrData &&& ciaIcrSp ≠ 0 → b'.cia.icrData &&& ciaIcrSp ≠ 0

theorem SameSdr.refl (b : CiaBus) : SameSdr b b := ⟨rfl, rfl, id⟩

theorem SameSdr.trans {a b c : CiaBus} (h : SameSdr a b) (h' : SameSdr b c) : SameSdr a c :=
  ⟨h'.sdr.trans h.sdr, h'.full.trans h.full, fun hsp => h'.sp (h.sp hsp)⟩

/-- A change of other fields. -/
theorem sameSdr_of_same {b : CiaBus} {c : CiaState} (hsdr : c.sdr = b.cia.sdr) (hfull : c.sdrFull = b.cia.sdrFull)
    (hicr : c.icrData = b.cia.icrData) : SameSdr b { b with cia := c } :=
  ⟨hsdr, hfull, fun hsp => by rw [hicr]; exact hsp⟩

theorem sameSdr_raise (b : CiaBus) (mask : UInt8) : SameSdr b (ciaInterruptRaise b mask) := by
  refine ⟨rfl, rfl, fun hsp => ?_⟩
  have hdata : (ciaInterruptRaise b mask).cia.icrData = b.cia.icrData ||| (mask &&& 0x1F) := rfl
  rw [hdata, uint8_or_and_distrib]
  intro hzero
  exact hsp (UInt8.or_eq_zero_iff.mp hzero).1

theorem SameSdr.iterate {f : CiaBus → CiaBus} (h : ∀ b, SameSdr b (f b)) : ∀ (n : Nat) (b : CiaBus), SameSdr b (f^[n] b)
  | 0, b => .refl b
  | n + 1, b => (h b).trans (SameSdr.iterate h n (f b))

theorem sameSdr_startOutput (b : CiaBus) : SameSdr b { b with cia := ciaSerialStartOutput b.cia } := by
  unfold ciaSerialStartOutput
  split
  · exact .refl b
  · exact sameSdr_of_same rfl rfl rfl

theorem sameSdr_timerAUnderflow (b : CiaBus) : SameSdr b (ciaSerialOnTimerAUnderflow b) := by
  unfold ciaSerialOnTimerAUnderflow
  simp only
  split
  · exact .refl b
  refine (sameSdr_startOutput b).trans ?_
  split
  · exact .refl _
  split
  · exact sameSdr_of_same rfl rfl rfl
  · refine SameSdr.trans ?_ (sameSdr_startOutput _)
    refine SameSdr.trans ?_ (sameSdr_raise _ ciaIcrSp)
    exact sameSdr_of_same rfl rfl rfl

theorem sameSdr_underflowOutput (b : CiaBus) (control : UInt8) (uf : Nat) :
    SameSdr b { b with cia := ciaTimerApplyUnderflowOutput b.cia control uf } := by
  unfold ciaTimerApplyUnderflowOutput
  simp only
  repeat' split
  · exact .refl b
  all_goals exact sameSdr_of_same rfl rfl rfl

theorem sameSdr_timerAUnderflows (b : CiaBus) (uf : Nat) : SameSdr b (ciaTimerAUnderflows b uf) := by
  unfold ciaTimerAUnderflows
  split
  · exact .refl b
  · refine (sameSdr_raise b ciaIcrTa).trans ?_
    refine (sameSdr_underflowOutput _ (ciaInterruptRaise b ciaIcrTa).cia.cra uf).trans ?_
    refine (SameSdr.iterate sameSdr_timerAUnderflow uf _).trans ?_
    exact sameSdr_of_same rfl rfl rfl

theorem sameSdr_timerBUnderflows (b : CiaBus) (uf : Nat) : SameSdr b (ciaTimerBUnderflows b uf) := by
  unfold ciaTimerBUnderflows
  split
  · exact .refl b
  · refine (sameSdr_raise b ciaIcrTb).trans ?_
    refine (sameSdr_underflowOutput _ (ciaInterruptRaise b ciaIcrTb).cia.crb uf).trans ?_
    exact sameSdr_of_same rfl rfl rfl

theorem sameSdr_timers (b : CiaBus) (ticks : UInt64) : SameSdr b (ciaTimersStep b ticks) := by
  unfold ciaTimersStep ciaTimerAStage ciaTimerBStage
  split
  · exact .refl b
  · refine SameSdr.trans ?_ (sameSdr_timerBUnderflows _ _)
    refine SameSdr.trans ?_ (sameSdr_of_same rfl rfl rfl)
    refine SameSdr.trans ?_ (sameSdr_timerAUnderflows _ _)
    exact sameSdr_of_same rfl rfl rfl

theorem sameSdr_todTick (b : CiaBus) : SameSdr b (ciaTodTick b) := by
  unfold ciaTodTick
  simp only
  split
  · refine SameSdr.trans ?_ (sameSdr_raise _ ciaIcrAlrm)
    exact sameSdr_of_same rfl rfl rfl
  · exact sameSdr_of_same rfl rfl rfl

theorem sameSdr_todPulse (b : CiaBus) (pulses : UInt32) : SameSdr b (ciaTodPulse b pulses) := SameSdr.iterate sameSdr_todTick _ b

theorem sameSdr_step (b : CiaBus) (ticks : UInt64) : SameSdr b (ciaStep b ticks) := by
  have htod : ∀ b, SameSdr b (ciaTodStep b ticks) := by
    intro b
    unfold ciaTodStep
    simp only
    repeat' split
    · exact .refl b
    · refine SameSdr.trans ?_ (SameSdr.iterate sameSdr_todTick _ _)
      exact sameSdr_of_same rfl rfl rfl
    · exact sameSdr_of_same rfl rfl rfl
  unfold ciaStep
  refine SameSdr.trans ?_ (htod _)
  refine SameSdr.trans ?_ (sameSdr_timers _ _)
  exact sameSdr_of_same rfl rfl rfl

/-- Reading another register, and not the ICR. -/
theorem sameSdr_readReg (b : CiaBus) {reg : UInt8} (hsdr : reg &&& 0x0F ≠ 0xC) (hicr : reg &&& 0x0F ≠ 0xD) :
    SameSdr b (ciaReadReg b reg).1 := by
  unfold ciaReadReg
  simp only [hsdr, hicr, if_false]
  repeat' split
  · exact .refl b
  · exact .refl b
  · exact sameSdr_of_same rfl rfl rfl
  · exact .refl b

/-- Writing another register. -/
theorem sameSdr_writeReg (b : CiaBus) {reg : UInt8} (hsdr : reg &&& 0x0F ≠ 0xC) (value : UInt8) :
    SameSdr b (ciaWriteReg b reg value) := by
  unfold ciaWriteReg ciaPortsWriteReg ciaTimersWriteReg ciaTodWrite ciaInterruptWriteIcr ciaInterruptSyncIrqLine
  simp only [hsdr, if_false]
  repeat' split
  all_goals exact ⟨rfl, rfl, id⟩

/-! ## Calls -/

/-- The register of CIA-A is as it was. -/
def KeysSame (ctx ctx' : RigelContext) : Prop := SameSdr ⟨ctx.ciaA, ctx.paula.interrupts⟩ ⟨ctx'.ciaA, ctx'.paula.interrupts⟩

theorem keysSame_of_ciaA {ctx ctx' : RigelContext} (h : ctx'.ciaA = ctx.ciaA) : KeysSame ctx ctx' :=
  ⟨congrArg CiaState.sdr h, congrArg CiaState.sdrFull h, fun hsp => by
    have hdata : ctx'.ciaA.icrData = ctx.ciaA.icrData := congrArg CiaState.icrData h
    rw [← hdata] at hsp
    exact hsp⟩

theorem KeysSame.trans {a b c : RigelContext} (h : KeysSame a b) (h' : KeysSame b c) : KeysSame a c := SameSdr.trans h h'

theorem keysSame_onCiaA {f : CiaBus → CiaBus} (hf : ∀ b, SameSdr b (f b)) (ctx : RigelContext) : KeysSame ctx (onCiaA f ctx) :=
  hf ⟨ctx.ciaA, ctx.paula.interrupts⟩

theorem keysSame_settle (before : BeamState) (ctx : RigelContext) (cycles : UInt32) :
    KeysSame ctx (chipsetSettle before ctx cycles) := by
  have hpaula : KeysSame ctx (rigelPaulaStep ctx cycles) := keysSame_of_ciaA (sameOutside_paulaStep ctx cycles).ciaA
  have htodA : KeysSame (rigelPaulaStep ctx cycles) (chipsetTodA before (rigelPaulaStep ctx cycles)) :=
    keysSame_onCiaA (fun b => sameSdr_todPulse b _) _
  have htod : KeysSame ctx (chipsetTodB before (chipsetTodA before (rigelPaulaStep ctx cycles))) :=
    (hpaula.trans htodA).trans (keysSame_of_ciaA rfl)
  unfold chipsetSettle chipsetEclock
  simp only
  split
  · refine htod.trans ((keysSame_onCiaA (fun b => sameSdr_step b _) _).trans (keysSame_of_ciaA rfl))
  · exact htod

theorem keysSame_step (ctx : RigelContext) (cycles : UInt64) : KeysSame ctx (rigelStep ctx cycles).1 := by
  have hprologue : (stepPrologue ctx cycles.toUInt32).ciaA = ctx.ciaA := by
    unfold stepPrologue
    simp only
    split <;> rfl
  have hrun : KeysSame ctx (chipsetRun (clearEventLatch ctx) cycles.toUInt32) := by
    rw [chipsetRun_eq_clocks]
    exact keysSame_of_ciaA ((sameOutside_stepUntil _ _).ciaA.trans hprologue)
  exact hrun.trans (keysSame_settle _ _ _)

/-- **The calls that reach the register**: an injection, and the guest's accesses of it and of the ICR. -/
def reachesSdr : HostCall → Bool
  | .reset => true
  | .keyboardInject _ _ => true
  | .ciaRead .portA reg => reg &&& 0x0F == 0xC || reg &&& 0x0F == 0xD
  | .ciaWrite .portA reg _ => reg &&& 0x0F == 0xC
  | _ => false

/-- **No other call does.** -/
theorem keysSame_hostCall (ctx : RigelContext) (c : HostCall) (h : reachesSdr c = false) : KeysSame ctx (hostCall ctx c) := by
  cases c with
  | reset => cases h
  | keyboardInject keycode pressed => cases h
  | step cycles => exact keysSame_step ctx cycles
  | stepUntil target =>
    simp only [hostCall, rigelStepUntil]
    split
    · exact keysSame_of_ciaA rfl
    · exact keysSame_step ctx _
  | customRead addr =>
    refine keysSame_of_ciaA ?_
    simp only [hostCall, customRegsRead16, paulaReadReg]
    repeat' split
    all_goals rfl
  | customWrite addr value => exact keysSame_of_ciaA (sameOutside_customWrite ctx addr value).ciaA
  | ciaRead id reg =>
    cases id with
    | portA =>
      simp only [reachesSdr, Bool.or_eq_false_iff, beq_eq_false_iff_ne] at h
      exact keysSame_onCiaA (fun b => sameSdr_readReg b h.1 h.2) ctx
    | portB => exact keysSame_of_ciaA rfl
  | ciaWrite id reg value =>
    cases id with
    | portA =>
      simp only [reachesSdr, beq_eq_false_iff_ne] at h
      exact keysSame_onCiaA (fun b => sameSdr_writeReg b h value) ctx
    | portB =>
      simp only [hostCall, rigelCiaWrite]
      split
      · exact ⟨rfl, rfl, id⟩
      · exact keysSame_of_ciaA rfl
  | setFire port pressed =>
    simp only [hostCall, rigelInputSetFire]
    split
    · exact keysSame_of_ciaA rfl
    · exact ⟨rfl, rfl, id⟩
  | floppyInsert drive data size =>
    simp only [hostCall, rigelFloppyInsert]
    split
    · exact keysSame_of_ciaA rfl
    · exact ⟨rfl, rfl, id⟩
  | floppyEject drive =>
    simp only [hostCall, rigelFloppyEject]
    split
    · exact keysSame_of_ciaA rfl
    · exact ⟨rfl, rfl, id⟩
  | serialReceive byte => exact keysSame_of_ciaA (sameOutside_raise _ _).ciaA
  | _ => exact keysSame_of_ciaA rfl

/-! ## Runs -/

/-- The key that waits in the register. -/
def pendingKey (ctx : RigelContext) : List (UInt8 × Bool) := if ctx.ciaA.sdrFull then [keyOf ctx.ciaA.sdr] else []

/-- The key that a call has accepted. One that finds another waiting is refused. -/
def keyAccepted (ctx : RigelContext) : HostCall → Option (UInt8 × Bool)
  | .keyboardInject keycode pressed => if ctx.ciaA.sdrFull then none else some (keycode &&& 0x7F, pressed)
  | _ => none

/-- The key that a call reads: the register, while a key waits there. -/
def keyRead (ctx : RigelContext) : HostCall → Option (UInt8 × Bool)
  | .ciaRead .portA reg =>
    if reg &&& 0x0F = 0xC ∧ ctx.ciaA.sdrFull then some (keyOf (rigelCiaRead ctx .portA reg).2) else none
  | _ => none

/-- The guest leaves the register to the keyboard. -/
def KeysOnly (c : HostCall) : Prop := c ≠ .reset ∧ ∀ reg value, c = .ciaWrite .portA reg value → reg &&& 0x0F ≠ 0xC

theorem keyRead_sdr (ctx : RigelContext) {reg : UInt8} (h : reg &&& 0x0F = 0xC) :
    (rigelCiaRead ctx .portA reg).2 = ctx.ciaA.sdr ∧ (rigelCiaRead ctx .portA reg).1.ciaA = { ctx.ciaA with sdrFull := false } := by
  have hread : ciaReadReg ⟨ctx.ciaA, ctx.paula.interrupts⟩ reg =
      (⟨{ ctx.ciaA with sdrFull := false }, ctx.paula.interrupts⟩, ctx.ciaA.sdr) := by
    unfold ciaReadReg
    rw [h]
    rfl
  exact ⟨congrArg Prod.snd hread, congrArg (fun r => r.1.cia) hread⟩

/-- An injection that is accepted. -/
theorem keyboardInject_accepted {ctx : RigelContext} (h : ctx.ciaA.sdrFull = false) (keycode : UInt8) (pressed : Bool) :
    let c := (hostCall ctx (.keyboardInject keycode pressed)).ciaA
    c.sdr = keyByte keycode pressed ∧ c.sdrFull = true ∧ c.icrData &&& ciaIcrSp ≠ 0 := by
  have hreceive : ciaSerialReceiveByte ⟨ctx.ciaA, ctx.paula.interrupts⟩ (keyByte keycode pressed) =
      ciaInterruptRaise ⟨{ ctx.ciaA with sdr := keyByte keycode pressed, sdrFull := true }, ctx.paula.interrupts⟩ ciaIcrSp := by
    unfold ciaSerialReceiveByte
    rw [if_neg (by simp [h])]
  have hcia : (hostCall ctx (.keyboardInject keycode pressed)).ciaA =
      (ciaSerialReceiveByte ⟨ctx.ciaA, ctx.paula.interrupts⟩ (keyByte keycode pressed)).cia := rfl
  intro c
  have hc : c = _ := hcia.trans (congrArg CiaBus.cia hreceive)
  rw [hc]
  refine ⟨rfl, rfl, ?_⟩
  have hdata : (ciaInterruptRaise ⟨{ ctx.ciaA with sdr := keyByte keycode pressed, sdrFull := true }, ctx.paula.interrupts⟩
      ciaIcrSp).cia.icrData = ctx.ciaA.icrData ||| (ciaIcrSp &&& 0x1F) := rfl
  rw [hdata, uint8_or_and_distrib]
  intro hzero
  exact absurd (UInt8.or_eq_zero_iff.mp hzero).2 (by decide)

theorem keyboardInject_refused {ctx : RigelContext} (h : ctx.ciaA.sdrFull = true) (keycode : UInt8) (pressed : Bool) :
    (hostCall ctx (.keyboardInject keycode pressed)).ciaA = ctx.ciaA := by
  have hreceive : ∀ byte, ciaSerialReceiveByte ⟨ctx.ciaA, ctx.paula.interrupts⟩ byte = ⟨ctx.ciaA, ctx.paula.interrupts⟩ := by
    intro byte
    unfold ciaSerialReceiveByte
    rw [if_pos h]
  exact congrArg CiaBus.cia (hreceive _)

theorem KeysSame.pending {ctx ctx' : RigelContext} (h : KeysSame ctx ctx') : pendingKey ctx' = pendingKey ctx := by
  have hsdr : ctx'.ciaA.sdr = ctx.ciaA.sdr := h.sdr
  have hfull : ctx'.ciaA.sdrFull = ctx.ciaA.sdrFull := h.full
  rw [pendingKey, hsdr, hfull]
  rfl

/-- **One call**: a key goes in, or one comes out, or what waits keeps waiting. -/
theorem hostCall_keys (ctx : RigelContext) {c : HostCall} (h : KeysOnly c) :
    pendingKey ctx ++ (keyAccepted ctx c).toList = (keyRead ctx c).toList ++ pendingKey (hostCall ctx c) := by
  by_cases hreach : reachesSdr c = true
  · cases c with
    | reset => exact absurd rfl h.1
    | keyboardInject keycode pressed =>
      cases hfull : ctx.ciaA.sdrFull with
      | true =>
        rw [pendingKey, pendingKey, keyboardInject_refused hfull, keyAccepted, hfull]
        rfl
      | false =>
        obtain ⟨hsdr, hfull', -⟩ := keyboardInject_accepted hfull keycode pressed
        rw [pendingKey, pendingKey, hsdr, hfull', keyOf_keyByte, keyAccepted, hfull]
        rfl
    | ciaRead id reg =>
      cases id with
      | portB => cases hreach
      | portA =>
        by_cases hsdr : reg &&& 0x0F = 0xC
        · obtain ⟨hvalue, hcia⟩ := keyRead_sdr ctx hsdr
          have hcall : (hostCall ctx (.ciaRead .portA reg)).ciaA = { ctx.ciaA with sdrFull := false } := hcia
          have hnone : keyAccepted ctx (.ciaRead .portA reg) = none := rfl
          rw [pendingKey, pendingKey, hcall, keyRead, hvalue, hnone]
          simp only [hsdr, true_and]
          cases ctx.ciaA.sdrFull <;> rfl
        · have hicr : reg &&& 0x0F = 0xD := by simpa [reachesSdr, hsdr] using hreach
          have hcall : pendingKey (hostCall ctx (.ciaRead .portA reg)) = pendingKey ctx := by
            have hread : (ciaReadReg ⟨ctx.ciaA, ctx.paula.interrupts⟩ reg).1 =
                (ciaInterruptReadIcr ⟨ctx.ciaA, ctx.paula.interrupts⟩).1 := by
              unfold ciaReadReg
              rw [hicr]
              rfl
            have hcia : (hostCall ctx (.ciaRead .portA reg)).ciaA = _ := congrArg CiaBus.cia hread
            rw [pendingKey, hcia]
            rfl
          have hnone : keyAccepted ctx (.ciaRead .portA reg) = none := rfl
          rw [hcall, keyRead, if_neg (fun hboth => hsdr hboth.1), hnone]
          exact List.append_nil _
    | ciaWrite id reg value =>
      cases id with
      | portB => cases hreach
      | portA => exact absurd (by simpa [reachesSdr] using hreach) (h.2 reg value rfl)
    | _ => cases hreach
  · have hquiet : reachesSdr c = false := by simpa using hreach
    have haccepted : keyAccepted ctx c = none := by
      cases c with
      | keyboardInject keycode pressed => cases hquiet
      | _ => rfl
    have hread : keyRead ctx c = none := by
      cases c with
      | ciaRead id reg =>
        cases id with
        | portA =>
          simp only [reachesSdr, Bool.or_eq_false_iff, beq_eq_false_iff_ne] at hquiet
          exact if_neg fun hboth => hquiet.1 hboth.1
        | portB => rfl
      | _ => rfl
    rw [haccepted, hread, (keysSame_hostCall ctx c hquiet).pending]
    exact List.append_nil _

/-- The keys that a run accepts, and those that it reads. -/
def keysAccepted (ctx : RigelContext) (cs : List HostCall) : List (UInt8 × Bool) := collectAlong hostCall keyAccepted ctx cs

def keysRead (ctx : RigelContext) (cs : List HostCall) : List (UInt8 × Bool) := collectAlong hostCall keyRead ctx cs

theorem run_keys : ∀ {cs : List HostCall} (ctx : RigelContext), (∀ c ∈ cs, KeysOnly c) →
    pendingKey ctx ++ keysAccepted ctx cs = keysRead ctx cs ++ pendingKey (cs.foldl hostCall ctx)
  | [], ctx, _ => List.append_nil _
  | c :: cs, ctx, h => by
    obtain ⟨hc, hcs⟩ := List.forall_mem_cons.mp h
    have hone := hostCall_keys ctx hc
    have hrest := run_keys (hostCall ctx c) hcs
    have haccepted : keysAccepted ctx (c :: cs) = (keyAccepted ctx c).toList ++ keysAccepted (hostCall ctx c) cs := rfl
    have hread : keysRead ctx (c :: cs) = (keyRead ctx c).toList ++ keysRead (hostCall ctx c) cs := rfl
    rw [haccepted, hread, List.foldl_cons, ← List.append_assoc, hone, List.append_assoc, hrest, List.append_assoc]

/-! ## The interrupt -/

/-- A call by which the guest reads the ICR of CIA-A. -/
def readsIcrA (c : HostCall) : Bool :=
  match c with
  | .ciaRead .portA reg => reg &&& 0x0F == 0xD
  | _ => false

/-- **SP stays until the ICR is read.** -/
theorem hostCall_sp (ctx : RigelContext) {c : HostCall} (h : KeysOnly c) (hicr : readsIcrA c = false)
    (hsp : ctx.ciaA.icrData &&& ciaIcrSp ≠ 0) : (hostCall ctx c).ciaA.icrData &&& ciaIcrSp ≠ 0 := by
  by_cases hreach : reachesSdr c = true
  · cases c with
    | reset => exact absurd rfl h.1
    | keyboardInject keycode pressed =>
      cases hfull : ctx.ciaA.sdrFull with
      | true =>
        rw [keyboardInject_refused hfull]
        exact hsp
      | false => exact (keyboardInject_accepted hfull keycode pressed).2.2
    | ciaRead id reg =>
      cases id with
      | portB => cases hreach
      | portA =>
        have hsdr : reg &&& 0x0F = 0xC := by
          have hnot : reg &&& 0x0F ≠ 0xD := by simpa [readsIcrA] using hicr
          simpa [reachesSdr, hnot] using hreach
        have hcall : (hostCall ctx (.ciaRead .portA reg)).ciaA = { ctx.ciaA with sdrFull := false } := (keyRead_sdr ctx hsdr).2
        rw [hcall]
        exact hsp
    | ciaWrite id reg value =>
      cases id with
      | portB => cases hreach
      | portA => exact absurd (by simpa [reachesSdr] using hreach) (h.2 reg value rfl)
    | _ => cases hreach
  · exact (keysSame_hostCall ctx c (by simpa using hreach)).sp hsp

theorem run_sp : ∀ {cs : List HostCall} {ctx : RigelContext}, (∀ c ∈ cs, KeysOnly c) → (∀ c ∈ cs, readsIcrA c = false) →
    ctx.ciaA.icrData &&& ciaIcrSp ≠ 0 → (cs.foldl hostCall ctx).ciaA.icrData &&& ciaIcrSp ≠ 0
  | [], _, _, _, hsp => hsp
  | _ :: _, ctx, h, hicr, hsp => by
    obtain ⟨hc, hcs⟩ := List.forall_mem_cons.mp h
    obtain ⟨hone, hrest⟩ := List.forall_mem_cons.mp hicr
    rw [List.foldl_cons]
    exact run_sp hcs hrest (hostCall_sp ctx hc hone hsp)

theorem keyAccepted_sp {ctx : RigelContext} {c : HostCall} (h : (keyAccepted ctx c).isSome = true) :
    (hostCall ctx c).ciaA.icrData &&& ciaIcrSp ≠ 0 := by
  cases c with
  | keyboardInject keycode pressed =>
    have hfull : ctx.ciaA.sdrFull = false := by
      cases hfull : ctx.ciaA.sdrFull with
      | false => rfl
      | true => simp [keyAccepted, hfull] at h
    exact (keyboardInject_accepted hfull keycode pressed).2.2
  | _ => cases h

/-- **The guest reads the keys that have been accepted, in order.** In any run of calls that neither resets the machine nor
writes to the register of CIA-A, whatever else they do: no key is lost, changed or read twice, and what has not been read yet is
one key at most, which waits in the register. From the injection of a key until the guest reads the ICR its SP is set. -/
theorem keys_delivered (ctx : RigelContext) {cs : List HostCall} (h : ∀ c ∈ cs, KeysOnly c) :
    pendingKey ctx ++ keysAccepted ctx cs = keysRead ctx cs ++ pendingKey (cs.foldl hostCall ctx) ∧
      ∀ pre c post, cs = pre ++ c :: post → (keyAccepted (pre.foldl hostCall ctx) c).isSome = true →
        (∀ c' ∈ post, readsIcrA c' = false) → (cs.foldl hostCall ctx).ciaA.icrData &&& ciaIcrSp ≠ 0 := by
  refine ⟨run_keys ctx h, ?_⟩
  rintro pre c post rfl haccepted hpost
  rw [List.foldl_append, List.foldl_cons]
  exact run_sp (fun c' hc' => h c' (by simp [hc'])) hpost (keyAccepted_sp haccepted)

/-- Two keys, of which the second comes too early and is refused, and again once the first has been read. -/
def twoKeys : List HostCall :=
  [.keyboardInject 0x45 true, .step 8, .keyboardInject 0x20 true, .ciaRead .portA 0xC, .keyboardInject 0x20 true, .step 8,
    .ciaRead .portA 0xC]

theorem palMachine_twoKeys : keysRead palMachine twoKeys = [(0x45, true), (0x20, true)] := by
  have hkeys : ∀ c ∈ twoKeys, KeysOnly c := by
    intro c hc
    simp only [twoKeys, List.mem_cons, List.not_mem_nil, or_false] at hc
    rcases hc with rfl | rfl | rfl | rfl | rfl | rfl | rfl
    all_goals exact ⟨by simp, fun reg value heq => by cases heq⟩
  have hdelivered := (keys_delivered palMachine hkeys).1
  have hstart : pendingKey palMachine = [] := by decide +kernel
  have haccepted : keysAccepted palMachine twoKeys = [(0x45, true), (0x20, true)] := by decide +kernel
  have hend : pendingKey (twoKeys.foldl hostCall palMachine) = [] := by decide +kernel
  rw [hstart, haccepted, hend, List.append_nil, List.nil_append] at hdelivered
  exact hdelivered.symm

end Rigel
