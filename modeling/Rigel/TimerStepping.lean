import Mathlib.Algebra.Ring.Nat
import Mathlib.Logic.Function.Conjugate
import Rigel.TimerRun

/-!
# TimerStepping — the timers over a span of ticks, cut in two

A timer that has stopped counts no further, and a running one goes on from its counter, so that a span may be cut
anywhere. The cut also comes between the two timers: what timer A does after it must not depend on what timer B did
before it. Everything but the port pins that the timers drive and the line to Paula is shown to agree.
-/

namespace Rigel

/-! ## A timer with its control byte -/

theorem ciaTimerStop_and (control : UInt8) {m : UInt8} (h : ~~~(0x01 : UInt8) &&& m = m) :
    ciaTimerStop control &&& m = control &&& m := by
  unfold ciaTimerStop
  split
  · rw [UInt8.and_assoc, h]
  · rfl

theorem ciaTimerStop_of_continuous {control : UInt8} (h : ciaTimerContinuous control = true) :
    ciaTimerStop control = control := by
  have hmode : control &&& 0x08 = 0 := by simpa [ciaTimerContinuous] using h
  unfold ciaTimerStop
  rw [if_neg (fun hne => hne hmode)]

theorem ciaTimerStop_runs {control : UInt8} (h : ciaTimerContinuous control = false) :
    ciaTimerRuns (ciaTimerStop control) = false := by
  have hmode : control &&& 0x08 ≠ 0 := by simpa [ciaTimerContinuous] using h
  have hstart : ~~~(0x01 : UInt8) &&& 0x01 = 0 := rfl
  unfold ciaTimerStop ciaTimerRuns
  rw [if_pos hmode, UInt8.and_assoc, hstart, UInt8.and_zero]
  rfl

theorem ciaTimerStop_idem (control : UInt8) : ciaTimerStop (ciaTimerStop control) = ciaTimerStop control := by
  cases hmode : ciaTimerContinuous control with
  | true => rw [ciaTimerStop_of_continuous hmode, ciaTimerStop_of_continuous hmode]
  | false =>
    have hone : control &&& 0x08 ≠ 0 := by simpa [ciaTimerContinuous] using hmode
    have hkeep : ~~~(0x01 : UInt8) &&& 0x08 = 0x08 := rfl
    unfold ciaTimerStop
    rw [if_pos hone, UInt8.and_assoc, hkeep, if_pos hone, UInt8.and_assoc, UInt8.and_self]

structure CiaTimer where
  counter : UInt16
  latch : UInt16
  control : UInt8

namespace CiaTimer

/-- The counter and the underflows after `n` events. -/
def run (t : CiaTimer) (n : Nat) : UInt16 × Nat :=
  timerAfter t.counter t.latch (ciaTimerContinuous t.control) (if ciaTimerRuns t.control then n else 0)

def next (t : CiaTimer) (n : Nat) : CiaTimer :=
  { t with counter := (t.run n).1, control := if (t.run n).2 = 0 then t.control else ciaTimerStop t.control }

theorem run_stopped {t : CiaTimer} (h : ciaTimerRuns t.control = false) (n : Nat) : t.run n = (t.counter, 0) := by
  unfold run
  rw [h]
  exact timerAfter_zero _ _ _

theorem run_running {t : CiaTimer} (h : ciaTimerRuns t.control = true) (n : Nat) :
    t.run n = timerAfter t.counter t.latch (ciaTimerContinuous t.control) n := by
  unfold run
  rw [h]
  rfl

theorem run_add_continuous {t : CiaTimer} (hruns : ciaTimerRuns t.control = true) (hmode : ciaTimerContinuous t.control = true)
    (x y : Nat) : t.run (x + y) = (((t.next x).run y).1, (t.run x).2 + ((t.next x).run y).2) := by
  have hcontrol : (t.next x).control = t.control := by
    show (if (t.run x).2 = 0 then t.control else ciaTimerStop t.control) = t.control
    rw [ciaTimerStop_of_continuous hmode, ite_self]
  have hsecond : (t.next x).run y = timerAfter (t.run x).1 t.latch true y := by
    rw [run_running (hcontrol ▸ hruns), hcontrol, hmode]
    rfl
  rw [hsecond, run_running hruns, run_running hruns, hmode]
  exact timerAfter_add t.counter t.latch x y

/-- A one-shot timer either has not come to its underflow, or has stopped there. -/
theorem run_add_oneShot {t : CiaTimer} (hruns : ciaTimerRuns t.control = true) (hmode : ciaTimerContinuous t.control = false)
    (x y : Nat) : t.run (x + y) = (((t.next x).run y).1, (t.run x).2 + ((t.next x).run y).2) := by
  have hfirst := run_running hruns x
  rw [hmode] at hfirst
  rw [run_running hruns, hmode]
  by_cases hx : x ≤ t.counter.toNat
  · have hnext : t.next x = { t with counter := t.counter - UInt16.ofNat x } := by
      unfold next
      rw [hfirst, timerAfter_short _ _ hx]
      rfl
    have hsecond : (t.next x).run y = timerAfter (t.counter - UInt16.ofNat x) t.latch false y := by
      unfold run
      rw [hnext]
      simp only [hruns, hmode, if_true]
    have hleft := counter_sub_toNat t.counter hx
    rw [hsecond, hfirst, timerAfter_short _ _ hx, Nat.zero_add]
    by_cases hy : x + y ≤ t.counter.toNat
    · rw [timerAfter_short _ _ hy, timerAfter_short _ _ (by omega)]
      refine Prod.ext (UInt16.toNat_inj.mp ?_) rfl
      rw [counter_sub_toNat _ hy, counter_sub_toNat _ (by omega), hleft, Nat.sub_add_eq]
    · rw [timerAfter_oneShot _ (by omega), timerAfter_oneShot _ (by omega)]
  · rw [timerAfter_oneShot _ (Nat.lt_of_not_le hx)] at hfirst
    have hstopped : ciaTimerRuns (t.next x).control = false := by
      show ciaTimerRuns (if (t.run x).2 = 0 then t.control else ciaTimerStop t.control) = false
      rw [hfirst, if_neg (by decide)]
      exact ciaTimerStop_runs hmode
    have hzero : (t.next x).counter = 0 := congrArg Prod.fst hfirst
    rw [run_stopped hstopped, hfirst, hzero, timerAfter_oneShot _ (by omega)]
    rfl

/-- **Events may be cut in two**: the second part starts from the counter and the control byte that the first one left. -/
theorem run_add (t : CiaTimer) (x y : Nat) :
    t.run (x + y) = (((t.next x).run y).1, (t.run x).2 + ((t.next x).run y).2) := by
  cases hruns : ciaTimerRuns t.control with
  | false =>
    have hnext : t.next x = t := by
      unfold next
      rw [run_stopped hruns]
      rfl
    rw [hnext, run_stopped hruns, run_stopped hruns, run_stopped hruns]
    rfl
  | true =>
    cases hmode : ciaTimerContinuous t.control with
    | true => exact run_add_continuous hruns hmode x y
    | false => exact run_add_oneShot hruns hmode x y

end CiaTimer

def timerA (c : CiaState) : CiaTimer := ⟨c.taCounter, c.taLatch, c.cra⟩
def timerB (c : CiaState) : CiaTimer := ⟨c.tbCounter, c.tbLatch, c.crb⟩

/-- The ticks, if timer A is on the E-clock. -/
def taInput (c : CiaState) (ticks : Nat) : Nat := if c.cra &&& 0x20 = 0 then ticks else 0

/-- The ticks or the underflows of timer A, by timer B's input mode. -/
def tbInput (c : CiaState) (ticks uf : Nat) : Nat :=
  let inmode := (c.crb >>> 5) &&& 0x03
  if inmode = 0 then ticks else if (inmode = 2 ∨ inmode = 3) ∧ (inmode ≠ 3 ∨ c.cntLevel) then uf else 0

theorem taAfter_run (c : CiaState) (ticks : UInt64) :
    taAfter c (.eclock ticks) = (timerA c).run (taInput c ticks.toNat) := by
  have hevents : taEvents c (.eclock ticks) = if ciaTimerRuns c.cra then taInput c ticks.toNat else 0 := by
    unfold taEvents taInput
    cases ciaTimerRuns c.cra with
    | true => simp
    | false => simp
  unfold taAfter CiaTimer.run
  rw [hevents]
  rfl

theorem tbAfter_run (c : CiaState) (ticks : UInt64) :
    tbAfter c (.eclock ticks) = (timerB c).run (tbInput c ticks.toNat (taAfter c (.eclock ticks)).2) := by
  have hevents : tbEvents c (.eclock ticks) =
      if ciaTimerRuns c.crb then tbInput c ticks.toNat (taAfter c (.eclock ticks)).2 else 0 := by
    unfold tbEvents tbInput
    cases ciaTimerRuns c.crb with
    | true => simp
    | false => simp
  unfold tbAfter CiaTimer.run
  rw [hevents]
  rfl

theorem taInput_add (c : CiaState) (x y : Nat) : taInput c (x + y) = taInput c x + taInput c y := by
  unfold taInput
  split <;> rfl

theorem tbInput_add (c : CiaState) (x y u v : Nat) : tbInput c (x + y) (u + v) = tbInput c x u + tbInput c y v := by
  unfold tbInput
  simp only
  repeat' split
  all_goals rfl

/-! ## The CIA without its pins -/

/-- A CIA without the outputs that PBON routes to port B and without its line to Paula. -/
def ciaTimersView (c : CiaState) : CiaState := { c with pbTimerOut := 0, pbPulseMask := 0, irqAsserted := false }

def viewRaise (mask : UInt8) (c : CiaState) : CiaState := { c with icrData := c.icrData ||| (mask &&& 0x1F) }

/-- The eighth bit has left. -/
def viewSerialDone (c : CiaState) : CiaState := viewRaise ciaIcrSp { c with serialOutBusy := false, spOutputLevel := true }

/-- The byte in the buffer moves to the shifter. -/
def viewSerialLoad (c : CiaState) : CiaState :=
  { c with serialOutShift := c.serialOutBuffer, serialOutBits := 8, serialOutBusy := true, serialOutBufferFull := false }

def viewSerial (c : CiaState) : CiaState :=
  if c.cra &&& 0x40 = 0 then c
  else
    let c := ciaSerialStartOutput c
    if !c.serialOutBusy then c
    else
      let c := ciaSerialShiftBit c
      if c.serialOutBits ≠ 0 then c
      else ciaSerialStartOutput (viewSerialDone c)

/-- What the underflows of timer A do to the interrupts and to the serial shifter. -/
def viewUnderflows (uf : Nat) (c : CiaState) : CiaState := if uf = 0 then c else viewSerial^[uf] (viewRaise ciaIcrTa c)

def viewTaCounter (counter : UInt16) (c : CiaState) : CiaState := { c with taCounter := counter }

def viewTaStop (uf : Nat) (c : CiaState) : CiaState := { c with cra := if uf = 0 then c.cra else ciaTimerStop c.cra }

def viewTa (ta : UInt16 × Nat) (c : CiaState) : CiaState := viewTaStop ta.2 (viewUnderflows ta.2 (viewTaCounter ta.1 c))

def viewTb (tb : UInt16 × Nat) (c : CiaState) : CiaState :=
  { c with
    tbCounter := tb.1
    crb := if tb.2 = 0 then c.crb else ciaTimerStop c.crb
    icrData := c.icrData ||| (if tb.2 = 0 then 0 else ciaIcrTb) }

theorem view_startOutput (c : CiaState) :
    ciaTimersView (ciaSerialStartOutput c) = ciaSerialStartOutput (ciaTimersView c) := by
  unfold ciaSerialStartOutput
  split
  · rename_i h
    exact (if_pos h).symm
  · rename_i h
    exact (if_neg h).symm

theorem view_underflow (b : CiaBus) :
    ciaTimersView (ciaSerialOnTimerAUnderflow b).cia = viewSerial (ciaTimersView b.cia) := by
  have hstart := view_startOutput b.cia
  unfold ciaSerialOnTimerAUnderflow viewSerial
  simp only
  by_cases hmode : b.cia.cra &&& 0x40 = 0
  · rw [if_pos hmode]
    exact (if_pos hmode).symm
  have hmode' : ¬ (ciaTimersView b.cia).cra &&& 0x40 = 0 := hmode
  rw [if_neg hmode, if_neg hmode', ← hstart]
  by_cases hbusy : (!(ciaSerialStartOutput b.cia).serialOutBusy) = true
  · rw [if_pos hbusy]
    exact (if_pos hbusy).symm
  have hbusy' : ¬ (!(ciaTimersView (ciaSerialStartOutput b.cia)).serialOutBusy) = true := hbusy
  rw [if_neg hbusy, if_neg hbusy']
  by_cases hbits : (ciaSerialShiftBit (ciaSerialStartOutput b.cia)).serialOutBits ≠ 0
  · rw [if_pos hbits]
    exact (if_pos hbits).symm
  · have hbits' : ¬ (ciaSerialShiftBit (ciaTimersView (ciaSerialStartOutput b.cia))).serialOutBits ≠ 0 := hbits
    rw [if_neg hbits, if_neg hbits']
    exact view_startOutput _

theorem view_output (c : CiaState) (control : UInt8) (uf : Nat) :
    ciaTimersView (ciaTimerApplyUnderflowOutput c control uf) = ciaTimersView c := by
  unfold ciaTimerApplyUnderflowOutput
  simp only
  repeat' split
  all_goals rfl

theorem view_taStage (b : CiaBus) (ta : UInt16 × Nat) :
    ciaTimersView (taStage b ta).cia = viewTa ta (ciaTimersView b.cia) := by
  have hiter : ∀ (n : Nat) (b : CiaBus),
      ciaTimersView (ciaSerialOnTimerAUnderflow^[n] b).cia = viewSerial^[n] (ciaTimersView b.cia) := by
    intro n
    induction n with
    | zero => exact fun _ => rfl
    | succ n ih =>
      intro b
      rw [Function.iterate_succ_apply, Function.iterate_succ_apply, ih, view_underflow]
  unfold taStage ciaTimerAUnderflows viewTa viewUnderflows viewTaStop
  by_cases h0 : ta.2 = 0
  · rw [if_pos h0, if_pos h0, if_pos h0]
    rfl
  rw [if_neg h0, if_neg h0, if_neg h0]
  simp only
  generalize hraised : ciaInterruptRaise { b with cia := { b.cia with taCounter := ta.1 } } ciaIcrTa = raised
  have hview : ciaTimersView raised.cia = viewRaise ciaIcrTa (viewTaCounter ta.1 (ciaTimersView b.cia)) := by
    rw [← hraised]
    rfl
  have hout := hiter ta.2 ⟨ciaTimerApplyUnderflowOutput raised.cia raised.cia.cra ta.2, raised.irq⟩
  rw [view_output, hview] at hout
  rw [← hout]
  rfl

theorem view_tbStage (b : CiaBus) (tb : UInt16 × Nat) :
    ciaTimersView (tbStage b tb).cia = viewTb tb (ciaTimersView b.cia) := by
  unfold tbStage ciaTimerBUnderflows viewTb
  by_cases h0 : tb.2 = 0
  · rw [if_pos h0, if_pos h0, if_pos h0, UInt8.or_zero]
    rfl
  rw [if_neg h0, if_neg h0, if_neg h0]
  simp only
  generalize hraised : ciaInterruptRaise { b with cia := { b.cia with tbCounter := tb.1 } } ciaIcrTb = raised
  have hview : ciaTimersView raised.cia =
      { ciaTimersView b.cia with tbCounter := tb.1, icrData := b.cia.icrData ||| ciaIcrTb } := by
    rw [← hraised]
    rfl
  have hout := view_output raised.cia raised.cia.crb tb.2
  rw [hview] at hout
  have hcrb : (ciaTimersView (ciaTimerApplyUnderflowOutput raised.cia raised.cia.crb tb.2)).crb = b.cia.crb := by
    rw [hout]
    rfl
  show { ciaTimersView (ciaTimerApplyUnderflowOutput raised.cia raised.cia.crb tb.2) with
    crb := ciaTimerStop (ciaTimersView (ciaTimerApplyUnderflowOutput raised.cia raised.cia.crb tb.2)).crb } = _
  rw [hcrb, hout]
  rfl

/-! ## Edits that the serial shifter does not see -/

/-- A change of the CIA that the shifter neither reads nor is disturbed by. -/
structure SerialBlind (f : CiaState → CiaState) : Prop where
  start : ∀ c, ciaSerialStartOutput (f c) = f (ciaSerialStartOutput c)
  mode : ∀ c, (f c).cra &&& 0x40 = c.cra &&& 0x40
  busy : ∀ c, (f c).serialOutBusy = c.serialOutBusy
  bits : ∀ c, (f c).serialOutBits = c.serialOutBits
  shift : ∀ c, ciaSerialShiftBit (f c) = f (ciaSerialShiftBit c)
  done : ∀ c, viewSerialDone (f c) = f (viewSerialDone c)

theorem SerialBlind.commute {f : CiaState → CiaState} (h : SerialBlind f) : Function.Commute viewSerial f := by
  intro c
  unfold viewSerial
  simp only
  by_cases hmode : c.cra &&& 0x40 = 0
  · rw [if_pos hmode, if_pos ((h.mode c).trans hmode)]
  rw [if_neg hmode, if_neg (fun hf => hmode ((h.mode c).symm.trans hf)), h.start, h.busy]
  by_cases hbusy : (!(ciaSerialStartOutput c).serialOutBusy) = true
  · rw [if_pos hbusy, if_pos hbusy]
  rw [if_neg hbusy, if_neg hbusy, h.shift, h.bits]
  by_cases hbits : (ciaSerialShiftBit (ciaSerialStartOutput c)).serialOutBits ≠ 0
  · rw [if_pos hbits, if_pos hbits]
  · rw [if_neg hbits, if_neg hbits, h.done, h.start]

/-- A change that leaves the shifter and the interrupts alone. -/
theorem startOutput_edit {f : CiaState → CiaState} (hbusy : ∀ c, (f c).serialOutBusy = c.serialOutBusy)
    (hfull : ∀ c, (f c).serialOutBufferFull = c.serialOutBufferFull)
    (hload : ∀ c, viewSerialLoad (f c) = f (viewSerialLoad c)) (c : CiaState) :
    ciaSerialStartOutput (f c) = f (ciaSerialStartOutput c) := by
  unfold ciaSerialStartOutput
  rw [hbusy, hfull]
  split
  · rfl
  · exact hload c

theorem serialBlind_taCounter (counter : UInt16) : SerialBlind (viewTaCounter counter) where
  start := startOutput_edit (fun _ => rfl) (fun _ => rfl) fun _ => rfl
  mode _ := rfl
  busy _ := rfl
  bits _ := rfl
  shift _ := rfl
  done _ := rfl

theorem serialBlind_taStop (uf : Nat) : SerialBlind (viewTaStop uf) where
  start := startOutput_edit (fun _ => rfl) (fun _ => rfl) fun _ => rfl
  mode c := by
    show (if uf = 0 then c.cra else ciaTimerStop c.cra) &&& 0x40 = c.cra &&& 0x40
    split
    · rfl
    · exact ciaTimerStop_and c.cra rfl
  busy _ := rfl
  bits _ := rfl
  shift _ := rfl
  done _ := rfl

theorem or_swap8 (x m k : UInt8) : x ||| m ||| k = x ||| k ||| m := by
  rw [UInt8.or_assoc, UInt8.or_comm m, ← UInt8.or_assoc]

theorem serialBlind_raise (mask : UInt8) : SerialBlind (viewRaise mask) where
  start := startOutput_edit (fun _ => rfl) (fun _ => rfl) fun _ => rfl
  mode _ := rfl
  busy _ := rfl
  bits _ := rfl
  shift _ := rfl
  done c := by
    unfold viewSerialDone viewRaise
    simp only [or_swap8 _ (mask &&& 0x1F)]

theorem serialBlind_tb (tb : UInt16 × Nat) : SerialBlind (viewTb tb) where
  start := startOutput_edit (fun _ => rfl) (fun _ => rfl) fun _ => rfl
  mode _ := rfl
  busy _ := rfl
  bits _ := rfl
  shift _ := rfl
  done c := by
    unfold viewSerialDone viewTb viewRaise
    simp only [or_swap8 _ (ciaIcrSp &&& 0x1F)]

/-! ## Two steps -/

theorem viewRaise_idem (mask : UInt8) (c : CiaState) : viewRaise mask (viewRaise mask c) = viewRaise mask c := by
  unfold viewRaise
  simp only
  rw [UInt8.or_assoc, UInt8.or_self]

theorem viewUnderflows_add (u v : Nat) (c : CiaState) :
    viewUnderflows v (viewUnderflows u c) = viewUnderflows (u + v) c := by
  unfold viewUnderflows
  by_cases hu : u = 0
  · rw [if_pos hu, hu, Nat.zero_add]
  by_cases hv : v = 0
  · rw [if_pos hv, hv, Nat.add_zero]
  have hraise := ((serialBlind_raise ciaIcrTa).commute.iterate_left u) (viewRaise ciaIcrTa c)
  rw [if_neg hu, if_neg hv, if_neg (by omega), ← hraise, viewRaise_idem, ← Function.iterate_add_apply, Nat.add_comm u v]

theorem viewUnderflows_comm {f : CiaState → CiaState} (h : SerialBlind f)
    (hraise : ∀ c, viewRaise ciaIcrTa (f c) = f (viewRaise ciaIcrTa c)) (u : Nat) (c : CiaState) :
    viewUnderflows u (f c) = f (viewUnderflows u c) := by
  unfold viewUnderflows
  split
  · rfl
  · rw [hraise]
    exact h.commute.iterate_left u _

theorem viewTaStop_add (u v : Nat) (c : CiaState) : viewTaStop v (viewTaStop u c) = viewTaStop (u + v) c := by
  unfold viewTaStop
  simp only
  by_cases hu : u = 0
  · rw [if_pos hu, hu, Nat.zero_add]
  · have hsum : ¬ u + v = 0 := by omega
    rw [if_neg hu, if_neg hsum, ciaTimerStop_idem, ite_self]

theorem viewTa_add (ta ta' : UInt16 × Nat) (c : CiaState) : viewTa ta' (viewTa ta c) = viewTa (ta'.1, ta.2 + ta'.2) c := by
  have hstop := viewUnderflows_comm (serialBlind_taStop ta.2) (fun _ => rfl) ta'.2
  have hcount := viewUnderflows_comm (serialBlind_taCounter ta'.1) (fun _ => rfl) ta.2
  show viewTaStop ta'.2 (viewUnderflows ta'.2 (viewTaStop ta.2 (viewTaCounter ta'.1 (viewUnderflows ta.2 _)))) = _
  rw [← hcount, hstop, viewUnderflows_add, viewTaStop_add]
  rfl

theorem viewTb_add (tb tb' : UInt16 × Nat) (c : CiaState) : viewTb tb' (viewTb tb c) = viewTb (tb'.1, tb.2 + tb'.2) c := by
  unfold viewTb
  simp only
  by_cases hu : tb.2 = 0
  · rw [if_pos hu, if_pos hu, hu, Nat.zero_add, UInt8.or_zero]
  · have hsum : ¬ tb.2 + tb'.2 = 0 := by omega
    rw [if_neg hu, if_neg hu, if_neg hsum, if_neg hsum, ciaTimerStop_idem, ite_self]
    split
    · rw [UInt8.or_zero]
    · rw [UInt8.or_assoc, UInt8.or_self]

/-- Timer A after the cut and timer B before it do not meet. -/
theorem viewTa_viewTb (ta tb : UInt16 × Nat) (c : CiaState) : viewTa ta (viewTb tb c) = viewTb tb (viewTa ta c) := by
  have hraise : ∀ c, viewRaise ciaIcrTa (viewTb tb c) = viewTb tb (viewRaise ciaIcrTa c) := by
    intro c
    unfold viewTb viewRaise
    simp only [or_swap8 _ (ciaIcrTa &&& 0x1F)]
  have hunder := viewUnderflows_comm (serialBlind_tb tb) hraise ta.2 (viewTaCounter ta.1 c)
  show viewTaStop ta.2 (viewUnderflows ta.2 (viewTb tb (viewTaCounter ta.1 c))) = _
  rw [hunder]
  rfl

theorem viewSerial_timers (c : CiaState) :
    timerA (viewSerial c) = timerA c ∧ timerB (viewSerial c) = timerB c ∧ (viewSerial c).cntLevel = c.cntLevel := by
  have hstart : ∀ c, timerA (ciaSerialStartOutput c) = timerA c ∧ timerB (ciaSerialStartOutput c) = timerB c ∧
      (ciaSerialStartOutput c).cntLevel = c.cntLevel := by
    intro c
    unfold ciaSerialStartOutput
    split <;> exact ⟨rfl, rfl, rfl⟩
  unfold viewSerial
  simp only
  split
  · exact ⟨rfl, rfl, rfl⟩
  split
  · exact hstart c
  split
  · exact hstart c
  · obtain ⟨ha, hb, hc⟩ := hstart (viewSerialDone (ciaSerialShiftBit (ciaSerialStartOutput c)))
    exact ⟨ha.trans (hstart c).1, hb.trans (hstart c).2.1, hc.trans (hstart c).2.2⟩

theorem viewUnderflows_timers (u : Nat) (c : CiaState) : timerA (viewUnderflows u c) = timerA c ∧
    timerB (viewUnderflows u c) = timerB c ∧ (viewUnderflows u c).cntLevel = c.cntLevel := by
  have hiter : ∀ (n : Nat) (c : CiaState), timerA (viewSerial^[n] c) = timerA c ∧ timerB (viewSerial^[n] c) = timerB c ∧
      (viewSerial^[n] c).cntLevel = c.cntLevel := by
    intro n
    induction n with
    | zero => exact fun _ => ⟨rfl, rfl, rfl⟩
    | succ n ih =>
      intro c
      obtain ⟨ha, hb, hc⟩ := viewSerial_timers c
      rw [Function.iterate_succ_apply, (ih _).1, (ih _).2.1, (ih _).2.2]
      exact ⟨ha, hb, hc⟩
  unfold viewUnderflows
  split
  · exact ⟨rfl, rfl, rfl⟩
  · exact hiter u _

def viewStep (c : CiaState) (ticks : UInt64) : CiaState :=
  viewTb (tbAfter c (.eclock ticks)) (viewTa (taAfter c (.eclock ticks)) c)

theorem view_step (b : CiaBus) (ticks : UInt64) :
    ciaTimersView (ciaTimersStep b ticks).cia = viewStep (ciaTimersView b.cia) ticks := by
  have hclock : ciaTimersStep b ticks = _ := ciaTimersClock_eq b (.eclock ticks)
  rw [hclock, view_tbStage, view_taStage]
  rfl

theorem viewStep_timers (c : CiaState) (ticks : UInt64) :
    timerA (viewStep c ticks) = (timerA c).next (taInput c ticks.toNat) ∧
      timerB (viewStep c ticks) = (timerB c).next (tbInput c ticks.toNat (taAfter c (.eclock ticks)).2) ∧
      (viewStep c ticks).cntLevel = c.cntLevel := by
  have hta := taAfter_run c ticks
  have htb := tbAfter_run c ticks
  unfold viewStep
  generalize taAfter c (.eclock ticks) = ta at *
  generalize tbAfter c (.eclock ticks) = tb at *
  obtain ⟨ha, hb, hc⟩ := viewUnderflows_timers ta.2 (viewTaCounter ta.1 c)
  generalize hmid : viewUnderflows ta.2 (viewTaCounter ta.1 c) = mid at ha hb hc
  have hend : viewTb tb (viewTa ta c) = viewTb tb (viewTaStop ta.2 mid) := by rw [← hmid]; rfl
  rw [hend]
  refine ⟨?_, ?_, hc⟩
  · have hcra : mid.cra = c.cra := congrArg CiaTimer.control ha
    have hcount : mid.taCounter = ta.1 := congrArg CiaTimer.counter ha
    have hlatch : mid.taLatch = c.taLatch := congrArg CiaTimer.latch ha
    show CiaTimer.mk mid.taCounter mid.taLatch (if ta.2 = 0 then mid.cra else ciaTimerStop mid.cra) = _
    rw [hcra, hcount, hlatch, hta]
    rfl
  · have hcrb : mid.crb = c.crb := congrArg CiaTimer.control hb
    have hlatch : mid.tbLatch = c.tbLatch := congrArg CiaTimer.latch hb
    show CiaTimer.mk tb.1 mid.tbLatch (if tb.2 = 0 then mid.crb else ciaTimerStop mid.crb) = _
    rw [hcrb, hlatch, htb]
    rfl

theorem ciaTimerStop_inmode (control : UInt8) :
    ((ciaTimerStop control >>> 5) &&& 0x03 : UInt8) = ((control >>> 5) &&& 0x03 : UInt8) := by
  unfold ciaTimerStop
  split
  · rw [UInt8.shiftRight_and, UInt8.and_assoc]
    rfl
  · rfl

/-- The input modes stay what they were. -/
theorem viewStep_inputs (c : CiaState) (ticks : UInt64) (n u : Nat) :
    taInput (viewStep c ticks) n = taInput c n ∧ tbInput (viewStep c ticks) n u = tbInput c n u := by
  obtain ⟨ha, hb, hc⟩ := viewStep_timers c ticks
  have hcra : (viewStep c ticks).cra &&& 0x20 = c.cra &&& 0x20 := by
    have hnext : (viewStep c ticks).cra = ((timerA c).next (taInput c ticks.toNat)).control := congrArg CiaTimer.control ha
    rw [hnext]
    unfold CiaTimer.next
    simp only
    split
    · rfl
    · exact ciaTimerStop_and c.cra rfl
  have hcrb : (((viewStep c ticks).crb >>> 5) &&& 0x03 : UInt8) = ((c.crb >>> 5) &&& 0x03 : UInt8) := by
    have hnext : (viewStep c ticks).crb =
        ((timerB c).next (tbInput c ticks.toNat (taAfter c (.eclock ticks)).2)).control := congrArg CiaTimer.control hb
    rw [hnext]
    unfold CiaTimer.next
    simp only
    split
    · rfl
    · exact ciaTimerStop_inmode c.crb
  unfold taInput tbInput
  rw [hcra, hcrb, hc]
  exact ⟨rfl, rfl⟩

theorem viewStep_add (c : CiaState) {x y : UInt64} (h : x.toNat + y.toNat < 2 ^ 64) :
    viewStep c (x + y) = viewStep (viewStep c x) y := by
  have hsum : (x + y).toNat = x.toNat + y.toNat := by rw [UInt64.toNat_add, Nat.mod_eq_of_lt h]
  obtain ⟨ha, hb, -⟩ := viewStep_timers c x
  have hta : taAfter c (.eclock (x + y)) = ((taAfter (viewStep c x) (.eclock y)).1,
      (taAfter c (.eclock x)).2 + (taAfter (viewStep c x) (.eclock y)).2) := by
    rw [taAfter_run, taAfter_run, taAfter_run, ha, (viewStep_inputs c x y.toNat 0).1, hsum, taInput_add]
    exact CiaTimer.run_add _ _ _
  have htb : tbAfter c (.eclock (x + y)) = ((tbAfter (viewStep c x) (.eclock y)).1,
      (tbAfter c (.eclock x)).2 + (tbAfter (viewStep c x) (.eclock y)).2) := by
    rw [tbAfter_run, tbAfter_run c x, tbAfter_run (viewStep c x) y, hb, (viewStep_inputs c x y.toNat _).2, hta, hsum,
      tbInput_add]
    exact CiaTimer.run_add _ _ _
  have hlast : viewStep (viewStep c x) y =
      viewTb (tbAfter (viewStep c x) (.eclock y)) (viewTa (taAfter (viewStep c x) (.eclock y)) (viewStep c x)) := rfl
  rw [hlast]
  unfold viewStep at hta htb ⊢
  generalize taAfter (viewTb _ _) (.eclock y) = ta' at hta ⊢
  generalize tbAfter (viewTb _ _) (.eclock y) = tb' at htb ⊢
  rw [viewTa_viewTb, viewTa_add, viewTb_add, hta, htb]

/-- **A span of ticks may be cut anywhere**, whatever the modes of the two timers: their counters and latches, the control
bytes, the interrupt data and the serial shifter are the same. And a timer's two ways to advance come to the same counter
and the same underflows, those of its events one by one if it is continuous. -/
theorem ciaTimers_cut :
    (∀ (b : CiaBus) (x y : UInt64), x.toNat + y.toNat < 2 ^ 31 →
      ciaTimersView (ciaTimersStep b (x + y)).cia = ciaTimersView (ciaTimersStep (ciaTimersStep b x) y).cia) ∧
    ∀ (counter latch : UInt16) (continuous : Bool) (n : UInt64), n.toNat < 2 ^ 31 →
      ciaTimerAdvance counter latch continuous n = ciaTimerAdvanceEvents counter latch continuous n.toNat ∧
        (continuous = true → ciaTimerAdvance counter latch continuous n = (timerTick latch)^[n.toNat] (counter, 0)) := by
  refine ⟨fun b x y h => ?_, fun counter latch continuous n _ => ⟨?_, fun hmode => ?_⟩⟩
  · rw [view_step, view_step, view_step]
    exact viewStep_add _ (Nat.lt_of_lt_of_le h (by decide))
  · rw [ciaTimerAdvance_eq, ciaTimerAdvanceEvents_eq]
  · rw [ciaTimerAdvance_eq, hmode, timerTick_iterate, Nat.zero_add]

/-- Timer B counts a short timer A, which sends a byte. -/
def cascadeBus : CiaBus where
  cia := { ciaInit .portA with cra := 0x41, crb := 0x49, taLatch := 1, taCounter := 0, tbLatch := 7, tbCounter := 2 }
  irq := interruptReset

theorem ciaTimers_cut_cascade :
    ciaTimersView (ciaTimersStep cascadeBus (3 + 4)).cia =
        ciaTimersView (ciaTimersStep (ciaTimersStep cascadeBus 3) 4).cia ∧
      ciaTimerAdvance 2 0 true 5 = ciaTimerAdvanceEvents 2 0 true 5 :=
  ⟨ciaTimers_cut.1 cascadeBus 3 4 (by decide), (ciaTimers_cut.2 2 0 true 5 (by decide)).1⟩

end Rigel
