import Rigel.Bits
import Rigel.TimerStepping

/-!
# TimerPins — the port pins that the two timers drive

PB6 belongs to timer A and PB7 to timer B. The helper that drives them is told the control byte and not the timer, and
picks PB6 when that byte equals CRA. So timer B drives timer A's pin while both control bytes are the same.
-/

namespace Rigel

/-! ## The other pin -/

theorem pb6_toggled (x : UInt8) : (x ^^^ 0x40) &&& ~~~0x80 ≠ x &&& ~~~0x80 :=
  uint8_forall (P := fun x => (x ^^^ 0x40) &&& ~~~0x80 ≠ x &&& ~~~0x80) (by decide +kernel) x

theorem pb6_cleared (x : UInt8) : x &&& ~~~0x40 &&& ~~~0x80 = x &&& ~~~0x80 ↔ x &&& 0x40 = 0 :=
  uint8_forall (P := fun x => x &&& ~~~0x40 &&& ~~~0x80 = x &&& ~~~0x80 ↔ x &&& 0x40 = 0) (by decide +kernel) x

theorem pb6_set (x : UInt8) : (x ||| 0x40) &&& ~~~0x80 = x &&& ~~~0x80 ↔ x &&& 0x40 ≠ 0 :=
  uint8_forall (P := fun x => (x ||| 0x40) &&& ~~~0x80 = x &&& ~~~0x80 ↔ x &&& 0x40 ≠ 0) (by decide +kernel) x

/-! ## The outputs -/

/-- Both output registers agree but for the bits of `mask`. -/
structure OutputsAgree (mask : UInt8) (c c' : CiaState) : Prop where
  timerOut : c'.pbTimerOut &&& ~~~mask = c.pbTimerOut &&& ~~~mask
  pulseMask : c'.pbPulseMask &&& ~~~mask = c.pbPulseMask &&& ~~~mask

/-- The helper drives the pin that it picks. -/
theorem output_own (c : CiaState) (control : UInt8) (uf : Nat) :
    OutputsAgree (if control = c.cra then 0x40 else 0x80) c (ciaTimerApplyUnderflowOutput c control uf) := by
  unfold ciaTimerApplyUnderflowOutput
  simp only
  generalize (if control = c.cra then (0x40 : UInt8) else 0x80) = mask
  split
  · exact ⟨rfl, rfl⟩
  split
  · refine ⟨?_, uint8_and_not_and_not _ _⟩
    simp only
    split
    · exact uint8_xor_and_not _ _
    · rfl
  · exact ⟨uint8_and_not_and_not _ _, uint8_or_and_not _ _⟩

/-- That the helper leaves PB6 as it was, though it picks it. -/
def LeavesPb6 (c : CiaState) (control : UInt8) (uf : Nat) : Prop :=
  control &&& 0x02 ≠ 0 →
    if control &&& 0x04 ≠ 0 then uf % 2 = 0 ∧ c.pbPulseMask &&& 0x40 = 0
    else c.pbTimerOut &&& 0x40 = 0 ∧ c.pbPulseMask &&& 0x40 ≠ 0

theorem output_other (c : CiaState) (uf : Nat) :
    OutputsAgree 0x80 c (ciaTimerApplyUnderflowOutput c c.cra uf) ↔ LeavesPb6 c c.cra uf := by
  unfold ciaTimerApplyUnderflowOutput LeavesPb6
  simp only [if_true]
  by_cases hon : c.cra &&& 0x02 = 0
  · rw [if_pos hon]
    exact iff_of_true ⟨rfl, rfl⟩ fun hne => absurd hon hne
  rw [if_neg hon]
  by_cases hmode : c.cra &&& 0x04 ≠ 0
  · rw [if_pos hmode, if_pos hmode]
    constructor
    · intro h _
      have hpulse := (pb6_cleared _).mp h.pulseMask
      refine ⟨?_, hpulse⟩
      by_cases hodd : uf % 2 = 1
      · have htoggle := h.timerOut
        rw [if_pos hodd] at htoggle
        exact absurd htoggle (pb6_toggled _)
      · omega
    · intro h
      obtain ⟨heven, hpulse⟩ := h hon
      refine ⟨?_, (pb6_cleared _).mpr hpulse⟩
      rw [if_neg (by omega)]
  · rw [if_neg hmode, if_neg hmode]
    constructor
    · exact fun h _ => ⟨(pb6_cleared _).mp h.timerOut, (pb6_set _).mp h.pulseMask⟩
    · exact fun h => ⟨(pb6_cleared _).mpr (h hon).1, (pb6_set _).mpr (h hon).2⟩

/-! ## A step -/

/-- The port pins and CRA. -/
structure SamePins (c c' : CiaState) : Prop where
  timerOut : c'.pbTimerOut = c.pbTimerOut
  pulseMask : c'.pbPulseMask = c.pbPulseMask
  cra : c'.cra = c.cra

theorem SamePins.trans {a b c : CiaState} (h : SamePins a b) (h' : SamePins b c) : SamePins a c :=
  ⟨h'.timerOut.trans h.timerOut, h'.pulseMask.trans h.pulseMask, h'.cra.trans h.cra⟩

theorem samePins_startOutput (c : CiaState) : SamePins c (ciaSerialStartOutput c) := by
  unfold ciaSerialStartOutput
  split <;> exact ⟨rfl, rfl, rfl⟩

theorem samePins_underflow (b : CiaBus) : SamePins b.cia (ciaSerialOnTimerAUnderflow b).cia := by
  have hshift : SamePins b.cia (ciaSerialShiftBit (ciaSerialStartOutput b.cia)) :=
    (samePins_startOutput b.cia).trans ⟨rfl, rfl, rfl⟩
  unfold ciaSerialOnTimerAUnderflow
  simp only
  split
  · exact ⟨rfl, rfl, rfl⟩
  split
  · exact samePins_startOutput b.cia
  split
  · exact hshift
  · refine (hshift.trans ?_).trans (samePins_startOutput _)
    exact ⟨rfl, rfl, rfl⟩

theorem samePins_iterate : ∀ (n : Nat) (b : CiaBus), SamePins b.cia (ciaSerialOnTimerAUnderflow^[n] b).cia
  | 0, _ => ⟨rfl, rfl, rfl⟩
  | n + 1, b => by
    rw [Function.iterate_succ_apply]
    exact (samePins_underflow b).trans (samePins_iterate n _)

theorem output_congr {c c' : CiaState} (h : SamePins c c') (control : UInt8) (uf : Nat) :
    SamePins (ciaTimerApplyUnderflowOutput c control uf) (ciaTimerApplyUnderflowOutput c' control uf) := by
  unfold ciaTimerApplyUnderflowOutput
  rw [h.cra]
  simp only
  split
  · exact h
  split
  · exact ⟨by simp only [h.timerOut], by simp only [h.pulseMask], rfl⟩
  · exact ⟨by simp only [h.timerOut], by simp only [h.pulseMask], rfl⟩

theorem output_cra (c : CiaState) (control : UInt8) (uf : Nat) : (ciaTimerApplyUnderflowOutput c control uf).cra = c.cra := by
  unfold ciaTimerApplyUnderflowOutput
  simp only
  repeat' split
  all_goals rfl

/-- **What the underflows of timer A leave at the port** and in CRA. -/
theorem taUnderflows_pins (b : CiaBus) {uf : Nat} (h : uf ≠ 0) :
    SamePins { ciaTimerApplyUnderflowOutput b.cia b.cia.cra uf with cra := ciaTimerStop b.cia.cra }
      (ciaTimerAUnderflows b uf).cia := by
  have hraise : SamePins b.cia (ciaInterruptRaise b ciaIcrTa).cia := ⟨rfl, rfl, rfl⟩
  unfold ciaTimerAUnderflows
  rw [if_neg h]
  simp only
  generalize ciaInterruptRaise b ciaIcrTa = raised at hraise ⊢
  have hout := output_congr hraise b.cia.cra uf
  have hserial := samePins_iterate uf ⟨ciaTimerApplyUnderflowOutput raised.cia b.cia.cra uf, raised.irq⟩
  have hcra := hserial.cra.trans ((output_cra raised.cia b.cia.cra uf).trans hraise.cra)
  rw [hraise.cra]
  exact ⟨hserial.timerOut.trans hout.timerOut, hserial.pulseMask.trans hout.pulseMask, congrArg ciaTimerStop hcra⟩

theorem taStage_pins (b : CiaBus) (ta : UInt16 × Nat) :
    OutputsAgree 0x40 b.cia (taStage b ta).cia ∧
      (taStage b ta).cia.cra = (if ta.2 = 0 then b.cia.cra else ciaTimerStop b.cia.cra) ∧
      (taStage b ta).cia.crb = b.cia.crb := by
  have hcrb := (sameTimers_underflows { b with cia := { b.cia with taCounter := ta.1 } } ta.2).crb
  by_cases h0 : ta.2 = 0
  · have hstage : taStage b ta = { b with cia := { b.cia with taCounter := ta.1 } } := by
      unfold taStage ciaTimerAUnderflows
      rw [if_pos h0]
    rw [hstage, if_pos h0]
    exact ⟨⟨rfl, rfl⟩, rfl, rfl⟩
  · have hpins := taUnderflows_pins { b with cia := { b.cia with taCounter := ta.1 } } h0
    have hown := output_own { b.cia with taCounter := ta.1 } b.cia.cra ta.2
    rw [if_pos rfl] at hown
    rw [if_neg h0]
    refine ⟨⟨?_, ?_⟩, hpins.cra, hcrb⟩
    · exact (congrArg (· &&& ~~~0x40) hpins.timerOut).trans hown.timerOut
    · exact (congrArg (· &&& ~~~0x40) hpins.pulseMask).trans hown.pulseMask

/-- Timer B's half: the helper at timer B's control byte, if timer B underflows. -/
theorem tbStage_pins (b : CiaBus) {tb : UInt16 × Nat} (h : tb.2 ≠ 0) :
    OutputsAgree 0x80 b.cia (tbStage b tb).cia ↔
      OutputsAgree 0x80 b.cia (ciaTimerApplyUnderflowOutput b.cia b.cia.crb tb.2) := by
  have hraise : SamePins b.cia (ciaInterruptRaise { b with cia := { b.cia with tbCounter := tb.1 } } ciaIcrTb).cia :=
    ⟨rfl, rfl, rfl⟩
  have hout := output_congr hraise b.cia.crb tb.2
  have hstage : SamePins (ciaTimerApplyUnderflowOutput b.cia b.cia.crb tb.2) (tbStage b tb).cia := by
    unfold tbStage ciaTimerBUnderflows
    rw [if_neg h]
    exact ⟨hout.timerOut, hout.pulseMask, hout.cra⟩
  constructor
  · exact fun hag => ⟨hstage.timerOut ▸ hag.timerOut, hstage.pulseMask ▸ hag.pulseMask⟩
  · exact fun hag => ⟨hstage.timerOut.symm ▸ hag.timerOut, hstage.pulseMask.symm ▸ hag.pulseMask⟩

/-- **The outputs are separate**: timer A's part of a step moves PB6 only, and timer B's part PB7 only. -/
structure OutputsSeparate (b : CiaBus) (k : TimerClock) : Prop where
  timerA : OutputsAgree 0x40 b.cia (taStage b (taAfter b.cia k)).cia
  timerB : OutputsAgree 0x80 (taStage b (taAfter b.cia k)).cia (ciaTimersClock b k).cia

/-- Timer B does not underflow in the step, or its control byte is not CRA as timer A leaves it, or driving timer A's pin
happens to change nothing: a toggle by an even number of underflows, or a pulse on a pin that pulses already. -/
def Pb6Spared (b : CiaBus) (k : TimerClock) : Prop :=
  (tbAfter b.cia k).2 ≠ 0 → b.cia.crb = b.cia.cra →
    ((taAfter b.cia k).2 ≠ 0 → ciaTimerContinuous b.cia.cra = true) → b.cia.cra &&& 0x02 ≠ 0 →
      if b.cia.cra &&& 0x04 ≠ 0 then
        (tbAfter b.cia k).2 % 2 = 0 ∧ ((taAfter b.cia k).2 = 0 → b.cia.pbPulseMask &&& 0x40 = 0)
      else (taAfter b.cia k).2 = 0 → b.cia.pbTimerOut &&& 0x40 = 0 ∧ b.cia.pbPulseMask &&& 0x40 ≠ 0

/-- A timer that underflows runs. -/
theorem tbAfter_runs {c : CiaState} {k : TimerClock} (h : (tbAfter c k).2 ≠ 0) : ciaTimerRuns c.crb = true := by
  cases hruns : ciaTimerRuns c.crb with
  | true => rfl
  | false =>
    have hevents : tbEvents c k = 0 := by simp [tbEvents, hruns]
    rw [tbAfter_of_none hevents] at h
    exact absurd rfl h

/-- What timer A's underflows make of PB6, as far as timer B could still move it. -/
theorem leavesPb6_after (b : CiaBus) (ta : UInt16 × Nat) (uf : Nat) (hon : b.cia.cra &&& 0x02 ≠ 0) :
    LeavesPb6 (taStage b ta).cia b.cia.cra uf ↔
      if b.cia.cra &&& 0x04 ≠ 0 then uf % 2 = 0 ∧ (ta.2 = 0 → b.cia.pbPulseMask &&& 0x40 = 0)
      else ta.2 = 0 → b.cia.pbTimerOut &&& 0x40 = 0 ∧ b.cia.pbPulseMask &&& 0x40 ≠ 0 := by
  have hset : ∀ x : UInt8, (x ||| 0x40) &&& 0x40 ≠ 0 :=
    uint8_forall (P := fun x => (x ||| 0x40) &&& 0x40 ≠ 0) (by decide +kernel)
  have hclear : ∀ x : UInt8, x &&& ~~~0x40 &&& 0x40 = 0 := by
    intro x
    rw [UInt8.and_assoc]
    exact UInt8.and_zero
  unfold LeavesPb6
  rw [imp_iff_right hon]
  by_cases h0 : ta.2 = 0
  · have hstage : taStage b ta = { b with cia := { b.cia with taCounter := ta.1 } } := by
      unfold taStage ciaTimerAUnderflows
      rw [if_pos h0]
    rw [hstage]
    simp only [h0, true_implies]
  · have hpins := taUnderflows_pins { b with cia := { b.cia with taCounter := ta.1 } } h0
    have hout : (taStage b ta).cia.pbTimerOut = _ := hpins.timerOut
    have hpulse : (taStage b ta).cia.pbPulseMask = _ := hpins.pulseMask
    simp only [ciaTimerApplyUnderflowOutput, if_true, if_neg hon] at hout hpulse
    simp only [h0, false_implies, and_true]
    by_cases hmode : b.cia.cra &&& 0x04 ≠ 0
    · rw [if_pos hmode] at hpulse
      rw [if_pos hmode, if_pos hmode, hpulse]
      simp only [hclear, and_true]
    · rw [if_neg hmode] at hout hpulse
      rw [if_neg hmode, if_neg hmode, hpulse, hout]
      exact iff_of_true ⟨hclear _, hset _⟩ trivial

/-- **When the outputs are separate**, for both clocks and all control bytes. -/
theorem outputsSeparate_iff (b : CiaBus) (k : TimerClock) : OutputsSeparate b k ↔ Pb6Spared b k := by
  obtain ⟨hown, hcra, hcrb⟩ := taStage_pins b (taAfter b.cia k)
  have hstep : OutputsSeparate b k ↔ OutputsAgree 0x80 (taStage b (taAfter b.cia k)).cia (ciaTimersClock b k).cia :=
    ⟨fun h => h.timerB, fun h => ⟨hown, h⟩⟩
  rw [hstep, ciaTimersClock_eq]
  unfold Pb6Spared
  by_cases hnone : (tbAfter b.cia k).2 = 0
  · refine iff_of_true ?_ fun hne => absurd hnone hne
    unfold tbStage ciaTimerBUnderflows
    rw [if_pos hnone]
    exact ⟨rfl, rfl⟩
  rw [imp_iff_right hnone, tbStage_pins _ hnone, hcrb]
  by_cases hpick : b.cia.crb = (taStage b (taAfter b.cia k)).cia.cra
  · -- timer B runs, so that timer A has not just stopped
    have hcontinuous : (taAfter b.cia k).2 ≠ 0 → ciaTimerContinuous b.cia.cra = true := by
      intro hu
      cases hmode : ciaTimerContinuous b.cia.cra with
      | true => rfl
      | false =>
        rw [hcra, if_neg hu] at hpick
        have hruns := tbAfter_runs hnone
        rw [hpick, ciaTimerStop_runs hmode] at hruns
        exact Bool.noConfusion hruns
    have hsame : (taStage b (taAfter b.cia k)).cia.cra = b.cia.cra := by
      rw [hcra]
      split
      · rfl
      · exact ciaTimerStop_of_continuous (hcontinuous ‹_›)
    rw [hpick, output_other, hsame, imp_iff_right rfl, imp_iff_right hcontinuous]
    by_cases hon : b.cia.cra &&& 0x02 = 0
    · exact iff_of_true (fun hne => absurd hon hne) fun hne => absurd hon hne
    · rw [imp_iff_right hon]
      exact leavesPb6_after b _ _ hon
  · have hseven := output_own (taStage b (taAfter b.cia k)).cia b.cia.crb (tbAfter b.cia k).2
    rw [if_neg hpick] at hseven
    refine iff_of_true hseven fun heq hcontinuous => absurd ?_ hpick
    rw [heq, hcra]
    split
    · rfl
    · exact (ciaTimerStop_of_continuous (hcontinuous ‹_›)).symm

/-- Both timers with the same control byte, PB6 high: timer B underflows alone. -/
def sameControlBus : CiaBus where
  cia := { ciaInit .portA with cra := 0x03, crb := 0x03, taCounter := 100, tbCounter := 1 }
  irq := interruptReset

theorem outputsSeparate_sameControl : ¬ OutputsSeparate sameControlBus (.eclock 2) :=
  fun h => absurd h.timerB.timerOut (by decide)

end Rigel
