import Rigel.TimerRun

/-!
# TimerReload — what an underflow leaves in a timer

A continuous timer reloads its latch at every underflow. A one-shot timer is left at zero instead, so that its next start
without a LOAD strobe underflows at the first event, unless the latch was zero to begin with.
-/

namespace Rigel

/-! ## A timer -/

/-- After an underflow a one-shot timer stands at its latch, and a continuous one the events since then below it. -/
def ReloadsLatch (counter latch : UInt16) (continuous : Bool) (n : Nat) (after : UInt16) : Prop :=
  counter.toNat < n →
    if continuous then
      ∃ k e, n = counter.toNat + 1 + k * (latch.toNat + 1) + e ∧ e ≤ latch.toNat ∧ after.toNat = latch.toNat - e
    else after = latch

/-- No one-shot underflow with a latch to reload. -/
def ReloadSpared (counter latch : UInt16) (continuous : Bool) (n : Nat) : Prop :=
  continuous = false → counter.toNat < n → latch = 0

theorem reloadsLatch_iff (counter latch : UInt16) (continuous : Bool) (n : Nat) :
    ReloadsLatch counter latch continuous n (timerAfter counter latch continuous n).1 ↔
      ReloadSpared counter latch continuous n := by
  unfold ReloadsLatch ReloadSpared
  cases continuous with
  | true =>
    refine iff_of_true (fun hlt => ?_) (fun h => Bool.noConfusion h)
    have hmod := Nat.mod_lt (n - (counter.toNat + 1)) (Nat.succ_pos latch.toNat)
    have hsplit := Nat.div_add_mod (n - (counter.toNat + 1)) (latch.toNat + 1)
    rw [if_pos rfl]
    refine ⟨(n - (counter.toNat + 1)) / (latch.toNat + 1), (n - (counter.toNat + 1)) % (latch.toNat + 1), ?_,
      Nat.le_of_lt_succ hmod, ?_⟩
    · rw [Nat.mul_comm]
      omega
    · unfold timerAfter
      rw [if_neg (Nat.not_le_of_lt hlt), if_pos rfl]
      exact counter_sub_toNat latch (Nat.le_of_lt_succ hmod)
  | false =>
    constructor
    · intro h _ hlt
      have hzero := h hlt
      rw [timerAfter_oneShot latch hlt] at hzero
      exact hzero.symm
    · intro h hlt
      rw [timerAfter_oneShot latch hlt]
      exact (h rfl hlt).symm

/-! ## A step -/

/-- What timer B does with its underflows moves no counter and no latch. -/
theorem timerBUnderflows_counters (b : CiaBus) (uf : Nat) :
    (ciaTimerBUnderflows b uf).cia.taCounter = b.cia.taCounter ∧ (ciaTimerBUnderflows b uf).cia.taLatch = b.cia.taLatch ∧
      (ciaTimerBUnderflows b uf).cia.tbCounter = b.cia.tbCounter ∧ (ciaTimerBUnderflows b uf).cia.tbLatch = b.cia.tbLatch := by
  unfold ciaTimerBUnderflows ciaTimerApplyUnderflowOutput
  simp only
  repeat' split
  all_goals exact ⟨rfl, rfl, rfl, rfl⟩

theorem taCounter_clock (b : CiaBus) (k : TimerClock) : (ciaTimersClock b k).cia.taCounter = (taAfter b.cia k).1 := by
  rw [ciaTimersClock_eq, tbStage, (timerBUnderflows_counters _ _).1]
  exact (sameTimers_underflows _ _).taCounter

theorem tbCounter_clock (b : CiaBus) (k : TimerClock) : (ciaTimersClock b k).cia.tbCounter = (tbAfter b.cia k).1 := by
  rw [ciaTimersClock_eq, tbStage, (timerBUnderflows_counters _ _).2.2.1]

theorem latches_clock (b : CiaBus) (k : TimerClock) :
    (ciaTimersClock b k).cia.taLatch = b.cia.taLatch ∧ (ciaTimersClock b k).cia.tbLatch = b.cia.tbLatch := by
  have ha := sameTimers_underflows { b with cia := { b.cia with taCounter := (taAfter b.cia k).1 } } (taAfter b.cia k).2
  rw [ciaTimersClock_eq, tbStage, (timerBUnderflows_counters _ _).2.1, (timerBUnderflows_counters _ _).2.2.2]
  exact ⟨ha.taLatch, ha.tbLatch⟩

/-- The control register of a timer, written without the LOAD strobe. -/
def restart (b : CiaBus) (reg val : UInt8) : CiaBus := { b with cia := ciaTimersWriteReg b.cia reg val }

/-- **An underflow reloads the latch**, in both timers and for whatever they count. And a timer that its one-shot underflow
has stopped counts its latch down when it is started again. -/
structure TimersReload (b : CiaBus) (k : TimerClock) : Prop where
  timerA : ReloadsLatch b.cia.taCounter b.cia.taLatch (ciaTimerContinuous b.cia.cra) (taEvents b.cia k)
    (ciaTimersClock b k).cia.taCounter
  timerB : ReloadsLatch b.cia.tbCounter b.cia.tbLatch (ciaTimerContinuous b.cia.crb) (tbEvents b.cia k)
    (ciaTimersClock b k).cia.tbCounter
  restartA : ciaTimerContinuous b.cia.cra = false → b.cia.taCounter.toNat < taEvents b.cia k →
    ∀ (val : UInt8) (k' : TimerClock), val &&& 0x10 = 0 →
      taEvents (restart (ciaTimersClock b k) 0xE val).cia k' ≤ b.cia.taLatch.toNat →
      (ciaTimersClock (restart (ciaTimersClock b k) 0xE val) k').cia.taCounter.toNat =
        b.cia.taLatch.toNat - taEvents (restart (ciaTimersClock b k) 0xE val).cia k'
  restartB : ciaTimerContinuous b.cia.crb = false → b.cia.tbCounter.toNat < tbEvents b.cia k →
    ∀ (val : UInt8) (k' : TimerClock), val &&& 0x10 = 0 →
      tbEvents (restart (ciaTimersClock b k) 0xF val).cia k' ≤ b.cia.tbLatch.toNat →
      (ciaTimersClock (restart (ciaTimersClock b k) 0xF val) k').cia.tbCounter.toNat =
        b.cia.tbLatch.toNat - tbEvents (restart (ciaTimersClock b k) 0xF val).cia k'

/-- A timer that stands at its latch counts it down. -/
theorem timerAfter_latch {counter latch : UInt16} (h : counter = latch) (continuous : Bool) {n : Nat}
    (hn : n ≤ latch.toNat) : (timerAfter counter latch continuous n).1.toNat = latch.toNat - n := by
  subst h
  rw [timerAfter_short _ _ hn, counter_sub_toNat _ hn]

theorem restartA_counter (b : CiaBus) {val : UInt8} (hload : val &&& 0x10 = 0) :
    (restart b 0xE val).cia.taCounter = b.cia.taCounter ∧ (restart b 0xE val).cia.taLatch = b.cia.taLatch :=
  ⟨if_neg (fun hne => hne hload), rfl⟩

theorem restartB_counter (b : CiaBus) {val : UInt8} (hload : val &&& 0x10 = 0) :
    (restart b 0xF val).cia.tbCounter = b.cia.tbCounter ∧ (restart b 0xF val).cia.tbLatch = b.cia.tbLatch :=
  ⟨if_neg (fun hne => hne hload), rfl⟩

/-- **When an underflow reloads the latch**: exactly when no one-shot timer underflows with a latch that is not zero. -/
theorem timersReload_iff (b : CiaBus) (k : TimerClock) :
    TimersReload b k ↔
      ReloadSpared b.cia.taCounter b.cia.taLatch (ciaTimerContinuous b.cia.cra) (taEvents b.cia k) ∧
        ReloadSpared b.cia.tbCounter b.cia.tbLatch (ciaTimerContinuous b.cia.crb) (tbEvents b.cia k) := by
  have hA := reloadsLatch_iff b.cia.taCounter b.cia.taLatch (ciaTimerContinuous b.cia.cra) (taEvents b.cia k)
  have hB := reloadsLatch_iff b.cia.tbCounter b.cia.tbLatch (ciaTimerContinuous b.cia.crb) (tbEvents b.cia k)
  have hta : (ciaTimersClock b k).cia.taCounter = (timerAfter _ _ _ _).1 := taCounter_clock b k
  have htb : (ciaTimersClock b k).cia.tbCounter = (timerAfter _ _ _ _).1 := tbCounter_clock b k
  rw [← hta] at hA
  rw [← htb] at hB
  constructor
  · exact fun h => ⟨hA.mp h.timerA, hB.mp h.timerB⟩
  · rintro ⟨hspareA, hspareB⟩
    have hreloadA := hA.mpr hspareA
    have hreloadB := hB.mpr hspareB
    refine ⟨hreloadA, hreloadB, fun hmode hlt val k' hload hn => ?_, fun hmode hlt val k' hload hn => ?_⟩
    · have hstand := hreloadA hlt
      rw [hmode, if_neg (by decide)] at hstand
      obtain ⟨hcounter, hlatch⟩ := restartA_counter (ciaTimersClock b k) hload
      rw [(latches_clock b k).1] at hlatch
      rw [taCounter_clock, taAfter, hlatch]
      exact timerAfter_latch (hcounter.trans hstand) _ hn
    · have hstand := hreloadB hlt
      rw [hmode, if_neg (by decide)] at hstand
      obtain ⟨hcounter, hlatch⟩ := restartB_counter (ciaTimersClock b k) hload
      rw [(latches_clock b k).2] at hlatch
      rw [tbCounter_clock, tbAfter, hlatch]
      exact timerAfter_latch (hcounter.trans hstand) _ hn

/-- Timer A about to underflow in one-shot mode, with a latch of ten. -/
def oneShotBus : CiaBus where
  cia := { ciaInit .portA with cra := 0x09, taLatch := 10, taCounter := 3 }
  irq := interruptReset

theorem timersReload_oneShot : ¬ TimersReload oneShotBus (.eclock 4) := by
  intro h
  have hstand := h.timerA (by decide)
  rw [if_neg (by decide)] at hstand
  exact absurd hstand (by decide)

end Rigel
