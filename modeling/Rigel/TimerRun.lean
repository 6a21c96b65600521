import Rigel.Cia
import Rigel.Countdown

/-!
# TimerRun — a CIA timer over any number of events

A timer counts its events down and underflows at the event after zero: a continuous one reloads its latch there and goes
on, a one-shot one stays at zero. The division of `cia_timer_advance` and the loop of `cia_timer_advance_events` are both
`timerAfter`, the closed form of that countdown, and `ciaTimersClock_eq` says what a whole step does with it.
-/

namespace Rigel

/-! ## One timer -/

/-- The counter and the underflows of a continuous timer after one more event. -/
def timerTick (latch : UInt16) (s : UInt16 × Nat) : UInt16 × Nat :=
  if s.1 = 0 then (latch, s.2 + 1) else (s.1 - 1, s.2)

/-- The counter and the underflows after `n` events. -/
def timerAfter (counter latch : UInt16) (continuous : Bool) (n : Nat) : UInt16 × Nat :=
  if n ≤ counter.toNat then (counter - UInt16.ofNat n, 0)
  else if continuous then
    (latch - UInt16.ofNat ((n - (counter.toNat + 1)) % (latch.toNat + 1)),
      1 + (n - (counter.toNat + 1)) / (latch.toNat + 1))
  else (0, 1)

/-- A continuous timer as a countdown from one reload to the next. -/
def reloading (latch : UInt16) : Countdown (UInt16 × Nat) where
  need s := s.1.toNat + 1
  spend s n := (s.1 - UInt16.ofNat n, s.2)
  fire s := (latch, s.2 + 1)

section
variable {counter latch : UInt16}

theorem counter_sub_toNat (c : UInt16) {n : Nat} (h : n ≤ c.toNat) : (c - UInt16.ofNat n).toNat = c.toNat - n := by
  have hlt : n < 65536 := Nat.lt_of_le_of_lt h c.toNat_lt
  have hn : (UInt16.ofNat n).toNat = n := UInt16.toNat_ofNat_of_lt' hlt
  rw [UInt16.toNat_sub_of_le _ _ (by rw [UInt16.le_iff_toNat_le, hn]; exact h), hn]

theorem reloading_lawful (latch : UInt16) : (reloading latch).Lawful fun _ => True where
  need_pos s _ := Nat.succ_pos _
  need_spend s n _ h := by
    have hle : n ≤ s.1.toNat := Nat.le_of_lt_succ h
    show (s.1 - UInt16.ofNat n).toNat + 1 = s.1.toNat + 1 - n
    rw [counter_sub_toNat s.1 hle]
    omega
  spend_zero s _ := by
    show (s.1 - 0, s.2) = s
    rw [UInt16.sub_zero]
  spend_add s n m _ h := by
    have hle : n + m ≤ s.1.toNat := Nat.le_of_lt_succ h
    refine Prod.ext (UInt16.toNat_inj.mp ?_) rfl
    show (s.1 - UInt16.ofNat (n + m)).toNat = (s.1 - UInt16.ofNat n - UInt16.ofNat m).toNat
    rw [counter_sub_toNat s.1 hle, counter_sub_toNat _ (by rw [counter_sub_toNat s.1 (by omega)]; omega),
      counter_sub_toNat s.1 (by omega)]
    omega
  fire_spend _ _ _ _ := rfl
  ok_spend _ _ _ _ := trivial
  ok_fire _ _ := trivial

theorem reloading_tick (latch : UInt16) : (reloading latch).tick = timerTick latch := by
  funext s
  have hzero : s.1.toNat + 1 = 1 ↔ s.1 = 0 := by
    rw [← UInt16.toNat_inj, show (0 : UInt16).toNat = 0 from rfl]
    omega
  unfold Countdown.tick timerTick
  exact if_congr hzero rfl rfl

theorem reloading_fire (latch c : UInt16) (u k : Nat) (h : c = latch) :
    (reloading latch).fire^[k] (c, u) = (latch, u + k) := by
  induction k generalizing u c with
  | zero => rw [h]; rfl
  | succ k ih =>
    rw [Function.iterate_succ_apply]
    show (reloading latch).fire^[k] (latch, u + 1) = (latch, u + (k + 1))
    rw [ih latch (u + 1) rfl, Nat.add_assoc, Nat.add_comm 1 k]

/-- **The closed form of a continuous timer** is its events one by one. -/
theorem timerTick_iterate (counter latch : UInt16) (u n : Nat) :
    (timerTick latch)^[n] (counter, u) = ((timerAfter counter latch true n).1, u + (timerAfter counter latch true n).2) := by
  have hlaw := reloading_lawful latch
  rw [← reloading_tick]
  unfold timerAfter
  split
  · rename_i hle
    exact hlaw.iterate_of_lt trivial (Nat.lt_succ_of_le hle)
  · rename_i hlt
    have hneed : (reloading latch).need (counter, u) = counter.toNat + 1 := rfl
    have hperiod : ∀ k j, j ≤ k → (reloading latch).need ((reloading latch).fire^[j] (latch, u + 1)) = latch.toNat + 1 := by
      intro k j _
      rw [reloading_fire latch latch (u + 1) j rfl]
      rfl
    rw [hlaw.iterate_of_le trivial (by rw [hneed]; omega), hneed, if_pos rfl]
    show (reloading latch).tick^[n - (counter.toNat + 1)] (latch, u + 1) = _
    conv => lhs; rw [← Nat.mod_add_div (n - (counter.toNat + 1)) (latch.toNat + 1)]
    rw [hlaw.iterate_period (Nat.mod_lt _ (Nat.succ_pos _)) _ trivial (hperiod _), reloading_fire latch latch (u + 1) _ rfl]
    simp only [reloading, Nat.add_assoc]

/-- Events before an underflow and after it: a continuous timer goes on from its counter. -/
theorem timerAfter_add (counter latch : UInt16) (x y : Nat) :
    timerAfter counter latch true (x + y) =
      ((timerAfter (timerAfter counter latch true x).1 latch true y).1,
        (timerAfter counter latch true x).2 + (timerAfter (timerAfter counter latch true x).1 latch true y).2) := by
  have hsum := timerTick_iterate counter latch 0 (x + y)
  rw [Nat.add_comm x y, Function.iterate_add_apply, timerTick_iterate counter latch 0 x, timerTick_iterate] at hsum
  simp only [Nat.zero_add] at hsum
  rw [Nat.add_comm x y]
  exact hsum.symm

theorem timerAfter_short (latch : UInt16) (continuous : Bool) {n : Nat} (h : n ≤ counter.toNat) :
    timerAfter counter latch continuous n = (counter - UInt16.ofNat n, 0) := if_pos h

theorem timerAfter_oneShot (latch : UInt16) {n : Nat} (h : counter.toNat < n) :
    timerAfter counter latch false n = (0, 1) := by
  unfold timerAfter
  rw [if_neg (Nat.not_le_of_lt h)]
  rfl

theorem timerAfter_zero (counter latch : UInt16) (continuous : Bool) :
    timerAfter counter latch continuous 0 = (counter, 0) := by
  rw [timerAfter_short latch continuous (Nat.zero_le _)]
  exact congrArg (·, 0) (UInt16.sub_zero counter)

/-- A timer underflows once its events are more than its counter. -/
theorem timerAfter_underflows (counter latch : UInt16) (continuous : Bool) (n : Nat) :
    (timerAfter counter latch continuous n).2 = 0 ↔ n ≤ counter.toNat := by
  by_cases h : n ≤ counter.toNat
  · rw [timerAfter_short latch continuous h]
    simp [h]
  · cases continuous with
    | true =>
      unfold timerAfter
      rw [if_neg h, if_pos rfl]
      simp [h]
    | false =>
      rw [timerAfter_oneShot latch (Nat.lt_of_not_le h)]
      simp [h]

/-! ## The two ways to advance -/

theorem ciaTimerAdvance_eq (counter latch : UInt16) (continuous : Bool) (ticks : UInt64) :
    ciaTimerAdvance counter latch continuous ticks = timerAfter counter latch continuous ticks.toNat := by
  have hc : counter.toUInt64.toNat = counter.toNat := UInt16.toNat_toUInt64 counter
  have hlt := counter.toNat_lt
  by_cases h0 : ticks = 0
  · subst h0
    exact (timerAfter_zero counter latch continuous).symm
  unfold ciaTimerAdvance timerAfter
  rw [if_neg h0]
  simp only [UInt64.le_iff_toNat_le, hc]
  by_cases hle : ticks.toNat ≤ counter.toNat
  · rw [if_pos hle, if_pos hle]
    refine Prod.ext (UInt16.toNat_inj.mp ?_) rfl
    rw [counter_sub_toNat counter hle, UInt64.toNat_toUInt16,
      UInt64.toNat_sub_of_le _ _ (by rw [UInt64.le_iff_toNat_le, hc]; exact hle), hc]
    exact Nat.mod_eq_of_lt (by omega)
  rw [if_neg hle, if_neg hle]
  cases continuous with
  | false => rfl
  | true =>
    have hnext : (counter.toUInt64 + 1).toNat = counter.toNat + 1 := by
      rw [UInt64.toNat_add, hc]
      exact Nat.mod_eq_of_lt (by simp only [UInt64.reduceToNat]; omega)
    have hrest : (ticks - (counter.toUInt64 + 1)).toNat = ticks.toNat - (counter.toNat + 1) := by
      rw [UInt64.toNat_sub_of_le _ _ (by rw [UInt64.le_iff_toNat_le, hnext]; omega), hnext]
    have hcycle : (latch.toUInt64 + 1).toNat = latch.toNat + 1 := by
      have hl := latch.toNat_lt
      rw [UInt64.toNat_add, UInt16.toNat_toUInt64]
      exact Nat.mod_eq_of_lt (by simp only [UInt64.reduceToNat]; omega)
    simp only [Bool.not_true, Bool.false_eq_true, if_false, if_true]
    refine Prod.ext ?_ ?_
    · simp only
      rw [← hrest, ← hcycle, ← UInt64.toNat_mod]
      split
      · rename_i hrem
        rw [hrem]
        exact (UInt16.sub_zero latch).symm
      · exact congrArg (latch - ·) (UInt16.toNat_inj.mp (by rw [UInt64.toNat_toUInt16, UInt16.toNat_ofNat']))
    · simp only
      rw [UInt64.toNat_div, hrest, hcycle]

/-- The loop adds its passes to the underflows that it came with. -/
theorem ciaTimerEventLoop_eq (latch : UInt16) (continuous : Bool) : ∀ (fuel : Nat) (counter : UInt16) (n u : Nat), n ≤ fuel →
    ciaTimerEventLoop latch continuous fuel counter n u =
      ((timerAfter counter latch continuous n).1, u + (timerAfter counter latch continuous n).2)
  | 0, counter, n, u, h => by
    have hn : n = 0 := Nat.le_zero.mp h
    subst hn
    rw [timerAfter_zero]
    rfl
  | fuel + 1, counter, n, u, h => by
    rw [ciaTimerEventLoop]
    by_cases h0 : n = 0
    · subst h0
      rw [if_pos rfl, timerAfter_zero]
      rfl
    rw [if_neg h0]
    by_cases hlt : n < counter.toNat + 1
    · rw [if_pos hlt, timerAfter_short latch continuous (Nat.le_of_lt_succ hlt)]
      rfl
    rw [if_neg hlt]
    cases continuous with
    | false =>
      rw [timerAfter_oneShot latch (by omega)]
      rfl
    | true =>
      -- the first underflow, and the rest from the latch
      have hfirst : timerAfter counter latch true (counter.toNat + 1) = (latch, 1) := by
        unfold timerAfter
        rw [if_neg (by omega), if_pos rfl, Nat.sub_self, Nat.zero_mod, Nat.zero_div]
        exact congrArg (·, 1) (UInt16.sub_zero latch)
      have hadd := timerAfter_add counter latch (counter.toNat + 1) (n - (counter.toNat + 1))
      rw [Nat.add_sub_cancel' (Nat.le_of_not_lt hlt), hfirst] at hadd
      simp only [Bool.not_true, Bool.false_eq_true, if_false]
      rw [ciaTimerEventLoop_eq latch true fuel latch _ (u + 1) (by omega), hadd, Nat.add_assoc]

theorem ciaTimerAdvanceEvents_eq (counter latch : UInt16) (continuous : Bool) (n : Nat) :
    ciaTimerAdvanceEvents counter latch continuous n = timerAfter counter latch continuous n := by
  unfold ciaTimerAdvanceEvents
  rw [ciaTimerEventLoop_eq latch continuous n counter n 0 (Nat.le_refl n), Nat.zero_add]

end

/-! ## Both timers -/

/-- What a CIA's timers are given to count: ticks of the E-clock, or edges of CNT. -/
inductive TimerClock where
  | eclock (ticks : UInt64)
  | cnt (pulses : UInt32)
  deriving Repr, DecidableEq

def ciaTimersClock (b : CiaBus) : TimerClock → CiaBus
  | .eclock ticks => ciaTimersStep b ticks
  | .cnt pulses => ciaTimersCountCnt b pulses

/-- The events that timer A counts. -/
def taEvents (c : CiaState) : TimerClock → Nat
  | .eclock ticks => if ciaTimerRuns c.cra ∧ c.cra &&& 0x20 = 0 then ticks.toNat else 0
  | .cnt pulses => if ciaTimerRuns c.cra ∧ c.cra &&& 0x20 ≠ 0 then pulses.toNat else 0

/-- Timer A after its events: its counter and its underflows. -/
def taAfter (c : CiaState) (k : TimerClock) : UInt16 × Nat :=
  timerAfter c.taCounter c.taLatch (ciaTimerContinuous c.cra) (taEvents c k)

/-- The events that timer B counts: those of the clock, or the underflows of timer A, which CNT may gate. -/
def tbEvents (c : CiaState) (k : TimerClock) : Nat :=
  let inmode := (c.crb >>> 5) &&& 0x03
  if !ciaTimerRuns c.crb then 0
  else
    match k with
    | .eclock ticks =>
      if inmode = 0 then ticks.toNat
      else if (inmode = 2 ∨ inmode = 3) ∧ (inmode ≠ 3 ∨ c.cntLevel) then (taAfter c k).2 else 0
    | .cnt pulses => if inmode = 1 then pulses.toNat else if inmode = 3 then (taAfter c k).2 else 0

def tbAfter (c : CiaState) (k : TimerClock) : UInt16 × Nat :=
  timerAfter c.tbCounter c.tbLatch (ciaTimerContinuous c.crb) (tbEvents c k)

/-- Timer A takes its counter and handles its underflows. -/
def taStage (b : CiaBus) (ta : UInt16 × Nat) : CiaBus :=
  ciaTimerAUnderflows { b with cia := { b.cia with taCounter := ta.1 } } ta.2

def tbStage (b : CiaBus) (tb : UInt16 × Nat) : CiaBus :=
  ciaTimerBUnderflows { b with cia := { b.cia with tbCounter := tb.1 } } tb.2

theorem ciaTimerAStep_eq (c : CiaState) (ticks : UInt64) : ciaTimerAStep c ticks = taAfter c (.eclock ticks) := by
  unfold ciaTimerAStep taAfter taEvents
  split
  · exact ciaTimerAdvance_eq _ _ _ _
  · exact (timerAfter_zero _ _ _).symm

theorem ciaTimerACount_eq (c : CiaState) (pulses : UInt32) : ciaTimerACount c pulses = taAfter c (.cnt pulses) := by
  unfold ciaTimerACount taAfter taEvents
  split
  · exact ciaTimerAdvanceEvents_eq _ _ _ _
  · exact (timerAfter_zero _ _ _).symm

/-- Timer B sees the same. -/
structure SameTimerB (c c' : CiaState) : Prop where
  crb : c'.crb = c.crb
  tbCounter : c'.tbCounter = c.tbCounter
  tbLatch : c'.tbLatch = c.tbLatch
  cntLevel : c'.cntLevel = c.cntLevel

/-- And timer A has its counter and its latch. -/
structure SameTimers (c c' : CiaState) : Prop extends SameTimerB c c' where
  taCounter : c'.taCounter = c.taCounter
  taLatch : c'.taLatch = c.taLatch

theorem SameTimers.refl (c : CiaState) : SameTimers c c := ⟨⟨rfl, rfl, rfl, rfl⟩, rfl, rfl⟩

theorem SameTimers.trans {a b c : CiaState} (h : SameTimers a b) (h' : SameTimers b c) : SameTimers a c :=
  ⟨⟨h'.crb.trans h.crb, h'.tbCounter.trans h.tbCounter, h'.tbLatch.trans h.tbLatch, h'.cntLevel.trans h.cntLevel⟩,
    h'.taCounter.trans h.taCounter, h'.taLatch.trans h.taLatch⟩

theorem sameTimers_startOutput (c : CiaState) : SameTimers c (ciaSerialStartOutput c) := by
  unfold ciaSerialStartOutput
  split
  · exact SameTimers.refl c
  · exact ⟨⟨rfl, rfl, rfl, rfl⟩, rfl, rfl⟩

theorem sameTimers_underflow (b : CiaBus) : SameTimers b.cia (ciaSerialOnTimerAUnderflow b).cia := by
  have hstart := sameTimers_startOutput b.cia
  have hshift : SameTimers b.cia (ciaSerialShiftBit (ciaSerialStartOutput b.cia)) :=
    hstart.trans ⟨⟨rfl, rfl, rfl, rfl⟩, rfl, rfl⟩
  unfold ciaSerialOnTimerAUnderflow
  simp only
  split
  · exact SameTimers.refl _
  split
  · exact hstart
  split
  · exact hshift
  · refine (hshift.trans ?_).trans (sameTimers_startOutput _)
    exact ⟨⟨rfl, rfl, rfl, rfl⟩, rfl, rfl⟩

theorem sameTimers_underflows (b : CiaBus) (uf : Nat) : SameTimers b.cia (ciaTimerAUnderflows b uf).cia := by
  have hiter : ∀ (n : Nat) (b : CiaBus), SameTimers b.cia (ciaSerialOnTimerAUnderflow^[n] b).cia := by
    intro n
    induction n with
    | zero => exact fun b => SameTimers.refl b.cia
    | succ n ih =>
      intro b
      rw [Function.iterate_succ_apply]
      exact (sameTimers_underflow b).trans (ih _)
  have hout : ∀ (c : CiaState) (control : UInt8) (n : Nat), SameTimers c (ciaTimerApplyUnderflowOutput c control n) := by
    intro c control n
    unfold ciaTimerApplyUnderflowOutput
    simp only
    repeat' split
    all_goals exact ⟨⟨rfl, rfl, rfl, rfl⟩, rfl, rfl⟩
  unfold ciaTimerAUnderflows
  split
  · exact SameTimers.refl _
  · simp only
    have hraise : SameTimers b.cia (ciaInterruptRaise b ciaIcrTa).cia := ⟨⟨rfl, rfl, rfl, rfl⟩, rfl, rfl⟩
    generalize ciaInterruptRaise b ciaIcrTa = raised at hraise ⊢
    have hpin := hraise.trans (hout raised.cia raised.cia.cra uf)
    have hall := hpin.trans (hiter uf ⟨ciaTimerApplyUnderflowOutput raised.cia raised.cia.cra uf, raised.irq⟩)
    exact ⟨⟨hall.crb, hall.tbCounter, hall.tbLatch, hall.cntLevel⟩, hall.taCounter, hall.taLatch⟩

/-- Timer B's half of a step, after timer A's. -/
theorem ciaTimerBStep_eq {c c' : CiaState} (h : SameTimerB c c') (ticks : UInt64) :
    ciaTimerBStep c' ticks (taAfter c (.eclock ticks)).2 = tbAfter c (.eclock ticks) := by
  unfold ciaTimerBStep tbAfter tbEvents
  rw [h.crb, h.cntLevel, h.tbCounter, h.tbLatch]
  simp only
  by_cases hruns : ciaTimerRuns c.crb = true
  · simp only [hruns, Bool.not_true, Bool.false_eq_true, if_false]
    by_cases h0 : (c.crb >>> 5) &&& 0x03 = 0
    · rw [if_pos h0, if_pos h0]
      exact ciaTimerAdvance_eq _ _ _ _
    rw [if_neg h0, if_neg h0]
    by_cases hgate : (((c.crb >>> 5) &&& 0x03 = 2 ∨ (c.crb >>> 5) &&& 0x03 = 3) ∧
        ((c.crb >>> 5) &&& 0x03 ≠ 3 ∨ c.cntLevel = true))
    · rw [if_pos hgate]
      by_cases hu : (taAfter c (.eclock ticks)).2 > 0
      · rw [if_pos ⟨hgate.1, hu, hgate.2⟩]
        exact ciaTimerAdvanceEvents_eq _ _ _ _
      · rw [if_neg (fun hc => hu hc.2.1), Nat.eq_zero_of_not_pos hu]
        exact (timerAfter_zero _ _ _).symm
    · rw [if_neg hgate, if_neg (fun hc => hgate ⟨hc.1, hc.2.2⟩)]
      exact (timerAfter_zero _ _ _).symm
  · simp only [hruns, Bool.not_false, if_true]
    exact (timerAfter_zero _ _ _).symm

theorem ciaTimerBCount_eq {c c' : CiaState} (h : SameTimerB c c') (pulses : UInt32) :
    ciaTimerBCount c' pulses (taAfter c (.cnt pulses)).2 = tbAfter c (.cnt pulses) := by
  unfold ciaTimerBCount tbAfter tbEvents
  rw [h.crb, h.tbCounter, h.tbLatch]
  simp only
  by_cases hruns : ciaTimerRuns c.crb = true
  · simp only [hruns, Bool.not_true, Bool.false_eq_true, if_false]
    by_cases h1 : (c.crb >>> 5) &&& 0x03 = 1
    · rw [if_pos h1, if_pos h1]
      exact ciaTimerAdvanceEvents_eq _ _ _ _
    rw [if_neg h1, if_neg h1]
    by_cases h3 : (c.crb >>> 5) &&& 0x03 = 3
    · rw [if_pos h3]
      by_cases hu : (taAfter c (.cnt pulses)).2 > 0
      · rw [if_pos ⟨h3, hu⟩]
        exact ciaTimerAdvanceEvents_eq _ _ _ _
      · rw [if_neg (fun hc => hu hc.2), Nat.eq_zero_of_not_pos hu]
        exact (timerAfter_zero _ _ _).symm
    · rw [if_neg h3, if_neg (fun hc => h3 hc.1)]
      exact (timerAfter_zero _ _ _).symm
  · simp only [hruns, Bool.not_false, if_true]
    exact (timerAfter_zero _ _ _).symm

theorem taAfter_of_none {c : CiaState} {k : TimerClock} (h : taEvents c k = 0) : taAfter c k = (c.taCounter, 0) := by
  unfold taAfter
  rw [h, timerAfter_zero]

theorem tbAfter_of_none {c : CiaState} {k : TimerClock} (h : tbEvents c k = 0) : tbAfter c k = (c.tbCounter, 0) := by
  unfold tbAfter
  rw [h, timerAfter_zero]

/-- **A step of the timers** in the two stages that the source runs one after the other. -/
theorem ciaTimersClock_eq (b : CiaBus) (k : TimerClock) :
    ciaTimersClock b k = tbStage (taStage b (taAfter b.cia k)) (tbAfter b.cia k) := by
  have hframe : ∀ ta : UInt16 × Nat, SameTimerB b.cia (taStage b ta).cia := by
    intro ta
    have h := sameTimers_underflows { b with cia := { b.cia with taCounter := ta.1 } } ta.2
    exact ⟨h.crb, h.tbCounter, h.tbLatch, h.cntLevel⟩
  have hnone : ∀ k, taEvents b.cia k = 0 → tbEvents b.cia k = 0 →
      b = tbStage (taStage b (taAfter b.cia k)) (tbAfter b.cia k) := by
    intro k hta htb
    rw [taAfter_of_none hta, tbAfter_of_none htb]
    rfl
  cases k with
  | eclock ticks =>
    show ciaTimersStep b ticks = _
    by_cases h0 : ticks = 0
    · subst h0
      have hta : taEvents b.cia (.eclock 0) = 0 := by simp [taEvents]
      refine hnone _ hta ?_
      simp [tbEvents, taAfter_of_none hta]
    · have hstage : ciaTimerAStage b ticks = taStage b (taAfter b.cia (.eclock ticks)) := by
        rw [ciaTimerAStage, ciaTimerAStep_eq, taStage]
      rw [ciaTimersStep, if_neg h0, ciaTimerAStep_eq, hstage, ciaTimerBStage, ciaTimerBStep_eq (hframe _), tbStage]
  | cnt pulses =>
    show ciaTimersCountCnt b pulses = _
    by_cases h0 : pulses = 0
    · subst h0
      have hta : taEvents b.cia (.cnt 0) = 0 := by simp [taEvents]
      refine hnone _ hta ?_
      simp [tbEvents, taAfter_of_none hta]
    · have hcount := ciaTimerBCount_eq (hframe (taAfter b.cia (.cnt pulses))) pulses
      unfold taStage at hcount
      unfold ciaTimersCountCnt
      rw [if_neg h0]
      simp only [ciaTimerACount_eq]
      rw [hcount]
      rfl

end Rigel
