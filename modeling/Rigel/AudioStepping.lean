import Mathlib.Algebra.Ring.Nat
import Rigel.Countdown
import Rigel.Reach

/-!
# AudioStepping — an audio channel over a span of cycles, cut in two

A channel counts down to the end of its period, so that its loop takes any span as single cycles. What does not go by
cycles is the look at the channel before the loop: without DMA and without a written word it is passed over. A word that
the CPU wrote is taken at the end of a period in the middle of a step, and the rest of that step still runs; a step that
begins there does not.
-/

namespace Rigel

/-! ## The countdown of a period -/

structure PeriodOk (ch : AudioChannel) : Prop where
  counter : 0 < ch.periodCounter.toNat
  audper : 0 < ch.audper.toNat

def periodCountdown : Countdown AudioChannel where
  need ch := ch.periodCounter.toNat
  spend ch n := { ch with periodCounter := ch.periodCounter - UInt16.ofNat n }
  fire := audioPeriodElapsed

variable {ch : AudioChannel}

/-- The counter after some cycles that stay in the period. -/
theorem periodCounter_sub {n : Nat} (hn : n < ch.periodCounter.toNat) :
    (ch.periodCounter - UInt16.ofNat n).toNat = ch.periodCounter.toNat - n := by
  have hlt := ch.periodCounter.toNat_lt
  have hmod : (UInt16.ofNat n).toNat = n := by
    rw [UInt16.toNat_ofNat', Nat.mod_eq_of_lt (Nat.lt_trans hn hlt)]
  rw [UInt16.toNat_sub_of_le _ _ (UInt16.le_iff_toNat_le.mpr (by omega)), hmod]

theorem audioPeriodElapsed_counter (ch : AudioChannel) :
    (audioPeriodElapsed ch).periodCounter = ch.audper ∧ (audioPeriodElapsed ch).audper = ch.audper ∧
      (audioPeriodElapsed ch).dmaEnabled = ch.dmaEnabled := by
  unfold audioPeriodElapsed
  simp only
  repeat' split
  all_goals exact ⟨rfl, rfl, rfl⟩

theorem PeriodOk.elapsed (h : PeriodOk ch) : PeriodOk (audioPeriodElapsed ch) := by
  obtain ⟨hcounter, hper, -⟩ := audioPeriodElapsed_counter ch
  exact ⟨hcounter ▸ h.audper, hper ▸ h.audper⟩

theorem periodCountdown_lawful : periodCountdown.Lawful PeriodOk where
  need_pos _ h := h.counter
  need_spend _ _ _ hn := periodCounter_sub hn
  spend_zero ch _ := by
    show { ch with periodCounter := ch.periodCounter - 0 } = ch
    rw [UInt16.sub_zero]
  spend_add ch n m _ _ := by
    have hsub : ch.periodCounter - UInt16.ofNat (n + m) = ch.periodCounter - UInt16.ofNat n - UInt16.ofNat m := by
      rw [UInt16.ofNat_add]
      grind
    show { ch with periodCounter := ch.periodCounter - UInt16.ofNat (n + m) } =
      { ch with periodCounter := ch.periodCounter - UInt16.ofNat n - UInt16.ofNat m }
    rw [hsub]
  fire_spend _ _ _ _ := rfl
  ok_spend ch n h hn := by
    refine ⟨?_, h.audper⟩
    show 0 < (ch.periodCounter - UInt16.ofNat n).toNat
    rw [periodCounter_sub hn]
    exact Nat.sub_pos_of_lt hn
  ok_fire _ h := h.elapsed

/-! ## The loop -/

/-- The channel when the loop is left: its counter takes the cycles that did not fill a period. -/
def audioLoopLeft (r : AudioChannel × UInt32 × Bool) : AudioChannel :=
  { r.1 with periodCounter := (r.1.periodCounter.toUInt32 - r.2.1).toUInt16 }

/-- **The loop takes its cycles one by one, and leaves less than a period.** -/
theorem PeriodOk.loop : ∀ (fuel : Nat) {ch : AudioChannel} (_ : PeriodOk ch) {n : UInt32} (elapsed : Bool),
    n.toNat < fuel →
      audioLoopLeft (audioPeriodLoop fuel ch n elapsed) = periodCountdown.tick^[n.toNat] ch ∧
        (audioPeriodLoop fuel ch n elapsed).2.1 < (audioPeriodLoop fuel ch n elapsed).1.periodCounter.toUInt32
  | 0, _, _, _, _, hf => absurd hf (Nat.not_lt_zero _)
  | fuel + 1, ch, h, n, elapsed, hf => by
    have hcounter : ch.periodCounter.toUInt32.toNat = ch.periodCounter.toNat := UInt16.toNat_toUInt32 _
    have hge : n ≥ ch.periodCounter.toUInt32 ↔ ch.periodCounter.toNat ≤ n.toNat := by
      rw [ge_iff_le, UInt32.le_iff_toNat_le, hcounter]
    have hpos := h.counter
    unfold audioPeriodLoop
    split
    · rename_i hfull
      have hle := hge.mp hfull
      have hleft : (n - ch.periodCounter.toUInt32).toNat = n.toNat - ch.periodCounter.toNat := by
        rw [UInt32.toNat_sub_of_le _ _ hfull, hcounter]
      obtain ⟨hrest, hends⟩ := PeriodOk.loop fuel h.elapsed (n := n - ch.periodCounter.toUInt32) true (by omega)
      refine ⟨?_, hends⟩
      rw [hrest, hleft, periodCountdown_lawful.iterate_of_le h hle]
      rfl
    · rename_i hshort
      have hlt : n.toNat < ch.periodCounter.toNat := Nat.lt_of_not_le fun hle => hshort (hge.mpr hle)
      refine ⟨?_, UInt32.not_le.mp hshort⟩
      have hsub : (ch.periodCounter.toUInt32 - n).toUInt16 = ch.periodCounter - UInt16.ofNat n.toNat := by
        rw [UInt32.toUInt16_sub]
        simp
      rw [periodCountdown_lawful.iterate_of_lt h hlt]
      show { ch with periodCounter := (ch.periodCounter.toUInt32 - n).toUInt16 } = _
      rw [hsub]
      rfl

theorem periodOk_defaults (ch : AudioChannel) : PeriodOk (audioPeriodDefaults ch) := by
  have hpos : ∀ x : UInt16, x ≠ 0 → 0 < x.toNat := fun x hx =>
    Nat.pos_of_ne_zero fun e => hx (UInt16.toNat_inj.mp e)
  refine ⟨hpos _ ?_, hpos _ ?_⟩
  · show (if ch.periodCounter = 0 then (if ch.audper = 0 then (1 : UInt16) else ch.audper) else ch.periodCounter) ≠ 0
    split
    · split
      · decide
      · assumption
    · assumption
  · show (if ch.audper = 0 then (1 : UInt16) else ch.audper) ≠ 0
    split
    · decide
    · assumption

theorem PeriodOk.defaults (h : PeriodOk ch) : audioPeriodDefaults ch = ch := by
  have hcounter : ch.periodCounter ≠ 0 := fun e => absurd h.counter (by rw [e]; decide)
  have haudper : ch.audper ≠ 0 := fun e => absurd h.audper (by rw [e]; decide)
  unfold audioPeriodDefaults
  rw [if_neg hcounter, if_neg haudper]

/-- A channel over one call, by single cycles unless it is passed over. -/
theorem audioStepChannel_eq (ch : AudioChannel) (dma : Bool) (n : UInt32) :
    (audioStepChannel ch dma n).1 =
      if dma || ch.dataPending then
        periodCountdown.tick^[n.toNat] (audioPeriodDefaults { ch with dmaEnabled := dma })
      else { ch with dmaEnabled := dma } := by
  unfold audioStepChannel
  cases hdma : dma <;> cases hdata : ch.dataPending
  · rfl
  all_goals exact ((periodOk_defaults _).loop (n.toNat + 1) false (Nat.lt_succ_self _)).1

/-! ## The samples that wait -/

/-- The samples that a channel will still take: a written word gives one, a fetched word two. -/
def audioSamplesPending (ch : AudioChannel) : Nat :=
  ch.dataPending.toNat + ch.hasPendingLo.toNat + 2 * ch.dmaWordReady.toNat

/-- Every period takes one of them. -/
theorem audioPeriodElapsed_pending (ch : AudioChannel) :
    audioSamplesPending (audioPeriodElapsed ch) = audioSamplesPending ch - 1 := by
  unfold audioSamplesPending audioPeriodElapsed
  simp only
  cases ch.dataPending <;> cases ch.hasPendingLo <;> cases ch.dmaWordReady <;> rfl

theorem elapsed_iterate_pending (ch : AudioChannel) : ∀ k : Nat,
    audioSamplesPending (audioPeriodElapsed^[k] ch) = audioSamplesPending ch - k
  | 0 => rfl
  | k + 1 => by
    rw [Function.iterate_succ_apply', audioPeriodElapsed_pending, elapsed_iterate_pending ch k, Nat.sub_sub]

theorem elapsed_iterate_counter (ch : AudioChannel) : ∀ k : Nat,
    (audioPeriodElapsed^[k + 1] ch).periodCounter = ch.audper ∧ (audioPeriodElapsed^[k + 1] ch).audper = ch.audper
  | 0 => ⟨(audioPeriodElapsed_counter ch).1, (audioPeriodElapsed_counter ch).2.1⟩
  | k + 1 => by
    obtain ⟨hcounter, hper, -⟩ := audioPeriodElapsed_counter (audioPeriodElapsed^[k + 1] ch)
    obtain ⟨-, ih⟩ := elapsed_iterate_counter ch k
    rw [Function.iterate_succ_apply']
    exact ⟨hcounter.trans ih, hper.trans ih⟩

/-- A written word is the first to be taken. -/
theorem audioPeriodElapsed_data (ch : AudioChannel) : (audioPeriodElapsed ch).dataPending = false := by
  unfold audioPeriodElapsed
  simp only
  cases hdata : ch.dataPending with
  | true => rfl
  | false =>
    simp only [Bool.false_eq_true, if_false]
    repeat' split
    all_goals rfl

/-- Where nothing waits, a period only reloads the counter. -/
theorem audioPeriodElapsed_quiet (hpending : audioSamplesPending ch = 0) (hfull : ch.periodCounter = ch.audper) :
    audioPeriodElapsed ch = ch := by
  have hdata : ch.dataPending = false := by
    cases h : ch.dataPending
    · rfl
    · simp [audioSamplesPending, h] at hpending
  have hlo : ch.hasPendingLo = false := by
    cases h : ch.hasPendingLo
    · rfl
    · simp [audioSamplesPending, h] at hpending
  have hword : ch.dmaWordReady = false := by
    cases h : ch.dmaWordReady
    · rfl
    · simp [audioSamplesPending, h] at hpending
  unfold audioPeriodElapsed
  simp only
  rw [if_neg (by simp [hdata]), if_neg (by simp [hlo]), if_neg (by simp [hword])]
  exact congrArg (fun x => { ch with periodCounter := x }) hfull.symm

/-! ## Past the first period -/

/-- A channel with a full period ahead of it. -/
structure FullPeriod (ch : AudioChannel) (per : Nat) : Prop where
  ok : PeriodOk ch
  counter : ch.periodCounter.toNat = per
  audper : ch.audper.toNat = per

theorem FullPeriod.iterate {per : Nat} (h : FullPeriod ch per) : ∀ k : Nat, FullPeriod (audioPeriodElapsed^[k] ch) per
  | 0 => h
  | k + 1 => by
    have ih := h.iterate k
    obtain ⟨hcounter, hper, -⟩ := audioPeriodElapsed_counter (audioPeriodElapsed^[k] ch)
    rw [Function.iterate_succ_apply']
    exact ⟨ih.ok.elapsed, (congrArg UInt16.toNat hcounter).trans ih.audper, (congrArg UInt16.toNat hper).trans ih.audper⟩

theorem PeriodOk.fullPeriod (h : PeriodOk ch) : FullPeriod (audioPeriodElapsed ch) ch.audper.toNat :=
  ⟨h.elapsed, congrArg UInt16.toNat (audioPeriodElapsed_counter ch).1,
    congrArg UInt16.toNat (audioPeriodElapsed_counter ch).2.1⟩

/-- So many cycles are so many periods and the rest. -/
theorem FullPeriod.cycles {per : Nat} (h : FullPeriod ch per) (n : Nat) :
    periodCountdown.tick^[n] ch = periodCountdown.spend (audioPeriodElapsed^[n / per] ch) (n % per) := by
  have hpos : 0 < per := h.counter ▸ h.ok.counter
  conv => lhs; rw [← Nat.mod_add_div n per]
  exact periodCountdown_lawful.iterate_period (Nat.mod_lt _ hpos) (n / per) h.ok fun j _ => (h.iterate j).counter

/-- **A span of cycles is not seen** when it is empty, or made of whole periods with no sample waiting. -/
theorem FullPeriod.unseen_iff {per r : Nat} (h : FullPeriod ch per) (hr : r < per) (n : Nat) :
    periodCountdown.tick^[n] (periodCountdown.spend ch r) = periodCountdown.spend ch r ↔
      n = 0 ∨ (per ∣ n ∧ audioSamplesPending ch = 0) := by
  have hneed : r < periodCountdown.need ch := Nat.lt_of_lt_of_eq hr h.counter.symm
  have hpos : 0 < per := Nat.lt_of_le_of_lt (Nat.zero_le r) hr
  rw [← periodCountdown_lawful.iterate_of_lt h.ok hneed, ← Function.iterate_add_apply, h.cycles, h.cycles r,
    Nat.div_eq_of_lt hr, Nat.mod_eq_of_lt hr, Function.iterate_zero_apply]
  constructor
  · intro he
    have hlate := h.iterate ((n + r) / per)
    have hmod := Nat.mod_lt (n + r) hpos
    have hcounter := congrArg (fun c => c.periodCounter.toNat) he
    have hleft : (audioPeriodElapsed^[(n + r) / per] ch).periodCounter.toNat - (n + r) % per =
        ch.periodCounter.toNat - r :=
      (periodCounter_sub (Nat.lt_of_lt_of_eq hmod hlate.counter.symm)).symm.trans
        (hcounter.trans (periodCounter_sub (Nat.lt_of_lt_of_eq hr h.counter.symm)))
    rw [hlate.counter, h.counter] at hleft
    have hwhole : per ∣ n := by
      have hdiv := Nat.mod_add_div (n + r) per
      exact ⟨(n + r) / per, by omega⟩
    have hsame := congrArg audioSamplesPending he
    have hpending : audioSamplesPending ch - (n + r) / per = audioSamplesPending ch :=
      (elapsed_iterate_pending ch _).symm.trans hsame
    rcases Nat.eq_zero_or_pos n with hn | hn
    · exact .inl hn
    · have hperiods : 0 < (n + r) / per := Nat.div_pos (Nat.le_trans (Nat.le_of_dvd hn hwhole) (Nat.le_add_right n r)) hpos
      exact .inr ⟨hwhole, by omega⟩
  · rintro (rfl | ⟨⟨k, rfl⟩, hpending⟩)
    · rw [Nat.zero_add, Nat.div_eq_of_lt hr, Nat.mod_eq_of_lt hr, Function.iterate_zero_apply]
    · have hfull : ch.periodCounter = ch.audper := UInt16.toNat_inj.mp (h.counter.trans h.audper.symm)
      rw [Nat.mul_add_mod, Nat.mod_eq_of_lt hr, Function.iterate_fixed (audioPeriodElapsed_quiet hpending hfull)]

/-! ## One channel -/

/-- What a step may be cut into: the channel has DMA or no word to play, the cut is before the end of its period, or
what comes after the cut is whole periods with nothing left to play. -/
def CutUnseen (ch : AudioChannel) (dma : Bool) (m n : Nat) : Prop :=
  dma = true ∨ ch.dataPending = false ∨ m < (audioChannelNext ch).toNat ∨ n = 0 ∨
    ((audioPeriodDefaults ch).audper.toNat ∣ n ∧
      audioSamplesPending ch ≤ 1 + (m - (audioChannelNext ch).toNat) / (audioPeriodDefaults ch).audper.toNat)

theorem audioChannelNext_defaults (ch : AudioChannel) (dma : Bool) :
    (audioChannelNext ch).toNat = (audioPeriodDefaults { ch with dmaEnabled := dma }).periodCounter.toNat := by
  show (if ch.periodCounter = 0 then (if ch.audper ≠ 0 then ch.audper.toUInt32 else 1)
      else ch.periodCounter.toUInt32).toNat =
    (if ch.periodCounter = 0 then (if ch.audper = 0 then (1 : UInt16) else ch.audper) else ch.periodCounter).toNat
  by_cases hc : ch.periodCounter = 0
  · by_cases hp : ch.audper = 0
    · simp [hc, hp]
    · simp [hc, hp]
  · simp [hc]

theorem tick_dmaEnabled (ch : AudioChannel) (n : Nat) : (periodCountdown.tick^[n] ch).dmaEnabled = ch.dmaEnabled :=
  Countdown.iterate_keeps (f := AudioChannel.dmaEnabled) (fun _ _ => rfl) (fun c => (audioPeriodElapsed_counter c).2.2) ch n

/-- The written word is gone once its period has ended. -/
theorem PeriodOk.data_taken (h : PeriodOk ch) {m : Nat} (hm : ch.periodCounter.toNat ≤ m) :
    (periodCountdown.tick^[m] ch).dataPending = false := by
  have hpast := h.fullPeriod.cycles (m - ch.periodCounter.toNat)
  rw [periodCountdown_lawful.iterate_of_le h hm]
  refine (congrArg AudioChannel.dataPending hpast).trans ?_
  show (audioPeriodElapsed^[(m - ch.periodCounter.toNat) / ch.audper.toNat] (audioPeriodElapsed ch)).dataPending = false
  rw [← Function.iterate_succ_apply, Function.iterate_succ_apply']
  exact audioPeriodElapsed_data _

/-- **After the end of the first period** a span of cycles is not seen when it is whole periods and every sample that
waited has been taken. -/
theorem PeriodOk.unseen_iff (h : PeriodOk ch) {m : Nat} (hm : ch.periodCounter.toNat ≤ m) (n : Nat) :
    periodCountdown.tick^[n] (periodCountdown.tick^[m] ch) = periodCountdown.tick^[m] ch ↔
      n = 0 ∨ (ch.audper.toNat ∣ n ∧ audioSamplesPending ch ≤ 1 + (m - ch.periodCounter.toNat) / ch.audper.toNat) := by
  have hfull := h.fullPeriod.iterate ((m - ch.periodCounter.toNat) / ch.audper.toNat)
  have hpast : periodCountdown.tick^[m] ch = _ :=
    (periodCountdown_lawful.iterate_of_le h hm).trans (h.fullPeriod.cycles (m - ch.periodCounter.toNat))
  have hpending := elapsed_iterate_pending ch (1 + (m - ch.periodCounter.toNat) / ch.audper.toNat)
  rw [Nat.add_comm 1, Function.iterate_succ_apply] at hpending
  rw [hpast, hfull.unseen_iff (Nat.mod_lt _ h.audper) n, hpending]
  omega

/-- **When one channel does not see the cut.** -/
theorem audioStepChannel_cut_iff (ch : AudioChannel) (dma : Bool) (m n : UInt32) (hfit : m.toNat + n.toNat < 2 ^ 32) :
    (audioStepChannel ch dma (m + n)).1 = (audioStepChannel (audioStepChannel ch dma m).1 dma n).1 ↔
      CutUnseen ch dma m.toNat n.toNat := by
  have hsum : (m + n).toNat = n.toNat + m.toNat := by rw [UInt32.toNat_add, Nat.mod_eq_of_lt hfit, Nat.add_comm]
  have hok := periodOk_defaults { ch with dmaEnabled := dma }
  have hnext := audioChannelNext_defaults ch dma
  have hper : (audioPeriodDefaults { ch with dmaEnabled := dma }).audper = (audioPeriodDefaults ch).audper := rfl
  have hdata : (audioPeriodDefaults { ch with dmaEnabled := dma }).dataPending = ch.dataPending := rfl
  have hsamples : audioSamplesPending (audioPeriodDefaults { ch with dmaEnabled := dma }) = audioSamplesPending ch := rfl
  have hdma : (audioPeriodDefaults { ch with dmaEnabled := dma }).dmaEnabled = dma := rfl
  rw [audioStepChannel_eq ch, audioStepChannel_eq ch]
  generalize audioPeriodDefaults { ch with dmaEnabled := dma } = c at hok hnext hper hdata hsamples hdma
  unfold CutUnseen
  rw [hnext, ← hper, ← hdata, ← hsamples]
  cases hserved : dma || c.dataPending with
  | false =>
    obtain ⟨rfl, hidle⟩ := Bool.or_eq_false_iff.mp hserved
    simp [audioStepChannel_eq, hidle]
  | true =>
    have hagain := periodCountdown_lawful.ok_iterate hok m.toNat
    have hsame : ({ periodCountdown.tick^[m.toNat] c with dmaEnabled := dma } : AudioChannel) =
        periodCountdown.tick^[m.toNat] c := by
      rw [← hdma, ← tick_dmaEnabled c m.toNat]
    simp only [if_true]
    rw [audioStepChannel_eq, hsame, hagain.defaults, hsum, Function.iterate_add_apply]
    cases hsecond : dma || (periodCountdown.tick^[m.toNat] c).dataPending with
    | true =>
      simp only [if_true, true_iff]
      rcases Bool.or_eq_true_iff.mp hsecond with hon | hdata'
      · exact .inl hon
      · refine .inr (.inr (.inl (Nat.lt_of_not_le fun hle => ?_)))
        rw [hok.data_taken hle] at hdata'
        exact Bool.noConfusion hdata'
    | false =>
      obtain ⟨hoff, hgone⟩ := Bool.or_eq_false_iff.mp hsecond
      have hpend : c.dataPending = true := by simpa [hoff] using hserved
      have hle : c.periodCounter.toNat ≤ m.toNat := by
        refine Nat.le_of_not_lt fun hlt => ?_
        rw [periodCountdown_lawful.iterate_of_lt hok hlt] at hgone
        exact Bool.noConfusion (hgone.symm.trans hpend)
      simp only [Bool.false_eq_true, if_false]
      rw [hok.unseen_iff hle]
      simp [hoff, hpend, Nat.not_lt.mpr hle]

/-! ## The four channels -/

/-- One step sounds like its two parts: the same channels and the same mixed samples. -/
def AudioAdditive (a : AudioState) (m n : UInt32) : Prop :=
  (audioStep a (m + n)).ch = (audioStep (audioStep a m) n).ch ∧
    (audioStep a (m + n)).mixedLeft = (audioStep (audioStep a m) n).mixedLeft ∧
    (audioStep a (m + n)).mixedRight = (audioStep (audioStep a m) n).mixedRight

/-- Every channel leaves its loop by the loop's own condition, with less than a period left. -/
def AudioLoopsEnd (a : AudioState) (cycles : UInt32) : Prop :=
  ∀ i < paulaAudioChannels,
    let r := audioPeriodLoop (cycles.toNat + 1)
      (audioPeriodDefaults { a.ch i with dmaEnabled := audioChannelDmaEnabled a i }) cycles false
    ¬ r.2.1 ≥ r.1.periodCounter.toUInt32

theorem audioLoopsEnd (a : AudioState) (cycles : UInt32) : AudioLoopsEnd a cycles := fun _ _ =>
  UInt32.not_le.mpr ((periodOk_defaults _).loop _ false (Nat.lt_succ_self _)).2

theorem audioStep_ch (a : AudioState) (n : UInt32) (i : Nat) :
    (audioStep a n).ch i =
      if i < paulaAudioChannels then (audioStepChannel (a.ch i) (audioChannelDmaEnabled a i) n).1 else a.ch i := rfl

theorem audioStep_dmaEnabled (a : AudioState) (n : UInt32) (i : Nat) :
    audioChannelDmaEnabled (audioStep a n) i = audioChannelDmaEnabled a i := rfl

theorem audioStep_mixed (a : AudioState) (n : UInt32) :
    (audioStep a n).mixedLeft = audioClamp (audioLevel ((audioStep a n).ch 0) + audioLevel ((audioStep a n).ch 3)) ∧
      (audioStep a n).mixedRight = audioClamp (audioLevel ((audioStep a n).ch 1) + audioLevel ((audioStep a n).ch 2)) :=
  ⟨rfl, rfl⟩

/-- **When the sound does not depend on the cut**: no channel sees it. The loops end in any case. -/
theorem audioStep_additive_iff (a : AudioState) (m n : UInt32) (hfit : m.toNat + n.toNat < 2 ^ 32) :
    (AudioAdditive a m n ∧ ∀ cycles, AudioLoopsEnd a cycles) ↔
      ∀ i < paulaAudioChannels, CutUnseen (a.ch i) (audioChannelDmaEnabled a i) m.toNat n.toNat := by
  have hcut : ∀ i < paulaAudioChannels, (audioStep a (m + n)).ch i = (audioStep (audioStep a m) n).ch i ↔
      CutUnseen (a.ch i) (audioChannelDmaEnabled a i) m.toNat n.toNat := fun i hi => by
    have hfirst : (audioStep a m).ch i = (audioStepChannel (a.ch i) (audioChannelDmaEnabled a i) m).1 := by
      rw [audioStep_ch, if_pos hi]
    rw [audioStep_ch, audioStep_ch, if_pos hi, if_pos hi, audioStep_dmaEnabled, hfirst]
    exact audioStepChannel_cut_iff (a.ch i) _ m n hfit
  constructor
  · rintro ⟨⟨hch, -, -⟩, -⟩ i hi
    exact (hcut i hi).mp (congrFun hch i)
  · intro h
    have hch : (audioStep a (m + n)).ch = (audioStep (audioStep a m) n).ch := by
      funext i
      by_cases hi : i < paulaAudioChannels
      · exact (hcut i hi).mpr (h i hi)
      · rw [audioStep_ch, audioStep_ch, audioStep_ch, if_neg hi, if_neg hi, if_neg hi]
    obtain ⟨hl, hr⟩ := audioStep_mixed a (m + n)
    obtain ⟨hl', hr'⟩ := audioStep_mixed (audioStep a m) n
    exact ⟨⟨hch, by rw [hl, hl', hch], by rw [hr, hr', hch]⟩, audioLoopsEnd a⟩

/-- Channel 0 without DMA, with a period of 100 cycles and a word written by the CPU. -/
def wordWritten : AudioState := audioWriteReg (audioWriteReg audioReset 0x0A6 100) 0x0AA 0x4000

/-- The cut is before the end of the period. -/
theorem audioStep_additive_word : (60 : UInt32).toNat + (90 : UInt32).toNat < 2 ^ 32 ∧ AudioAdditive wordWritten 60 90 := by
  refine ⟨by decide, ((audioStep_additive_iff wordWritten 60 90 (by decide)).mpr fun i hi => ?_).1⟩
  match i, hi with
  | 0, _ => exact .inr (.inr (.inl (by decide)))
  | 1, _ => exact .inr (.inl rfl)
  | 2, _ => exact .inr (.inl rfl)
  | 3, _ => exact .inr (.inl rfl)

/-- Cut at the end of the period, the channel is passed over for the rest. -/
theorem audioStep_not_additive : ¬ AudioAdditive wordWritten 100 50 := by
  rintro ⟨hch, -⟩
  have hcounter := congrArg (fun ch => (ch 0).periodCounter) hch
  exact absurd hcounter (by decide)

end Rigel
