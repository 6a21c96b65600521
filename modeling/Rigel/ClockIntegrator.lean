import Mathlib.Data.UInt
import Rigel.Harness
import Rigel.RateDivider

/-!
# ClockIntegrator — no CPU cycle and no sample is lost

Two dividers stand in a row. The first takes CPU cycles in and lets colour clocks out, two to one; `cckRem` is what waits
in it. The second takes in each colour clock as 65536 parts and lets out one audio sample for every `audioStepQ16` of
them; `audioAccumQ16` is what waits in it. The accesses of a timeslice feed the first one up to a mark, the end of the
slice feeds it the rest.
-/

namespace Rigel

/-- The colour clocks given to `rigel_step`. -/
def Harness.cckGiven (h : Harness) : Nat := (h.cckSteps.map UInt64.toNat).sum

/-- The CPU cycles that the timeslices consumed; a slice that returns a negative number consumed none. -/
def Harness.cyclesConsumed (h : Harness) : Nat := (h.executed.map fun returned => returned.toInt.toNat).sum

/-- No access of the slice is later than the cycles the slice returns. Their order plays no part: `harness_flush` does
nothing at a time that is behind its mark. -/
def Timeslice.Timely (slice : Timeslice) : Prop := ∀ a ∈ slice.accesses, a.1.toInt ≤ slice.returned.toInt

/-- Musashi keeps its promise in every timeslice of the call. -/
def HarnessCall.Timely : HarnessCall → Prop
  | .step _ m68kExecute => ∀ budget, (m68kExecute budget).Timely
  | _ => True

/-- The call installs or removes the audio sink. -/
def HarnessCall.SetsAudio : HarnessCall → Prop
  | .setAudioSink _ rateHz => rateHz ≠ 0
  | _ => False

/-! ## What leaves the clocks alone -/

/-- The first divider, its mark and its totals stayed. -/
structure CpuClockSame (h h' : Harness) : Prop where
  rem : h'.cckRem = h.cckRem
  mark : h'.cyclesFlushed = h.cyclesFlushed
  given : h'.cckSteps = h.cckSteps
  executed : h'.executed = h.executed
  total : h'.cpuCyclesTotal = h.cpuCyclesTotal

/-- The second divider stayed, and nothing came out of it. -/
structure AudioSame (h h' : Harness) : Prop where
  fn : h'.audioFn = h.audioFn
  step : h'.audioStepQ16 = h.audioStepQ16
  accum : h'.audioAccumQ16 = h.audioAccumQ16
  out : h'.audioOut = h.audioOut

/-- Both stayed. -/
structure ClocksSame (h h' : Harness) : Prop extends CpuClockSame h h', AudioSame h h'

theorem ClocksSame.refl (h : Harness) : ClocksSame h h := ⟨⟨rfl, rfl, rfl, rfl, rfl⟩, ⟨rfl, rfl, rfl, rfl⟩⟩

theorem CpuClockSame.trans {a b c : Harness} (hab : CpuClockSame a b) (hbc : CpuClockSame b c) : CpuClockSame a c :=
  ⟨hbc.rem.trans hab.rem, hbc.mark.trans hab.mark, hbc.given.trans hab.given, hbc.executed.trans hab.executed,
    hbc.total.trans hab.total⟩

theorem ClocksSame.trans {a b c : Harness} (hab : ClocksSame a b) (hbc : ClocksSame b c) : ClocksSame a c :=
  ⟨hab.toCpuClockSame.trans hbc.toCpuClockSame,
    ⟨hbc.fn.trans hab.fn, hbc.step.trans hab.step, hbc.accum.trans hab.accum, hbc.out.trans hab.out⟩⟩

theorem harnessSyncIpl_clocks (h : Harness) : ClocksSame h (harnessSyncIpl h) := by
  unfold harnessSyncIpl
  split
  · exact ClocksSame.refl h
  · exact ⟨⟨rfl, rfl, rfl, rfl, rfl⟩, ⟨rfl, rfl, rfl, rfl⟩⟩

theorem harnessDrainLoop_clocks : ∀ (fuel : Nat) (h : Harness), ClocksSame h (harnessDrainLoop fuel h)
  | 0, h => ClocksSame.refl h
  | fuel + 1, h => by
    unfold harnessDrainLoop
    split
    · exact ClocksSame.refl h
    · rename_i rigel byte _
      have htaken : ClocksSame h { h with rigel := rigel, serialOut := h.serialOut ++ [byte] } :=
        ⟨⟨rfl, rfl, rfl, rfl, rfl⟩, ⟨rfl, rfl, rfl, rfl⟩⟩
      exact htaken.trans (harnessDrainLoop_clocks fuel _)

theorem harnessDrainSerial_clocks (h : Harness) : ClocksSame h (harnessDrainSerial h) := by
  unfold harnessDrainSerial
  split
  · exact ClocksSame.refl h
  · exact harnessDrainLoop_clocks _ h

theorem harnessAbsorb_clocks (h : Harness) (events : RigelEvents) : ClocksSame h (harnessAbsorb h events) := by
  have hpending : ClocksSame h { h with pendingEvents := h.pendingEvents.or events } :=
    ⟨⟨rfl, rfl, rfl, rfl, rfl⟩, ⟨rfl, rfl, rfl, rfl⟩⟩
  exact (hpending.trans (harnessSyncIpl_clocks _)).trans (harnessDrainSerial_clocks _)

theorem harnessAdvanceAudio_cpuClock (h : Harness) (cck : UInt64) : CpuClockSame h (harnessAdvanceAudio h cck) := by
  unfold harnessAdvanceAudio
  split <;> exact ⟨rfl, rfl, rfl, rfl, rfl⟩

theorem harnessWatchPc_clocks (h : Harness) (pc : UInt32) : ClocksSame h (harnessWatchPc h pc) := by
  unfold harnessWatchPc
  repeat' split
  all_goals exact ⟨⟨rfl, rfl, rfl, rfl, rfl⟩, ⟨rfl, rfl, rfl, rfl⟩⟩

/-- After its flush an access leaves the clocks alone. -/
theorem harnessAccess_clocks (h : Harness) (run : Int32) (access : ChipsetAccess) :
    ClocksSame (harnessFlush h run) (harnessAccess h run access) := by
  have hrigel : ∀ (h : Harness) (rigel : RigelContext), ClocksSame h { h with rigel := rigel } :=
    fun _ _ => ⟨⟨rfl, rfl, rfl, rfl, rfl⟩, ⟨rfl, rfl, rfl, rfl⟩⟩
  cases access with
  | ciaRead8 addr =>
    simp only [harnessAccess, harnessCiaRead8]
    split
    · exact (hrigel _ _).trans (harnessSyncIpl_clocks _)
    · exact ClocksSame.refl _
  | ciaWrite8 addr value =>
    simp only [harnessAccess, harnessCiaWrite8]
    split
    · exact (hrigel _ _).trans (harnessSyncIpl_clocks _)
    · exact harnessSyncIpl_clocks _
  | customRead reg => exact hrigel _ _
  | customWrite reg value => exact (hrigel _ _).trans (harnessSyncIpl_clocks _)

/-! ## The first divider -/

/-- The first divider has taken in `total` cycles. -/
def Harness.Clocked (h : Harness) (total : Nat) : Prop := Divided 2 h.cckRem.toNat h.cckGiven total

theorem CpuClockSame.clocked {h h' : Harness} (hs : CpuClockSame h h') {total : Nat} (hc : h.Clocked total) :
    h'.Clocked total := by
  unfold Harness.Clocked Harness.cckGiven at *
  rw [hs.rem, hs.given]
  exact hc

/-- The mark and the totals, which feeding the dividers does not move. -/
structure MarkSame (h h' : Harness) : Prop where
  mark : h'.cyclesFlushed = h.cyclesFlushed
  executed : h'.executed = h.executed
  total : h'.cpuCyclesTotal = h.cpuCyclesTotal

/-- `rigel_step` and what follows it, for both clocks: the CPU's loses nothing and is given one more step. -/
theorem harnessRigelStep_cpuClock (h : Harness) (cck : UInt64) :
    CpuClockSame { h with cckSteps := h.cckSteps ++ [cck] } (harnessRigelStep h cck) := by
  simp only [harnessRigelStep]
  generalize rigelStep h.rigel cck = r
  have hs := (harnessAbsorb_clocks { h with rigel := r.1, cckSteps := h.cckSteps ++ [cck] } r.2.events).toCpuClockSame.trans
    (harnessAdvanceAudio_cpuClock _ cck)
  exact ⟨hs.rem, hs.mark, hs.given, hs.executed, hs.total⟩

theorem harnessIntegrate_mark (h : Harness) (cycles : UInt64) : MarkSame h (harnessIntegrate h cycles) := by
  simp only [harnessIntegrate]
  split
  · have hs := harnessRigelStep_cpuClock { h with cckRem := ((h.cckRem.toUInt64 + cycles) &&& 1).toUInt32 }
      ((h.cckRem.toUInt64 + cycles) / 2)
    exact ⟨hs.mark, hs.executed, hs.total⟩
  · exact ⟨rfl, rfl, rfl⟩

/-- **Cycles handed over go into the first divider.** -/
theorem harnessIntegrate_clocked {h : Harness} {total : Nat} (hc : h.Clocked total) (cycles : UInt64)
    (hcycles : cycles.toNat < 2 ^ 32) : (harnessIntegrate h cycles).Clocked (total + cycles.toNat) := by
  have hrem : h.cckRem.toNat < 2 := hc.short
  have hscaled : (h.cckRem.toUInt64 + cycles).toNat = h.cckRem.toNat + cycles.toNat := by
    rw [UInt64.toNat_add, UInt32.toNat_toUInt64]
    exact Nat.mod_eq_of_lt (by omega)
  have hcarried : ((h.cckRem.toUInt64 + cycles) &&& 1).toUInt32.toNat = (h.cckRem.toNat + cycles.toNat) % 2 := by
    rw [UInt64.toNat_toUInt32, UInt64.toNat_and, hscaled]
    have hone : (h.cckRem.toNat + cycles.toNat) &&& 1 = (h.cckRem.toNat + cycles.toNat) % 2 := Nat.and_one_is_mod _
    simp only [UInt64.reduceToNat, hone]
    exact Nat.mod_eq_of_lt (by omega)
  have hcck : ((h.cckRem.toUInt64 + cycles) / 2).toNat = (h.cckRem.toNat + cycles.toNat) / 2 := by
    rw [UInt64.toNat_div, hscaled]
    rfl
  have hfed := hc.feed cycles.toNat
  rw [← hcarried, ← hcck] at hfed
  simp only [harnessIntegrate]
  split
  · apply (harnessRigelStep_cpuClock _ _).clocked
    simpa [Harness.Clocked, Harness.cckGiven] using hfed
  · rename_i hzero
    rw [not_not] at hzero
    rw [hzero] at hfed
    exact hfed

/-- In a timeslice: the mark is between its bounds, and the divider has taken in what the slice ran up to the mark. -/
structure MidSlice (h : Harness) (total : Nat) (consumed : Int) : Prop where
  mark_nonneg : 0 ≤ h.cyclesFlushed.toInt
  mark_le : h.cyclesFlushed.toInt ≤ consumed
  clocked : h.Clocked (total + h.cyclesFlushed.toInt.toNat)

theorem toNat_toUInt64_of_delta {delta : Int} (hdelta : delta < 2 ^ 32) : delta.toNat.toUInt64.toNat = delta.toNat := by
  rw [Nat.toUInt64_eq, UInt64.toNat_ofNat']
  exact Nat.mod_eq_of_lt (by omega)

/-- **A flush keeps the divider at its mark**, wherever it falls. -/
theorem harnessFlush_midSlice {h : Harness} {total : Nat} {consumed : Int} (hm : MidSlice h total consumed) {run : Int32}
    (hrun : run.toInt ≤ consumed) : MidSlice (harnessFlush h run) total consumed := by
  simp only [harnessFlush]
  split
  · exact hm
  · rename_i hdelta
    have hnonneg := hm.mark_nonneg
    have hrunLt : run.toInt < 2 ^ 31 := run.toInt_lt
    have hdeltaNat := toNat_toUInt64_of_delta (by omega : run.toInt - h.cyclesFlushed.toInt < 2 ^ 32)
    have hmarked : Harness.Clocked { h with cyclesFlushed := run } (total + h.cyclesFlushed.toInt.toNat) := hm.clocked
    generalize hd : (run.toInt - h.cyclesFlushed.toInt).toNat.toUInt64 = delta at hdeltaNat ⊢
    have hfed := harnessIntegrate_clocked hmarked delta (by omega)
    have hmark : (harnessIntegrate { h with cyclesFlushed := run } delta).cyclesFlushed = run :=
      (harnessIntegrate_mark _ _).mark
    have htaken : total + h.cyclesFlushed.toInt.toNat + delta.toNat = total + run.toInt.toNat := by omega
    rw [htaken] at hfed
    refine ⟨?_, ?_, ?_⟩ <;> rw [hmark]
    · omega
    · exact hrun
    · exact hfed

theorem ClocksSame.midSlice {h h' : Harness} (hs : ClocksSame h h') {total : Nat} {consumed : Int}
    (hm : MidSlice h total consumed) : MidSlice h' total consumed := by
  refine ⟨?_, ?_, ?_⟩
  · rw [hs.mark]
    exact hm.mark_nonneg
  · rw [hs.mark]
    exact hm.mark_le
  · rw [hs.mark]
    exact hs.clocked hm.clocked

theorem harnessRunAccesses_midSlice {total : Nat} {consumed : Int} : ∀ (accesses : List (Int32 × ChipsetAccess))
    {h : Harness}, MidSlice h total consumed → (∀ a ∈ accesses, a.1.toInt ≤ consumed) →
    MidSlice (harnessRunAccesses h accesses) total consumed
  | [], _, hm, _ => hm
  | a :: accesses, h, hm, hrun => by
    have hflushed := harnessFlush_midSlice hm (hrun a (List.mem_cons_self ..))
    have haccess : MidSlice (harnessAccess h a.1 a.2) total consumed :=
      (harnessAccess_clocks h a.1 a.2).midSlice hflushed
    exact harnessRunAccesses_midSlice accesses haccess fun b hb => hrun b (List.mem_cons_of_mem a hb)

theorem harnessFlush_mark (h : Harness) (run : Int32) :
    (harnessFlush h run).executed = h.executed ∧ (harnessFlush h run).cpuCyclesTotal = h.cpuCyclesTotal := by
  simp only [harnessFlush]
  split
  · exact ⟨rfl, rfl⟩
  · have hm := harnessIntegrate_mark { h with cyclesFlushed := run } (run.toInt - h.cyclesFlushed.toInt).toNat.toUInt64
    exact ⟨hm.executed, hm.total⟩

/-- The totals are counted at the end of a slice only. -/
theorem harnessRunAccesses_totals : ∀ (accesses : List (Int32 × ChipsetAccess)) (h : Harness),
    (harnessRunAccesses h accesses).executed = h.executed ∧
      (harnessRunAccesses h accesses).cpuCyclesTotal = h.cpuCyclesTotal
  | [], _ => ⟨rfl, rfl⟩
  | a :: accesses, h => by
    have hrest := harnessRunAccesses_totals accesses (harnessAccess h a.1 a.2)
    have haccess := harnessAccess_clocks h a.1 a.2
    have hflush := harnessFlush_mark h a.1
    exact ⟨hrest.1.trans (haccess.executed.trans hflush.1), hrest.2.trans (haccess.total.trans hflush.2)⟩

/-- The cycles of a slice, as the source clamps them. -/
def Timeslice.consumed (slice : Timeslice) : Int32 := if slice.returned < 0 then 0 else slice.returned

theorem Timeslice.consumed_toInt (slice : Timeslice) : slice.consumed.toInt = slice.returned.toInt.toNat := by
  have hneg : slice.returned < 0 ↔ slice.returned.toInt < 0 := Int32.lt_iff_toInt_lt
  unfold Timeslice.consumed
  split
  · rename_i hreturned
    have hlt := hneg.mp hreturned
    rw [Int32.toInt_zero]
    omega
  · rename_i hreturned
    have hge : ¬ slice.returned.toInt < 0 := fun hlt => hreturned (hneg.mpr hlt)
    omega

/-- What the accesses of a slice left is handed over at its end. -/
def harnessSettle (h : Harness) (consumed : Int32) : Harness :=
  let leftover := consumed.toInt - h.cyclesFlushed.toInt
  if leftover > 0 then harnessIntegrate h leftover.toNat.toUInt64 else h

theorem harnessExecute_eq (h : Harness) (slice : Timeslice) :
    harnessExecute h slice =
      { harnessSettle (harnessRunAccesses { h with cyclesFlushed := 0 } slice.accesses) slice.consumed with
        cpuCyclesTotal := (harnessSettle (harnessRunAccesses { h with cyclesFlushed := 0 } slice.accesses)
          slice.consumed).cpuCyclesTotal + slice.consumed.toInt.toNat.toUInt64
        executed := (harnessSettle (harnessRunAccesses { h with cyclesFlushed := 0 } slice.accesses)
          slice.consumed).executed ++ [slice.returned] } := rfl

theorem harnessSettle_mark (h : Harness) (consumed : Int32) : MarkSame h (harnessSettle h consumed) := by
  simp only [harnessSettle]
  split
  · exact harnessIntegrate_mark h _
  · exact ⟨rfl, rfl, rfl⟩

/-- **At the end of the slice the divider has taken in all of it.** -/
theorem harnessSettle_clocked {h : Harness} {total : Nat} {consumed : Int32} (hm : MidSlice h total consumed.toInt) :
    (harnessSettle h consumed).Clocked (total + consumed.toInt.toNat) := by
  have hnonneg := hm.mark_nonneg
  have hle := hm.mark_le
  have hclocked := hm.clocked
  have hlt : consumed.toInt < 2 ^ 31 := consumed.toInt_lt
  simp only [harnessSettle]
  split
  · have hleft := toNat_toUInt64_of_delta (by omega : consumed.toInt - h.cyclesFlushed.toInt < 2 ^ 32)
    generalize (consumed.toInt - h.cyclesFlushed.toInt).toNat.toUInt64 = left at hleft ⊢
    have hfed := harnessIntegrate_clocked hclocked left (by omega)
    have htaken : total + h.cyclesFlushed.toInt.toNat + left.toNat = total + consumed.toInt.toNat := by omega
    rwa [htaken] at hfed
  · have hall : h.cyclesFlushed.toInt = consumed.toInt := by omega
    rwa [hall] at hclocked

/-- The first divider has taken in every cycle that the CPU consumed, and `cpu_cycles_total` counts the same ones. -/
structure CyclesKept (h : Harness) : Prop where
  clocked : h.Clocked h.cyclesConsumed
  total : h.cpuCyclesTotal.toNat = h.cyclesConsumed % 2 ^ 64

theorem CyclesKept.same {h h' : Harness} (hk : CyclesKept h) (hs : CpuClockSame h h') : CyclesKept h' := by
  have hsame : h'.cyclesConsumed = h.cyclesConsumed := by
    unfold Harness.cyclesConsumed
    rw [hs.executed]
  refine ⟨?_, ?_⟩
  · rw [hsame]
    exact hs.clocked hk.clocked
  · rw [hsame, hs.total]
    exact hk.total

theorem harnessExecute_cyclesKept {h : Harness} (hk : CyclesKept h) {slice : Timeslice} (ht : slice.Timely) :
    CyclesKept (harnessExecute h slice) := by
  have hconsumed := slice.consumed_toInt
  have hstart : MidSlice { h with cyclesFlushed := 0 } h.cyclesConsumed slice.consumed.toInt :=
    ⟨Int.le_refl 0, hconsumed ▸ Int.natCast_nonneg _, hk.clocked⟩
  have hmid := harnessRunAccesses_midSlice slice.accesses hstart fun a ha => by
    have hrun := ht a ha
    omega
  have htotals := harnessRunAccesses_totals slice.accesses { h with cyclesFlushed := 0 }
  have hclocked := harnessSettle_clocked hmid
  have hmark := harnessSettle_mark (harnessRunAccesses { h with cyclesFlushed := 0 } slice.accesses) slice.consumed
  have hsum : (harnessExecute h slice).cyclesConsumed = h.cyclesConsumed + slice.consumed.toInt.toNat := by
    rw [harnessExecute_eq]
    simp only [Harness.cyclesConsumed, hmark.executed, htotals.1, List.map_append, List.sum_append]
    simp [hconsumed]
  refine ⟨?_, ?_⟩
  · rw [hsum, harnessExecute_eq]
    exact hclocked
  · have hlt : slice.consumed.toInt < 2 ^ 31 := slice.consumed.toInt_lt
    rw [hsum, harnessExecute_eq]
    simp only [hmark.total, htotals.2, UInt64.toNat_add, hk.total, toNat_toUInt64_of_delta (by omega :
      slice.consumed.toInt < 2 ^ 32)]
    omega

/-! ## The second divider -/

theorem audioSamplesDue_eq {step : UInt32} (hstep : 0 < step) (accum : UInt32) :
    (audioSamplesDue step accum).1 = accum.toNat / step.toNat ∧
      (audioSamplesDue step accum).2.toNat = accum.toNat % step.toNat := by
  induction accum using audioSamplesDue.induct step with
  | case1 accum h ih =>
    have hpos : 0 < step.toNat := hstep
    have hle : step.toNat ≤ accum.toNat := h.2
    rw [UInt32.toNat_sub_of_le _ _ h.2] at ih
    rw [audioSamplesDue, dif_pos h, Nat.div_eq_sub_div hpos hle, Nat.mod_eq_sub_mod hle]
    exact ⟨congrArg (· + 1) ih.1, ih.2⟩
  | case2 accum h =>
    have hlt : accum.toNat < step.toNat := Nat.lt_of_not_le fun hle => h ⟨hstep, hle⟩
    rw [audioSamplesDue, dif_neg h]
    exact ⟨(Nat.div_eq_of_lt hlt).symm, (Nat.mod_eq_of_lt hlt).symm⟩

/-- **Colour clocks advanced go into the second divider**, unless the 32 bits of the accumulator are too narrow. -/
theorem audioAdvance_divided {step accum : UInt32} {out total : Nat} (hd : Divided step.toNat accum.toNat out total)
    (hstep : step.toNat < 2 ^ 31) {cck : UInt64} (hcck : cck.toNat ≤ 32767) :
    Divided step.toNat (audioSamplesDue step (accum + (cck <<< 16).toUInt32)).2.toNat
      (out + (audioSamplesDue step (accum + (cck <<< 16).toUInt32)).1) (total + cck.toNat * 65536) := by
  have hshort := hd.short
  have hparts : (cck <<< 16).toUInt32.toNat = cck.toNat * 65536 := by
    have hsixteen : (16 : UInt64).toNat % 64 = 16 := rfl
    rw [UInt64.toNat_toUInt32, UInt64.toNat_shiftLeft, hsixteen, Nat.shiftLeft_eq]
    omega
  have hsum : (accum + (cck <<< 16).toUInt32).toNat = accum.toNat + cck.toNat * 65536 := by
    rw [UInt32.toNat_add, hparts]
    exact Nat.mod_eq_of_lt (by omega)
  have hpos : 0 < step := Nat.lt_of_le_of_lt (Nat.zero_le _) hshort
  obtain ⟨hout, hrem⟩ := audioSamplesDue_eq hpos (accum + (cck <<< 16).toUInt32)
  rw [hout, hrem, hsum]
  exact hd.feed _

/-- Between two states with a sink installed and its step unchanged: what was advanced since, what came out since, and
the divider between them. -/
structure AudioSince (h0 h : Harness) : Prop where
  fn : h.audioFn = true
  step : h.audioStepQ16 = h0.audioStepQ16
  kept : ∃ (advances : List UInt64) (out : List (Int16 × Int16)),
    h.cckSteps = h0.cckSteps ++ advances ∧ h.audioOut = h0.audioOut ++ out ∧ (h0.audioStepQ16 = 0 → out = []) ∧
      (0 < h0.audioStepQ16 → h0.audioStepQ16.toNat < 2 ^ 31 → (∀ n ∈ advances, n.toNat ≤ 32767) →
        Divided h0.audioStepQ16.toNat h.audioAccumQ16.toNat out.length ((advances.map UInt64.toNat).sum * 65536))

theorem AudioSince.same {h0 h h' : Harness} (ha : AudioSince h0 h) (hs : AudioSame h h')
    (hgiven : h'.cckSteps = h.cckSteps) : AudioSince h0 h' := by
  refine ⟨hs.fn.trans ha.fn, hs.step.trans ha.step, ?_⟩
  rw [hgiven, hs.out, hs.accum]
  exact ha.kept

/-- One advance, given to `rigel_step` and to the sink. -/
theorem AudioSince.advance {h0 h : Harness} (ha : AudioSince h0 h) (cck : UInt64) :
    AudioSince h0 (harnessAdvanceAudio { h with cckSteps := h.cckSteps ++ [cck] } cck) := by
  obtain ⟨advances, out, hadvances, hout, hzero, hdivided⟩ := ha.kept
  simp only [harnessAdvanceAudio]
  rw [ha.fn]
  split
  · -- a step of 0 never lets a sample out
    rename_i hstep
    have hstep0 : h0.audioStepQ16 = 0 := by simpa [ha.step] using hstep
    refine ⟨rfl, ha.step, advances ++ [cck], out, ?_, hout, hzero, fun hpos => ?_⟩
    · simp only [hadvances, List.append_assoc]
    · rw [hstep0] at hpos
      exact absurd hpos (by decide)
  · rename_i hstep
    have hstep0 : h0.audioStepQ16 ≠ 0 := by simpa [ha.step] using hstep
    rw [ha.step]
    refine ⟨rfl, rfl, advances ++ [cck], out ++ List.replicate
      (audioSamplesDue h0.audioStepQ16 (h.audioAccumQ16 + (cck <<< 16).toUInt32)).1 (rigelGetAudioSample h.rigel),
      ?_, ?_, fun h => absurd h hstep0, fun hpos hlt hadv => ?_⟩
    · simp only [hadvances, List.append_assoc]
    · simp only [hout, List.append_assoc]
    · have hfed := audioAdvance_divided (hdivided hpos hlt fun n hn => hadv n (List.mem_append_left _ hn)) hlt
        (hadv cck (List.mem_append_right _ (List.mem_singleton_self cck)))
      simpa [List.sum_append, Nat.add_mul] using hfed

theorem harnessRigelStep_audio {h0 h : Harness} (ha : AudioSince h0 h) (cck : UInt64) :
    AudioSince h0 (harnessRigelStep h cck) := by
  simp only [harnessRigelStep]
  generalize rigelStep h.rigel cck = r
  have hs := harnessAbsorb_clocks { h with rigel := r.1, cckSteps := h.cckSteps ++ [cck] } r.2.events
  generalize harnessAbsorb { h with rigel := r.1, cckSteps := h.cckSteps ++ [cck] } r.2.events = absorbed at hs ⊢
  -- the record of the step is made before the absorption, which leaves it alone
  have hbefore : AudioSince h0 { absorbed with cckSteps := h.cckSteps } :=
    ha.same ⟨hs.fn, hs.step, hs.accum, hs.out⟩ rfl
  have hadvanced := hbefore.advance cck
  have hgiven : absorbed.cckSteps = h.cckSteps ++ [cck] := hs.given
  rw [← hgiven] at hadvanced
  exact hadvanced

theorem harnessIntegrate_audio {h0 h : Harness} (ha : AudioSince h0 h) (cycles : UInt64) :
    AudioSince h0 (harnessIntegrate h cycles) := by
  have hcarried : AudioSince h0 { h with cckRem := ((h.cckRem.toUInt64 + cycles) &&& 1).toUInt32 } :=
    ha.same ⟨rfl, rfl, rfl, rfl⟩ rfl
  simp only [harnessIntegrate]
  split
  · exact harnessRigelStep_audio hcarried _
  · exact hcarried

theorem harnessFlush_audio {h0 h : Harness} (ha : AudioSince h0 h) (run : Int32) : AudioSince h0 (harnessFlush h run) := by
  simp only [harnessFlush]
  split
  · exact ha
  · apply harnessIntegrate_audio
    exact ha.same ⟨rfl, rfl, rfl, rfl⟩ rfl

theorem harnessRunAccesses_audio {h0 : Harness} : ∀ (accesses : List (Int32 × ChipsetAccess)) {h : Harness},
    AudioSince h0 h → AudioSince h0 (harnessRunAccesses h accesses)
  | [], _, ha => ha
  | a :: accesses, h, ha => by
    have hs := harnessAccess_clocks h a.1 a.2
    have haccess : AudioSince h0 (harnessAccess h a.1 a.2) :=
      (harnessFlush_audio ha a.1).same hs.toAudioSame hs.given
    exact harnessRunAccesses_audio accesses haccess

theorem harnessExecute_audio {h0 h : Harness} (ha : AudioSince h0 h) (slice : Timeslice) :
    AudioSince h0 (harnessExecute h slice) := by
  have hstart : AudioSince h0 { h with cyclesFlushed := 0 } := ha.same ⟨rfl, rfl, rfl, rfl⟩ rfl
  have hrun := harnessRunAccesses_audio slice.accesses hstart
  rw [harnessExecute_eq]
  generalize harnessRunAccesses { h with cyclesFlushed := 0 } slice.accesses = mid at hrun ⊢
  have hsettled : AudioSince h0 (harnessSettle mid slice.consumed) := by
    simp only [harnessSettle]
    split
    · exact harnessIntegrate_audio hrun _
    · exact hrun
  exact hsettled.same ⟨rfl, rfl, rfl, rfl⟩ rfl

/-! ## Whole runs -/

def harnessRun (h : Harness) (calls : List HarnessCall) : Harness := calls.foldl harnessCall h

theorem harnessCall_cyclesKept {h : Harness} (hk : CyclesKept h) {c : HarnessCall} (hc : c.Timely) :
    CyclesKept (harnessCall h c) := by
  cases c with
  | step maxCpuCycles m68kExecute =>
    have hstart : CyclesKept { h with pendingEvents := RigelEvents.none } := hk.same ⟨rfl, rfl, rfl, rfl, rfl⟩
    simp only [harnessCall, harnessStep]
    generalize harnessQuantumCpuCycles { h with pendingEvents := RigelEvents.none } maxCpuCycles = budget
    have hexecuted := harnessExecute_cyclesKept hstart (hc budget.toInt32)
    have hwatched := hexecuted.same (harnessWatchPc_clocks _ (m68kExecute budget.toInt32).pc).toCpuClockSame
    exact hwatched.same ⟨rfl, rfl, rfl, rfl, rfl⟩
  | setAudioSink fn rateHz =>
    simp only [harnessCall, harnessSetAudioSink]
    split <;> exact hk.same ⟨rfl, rfl, rfl, rfl, rfl⟩
  | setSerialSink fn => exact hk.same ⟨rfl, rfl, rfl, rfl, rfl⟩
  | rigel call => exact hk.same ⟨rfl, rfl, rfl, rfl, rfl⟩

theorem harnessRun_cyclesKept : ∀ (calls : List HarnessCall) {h : Harness}, CyclesKept h → (∀ c ∈ calls, c.Timely) →
    CyclesKept (harnessRun h calls)
  | [], _, hk, _ => hk
  | c :: calls, _, hk, hcalls =>
    harnessRun_cyclesKept calls (harnessCall_cyclesKept hk (hcalls c (List.mem_cons_self ..))) fun d hd =>
      hcalls d (List.mem_cons_of_mem c hd)

theorem harnessCall_audio {h0 h : Harness} (ha : AudioSince h0 h) {c : HarnessCall} (hc : ¬ c.SetsAudio) :
    AudioSince h0 (harnessCall h c) := by
  cases c with
  | step maxCpuCycles m68kExecute =>
    have hstart : AudioSince h0 { h with pendingEvents := RigelEvents.none } := ha.same ⟨rfl, rfl, rfl, rfl⟩ rfl
    simp only [harnessCall, harnessStep]
    generalize harnessQuantumCpuCycles { h with pendingEvents := RigelEvents.none } maxCpuCycles = budget
    have hexecuted := harnessExecute_audio hstart (m68kExecute budget.toInt32)
    have hs := harnessWatchPc_clocks (harnessExecute { h with pendingEvents := RigelEvents.none }
      (m68kExecute budget.toInt32)) (m68kExecute budget.toInt32).pc
    exact (hexecuted.same hs.toAudioSame hs.given).same ⟨rfl, rfl, rfl, rfl⟩ rfl
  | setAudioSink fn rateHz =>
    have hrate : rateHz = 0 := not_not.mp hc
    simp only [harnessCall, harnessSetAudioSink, if_pos hrate]
    exact ha
  | setSerialSink fn => exact ha.same ⟨rfl, rfl, rfl, rfl⟩ rfl
  | rigel call => exact ha.same ⟨rfl, rfl, rfl, rfl⟩ rfl

theorem harnessRun_audio {h0 : Harness} : ∀ (calls : List HarnessCall) {h : Harness}, AudioSince h0 h →
    (∀ c ∈ calls, ¬ c.SetsAudio) → AudioSince h0 (harnessRun h calls)
  | [], _, ha, _ => ha
  | c :: calls, _, ha, hcalls =>
    harnessRun_audio calls (harnessCall_audio ha (hcalls c (List.mem_cons_self ..))) fun d hd =>
      hcalls d (List.mem_cons_of_mem c hd)

/-- The accumulator is empty when a sink is installed. -/
theorem audioSince_start (h : Harness) {rateHz : UInt32} (hrate : rateHz ≠ 0) :
    AudioSince (harnessSetAudioSink h true rateHz) (harnessSetAudioSink h true rateHz) := by
  simp only [harnessSetAudioSink, if_neg hrate]
  refine ⟨rfl, rfl, [], [], ?_, ?_, fun _ => rfl, fun hpos _ _ => Divided.start hpos⟩
  · exact (List.append_nil _).symm
  · exact (List.append_nil _).symm

/-- **The samples since the sink was set**, whatever the advances were cut into. -/
theorem AudioSince.samples {h0 h : Harness} (ha : AudioSince h0 h) (hstep : h.audioStepQ16.toNat < 2 ^ 31)
    (hadv : ∀ n ∈ h.cckSteps.drop h0.cckSteps.length, n.toNat ≤ 32767) :
    h.audioOut.length = h0.audioOut.length + (h.cckGiven - h0.cckGiven) * 65536 / h.audioStepQ16.toNat := by
  obtain ⟨advances, out, hadvances, hout, hzero, hdivided⟩ := ha.kept
  have hsince : h.cckSteps.drop h0.cckSteps.length = advances := by rw [hadvances, List.drop_left]
  have hgiven : h.cckGiven - h0.cckGiven = (advances.map UInt64.toNat).sum := by
    simp only [Harness.cckGiven, hadvances, List.map_append, List.sum_append]
    omega
  rw [hsince] at hadv
  rw [ha.step] at hstep
  rw [hgiven, hout, List.length_append, ha.step]
  rcases Nat.eq_zero_or_pos h0.audioStepQ16.toNat with hz | hpos
  · have hstep0 : h0.audioStepQ16 = 0 := UInt32.toNat_inj.mp hz
    rw [hzero hstep0, hz, Nat.div_zero]
    rfl
  · rw [(hdivided hpos hstep hadv).out_eq]

/-- **The clock integrator loses nothing and invents nothing.** After any calls on a new harness, twice the colour clocks
given to `rigel_step` and the carried cycle are the CPU cycles consumed. From any call that installs an audio sink to the
next one, the samples are the whole steps in the colour clocks advanced since, as long as the accumulator's 32 bits are
enough for a step and an advance. -/
theorem harnessRun_conserved (rigel : RigelContext) (clockHz pc : UInt32) (calls : List HarnessCall)
    (hcalls : ∀ c ∈ calls, c.Timely) :
    (2 * (harnessRun (harnessCreate rigel clockHz pc) calls).cckGiven +
        (harnessRun (harnessCreate rigel clockHz pc) calls).cckRem.toNat =
      (harnessRun (harnessCreate rigel clockHz pc) calls).cyclesConsumed) ∧
    ((harnessRun (harnessCreate rigel clockHz pc) calls).cpuCyclesTotal.toNat =
      (harnessRun (harnessCreate rigel clockHz pc) calls).cyclesConsumed % 2 ^ 64) ∧
    ((harnessRun (harnessCreate rigel clockHz pc) calls).cckRem = 0 ∨
      (harnessRun (harnessCreate rigel clockHz pc) calls).cckRem = 1) ∧
    ∀ (before after : List HarnessCall) (rateHz : UInt32), calls = before ++ .setAudioSink true rateHz :: after →
      rateHz ≠ 0 → (∀ c ∈ after, ¬ c.SetsAudio) →
      let h0 := harnessRun (harnessCreate rigel clockHz pc) (before ++ [.setAudioSink true rateHz])
      let h := harnessRun (harnessCreate rigel clockHz pc) calls
      (∀ cck ∈ h.cckSteps.drop h0.cckSteps.length, cck.toNat ≤ 32767) → h.audioStepQ16.toNat < 2 ^ 31 →
      h.audioOut.length = h0.audioOut.length + (h.cckGiven - h0.cckGiven) * 65536 / h.audioStepQ16.toNat := by
  have hnew : CyclesKept (harnessCreate rigel clockHz pc) := ⟨Divided.start Nat.two_pos, rfl⟩
  have hkept := harnessRun_cyclesKept calls hnew hcalls
  refine ⟨hkept.clocked.kept, hkept.total, ?_, ?_⟩
  · have hshort : (harnessRun (harnessCreate rigel clockHz pc) calls).cckRem.toNat < 2 := hkept.clocked.short
    rw [← UInt32.toNat_inj, ← UInt32.toNat_inj, UInt32.toNat_zero, UInt32.toNat_one]
    omega
  · intro before after rateHz heq hrate hafter h0 h hadv hstep
    have hset : h0 = harnessSetAudioSink (harnessRun (harnessCreate rigel clockHz pc) before) true rateHz := by
      simp only [h0, harnessRun, List.foldl_append, List.foldl_cons, List.foldl_nil, harnessCall]
    have hrun : h = harnessRun h0 after := by
      simp only [h, h0, heq, harnessRun, List.foldl_append, List.foldl_cons, List.foldl_nil]
    have hsince : AudioSince h0 h := by
      rw [hrun]
      exact harnessRun_audio after (hset ▸ audioSince_start _ hrate) hafter
    exact hsince.samples hstep hadv

/-- A slice of 7 cycles that reads VPOSR after 3 of them. -/
def vposrSlice : Timeslice := ⟨[(3, .customRead 0x004)], 7, 0xF80010⟩

/-- Two such slices with a sink at 44100 samples a second: 14 cycles are 7 colour clocks, in four advances. -/
theorem harnessRun_conserved_vposr :
    let h0 := harnessRun (harnessCreate palMachine 7093790 0xF80008) [.setAudioSink true 44100]
    let h := harnessRun (harnessCreate palMachine 7093790 0xF80008)
      [.setAudioSink true 44100, .step 0 fun _ => vposrSlice, .step 0 fun _ => vposrSlice]
    h.cckSteps = [1, 2, 2, 2] ∧ 2 * h.cckGiven + h.cckRem.toNat = h.cyclesConsumed ∧
      h.audioOut.length = h0.audioOut.length + (h.cckGiven - h0.cckGiven) * 65536 / h.audioStepQ16.toNat := by
  intro h0 h
  have hslice : vposrSlice.Timely := fun a ha => by
    rw [List.mem_singleton.mp ha]
    decide
  have hcalls : ∀ c ∈ [HarnessCall.setAudioSink true 44100, .step 0 fun _ => vposrSlice, .step 0 fun _ => vposrSlice],
      c.Timely := by
    simp [HarnessCall.Timely, hslice]
  have hafter : ∀ c ∈ [HarnessCall.step 0 fun _ => vposrSlice, .step 0 fun _ => vposrSlice], ¬ c.SetsAudio := by
    simp [HarnessCall.SetsAudio]
  obtain ⟨hclock, -, -, haudio⟩ := harnessRun_conserved palMachine 7093790 0xF80008 _ hcalls
  have hadvances : h.cckSteps = [1, 2, 2, 2] := by decide +kernel
  have hstep : h.audioStepQ16.toNat < 2 ^ 31 := by decide +kernel
  have hsamples := haudio [] _ 44100 rfl (by decide) hafter
  refine ⟨hadvances, hclock, hsamples ?_ hstep⟩
  intro cck hcck
  have hshort : ∀ n ∈ ([1, 2, 2, 2] : List UInt64), n.toNat ≤ 32767 := by simp
  exact hshort cck (hadvances ▸ List.mem_of_mem_drop hcck)

end Rigel
