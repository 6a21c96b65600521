import Mathlib.Tactic.SplitIfs
import Rigel.Harness

/-!
# CpuLevel — the interrupt level that the CPU is held at

The IPL is a level, and the harness mirrors it into the CPU when it moves (`harness_sync_ipl`): after every step of the chipset
and after every access that can move it. Reads of the custom registers are not such accesses. The host's own calls are, and are
not followed by a mirroring: until colour clocks are handed over, or a register is written, the CPU may be held at another level.
-/

namespace Rigel

/-- The CPU is held at the level that the chipset asks for. -/
def IplInLine (h : Harness) : Prop := h.lastIpl = currentIpl h.rigel

instance (h : Harness) : Decidable (IplInLine h) := inferInstanceAs (Decidable (_ = _))

/-- The level stays in line, and colour clocks that are handed over put it there. -/
def KeepsLine (h h' : Harness) : Prop := IplInLine h ∨ h'.cckSteps ≠ h.cckSteps → IplInLine h'

/-- Neither of the two levels, nor the clock. -/
structure SameLevel (h h' : Harness) : Prop where
  held : h'.lastIpl = h.lastIpl
  asked : currentIpl h'.rigel = currentIpl h.rigel
  clock : h'.cckSteps = h.cckSteps

section
variable {h h' h'' : Harness}

theorem SameLevel.trans (s : SameLevel h h') (s' : SameLevel h' h'') : SameLevel h h'' :=
  ⟨s'.held.trans s.held, s'.asked.trans s.asked, s'.clock.trans s.clock⟩

theorem SameLevel.inLine (s : SameLevel h h') (hl : IplInLine h) : IplInLine h' := by
  rw [IplInLine, s.held, s.asked]
  exact hl

theorem SameLevel.keeps (s : SameLevel h h') : KeepsLine h h' := fun hor => s.inLine (hor.resolve_right fun hne => hne s.clock)

theorem KeepsLine.trans (k : KeepsLine h h') (k' : KeepsLine h' h'') : KeepsLine h h'' := by
  intro hor
  by_cases hclock : h''.cckSteps = h'.cckSteps
  · exact k' (.inl (k (hor.imp_right fun hne => hclock ▸ hne)))
  · exact k' (.inr hclock)

theorem IplInLine.kept (hl : IplInLine h') : KeepsLine h h' := fun _ => hl

end

/-! ## The clock -/

theorem inLine_sync (h : Harness) : IplInLine (harnessSyncIpl h) := by
  unfold harnessSyncIpl
  split
  · rename_i heq
    exact heq.symm
  · rfl

theorem sameLevel_drainLoop : ∀ (fuel : Nat) (h : Harness), SameLevel h (harnessDrainLoop fuel h)
  | 0, _ => ⟨rfl, rfl, rfl⟩
  | fuel + 1, h => by
    unfold harnessDrainLoop
    split
    · exact ⟨rfl, rfl, rfl⟩
    · rename_i rigel byte heq
      have hpop : rigel = (rigelSerialPopTxByte h.rigel).1 := by rw [heq]
      have hasked : currentIpl rigel = currentIpl h.rigel := by
        rw [hpop]
        rfl
      have hturn : SameLevel h { h with rigel := rigel, serialOut := h.serialOut ++ [byte] } := ⟨rfl, hasked, rfl⟩
      exact hturn.trans (sameLevel_drainLoop fuel _)

theorem sameLevel_drain (h : Harness) : SameLevel h (harnessDrainSerial h) := by
  unfold harnessDrainSerial
  split
  · exact ⟨rfl, rfl, rfl⟩
  · exact sameLevel_drainLoop _ h

theorem sameLevel_audio (h : Harness) (cck : UInt64) : SameLevel h (harnessAdvanceAudio h cck) := by
  unfold harnessAdvanceAudio
  split <;> exact ⟨rfl, rfl, rfl⟩

/-- **A step of the chipset** puts the level in line. -/
theorem inLine_rigelStep (h : Harness) (cck : UInt64) : IplInLine (harnessRigelStep h cck) :=
  (sameLevel_audio _ cck).inLine ((sameLevel_drain _).inLine (inLine_sync _))

theorem keepsLine_integrate (h : Harness) (cycles : UInt64) : KeepsLine h (harnessIntegrate h cycles) := by
  unfold harnessIntegrate
  simp only
  split
  · exact (inLine_rigelStep _ _).kept
  · exact SameLevel.keeps ⟨rfl, rfl, rfl⟩

theorem keepsLine_flush (h : Harness) (run : Int32) : KeepsLine h (harnessFlush h run) := by
  unfold harnessFlush
  simp only
  split
  · exact SameLevel.keeps ⟨rfl, rfl, rfl⟩
  · have hmark : SameLevel h { h with cyclesFlushed := run } := ⟨rfl, rfl, rfl⟩
    exact hmark.keeps.trans (keepsLine_integrate _ _)

/-! ## Accesses -/

/-- **Reading a custom register** does not move the level. -/
theorem customRegsRead16_level (ctx : RigelContext) (reg : UInt32) : currentIpl (customRegsRead16 ctx reg).1 = currentIpl ctx := by
  unfold customRegsRead16
  split
  · rfl
  · split
    · rfl
    · unfold paulaReadReg
      split_ifs <;> rfl
    · rfl
    · rfl

/-- The accesses after which the level is mirrored. -/
def ChipsetAccess.realigns : ChipsetAccess → Bool
  | .ciaRead8 addr => (harnessCiaLane addr).isSome
  | .ciaWrite8 _ _ => true
  | .customRead _ => false
  | .customWrite _ _ => true

theorem inLine_access (h : Harness) (run : Int32) {a : ChipsetAccess} (ha : a.realigns = true) : IplInLine (harnessAccess h run a) := by
  cases a with
  | ciaRead8 addr =>
    obtain ⟨id, hid⟩ := Option.isSome_iff_exists.mp ha
    unfold harnessAccess harnessCiaRead8
    simp only [hid]
    exact inLine_sync _
  | ciaWrite8 addr value =>
    unfold harnessAccess harnessCiaWrite8
    simp only
    split <;> exact inLine_sync _
  | customRead reg => cases ha
  | customWrite reg value => exact inLine_sync _

theorem keepsLine_access (h : Harness) (run : Int32) (a : ChipsetAccess) : KeepsLine h (harnessAccess h run a) := by
  cases hrealigns : a.realigns with
  | true => exact (inLine_access h run hrealigns).kept
  | false =>
    cases a with
    | ciaRead8 addr =>
      have hnone : harnessCiaLane addr = none := by simpa [ChipsetAccess.realigns] using hrealigns
      unfold harnessAccess harnessCiaRead8
      simp only [hnone]
      exact keepsLine_flush h run
    | customRead reg =>
      refine (keepsLine_flush h run).trans (SameLevel.keeps ⟨rfl, ?_, rfl⟩)
      exact customRegsRead16_level _ reg
    | ciaWrite8 addr value => cases hrealigns
    | customWrite reg value => cases hrealigns

/-- Along the accesses of a slice. -/
theorem keepsLine_accesses : ∀ (accesses : List (Int32 × ChipsetAccess)) (h : Harness),
    KeepsLine h (harnessRunAccesses h accesses) ∧
      ((∃ a ∈ accesses, a.2.realigns = true) → IplInLine (harnessRunAccesses h accesses))
  | [], h => ⟨SameLevel.keeps ⟨rfl, rfl, rfl⟩, fun ⟨_, ha, _⟩ => absurd ha List.not_mem_nil⟩
  | a :: rest, h => by
    obtain ⟨hkeeps, hrealigns⟩ := keepsLine_accesses rest (harnessAccess h a.1 a.2)
    refine ⟨(keepsLine_access h a.1 a.2).trans hkeeps, ?_⟩
    rintro ⟨b, hb, halign⟩
    rcases List.mem_cons.mp hb with rfl | hb
    · exact hkeeps (.inl (inLine_access h _ halign))
    · exact hrealigns ⟨b, hb, halign⟩

/-! ## Runs -/

/-- The host lets the machine run, or sets a sink. -/
def HarnessCall.Quiet : HarnessCall → Prop
  | .rigel _ => False
  | _ => True

/-- What `m68k_execute` is called on. -/
def harnessSliceStart (h : Harness) : Harness := { h with pendingEvents := RigelEvents.none, cyclesFlushed := 0 }

theorem sameLevel_start (h : Harness) : SameLevel h (harnessSliceStart h) := ⟨rfl, rfl, rfl⟩

theorem sameLevel_watchPc (h : Harness) (pc : UInt32) : SameLevel h (harnessWatchPc h pc) := by
  unfold harnessWatchPc
  split
  · split <;> exact ⟨rfl, rfl, rfl⟩
  · exact ⟨rfl, rfl, rfl⟩

theorem keepsLine_execute (h : Harness) (slice : Timeslice) : KeepsLine h (harnessExecute h slice) := by
  have hstart : SameLevel h { h with cyclesFlushed := 0 } := ⟨rfl, rfl, rfl⟩
  have haccesses := hstart.keeps.trans (keepsLine_accesses slice.accesses { h with cyclesFlushed := 0 }).1
  have hleft : ∀ (s : Harness) (leftover : Int),
      KeepsLine s (if leftover > 0 then harnessIntegrate s leftover.toNat.toUInt64 else s) := by
    intro s leftover
    split
    · exact keepsLine_integrate s _
    · exact SameLevel.keeps ⟨rfl, rfl, rfl⟩
  exact haccesses.trans ((hleft _ _).trans (SameLevel.keeps ⟨rfl, rfl, rfl⟩))

theorem keepsLine_step (h : Harness) (maxCpuCycles : UInt32) (m68kExecute : Int32 → Timeslice) :
    KeepsLine h (harnessStep h maxCpuCycles m68kExecute).1 := by
  let start : Harness := { h with pendingEvents := RigelEvents.none }
  let slice := m68kExecute (harnessQuantumCpuCycles start maxCpuCycles).toInt32
  have hstart : SameLevel h start := ⟨rfl, rfl, rfl⟩
  have hend : SameLevel (harnessWatchPc (harnessExecute start slice) slice.pc) (harnessStep h maxCpuCycles m68kExecute).1 :=
    ⟨rfl, rfl, rfl⟩
  exact hstart.keeps.trans ((keepsLine_execute start slice).trans ((sameLevel_watchPc _ _).trans hend).keeps)

/-- **A quiet call** keeps the level in line. -/
theorem keepsLine_call (h : Harness) {c : HarnessCall} (hc : c.Quiet) : KeepsLine h (harnessCall h c) := by
  cases c with
  | step maxCpuCycles m68kExecute => exact keepsLine_step h maxCpuCycles m68kExecute
  | setAudioSink fn rateHz =>
    unfold harnessCall harnessSetAudioSink
    simp only
    split <;> exact SameLevel.keeps ⟨rfl, rfl, rfl⟩
  | setSerialSink fn => exact SameLevel.keeps ⟨rfl, rfl, rfl⟩
  | rigel call => exact hc.elim

/-- Any number of them. -/
theorem keepsLine_calls : ∀ (calls : List HarnessCall) (h : Harness), (∀ c ∈ calls, c.Quiet) →
    KeepsLine h (calls.foldl harnessCall h)
  | [], h, _ => SameLevel.keeps ⟨rfl, rfl, rfl⟩
  | c :: calls, h, hquiet => by
    obtain ⟨hc, hcalls⟩ := List.forall_mem_cons.mp hquiet
    exact (keepsLine_call h hc).trans (keepsLine_calls calls _ hcalls)

/-- **The CPU is held at the chipset's level.** Whatever the host has done to the chipset before: while it lets the machine
run, the CPU is held at the level that the chipset asks for, if it was at the start or once a colour clock has been handed
over; and so it is at every access of the slice after that, or once the slice has made an access that the level is mirrored
after. -/
theorem cpu_in_line (h : Harness) (calls : List HarnessCall) (hquiet : ∀ c ∈ calls, c.Quiet)
    (slice : Timeslice) (k : Nat) :
    let s := calls.foldl harnessCall h
    let taken := slice.accesses.take k
    let mid := harnessRunAccesses (harnessSliceStart s) taken
    (IplInLine h ∨ s.cckSteps ≠ h.cckSteps → IplInLine s) ∧
      (IplInLine h ∨ mid.cckSteps ≠ h.cckSteps ∨ (∃ a ∈ taken, a.2.realigns = true) → IplInLine mid) := by
  intro s taken mid
  have hcalls : KeepsLine h s := keepsLine_calls calls h hquiet
  obtain ⟨hkeeps, hrealigns⟩ := keepsLine_accesses taken (harnessSliceStart s)
  have hrun : KeepsLine h mid := (hcalls.trans (sameLevel_start s).keeps).trans hkeeps
  refine ⟨hcalls, ?_⟩
  rintro (hl | hclock | halign)
  · exact hrun (.inl hl)
  · exact hrun (.inr hclock)
  · exact hrealigns halign

/-- The host has enabled the software interrupt and raised it, behind the back of the harness. -/
def raisedHarness : Harness :=
  { harnessCreate palMachine 0 0 with rigel := customRegsWrite16 (customRegsWrite16 palMachine 0x09A 0xC004) 0x09C 0x8004 }

/-- A read, and a write to a colour. -/
def twoAccesses : Timeslice where
  accesses := [(0, .customRead 0x01C), (0, .customWrite 0x180 0)]
  returned := 0
  pc := 0

/-- The write brings the interrupt to the CPU; the read does not. -/
theorem raisedHarness_inLine :
    ¬ IplInLine (harnessRunAccesses (harnessSliceStart raisedHarness) (twoAccesses.accesses.take 1)) ∧
      (harnessRunAccesses (harnessSliceStart raisedHarness) (twoAccesses.accesses.take 2)).lastIpl = 1 := by
  have hwrite := (cpu_in_line raisedHarness [] (by simp) twoAccesses 2).2 (.inr (.inr ⟨_, .tail _ (.head _), rfl⟩))
  exact ⟨by decide +kernel, hwrite.trans (by decide +kernel)⟩

end Rigel
