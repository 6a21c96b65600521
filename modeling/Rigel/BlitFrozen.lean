import Rigel.LineBlit

/-!
# BlitFrozen — a running blit does not read its registers

The trigger copies the registers into the command. `FrozenSame` relates a run in which registers are written between the
slots to the run without those writes: everything but the live registers is equal. Every step of the copy backend and of
the line drawer keeps it, and the publication at the end replaces nine of the registers by values of the command's own.
-/

namespace Rigel

inductive BlitEvent where
  | slots (n : UInt32)
  | write (addr : UInt32) (value : UInt16)

def BlitEvent.isSlots : BlitEvent → Bool
  | .slots _ => true
  | .write _ _ => false

/-- The event does not trigger another blit. -/
def BlitEvent.Harmless : BlitEvent → Prop
  | .slots _ => True
  | .write addr _ => blitterStartsAt addr = false

def blitEvent (s : BlitterState × ChipRam) : BlitEvent → BlitterState × ChipRam
  | .slots n => ((blitterStepDma s.1 s.2 n).blitter, (blitterStepDma s.1 s.2 n).mem)
  | .write addr value => (blitterWriteReg16 s.1 addr value, s.2)

/-- Two blitters that differ in their live registers only. -/
def FrozenSame (b b' : BlitterState) : Prop := b' = { b with regs := b'.regs }

/-- The registers that a finished blit publishes. -/
structure PublishedSame (r r' : BlitterRegs) : Prop where
  bltapt : r'.bltapt = r.bltapt
  bltbpt : r'.bltbpt = r.bltbpt
  bltcpt : r'.bltcpt = r.bltcpt
  bltdpt : r'.bltdpt = r.bltdpt
  bltadat : r'.bltadat = r.bltadat
  bltbdat : r'.bltbdat = r.bltbdat
  bltcdat : r'.bltcdat = r.bltcdat
  bltddat : r'.bltddat = r.bltddat
  bltbhold : r'.bltbhold = r.bltbhold

/-- Two outcomes of the same slots: equal but for live registers, and equal in the published ones if the blit ended. -/
structure SameOutcome (x y : BlitterStep) : Prop where
  blitter : FrozenSame x.blitter y.blitter
  mem : y.mem = x.mem
  irq : y.irq = x.irq
  published : x.irq ≠ none → PublishedSame x.blitter.regs y.blitter.regs

theorem FrozenSame.refl (b : BlitterState) : FrozenSame b b := rfl

theorem FrozenSame.trans {a b c : BlitterState} (h : FrozenSame a b) (h' : FrozenSame b c) : FrozenSame a c := by
  unfold FrozenSame at h h' ⊢
  rw [h] at h'
  exact h'

theorem FrozenSame.outcome {b b' : BlitterState} (h : FrozenSame b b') (mem : ChipRam) :
    SameOutcome ⟨b, mem, none⟩ ⟨b', mem, none⟩ := ⟨h, rfl, rfl, fun hn => absurd rfl hn⟩

/-- The publication reads the result alone. -/
theorem FrozenSame.finish {b b' : BlitterState} (h : FrozenSame b b') (mem : ChipRam) :
    SameOutcome (blitterFinish b mem) (blitterFinish b' mem) := by
  refine ⟨?_, rfl, rfl, fun _ => ?_⟩
  · unfold FrozenSame
    simp only [blitterFinish, blitterForceFinish, blitterPublishResult]
    rw [h]
  · simp only [blitterFinish, blitterForceFinish, blitterPublishResult]
    rw [h]
    exact ⟨rfl, rfl, rfl, rfl, rfl, rfl, rfl, rfl, rfl⟩

theorem FrozenSame.consumeSlot {b b' : BlitterState} (h : FrozenSame b b') :
    FrozenSame (lineConsumeSlot b) (lineConsumeSlot b') := by
  unfold FrozenSame lineConsumeSlot
  rw [h]

theorem FrozenSame.phase {b b' : BlitterState} (h : FrozenSame b b') (p : UInt8) :
    FrozenSame (linePhase b p) (linePhase b' p) := by
  unfold FrozenSame linePhase
  rw [h]

theorem FrozenSame.lineDone {b b' : BlitterState} (h : FrozenSame b b') : blitterLineDone b' = blitterLineDone b := by
  unfold blitterLineDone
  rw [h]

theorem FrozenSame.lineStep {b b' : BlitterState} (h : FrozenSame b b') (mem : ChipRam) :
    FrozenSame (blitterLineStep b mem).1 (blitterLineStep b' mem).1 ∧
      (blitterLineStep b' mem).2 = (blitterLineStep b mem).2 := by
  unfold FrozenSame blitterLineStep
  rw [h]
  simp only
  repeat' split
  all_goals exact ⟨rfl, rfl⟩

/-- The slot loop of a line, by induction over its slots. -/
theorem FrozenSame.lineLoop : ∀ (slots : Nat) {b b' : BlitterState} (_ : FrozenSame b b') (mem : ChipRam),
    SameOutcome (lineDmaLoop slots b mem) (lineDmaLoop slots b' mem)
  | 0, _, _, h, mem => h.outcome mem
  | slots + 1, b, b', h, mem => by
    have hread : ((lineConsumeSlot b').cycleExact && (lineConsumeSlot b').lineState.pixelSlotPhase == 0) =
        ((lineConsumeSlot b).cycleExact && (lineConsumeSlot b).lineState.pixelSlotPhase == 0) := by
      unfold lineConsumeSlot
      rw [h]
    obtain ⟨hs, hm⟩ := (h.consumeSlot.phase 0).lineStep mem
    unfold lineDmaLoop
    simp only
    rw [h.lineDone, hread, hs.lineDone, hm]
    split
    · exact h.outcome mem
    split
    · exact (h.consumeSlot.phase 1).lineLoop slots mem
    split
    · exact hs.finish _
    · exact hs.lineLoop slots _

theorem FrozenSame.countdown {b b' : BlitterState} (h : FrozenSame b b') (mem : ChipRam) (slots : UInt32) :
    SameOutcome (copyCountdown b mem slots) (copyCountdown b' mem slots) := by
  have hc : FrozenSame { b with dmaSlotsConsumed := b.dmaSlotsConsumed + slots }
      { b' with dmaSlotsConsumed := b'.dmaSlotsConsumed + slots } := by
    unfold FrozenSame
    rw [h]
  have hrem : b'.cyclesRemaining = b.cyclesRemaining := by rw [h]
  unfold copyCountdown
  simp only
  rw [hrem]
  split
  · refine FrozenSame.outcome ?_ mem
    unfold FrozenSame
    rw [h]
  · exact hc.finish mem

/-- **One call, with and without writes before it.** -/
theorem FrozenSame.stepDma {b b' : BlitterState} (h : FrozenSame b b') (mem : ChipRam) (slots : UInt32) :
    SameOutcome (blitterStepDma b mem slots) (blitterStepDma b' mem slots) := by
  have hbusy : b'.busy = b.busy := by rw [h]
  have hmode : b'.cmd.mode = b.cmd.mode := by rw [h]
  have hexec : b'.execState = b.execState := by rw [h]
  unfold blitterStepDma
  rw [hbusy, hmode, hexec]
  split
  · exact h.outcome mem
  cases hm : b.cmd.mode with
  | line => exact h.lineLoop _ mem
  | copy =>
    simp only
    split
    · have hvalid : b'.commandValid = b.commandValid := by rw [h]
      have hcmd : b'.cmd = b.cmd := by rw [h]
      unfold blitterExecuteReference
      rw [hvalid, hcmd, hm]
      cases b.commandValid with
      | false =>
        refine FrozenSame.outcome ?_ mem
        unfold FrozenSame
        rw [h]
      | true =>
        refine FrozenSame.countdown ?_ _ slots
        unfold FrozenSame
        rw [h]
    · exact h.countdown mem slots

theorem frozenSame_write (b : BlitterState) {addr : UInt32} (h : blitterStartsAt addr = false) (value : UInt16) :
    FrozenSame b (blitterWriteReg16 b addr value) := by
  unfold FrozenSame blitterWriteReg16
  rw [h]
  rfl

/-- **The run with the writes against the run without them**, by induction over the events. -/
theorem frozen_run : ∀ (es : List BlitEvent) {b b' : BlitterState} (_ : FrozenSame b b') (mem : ChipRam)
    (_ : ∀ e ∈ es, e.Harmless),
    FrozenSame ((es.filter BlitEvent.isSlots).foldl blitEvent (b, mem)).1 (es.foldl blitEvent (b', mem)).1 ∧
      (es.foldl blitEvent (b', mem)).2 = ((es.filter BlitEvent.isSlots).foldl blitEvent (b, mem)).2
  | [], _, _, h, _, _ => ⟨h, rfl⟩
  | .slots n :: es, b, b', h, mem, hes => by
    have hstep := h.stepDma mem n
    have hrest := frozen_run es hstep.blitter (blitterStepDma b mem n).mem fun e he => hes e (List.mem_cons_of_mem _ he)
    rw [List.filter_cons_of_pos rfl, List.foldl_cons, List.foldl_cons, blitEvent, blitEvent, hstep.mem]
    exact hrest
  | .write addr value :: es, b, b', h, mem, hes => by
    have hw : blitterStartsAt addr = false := hes (.write addr value) List.mem_cons_self
    rw [List.filter_cons_of_neg (by simp [BlitEvent.isSlots]), List.foldl_cons, blitEvent]
    exact frozen_run es (h.trans (frozenSame_write b' hw value)) mem fun e he => hes e (List.mem_cons_of_mem _ he)

/-- What a call leaves of the command: it stays valid, and only the interrupt ends the blit. -/
structure StepKeeps (b : BlitterState) (x : BlitterStep) : Prop where
  valid : x.blitter.commandValid = b.commandValid
  busy : x.irq = none → x.blitter.busy = b.busy

theorem blitterLineStep_keeps (b : BlitterState) (mem : ChipRam) :
    (blitterLineStep b mem).1.commandValid = b.commandValid ∧ (blitterLineStep b mem).1.busy = b.busy := by
  unfold blitterLineStep
  simp only
  repeat' split
  all_goals exact ⟨rfl, rfl⟩

theorem lineDmaLoop_keeps (slots : Nat) (b : BlitterState) (mem : ChipRam) : StepKeeps b (lineDmaLoop slots b mem) := by
  induction slots generalizing b mem with
  | zero => exact ⟨rfl, fun _ => rfl⟩
  | succ slots ih =>
    have hpx := blitterLineStep_keeps (linePhase (lineConsumeSlot b) 0) mem
    unfold lineDmaLoop
    simp only
    split
    · exact ⟨rfl, fun _ => rfl⟩
    split
    · have h := ih (linePhase (lineConsumeSlot b) 1) mem
      exact ⟨h.valid, h.busy⟩
    split
    · exact ⟨hpx.1, fun hn => absurd hn (Option.some_ne_none _)⟩
    · have h := ih (blitterLineStep (linePhase (lineConsumeSlot b) 0) mem).1
        (blitterLineStep (linePhase (lineConsumeSlot b) 0) mem).2
      exact ⟨h.valid.trans hpx.1, fun hn => (h.busy hn).trans hpx.2⟩

theorem copyCountdown_keeps (b : BlitterState) (mem : ChipRam) (slots : UInt32) :
    StepKeeps b (copyCountdown b mem slots) := by
  unfold copyCountdown
  simp only
  split
  · exact ⟨rfl, fun _ => rfl⟩
  · exact ⟨rfl, fun h => nomatch h⟩

theorem blitterStepDma_keeps {b : BlitterState} (h : b.commandValid = true) (mem : ChipRam) (slots : UInt32) :
    StepKeeps b (blitterStepDma b mem slots) := by
  unfold blitterStepDma
  split
  · exact ⟨rfl, fun _ => rfl⟩
  cases hm : b.cmd.mode with
  | line => exact lineDmaLoop_keeps _ b mem
  | copy =>
    simp only
    split
    · have hexec : blitterExecuteReference b mem =
          some ({ b with result := (executeCopyMode b.cmd mem).1 }, (executeCopyMode b.cmd mem).2) := by
        simp [blitterExecuteReference, h, hm]
      rw [hexec]
      have hc := copyCountdown_keeps { b with
        result := (executeCopyMode b.cmd mem).1
        execState := .running } (executeCopyMode b.cmd mem).2 slots
      exact ⟨hc.valid, hc.busy⟩
    · exact copyCountdown_keeps b mem slots

theorem blitEvent_valid (e : BlitEvent) {s : BlitterState × ChipRam} (he : e.Harmless)
    (h : s.1.commandValid = true) : (blitEvent s e).1.commandValid = true := by
  cases e with
  | slots n => exact (blitterStepDma_keeps h s.2 n).valid.trans h
  | write addr value =>
    have hf : FrozenSame s.1 (blitEvent s (.write addr value)).1 := frozenSame_write s.1 he value
    rw [hf]
    exact h

theorem blitEvents_valid (es : List BlitEvent) (s : BlitterState × ChipRam) (hes : ∀ e ∈ es, e.Harmless)
    (h : s.1.commandValid = true) : (es.foldl blitEvent s).1.commandValid = true := by
  induction es generalizing s with
  | nil => exact h
  | cons e es ih =>
    exact ih _ (fun e' he' => hes e' (List.mem_cons_of_mem _ he'))
      (blitEvent_valid e (hes e List.mem_cons_self) h)

/-- The run of a command in which registers are written between the slots. -/
def writtenRun (b : BlitterState) (mem : ChipRam) (es : List BlitEvent) : BlitterState × ChipRam :=
  es.foldl blitEvent (b, mem)

/-- The same slots, without the writes. -/
def quietRun (b : BlitterState) (mem : ChipRam) (es : List BlitEvent) : BlitterState × ChipRam :=
  (es.filter BlitEvent.isSlots).foldl blitEvent (b, mem)

/-- **A blit is a function of its trigger**: from the write that starts it on, whatever is written to the blitter between
the slots short of another trigger, every slot finds and leaves the memory, the progress and the zero flag as without the
writes, and the slots that end the blit publish the same registers. -/
theorem blit_frozen (b0 : BlitterState) (trigger : UInt32) (v : UInt16) (mem : ChipRam) (es : List BlitEvent)
    (htrigger : blitterStartsAt trigger = true) (hes : ∀ e ∈ es, e.Harmless) :
    let b := blitterWriteReg16 b0 trigger v
    (writtenRun b mem es).2 = (quietRun b mem es).2 ∧
      (writtenRun b mem es).1.busy = (quietRun b mem es).1.busy ∧
      (writtenRun b mem es).1.dmaSlotsConsumed = (quietRun b mem es).1.dmaSlotsConsumed ∧
      (writtenRun b mem es).1.result = (quietRun b mem es).1.result ∧
      ∀ n, (quietRun b mem es).1.busy = true → (quietRun b mem (es ++ [.slots n])).1.busy = false →
        PublishedSame (quietRun b mem (es ++ [.slots n])).1.regs (writtenRun b mem (es ++ [.slots n])).1.regs := by
  intro b
  have hvalid : b.commandValid = true := by
    show (blitterWriteReg16 b0 trigger v).commandValid = true
    unfold blitterWriteReg16
    rw [htrigger]
    rfl
  have hsame : FrozenSame (quietRun b mem es).1 (writtenRun b mem es).1 := (frozen_run es (.refl b) mem hes).1
  have hmem : (writtenRun b mem es).2 = (quietRun b mem es).2 := (frozen_run es (.refl b) mem hes).2
  refine ⟨hmem, by rw [hsame], by rw [hsame], by rw [hsame], fun n hbusy hdone => ?_⟩
  have hq : (quietRun b mem es).1.commandValid = true :=
    blitEvents_valid _ (b, mem) (fun e he => hes e (List.mem_filter.1 he).1) hvalid
  have hquiet : quietRun b mem (es ++ [.slots n]) = blitEvent (quietRun b mem es) (.slots n) := by
    unfold quietRun
    rw [List.filter_append, List.foldl_append]
    rfl
  have hwritten : writtenRun b mem (es ++ [.slots n]) = blitEvent (writtenRun b mem es) (.slots n) := by
    simp [writtenRun]
  rw [hquiet] at hdone ⊢
  rw [hwritten]
  unfold blitEvent at hdone ⊢
  have hstep := hsame.stepDma (quietRun b mem es).2 n
  rw [hmem]
  -- a blit with a valid command ends by its interrupt alone
  refine hstep.published fun hn => ?_
  have hstays := (blitterStepDma_keeps hq (quietRun b mem es).2 n).busy hn
  rw [hbusy] at hstays
  exact Bool.noConfusion (hdone.symm.trans hstays)

/-- Two words to be filled through D. -/
def fillTwoWords : BlitterState :=
  blitterWriteReg16 (blitterWriteReg16 blitterInit 0x040 0x01FF) 0x054 0x0000

theorem blit_frozen_fill :
    PublishedSame (quietRun (blitterWriteReg16 fillTwoWords 0x058 0x0042) blankRam
        ([.slots 1, .write 0x056 0x1000, .write 0x040 0x0000] ++ [.slots 1])).1.regs
      (writtenRun (blitterWriteReg16 fillTwoWords 0x058 0x0042) blankRam
        ([.slots 1, .write 0x056 0x1000, .write 0x040 0x0000] ++ [.slots 1])).1.regs :=
  (blit_frozen fillTwoWords 0x058 0x0042 blankRam [.slots 1, .write 0x056 0x1000, .write 0x040 0x0000] rfl
    (by simp [BlitEvent.Harmless, blitterStartsAt])).2.2.2.2 1 (by decide +kernel) (by decide +kernel)

end Rigel
