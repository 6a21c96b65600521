import Rigel.AudioBlocks

/-!
# AudioHeard — from a block of memory to the sound

The samples of a channel are the bytes of the words that its slots fetch. A word waits until its period comes, and its low
byte waits after that: what has been played and what still waits is what has been fetched, wherever the steps of the host and
the slots of the scheduler fall. A channel that plays from its registers plays the bytes of its block, over and over.
-/

namespace Rigel

/-! ## Samples -/

/-- A sample that becomes audible: of a word that the guest wrote to AUDxDAT, or of one that was fetched. -/
inductive AudioTake where
  | written (byte : UInt8)
  | fetched (byte : UInt8)
  deriving Repr, DecidableEq

def AudioTake.byte : AudioTake → UInt8
  | .written byte => byte
  | .fetched byte => byte

/-- The byte of a sample that was fetched. -/
def AudioTake.dma : AudioTake → Option UInt8
  | .written _ => none
  | .fetched byte => some byte

/-- The sample of a period that elapses. -/
def audioTake (ch : AudioChannel) : Option AudioTake :=
  if ch.dataPending then some (.written (ch.auddat >>> 8).toUInt8)
  else if ch.hasPendingLo then some (.fetched ch.pendingLo)
  else if ch.dmaWordReady then some (.fetched (ch.dmaWord >>> 8).toUInt8)
  else none

/-- The samples of the period loop. -/
def audioTakesLoop : Nat → AudioChannel → UInt32 → List AudioTake
  | 0, _, _ => []
  | fuel + 1, ch, remaining =>
    if remaining ≥ ch.periodCounter.toUInt32 then
      (audioTake ch).toList ++ audioTakesLoop fuel (audioPeriodElapsed ch) (remaining - ch.periodCounter.toUInt32)
    else []

/-- The samples of a channel's step. -/
def audioStepTakes (ch : AudioChannel) (dmaEnabled : Bool) (cycles : UInt32) : List AudioTake :=
  let ch := { ch with dmaEnabled := dmaEnabled }
  if !ch.dmaEnabled && !ch.dataPending then [] else audioTakesLoop (cycles.toNat + 1) (audioPeriodDefaults ch) cycles

/-- A word's bytes, the first to be played first. -/
def wordSamples (w : UInt16) : List UInt8 := [(w >>> 8).toUInt8, (w &&& 0xFF).toUInt8]

/-- The bytes that wait. -/
def audioHeld (ch : AudioChannel) : List UInt8 :=
  (if ch.hasPendingLo then [ch.pendingLo] else []) ++ (if ch.dmaWordReady then wordSamples ch.dmaWord else [])

/-- What is audible after some samples. -/
def audibleAfter (before : Int16) (takes : List AudioTake) : Int16 :=
  (takes.getLast?.map fun t => audioSampleOfByte t.byte).getD before

/-! ## A period -/

/-- **One period**: what it plays no longer waits, and is audible. -/
theorem audioPeriodElapsed_take (ch : AudioChannel) :
    (audioTake ch).toList.filterMap AudioTake.dma ++ audioHeld (audioPeriodElapsed ch) = audioHeld ch ∧
      (audioPeriodElapsed ch).currentSample = audibleAfter ch.currentSample (audioTake ch).toList := by
  unfold audioPeriodElapsed audioTake audioHeld
  cases hdata : ch.dataPending with
  | true => exact ⟨rfl, rfl⟩
  | false =>
    cases hlow : ch.hasPendingLo with
    | true => exact ⟨rfl, rfl⟩
    | false =>
      cases hready : ch.dmaWordReady with
      | true => simp [wordSamples, AudioTake.dma, audibleAfter, AudioTake.byte]
      | false => simp [audibleAfter]

theorem audibleAfter_append (before : Int16) (takes rest : List AudioTake) :
    audibleAfter before (takes ++ rest) = audibleAfter (audibleAfter before takes) rest := by
  unfold audibleAfter
  rw [List.getLast?_append]
  cases rest.getLast? <;> simp

/-- **The period loop.** -/
theorem audioPeriodLoop_takes : ∀ (fuel : Nat) (ch : AudioChannel) (remaining : UInt32) (elapsed : Bool),
    let after := (audioPeriodLoop fuel ch remaining elapsed).1
    let takes := audioTakesLoop fuel ch remaining
    takes.filterMap AudioTake.dma ++ audioHeld after = audioHeld ch ∧
      after.currentSample = audibleAfter ch.currentSample takes
  | 0, _, _, _ => ⟨rfl, rfl⟩
  | fuel + 1, ch, remaining, elapsed => by
    unfold audioPeriodLoop audioTakesLoop
    by_cases hdue : remaining ≥ ch.periodCounter.toUInt32
    · rw [if_pos hdue, if_pos hdue]
      obtain ⟨hheld, haudible⟩ := audioPeriodElapsed_take ch
      obtain ⟨hrest, hlast⟩ := audioPeriodLoop_takes fuel (audioPeriodElapsed ch) (remaining - ch.periodCounter.toUInt32) true
      refine ⟨?_, ?_⟩
      · rw [List.filterMap_append, List.append_assoc, hrest, hheld]
      · rw [audibleAfter_append, ← haudible, hlast]
    · rw [if_neg hdue, if_neg hdue]
      exact ⟨rfl, rfl⟩

/-- **A channel's step.** -/
theorem audioStepChannel_takes (ch : AudioChannel) (dma : Bool) (cycles : UInt32) :
    let after := (audioStepChannel ch dma cycles).1
    let takes := audioStepTakes ch dma cycles
    takes.filterMap AudioTake.dma ++ audioHeld after = audioHeld ch ∧
      after.currentSample = audibleAfter ch.currentSample takes := by
  unfold audioStepChannel audioStepTakes
  simp only
  split
  · exact ⟨rfl, rfl⟩
  · exact audioPeriodLoop_takes (cycles.toNat + 1) (audioPeriodDefaults { ch with dmaEnabled := dma }) cycles false

/-! ## Runs -/

/-- A run with what it has made audible on the channel. -/
structure HeardRun where
  run : AudioRun
  heard : List AudioTake

def heardEvent (x : Fin 4) (r : HeardRun) (e : AudioEvent) : HeardRun where
  run := audioEvent x r.run e
  heard := match e with
    | .step cycles => r.heard ++ audioStepTakes (r.run.audio.ch x) (audioChannelDmaEnabled r.run.audio x) cycles
    | _ => r.heard

/-- What has been fetched since `ch` is what has been played since and what waits. -/
structure Heard (x : Fin 4) (ch : AudioChannel) (r : HeardRun) : Prop where
  flows : r.heard.filterMap AudioTake.dma ++ audioHeld (r.run.audio.ch x) =
    audioHeld ch ++ r.run.fetched.flatMap fun f => wordSamples f.word
  audible : (r.run.audio.ch x).currentSample = audibleAfter ch.currentSample r.heard

section
variable {x : Fin 4} {ch : AudioChannel} {r : HeardRun}

/-- An event that neither plays nor fetches. -/
theorem Heard.same {e : AudioEvent} (h : Heard x ch r) (hheard : (heardEvent x r e).heard = r.heard)
    (hfetched : (audioEvent x r.run e).fetched = r.run.fetched)
    (hheld : audioHeld ((audioAfter r.run.audio e).ch x) = audioHeld (r.run.audio.ch x))
    (hsample : ((audioAfter r.run.audio e).ch x).currentSample = (r.run.audio.ch x).currentSample) :
    Heard x ch (heardEvent x r e) := by
  refine ⟨?_, ?_⟩
  · rw [hheard]
    show _ ++ audioHeld ((audioAfter r.run.audio e).ch x) = _ ++ (audioEvent x r.run e).fetched.flatMap _
    rw [hheld, hfetched]
    exact h.flows
  · rw [hheard]
    exact hsample.trans h.audible

theorem audioWriteChannel_held (ch : AudioChannel) (offset : UInt32) (value : UInt16) :
    audioHeld (audioWriteChannel ch offset value) = audioHeld ch ∧
      (audioWriteChannel ch offset value).currentSample = ch.currentSample := by
  unfold audioWriteChannel
  split <;> exact ⟨rfl, rfl⟩

theorem audioWriteReg_held (a : AudioState) (addr : UInt32) (value : UInt16) :
    audioHeld ((audioWriteReg a addr value).ch x) = audioHeld (a.ch x) ∧
      ((audioWriteReg a addr value).ch x).currentSample = (a.ch x).currentSample := by
  by_cases hreg : audioRegChannel addr = some x.val
  · obtain ⟨offset, hoffset⟩ := audioRegChannel_own hreg
    rw [audioWriteReg_own a hoffset]
    exact audioWriteChannel_held _ _ _
  · rw [(audioWriteReg_other a hreg value).1]
    exact ⟨rfl, rfl⟩

/-- **One event.** -/
theorem Heard.event (h : Heard x ch r) (e : AudioEvent) : Heard x ch (heardEvent x r e) := by
  cases e with
  | step cycles =>
    obtain ⟨hflows, haudible⟩ := audioStepChannel_takes (r.run.audio.ch x) (audioChannelDmaEnabled r.run.audio x) cycles
    have hch : (audioAfter r.run.audio (.step cycles)).ch x =
        (audioStepChannel (r.run.audio.ch x) (audioChannelDmaEnabled r.run.audio x) cycles).1 := by
      rw [audioAfter, audioStep_ch, if_pos (show x.val < paulaAudioChannels from x.isLt)]
    refine ⟨?_, ?_⟩
    · show (r.heard ++ _).filterMap _ ++ audioHeld ((audioAfter r.run.audio (.step cycles)).ch x) = _
      rw [hch, List.filterMap_append, List.append_assoc, hflows]
      exact h.flows
    · show ((audioAfter r.run.audio (.step cycles)).ch x).currentSample = audibleAfter _ (r.heard ++ _)
      rw [hch, audibleAfter_append, ← h.audible]
      exact haudible
  | setDmacon dmacon => exact h.same rfl rfl rfl rfl
  | write addr value =>
    obtain ⟨hheld, hsample⟩ := audioWriteReg_held (x := x) r.run.audio addr value
    exact h.same rfl rfl hheld hsample
  | slot channel mem =>
    by_cases hc : channel = x.val
    · subst hc
      have hslot := audioDmaStepSlot_eq r.run.audio x mem
      cases hf : audioFetches r.run.audio x with
      | false =>
        rw [hf] at hslot
        have hafter : audioAfter r.run.audio (.slot x mem) = r.run.audio := hslot.trans (if_neg Bool.false_ne_true)
        have hfetched : (audioEvent x r.run (.slot x mem)).fetched = r.run.fetched := by
          simp only [audioEvent, hf, and_false, Bool.false_eq_true, if_false]
        exact h.same rfl hfetched (by rw [hafter]) (by rw [hafter])
      | true =>
        -- the word goes behind the low byte that may still wait
        rw [hf, if_pos rfl] at hslot
        have hready : (r.run.audio.ch x).dmaWordReady = false := by
          have hall := hf
          simp only [audioFetches, Bool.and_eq_true, Bool.not_eq_true'] at hall
          exact hall.1.2
        have hafter : (audioAfter r.run.audio (.slot x mem)).ch x = { r.run.audio.ch x with
            dmaWord := chipRamRead16 mem (audioFetchAddr (r.run.audio.ch x))
            dmaWordReady := true
            currentPtr := (blockState (r.run.audio.ch x)).fetched.currentPtr
            currentLength := (blockState (r.run.audio.ch x)).fetched.currentLength } := by
          rw [audioAfter, hslot]
          exact Function.update_self _ _ _
        have hheld : audioHeld ((audioAfter r.run.audio (.slot x mem)).ch x) =
            audioHeld (r.run.audio.ch x) ++ wordSamples ((audioAfter r.run.audio (.slot x mem)).ch x).dmaWord := by
          rw [hafter]
          simp [audioHeld, hready]
        have hfetched : (audioEvent x r.run (.slot x mem)).fetched = r.run.fetched ++
            [⟨mem, audioFetchAddr (r.run.audio.ch x), ((audioAfter r.run.audio (.slot x mem)).ch x).dmaWord⟩] := by
          simp only [audioEvent, hf, and_self, if_true]
        refine ⟨?_, ?_⟩
        · show r.heard.filterMap _ ++ audioHeld ((audioAfter r.run.audio (.slot x mem)).ch x) =
            _ ++ (audioEvent x r.run (.slot x mem)).fetched.flatMap _
          rw [hfetched, hheld, ← List.append_assoc, h.flows, List.flatMap_append, List.append_assoc]
          simp
        · show ((audioAfter r.run.audio (.slot x mem)).ch x).currentSample = _
          rw [hafter]
          exact h.audible
    · obtain ⟨hch, -⟩ := audioDmaStepSlot_other r.run.audio hc mem
      have hfetched : (audioEvent x r.run (.slot channel mem)).fetched = r.run.fetched := by
        simp only [audioEvent, hc, false_and, if_false]
      have hafter : (audioAfter r.run.audio (.slot channel mem)).ch x = r.run.audio.ch x := hch
      exact h.same rfl hfetched (by rw [hafter]) (by rw [hafter])

theorem Heard.run : ∀ (es : List AudioEvent) {r : HeardRun}, Heard x ch r → Heard x ch (es.foldl (heardEvent x) r)
  | [], _, h => h
  | e :: es, _, h => Heard.run es (h.event e)

end

/-! ## A block of memory -/

section
variable {x : Fin 4}

/-- The run of a heard run is a run. -/
theorem heardEvent_run : ∀ (es : List AudioEvent) (r : HeardRun),
    (es.foldl (heardEvent x) r).run = es.foldl (audioEvent x) r.run
  | [], _ => rfl
  | e :: es, r => heardEvent_run es (heardEvent x r e)

/-- Every word came from the memory that some slot was given. -/
theorem fetched_mem : ∀ (es : List AudioEvent) {r : AudioRun} {P : ChipRam → Prop}, (∀ f ∈ r.fetched, P f.mem) →
    (∀ channel mem, .slot channel mem ∈ es → P mem) → ∀ f ∈ (es.foldl (audioEvent x) r).fetched, P f.mem
  | [], _, _, h, _ => h
  | e :: es, r, P, h, hes => by
    refine fetched_mem es (fun f hf => ?_) fun channel mem hmem => hes channel mem (List.mem_cons_of_mem _ hmem)
    cases e with
    | slot channel mem =>
      unfold audioEvent at hf
      simp only at hf
      split at hf
      · rcases List.mem_append.mp hf with hf | hf
        · exact h f hf
        · rw [List.mem_singleton.mp hf]
          exact hes channel mem List.mem_cons_self
      · exact h f hf
    | step cycles => exact h f hf
    | write addr value => exact h f hf
    | setDmacon dmacon => exact h f hf

/-- At the start of its registers' block. -/
def AtBlockStart (ch : AudioChannel) : Prop :=
  ch.audlen ≠ 0 ∧ (ch.currentLength = 0 ∨ (ch.currentPtr = ch.audlc ∧ ch.currentLength = ch.audlen))

instance (ch : AudioChannel) : Decidable (AtBlockStart ch) := inferInstanceAs (Decidable (_ ∧ _))

/-- **A channel plays its block.** After any history, from the start of a block on and while nothing is written to the
channel: what becomes audible, and then what waits, is what waited before, and the bytes of the block, the first word first
and its high byte first, over and over. It does not matter how the steps of the host and the slots fall, what the other
channels do, or what changes in memory outside the block. -/
theorem channel_plays_block (x : Fin 4) (before es : List AudioEvent) (block : Nat → UInt16) :
    let a := before.foldl audioAfter audioReset
    let r := es.foldl (heardEvent x) ⟨⟨a, []⟩, []⟩
    AtBlockStart (a.ch x) → audioChannelDmaEnabled a x = true → (∀ e ∈ es, Plays x e) →
    (∀ channel mem, .slot channel mem ∈ es → ∀ j < (a.ch x).audlen.toNat,
      chipRamRead16 mem ((a.ch x).audlc + 2 * UInt32.ofNat j) = block j) →
    r.heard.filterMap AudioTake.dma ++ audioHeld (r.run.audio.ch x) =
        audioHeld (a.ch x) ++
          (List.range r.run.fetched.length).flatMap (fun i => wordSamples (block (i % (a.ch x).audlen.toNat))) ∧
      (r.run.audio.ch x).currentSample = audibleAfter (a.ch x).currentSample r.heard := by
  intro a r hstart hon hplays hblock
  have heven : EvenPointers (a.ch x) := evenPointers_run before evenPointers_cleared
  have hp : (playbackOf (a.ch x)).Ok := ⟨hstart.1, heven.currentPtr, heven.audlc⟩
  have haddr : ∀ i, (playbackOf (a.ch x)).addr i = (a.ch x).audlc + 2 * UInt32.ofNat (i % (a.ch x).audlen.toNat) :=
    hp.addr_eq_iff.mpr hstart.2
  have hplaying : Playing x (playbackOf (a.ch x)) r.run := by
    rw [heardEvent_run]
    exact Playing.run hp es ⟨hon, playback_start (a.ch x), fun i h => absurd h (Nat.not_lt_zero i)⟩ hplays
  have hheard : Heard x (a.ch x) r := by
    refine Heard.run es ⟨?_, rfl⟩
    simp
  have hmem : ∀ f ∈ r.run.fetched, ∀ j < (a.ch x).audlen.toNat,
      chipRamRead16 f.mem ((a.ch x).audlc + 2 * UInt32.ofNat j) = block j := by
    rw [heardEvent_run]
    exact fetched_mem es (fun f hf => absurd hf List.not_mem_nil) hblock
  have hwords : (r.run.fetched.map fun f => f.word) =
      (List.range r.run.fetched.length).map fun i => block (i % (a.ch x).audlen.toNat) := by
    refine List.ext_getElem (by simp) fun i hi hi' => ?_
    rw [List.length_map] at hi
    obtain ⟨hat, hword⟩ := hplaying.fetched i hi
    rw [List.getElem_map, List.getElem_map, List.getElem_range, hword, hat, haddr]
    exact hmem _ (List.getElem_mem hi) _ (Nat.mod_lt _ hp.len_pos)
  refine ⟨?_, hheard.audible⟩
  rw [hheard.flows, ← List.flatMap_map (fun f : AudioFetch => f.word) wordSamples, hwords, List.flatMap_map]

end

/-- A channel that has come to the end of a block of two words, and has played them. -/
def endedBlock : List AudioEvent :=
  let mem : ChipRam := ⟨.ocs, 0x80000, true, true, fun _ => 0⟩
  [.write 0x0A2 0x1000, .write 0x0A4 2, .setDmacon 0x0201, .slot 0 mem, .step 4, .slot 0 mem, .step 4]

/-- Memory that counts from there. -/
def countingMemory : ChipRam := ⟨.ocs, 0x80000, true, true, fun a => a.toUInt16⟩

/-- Steps of one, two and five periods around four slots. -/
def fourSlots : List AudioEvent :=
  [.slot 0 countingMemory, .step 1, .slot 0 countingMemory, .step 2, .slot 0 countingMemory, .step 5, .slot 0 countingMemory]

/-- The four words are heard but for the last, which still waits. -/
theorem endedBlock_plays :
    let r := fourSlots.foldl (heardEvent 0) ⟨⟨endedBlock.foldl audioAfter audioReset, []⟩, []⟩
    r.heard.filterMap AudioTake.dma ++ [0x10, 0x02] = [0x10, 0x00, 0x10, 0x02, 0x10, 0x00, 0x10, 0x02] ∧
      (r.run.audio.ch 0).currentSample = 0 := by
  have hblock : ∀ channel mem, .slot channel mem ∈ fourSlots →
      ∀ j < ((endedBlock.foldl audioAfter audioReset).ch 0).audlen.toNat,
        chipRamRead16 mem (((endedBlock.foldl audioAfter audioReset).ch 0).audlc + 2 * UInt32.ofNat j) =
          (if j = 0 then 0x1000 else 0x1002) := by
    intro channel mem hmem j hj
    have hslot : mem = countingMemory := (show channel = 0 ∧ mem = countingMemory by simpa [fourSlots] using hmem).2
    have hj : j < 2 := hj
    subst hslot
    obtain rfl | rfl : j = 0 ∨ j = 1 := by omega
    · decide
    · decide
  have hplays : ∀ e ∈ fourSlots, Plays 0 e := by simp [fourSlots, Plays]
  exact channel_plays_block 0 endedBlock fourSlots (fun j => if j = 0 then 0x1000 else 0x1002) (by decide) (by decide)
    hplays hblock

end Rigel
