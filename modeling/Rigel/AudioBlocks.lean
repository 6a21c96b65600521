import Rigel.AudioStepping
import Rigel.Bits

/-!
# AudioBlocks — the words that an audio channel fetches

A channel's slots fetch a block of AUDxLEN words from AUDxLC and start over when it is through. The pointer and the
length of the block are loaded by the slot when the length is zero, and the length alone by a write to AUDxLEN when it is
zero: after such a write the slot does not load, and the first block starts wherever the pointer was left. A run keeps
what the channel has fetched beside the state.
-/

namespace Rigel

/-! ## Runs -/

inductive AudioEvent where
  | step (cycles : UInt32)
  | slot (channel : Nat) (mem : ChipRam)
  | write (addr : UInt32) (value : UInt16)
  | setDmacon (dmacon : UInt16)

/-- A word that a slot took from the memory as it was then. -/
structure AudioFetch where
  mem : ChipRam
  addr : UInt32
  word : UInt16

structure AudioRun where
  audio : AudioState
  fetched : List AudioFetch

/-- The slot finds a word to fetch: DMA is on, the last word has been taken, and there is a block. -/
def audioFetches (a : AudioState) (channel : Nat) : Bool :=
  audioChannelDmaEnabled a channel && !(a.ch channel).dmaWordReady &&
    !((a.ch channel).currentLength == 0 && (a.ch channel).audlen == 0)

/-- Where it is. -/
def audioFetchAddr (ch : AudioChannel) : UInt32 := (if ch.currentLength = 0 then ch.audlc else ch.currentPtr) &&& ~~~1

def audioAfter (a : AudioState) : AudioEvent → AudioState
  | .step cycles => audioStep a cycles
  | .slot channel mem => (audioDmaStepSlot a channel mem).1
  | .write addr value => audioWriteReg a addr value
  | .setDmacon dmacon => audioSetDmacon a dmacon

/-- An event, and what it makes channel `x` fetch. -/
def audioEvent (x : Fin 4) (r : AudioRun) (e : AudioEvent) : AudioRun where
  audio := audioAfter r.audio e
  fetched := match e with
    | .slot channel mem =>
      if channel = x.val ∧ audioFetches r.audio x then
        r.fetched ++ [⟨mem, audioFetchAddr (r.audio.ch x), ((audioAfter r.audio e).ch x).dmaWord⟩]
      else r.fetched
    | _ => r.fetched

/-- The channel of a register. -/
def audioRegChannel (addr : UInt32) : Option Nat := (audioDecodeReg addr).map Prod.fst

/-- While the channel is set up its DMA stays off; any register may be written. -/
def SetsUp (x : Fin 4) : AudioEvent → Prop
  | .setDmacon dmacon => audioChannelDmaEnabled { audioReset with dmacon := dmacon } x = false
  | _ => True

/-- While it plays its DMA stays on, and none of its registers is written. -/
def Plays (x : Fin 4) : AudioEvent → Prop
  | .setDmacon dmacon => audioChannelDmaEnabled { audioReset with dmacon := dmacon } x = true
  | .write addr _ => audioRegChannel addr ≠ some x.val
  | _ => True

/-! ## What an event does to the block -/

/-- The registers of a block and its state. -/
structure BlockState where
  audlc : UInt32
  audlen : UInt16
  currentPtr : UInt32
  currentLength : UInt16
  deriving Repr, DecidableEq

def blockState (ch : AudioChannel) : BlockState := ⟨ch.audlc, ch.audlen, ch.currentPtr, ch.currentLength⟩

/-- The block after one of its words has been fetched. -/
def BlockState.fetched (b : BlockState) : BlockState :=
  { b with
    currentPtr := (if b.currentLength = 0 then b.audlc else b.currentPtr) + 2
    currentLength := (if b.currentLength = 0 then b.audlen else b.currentLength) - 1 }

theorem audioChannelDmaEnabled_dmacon {a a' : AudioState} (h : a'.dmacon = a.dmacon) (i : Nat) :
    audioChannelDmaEnabled a' i = audioChannelDmaEnabled a i := by
  unfold audioChannelDmaEnabled
  rw [h]

theorem audioPeriodElapsed_block (ch : AudioChannel) : blockState (audioPeriodElapsed ch) = blockState ch := by
  unfold audioPeriodElapsed
  simp only
  repeat' split
  all_goals rfl

theorem audioStepChannel_block (ch : AudioChannel) (dma : Bool) (n : UInt32) :
    blockState (audioStepChannel ch dma n).1 = blockState ch := by
  rw [audioStepChannel_eq]
  split
  · exact Countdown.iterate_keeps (f := blockState) (fun _ _ => rfl) audioPeriodElapsed_block _ _
  · rfl

theorem audioStep_block (a : AudioState) (n : UInt32) (i : Nat) :
    blockState ((audioStep a n).ch i) = blockState (a.ch i) := by
  rw [audioStep_ch]
  split
  · exact audioStepChannel_block _ _ n
  · rfl

/-- **What a slot does**: nothing, or one fetch of its own channel. -/
theorem audioDmaStepSlot_eq (a : AudioState) (x : Fin 4) (mem : ChipRam) :
    (audioDmaStepSlot a x mem).1 =
      if audioFetches a x then
        { a with ch := Function.update a.ch x { a.ch x with
            dmaWord := chipRamRead16 mem (audioFetchAddr (a.ch x))
            dmaWordReady := true
            currentPtr := (blockState (a.ch x)).fetched.currentPtr
            currentLength := (blockState (a.ch x)).fetched.currentLength } }
      else a := by
  have hx : ¬ x.val ≥ paulaAudioChannels := Nat.not_le.mpr x.isLt
  unfold audioDmaStepSlot audioFetches
  rw [if_neg hx]
  cases hdma : audioChannelDmaEnabled a x
  · simp
  · cases hready : (a.ch x).dmaWordReady
    · by_cases hnone : (a.ch x).currentLength = 0 ∧ (a.ch x).audlen = 0
      · simp [hnone]
      · have hblock : ((a.ch x).currentLength == 0 && (a.ch x).audlen == 0) = false := by
          rw [← Bool.not_eq_true]
          simpa using hnone
        rw [if_neg (by simp), if_neg hnone, if_pos (by simp [hblock])]
        rfl
    · simp

theorem audioDmaStepSlot_other (a : AudioState) {channel : Nat} {x : Fin 4} (h : channel ≠ x.val) (mem : ChipRam) :
    (audioDmaStepSlot a channel mem).1.ch x = a.ch x ∧ (audioDmaStepSlot a channel mem).1.dmacon = a.dmacon := by
  unfold audioDmaStepSlot
  split
  · exact ⟨rfl, rfl⟩
  · split
    · exact ⟨rfl, rfl⟩
    · split
      · exact ⟨rfl, rfl⟩
      · exact ⟨Function.update_of_ne (Ne.symm h) _ _, rfl⟩

theorem audioRegChannel_own {addr : UInt32} {x : Fin 4} (h : audioRegChannel addr = some x.val) :
    ∃ offset, audioDecodeReg addr = some (x.val, offset) := by
  unfold audioRegChannel at h
  obtain ⟨p, hp, he⟩ := Option.map_eq_some_iff.mp h
  exact ⟨p.2, by rw [hp, ← he]⟩

theorem audioWriteReg_own (a : AudioState) {addr : UInt32} {x : Fin 4} {offset : UInt32}
    (h : audioDecodeReg addr = some (x.val, offset)) (value : UInt16) :
    (audioWriteReg a addr value).ch x = audioWriteChannel (a.ch x) offset value := by
  unfold audioWriteReg
  rw [h]
  exact Function.update_self _ _ _

theorem audioWriteReg_other (a : AudioState) {addr : UInt32} {x : Fin 4} (h : audioRegChannel addr ≠ some x.val)
    (value : UInt16) : (audioWriteReg a addr value).ch x = a.ch x ∧ (audioWriteReg a addr value).dmacon = a.dmacon := by
  unfold audioWriteReg
  unfold audioRegChannel at h
  cases hreg : audioDecodeReg addr with
  | none => exact ⟨rfl, rfl⟩
  | some p =>
    have hne : p.1 ≠ x.val := fun e => h (by rw [hreg, Option.map_some, e])
    exact ⟨Function.update_of_ne (Ne.symm hne) _ _, rfl⟩

/-! ## Setting a channel up -/

/-- The first length other than 0 that a run writes to the channel, or 0. -/
def firstLength (x : Fin 4) : List AudioEvent → UInt16
  | [] => 0
  | .write addr value :: es => if audioDecodeReg addr = some (x.val, 0x4) ∧ value ≠ 0 then value else firstLength x es
  | _ :: es => firstLength x es

/-- Pointers are even: LCL drops the lowest bit, and a fetch adds 2. -/
structure EvenPointers (ch : AudioChannel) : Prop where
  audlc : ch.audlc.toNat.testBit 0 = false
  currentPtr : ch.currentPtr.toNat.testBit 0 = false

variable {x : Fin 4}

theorem evenPointers_cleared : EvenPointers AudioChannel.cleared := ⟨by decide, by decide⟩

theorem EvenPointers.of_block {ch ch' : AudioChannel} (h : EvenPointers ch) (hb : blockState ch' = blockState ch) :
    EvenPointers ch' := by
  have hlc : ch'.audlc = ch.audlc := congrArg BlockState.audlc hb
  have hptr : ch'.currentPtr = ch.currentPtr := congrArg BlockState.currentPtr hb
  exact ⟨hlc ▸ h.audlc, hptr ▸ h.currentPtr⟩

/-- A write to a channel moves its pointer only in the registers, and its length only when it is zero. -/
theorem audioWriteChannel_block (ch : AudioChannel) (offset : UInt32) (value : UInt16) :
    (audioWriteChannel ch offset value).currentPtr = ch.currentPtr ∧
      (audioWriteChannel ch offset value).currentLength =
        if ch.currentLength = 0 ∧ offset = 0x4 then value else ch.currentLength := by
  unfold audioWriteChannel
  split
  all_goals simp_all

theorem EvenPointers.write {ch : AudioChannel} (h : EvenPointers ch) (offset : UInt32) (value : UInt16) :
    EvenPointers (audioWriteChannel ch offset value) := by
  have hlc := h.audlc
  refine ⟨?_, (audioWriteChannel_block ch offset value).1 ▸ h.currentPtr⟩
  unfold audioWriteChannel
  split
  · have hhigh : (value.toUInt32 <<< 16).toNat.testBit 0 = false := by
      rw [UInt32.toNat_shiftLeft, Nat.testBit_mod_two_pow, Nat.testBit_shiftLeft]
      rfl
    show ((ch.audlc &&& (0x0000FFFF : UInt32)) ||| (value.toUInt32 <<< 16)).toNat.testBit 0 = false
    rw [UInt32.toNat_or, Nat.testBit_or, UInt32.toNat_and, Nat.testBit_and, hlc, hhigh]
    rfl
  · have hlow : (value &&& 0xFFFE).toUInt32.toNat.testBit 0 = false := by
      rw [UInt16.toNat_toUInt32, UInt16.toNat_and, Nat.testBit_and]
      exact Bool.and_false _
    show ((ch.audlc &&& 0xFFFF0000) ||| (value &&& 0xFFFE).toUInt32).toNat.testBit 0 = false
    rw [UInt32.toNat_or, Nat.testBit_or, UInt32.toNat_and, Nat.testBit_and, hlc, hlow]
    rfl
  all_goals exact hlc

theorem testBit_add_two {p : UInt32} (h : p.toNat.testBit 0 = false) : (p + 2).toNat.testBit 0 = false := by
  rw [Nat.testBit_zero, decide_eq_false_iff_not] at h ⊢
  rw [UInt32.toNat_add]
  simp only [UInt32.reduceToNat]
  omega

theorem EvenPointers.after {a : AudioState} (h : EvenPointers (a.ch x)) (e : AudioEvent) :
    EvenPointers ((audioAfter a e).ch x) := by
  cases e with
  | step cycles => exact h.of_block (audioStep_block a cycles x)
  | setDmacon dmacon => exact h
  | write addr value =>
    show EvenPointers ((audioWriteReg a addr value).ch x)
    by_cases hown : audioRegChannel addr = some x.val
    · obtain ⟨offset, hreg⟩ := audioRegChannel_own hown
      rw [audioWriteReg_own a hreg]
      exact h.write offset value
    · rw [(audioWriteReg_other a hown value).1]
      exact h
  | slot channel mem =>
    show EvenPointers ((audioDmaStepSlot a channel mem).1.ch x)
    by_cases hc : channel = x.val
    · subst hc
      rw [audioDmaStepSlot_eq]
      split
      · simp only [Function.update_self]
        refine ⟨h.audlc, testBit_add_two ?_⟩
        show (if (a.ch x).currentLength = 0 then (a.ch x).audlc else (a.ch x).currentPtr).toNat.testBit 0 = false
        split
        · exact h.audlc
        · exact h.currentPtr
      · exact h
    · rw [(audioDmaStepSlot_other a hc mem).1]
      exact h

/-- **Setting up moves no pointer**, and the first length written is the one that stays. -/
theorem setUp_block : ∀ (es : List AudioEvent) {a : AudioState}, audioChannelDmaEnabled a x = false →
    (∀ e ∈ es, SetsUp x e) →
      ((es.foldl audioAfter a).ch x).currentPtr = (a.ch x).currentPtr ∧
        ((es.foldl audioAfter a).ch x).currentLength =
          if (a.ch x).currentLength = 0 then firstLength x es else (a.ch x).currentLength
  | [], a, _, _ => ⟨rfl, by simp [firstLength]⟩
  | e :: es, a, hoff, hes => by
    have hrest := fun e' he' => hes e' (List.mem_cons_of_mem e he')
    have hfirst := hes e List.mem_cons_self
    rw [List.foldl_cons]
    cases e with
    | step cycles =>
      have hb := audioStep_block a cycles x
      have hptr := congrArg BlockState.currentPtr hb
      have hlen : ((audioStep a cycles).ch x).currentLength = (a.ch x).currentLength :=
        congrArg BlockState.currentLength hb
      have hafter : audioAfter a (.step cycles) = audioStep a cycles := rfl
      obtain ⟨ihp, ihl⟩ := setUp_block es (a := audioStep a cycles) hoff hrest
      refine ⟨ihp.trans hptr, ?_⟩
      rw [hafter, ihl, hlen]
      rfl
    | setDmacon dmacon => exact setUp_block es (a := audioSetDmacon a dmacon) hfirst hrest
    | slot channel mem =>
      have hsame : (audioDmaStepSlot a channel mem).1.ch x = a.ch x ∧
          (audioDmaStepSlot a channel mem).1.dmacon = a.dmacon := by
        by_cases hc : channel = x.val
        · subst hc
          have hno : audioFetches a x = false := by simp [audioFetches, hoff]
          rw [audioDmaStepSlot_eq, hno]
          exact ⟨rfl, rfl⟩
        · exact audioDmaStepSlot_other a hc mem
      obtain ⟨ihp, ihl⟩ := setUp_block es (a := (audioDmaStepSlot a channel mem).1)
        ((audioChannelDmaEnabled_dmacon hsame.2 x).trans hoff) hrest
      rw [hsame.1] at ihp ihl
      exact ⟨ihp, ihl⟩
    | write addr value =>
      have hoff' : audioChannelDmaEnabled (audioWriteReg a addr value) x = false := by
        rw [← hoff]
        refine audioChannelDmaEnabled_dmacon ?_ x
        unfold audioWriteReg
        split <;> rfl
      obtain ⟨ihp, ihl⟩ := setUp_block es (a := audioWriteReg a addr value) hoff' hrest
      have hwrite : ((audioWriteReg a addr value).ch x).currentPtr = (a.ch x).currentPtr ∧
          ((audioWriteReg a addr value).ch x).currentLength =
            if (a.ch x).currentLength = 0 ∧ audioDecodeReg addr = some (x.val, 0x4) then value
            else (a.ch x).currentLength := by
        by_cases hown : audioRegChannel addr = some x.val
        · obtain ⟨offset, hreg⟩ := audioRegChannel_own hown
          obtain ⟨hp, hl⟩ := audioWriteChannel_block (a.ch x) offset value
          rw [audioWriteReg_own a hreg]
          refine ⟨hp, hl.trans ?_⟩
          simp [hreg]
        · have hno : audioDecodeReg addr ≠ some (x.val, 0x4) := fun e => hown (by rw [audioRegChannel, e]; rfl)
          rw [(audioWriteReg_other a hown value).1]
          simp [hno]
      refine ⟨ihp.trans hwrite.1, ihl.trans ?_⟩
      rw [hwrite.2, firstLength]
      by_cases hreg : audioDecodeReg addr = some (x.val, 0x4)
      · by_cases h0 : (a.ch x).currentLength = 0
        · by_cases hv : value = 0
          · simp [hreg, h0, hv]
          · simp [hreg, h0, hv]
        · simp [h0]
      · simp [hreg]

/-! ## Playing -/

/-- A channel's registers and the block that it finds when its DMA comes on: `ptr` and `first` are what is left in the
block state, `lc` and `len` the registers. -/
structure Playback where
  ptr : UInt32
  first : UInt16
  lc : UInt32
  len : UInt16
  deriving Repr, DecidableEq

def playbackOf (ch : AudioChannel) : Playback := ⟨ch.currentPtr, ch.currentLength, ch.audlc, ch.audlen⟩

/-- Where the `i`-th word comes from: the block that was found, then blocks from the registers. -/
def Playback.addr (p : Playback) (i : Nat) : UInt32 :=
  if i < p.first.toNat then p.ptr + 2 * UInt32.ofNat i
  else p.lc + 2 * UInt32.ofNat ((i - p.first.toNat) % p.len.toNat)

/-- The words left of the current block before the `i`-th word, where the end of a block is no words. -/
def Playback.left (p : Playback) (i : Nat) : Nat :=
  if i < p.first.toNat then p.first.toNat - i
  else (p.len.toNat - (i - p.first.toNat) % p.len.toNat) % p.len.toNat

structure Playback.Ok (p : Playback) : Prop where
  len : p.len ≠ 0
  ptr : p.ptr.toNat.testBit 0 = false
  lc : p.lc.toNat.testBit 0 = false

/-- The block state before the `i`-th word. -/
structure Playback.At (p : Playback) (i : Nat) (b : BlockState) : Prop where
  audlc : b.audlc = p.lc
  audlen : b.audlen = p.len
  length : b.currentLength.toNat = p.left i
  ptr : b.currentLength ≠ 0 → b.currentPtr = p.addr i

variable {p : Playback}

theorem Playback.Ok.len_pos (h : p.Ok) : 0 < p.len.toNat :=
  Nat.pos_of_ne_zero fun e => h.len (UInt16.toNat_inj.mp e)

theorem playback_start (ch : AudioChannel) : (playbackOf ch).At 0 (blockState ch) := by
  refine ⟨rfl, rfl, ?_, fun hc => ?_⟩
  · by_cases hc : ch.currentLength = 0
    · simp [Playback.left, playbackOf, blockState, hc]
    · have hpos : 0 < ch.currentLength.toNat := Nat.pos_of_ne_zero fun e => hc (UInt16.toNat_inj.mp e)
      simp [Playback.left, playbackOf, blockState, hpos]
  · have hpos : 0 < ch.currentLength.toNat := Nat.pos_of_ne_zero fun e => hc (UInt16.toNat_inj.mp e)
    simp [Playback.addr, playbackOf, blockState, hpos]

theorem testBit_addr (h : p.Ok) (i : Nat) : (p.addr i).toNat.testBit 0 = false := by
  have heven : ∀ q : UInt32, q.toNat.testBit 0 = false → ∀ n : UInt32, (q + 2 * n).toNat.testBit 0 = false := by
    intro q hq n
    rw [Nat.testBit_zero, decide_eq_false_iff_not] at hq ⊢
    rw [UInt32.toNat_add, UInt32.toNat_mul]
    simp only [UInt32.reduceToNat]
    omega
  unfold Playback.addr
  split
  · exact heven p.ptr h.ptr _
  · exact heven p.lc h.lc _

/-- The words of the block that the `i`-th word belongs to, from it on. -/
def Playback.toGo (p : Playback) (i : Nat) : Nat :=
  if i < p.first.toNat then p.first.toNat - i else p.len.toNat - (i - p.first.toNat) % p.len.toNat

theorem Playback.Ok.toGo_eq (h : p.Ok) (i : Nat) : p.toGo i = if p.left i = 0 then p.len.toNat else p.left i := by
  have hmod := Nat.mod_lt (i - p.first.toNat) h.len_pos
  unfold Playback.toGo Playback.left
  by_cases hi : i < p.first.toNat
  · simp only [hi, if_true]
    rw [if_neg (by omega)]
  · simp only [hi, if_false]
    by_cases hj : (i - p.first.toNat) % p.len.toNat = 0
    · rw [hj, Nat.sub_zero, Nat.mod_self, if_pos rfl]
    · rw [Nat.mod_eq_of_lt (by omega : p.len.toNat - (i - p.first.toNat) % p.len.toNat < p.len.toNat), if_neg (by omega)]

theorem Playback.Ok.left_succ (h : p.Ok) (i : Nat) : p.left (i + 1) + 1 = p.toGo i := by
  have hpos := h.len_pos
  have hmod := Nat.mod_lt (i - p.first.toNat) hpos
  unfold Playback.toGo Playback.left
  rcases Nat.lt_trichotomy (i + 1) p.first.toNat with hi | hi | hi
  · rw [if_pos hi, if_pos (by omega)]
    omega
  · rw [if_neg (by omega), if_pos (by omega), hi, Nat.sub_self, Nat.zero_mod, Nat.sub_zero, Nat.mod_self]
    omega
  · have hsub : i + 1 - p.first.toNat = i - p.first.toNat + 1 := by omega
    rw [if_neg (by omega), if_neg (by omega), hsub, ← Nat.mod_add_mod]
    rcases Nat.lt_or_ge ((i - p.first.toNat) % p.len.toNat + 1) p.len.toNat with hj | hj
    · rw [Nat.mod_eq_of_lt hj, Nat.mod_eq_of_lt (by omega)]
      omega
    · have hlast : (i - p.first.toNat) % p.len.toNat + 1 = p.len.toNat := by omega
      rw [hlast, Nat.mod_self, Nat.sub_zero, Nat.mod_self]
      omega

theorem Playback.Ok.addr_succ (h : p.Ok) {i : Nat} (hleft : p.left (i + 1) ≠ 0) : p.addr (i + 1) = p.addr i + 2 := by
  have hmod := Nat.mod_lt (i - p.first.toNat) h.len_pos
  have hnext : ∀ (q : UInt32) (n : Nat), q + 2 * UInt32.ofNat (n + 1) = q + 2 * UInt32.ofNat n + 2 := fun q n => by
    rw [UInt32.ofNat_add, UInt32.mul_add, ← UInt32.add_assoc]
    rfl
  unfold Playback.left at hleft
  unfold Playback.addr
  rcases Nat.lt_trichotomy (i + 1) p.first.toNat with hi | hi | hi
  · rw [if_pos hi, if_pos (by omega), hnext]
  · rw [if_neg (by omega), hi, Nat.sub_self, Nat.zero_mod, Nat.sub_zero, Nat.mod_self] at hleft
    exact absurd rfl hleft
  · have hsub : i + 1 - p.first.toNat = i - p.first.toNat + 1 := by omega
    rw [if_neg (by omega), hsub, ← Nat.mod_add_mod] at hleft
    rw [if_neg (by omega), if_neg (by omega), hsub, ← Nat.mod_add_mod]
    rcases Nat.lt_or_ge ((i - p.first.toNat) % p.len.toNat + 1) p.len.toNat with hj | hj
    · rw [Nat.mod_eq_of_lt hj, hnext]
    · have hlast : (i - p.first.toNat) % p.len.toNat + 1 = p.len.toNat := by omega
      rw [hlast, Nat.mod_self, Nat.sub_zero, Nat.mod_self] at hleft
      exact absurd rfl hleft

/-- **One fetch**: the word comes from where it should, and the block goes on from there. -/
theorem Playback.At.fetch (h : p.Ok) {i : Nat} {ch : AudioChannel} (ha : p.At i (blockState ch)) :
    audioFetchAddr ch = p.addr i ∧ p.At (i + 1) (blockState ch).fetched := by
  have hpos := h.len_pos
  have hlc : ch.audlc = p.lc := ha.audlc
  have haudlen : ch.audlen = p.len := ha.audlen
  have hlength : ch.currentLength.toNat = p.left i := ha.length
  have hzero : ch.currentLength = 0 ↔ p.left i = 0 := by
    rw [← hlength]
    exact UInt16.toNat_inj.symm
  have hend : p.left i = 0 → p.addr i = p.lc := fun hz => by
    have hgo := h.toGo_eq i
    rw [hz, if_pos rfl] at hgo
    unfold Playback.left at hz
    unfold Playback.toGo at hgo
    unfold Playback.addr
    by_cases hi : i < p.first.toNat
    · rw [if_pos hi] at hz
      omega
    · rw [if_neg hi] at hgo
      have hstart : (i - p.first.toNat) % p.len.toNat = 0 := by omega
      rw [if_neg hi, hstart]
      exact UInt32.add_zero _
  have haddr : (if ch.currentLength = 0 then ch.audlc else ch.currentPtr) = p.addr i := by
    split
    · rename_i hc
      rw [hend (hzero.mp hc), hlc]
    · exact ha.ptr ‹_›
  have hgo : (if ch.currentLength = 0 then ch.audlen else ch.currentLength).toNat = p.toGo i := by
    rw [h.toGo_eq, haudlen]
    by_cases hc : ch.currentLength = 0
    · rw [if_pos hc, if_pos (hzero.mp hc)]
    · rw [if_neg hc, if_neg fun e => hc (hzero.mpr e), hlength]
  have hsucc := h.left_succ i
  have hnext : (blockState ch).fetched.currentLength.toNat = p.left (i + 1) := by
    show ((if ch.currentLength = 0 then ch.audlen else ch.currentLength) - 1).toNat = p.left (i + 1)
    rw [UInt16.toNat_sub_of_le _ _ (UInt16.le_iff_toNat_le.mpr (by rw [hgo, ← hsucc]; exact Nat.le_add_left 1 _)), hgo]
    exact Nat.sub_eq_of_eq_add hsucc.symm
  refine ⟨by rw [audioFetchAddr, haddr]; exact and_not_one (testBit_addr h i), hlc, haudlen, hnext, fun hne => ?_⟩
  have hleft : p.left (i + 1) ≠ 0 := fun e => hne (UInt16.toNat_inj.mp (hnext.trans e))
  show (if ch.currentLength = 0 then ch.audlc else ch.currentPtr) + 2 = p.addr (i + 1)
  rw [haddr, h.addr_succ hleft]

/-- A channel that plays: what it has fetched came from where it should, and its block goes on from there. -/
structure Playing (x : Fin 4) (p : Playback) (r : AudioRun) : Prop where
  on : audioChannelDmaEnabled r.audio x = true
  block : p.At r.fetched.length (blockState (r.audio.ch x))
  fetched : ∀ (i : Nat) (h : i < r.fetched.length),
    r.fetched[i].addr = p.addr i ∧ r.fetched[i].word = chipRamRead16 r.fetched[i].mem r.fetched[i].addr

/-- An event that leaves the block alone. -/
theorem Playing.same {r : AudioRun} {a : AudioState} (h : Playing x p r) (hon : audioChannelDmaEnabled a x = true)
    (hb : blockState (a.ch x) = blockState (r.audio.ch x)) : Playing x p ⟨a, r.fetched⟩ :=
  ⟨hon, hb ▸ h.block, h.fetched⟩

/-- **What an event keeps while the channel plays.** -/
theorem Playing.event {r : AudioRun} (hp : p.Ok) (h : Playing x p r) {e : AudioEvent} (he : Plays x e) :
    Playing x p (audioEvent x r e) := by
  cases e with
  | step cycles => exact h.same h.on (audioStep_block r.audio cycles x)
  | setDmacon dmacon => exact h.same he rfl
  | write addr value =>
    obtain ⟨hch, hdmacon⟩ := audioWriteReg_other r.audio he value
    exact h.same ((audioChannelDmaEnabled_dmacon hdmacon x).trans h.on) (congrArg blockState hch)
  | slot channel mem =>
    by_cases hc : channel = x.val
    · subst hc
      cases hf : audioFetches r.audio x with
      | false =>
        have hsame := audioDmaStepSlot_eq r.audio x mem
        rw [hf] at hsame
        have hev : audioEvent x r (.slot x mem) = r := by
          simp only [audioEvent, audioAfter, hf, hsame, and_false, Bool.false_eq_true, if_false]
        rw [hev]
        exact h
      | true =>
        obtain ⟨haddr, hnext⟩ := h.block.fetch hp
        have hslot := audioDmaStepSlot_eq r.audio x mem
        rw [hf, if_pos rfl] at hslot
        have hev : audioEvent x r (.slot x mem) = ⟨(audioDmaStepSlot r.audio x mem).1, r.fetched ++
            [⟨mem, audioFetchAddr (r.audio.ch x), ((audioDmaStepSlot r.audio x mem).1.ch x).dmaWord⟩]⟩ := by
          simp only [audioEvent, audioAfter, hf, and_self, if_true]
        have hword : ((audioDmaStepSlot r.audio x mem).1.ch x).dmaWord =
            chipRamRead16 mem (audioFetchAddr (r.audio.ch x)) := by
          rw [hslot]
          simp only [Function.update_self]
        have hblock : blockState ((audioDmaStepSlot r.audio x mem).1.ch x) = (blockState (r.audio.ch x)).fetched := by
          rw [hslot]
          simp only [Function.update_self]
          rfl
        rw [hev]
        refine ⟨?_, ?_, fun i hi => ?_⟩
        · rw [← h.on]
          exact audioChannelDmaEnabled_dmacon (by rw [hslot]) x
        · simp only [List.length_append, List.length_singleton, hblock]
          exact hnext
        · rw [List.getElem_append]
          split
          · exact h.fetched i _
          · rename_i hge
            have hlast : i = r.fetched.length := by
              rw [List.length_append, List.length_singleton] at hi
              omega
            subst hlast
            simp only [Nat.sub_self, List.getElem_singleton]
            exact ⟨haddr, hword⟩
    · obtain ⟨hch, hdmacon⟩ := audioDmaStepSlot_other r.audio hc mem
      have hev : audioEvent x r (.slot channel mem) = ⟨(audioDmaStepSlot r.audio channel mem).1, r.fetched⟩ := by
        simp only [audioEvent, audioAfter, hc, false_and, if_false]
      rw [hev]
      exact h.same ((audioChannelDmaEnabled_dmacon hdmacon x).trans h.on) (congrArg blockState hch)

theorem Playing.run (hp : p.Ok) : ∀ (es : List AudioEvent) {r : AudioRun} (_ : Playing x p r), (∀ e ∈ es, Plays x e) →
    Playing x p (es.foldl (audioEvent x) r)
  | [], _, h, _ => h
  | e :: es, _, h, hes =>
    Playing.run hp es (h.event hp (hes e List.mem_cons_self)) fun e' he' => hes e' (List.mem_cons_of_mem e he')

/-! ## Enough to fetch -/

/-- More cycles than four of the longest periods. -/
def manyCycles : UInt32 := 0x50000

/-- After so many cycles the channel has played whatever waited. -/
theorem audioStep_empties {a : AudioState} (hon : audioChannelDmaEnabled a x = true) :
    ((audioStep a manyCycles).ch x).dmaWordReady = false := by
  have hx : x.val < paulaAudioChannels := x.isLt
  have hok := periodOk_defaults { a.ch x with dmaEnabled := true }
  rw [audioStep_ch, if_pos hx, hon, audioStepChannel_eq, Bool.true_or, if_pos rfl]
  generalize audioPeriodDefaults { a.ch x with dmaEnabled := true } = c at hok
  have hcounter := c.periodCounter.toNat_lt
  have haudper := c.audper.toNat_lt
  have hle : c.periodCounter.toNat ≤ manyCycles.toNat := by
    show _ ≤ 0x50000
    omega
  have hfour : 4 ≤ (manyCycles.toNat - c.periodCounter.toNat) / c.audper.toNat := by
    rw [Nat.le_div_iff_mul_le hok.audper]
    show _ ≤ 0x50000 - c.periodCounter.toNat
    omega
  have hpast : periodCountdown.tick^[manyCycles.toNat] c = _ :=
    (periodCountdown_lawful.iterate_of_le hok hle).trans (hok.fullPeriod.cycles _)
  have hbound : ∀ ch : AudioChannel, audioSamplesPending ch ≤ 4 := fun ch => by
    unfold audioSamplesPending
    cases ch.dataPending <;> cases ch.hasPendingLo <;> cases ch.dmaWordReady <;> decide
  have hnone : audioSamplesPending (periodCountdown.tick^[manyCycles.toNat] c) = 0 := by
    rw [hpast]
    show audioSamplesPending (audioPeriodElapsed^[_] (audioPeriodElapsed c)) = 0
    rw [elapsed_iterate_pending]
    exact Nat.sub_eq_zero_of_le (Nat.le_trans (hbound _) hfour)
  cases hready : (periodCountdown.tick^[manyCycles.toNat] c).dmaWordReady with
  | false => rfl
  | true =>
    simp only [audioSamplesPending, hready, Bool.toNat_true] at hnone
    omega

theorem Playing.slot_fetches {r : AudioRun} (hp : p.Ok) (h : Playing x p r) (hready : (r.audio.ch x).dmaWordReady = false)
    (mem : ChipRam) : (audioEvent x r (.slot x mem)).fetched.length = r.fetched.length + 1 := by
  have hf : audioFetches r.audio x = true := by
    have hlen : (r.audio.ch x).audlen ≠ 0 := fun e => hp.len (h.block.audlen.symm.trans e)
    simp [audioFetches, h.on, hready, hlen]
  simp only [audioEvent, hf, and_self, if_true, List.length_append, List.length_singleton]

/-- `n` rounds of a slot and enough cycles to play its word. -/
def audioRounds (x : Fin 4) (mem : ChipRam) : Nat → List AudioEvent
  | 0 => []
  | n + 1 => .slot x mem :: .step manyCycles :: audioRounds x mem n

theorem audioRounds_plays (x : Fin 4) (mem : ChipRam) : ∀ n : Nat, ∀ e ∈ audioRounds x mem n, Plays x e
  | 0, _, h => absurd h List.not_mem_nil
  | n + 1, e, h => by
    rcases List.mem_cons.mp h with rfl | h
    · trivial
    · rcases List.mem_cons.mp h with rfl | h
      · trivial
      · exact audioRounds_plays x mem n e h

theorem Playing.rounds (hp : p.Ok) (mem : ChipRam) : ∀ (n : Nat) {r : AudioRun} (_ : Playing x p r),
    (r.audio.ch x).dmaWordReady = false →
      ((audioRounds x mem n).foldl (audioEvent x) r).fetched.length = r.fetched.length + n
  | 0, _, _, _ => rfl
  | n + 1, r, h, hready => by
    have hslot := h.event hp (e := .slot x mem) trivial
    have hstep := hslot.event hp (e := .step manyCycles) trivial
    have ih := hstep.rounds hp mem n (audioStep_empties hslot.on)
    show ((audioRounds x mem n).foldl (audioEvent x)
      (audioEvent x (audioEvent x r (.slot x mem)) (.step manyCycles))).fetched.length = _
    rw [ih]
    show (audioEvent x r (.slot x mem)).fetched.length + n = _
    rw [h.slot_fetches hp hready, Nat.add_assoc, Nat.add_comm 1]

/-! ## The law -/

/-- With its DMA switched on the channel fetches, in order and for ever, the words from AUDxLC on, as many as AUDxLEN
says and then from AUDxLC again. -/
def PlaysBlocks (x : Fin 4) (a : AudioState) (dmacon : UInt16) : Prop :=
  ∀ es : List AudioEvent, (∀ e ∈ es, Plays x e) →
    let fetched := (es.foldl (audioEvent x) ⟨audioSetDmacon a dmacon, []⟩).fetched
    ∀ (i : Nat) (h : i < fetched.length),
      fetched[i].addr = (a.ch x).audlc + 2 * UInt32.ofNat (i % (a.ch x).audlen.toNat) ∧
        fetched[i].word = chipRamRead16 fetched[i].mem fetched[i].addr

theorem wordAddr_inj {q : UInt32} {m n : Nat} (hm : m < 65536) (hn : n < 65536)
    (h : q + 2 * UInt32.ofNat m = q + 2 * UInt32.ofNat n) : m = n := by
  have hsub := congrArg UInt32.toNat ((UInt32.add_right_inj q).mp h)
  rw [UInt32.toNat_mul, UInt32.toNat_mul, UInt32.toNat_ofNat', UInt32.toNat_ofNat'] at hsub
  simp only [UInt32.reduceToNat] at hsub
  omega

/-- Playing from the registers from the start: there is no block to finish, or it is the registers' own. -/
theorem Playback.Ok.addr_eq_iff (h : p.Ok) :
    (∀ i, p.addr i = p.lc + 2 * UInt32.ofNat (i % p.len.toNat)) ↔ p.first = 0 ∨ (p.ptr = p.lc ∧ p.first = p.len) := by
  have hpos := h.len_pos
  have hlen := p.len.toNat_lt
  have hfirst := p.first.toNat_lt
  constructor
  · intro hall
    by_cases hf : p.first = 0
    · exact .inl hf
    · have hfpos : 0 < p.first.toNat := Nat.pos_of_ne_zero fun e => hf (UInt16.toNat_inj.mp e)
      have hptr : p.ptr = p.lc := by
        have h0 := hall 0
        rw [Playback.addr, if_pos hfpos, Nat.zero_mod] at h0
        exact (UInt32.add_left_inj _).mp h0
      refine .inr ⟨hptr, UInt16.toNat_inj.mp ?_⟩
      rcases Nat.lt_trichotomy p.first.toNat p.len.toNat with hlt | heq | hgt
      · have hend := hall p.first.toNat
        rw [Playback.addr, if_neg (Nat.lt_irrefl _), Nat.sub_self, Nat.zero_mod, Nat.mod_eq_of_lt hlt] at hend
        have := wordAddr_inj (by decide) (by omega) hend
        omega
      · exact heq
      · have hend := hall p.len.toNat
        rw [Playback.addr, if_pos hgt, Nat.mod_self, hptr] at hend
        have := wordAddr_inj (by omega) (by decide) hend
        omega
  · rintro (hf | ⟨hptr, hf⟩) i
    · rw [Playback.addr, hf]
      rfl
    · rw [Playback.addr, hptr, hf]
      split
      · rename_i hi
        rw [Nat.mod_eq_of_lt hi]
      · rename_i hi
        rw [← Nat.mod_eq_sub_mod (Nat.le_of_not_lt hi)]

theorem evenPointers_run : ∀ (es : List AudioEvent) {a : AudioState} (_ : EvenPointers (a.ch x)),
    EvenPointers ((es.foldl audioAfter a).ch x)
  | [], _, h => h
  | e :: es, _, h => evenPointers_run es (h.after e)

/-- **When a channel plays from its registers from the first block on.** It is set up, with its DMA off, after any run
that ended on a block boundary: either no length other than 0 is written, so that the slot loads the block, or the first
one written is the final one and AUDxLC is where the last block ended. -/
theorem audioBlocks_iff (x : Fin 4) (before setup : List AudioEvent) (dmacon : UInt16)
    (hoff : audioChannelDmaEnabled (before.foldl audioAfter audioReset) x = false)
    (hblock : ((before.foldl audioAfter audioReset).ch x).currentLength = 0)
    (hsetup : ∀ e ∈ setup, SetsUp x e)
    (hlen : (((before ++ setup).foldl audioAfter audioReset).ch x).audlen ≠ 0)
    (hon : audioChannelDmaEnabled { audioReset with dmacon := dmacon } x = true) :
    PlaysBlocks x ((before ++ setup).foldl audioAfter audioReset) dmacon ↔
      firstLength x setup = 0 ∨
        (((before.foldl audioAfter audioReset).ch x).currentPtr =
            (((before ++ setup).foldl audioAfter audioReset).ch x).audlc ∧
          firstLength x setup = (((before ++ setup).foldl audioAfter audioReset).ch x).audlen) := by
  have heven := evenPointers_run (x := x) (before ++ setup) (a := audioReset) evenPointers_cleared
  obtain ⟨hptr, hlength⟩ := setUp_block setup hoff hsetup
  rw [hblock, if_pos rfl] at hlength
  rw [List.foldl_append] at heven hlen ⊢
  generalize setup.foldl audioAfter (before.foldl audioAfter audioReset) = a at heven hptr hlength hlen
  rw [← hptr, ← hlength]
  have hp : (playbackOf (a.ch x)).Ok := ⟨hlen, heven.currentPtr, heven.audlc⟩
  have hstart : Playing x (playbackOf (a.ch x)) ⟨audioSetDmacon a dmacon, []⟩ :=
    ⟨hon, playback_start (a.ch x), fun i h => absurd h (Nat.not_lt_zero i)⟩
  refine Iff.trans ⟨fun hplays i => ?_, fun haddr es hes i h => ?_⟩ hp.addr_eq_iff
  · have hready := hstart.event hp (e := .step manyCycles) trivial
    let mem : ChipRam := ⟨.ocs, 0, false, false, fun _ => 0⟩
    have hes : ∀ e ∈ .step manyCycles :: audioRounds x mem (i + 1), Plays x e := fun e he => by
      rcases List.mem_cons.mp he with rfl | he
      · trivial
      · exact audioRounds_plays x mem (i + 1) e he
    have hcount := hready.rounds hp mem (i + 1) (audioStep_empties hstart.on)
    have hi : i < ((AudioEvent.step manyCycles :: audioRounds x mem (i + 1)).foldl (audioEvent x)
        ⟨audioSetDmacon a dmacon, []⟩).fetched.length := by
      rw [List.foldl_cons, hcount]
      omega
    have hrun := Playing.run hp _ hstart hes
    exact (hrun.fetched i hi).1.symm.trans (hplays _ hes i hi).1
  · have hrun := Playing.run hp es hstart hes
    exact ⟨(hrun.fetched i h).1.trans (haddr i), (hrun.fetched i h).2⟩

/-- Channel 0 of a fresh Paula, given a block of two words at `$1000`. -/
def blockSetup : List AudioEvent := [.write 0x0A2 0x1000, .write 0x0A4 2]

/-- A chip memory whose words are their own addresses. -/
def addressRam : ChipRam := ⟨.ocs, 0x80000, true, true, fun a => a.toUInt16⟩

/-- Channel 0 has played a block of two words and is switched off again: its length is used up, and its pointer stands
behind the words it took. -/
def playedBlock : List AudioEvent :=
  [.write 0x0A2 0x1000, .write 0x0A4 2, .write 0x0A6 124, .setDmacon 0x0201, .slot 0 addressRam, .step 600,
    .slot 0 addressRam, .step 600, .setDmacon 0x0200]

/-- A new pointer with the length as it was: the slot loads the block. -/
def reloadedAudio : AudioState := (playedBlock ++ [AudioEvent.write 0x0A2 0x2000]).foldl audioAfter audioReset

/-- A second block, played from its registers on both branches: its pointer alone is written, and the slot loads both; or
the length is written too, and the pointer is where the first block ended. -/
theorem audioBlocks_second_block :
    PlaysBlocks 0 reloadedAudio 0x8201 ∧
      (([.slot 0 addressRam, .step 600, .slot 0 addressRam, .step 600, .slot 0 addressRam] : List AudioEvent).foldl
        (audioEvent 0) ⟨audioSetDmacon reloadedAudio 0x8201, []⟩).fetched.map AudioFetch.addr = [0x2000, 0x2002, 0x2000] ∧
      PlaysBlocks 0 ((playedBlock ++ [AudioEvent.write 0x0A2 4, .write 0x0A4 3]).foldl audioAfter audioReset) 0x8201 := by
  have hoff : audioChannelDmaEnabled (playedBlock.foldl audioAfter audioReset) 0 = false := by decide +kernel
  have hblock : ((playedBlock.foldl audioAfter audioReset).ch 0).currentLength = 0 := by decide +kernel
  have hreloaded := (audioBlocks_iff 0 playedBlock [.write 0x0A2 0x2000] 0x8201 hoff hblock
    (fun e he => List.eq_of_mem_singleton he ▸ trivial) (by decide +kernel) (by decide)).mpr (.inl (by decide))
  have hfollowed := (audioBlocks_iff 0 playedBlock [.write 0x0A2 4, .write 0x0A4 3] 0x8201 hoff hblock
    (fun e he => by
      rcases List.mem_cons.mp he with rfl | he
      · trivial
      · exact List.eq_of_mem_singleton he ▸ trivial)
    (by decide +kernel) (by decide)).mpr (.inr ⟨by decide +kernel, by decide +kernel⟩)
  exact ⟨hreloaded, by decide +kernel, hfollowed⟩

/-- The first word comes from address 0. -/
theorem audioBlocks_stale : ¬ PlaysBlocks 0 (([] ++ blockSetup).foldl audioAfter audioReset) 0x8201 := by
  intro h
  have hfirst := (h [.slot 0 ⟨.ocs, 0, false, false, fun _ => 0⟩] (fun e he => by simp_all [Plays]) 0 (by decide)).1
  exact absurd hfirst (by decide)

end Rigel
