import Rigel.DiskTransfer
import Rigel.MfmTrack

/-!
# DiskStream — the words that a disk read moves to memory

A read encodes the track under the head, looks for the sync word byte by byte and moves words from there, around the
buffer as often as the length asks. The buffer has an even number of bytes, so a transfer that starts on an even offset
meets its end between two words. One that starts on an odd offset would have to join the last byte to the first; the
grant goes back to the first word instead, and every word from there on is one byte off.
-/

namespace Rigel

/-! ## What a grant writes -/

/-- The word that a grant stores, with its address. -/
def diskGrantWrite (d : DiskState) : Option (UInt32 × UInt16) :=
  if !diskDmaWantsService d || d.dmaTrackLen < 2 then none
  else
    some (d.dmaPtrBase + d.dmaBytesDone,
      readBe16 d.dmaTrackBuf (if d.dmaSrcOffset + 1 ≥ d.dmaTrackLen then 0 else d.dmaSrcOffset).toNat)

def diskEventWrite (d : DiskState) : DiskEvent → Option (UInt32 × UInt16)
  | .grant => diskGrantWrite d
  | _ => none

/-- The stores of a run, in order. -/
def diskWrites (irq : Bool) : DiskRun → List DiskEvent → List (UInt32 × UInt16)
  | _, [] => []
  | r, e :: es => (diskEventWrite r.disk e).toList ++ diskWrites irq (diskEvent irq r e) es

def storeWords (mem : ChipRam) (log : List (UInt32 × UInt16)) : ChipRam :=
  log.foldl (fun m w => chipRamWrite16 m w.1 w.2) mem

theorem diskEvent_mem (irq : Bool) (r : DiskRun) (e : DiskEvent) :
    (diskEvent irq r e).mem = storeWords r.mem (diskEventWrite r.disk e).toList := by
  cases e with
  | grant =>
    show (diskDmaServiceGrant irq r.disk r.mem).mem = storeWords r.mem (diskGrantWrite r.disk).toList
    unfold diskDmaServiceGrant diskGrantWrite
    split
    · rfl
    · simp only
      repeat' split
      all_goals rfl
  | _ => rfl

/-- **The memory after a run** is what the stores of its grants made of it. -/
theorem diskWrites_mem (irq : Bool) : ∀ (es : List DiskEvent) (r : DiskRun),
    (es.foldl (diskEvent irq) r).mem = storeWords r.mem (diskWrites irq r es)
  | [], _ => rfl
  | e :: es, r => by
    rw [List.foldl_cons, diskWrites_mem irq es, diskEvent_mem, diskWrites, storeWords, storeWords, storeWords,
      List.foldl_append]

theorem diskWrites_append (irq : Bool) : ∀ (es fs : List DiskEvent) (r : DiskRun),
    diskWrites irq r (es ++ fs) = diskWrites irq r es ++ diskWrites irq (es.foldl (diskEvent irq) r) fs
  | [], _, _ => rfl
  | e :: es, fs, r => by
    rw [List.cons_append, diskWrites, diskWrites, diskWrites_append irq es fs, List.append_assoc, List.foldl_cons]

/-! ## A transfer at its `i`-th word -/

/-- The big-endian pair at offset `s + 2 * i` of a track read as a ring. -/
def streamWord (buf : Nat → UInt8) (s i : Nat) : UInt16 :=
  ((buf ((s + 2 * i) % floppyMfmTrackBytesPal)).toUInt16 <<< 8) |||
    (buf ((s + 2 * i + 1) % floppyMfmTrackBytesPal)).toUInt16

/-- What a read is given: the track, where it starts in it, the address and the number of words. -/
structure DiskStream where
  buf : Nat → UInt8
  start : Nat
  base : UInt32
  words : Nat

namespace DiskStream

/-- The store of the `i`-th word, were the track a ring. -/
def store (t : DiskStream) (i : Nat) : UInt32 × UInt16 :=
  (t.base + 2 * UInt32.ofNat i, streamWord t.buf t.start i)

/-- The `i`-th word does not lie across the end of the track. -/
def Whole (t : DiskStream) (i : Nat) : Prop := (t.start + 2 * i) % floppyMfmTrackBytesPal + 1 < floppyMfmTrackBytesPal

instance (t : DiskStream) (i : Nat) : Decidable (t.Whole i) := Nat.decLt _ _

/-- `i` words have been moved and more are to come. -/
structure At (t : DiskStream) (i : Nat) (d : DiskState) : Prop where
  active : d.dmaActive = true
  mode : d.writeMode = false
  buf : d.dmaTrackBuf = t.buf
  len : d.dmaTrackLen = UInt32.ofNat floppyMfmTrackBytesPal
  base : d.dmaPtrBase = t.base
  total : d.dmaBytesTotal = 2 * UInt32.ofNat t.words
  done : d.dmaBytesDone = 2 * UInt32.ofNat i
  offset : d.dmaSrcOffset = UInt32.ofNat ((t.start + 2 * i) % floppyMfmTrackBytesPal)
  lt : i < t.words
  small : t.words < 0x4000

/-- All words have been moved. -/
structure Over (t : DiskStream) (d : DiskState) : Prop where
  active : d.dmaActive = false
  dskptr : d.dskptr = t.base + 2 * UInt32.ofNat t.words

end DiskStream

/-- A moved word leaves the source and the counters where the next one is. -/
theorem diskMoveWord_fields (irq : Bool) (d : DiskState) (src : UInt32) (word : UInt16) :
    (diskMoveWord irq d src word).1.dmaTrackBuf = d.dmaTrackBuf ∧
      (diskMoveWord irq d src word).1.dmaPtrBase = d.dmaPtrBase ∧
      (diskMoveWord irq d src word).1.dmaSrcOffset = (src + 2) % d.dmaTrackLen := by
  unfold diskMoveWord
  simp only
  split
  · rw [diskMaybeEmitSync_eq]
    exact ⟨rfl, rfl, rfl⟩
  · exact ⟨rfl, rfl, rfl⟩

theorem diskFinish_dskptr (irq : Bool) (d : DiskState) : (diskFinish irq d).1.dskptr = d.dmaPtrBase + d.dmaBytesTotal := rfl

namespace DiskStream

variable {t : DiskStream} {i : Nat} {d : DiskState}

theorem two_mul_ofNat_toNat {k : Nat} (h : k ≤ 0x4000) : (2 * UInt32.ofNat k).toNat = 2 * k := by
  rw [UInt32.toNat_mul, UInt32.toNat_ofNat']
  simp only [UInt32.reduceToNat]
  omega

theorem At.bytes (h : t.At i d) : d.dmaBytesDone.toNat = 2 * i ∧ d.dmaBytesTotal.toNat = 2 * t.words := by
  have hlt := h.lt
  have hsmall := h.small
  rw [h.done, h.total]
  exact ⟨two_mul_ofNat_toNat (by omega), two_mul_ofNat_toNat (by omega)⟩

theorem At.wants (h : t.At i d) : (!diskDmaWantsService d || decide (d.dmaTrackLen < 2)) = false := by
  obtain ⟨hdone, htotal⟩ := h.bytes
  have hlt : d.dmaBytesDone < d.dmaBytesTotal := by
    rw [UInt32.lt_iff_toNat_lt, hdone, htotal]
    exact Nat.mul_lt_mul_of_pos_left h.lt (by decide)
  unfold diskDmaWantsService
  rw [h.active, h.mode, h.len, decide_eq_true hlt]
  decide

theorem offset_toNat (s : Nat) : (UInt32.ofNat (s % floppyMfmTrackBytesPal)).toNat = s % floppyMfmTrackBytesPal := by
  have hlt : s % floppyMfmTrackBytesPal < floppyMfmTrackBytesPal := Nat.mod_lt _ (by decide)
  rw [UInt32.toNat_ofNat']
  unfold floppyMfmTrackBytesPal at hlt ⊢
  omega

theorem offset_next (s : Nat) :
    (UInt32.ofNat (s % floppyMfmTrackBytesPal) + 2) % UInt32.ofNat floppyMfmTrackBytesPal =
      UInt32.ofNat ((s + 2) % floppyMfmTrackBytesPal) := by
  have hlt : s % floppyMfmTrackBytesPal < floppyMfmTrackBytesPal := Nat.mod_lt _ (by decide)
  apply UInt32.toNat_inj.mp
  rw [UInt32.toNat_mod, UInt32.toNat_add, offset_toNat, offset_toNat]
  unfold floppyMfmTrackBytesPal at hlt ⊢
  simp only [UInt32.reduceToNat, UInt32.toNat_ofNat', Nat.reducePow, Nat.reduceMod]
  omega

/-- Where the grant reads: at the offset, or at the start when only one byte is left. -/
theorem At.source (h : t.At i d) :
    (if d.dmaSrcOffset + 1 ≥ d.dmaTrackLen then 0 else d.dmaSrcOffset) =
      if t.Whole i then UInt32.ofNat ((t.start + 2 * i) % floppyMfmTrackBytesPal) else 0 := by
  have hlt : (t.start + 2 * i) % floppyMfmTrackBytesPal < floppyMfmTrackBytesPal := Nat.mod_lt _ (by decide)
  have hnext : (d.dmaSrcOffset + 1).toNat = (t.start + 2 * i) % floppyMfmTrackBytesPal + 1 := by
    rw [h.offset, UInt32.toNat_add, offset_toNat]
    unfold floppyMfmTrackBytesPal at hlt ⊢
    simp only [UInt32.reduceToNat]
    omega
  have hlen : d.dmaTrackLen.toNat = floppyMfmTrackBytesPal := by
    rw [h.len]
    rfl
  simp only [ge_iff_le, UInt32.le_iff_toNat_le, hnext, hlen]
  by_cases hw : t.Whole i
  · rw [if_pos hw, if_neg (Nat.not_le.mpr hw), h.offset]
  · rw [if_neg hw, if_pos (Nat.not_lt.mp hw)]

/-- **A grant stores the next word**: that of the ring, unless it lies across the end. -/
theorem At.write (h : t.At i d) :
    diskGrantWrite d =
      some (t.base + 2 * UInt32.ofNat i, if t.Whole i then streamWord t.buf t.start i else readBe16 t.buf 0) := by
  unfold diskGrantWrite
  rw [h.wants, if_neg Bool.false_ne_true, h.source, h.base, h.done, h.buf]
  split
  · rename_i hw
    unfold streamWord readBe16
    rw [offset_toNat]
    have hmod : (t.start + 2 * i + 1) % floppyMfmTrackBytesPal = (t.start + 2 * i) % floppyMfmTrackBytesPal + 1 := by
      unfold Whole floppyMfmTrackBytesPal at hw
      unfold floppyMfmTrackBytesPal
      omega
    rw [hmod]
  · rfl

/-- **What a grant leaves**: the transfer one word on, or its end with DSKBLK. -/
theorem At.grant (h : t.At i d) (hw : t.Whole i) (irq : Bool) (mem : ChipRam) (raised : List UInt16) :
    if i + 1 < t.words then
      t.At (i + 1) (diskEvent irq ⟨d, mem, raised⟩ .grant).disk ∧
        (diskEvent irq ⟨d, mem, raised⟩ .grant).blocks = raised.count paulaIntDskblk
    else
      t.Over (diskEvent irq ⟨d, mem, raised⟩ .grant).disk ∧
        (diskEvent irq ⟨d, mem, raised⟩ .grant).blocks = raised.count paulaIntDskblk + 1 := by
  have hsource := h.source
  rw [if_pos hw] at hsource
  unfold diskEvent diskDmaServiceGrant DiskRun.blocks
  simp only
  rw [h.wants, if_neg Bool.false_ne_true, hsource]
  generalize hsrc : UInt32.ofNat ((t.start + 2 * i) % floppyMfmTrackBytesPal) = src
  generalize readBe16 d.dmaTrackBuf src.toNat = word
  obtain ⟨hsame, hcount⟩ := diskMoveWord_counts irq d src word
  obtain ⟨hbuf, hbase, hoffset⟩ := diskMoveWord_fields irq d src word
  generalize diskMoveWord irq d src word = moved at hsame hcount hbuf hbase hoffset ⊢
  have hdone : moved.1.dmaBytesDone = 2 * UInt32.ofNat (i + 1) := by
    rw [hsame.done, UInt32.ofNat_add]
    show d.dmaBytesDone + 2 = _
    rw [h.done]
    grind
  have hless : moved.1.dmaBytesDone < moved.1.dmaBytesTotal ↔ i + 1 < t.words := by
    have hlt := h.lt
    have hsmall := h.small
    rw [UInt32.lt_iff_toNat_lt, hdone, hsame.total, h.total, two_mul_ofNat_toNat (by omega),
      two_mul_ofNat_toNat (by omega)]
    omega
  by_cases hmore : i + 1 < t.words
  · rw [if_pos hmore, if_pos (hless.mpr hmore)]
    refine ⟨⟨hsame.active.trans h.active, hsame.mode.trans h.mode, hbuf.trans h.buf, hsame.track.trans h.len,
      hbase.trans h.base, hsame.total.trans h.total, hdone, ?_, hmore, h.small⟩, ?_⟩
    · rw [hoffset, h.len, ← hsrc]
      exact offset_next (t.start + 2 * i)
    · rw [List.count_append, hcount, Nat.add_zero]
  · rw [if_neg hmore, if_neg (fun hlt => hmore (hless.mp hlt))]
    obtain ⟨hidle, hblk⟩ := diskFinish_blocks irq moved.1
    refine ⟨⟨hidle, ?_⟩, ?_⟩
    · rw [diskFinish_dskptr, hbase, hsame.total]
      exact congrArg₂ (· + ·) h.base h.total
    · rw [List.count_append, List.count_append, hcount, hblk, Nat.zero_add]

/-! ## A run of grants -/

/-- No register write: time passes, slots are granted, registers are read and drives selected. -/
def NoWrite (e : DiskEvent) : Prop := ∀ addr value drive, e ≠ .write addr value drive

theorem At.other (h : t.At i d) {e : DiskEvent} (he : NoWrite e) (hg : e ≠ .grant) (irq : Bool) (mem : ChipRam)
    (raised : List UInt16) :
    t.At i (diskEvent irq ⟨d, mem, raised⟩ e).disk ∧ diskEventWrite d e = none ∧
      (diskEvent irq ⟨d, mem, raised⟩ e).raised = raised := by
  cases e with
  | step cycles =>
    have hpos : d.dmaBytesTotal > 0 := by
      have htotal := h.bytes.2
      have hlt := h.lt
      rw [gt_iff_lt, UInt32.lt_iff_toNat_lt, htotal]
      simp only [UInt32.reduceToNat]
      omega
    have hidle : diskStep d cycles = (d, []) := by
      unfold diskStep
      rw [if_pos]
      rw [decide_eq_true hpos, Bool.or_true, Bool.true_or]
    simp only [diskEvent, hidle, List.append_nil]
    exact ⟨h, rfl, trivial⟩
  | grant => exact absurd rfl hg
  | write addr value drive => exact absurd rfl (he addr value drive)
  | read addr =>
    refine ⟨?_, rfl, rfl⟩
    show t.At i (diskReadReg d addr).1
    unfold diskReadReg
    split <;> exact ⟨h.active, h.mode, h.buf, h.len, h.base, h.total, h.done, h.offset, h.lt, h.small⟩
  | select drive =>
    exact ⟨⟨h.active, h.mode, h.buf, h.len, h.base, h.total, h.done, h.offset, h.lt, h.small⟩, rfl, rfl⟩

/-- After its last word a transfer stores nothing and raises nothing. -/
theorem Over.event (h : t.Over d) {e : DiskEvent} (he : NoWrite e) (irq : Bool) (mem : ChipRam)
    (raised : List UInt16) :
    t.Over (diskEvent irq ⟨d, mem, raised⟩ e).disk ∧ diskEventWrite d e = none ∧
      (diskEvent irq ⟨d, mem, raised⟩ e).raised = raised := by
  have hwants : diskDmaWantsService d = false := by
    unfold diskDmaWantsService
    rw [h.active, Bool.false_and, Bool.false_and]
  cases e with
  | step cycles =>
    have hidle : diskStep d cycles = (d, []) := by
      unfold diskStep
      rw [if_pos]
      rw [h.active, Bool.not_false, Bool.true_or, Bool.true_or]
    simp only [diskEvent, hidle, List.append_nil]
    exact ⟨h, rfl, trivial⟩
  | grant =>
    have hidle : diskDmaServiceGrant irq d mem = ⟨d, mem, []⟩ := by
      unfold diskDmaServiceGrant
      rw [hwants, if_pos]
      rfl
    have hnone : diskGrantWrite d = none := by
      unfold diskGrantWrite
      rw [hwants, if_pos]
      rfl
    simp only [diskEvent, hidle, List.append_nil]
    exact ⟨h, hnone, trivial⟩
  | write addr value drive => exact absurd rfl (he addr value drive)
  | read addr =>
    refine ⟨?_, rfl, rfl⟩
    show t.Over (diskReadReg d addr).1
    unfold diskReadReg
    split <;> exact ⟨h.active, h.dskptr⟩
  | select drive => exact ⟨⟨h.active, h.dskptr⟩, rfl, rfl⟩

theorem Over.run (irq : Bool) : ∀ (es : List DiskEvent) {r : DiskRun} (_ : t.Over r.disk) (_ : ∀ e ∈ es, NoWrite e),
    t.Over (es.foldl (diskEvent irq) r).disk ∧ diskWrites irq r es = [] ∧
      (es.foldl (diskEvent irq) r).raised = r.raised
  | [], _, h, _ => ⟨h, rfl, rfl⟩
  | e :: es, r, h, hes => by
    rw [List.forall_mem_cons] at hes
    obtain ⟨hnext, hnone, hraised⟩ := h.event hes.1 irq r.mem r.raised
    obtain ⟨hend, hlog, hraised'⟩ := Over.run irq es hnext hes.2
    refine ⟨hend, ?_, hraised'.trans hraised⟩
    rw [diskWrites, hnone]
    exact hlog

/-- The transfer after `k` words: under way, or over with one DSKBLK more. -/
def After (t : DiskStream) (k : Nat) (d : DiskState) (blocks blocks' : Nat) : Prop :=
  if k < t.words then t.At k d ∧ blocks' = blocks else t.Over d ∧ blocks' = blocks + 1

/-- **A run of grants** moves the words of the ring one after the other, as long as none lies across the end. -/
theorem At.run (irq : Bool) : ∀ (es : List DiskEvent) {r : DiskRun} {i : Nat} (_ : t.At i r.disk)
    (_ : ∀ e ∈ es, NoWrite e) (_ : ∀ j < t.words, j < i + diskGrants es → t.Whole j),
    t.After (i + diskGrants es) (es.foldl (diskEvent irq) r).disk r.blocks (es.foldl (diskEvent irq) r).blocks ∧
      diskWrites irq r es = ((List.range' i (min (diskGrants es) (t.words - i))).map t.store)
  | [], r, i, h, _, _ => by
    refine ⟨?_, rfl⟩
    have hlt : i + diskGrants [] < t.words := h.lt
    unfold After
    rw [if_pos hlt]
    exact ⟨h, rfl⟩
  | e :: es, r, i, h, hes, hwhole => by
    rw [List.forall_mem_cons] at hes
    have hgrants : diskGrants (e :: es) = e.grants + diskGrants es := by
      unfold diskGrants
      rw [List.map_cons, List.sum_cons]
    by_cases hg : e = .grant
    · subst hg
      have hone : diskGrants (.grant :: es) = diskGrants es + 1 := hgrants.trans (Nat.add_comm _ _)
      rw [hone] at hwhole ⊢
      have hw : t.Whole i := hwhole i h.lt (by omega)
      have hwrite : diskEventWrite r.disk .grant = some (t.store i) := by
        show diskGrantWrite r.disk = _
        rw [h.write, if_pos hw]
        rfl
      have hstep := h.grant hw irq r.mem r.raised
      have hlt := h.lt
      by_cases hmore : i + 1 < t.words
      · rw [if_pos hmore] at hstep
        obtain ⟨hrest, hlog⟩ := At.run irq es hstep.1 hes.2 fun j hj hji => hwhole j hj (by omega)
        have hblocks : (diskEvent irq r .grant).blocks = r.blocks := hstep.2
        have hsum : i + (diskGrants es + 1) = i + 1 + diskGrants es := by omega
        have hcount : min (diskGrants es + 1) (t.words - i) = min (diskGrants es) (t.words - (i + 1)) + 1 := by omega
        constructor
        · rw [hsum]
          rw [hblocks] at hrest
          exact hrest
        · rw [diskWrites, hwrite, hlog, hcount]
          rfl
      · rw [if_neg hmore] at hstep
        obtain ⟨hend, hlog, hraised⟩ := Over.run irq es hstep.1 hes.2
        constructor
        · unfold After
          rw [if_neg (by omega)]
          refine ⟨hend, ?_⟩
          unfold DiskRun.blocks at hstep ⊢
          rw [List.foldl_cons, hraised]
          exact hstep.2
        · have hcount : min (diskGrants es + 1) (t.words - i) = 1 := by omega
          rw [diskWrites, hwrite, hlog, hcount]
          rfl
    · have hzero : e.grants = 0 := by
        cases e with
        | grant => exact absurd rfl hg
        | _ => rfl
      rw [hgrants, hzero, Nat.zero_add] at hwhole ⊢
      obtain ⟨hnext, hnone, hraised⟩ := h.other hes.1 hg irq r.mem r.raised
      obtain ⟨hrest, hlog⟩ := At.run irq es hnext hes.2 hwhole
      constructor
      · have hblocks : (diskEvent irq r e).blocks = r.blocks := congrArg (List.count paulaIntDskblk) hraised
        rw [← hblocks]
        exact hrest
      · rw [diskWrites, hnone]
        exact hlog

/-! ## The end of the track -/

theorem diskGrants_replicate (k : Nat) : diskGrants (List.replicate k DiskEvent.grant) = k := by
  unfold diskGrants
  rw [List.map_replicate, List.sum_replicate_nat]
  exact Nat.mul_one k

/-- No word lies across the end when the start is even, or the last word ends before it. -/
theorem whole_of (h : t.start % 2 = 0 ∨ t.start + 2 * t.words ≤ floppyMfmTrackBytesPal) : ∀ i < t.words, t.Whole i := by
  intro i hi
  unfold Whole floppyMfmTrackBytesPal at *
  rcases h with heven | hfits
  · omega
  · rw [Nat.mod_eq_of_lt (by omega)]
    omega

/-- The words of the ring before the `k`-th, then the first word of the track in its place. -/
theorem At.seam (irq : Bool) {r : DiskRun} (h : t.At 0 r.disk) {k : Nat} (hk : k < t.words) (hwhole : ∀ j < k, t.Whole j)
    (hseam : ¬ t.Whole k) :
    diskWrites irq r (List.replicate (k + 1) .grant) =
      (List.range k).map t.store ++ [(t.base + 2 * UInt32.ofNat k, readBe16 t.buf 0)] := by
  have hgrants := diskGrants_replicate k
  have hno : ∀ e ∈ List.replicate k DiskEvent.grant, NoWrite e := by
    intro e he addr value drive
    rw [List.eq_of_mem_replicate he]
    exact DiskEvent.noConfusion
  obtain ⟨hafter, hlog⟩ := At.run irq (List.replicate k .grant) h hno fun j _ hj => hwhole j (by omega)
  rw [hgrants, Nat.zero_add] at hafter
  unfold After at hafter
  rw [if_pos hk] at hafter
  rw [hgrants, Nat.sub_zero, Nat.min_eq_left (Nat.le_of_lt hk), ← List.range_eq_range'] at hlog
  rw [List.replicate_succ', diskWrites_append, hlog, diskWrites, diskWrites, List.append_nil]
  show _ ++ (diskGrantWrite _).toList = _
  rw [hafter.1.write, if_neg hseam]
  rfl

end DiskStream

/-! ## The start of a read -/

/-- The drive has a disk whose image holds the track under the head. -/
structure HoldsTrack (drive : FloppyDrive) : Prop where
  media : floppyHasMedia drive = true
  offset : diskTrackOffset drive < drive.adfSize
  room : amigaTrackSize ≤ drive.adfSize - diskTrackOffset drive

/-- The encoder's result for the track under the head, in the disk's buffer. -/
def encodedTrack (d : DiskState) (drive : FloppyDrive) : Option (Nat → UInt8) :=
  floppyMfmEncodeTrack d.dmaTrackBuf floppyMfmTrackBytesPal
    (fun i => drive.adf.getD (fun _ => 0) ((diskTrackOffset drive).toNat + i)) (diskTrackOffset drive / amigaTrackSize)
    amigaSectorsPerTrack

/-- The first sync match under WORDSYNC, or the start of the track. -/
def streamStart (d : DiskState) (buf : Nat → UInt8) : Nat :=
  if d.adkcon &&& adkconWordsync ≠ 0 ∧ diskTrackFindSync buf floppyMfmTrackBytesPal d.dsksync + 1 < floppyMfmTrackBytesPal
  then diskTrackFindSync buf floppyMfmTrackBytesPal d.dsksync
  else 0

theorem streamStart_lt (d : DiskState) (buf : Nat → UInt8) : streamStart d buf + 1 < floppyMfmTrackBytesPal := by
  unfold streamStart
  split
  · rename_i h
    exact h.2
  · decide

/-- The stream that a start sets up. -/
def startStream (d : DiskState) (buf : Nat → UInt8) (value : UInt16) : DiskStream :=
  ⟨buf, streamStart d buf, d.dskptr, (value &&& 0x3FFF).toNat⟩

/-- A track begins with the gap and the first sync mark. -/
theorem trackLongs_head (trackData : Nat → UInt8) (track sectorsPerTrack : UInt32) (gap n : Nat) :
    ∃ rest, trackLongs trackData track sectorsPerTrack gap (n + 1) =
      List.replicate (gap + 1) 0xAAAAAAAA ++ 0x44894489 :: rest := by
  induction n with
  | zero =>
    have hgap : gapLong (List.replicate gap 0xAAAAAAAA) = 0xAAAAAAAA := by
      cases gap with
      | zero => rfl
      | succ g =>
        rw [List.replicate_succ', gapLong, List.getLastD_concat]
        rfl
    refine ⟨sectorCoded trackData track sectorsPerTrack 0, ?_⟩
    rw [trackLongs, trackLongs, hgap, List.replicate_succ', List.append_assoc]
    rfl
  | succ n ih =>
    obtain ⟨rest, hrest⟩ := ih
    rw [trackLongs, hrest, List.append_assoc]
    exact ⟨_, rfl⟩

/-- **The encoded track**: the gap, the first mark, and the rest of 3407 longwords in the first 13628 bytes. -/
theorem encodedTrack_buffer (d : DiskState) (drive : FloppyDrive) :
    ∃ rest, rest.length = 2991 ∧
      encodedTrack d drive =
        some (mfmBuffer d.dmaTrackBuf (List.replicate 415 0xAAAAAAAA ++ 0x44894489 :: rest)) := by
  obtain ⟨last, henc⟩ := floppyMfmEncodeTrack_buffer
    (fun i => drive.adf.getD (fun _ => 0) ((diskTrackOffset drive).toNat + i)) (diskTrackOffset drive / amigaTrackSize)
    d.dmaTrackBuf (show floppyMfmTrackBytesPal / 4 = 414 + 272 * amigaSectorsPerTrack + 1 from rfl)
  have hlength := trackLongs_length (fun i => drive.adf.getD (fun _ => 0) ((diskTrackOffset drive).toNat + i))
    (diskTrackOffset drive / amigaTrackSize) (UInt32.ofNat amigaSectorsPerTrack) 414 amigaSectorsPerTrack
  obtain ⟨rest, hhead⟩ := trackLongs_head (fun i => drive.adf.getD (fun _ => 0) ((diskTrackOffset drive).toNat + i))
    (diskTrackOffset drive / amigaTrackSize) (UInt32.ofNat amigaSectorsPerTrack) 414 10
  change trackLongs _ _ _ 414 amigaSectorsPerTrack = _ at hhead
  rw [hhead] at henc hlength
  refine ⟨rest ++ mfmcodeU32 last [0], ?_, ?_⟩
  · rw [List.length_append, List.length_replicate, List.length_cons] at hlength
    rw [List.length_append, mfmcodeU32_length, List.length_singleton]
    unfold amigaSectorsPerTrack at hlength
    omega
  · rw [List.append_assoc, List.cons_append] at henc
    exact henc

section
variable (dst : Nat → UInt8) (rest : List UInt32)

theorem gap_byte {i : Nat} (h : i < 1660) :
    mfmBuffer dst (List.replicate 415 0xAAAAAAAA ++ 0x44894489 :: rest) i = 0xAA := by
  have hk : i / 4 < (List.replicate 415 (0xAAAAAAAA : UInt32) ++ 0x44894489 :: rest).length := by
    rw [List.length_append, List.length_replicate]
    omega
  have hbyte := mfmBuffer_byte dst hk _ (Nat.mod_lt i (Nat.succ_pos 3))
  rw [Nat.div_add_mod, List.getElem_append_left (by rw [List.length_replicate]; omega), List.getElem_replicate] at hbyte
  rw [hbyte]
  have hall : ∀ j < 4, (be32 0xAAAAAAAA).getD j 0 = 0xAA := by decide
  exact hall _ (Nat.mod_lt i (by decide))

theorem mark_byte {j : Nat} (h : j < 4) :
    mfmBuffer dst (List.replicate 415 0xAAAAAAAA ++ 0x44894489 :: rest) (1660 + j) = (be32 0x44894489).getD j 0 := by
  have hk : 415 < (List.replicate 415 (0xAAAAAAAA : UInt32) ++ 0x44894489 :: rest).length := by
    rw [List.length_append, List.length_replicate, List.length_cons]
    omega
  have hbyte := mfmBuffer_byte dst hk _ h
  rw [List.getElem_append_right (by rw [List.length_replicate])] at hbyte
  simp only [List.length_replicate, Nat.sub_self, List.getElem_cons_zero] at hbyte
  exact hbyte

/-- The encoder leaves the last two bytes of the buffer alone. -/
theorem pad_byte (h : rest.length = 2991) {i : Nat} (hi : 13628 ≤ i) :
    mfmBuffer dst (List.replicate 415 0xAAAAAAAA ++ 0x44894489 :: rest) i = dst i := by
  unfold mfmBuffer writeBytes
  rw [if_neg]
  rw [be32_bytes_length, List.length_append, List.length_replicate, List.length_cons, h]
  omega

end

theorem diskLoadTrack_fields (d : DiskState) (buf : Nat → UInt8) :
    (diskLoadTrack d buf).dmaTrackBuf = buf ∧ (diskLoadTrack d buf).dmaPtrBase = d.dmaPtrBase ∧
      (diskLoadTrack d buf).dmaSrcOffset = UInt32.ofNat (streamStart d buf) := by
  have hoffset : (if d.adkcon &&& adkconWordsync ≠ 0 ∧
        diskTrackFindSync buf floppyMfmTrackBytesPal d.dsksync + 1 < floppyMfmTrackBytesPal
      then UInt32.ofNat (diskTrackFindSync buf floppyMfmTrackBytesPal d.dsksync) else 0) =
      UInt32.ofNat (streamStart d buf) := by
    unfold streamStart
    split <;> rfl
  unfold diskLoadTrack
  simp only
  split
  · exact ⟨rfl, rfl, hoffset⟩
  · exact ⟨rfl, rfl, hoffset⟩

/-- **A read that finds its track** is at its first word. -/
theorem diskStart_at (irq : Bool) (d : DiskState) {drive : FloppyDrive} {value : UInt16} (hread : ReadsWords value)
    (htrack : HoldsTrack drive) {buf : Nat → UInt8} (henc : encodedTrack d drive = some buf) :
    (startStream d buf value).At 0 (diskStartDma irq d drive value).1 := by
  have hmode : (diskStartBase d value).writeMode = false := by
    show (value &&& 0x4000 != 0) = false
    rw [hread.1]
    rfl
  have hpos : 0 < (value &&& 0x3FFF).toNat := Nat.pos_of_ne_zero fun e => hread.2 (UInt16.toNat_inj.mp e)
  have hlen : ((value &&& 0x3FFF).toUInt32 == 0) = false := by
    rw [beq_eq_false_iff_ne]
    intro e
    have hzero := congrArg UInt32.toNat e
    rw [UInt16.toNat_toUInt32] at hzero
    exact absurd hzero (Nat.ne_of_gt hpos)
  have hsmall : (value &&& 0x3FFF).toNat ≤ 0x3FFF := UInt16.le_iff_toNat_le.mp (and_le_right_uint16 value 0x3FFF)
  have hguard : ¬ (diskTrackOffset drive ≥ drive.adfSize ∨ amigaTrackSize > drive.adfSize - diskTrackOffset drive) := by
    rintro (hge | hgt)
    · exact absurd htrack.offset (UInt32.not_lt.mpr hge)
    · exact absurd hgt (UInt32.not_lt.mpr htrack.room)
  have hbuf : floppyMfmEncodeTrack (diskStartBase d value).dmaTrackBuf floppyMfmTrackBytesPal
      (fun i => drive.adf.getD (fun _ => 0) ((diskTrackOffset drive).toNat + i)) (diskTrackOffset drive / amigaTrackSize)
      amigaSectorsPerTrack = some buf := henc
  unfold diskStartDma
  simp only [hmode, hlen, htrack.media, hguard, hbuf, Bool.or_false, Bool.not_true, Bool.false_eq_true, if_false]
  have hsame := diskLoadTrack_same (diskStartBase d value) buf
  obtain ⟨hloaded, hbase, hoffset⟩ := diskLoadTrack_fields (diskStartBase d value) buf
  generalize diskLoadTrack (diskStartBase d value) buf = loaded at hsame hloaded hbase hoffset ⊢
  rw [diskMaybeEmitSync_eq]
  have hwords : (value &&& 0x3FFF).toNat < 0x4000 := by
    omega
  refine ⟨hsame.active, hsame.mode.trans hmode, hloaded, hsame.track, hbase, ?_,
    hsame.done.trans (show (0 : UInt32) = 2 * UInt32.ofNat 0 by decide), ?_, hpos, hwords⟩
  · show (value &&& 0x3FFF).toUInt32 <<< 1 = 2 * UInt32.ofNat (value &&& 0x3FFF).toNat
    apply UInt32.toNat_inj.mp
    rw [DiskStream.two_mul_ofNat_toNat (by omega), UInt32.toNat_shiftLeft, UInt16.toNat_toUInt32]
    simp only [UInt32.reduceToNat, Nat.reduceMod, Nat.shiftLeft_eq]
    omega
  · refine hoffset.trans ?_
    show UInt32.ofNat (streamStart d buf) = UInt32.ofNat ((streamStart d buf + 2 * 0) % floppyMfmTrackBytesPal)
    rw [Nat.mul_zero, Nat.add_zero, Nat.mod_eq_of_lt (Nat.lt_of_succ_lt (streamStart_lt d buf))]

/-! ## The stream of a read -/

/-- **The words of the ring, to the end of the length and no further.** Whatever grants come, with no register write
between them, the stores are the words of the track read as a ring from `s` on; with the last one the transfer is over,
DSKPT is at the end and DSKBLK has been raised once. -/
def ReadsRing (irq : Bool) (d : DiskState) (drive : FloppyDrive) (value : UInt16) : Prop :=
  ∃ buf, encodedTrack d drive = some buf ∧
    ∀ (mem : ChipRam) (es : List DiskEvent), (∀ e ∈ es, DiskStream.NoWrite e) →
      let t := startStream d buf value
      let r : DiskRun := ⟨(diskStartDma irq d drive value).1, mem, (diskStartDma irq d drive value).2⟩
      diskWrites irq r es = (List.range (min (diskGrants es) t.words)).map t.store ∧
        (es.foldl (diskEvent irq) r).mem = storeWords mem (diskWrites irq r es) ∧
        t.After (diskGrants es) (es.foldl (diskEvent irq) r).disk 0 (es.foldl (diskEvent irq) r).blocks

/-- Nothing but the encoder writes the track buffer, and the encoder leaves its last two bytes alone. -/
def TrackPad (d : DiskState) : Prop := d.dmaTrackBuf 13629 = 0

theorem diskStartDma_pad (irq : Bool) {d : DiskState} (h : TrackPad d) (drive : FloppyDrive) (value : UInt16) :
    TrackPad (diskStartDma irq d drive value).1 := by
  unfold diskStartDma
  simp only
  repeat' split
  · exact h
  · exact h
  · exact h
  · exact h
  · rename_i buf henc
    obtain ⟨rest, hlen, hbuf⟩ := encodedTrack_buffer d drive
    have heq : buf = mfmBuffer d.dmaTrackBuf (List.replicate 415 0xAAAAAAAA ++ 0x44894489 :: rest) :=
      Option.some.inj (henc.symm.trans hbuf)
    have hpad : buf 13629 = 0 := by
      rw [heq, pad_byte _ _ hlen (by decide)]
      exact h
    have hloaded := (diskLoadTrack_fields (diskStartBase d value) buf).1
    generalize diskLoadTrack (diskStartBase d value) buf = loaded at hloaded ⊢
    rw [diskMaybeEmitSync_eq]
    exact (congrFun hloaded 13629).trans hpad

theorem trackPad_invariant : DiskInvariant (fun _ _ => True) TrackPad := by
  refine ⟨fun _ _ _ => trivial, fun {r} h irq e _ => ?_, fun _ h => h⟩
  cases e with
  | step cycles =>
    show TrackPad (diskStep r.disk cycles).1
    unfold diskStep
    repeat' split
    all_goals exact h
  | grant =>
    show TrackPad (diskDmaServiceGrant irq r.disk r.mem).disk
    unfold diskDmaServiceGrant
    split
    · exact h
    · simp only
      generalize (if r.disk.dmaSrcOffset + 1 ≥ r.disk.dmaTrackLen then 0 else r.disk.dmaSrcOffset) = src
      have hmoved := (diskMoveWord_fields irq r.disk src (readBe16 r.disk.dmaTrackBuf src.toNat)).1
      generalize diskMoveWord irq r.disk src (readBe16 r.disk.dmaTrackBuf src.toNat) = moved at hmoved ⊢
      have hpad : TrackPad moved.1 := (congrFun hmoved 13629).trans h
      split
      · exact hpad
      · unfold diskFinish
        simp only
        split
        · rw [diskMaybeEmitSync_eq]
          exact hpad
        · exact hpad
  | write addr value drive =>
    show TrackPad (diskWriteReg irq r.disk drive addr value).1
    unfold diskWriteReg
    split
    · exact h
    · exact h
    · unfold diskWriteDsklen
      repeat' split
      · exact h
      · exact h
      · exact diskStartDma_pad irq h drive value
    · unfold diskWriteDsksync
      rw [diskMaybeEmitSync_eq]
      exact h
    · unfold diskWriteAdkcon
      rw [diskMaybeEmitSync_eq]
      exact h
    · exact h
  | read addr =>
    show TrackPad (diskReadReg r.disk addr).1
    unfold diskReadReg
    split <;> exact h
  | select drive => exact h

theorem Reachable.trackPad {ctx : RigelContext} (h : Reachable ctx) : TrackPad ctx.paula.disk := by
  induction h with
  | create config ram => rfl
  | call _ c ih => exact trackPad_invariant.hostCall ih c fun _ _ _ _ => trivial

theorem readsRing_iff (irq : Bool) {d : DiskState} (hpad : TrackPad d) {drive : FloppyDrive} {value : UInt16}
    (hread : ReadsWords value) (htrack : HoldsTrack drive) {buf : Nat → UInt8} (henc : encodedTrack d drive = some buf) :
    ReadsRing irq d drive value ↔
      streamStart d buf % 2 = 0 ∨ streamStart d buf + 2 * (value &&& 0x3FFF).toNat ≤ floppyMfmTrackBytesPal := by
  have hstart := diskStart_at irq d hread htrack henc
  have hraised := (diskStartDma_transfer irq d drive hread).2
  have hlt := streamStart_lt d buf
  constructor
  · rintro ⟨buf', henc', hring⟩
    cases Option.some.inj (henc'.symm.trans henc)
    by_contra hnot
    rw [not_or] at hnot
    -- the word that starts on the last byte
    have hodd : streamStart d buf + 2 * ((13629 - streamStart d buf) / 2) = 13629 := by
      unfold floppyMfmTrackBytesPal at hlt hnot
      omega
    have hk : (13629 - streamStart d buf) / 2 < (startStream d buf value).words := by
      show _ < (value &&& 0x3FFF).toNat
      unfold floppyMfmTrackBytesPal at hlt hnot
      omega
    generalize (13629 - streamStart d buf) / 2 = k at hodd hk
    have hwhole : ∀ j < k, (startStream d buf value).Whole j := by
      intro j hj
      show (streamStart d buf + 2 * j) % 13630 + 1 < 13630
      omega
    have hseam : ¬ (startStream d buf value).Whole k := by
      show ¬ (streamStart d buf + 2 * k) % 13630 + 1 < 13630
      omega
    obtain ⟨rest, hlen, hbuf⟩ := encodedTrack_buffer d drive
    have heq : buf = mfmBuffer d.dmaTrackBuf (List.replicate 415 0xAAAAAAAA ++ 0x44894489 :: rest) :=
      Option.some.inj (henc.symm.trans hbuf)
    have hlast : buf 13629 = 0 := by
      rw [heq, pad_byte _ _ hlen (by decide)]
      exact hpad
    have hfirst : buf 0 = 0xAA ∧ buf 1 = 0xAA := by
      rw [heq]
      exact ⟨gap_byte _ _ (by decide), gap_byte _ _ (by decide)⟩
    have hno : ∀ e ∈ List.replicate (k + 1) DiskEvent.grant, DiskStream.NoWrite e := by
      intro e he addr value drive
      rw [List.eq_of_mem_replicate he]
      exact DiskEvent.noConfusion
    have hlog := (hring ⟨.ocs, 0, false, false, fun _ => 0⟩ (List.replicate (k + 1) .grant) hno).1
    rw [DiskStream.diskGrants_replicate, Nat.min_eq_left hk, List.range_succ, List.map_append,
      DiskStream.At.seam irq (r := ⟨(diskStartDma irq d drive value).1, _, (diskStartDma irq d drive value).2⟩) hstart hk
        hwhole hseam] at hlog
    have hword := (Prod.mk.inj (List.cons.inj (List.append_cancel_left hlog)).1).2
    have hring' : streamWord buf (streamStart d buf) k = 0x00AA := by
      have hwrap : (13629 + 1) % floppyMfmTrackBytesPal = 0 := rfl
      have hback : 13629 % floppyMfmTrackBytesPal = 13629 := rfl
      unfold streamWord
      rw [hodd, hwrap, hback, hlast, hfirst.1]
      decide
    have hcode : readBe16 buf 0 = 0xAAAA := by
      unfold readBe16
      rw [hfirst.1, hfirst.2]
      decide
    have habsurd : (0xAAAA : UInt16) = 0x00AA := hcode.symm.trans (hword.trans hring')
    exact absurd habsurd (by decide)
  · intro h
    refine ⟨buf, henc, fun mem es hes => ?_⟩
    simp only
    have hwhole := DiskStream.whole_of (t := startStream d buf value) h
    obtain ⟨hafter, hlog⟩ := DiskStream.At.run irq es
      (r := ⟨(diskStartDma irq d drive value).1, mem, (diskStartDma irq d drive value).2⟩) hstart hes
      fun j hj _ => hwhole j hj
    rw [Nat.zero_add] at hafter
    rw [Nat.sub_zero, ← List.range_eq_range'] at hlog
    refine ⟨hlog, diskWrites_mem irq es _, ?_⟩
    have hblocks : DiskRun.blocks ⟨(diskStartDma irq d drive value).1, mem, (diskStartDma irq d drive value).2⟩ = 0 := hraised
    rw [hblocks] at hafter
    exact hafter

/-- **When a read streams the track as a ring**: it starts on an even offset, or its last word ends before the end of the
track. -/
theorem diskRead_ring_iff {ctx : RigelContext} (h : Reachable ctx) (irq : Bool) (drive : FloppyDrive) (value : UInt16)
    (hread : ReadsWords value) (htrack : HoldsTrack drive) :
    ∃ buf, encodedTrack ctx.paula.disk drive = some buf ∧
      (ReadsRing irq ctx.paula.disk drive value ↔
        streamStart ctx.paula.disk buf % 2 = 0 ∨
          streamStart ctx.paula.disk buf + 2 * (value &&& 0x3FFF).toNat ≤ floppyMfmTrackBytesPal) := by
  obtain ⟨rest, -, henc⟩ := encodedTrack_buffer ctx.paula.disk drive
  exact ⟨_, henc, readsRing_iff irq h.trackPad hread htrack henc⟩

theorem blankDrive_holds : HoldsTrack blankDrive := ⟨by decide +kernel, by decide +kernel, by decide +kernel⟩

/-- Without WORDSYNC a read starts at the first byte of the track: 16383 words, more than two turns of it. -/
theorem diskRead_ring_two_turns :
    Reachable palMachine ∧ ReadsWords 0xBFFF ∧ HoldsTrack blankDrive ∧
      2 * floppyMfmTrackBytesPal < 2 * ((0xBFFF : UInt16) &&& 0x3FFF).toNat ∧
      ReadsRing true palMachine.paula.disk blankDrive 0xBFFF := by
  have hwords : ReadsWords 0xBFFF := ⟨by decide, by decide⟩
  obtain ⟨buf, -, hiff⟩ := diskRead_ring_iff palMachine_reachable true blankDrive 0xBFFF hwords blankDrive_holds
  refine ⟨palMachine_reachable, hwords, blankDrive_holds, by decide, hiff.mpr (.inl ?_)⟩
  have hoff : palMachine.paula.disk.adkcon &&& adkconWordsync = 0 := by decide +kernel
  unfold streamStart
  rw [if_neg fun h => h.1 hoff]

/-- The two middle bytes of a sync mark, as a sync word, are first met on an odd offset. -/
theorem oddSync_found (dst : Nat → UInt8) (rest : List UInt32) :
    diskTrackFindSync (mfmBuffer dst (List.replicate 415 0xAAAAAAAA ++ 0x44894489 :: rest)) floppyMfmTrackBytesPal 0x8944 =
      1661 := by
  have hfind : ((List.range (floppyMfmTrackBytesPal - 1)).find? fun i =>
      readBe16 (mfmBuffer dst (List.replicate 415 0xAAAAAAAA ++ 0x44894489 :: rest)) i == 0x8944) = some 1661 := by
    rw [List.find?_range_eq_some]
    have hm0 := mark_byte (j := 0) dst rest (by decide)
    have hm1 := mark_byte (j := 1) dst rest (by decide)
    have hm2 := mark_byte (j := 2) dst rest (by decide)
    refine ⟨?_, List.mem_range.mpr (by decide), fun j hj => ?_⟩
    · unfold readBe16
      rw [hm1, hm2]
      decide
    · unfold readBe16
      by_cases hgap : j + 1 < 1660
      · rw [gap_byte dst rest (by omega), gap_byte dst rest hgap]
        decide
      by_cases hedge : j = 1659
      · subst hedge
        rw [gap_byte dst rest (by decide), hm0]
        decide
      · obtain rfl : j = 1660 := by omega
        rw [hm0, hm1]
        decide
  unfold diskTrackFindSync
  rw [hfind]
  rfl

/-- DSKSYNC $8944 with WORDSYNC on. -/
def oddSyncMachine : RigelContext :=
  ([.customWrite 0x07E 0x8944, .customWrite 0x09E 0x8400] : List HostCall).foldl hostCall palMachine

theorem oddSyncMachine_reachable : Reachable oddSyncMachine := palMachine_reachable.calls _

/-- A read of 5985 words that starts on offset 1661: its last word would begin on the last byte of the track. -/
theorem diskRead_ring_seam :
    Reachable oddSyncMachine ∧ ReadsWords 0x9761 ∧ HoldsTrack blankDrive ∧
      ¬ ReadsRing true oddSyncMachine.paula.disk blankDrive 0x9761 := by
  obtain ⟨rest, -, henc⟩ := encodedTrack_buffer oddSyncMachine.paula.disk blankDrive
  have hwords : ReadsWords 0x9761 := ⟨by decide, by decide⟩
  refine ⟨oddSyncMachine_reachable, hwords, blankDrive_holds, ?_⟩
  rw [readsRing_iff true oddSyncMachine_reachable.trackPad hwords blankDrive_holds henc]
  have hsync : oddSyncMachine.paula.disk.dsksync = 0x8944 := by decide +kernel
  have hon : oddSyncMachine.paula.disk.adkcon &&& adkconWordsync ≠ 0 := by decide +kernel
  have hstart : streamStart oddSyncMachine.paula.disk
      (mfmBuffer oddSyncMachine.paula.disk.dmaTrackBuf (List.replicate 415 0xAAAAAAAA ++ 0x44894489 :: rest)) = 1661 := by
    unfold streamStart
    rw [hsync, oddSync_found, if_pos ⟨hon, by decide⟩]
  rw [hstart]
  decide

end Rigel
