import Rigel.BusSame
import Rigel.Invariant

/-!
# DiskTransfer — a disk transfer from its start to DSKBLK

A second DSKLEN write starts a transfer, which is then a countdown (no media, no such track) or a number of words that
granted slots move. `InTransfer c w` is a transfer with `c` cycles or `w` words left; every event of the disk lowers one
of the two or ends the transfer with DSKBLK. A start in write mode, or of no words, sets up neither and never ends.
-/

namespace Rigel

/-! ## Events -/

/-- A disk with the memory it writes to and the masks it has raised. -/
structure DiskRun where
  disk : DiskState
  mem : ChipRam
  raised : List UInt16

inductive DiskEvent where
  | step (cycles : UInt32)
  | grant
  | write (addr : UInt32) (value : UInt16) (drive : FloppyDrive)
  | read (addr : UInt32)
  | select (drive : Nat)

def diskEvent (irq : Bool) (r : DiskRun) : DiskEvent → DiskRun
  | .step cycles => ⟨(diskStep r.disk cycles).1, r.mem, r.raised ++ (diskStep r.disk cycles).2⟩
  | .grant =>
    let g := diskDmaServiceGrant irq r.disk r.mem
    ⟨g.disk, g.mem, r.raised ++ g.irqs⟩
  | .write addr value drive =>
    ⟨(diskWriteReg irq r.disk drive addr value).1, r.mem, r.raised ++ (diskWriteReg irq r.disk drive addr value).2⟩
  | .read addr => { r with disk := (diskReadReg r.disk addr).1 }
  | .select drive => { r with disk := { r.disk with drive := drive } }

/-- The event neither cancels a transfer nor starts another one: a DSKLEN write may only arm. -/
def KeepsTransfer (r : DiskRun) : DiskEvent → Prop
  | .write addr value _ => addr = 0x024 → value &&& dsklenDmaen ≠ 0 ∧ r.disk.dmaArmed = false
  | _ => True

def DiskEvent.cycles : DiskEvent → Nat
  | .step cycles => cycles.toNat
  | _ => 0

def DiskEvent.grants : DiskEvent → Nat
  | .grant => 1
  | _ => 0

def diskCycles (es : List DiskEvent) : Nat := (es.map DiskEvent.cycles).sum
def diskGrants (es : List DiskEvent) : Nat := (es.map DiskEvent.grants).sum

/-- How often DSKBLK has been raised. -/
def DiskRun.blocks (r : DiskRun) : Nat := r.raised.count paulaIntDskblk

/-! ## A transfer -/

/-- An active transfer with `cycles` of its countdown or `words` of its length left. -/
inductive InTransfer (d : DiskState) : Nat → Nat → Prop
  | countdown (active : d.dmaActive = true) (total : d.dmaBytesTotal = 0) (pos : 0 < d.countdown.toNat) :
      InTransfer d d.countdown.toNat 0
  | words {w : Nat} (active : d.dmaActive = true) (mode : d.writeMode = false) (track : 2 ≤ d.dmaTrackLen)
      (left : d.dmaBytesDone.toNat + 2 * w = d.dmaBytesTotal.toNat) (small : d.dmaBytesTotal.toNat < 65536)
      (pos : 0 < w) : InTransfer d 0 w

/-- The fields that a transfer is made of. -/
structure SameTransfer (d d' : DiskState) : Prop where
  active : d'.dmaActive = d.dmaActive
  mode : d'.writeMode = d.writeMode
  countdown : d'.countdown = d.countdown
  total : d'.dmaBytesTotal = d.dmaBytesTotal
  done : d'.dmaBytesDone = d.dmaBytesDone
  track : d'.dmaTrackLen = d.dmaTrackLen

theorem InTransfer.same {d d' : DiskState} {c w : Nat} (h : InTransfer d c w) (hs : SameTransfer d d') :
    InTransfer d' c w := by
  cases h with
  | countdown active total pos =>
    rw [← hs.countdown] at pos ⊢
    exact .countdown (hs.active.trans active) (hs.total.trans total) pos
  | words active mode track left small pos =>
    exact .words (hs.active.trans active) (hs.mode.trans mode) (by rw [hs.track]; exact track)
      (by rw [hs.done, hs.total]; exact left) (by rw [hs.total]; exact small) pos

theorem InTransfer.active {d : DiskState} {c w : Nat} (h : InTransfer d c w) : d.dmaActive = true := by
  cases h with
  | countdown active _ _ => exact active
  | words active _ _ _ _ _ => exact active

theorem InTransfer.pos {d : DiskState} {c w : Nat} (h : InTransfer d c w) : 0 < c ∨ 0 < w := by
  cases h with
  | countdown _ _ pos => exact Or.inl pos
  | words _ _ _ _ _ pos => exact Or.inr pos

/-- An active transfer has a countdown or bytes left, in the terms of its fields. -/
theorem InTransfer.live {d : DiskState} {c w : Nat} (h : InTransfer d c w) :
    d.countdown ≠ 0 ∨ d.dmaBytesDone < d.dmaBytesTotal := by
  cases h with
  | countdown _ _ pos =>
    left
    intro e
    rw [e] at pos
    exact absurd pos (by decide)
  | words _ _ _ left _ pos =>
    right
    rw [UInt32.lt_iff_toNat_lt]
    omega

/-! ## What each event does -/

theorem diskMaybeEmitSync_same (irq : Bool) (d : DiskState) :
    SameTransfer d (diskMaybeEmitSync irq d).1 ∧ (diskMaybeEmitSync irq d).2.count paulaIntDskblk = 0 := by
  unfold diskMaybeEmitSync
  split
  · refine ⟨⟨rfl, rfl, rfl, rfl, rfl, rfl⟩, ?_⟩
    show List.count paulaIntDskblk (if irq then [paulaIntDsksyn] else []) = 0
    revert irq
    decide
  · exact ⟨⟨rfl, rfl, rfl, rfl, rfl, rfl⟩, rfl⟩

theorem diskReadReg_same (d : DiskState) (addr : UInt32) : SameTransfer d (diskReadReg d addr).1 := by
  unfold diskReadReg
  split <;> exact ⟨rfl, rfl, rfl, rfl, rfl, rfl⟩

/-- A register write other than a cancel or a start. -/
theorem diskWriteReg_same (irq : Bool) (d : DiskState) (drive : FloppyDrive) {addr : UInt32} {value : UInt16}
    (h : addr = 0x024 → value &&& dsklenDmaen ≠ 0 ∧ d.dmaArmed = false) :
    SameTransfer d (diskWriteReg irq d drive addr value).1 ∧
      (diskWriteReg irq d drive addr value).2.count paulaIntDskblk = 0 := by
  unfold diskWriteReg
  split
  · exact ⟨⟨rfl, rfl, rfl, rfl, rfl, rfl⟩, rfl⟩
  · exact ⟨⟨rfl, rfl, rfl, rfl, rfl, rfl⟩, rfl⟩
  · obtain ⟨hen, harm⟩ := h rfl
    simp only [diskWriteDsklen, if_neg hen, harm, Bool.not_false, if_true]
    exact ⟨⟨rfl, rfl, rfl, rfl, rfl, rfl⟩, rfl⟩
  · obtain ⟨hs, hc⟩ := diskMaybeEmitSync_same irq { d with dsksync := value, syncIrqFired := false }
    exact ⟨⟨hs.active, hs.mode, hs.countdown, hs.total, hs.done, hs.track⟩, hc⟩
  · obtain ⟨hs, hc⟩ := diskMaybeEmitSync_same irq { d with adkcon := applySetclr d.adkcon value }
    exact ⟨⟨hs.active, hs.mode, hs.countdown, hs.total, hs.done, hs.track⟩, hc⟩
  · exact ⟨⟨rfl, rfl, rfl, rfl, rfl, rfl⟩, rfl⟩

/-- One word moved: the counters, and no DSKBLK. -/
theorem diskMoveWord_counts (irq : Bool) (d : DiskState) (src : UInt32) (word : UInt16) :
    SameTransfer { d with dmaBytesDone := d.dmaBytesDone + 2 } (diskMoveWord irq d src word).1 ∧
      (diskMoveWord irq d src word).2.count paulaIntDskblk = 0 := by
  unfold diskMoveWord
  simp only
  split
  · obtain ⟨hs, hc⟩ := diskMaybeEmitSync_same irq { diskLoadDskbytr d word with syncSeen := true }
    exact ⟨⟨hs.active, hs.mode, hs.countdown, hs.total, rfl, hs.track⟩, hc⟩
  · exact ⟨⟨rfl, rfl, rfl, rfl, rfl, rfl⟩, rfl⟩

theorem diskFinish_blocks (irq : Bool) (d : DiskState) :
    (diskFinish irq d).1.dmaActive = false ∧ (diskFinish irq d).2.count paulaIntDskblk = 1 := by
  unfold diskFinish
  refine ⟨rfl, ?_⟩
  simp only [List.count_append]
  split
  · rw [(diskMaybeEmitSync_same irq { d with syncIrqFired := false }).2]
    decide
  · rfl

/-- What an event leaves of a transfer: less of it, or its end with one more DSKBLK. -/
def TransferGoesOn (r r' : DiskRun) (c w : Nat) : Prop :=
  (InTransfer r'.disk c w ∧ r'.blocks = r.blocks) ∨ (r'.disk.dmaActive = false ∧ r'.blocks = r.blocks + 1)

theorem InTransfer.step {r : DiskRun} {c w : Nat} (h : InTransfer r.disk c w) (irq : Bool) (cycles : UInt32) :
    TransferGoesOn r (diskEvent irq r (.step cycles)) (c - cycles.toNat) w := by
  unfold TransferGoesOn DiskRun.blocks diskEvent
  simp only [List.count_append]
  cases h with
  | countdown active total pos =>
    have hne : (r.disk.countdown == 0) = false := by
      rw [beq_eq_false_iff_ne]
      intro e
      rw [e] at pos
      exact absurd pos (by decide)
    have hz : ¬ (0 : UInt32) > 0 := by decide
    by_cases hc : r.disk.countdown > cycles
    · have hlt : cycles.toNat < r.disk.countdown.toNat := UInt32.lt_iff_toNat_lt.mp hc
      have hsub : (r.disk.countdown - cycles).toNat = r.disk.countdown.toNat - cycles.toNat :=
        UInt32.toNat_sub_of_le _ _ (UInt32.le_of_lt hc)
      left
      simp only [diskStep, active, total, hne, hz, hc, if_true, Bool.not_true, decide_false, Bool.or_false,
        Bool.false_eq_true, if_false, List.count_nil, Nat.add_zero, and_true]
      rw [← hsub]
      exact .countdown rfl rfl (by simp only [hsub]; omega)
    · right
      simp only [diskStep, active, total, hne, hz, hc, if_false, Bool.not_true, decide_false, Bool.or_false,
        Bool.false_eq_true, diskComplete, true_and]
      rfl
  | words active mode track left small pos =>
    have hpos : r.disk.dmaBytesTotal > 0 := by
      rw [gt_iff_lt, UInt32.lt_iff_toNat_lt]
      simp only [UInt32.reduceToNat]
      omega
    left
    simp only [diskStep, active, hpos, decide_true, Bool.not_true, Bool.false_or, Bool.true_or, if_true,
      List.count_nil, Nat.add_zero, and_true, Nat.zero_sub]
    exact .words active mode track left small pos

theorem InTransfer.grant {r : DiskRun} {c w : Nat} (h : InTransfer r.disk c w) (irq : Bool) :
    TransferGoesOn r (diskEvent irq r .grant) c (w - 1) := by
  unfold TransferGoesOn DiskRun.blocks diskEvent
  simp only [List.count_append]
  cases h with
  | countdown active total pos =>
    left
    rw [diskGrant_idle irq total]
    exact ⟨.countdown active total pos, rfl⟩
  | words active mode track left small pos =>
    have hlt : r.disk.dmaBytesDone < r.disk.dmaBytesTotal := by
      rw [UInt32.lt_iff_toNat_lt]
      omega
    have htrack : ¬ r.disk.dmaTrackLen < 2 := UInt32.not_lt.mpr track
    have hwants : diskDmaWantsService r.disk = true := by simp [diskDmaWantsService, active, mode, hlt]
    unfold diskDmaServiceGrant
    simp only [hwants, htrack, Bool.not_true, decide_false, Bool.or_false, Bool.false_eq_true, if_false]
    generalize (if r.disk.dmaSrcOffset + 1 ≥ r.disk.dmaTrackLen then 0 else r.disk.dmaSrcOffset) = src
    obtain ⟨hs, hc⟩ := diskMoveWord_counts irq r.disk src (readBe16 r.disk.dmaTrackBuf src.toNat)
    generalize diskMoveWord irq r.disk src (readBe16 r.disk.dmaTrackBuf src.toNat) = moved at hs hc ⊢
    have hdone : moved.1.dmaBytesDone.toNat = r.disk.dmaBytesDone.toNat + 2 := by
      rw [hs.done, UInt32.toNat_add]
      simp only [UInt32.reduceToNat]
      omega
    have htotal : moved.1.dmaBytesTotal.toNat = r.disk.dmaBytesTotal.toNat := by rw [hs.total]
    split
    · rename_i hmore
      rw [UInt32.lt_iff_toNat_lt] at hmore
      left
      have hmoved : InTransfer moved.1 0 (w - 1) :=
        .words (hs.active.trans active) (hs.mode.trans mode) (by rw [hs.track]; exact track) (by omega) (by omega)
          (by omega)
      refine ⟨hmoved, ?_⟩
      rw [hc]
      rfl
    · right
      obtain ⟨hi, hb⟩ := diskFinish_blocks irq moved.1
      refine ⟨hi, ?_⟩
      rw [List.count_append, hc, hb]

/-- **Every event of the disk but a cancel and a start carries a transfer on.** -/
theorem InTransfer.event {r : DiskRun} {c w : Nat} (h : InTransfer r.disk c w) (irq : Bool) {e : DiskEvent}
    (hk : KeepsTransfer r e) : TransferGoesOn r (diskEvent irq r e) (c - e.cycles) (w - e.grants) := by
  cases e with
  | step cycles => exact h.step irq cycles
  | grant => exact h.grant irq
  | write addr value drive =>
    obtain ⟨hs, hc⟩ := diskWriteReg_same irq r.disk drive hk
    left
    refine ⟨h.same hs, ?_⟩
    simp only [DiskRun.blocks, diskEvent, List.count_append, hc, Nat.add_zero]
  | read addr => exact Or.inl ⟨h.same (diskReadReg_same _ _), rfl⟩
  | select drive => exact Or.inl ⟨h.same ⟨rfl, rfl, rfl, rfl, rfl, rfl⟩, rfl⟩

theorem diskIdle_event {r : DiskRun} (h : r.disk.dmaActive = false) (irq : Bool) {e : DiskEvent}
    (hk : KeepsTransfer r e) :
    (diskEvent irq r e).disk.dmaActive = false ∧ (diskEvent irq r e).blocks = r.blocks := by
  cases e with
  | step cycles => simp [diskEvent, diskStep, h, DiskRun.blocks]
  | grant => simp [diskEvent, diskDmaServiceGrant, diskDmaWantsService, h, DiskRun.blocks]
  | write addr value drive =>
    obtain ⟨hs, hc⟩ := diskWriteReg_same irq r.disk drive hk
    refine ⟨hs.active.trans h, ?_⟩
    simp only [DiskRun.blocks, diskEvent, List.count_append, hc, Nat.add_zero]
  | read addr => exact ⟨(diskReadReg_same _ _).active.trans h, rfl⟩
  | select drive => exact ⟨h, rfl⟩

/-! ## A whole run -/

theorem diskIdle_run (irq : Bool) : ∀ (es : List DiskEvent) {r : DiskRun} (_ : r.disk.dmaActive = false)
    (_ : AlongRun (diskEvent irq) KeepsTransfer r es),
    (es.foldl (diskEvent irq) r).disk.dmaActive = false ∧ (es.foldl (diskEvent irq) r).blocks = r.blocks
  | [], _, h, _ => ⟨h, rfl⟩
  | e :: es, r, h, hrun => by
    obtain ⟨hi, hb⟩ := diskIdle_event h irq hrun.1
    obtain ⟨hi', hb'⟩ := diskIdle_run irq es hi hrun.2
    exact ⟨hi', hb'.trans hb⟩

/-- **A transfer over a run.** -/
theorem InTransfer.run (irq : Bool) : ∀ (es : List DiskEvent) {r : DiskRun} {c w : Nat} (_ : InTransfer r.disk c w)
    (_ : AlongRun (diskEvent irq) KeepsTransfer r es),
    TransferGoesOn r (es.foldl (diskEvent irq) r) (c - diskCycles es) (w - diskGrants es)
  | [], _, _, _, h, _ => Or.inl ⟨h, rfl⟩
  | e :: es, r, c, w, h, hrun => by
    have hc : c - diskCycles (e :: es) = c - e.cycles - diskCycles es := by
      simp only [diskCycles, List.map_cons, List.sum_cons]
      omega
    have hw : w - diskGrants (e :: es) = w - e.grants - diskGrants es := by
      simp only [diskGrants, List.map_cons, List.sum_cons]
      omega
    rw [hc, hw]
    rcases h.event irq hrun.1 with ⟨hon, hb⟩ | ⟨hi, hb⟩
    · rcases InTransfer.run irq es hon hrun.2 with ⟨hon', hb'⟩ | ⟨hi', hb'⟩
      · exact Or.inl ⟨hon', hb'.trans hb⟩
      · exact Or.inr ⟨hi', by rw [List.foldl_cons, hb', hb]⟩
    · obtain ⟨hi', hb'⟩ := diskIdle_run irq es hi hrun.2
      exact Or.inr ⟨hi', hb'.trans hb⟩

/-! ## The start -/

/-- A read of at least one word. -/
def ReadsWords (value : UInt16) : Prop := value &&& 0x4000 = 0 ∧ value &&& 0x3FFF ≠ 0

theorem diskLoadTrack_same (d : DiskState) (buf : Nat → UInt8) :
    SameTransfer { d with dmaTrackLen := UInt32.ofNat floppyMfmTrackBytesPal } (diskLoadTrack d buf) := by
  unfold diskLoadTrack
  simp only
  split <;> exact ⟨rfl, rfl, rfl, rfl, rfl, rfl⟩

/-- A start that reads words sets up a countdown or a length; every other one neither. -/
theorem diskStartDma_transfer (irq : Bool) (d : DiskState) (drive : FloppyDrive) {value : UInt16} (h : ReadsWords value) :
    (∃ c w, InTransfer (diskStartDma irq d drive value).1 c w) ∧
      (diskStartDma irq d drive value).2.count paulaIntDskblk = 0 := by
  have hmode : (diskStartBase d value).writeMode = false := by
    show (value &&& 0x4000 != 0) = false
    rw [h.1]
    rfl
  have hlen : ((value &&& 0x3FFF).toUInt32 == 0) = false := by
    rw [beq_eq_false_iff_ne]
    intro e
    apply h.2
    have hn := congrArg UInt32.toNat e
    rw [UInt16.toNat_toUInt32] at hn
    exact UInt16.toNat_inj.mp hn
  have hg : ((diskStartBase d value).writeMode || (value &&& 0x3FFF).toUInt32 == 0) = false := by
    rw [hmode, hlen]
    rfl
  have hfake : ∃ c w, InTransfer { diskStartBase d value with countdown := diskFakeDmaCycles } c w := by
    have hpos : 0 < diskFakeDmaCycles.toNat := by decide
    exact ⟨_, _, .countdown rfl rfl hpos⟩
  unfold diskStartDma
  simp only [hg, Bool.false_eq_true, if_false]
  split
  · exact ⟨hfake, rfl⟩
  split
  · exact ⟨hfake, rfl⟩
  split
  · exact ⟨hfake, rfl⟩
  · rename_i buf _
    have hl := diskLoadTrack_same (diskStartBase d value) buf
    obtain ⟨hs, hc⟩ := diskMaybeEmitSync_same irq (diskLoadTrack (diskStartBase d value) buf)
    generalize diskMaybeEmitSync irq (diskLoadTrack (diskStartBase d value) buf) = loaded at hs hc ⊢
    have hsmall := UInt16.le_iff_toNat_le.mp (and_le_right_uint16 value 0x3FFF)
    simp only [UInt16.reduceToNat] at hsmall
    have htotal : ((value &&& 0x3FFF).toUInt32 <<< 1).toNat = 2 * (value &&& 0x3FFF).toNat := by
      rw [UInt32.toNat_shiftLeft, UInt16.toNat_toUInt32]
      simp only [UInt32.reduceToNat, Nat.reduceMod, Nat.shiftLeft_eq]
      omega
    have hpos : 0 < (value &&& 0x3FFF).toNat := Nat.pos_of_ne_zero fun e => h.2 (UInt16.toNat_inj.mp e)
    have hdone : loaded.1.dmaBytesDone = 0 := hs.done.trans hl.done
    have htrack : loaded.1.dmaTrackLen = UInt32.ofNat floppyMfmTrackBytesPal := hs.track.trans hl.track
    refine ⟨⟨0, (value &&& 0x3FFF).toNat, ?_⟩, hc⟩
    refine .words (hs.active.trans hl.active) (hs.mode.trans (hl.mode.trans hmode)) ?_ ?_ ?_ hpos
    · show 2 ≤ loaded.1.dmaTrackLen
      rw [htrack]
      decide
    · show loaded.1.dmaBytesDone.toNat + _ = ((value &&& 0x3FFF).toUInt32 <<< 1).toNat
      rw [hdone, htotal]
      exact Nat.zero_add _
    · show ((value &&& 0x3FFF).toUInt32 <<< 1).toNat < 65536
      rw [htotal]
      omega

/-- An active transfer with nothing to wait for: no cycle and no grant moves it. -/
structure DiskStuck (d : DiskState) : Prop where
  active : d.dmaActive = true
  countdown : d.countdown = 0
  total : d.dmaBytesTotal = 0

theorem diskStartDma_stuck (irq : Bool) (d : DiskState) (drive : FloppyDrive) {value : UInt16} (h : ¬ ReadsWords value) :
    DiskStuck (diskStartDma irq d drive value).1 := by
  have hg : ((diskStartBase d value).writeMode || (value &&& 0x3FFF).toUInt32 == 0) = true := by
    by_cases hmode : value &&& 0x4000 = 0
    · have hlen : value &&& 0x3FFF = 0 := by
        by_contra hne
        exact h ⟨hmode, hne⟩
      rw [hlen, Bool.or_eq_true]
      exact Or.inr rfl
    · rw [Bool.or_eq_true]
      exact Or.inl (bne_iff_ne.mpr hmode)
  unfold diskStartDma
  simp only [hg, if_true]
  exact ⟨rfl, rfl, rfl⟩

theorem DiskStuck.event {r : DiskRun} (h : DiskStuck r.disk) (irq : Bool) (cycles : UInt32) :
    diskEvent irq (diskEvent irq r (.step cycles)) .grant = r := by
  have hstep : diskEvent irq r (.step cycles) = r := by
    simp [diskEvent, diskStep, h.countdown]
  rw [hstep]
  simp [diskEvent, diskGrant_idle irq h.total]

/-- The events of `n` rounds of one cycle and one grant. -/
def diskRounds : Nat → List DiskEvent
  | 0 => []
  | n + 1 => .step 1 :: .grant :: diskRounds n

theorem DiskStuck.rounds {r : DiskRun} (h : DiskStuck r.disk) (irq : Bool) : ∀ n : Nat,
    (diskRounds n).foldl (diskEvent irq) r = r ∧ AlongRun (diskEvent irq) KeepsTransfer r (diskRounds n) ∧
      diskCycles (diskRounds n) = n ∧ diskGrants (diskRounds n) = n
  | 0 => ⟨rfl, trivial, rfl, rfl⟩
  | n + 1 => by
    obtain ⟨hr, hk, hc, hg⟩ := h.rounds irq n
    have hround := h.event irq 1
    refine ⟨?_, ⟨trivial, trivial, ?_⟩, ?_, ?_⟩
    · rw [diskRounds, List.foldl_cons, List.foldl_cons, hround, hr]
    · rw [hround]
      exact hk
    · have hone : (1 : UInt32).toNat = 1 := rfl
      simp only [diskCycles, diskRounds, List.map_cons, List.sum_cons, DiskEvent.cycles, hone] at hc ⊢
      omega
    · simp only [diskGrants, diskRounds, List.map_cons, List.sum_cons, DiskEvent.grants] at hg ⊢
      omega

/-- The transfer ends: after enough cycles and grants, whatever else happens to the disk, it is inactive and DSKBLK has
been raised exactly once. -/
def DiskCompletes (irq : Bool) (d : DiskState) (raised : List UInt16) : Prop :=
  ∃ n, ∀ mem es, AlongRun (diskEvent irq) KeepsTransfer ⟨d, mem, raised⟩ es → n ≤ diskCycles es → n ≤ diskGrants es →
    (es.foldl (diskEvent irq) ⟨d, mem, raised⟩).disk.dmaActive = false ∧
      (es.foldl (diskEvent irq) ⟨d, mem, raised⟩).blocks = 1

theorem diskStart_completes_iff (irq : Bool) (d : DiskState) (drive : FloppyDrive) (value : UInt16) :
    DiskCompletes irq (diskStartDma irq d drive value).1 (diskStartDma irq d drive value).2 ↔ ReadsWords value := by
  constructor
  · rintro ⟨n, hn⟩
    by_contra hrw
    have hstuck := diskStartDma_stuck irq d drive hrw
    let r : DiskRun :=
      ⟨(diskStartDma irq d drive value).1, ⟨.ocs, 0, false, false, fun _ => 0⟩, (diskStartDma irq d drive value).2⟩
    obtain ⟨hr, hk, hc, hg⟩ := DiskStuck.rounds (r := r) hstuck irq n
    have hend := (hn r.mem (diskRounds n) hk (Nat.le_of_eq hc.symm) (Nat.le_of_eq hg.symm)).1
    rw [hr] at hend
    exact absurd (hend.symm.trans hstuck.active) (by decide)
  · intro hrw
    obtain ⟨⟨c, w, ht⟩, hb⟩ := diskStartDma_transfer irq d drive hrw
    refine ⟨c + w, fun mem es hk hc hg => ?_⟩
    let r : DiskRun := ⟨(diskStartDma irq d drive value).1, mem, (diskStartDma irq d drive value).2⟩
    have hblocks : r.blocks = 0 := hb
    rcases InTransfer.run irq es (r := r) ht hk with ⟨hon, -⟩ | ⟨hi, hb'⟩
    · have hp := hon.pos
      omega
    · exact ⟨hi, by rw [hb', hblocks]⟩

/-! ## The disk of a machine -/

/-- An active transfer has something left to wait for. -/
def DiskSound (d : DiskState) : Prop := d.dmaActive = true → ∃ c w, InTransfer d c w

theorem DiskSound.keeps {r : DiskRun} (h : DiskSound r.disk) (irq : Bool) {e : DiskEvent} (hk : KeepsTransfer r e) :
    DiskSound (diskEvent irq r e).disk := by
  intro hactive
  cases hi : r.disk.dmaActive with
  | false => exact absurd ((diskIdle_event hi irq hk).1.symm.trans hactive) (by decide)
  | true =>
    obtain ⟨c, w, ht⟩ := h hi
    rcases ht.event irq hk with ⟨hon, -⟩ | ⟨hend, -⟩
    · exact ⟨_, _, hon⟩
    · exact absurd (hend.symm.trans hactive) (by decide)

/-- A DSKLEN write that starts a transfer starts one that reads words. -/
def StartsSound (d : DiskState) : DiskEvent → Prop
  | .write addr value _ => addr = 0x024 → value &&& dsklenDmaen ≠ 0 → d.dmaArmed = true → ReadsWords value
  | _ => True

/-- A property that the events of the disk keep, where `E` asks something of the DSKLEN writes alone, and a reset. -/
structure DiskInvariant (E : DiskState → DiskEvent → Prop) (P : DiskState → Prop) : Prop where
  free : ∀ d e, (∀ value drive, e ≠ .write 0x024 value drive) → E d e
  event : ∀ {r : DiskRun}, P r.disk → ∀ (irq : Bool) {e : DiskEvent}, E r.disk e → P (diskEvent irq r e).disk
  reset : ∀ {d : DiskState} (drive : Nat), P d → P { diskReset d with drive := drive }

/-- **Reading starts keep a disk sound.** -/
theorem diskSound_invariant : DiskInvariant StartsSound DiskSound := by
  refine ⟨fun d e he => ?_, fun {r} h irq e hs => ?_, fun _ _ hactive => Bool.noConfusion hactive⟩
  · cases e with
    | write addr value drive =>
      rintro rfl
      exact absurd rfl (he value drive)
    | _ => trivial
  by_cases hk : KeepsTransfer r e
  · exact h.keeps irq hk
  · cases e with
    | write addr value drive =>
      have ha : addr = 0x024 := by
        by_contra hne
        exact hk fun e => absurd e hne
      subst ha
      show DiskSound (diskWriteDsklen irq r.disk drive value).1
      unfold diskWriteDsklen
      by_cases hen : value &&& dsklenDmaen = 0
      · rw [if_pos hen]
        exact fun hactive => Bool.noConfusion hactive
      · cases harm : r.disk.dmaArmed with
        | false => exact absurd (fun _ => ⟨hen, harm⟩) hk
        | true =>
          rw [if_neg hen, Bool.not_true, if_neg (by decide)]
          exact fun _ => (diskStartDma_transfer irq r.disk drive (hs rfl hen harm)).1
    | _ => exact absurd trivial hk

section
variable {E : DiskState → DiskEvent → Prop} {P : DiskState → Prop} (hP : DiskInvariant E P)
include hP

variable {ctx : RigelContext} (h : P ctx.paula.disk)
include h

theorem DiskInvariant.customWrite {addr : UInt32} {value : UInt16}
    (hs : ∀ drive, E ctx.paula.disk (.write addr value drive)) : P (customRegsWrite16 ctx addr value).paula.disk := by
  rw [customRegsWrite16_disk]
  unfold diskAfterWrite
  split
  · exact hP.event (r := ⟨ctx.paula.disk, ctx.ram, []⟩) h ctx.config.dsksynIrq (hs (ctx.floppy ctx.paula.disk.drive))
  · exact h

theorem DiskInvariant.copper : P (rigelCopperServiceStepProgram ctx).paula.disk := by
  rcases copperService_write ctx with ⟨-, c, hc⟩ | ⟨reg, value, c, c', -, hreg, hc⟩
  · rw [hc]
    exact h
  · have hbefore : P (copperWriting ctx c).paula.disk := h
    have hwrite := hP.customWrite hbefore fun drive => hP.free _ (.write reg value drive) (by
      rintro value' drive' he
      rw [(DiskEvent.write.inj he).1] at hreg
      exact absurd hreg (by decide))
    rw [hc]
    exact hwrite

theorem DiskInvariant.dispatch (owner : SlotOwner) (hpos : UInt16) : P (dispatchSlot owner ctx hpos).paula.disk := by
  cases owner with
  | copper => exact hP.copper h
  | disk =>
    simp only [dispatchSlot, diskSlot, raiseIrqSources_disk]
    exact hP.event (r := ⟨ctx.paula.disk, ctx.ram, []⟩) (e := .grant) h ctx.config.dsksynIrq
      (hP.free _ _ fun _ _ => DiskEvent.noConfusion)
  | blitter =>
    simp only [dispatchSlot, blitterSlot, raiseIrqSources_disk]
    exact h
  | bitplane =>
    simp only [dispatchSlot, bitplaneSlot]
    split <;> exact h
  | _ => exact h

theorem DiskInvariant.clock : P (agnusSlotSchedulerStep ctx).paula.disk := by
  have hr : P (schedulerRestoreDsken (schedulerPrepare ctx)).paula.disk := by
    rw [(slotReady ctx).paula]
    exact h
  have hd := hP.dispatch hr (slotOwner (schedulerPrepare ctx)) (schedulerPrepare ctx).agnus.scheduler.hpos
  unfold agnusSlotSchedulerStep schedulerAdvance schedulerAtVertb schedulerAtLineStart
  repeat' split
  all_goals exact hd

omit h in
theorem DiskInvariant.clocks : ∀ (n : Nat) {ctx : RigelContext} (_ : P ctx.paula.disk),
    P (agnusSlotSchedulerStepUntil ctx n).paula.disk
  | 0, _, h => h
  | n + 1, _, h => DiskInvariant.clocks n (hP.clock h)

theorem DiskInvariant.settle (before : BeamState) (cycles : UInt32) : P (chipsetSettle before ctx cycles).paula.disk := by
  have hstep : P (diskStep ctx.paula.disk cycles).1 :=
    hP.event (r := ⟨ctx.paula.disk, ctx.ram, []⟩) (e := .step cycles) h ctx.config.dsksynIrq
      (hP.free _ _ fun _ _ => DiskEvent.noConfusion)
  have hpaula : (rigelPaulaStep ctx cycles).paula.disk = (diskStep ctx.paula.disk cycles).1 := by
    simp only [rigelPaulaStep, paulaStepSerial, paulaStepDisk, raiseIrqSources_disk]
    rfl
  unfold chipsetSettle chipsetEclock
  simp only
  rw [← hpaula] at hstep
  split <;> exact hstep

theorem DiskInvariant.step (cycles : UInt64) : P (rigelStep ctx cycles).1.paula.disk := by
  have hstart : P (stepPrologue ctx cycles.toUInt32).paula.disk := by
    unfold stepPrologue
    simp only
    split <;> exact h
  have hrun : P (chipsetRun (clearEventLatch ctx) cycles.toUInt32).paula.disk := by
    rw [chipsetRun_eq_clocks]
    exact hP.clocks _ hstart
  exact hP.settle hrun _ _

/-- **What one call of the host keeps.** -/
theorem DiskInvariant.hostCall (c : HostCall)
    (hs : ∀ addr value drive, c = .customWrite addr value → E ctx.paula.disk (.write addr value drive)) :
    P (hostCall ctx c).paula.disk := by
  have hselect : ∀ {x : RigelContext}, P x.paula.disk → ∀ sel, P (routeDrive x sel).paula.disk := by
    intro x hx sel
    exact hP.event (r := ⟨x.paula.disk, x.ram, []⟩) (e := .select (selectedDrive sel).1) hx false
      (hP.free _ _ fun _ _ => DiskEvent.noConfusion)
  cases c with
  | reset => exact hP.reset 0 h
  | step cycles => exact hP.step h cycles
  | stepUntil target =>
    simp only [Rigel.hostCall, rigelStepUntil]
    split
    · exact h
    · exact hP.step h _
  | customRead addr =>
    have hread : P (diskReadReg ctx.paula.disk addr).1 :=
      hP.event (r := ⟨ctx.paula.disk, ctx.ram, []⟩) (e := .read addr) h false
        (hP.free _ _ fun _ _ => DiskEvent.noConfusion)
    simp only [Rigel.hostCall, customRegsRead16, paulaReadReg]
    repeat' split
    all_goals first
      | exact h
      | exact hread
  | customWrite addr value => exact hP.customWrite h fun drive => hs addr value drive rfl
  | ciaRead id reg => cases id <;> exact h
  | ciaWrite id reg value =>
    cases id with
    | portA => exact h
    | portB =>
      simp only [Rigel.hostCall, rigelCiaWrite]
      split
      · exact hselect (x := { onCiaB (fun b => ciaWriteReg b reg value) ctx with
          floppy := floppyStepAll ctx.floppy (ciaPortBValue (ciaWriteReg ⟨ctx.ciaB, ctx.paula.interrupts⟩ reg value).cia) })
          h _
      · exact h
  | setFire port pressed =>
    simp only [Rigel.hostCall, rigelInputSetFire]
    split <;> exact h
  | floppyInsert drive data size =>
    simp only [Rigel.hostCall, rigelFloppyInsert]
    split
    · exact h
    · refine hselect ?_ _
      exact h
  | floppyEject drive =>
    simp only [Rigel.hostCall, rigelFloppyEject]
    split
    · exact h
    · refine hselect ?_ _
      exact h
  | serialReceive byte =>
    simp only [Rigel.hostCall, rigelSerialReceiveByte, raiseIrqSources_disk]
    exact h
  | _ => exact h

end

/-- A call of the host that starts a transfer starts one that reads words. -/
def StartsRead (ctx : RigelContext) : HostCall → Prop
  | .customWrite addr value => addr = 0x024 → value &&& dsklenDmaen ≠ 0 → ctx.paula.disk.dmaArmed = true → ReadsWords value
  | _ => True

theorem DiskSound.hostCall (ctx : RigelContext) (c : HostCall) (h : DiskSound ctx.paula.disk) (hs : StartsRead ctx c) :
    DiskSound (hostCall ctx c).paula.disk :=
  diskSound_invariant.hostCall h c (by
    rintro addr value drive rfl
    exact hs)

/-- **Every disk transfer that reads words completes, and no other one does.** A double write of DSKLEN starts a transfer
that ends with one DSKBLK exactly when it reads at least one word; and in every run in which all starts do, no state has
an active transfer with neither a countdown nor bytes left. -/
theorem diskTransfer_completes_iff (irq : Bool) (d : DiskState) (drive : FloppyDrive) (value : UInt16)
    (config : RigelConfig) (ram : ChipRam) (calls : List HostCall) :
    (value &&& dsklenDmaen ≠ 0 → d.dmaArmed = true →
      (DiskCompletes irq (diskWriteDsklen irq d drive value).1 (diskWriteDsklen irq d drive value).2 ↔
        ReadsWords value)) ∧
    (AlongRun hostCall StartsRead (rigelCreate config ram) calls →
      (calls.foldl hostCall (rigelCreate config ram)).paula.disk.dmaActive = true →
      (calls.foldl hostCall (rigelCreate config ram)).paula.disk.countdown ≠ 0 ∨
        (calls.foldl hostCall (rigelCreate config ram)).paula.disk.dmaBytesDone <
          (calls.foldl hostCall (rigelCreate config ram)).paula.disk.dmaBytesTotal) := by
  refine ⟨fun hen harm => ?_, fun hrun hactive => ?_⟩
  · have hstart : diskWriteDsklen irq d drive value = diskStartDma irq d drive value := by
      unfold diskWriteDsklen
      rw [if_neg hen, harm, Bool.not_true, if_neg (by decide)]
    rw [hstart]
    exact diskStart_completes_iff irq d drive value
  · have hfresh : DiskSound (rigelCreate config ram).paula.disk := fun h => Bool.noConfusion h
    have hsound := AlongRun.invariant (fun ctx => DiskSound ctx.paula.disk) DiskSound.hostCall calls _ hfresh hrun
    obtain ⟨c, w, ht⟩ := hsound hactive
    exact ht.live

/-- A drive with a blank image in it. -/
def blankDrive : FloppyDrive := (hostCall palMachine (.floppyInsert 0 (some fun _ => 0) 901120)).floppy 0

/-- A read of sixteen words from an empty drive, with the host stepping on and writing DSKSYNC in the middle of it. -/
def sixteenWordCalls : List HostCall :=
  [.customWrite 0x096 0x8210, .customWrite 0x024 0x8010, .customWrite 0x024 0x8010, .step 30, .customWrite 0x07E 0x4489,
    .step 7]

/-- Sixteen words: from a drive with an image the read ends, and without a medium its countdown stands 37 clocks on. -/
theorem diskTransfer_completes_sixteen_words :
    DiskCompletes true (diskWriteDsklen true { DiskState.cleared with dmaArmed := true } blankDrive 0x8010).1
        (diskWriteDsklen true { DiskState.cleared with dmaArmed := true } blankDrive 0x8010).2 ∧
      (sixteenWordCalls.foldl hostCall palMachine).paula.disk.dmaActive = true ∧
      (sixteenWordCalls.foldl hostCall palMachine).paula.disk.countdown ≠ 0 := by
  have hall := diskTransfer_completes_iff true { DiskState.cleared with dmaArmed := true } blankDrive 0x8010
    ⟨.pal, false, false, true, true⟩ ⟨.ocs, 0x80000, true, true, fun _ => 0⟩ sixteenWordCalls
  have hreads : ReadsWords 0x8010 := ⟨by decide, by decide⟩
  have hrun : AlongRun hostCall StartsRead palMachine sixteenWordCalls :=
    ⟨fun h => absurd h (by decide), fun _ _ _ => hreads, fun _ _ _ => hreads, trivial, fun h => absurd h (by decide),
      trivial, trivial⟩
  have hactive : (sixteenWordCalls.foldl hostCall palMachine).paula.disk.dmaActive = true := by decide +kernel
  refine ⟨(hall.1 (by decide) rfl).mpr hreads, hactive, ?_⟩
  rcases hall.2 hrun hactive with hc | hw
  · exact hc
  · exact absurd hw (by decide +kernel)

/-- A write of one word, double-written: the transfer is active, and nothing is left that could end it. -/
theorem diskTransfer_hangs :
    Reachable ([HostCall.customWrite 0x024 0xC001, .customWrite 0x024 0xC001].foldl hostCall palMachine) ∧
      DiskStuck ([HostCall.customWrite 0x024 0xC001, .customWrite 0x024 0xC001].foldl hostCall palMachine).paula.disk :=
  ⟨palMachine_reachable.calls _, by decide +kernel, by decide +kernel, by decide +kernel⟩

end Rigel
