import Rigel.DiskStream
import Rigel.DriveInvariant
import Rigel.MachineMemory

/-!
# FloppyRead — a track from the image to the guest's buffer

A guest steps the head out until it must be on cylinder 0, steps it in as often as the cylinder says, and reads the track
into chip memory while others use the same memory elsewhere. The reader of MfmTrack then finds the sectors of the image
there.
-/

namespace Rigel

/-! ## The head -/

/-- The direction of a pulse, where the drive takes one. -/
def drivePulse (d : FloppyDrive) (sig : FloppySignals) : Option Bool :=
  if d.connected && sig.selected && sig.step && d.stepLatch then some sig.direction else none

/-- The pulses that a drive takes from what its lines say, in order. -/
def drivePulses (d : FloppyDrive) (sigs : List FloppySignals) : List Bool := collectAlong floppyStep drivePulse d sigs

/-- A pulse moves the head out, or in, as far as there are cylinders. -/
def headMove (cylinder : Nat) (out : Bool) : Nat := if out then cylinder - 1 else min (cylinder + 1) 79

theorem floppyHead_cylinder {d : FloppyDrive} (h : d.cylinder ≤ 79) (step direction : Bool) :
    (floppyHead d step direction).cylinder =
      if step = true ∧ d.stepLatch = true then headMove d.cylinder direction else d.cylinder := by
  unfold floppyHead headMove floppyAdfCylinders
  split
  · simp only
    split
    · rfl
    · split <;> omega
  · split <;> rfl

/-- **One look at the lines**: the head moves by the pulse, if there is one. -/
theorem floppyStep_cylinder {d : FloppyDrive} (h : d.cylinder ≤ 79) (sig : FloppySignals) :
    (floppyStep d sig).cylinder = (drivePulse d sig).elim d.cylinder (headMove d.cylinder) := by
  unfold drivePulse
  obtain ⟨hoff, hstep⟩ | ⟨hconn, hsel, n, hstep⟩ | ⟨hconn, hsel, hstep⟩ := floppyStep_cases d sig
  · rw [hstep, hoff]
    rfl
  · rw [hstep, hconn, hsel]
    rfl
  · obtain ⟨-, hcyl, -, hlatch, -⟩ := floppyMotor_frame { d with selected := true } sig.motor
    generalize floppyMotor { d with selected := true } sig.motor = turned at hcyl hlatch hstep
    have hhead := floppyHead_cylinder (d := { turned with side := sig.side }) (hcyl ▸ h) sig.step sig.direction
    have hturned : turned.cylinder = d.cylinder := hcyl
    have hlatch' : turned.stepLatch = d.stepLatch := hlatch
    rw [hstep]
    refine hhead.trans ?_
    simp only [hturned, hlatch', hconn, hsel, Bool.true_and, Bool.and_eq_true]
    split <;> rfl

theorem headMove_le {c : Nat} (h : c ≤ 79) (out : Bool) : headMove c out ≤ 79 := by
  unfold headMove
  split <;> omega

/-- **The head is where the pulses took it.** -/
theorem drivePulses_cylinder : ∀ (sigs : List FloppySignals) {d : FloppyDrive} (_ : d.cylinder ≤ 79),
    (sigs.foldl floppyStep d).cylinder = (drivePulses d sigs).foldl headMove d.cylinder
  | [], _, _ => rfl
  | sig :: sigs, d, h => by
    have hone := floppyStep_cylinder h sig
    have hle : (floppyStep d sig).cylinder ≤ 79 := by
      rw [hone]
      cases drivePulse d sig with
      | none => exact h
      | some out => exact headMove_le h out
    rw [List.foldl_cons, drivePulses_cylinder sigs hle, hone, drivePulses, drivePulses, collectAlong, List.foldl_append]
    cases drivePulse d sig <;> rfl

theorem headMove_out : ∀ (n c : Nat), (List.replicate n true).foldl headMove c = c - n
  | 0, _ => rfl
  | n + 1, c => by
    rw [List.replicate_succ, List.foldl_cons, headMove_out n, headMove, if_pos rfl]
    omega

theorem headMove_in : ∀ (n c : Nat), c + n ≤ 79 → (List.replicate n false).foldl headMove c = c + n
  | 0, _, _ => rfl
  | n + 1, c, h => by
    rw [List.replicate_succ, List.foldl_cons, headMove_in n, headMove, if_neg Bool.false_ne_true]
    · omega
    · rw [headMove, if_neg Bool.false_ne_true]
      omega

/-- Out as far as it goes, and in again. -/
theorem headMove_seek {cylinder n c : Nat} (h : cylinder ≤ 79) (hn : 79 ≤ n) (hc : c ≤ 79) :
    (List.replicate n true ++ List.replicate c false).foldl headMove cylinder = c := by
  rw [List.foldl_append, headMove_out, headMove_in _ _ (by omega)]
  omega

/-- What stays in a drive whatever its lines say. -/
theorem floppyStep_media (d : FloppyDrive) (sig : FloppySignals) :
    floppyHasMedia (floppyStep d sig) = floppyHasMedia d ∧ (floppyStep d sig).adf = d.adf ∧
      (floppyStep d sig).adfSize = d.adfSize := by
  obtain ⟨-, hstep⟩ | ⟨-, -, n, hstep⟩ | ⟨-, -, hstep⟩ := floppyStep_cases d sig
  · rw [hstep]
    exact ⟨rfl, rfl, rfl⟩
  · rw [hstep]
    exact ⟨rfl, rfl, rfl⟩
  · rw [hstep]
    unfold floppyTrack0 floppyHead floppyMotor floppyHasMedia
    repeat' split
    all_goals exact ⟨rfl, rfl, rfl⟩

theorem floppySteps_media : ∀ (sigs : List FloppySignals) (d : FloppyDrive),
    floppyHasMedia (sigs.foldl floppyStep d) = floppyHasMedia d ∧ (sigs.foldl floppyStep d).adf = d.adf ∧
      (sigs.foldl floppyStep d).adfSize = d.adfSize
  | [], _ => ⟨rfl, rfl, rfl⟩
  | sig :: sigs, d => by
    obtain ⟨hmedia, hadf, hsize⟩ := floppySteps_media sigs (floppyStep d sig)
    obtain ⟨hmedia', hadf', hsize'⟩ := floppyStep_media d sig
    exact ⟨hmedia.trans hmedia', hadf.trans hadf', hsize.trans hsize'⟩

/-- A selected drive reads the side that its lines say. -/
theorem floppyStep_side {d : FloppyDrive} {sig : FloppySignals} (hconn : d.connected = true) (hsel : sig.selected = true) :
    (floppyStep d sig).side = sig.side := by
  obtain ⟨hoff, -⟩ | ⟨-, hnot, -⟩ | ⟨-, -, hstep⟩ := floppyStep_cases d sig
  · exact absurd (hoff.symm.trans hconn) Bool.false_ne_true
  · exact absurd (hnot.symm.trans hsel) Bool.false_ne_true
  · rw [hstep]
    unfold floppyTrack0 floppyHead
    repeat' split
    all_goals rfl

/-! ## Memory that others write too -/

/-- An event of the disk, or a store into chip memory by anyone else. -/
inductive SharedEvent where
  | disk (e : DiskEvent)
  | store (addr : UInt32) (value : UInt16)

def sharedEvent (irq : Bool) (r : DiskRun) : SharedEvent → DiskRun
  | .disk e => diskEvent irq r e
  | .store addr value => { r with mem := chipRamWrite16 r.mem addr value }

def SharedEvent.own : SharedEvent → Option DiskEvent
  | .disk e => some e
  | .store _ _ => none

def SharedEvent.foreign : SharedEvent → Option (UInt32 × UInt16)
  | .disk _ => none
  | .store addr value => some (addr, value)

/-- The stores of a run, the disk's and the others'. -/
def sharedWrites (irq : Bool) (r : DiskRun) (es : List SharedEvent) : List (UInt32 × UInt16) :=
  match es with
  | [] => []
  | .disk e :: es => (diskEventWrite r.disk e).toList ++ sharedWrites irq (diskEvent irq r e) es
  | .store addr value :: es => (addr, value) :: sharedWrites irq { r with mem := chipRamWrite16 r.mem addr value } es

/-- The disk does not look at the memory. -/
theorem diskEvent_ram (irq : Bool) (d : DiskState) (mem mem' : ChipRam) (raised : List UInt16) (e : DiskEvent) :
    (diskEvent irq ⟨d, mem, raised⟩ e).disk = (diskEvent irq ⟨d, mem', raised⟩ e).disk ∧
      (diskEvent irq ⟨d, mem, raised⟩ e).raised = (diskEvent irq ⟨d, mem', raised⟩ e).raised := by
  cases e with
  | grant =>
    unfold diskEvent diskDmaServiceGrant
    simp only
    repeat' split
    all_goals exact ⟨rfl, rfl⟩
  | _ => exact ⟨rfl, rfl⟩

/-- **A shared run**: the disk goes its own way, and the memory is what all the stores made of it. -/
theorem sharedRun_parts (irq : Bool) : ∀ (es : List SharedEvent) (r q : DiskRun), r.disk = q.disk → r.raised = q.raised →
    (es.foldl (sharedEvent irq) r).disk = ((es.filterMap SharedEvent.own).foldl (diskEvent irq) q).disk ∧
      (es.foldl (sharedEvent irq) r).raised = ((es.filterMap SharedEvent.own).foldl (diskEvent irq) q).raised ∧
      (es.foldl (sharedEvent irq) r).mem = storeWords r.mem (sharedWrites irq r es) ∧
      ∀ w, w ∈ sharedWrites irq r es ↔
        w ∈ diskWrites irq q (es.filterMap SharedEvent.own) ∨ w ∈ es.filterMap SharedEvent.foreign
  | [], _, _, hd, hr => ⟨hd, hr, rfl, by simp [sharedWrites, diskWrites]⟩
  | .disk e :: es, ⟨d, mem, raised⟩, ⟨_, mem', _⟩, rfl, rfl => by
    obtain ⟨hnext, hraised⟩ := diskEvent_ram irq d mem mem' raised e
    obtain ⟨hdisk, hmasks, hmem, hlog⟩ := sharedRun_parts irq es _ _ hnext hraised
    refine ⟨hdisk, hmasks, ?_, fun w => ?_⟩
    · rw [List.foldl_cons, sharedEvent, hmem, diskEvent_mem, sharedWrites, storeWords, storeWords, storeWords,
        List.foldl_append]
    · rw [sharedWrites, List.mem_append, hlog w]
      simp only [List.filterMap_cons, SharedEvent.own, SharedEvent.foreign, diskWrites, List.mem_append, or_assoc]
  | .store addr value :: es, ⟨d, mem, raised⟩, ⟨_, mem', _⟩, rfl, rfl => by
    obtain ⟨hdisk, hmasks, hmem, hlog⟩ :=
      sharedRun_parts irq es ⟨d, chipRamWrite16 mem addr value, raised⟩ ⟨d, mem', raised⟩ rfl rfl
    refine ⟨hdisk, hmasks, ?_, fun w => ?_⟩
    · rw [List.foldl_cons, sharedEvent, hmem]
      rfl
    · rw [sharedWrites, List.mem_cons, hlog w]
      simp only [List.filterMap_cons, SharedEvent.own, SharedEvent.foreign, List.mem_cons]
      tauto

/-- **The word that a log leaves** at an address that it stores to, if all its stores there are of one word. -/
theorem storeWords_word {a : UInt32} {v : UInt16} : ∀ (log : List (UInt32 × UInt16)) (mem : ChipRam), mem.hasWrite16 = true →
    (∀ w ∈ log, chipRamMapAddr mem w.1 = a → w.2 = v) → (mem.words a = v ∨ ∃ w ∈ log, chipRamMapAddr mem w.1 = a) →
    (storeWords mem log).words a = v
  | [], _, _, _, h => by
    refine h.resolve_right fun hone => ?_
    obtain ⟨w, hw, -⟩ := hone
    exact absurd hw List.not_mem_nil
  | (addr, value) :: log, mem, hport, hsame, hone => by
    rw [List.forall_mem_cons] at hsame
    have hwrite : chipRamWrite16 mem addr value =
        { mem with words := Function.update mem.words (chipRamMapAddr mem addr) value } := if_pos hport
    have hmap : ∀ b, chipRamMapAddr (chipRamWrite16 mem addr value) b = chipRamMapAddr mem b := by
      intro b
      rw [hwrite]
      rfl
    rw [storeWords, List.foldl_cons, ← storeWords]
    refine storeWords_word log _ ?_ (fun w hw ha => hsame.2 w hw ((hmap _).symm.trans ha)) ?_
    · rw [hwrite]
      exact hport
    · by_cases ha : chipRamMapAddr mem addr = a
      · refine .inl ?_
        rw [hwrite]
        simp only [ha, Function.update_self]
        exact hsame.1 ha
      · refine hone.imp (fun hv => ?_) fun hlogged => ?_
        · rw [hwrite]
          simp only [Function.update_of_ne (Ne.symm ha)]
          exact hv
        · obtain ⟨w, hw, hwa⟩ := hlogged
          obtain rfl | hw := List.mem_cons.mp hw
          · exact absurd hwa ha
          · exact ⟨w, hw, (hmap _).trans hwa⟩

theorem storeWords_config : ∀ (log : List (UInt32 × UInt16)) (mem : ChipRam),
    (storeWords mem log).chipsetModel = mem.chipsetModel ∧ (storeWords mem log).chipRamSize = mem.chipRamSize
  | [], _ => ⟨rfl, rfl⟩
  | w :: log, mem => by
    obtain ⟨hmodel, hsize⟩ := storeWords_config log (chipRamWrite16 mem w.1 w.2)
    have hkeeps : (chipRamWrite16 mem w.1 w.2).chipsetModel = mem.chipsetModel ∧
        (chipRamWrite16 mem w.1 w.2).chipRamSize = mem.chipRamSize := by
      unfold chipRamWrite16
      split <;> exact ⟨rfl, rfl⟩
    exact ⟨hmodel.trans hkeeps.1, hsize.trans hkeeps.2⟩

/-! ## A part of the track -/

section
variable {raw raw' : Nat → UInt8} {start : Nat}

theorem readBe16_shift {pos len : Nat} (h : ∀ i < len, raw' i = raw (start + i)) (hpos : pos + 1 < len) :
    readBe16 raw' pos = readBe16 raw (start + pos) := by
  rw [readBe16, readBe16, h pos (by omega), h (pos + 1) hpos, ← Nat.add_assoc]

theorem readBe32_shift {pos len : Nat} (h : ∀ i < len, raw' i = raw (start + i)) (hpos : pos + 3 < len) :
    readBe32 raw' pos = readBe32 raw (start + pos) := by
  rw [readBe32, readBe32, h pos (by omega), h (pos + 1) (by omega), h (pos + 2) (by omega), h (pos + 3) hpos]
  simp only [← Nat.add_assoc]

theorem readLongs_shift {pos n len : Nat} (h : ∀ i < len, raw' i = raw (start + i)) (hpos : pos + 4 * n ≤ len) :
    readLongs raw' pos n = readLongs raw (start + pos) n := by
  refine List.map_congr_left fun i hi => ?_
  have hlt := List.mem_range.mp hi
  rw [readBe32_shift h (by omega), Nat.add_assoc]

/-- A sector is read from where it lies. -/
theorem decodeSector_shift {pos len : Nat} (h : ∀ i < len, raw' i = raw (start + i)) (hpos : pos + 1080 ≤ len) :
    decodeSector raw' pos = decodeSector raw (start + pos) := by
  have hlong : ∀ k, k + 8 ≤ 1080 → getDecodedLong raw' (pos + k) 4 = getDecodedLong raw (start + pos + k) 4 := by
    intro k hk
    rw [getDecodedLong, getDecodedLong, readBe32_shift h (by omega), readBe32_shift h (by omega)]
    simp only [← Nat.add_assoc]
  have hlongs : ∀ k n, k + 8 * n ≤ 1080 → getDecodedLongs raw' (pos + k) n = getDecodedLongs raw (start + pos + k) n := by
    intro k n hk
    rw [getDecodedLongs, getDecodedLongs, readLongs_shift h (by omega), readLongs_shift h (by omega)]
    simp only [← Nat.add_assoc]
  have hinfo := hlong 0 (by decide)
  have hread : readLongs raw' pos 10 = readLongs raw (start + pos) 10 := readLongs_shift h (by omega)
  have hdata : readLongs raw' (pos + 56) 256 = readLongs raw (start + pos + 56) 256 := by
    rw [readLongs_shift h (by omega), ← Nat.add_assoc]
  unfold decodeSector
  rw [hlong 40 (by decide), hlong 48 (by decide), hlongs 8 4 (by decide), hlongs 56 128 (by decide), hread, hdata]
  simp only [Nat.add_zero] at hinfo
  rw [hinfo]

/-- The marks behind the start of a part. -/
theorem syncMarks_shift {len n : Nat} {marks : Nat → Nat} (h : ∀ i < len, raw' i = raw (start + i)) (heven : start % 2 = 0)
    (hlen : 2 ≤ len) (hmarks : syncMarks raw (start + len) = (List.range n).map marks) (hfrom : ∀ s < n, start ≤ marks s) :
    syncMarks raw' len = (List.range n).map fun s => marks s - start := by
  have hrange : (start + len) / 2 - 1 = start / 2 + (len / 2 - 1) := by omega
  unfold syncMarks at hmarks ⊢
  rw [hrange, List.range_add, List.filter_append, List.map_append] at hmarks
  -- no mark lies before the start
  have hnone : ((List.range (start / 2)).filter fun i =>
      readBe16 raw (2 * i) == syncWord && readBe16 raw (2 * i + 2) == syncWord) = [] := by
    refine List.eq_nil_iff_forall_not_mem.mpr fun i hi => ?_
    have hlt := List.mem_range.mp (List.mem_filter.mp hi).1
    have hmem : 2 * i ∈ (List.range n).map marks := by
      rw [← hmarks]
      exact List.mem_append_left _ (List.mem_map_of_mem hi)
    obtain ⟨s, hs, heq⟩ := List.mem_map.mp hmem
    have hge := hfrom s (List.mem_range.mp hs)
    omega
  rw [hnone, List.map_nil, List.nil_append, List.filter_map, List.map_map] at hmarks
  have hfilter : ((List.range (len / 2 - 1)).filter fun i =>
      readBe16 raw' (2 * i) == syncWord && readBe16 raw' (2 * i + 2) == syncWord) =
      (List.range (len / 2 - 1)).filter ((fun i => readBe16 raw (2 * i) == syncWord && readBe16 raw (2 * i + 2) == syncWord) ∘
        (start / 2 + ·)) := by
    refine List.filter_congr fun i hi => ?_
    have hlt := List.mem_range.mp hi
    have hplace : 2 * (start / 2 + i) = start + 2 * i := by omega
    rw [readBe16_shift h (by omega), readBe16_shift h (by omega)]
    simp only [Function.comp_apply, hplace, Nat.add_assoc]
  rw [hfilter]
  have hback := congrArg (List.map (· - start)) hmarks
  rw [List.map_map, List.map_map] at hback
  refine Eq.trans (List.map_congr_left fun i _ => ?_) hback
  show 2 * i = 2 * (start / 2 + i) - start
  omega

/-- A longer buffer has the marks of a shorter one first. -/
theorem syncMarks_within {raw : Nat → UInt8} {len len' : Nat} (h : len ≤ len') : syncMarks raw len <+: syncMarks raw len' := by
  have hrange : len' / 2 - 1 = (len / 2 - 1) + ((len' / 2 - 1) - (len / 2 - 1)) := by omega
  unfold syncMarks
  rw [hrange, List.range_add, List.filter_append, List.map_append]
  exact List.prefix_append _ _

end

/-- **The encoded track has its sectors**, each behind its mark. -/
theorem encodedTrack_sectors (d : DiskState) {drive : FloppyDrive} {track : UInt8}
    (htrack : diskTrackOffset drive / amigaTrackSize = track.toUInt32) :
    ∃ buf, encodedTrack d drive = some buf ∧
      syncMarks buf 13626 = (List.range amigaSectorsPerTrack).map (fun s => 4 * (414 + 272 * s + 1)) ∧
      ∀ s < amigaSectorsPerTrack, CarriesSector (fun i => drive.adf.getD (fun _ => 0) ((diskTrackOffset drive).toNat + i)) track s
        (decodeSector buf (4 * (414 + 272 * s + 1) + 4)) := by
  generalize hdata : (fun i => drive.adf.getD (fun _ => 0) ((diskTrackOffset drive).toNat + i)) = trackData
  obtain ⟨last, hencode⟩ := floppyMfmEncodeTrack_buffer trackData track.toUInt32 d.dmaTrackBuf
    (show floppyMfmTrackBytesPal / 4 = 414 + 272 * amigaSectorsPerTrack + 1 from rfl)
  refine ⟨_, by rw [encodedTrack, hdata, htrack, hencode], ?_, fun s hs => ?_⟩
  · have hlen := trackLongs_length trackData track.toUInt32 (UInt32.ofNat amigaSectorsPerTrack) 414 amigaSectorsPerTrack
    have hsynced := (trackLongs_synced trackData track.toUInt32 (UInt32.ofNat amigaSectorsPerTrack) 414
      amigaSectorsPerTrack).append hlen.ge (mfmcodeU32_clocked last [0])
    have hall : (trackLongs trackData track.toUInt32 (UInt32.ofNat amigaSectorsPerTrack) 414 amigaSectorsPerTrack ++
        mfmcodeU32 last [0]).length = 414 + 272 * amigaSectorsPerTrack + 1 := by
      rw [List.length_append, hlen, mfmcodeU32_length]
      rfl
    exact syncMarks_buffer hsynced d.dmaTrackBuf (by omega) (by rw [hall]; decide) (by decide)
  · exact (codedAt_track trackData track.toUInt32 (UInt32.ofNat amigaSectorsPerTrack) 414 d.dmaTrackBuf _ hs).sector hs

/-! ## The guest's buffer -/

/-- Room for `words` words at `base`, in chip memory that is mirrored as it should be. -/
structure GuestBuffer (mem : ChipRam) (base : UInt32) (words : Nat) : Prop where
  port : mem.hasWrite16 = true
  mirrored : (chipRamVisibleSize mem).toNat.isPowerOfTwo
  even : base &&& 1 = 0
  room : base.toNat + 2 * words ≤ (chipRamVisibleSize mem).toNat

section
variable {mem : ChipRam} {base : UInt32} {words : Nat}

theorem GuestBuffer.place (h : GuestBuffer mem base words) {i : Nat} (hi : i < words) :
    (base + 2 * UInt32.ofNat i).toNat = base.toNat + 2 * i := by
  have hroom := h.room
  have hsize := (chipRamVisibleSize_bounds mem).2
  rw [UInt32.toNat_add, UInt32.toNat_mul, UInt32.toNat_ofNat']
  simp only [UInt32.reduceToNat]
  omega

/-- The words of the buffer are where they are said to be. -/
theorem GuestBuffer.self (h : GuestBuffer mem base words) {i : Nat} (hi : i < words) :
    chipRamMapAddr mem (base + 2 * UInt32.ofNat i) = base + 2 * UInt32.ofNat i := by
  have hplace := h.place hi
  have hroom := h.room
  have heven := even_toNat.mp h.even
  have halign : (base + 2 * UInt32.ofNat i) &&& ~~~1 = base + 2 * UInt32.ofNat i :=
    even_aligned (even_toNat.mpr (by omega))
  rw [(chipRamMapAddr_mirror_iff mem).mpr h.mirrored, mirrorAddr, halign]
  refine UInt32.toNat_inj.mp ?_
  rw [UInt32.toNat_mod, Nat.mod_eq_of_lt (by omega)]

theorem GuestBuffer.apart (h : GuestBuffer mem base words) {i j : Nat} (hi : i < words) (hj : j < words)
    (heq : base + 2 * UInt32.ofNat i = base + 2 * UInt32.ofNat j) : i = j := by
  have hplaces := congrArg UInt32.toNat heq
  rw [h.place hi, h.place hj] at hplaces
  omega

/-- The bytes of the buffer by its words. -/
theorem GuestBuffer.byte (h : GuestBuffer mem base words) {mem' : ChipRam} {k : Nat} (hk : k < 2 * words) :
    chipByte mem' (base + UInt32.ofNat k) =
      if k % 2 = 0 then (mem'.words (base + 2 * UInt32.ofNat (k / 2)) >>> 8).toUInt8
      else (mem'.words (base + 2 * UInt32.ofNat (k / 2))).toUInt8 := by
  have hplace := h.place (i := k / 2) (by omega)
  have hroom := h.room
  have hsize := (chipRamVisibleSize_bounds mem).2
  have heven := even_toNat.mp h.even
  have hword : base + 2 * UInt32.ofNat (k / 2) &&& 1 = 0 := even_toNat.mpr (by omega)
  have haddr : (base + UInt32.ofNat k).toNat = base.toNat + k := by
    rw [UInt32.toNat_add, UInt32.toNat_ofNat']
    omega
  by_cases hpar : k % 2 = 0
  · have hsame : base + UInt32.ofNat k = base + 2 * UInt32.ofNat (k / 2) := by
      refine UInt32.toNat_inj.mp ?_
      omega
    rw [hsame, chipByte, even_aligned hword, if_pos hword, if_pos hpar]
  · have hnext : base + UInt32.ofNat k = base + 2 * UInt32.ofNat (k / 2) + 1 := by
      refine UInt32.toNat_inj.mp ?_
      rw [UInt32.toNat_add _ 1, show (1 : UInt32).toNat = 1 from rfl]
      omega
    obtain ⟨hodd, hlane⟩ := odd_address hword
    rw [hnext, chipByte, hodd, if_neg hlane, if_neg hpar]

end

/-! ## A read -/

theorem findSync_mark (dst : Nat → UInt8) (rest : List UInt32) :
    diskTrackFindSync (mfmBuffer dst (List.replicate 415 0xAAAAAAAA ++ 0x44894489 :: rest)) floppyMfmTrackBytesPal 0x4489 =
      1660 := by
  have hfind : ((List.range (floppyMfmTrackBytesPal - 1)).find? fun i =>
      readBe16 (mfmBuffer dst (List.replicate 415 0xAAAAAAAA ++ 0x44894489 :: rest)) i == 0x4489) = some 1660 := by
    rw [List.find?_range_eq_some]
    have hm0 := mark_byte (j := 0) dst rest (by decide)
    have hm1 := mark_byte (j := 1) dst rest (by decide)
    refine ⟨?_, List.mem_range.mpr (by decide), fun j hj => ?_⟩
    · unfold readBe16
      rw [show (1660 : Nat) = 1660 + 0 from rfl, hm0, hm1]
      decide
    · unfold readBe16
      by_cases hgap : j + 1 < 1660
      · rw [gap_byte dst rest (by omega), gap_byte dst rest hgap]
        decide
      · obtain rfl : j = 1659 := by omega
        rw [gap_byte dst rest (by decide), show 1659 + 1 = 1660 + 0 from rfl, hm0]
        decide
  unfold diskTrackFindSync
  rw [hfind]
  rfl

/-- Where a read starts in the track: at the first mark under WORDSYNC, and at the track's start without. -/
def readStart (d : DiskState) : Nat := if d.adkcon &&& adkconWordsync ≠ 0 then 1660 else 0

/-- The reader looks for the mark, if it looks for anything. -/
def SyncsOnMark (d : DiskState) : Prop := d.adkcon &&& adkconWordsync ≠ 0 → d.dsksync = 0x4489

theorem streamStart_eq {d : DiskState} (hsync : SyncsOnMark d) {drive : FloppyDrive} {buf : Nat → UInt8}
    (h : encodedTrack d drive = some buf) : streamStart d buf = readStart d := by
  obtain ⟨rest, -, hbuf⟩ := encodedTrack_buffer d drive
  cases Option.some.inj (h.symm.trans hbuf)
  unfold streamStart readStart
  by_cases hon : d.adkcon &&& adkconWordsync ≠ 0
  · rw [hsync hon, findSync_mark, if_pos hon, if_pos ⟨hon, by decide⟩]
  · rw [if_neg hon, if_neg fun hboth => hon hboth.1]

/-- DSKLEN is cleared, written and written again. -/
def dsklenWrites (value : UInt16) (drive : FloppyDrive) : List DiskEvent :=
  [.write 0x024 0 drive, .write 0x024 value drive, .write 0x024 value drive]

/-- The two writes that arm and start leave the disk at the first word. -/
theorem dsklenWrites_at (irq : Bool) (r : DiskRun) {drive : FloppyDrive} {value : UInt16} (hread : ReadsWords value)
    (hon : value &&& dsklenDmaen ≠ 0) (htrack : HoldsTrack drive) {buf : Nat → UInt8}
    (henc : encodedTrack r.disk drive = some buf) :
    let r₁ := (dsklenWrites value drive).foldl (diskEvent irq) r
    (startStream r.disk buf value).At 0 r₁.disk ∧ r₁.blocks = r.blocks ∧ r₁.mem = r.mem := by
  obtain ⟨d, mem, raised⟩ := r
  intro r₁
  let armed : DiskState :=
    { (diskWriteDsklen irq d drive 0).1 with dsklen := value, armedDsklen := value, dmaArmed := true }
  have hoff : diskWriteDsklen irq d drive 0 = ((diskWriteDsklen irq d drive 0).1, []) := rfl
  have harm : diskWriteDsklen irq (diskWriteDsklen irq d drive 0).1 drive value = (armed, []) := by
    rw [diskWriteDsklen, if_neg hon]
    rfl
  have hstart : diskWriteDsklen irq armed drive value = diskStartDma irq armed drive value := by
    rw [diskWriteDsklen, if_neg hon]
    rfl
  have hr₁ : r₁ = ⟨(diskStartDma irq armed drive value).1, mem,
      raised ++ [] ++ [] ++ (diskStartDma irq armed drive value).2⟩ := by
    show (dsklenWrites value drive).foldl (diskEvent irq) ⟨d, mem, raised⟩ = _
    simp only [dsklenWrites, List.foldl_cons, List.foldl_nil, diskEvent, diskWriteReg]
    rw [harm, hstart]
    rfl
  have hat := diskStart_at irq armed hread htrack henc
  have hquiet := (diskStartDma_transfer irq armed drive hread).2
  rw [hr₁]
  refine ⟨hat, ?_, rfl⟩
  show (raised ++ [] ++ [] ++ (diskStartDma irq armed drive value).2).count paulaIntDskblk = raised.count paulaIntDskblk
  rw [List.append_nil, List.append_nil, List.count_append, hquiet, Nat.add_zero]

theorem SharedEvent.own_mem {es : List SharedEvent} {e : DiskEvent} (h : e ∈ es.filterMap SharedEvent.own) :
    SharedEvent.disk e ∈ es := by
  obtain ⟨e', he, howns⟩ := List.mem_filterMap.mp h
  cases e' with
  | disk e'' =>
    cases howns
    exact he
  | store addr value => cases howns

/-- **The words of a stream lie in the buffer** after a shared run that grants them all, if the others store elsewhere. -/
theorem sharedRun_words (irq : Bool) {t : DiskStream} {r : DiskRun} (hat : t.At 0 r.disk) (hwhole : ∀ i < t.words, t.Whole i)
    (hbuf : GuestBuffer r.mem t.base t.words) {es : List SharedEvent}
    (hes : ∀ e, SharedEvent.disk e ∈ es → DiskStream.NoWrite e)
    (hapart : ∀ w ∈ es.filterMap SharedEvent.foreign, ∀ i < t.words,
      chipRamMapAddr r.mem w.1 ≠ t.base + 2 * UInt32.ofNat i)
    (hgrants : t.words ≤ diskGrants (es.filterMap SharedEvent.own)) :
    let r' := es.foldl (sharedEvent irq) r
    r'.disk.dmaActive = false ∧ r'.blocks = r.blocks + 1 ∧
      ∀ i < t.words, r'.mem.words (t.base + 2 * UInt32.ofNat i) = streamWord t.buf t.start i := by
  intro r'
  obtain ⟨hdisk, hraised, hmem, hlog⟩ := sharedRun_parts irq es r r rfl rfl
  obtain ⟨hafter, hwrites⟩ := DiskStream.At.run irq (es.filterMap SharedEvent.own) hat
    (fun e he => hes e (SharedEvent.own_mem he)) fun j hj _ => hwhole j hj
  rw [Nat.zero_add] at hafter
  unfold DiskStream.After at hafter
  rw [if_neg (Nat.not_lt.mpr hgrants)] at hafter
  rw [Nat.sub_zero, Nat.min_eq_right hgrants, ← List.range_eq_range'] at hwrites
  refine ⟨?_, ?_, fun i hi => ?_⟩
  · rw [hdisk]
    exact hafter.1.active
  · show r'.raised.count paulaIntDskblk = _
    rw [hraised]
    exact hafter.2
  · rw [hmem]
    refine storeWords_word _ _ hbuf.port (fun w hw ha => ?_) (.inr ⟨t.store i, ?_, hbuf.self hi⟩)
    · rcases (hlog w).mp hw with hown | hforeign
      · rw [hwrites] at hown
        obtain ⟨j, hj, rfl⟩ := List.mem_map.mp hown
        have hlt := List.mem_range.mp hj
        obtain rfl := hbuf.apart hlt hi ((hbuf.self hlt).symm.trans ha)
        rfl
      · exact absurd ha (hapart w hforeign i hi)
    · refine (hlog _).mpr (.inl ?_)
      rw [hwrites]
      exact List.mem_map_of_mem (List.mem_range.mpr hi)

/-- The bytes of a word that is put together from two. -/
theorem joined_bytes (hi lo : UInt8) :
    ((hi.toUInt16 <<< 8 ||| lo.toUInt16) >>> 8).toUInt8 = hi ∧ (hi.toUInt16 <<< 8 ||| lo.toUInt16).toUInt8 = lo := by
  have hlow : lo.toUInt16 &&& 0x00FF = lo.toUInt16 := by
    refine UInt16.toNat_inj.mp ?_
    rw [UInt16.toNat_and, UInt8.toNat_toUInt16]
    exact Nat.and_two_pow_sub_one_of_lt_two_pow lo.toNat_lt
  have hhigh := high_putHigh hi lo.toUInt16
  have hback := low_putHigh hi lo.toUInt16
  rw [hlow] at hhigh hback
  refine ⟨hhigh, hback.trans ?_⟩
  simp

/-- A part of the track that begins on an even offset, as the CPU finds it. -/
theorem streamBytes {t : DiskStream} (heven : t.start % 2 = 0) {mem mem' : ChipRam} (hbuf : GuestBuffer mem t.base t.words)
    (hwords : ∀ i < t.words, mem'.words (t.base + 2 * UInt32.ofNat i) = streamWord t.buf t.start i) {k : Nat}
    (hk : k < 2 * t.words) (hend : t.start + k < floppyMfmTrackBytesPal) :
    chipByte mem' (t.base + UInt32.ofNat k) = t.buf (t.start + k) := by
  have hword := hwords (k / 2) (by omega)
  rw [hbuf.byte hk, hword, streamWord]
  unfold floppyMfmTrackBytesPal at *
  by_cases hpar : k % 2 = 0
  · have hplace : (t.start + 2 * (k / 2)) % 13630 = t.start + k := by omega
    rw [if_pos hpar, (joined_bytes _ _).1, hplace]
  · have hplace : (t.start + 2 * (k / 2) + 1) % 13630 = t.start + k := by omega
    rw [if_neg hpar, (joined_bytes _ _).2, hplace]

theorem readStart_even (d : DiskState) : readStart d % 2 = 0 ∧ readStart d ≤ 1660 := by
  unfold readStart
  split <;> decide

/-- The first eleven sectors of what a read brought are those of the track. -/
theorem decodeTrack_part {buf raw : Nat → UInt8} {trackData : Nat → UInt8} {track : UInt8} {start len : Nat}
    (heven : start % 2 = 0) (hfirst : start ≤ 1660) (hlen : 13626 ≤ start + len)
    (hraw : ∀ k < 13626 - start, raw k = buf (start + k))
    (hmarks : syncMarks buf 13626 = (List.range amigaSectorsPerTrack).map (fun s => 4 * (414 + 272 * s + 1)))
    (hsectors : ∀ s < amigaSectorsPerTrack, CarriesSector trackData track s (decodeSector buf (4 * (414 + 272 * s + 1) + 4))) :
    List.Forall₂ (CarriesSector trackData track) (List.range amigaSectorsPerTrack)
      ((decodeTrack raw len).take amigaSectorsPerTrack) := by
  have hall : start + (13626 - start) = 13626 := by omega
  have hshift := syncMarks_shift (n := amigaSectorsPerTrack) hraw heven (by omega) (hall.symm ▸ hmarks) fun s _ => by omega
  have hwithin : syncMarks raw (13626 - start) <+: syncMarks raw len := syncMarks_within (by omega)
  have htake := List.prefix_iff_eq_take.mp hwithin
  rw [hshift, List.length_map, List.length_range] at htake
  rw [decodeTrack, ← List.map_take, ← htake, List.map_map, List.forall₂_map_right_iff, List.forall₂_same]
  intro s hs
  have hlt : s < 11 := List.mem_range.mp hs
  have hplace : start + (4 * (414 + 272 * s + 1) - start + 4) = 4 * (414 + 272 * s + 1) + 4 := by omega
  have hsector : decodeSector raw (4 * (414 + 272 * s + 1) - start + 4) =
      decodeSector buf (4 * (414 + 272 * s + 1) + 4) := by
    rw [decodeSector_shift hraw (by omega), hplace]
  show CarriesSector trackData track s (decodeSector raw (4 * (414 + 272 * s + 1) - start + 4))
  rw [hsector]
  exact hsectors s hlt

/-- The track under a head that was stepped to it. -/
theorem seek_track {drive : FloppyDrive} {adf : Nat → UInt8} (hmedia : floppyHasMedia drive = true)
    (hadf : drive.adf = some adf) (hhead : drive.cylinder ≤ 79) {sigs : List FloppySignals} {last : FloppySignals}
    (hlast : last.selected = true) {n c : Nat} (hn : 79 ≤ n) (hc : c ≤ 79)
    (hseek : drivePulses drive (sigs ++ [last]) = List.replicate n true ++ List.replicate c false)
    (hsize : (2 * c + last.side.toNat + 1) * 5632 ≤ drive.adfSize.toNat) :
    let drive' := (sigs ++ [last]).foldl floppyStep drive
    HoldsTrack drive' ∧ diskTrackOffset drive' / amigaTrackSize = (UInt8.ofNat (2 * c + last.side.toNat)).toUInt32 ∧
      (fun i => drive'.adf.getD (fun _ => 0) ((diskTrackOffset drive').toNat + i)) =
        fun i => adf ((2 * c + last.side.toNat) * 5632 + i) := by
  intro drive'
  obtain ⟨hmedia', hadf', hsize'⟩ := floppySteps_media (sigs ++ [last]) drive
  have hcyl : drive'.cylinder = c := by
    have hpulses := drivePulses_cylinder (sigs ++ [last]) hhead
    rw [hseek, headMove_seek hhead hn hc] at hpulses
    exact hpulses
  have hside : drive'.side = last.side := by
    have hconn : (sigs.foldl floppyStep drive).connected = true := by
      have hkept := (floppySteps_media sigs drive).1.trans hmedia
      unfold floppyHasMedia at hkept
      simp only [Bool.and_eq_true] at hkept
      exact hkept.1.1.1
    show ((sigs ++ [last]).foldl floppyStep drive).side = _
    rw [List.foldl_append]
    exact floppyStep_side hconn hlast
  have hbit : (if drive'.side = true then 1 else 0) = last.side.toNat := by
    rw [hside]
    cases last.side <;> rfl
  have hone : last.side.toNat ≤ 1 := Bool.toNat_le _
  have hoffset : (diskTrackOffset drive').toNat = (2 * c + last.side.toNat) * 5632 := by
    rw [diskTrackOffset, hcyl, hbit, UInt32.toNat_mul, UInt32.toNat_ofNat', amigaTrackSize]
    simp only [UInt32.reduceToNat]
    omega
  have hinside : diskTrackOffset drive' < drive'.adfSize := by
    rw [UInt32.lt_iff_toNat_lt, hoffset, hsize']
    omega
  have htrackSize : amigaTrackSize.toNat = 5632 := rfl
  refine ⟨⟨hmedia'.trans hmedia, hinside, ?_⟩, ?_, ?_⟩
  · rw [UInt32.le_iff_toNat_le, UInt32.toNat_sub_of_le _ _ (UInt32.le_of_lt hinside), hoffset, hsize', htrackSize]
    omega
  · refine UInt32.toNat_inj.mp ?_
    rw [UInt32.toNat_div, hoffset, htrackSize, UInt8.toNat_toUInt32, UInt8.toNat_ofNat', Nat.mul_div_cancel _ (by decide)]
    omega
  · rw [hoffset, hadf', hadf]
    rfl

/-- **A guest reads its disk.** Whatever the drive has done before, a guest that steps it out at least 79 times and then in
`c` times, in whatever way its lines move, and starts a read that is long enough for the track, finds in its buffer the
eleven sectors of that cylinder and side of the image, in order and with sound checksums, as soon as the words have been
granted. Others may use the memory beside the buffer, and DSKBLK is raised once. -/
theorem floppy_track_read (irq : Bool) {drive : FloppyDrive} {adf : Nat → UInt8} (hmedia : floppyHasMedia drive = true)
    (hadf : drive.adf = some adf) (hhead : drive.cylinder ≤ 79) {sigs : List FloppySignals} {last : FloppySignals}
    (hlast : last.selected = true) {n c : Nat} (hn : 79 ≤ n) (hc : c ≤ 79)
    (hseek : drivePulses drive (sigs ++ [last]) = List.replicate n true ++ List.replicate c false)
    (hsize : (2 * c + last.side.toNat + 1) * 5632 ≤ drive.adfSize.toNat) {r : DiskRun} (hsync : SyncsOnMark r.disk)
    {value : UInt16} (hread : ReadsWords value) (hon : value &&& dsklenDmaen ≠ 0)
    (hlen : 13626 ≤ readStart r.disk + 2 * (value &&& 0x3FFF).toNat)
    (hbuf : GuestBuffer r.mem r.disk.dskptr (value &&& 0x3FFF).toNat) {es : List SharedEvent}
    (hes : ∀ e, SharedEvent.disk e ∈ es → DiskStream.NoWrite e)
    (hapart : ∀ w ∈ es.filterMap SharedEvent.foreign, ∀ i < (value &&& 0x3FFF).toNat,
      chipRamMapAddr r.mem w.1 ≠ r.disk.dskptr + 2 * UInt32.ofNat i)
    (hgrants : (value &&& 0x3FFF).toNat ≤ diskGrants (es.filterMap SharedEvent.own)) :
    let drive' := (sigs ++ [last]).foldl floppyStep drive
    let r' := es.foldl (sharedEvent irq) ((dsklenWrites value drive').foldl (diskEvent irq) r)
    r'.disk.dmaActive = false ∧ r'.blocks = r.blocks + 1 ∧
      List.Forall₂ (CarriesSector (fun i => adf ((2 * c + last.side.toNat) * 5632 + i)) (UInt8.ofNat (2 * c + last.side.toNat)))
        (List.range amigaSectorsPerTrack)
        ((decodeTrack (fun k => chipByte r'.mem (r.disk.dskptr + UInt32.ofNat k)) (2 * (value &&& 0x3FFF).toNat)).take
          amigaSectorsPerTrack) := by
  intro drive' r'
  obtain ⟨hholds, htrack, hdata⟩ := seek_track hmedia hadf hhead hlast hn hc hseek hsize
  obtain ⟨buf, henc, hmarks, hsectors⟩ := encodedTrack_sectors r.disk htrack
  rw [hdata] at hsectors
  obtain ⟨hat, hblocks, hmem⟩ := dsklenWrites_at irq r hread hon hholds henc
  obtain ⟨heven, hfirst⟩ := readStart_even r.disk
  have hstart : (startStream r.disk buf value).start = readStart r.disk := streamStart_eq hsync henc
  have heven' : (startStream r.disk buf value).start % 2 = 0 := hstart ▸ heven
  rw [← hmem] at hbuf hapart
  obtain ⟨hidle, hraised, hwords⟩ := sharedRun_words irq (t := startStream r.disk buf value) hat
    (DiskStream.whole_of (.inl heven')) hbuf hes hapart hgrants
  refine ⟨hidle, hraised.trans (congrArg (· + 1) hblocks), ?_⟩
  refine decodeTrack_part heven hfirst hlen (fun k hk => ?_) hmarks hsectors
  have hbyte := streamBytes (t := startStream r.disk buf value) heven' hbuf hwords (k := k)
    (show k < 2 * (value &&& 0x3FFF).toNat by omega) (by rw [hstart]; unfold floppyMfmTrackBytesPal; omega)
  rw [hstart] at hbyte
  exact hbyte

/-- A drive with an image whose bytes count up. -/
def countingFloppy : FloppyDrive := floppyInsert floppyInit (some fun i => UInt8.ofNat i) 901120

/-- One pulse, and the step line high again. -/
def pulseLines (direction side : Bool) : List FloppySignals :=
  [⟨true, true, true, direction, side⟩, ⟨true, true, false, direction, side⟩]

/-- To cylinder 20, on the other side. -/
def seekLines : List FloppySignals :=
  (List.replicate 79 (pulseLines true false)).flatten ++ (List.replicate 20 (pulseLines false true)).flatten

def settledLines : FloppySignals := ⟨true, true, false, false, true⟩

/-- `n` grants, after someone has stored elsewhere. -/
def trackGrants (n : Nat) : List SharedEvent := .store 0x40000 0xFFFF :: List.replicate n (.disk .grant)

theorem trackGrants_own (n : Nat) : (trackGrants n).filterMap SharedEvent.own = List.replicate n .grant :=
  (List.filterMap_cons_none rfl).trans (List.filterMap_replicate_of_some rfl)

theorem trackGrants_foreign (n : Nat) : (trackGrants n).filterMap SharedEvent.foreign = [(0x40000, 0xFFFF)] := by
  have hnone : (List.replicate n (SharedEvent.disk .grant)).filterMap SharedEvent.foreign = [] :=
    List.filterMap_replicate_of_none rfl
  rw [trackGrants, List.filterMap_cons, hnone]
  rfl

/-- The disk of a machine that was just created, and its memory. -/
def freshReader : DiskRun := ⟨palMachine.paula.disk, palMachine.ram, []⟩

/-- The eleven sectors of track 41. -/
theorem countingFloppy_read :
    let drive := (seekLines ++ [settledLines]).foldl floppyStep countingFloppy
    let r := (trackGrants 6813).foldl (sharedEvent true) ((dsklenWrites 0x9A9D drive).foldl (diskEvent true) freshReader)
    r.disk.dmaActive = false ∧ r.blocks = freshReader.blocks + 1 ∧
      List.Forall₂ (CarriesSector (fun i => UInt8.ofNat (41 * 5632 + i)) 41) (List.range amigaSectorsPerTrack)
        ((decodeTrack (fun k => chipByte r.mem (freshReader.disk.dskptr + UInt32.ofNat k)) (2 * 6813)).take
          amigaSectorsPerTrack) := by
  have hseek : drivePulses countingFloppy (seekLines ++ [settledLines]) =
      List.replicate 79 true ++ List.replicate 20 false := by decide +kernel
  have hwords : ((0x9A9D : UInt16) &&& 0x3FFF).toNat = 6813 := by decide
  have hport : freshReader.mem.hasWrite16 = true := by decide +kernel
  have hsize : (chipRamVisibleSize freshReader.mem).toNat = 0x80000 := by decide +kernel
  have hzero : freshReader.disk.dskptr = 0 := by decide +kernel
  have hsync : freshReader.disk.dsksync = 0x4489 := by decide +kernel
  have hfar : (chipRamMapAddr freshReader.mem 0x40000).toNat = 0x40000 := by decide +kernel
  have hbuf : GuestBuffer freshReader.mem freshReader.disk.dskptr 6813 := by
    refine ⟨hport, ⟨19, hsize⟩, by rw [hzero]; decide, ?_⟩
    rw [hzero, hsize]
    decide
  have hes : ∀ e, SharedEvent.disk e ∈ trackGrants 6813 → DiskStream.NoWrite e := by
    intro e he addr value drive
    rcases List.mem_cons.mp he with heq | hmem
    · cases heq
    · cases List.eq_of_mem_replicate hmem
      exact DiskEvent.noConfusion
  have hapart : ∀ w ∈ (trackGrants 6813).filterMap SharedEvent.foreign, ∀ i < 6813,
      chipRamMapAddr freshReader.mem w.1 ≠ freshReader.disk.dskptr + 2 * UInt32.ofNat i := by
    rw [trackGrants_foreign]
    intro w hw i hi heq
    obtain rfl := List.mem_singleton.mp hw
    have hplace := hbuf.place hi
    rw [← heq, hfar, hzero] at hplace
    simp only [UInt32.reduceToNat] at hplace
    omega
  have hgrants : 6813 ≤ diskGrants ((trackGrants 6813).filterMap SharedEvent.own) := by
    rw [trackGrants_own, DiskStream.diskGrants_replicate]
  have hread := floppy_track_read true (show floppyHasMedia countingFloppy = true from rfl) rfl (by decide)
    (show settledLines.selected = true from rfl) le_rfl (by decide) hseek (by decide) (fun _ => hsync)
    (show ReadsWords 0x9A9D from ⟨by decide, by decide⟩) (by decide) (by rw [hwords]; exact Nat.le_add_left _ _)
    (hwords ▸ hbuf) hes (hwords ▸ hapart) (hwords ▸ hgrants)
  rw [hwords] at hread
  exact hread

end Rigel
