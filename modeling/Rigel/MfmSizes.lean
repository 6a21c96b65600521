import Rigel.MfmTrack

/-!
# MfmSizes — an encoded track in a buffer of any size

The encoder counts the gap in whole longwords and keeps its write position in 32 bits. A buffer of whole longwords, of
4 GiB at most, is filled to its end and shows nothing of what it held before. Of any other buffer the last byte is left.
-/

namespace Rigel

/-! ## The encoder in its own widths -/

/-- One sector at the write position, which then moves on. -/
def mfmSectorAt (trackData : Nat → UInt8) (track sectorsPerTrack : UInt32) (st : (Nat → UInt8) × UInt32) (sec : Nat) :
    (Nat → UInt8) × UInt32 :=
  let (dst, pos) := st
  let prevLastBit := if pos ≥ 4 then readBe32 dst (pos - 4).toNat &&& 1 else 0
  let longs := floppyMfmEncodeSector (fun i => trackData (sec * amigaSectorSize + i)) track (UInt32.ofNat sec)
    sectorsPerTrack
  let dst := writeBytes dst pos.toNat (longs.flatMap be32)
  (writeBytes dst pos.toNat (be32 (if prevLastBit ≠ 0 then 0x2AAAAAAA else 0xAAAAAAAA)), pos + 1088)

def mfmTailAt (dst : Nat → UInt8) (size pos : UInt32) : Nat → UInt8 :=
  if pos + 4 ≤ size then
    writeBytes dst pos.toNat
      ((mfmcodeU32 (if pos ≥ 4 then readBe32 dst (pos - 4).toNat else 0) [0]).flatMap be32)
  else dst

/-- The gap's longwords: of the size's rest one is kept for the zero behind the sectors. -/
def mfmGapWords (dstSize : UInt64) (dataBytes : UInt32) : UInt32 :=
  let gapsize := if dstSize > dataBytes.toUInt64 then (dstSize - dataBytes.toUInt64).toUInt32 else 0
  if gapsize / 4 > 1 then gapsize / 4 - 1 else 0

/-- `floppy_mfm_encode_track` with a 64-bit `dst_size` and a 32-bit position. -/
def floppyMfmEncodeTrackSized (dst : Nat → UInt8) (dstSize : UInt64) (trackData : Nat → UInt8)
    (track sectorsPerTrack : UInt32) : Option (Nat → UInt8) :=
  let dataBytes := sectorsPerTrack * 1088
  if dstSize < dataBytes.toUInt64 then none
  else
    let gapWords := mfmGapWords dstSize dataBytes
    let dst := writeBytes dst 0 ((List.replicate gapWords.toNat (0xAAAAAAAA : UInt32)).flatMap be32)
    let st := (List.range sectorsPerTrack.toNat).foldl (mfmSectorAt trackData track sectorsPerTrack) (dst, gapWords * 4)
    some (mfmTailAt st.1 dstSize.toUInt32 st.2)

/-! ## Positions -/

theorem mfmGapWords_toNat {dstSize : UInt64} (h : 11968 ≤ dstSize.toNat) :
    (mfmGapWords dstSize 11968).toNat = (dstSize.toNat - 11968) % 2 ^ 32 / 4 - 1 := by
  have hsize : (if dstSize > (11968 : UInt32).toUInt64 then (dstSize - (11968 : UInt32).toUInt64).toUInt32 else 0).toNat =
      (dstSize.toNat - 11968) % 2 ^ 32 := by
    have hle : (11968 : UInt32).toUInt64 ≤ dstSize := UInt64.le_iff_toNat_le.mpr h
    split
    next => rw [UInt64.toNat_toUInt32, UInt64.toNat_sub_of_le _ _ hle]; rfl
    next hgt =>
      have hnot : ¬ 11968 < dstSize.toNat := fun hlt => hgt (UInt64.lt_iff_toNat_lt.mpr hlt)
      have hzero : dstSize.toNat - 11968 = 0 := by omega
      rw [hzero]
      rfl
  unfold mfmGapWords
  simp only
  generalize (if dstSize > (11968 : UInt32).toUInt64 then (dstSize - (11968 : UInt32).toUInt64).toUInt32 else 0) = gapsize
    at hsize ⊢
  rw [← hsize]
  have hdiv : (gapsize / 4).toNat = gapsize.toNat / 4 := UInt32.toNat_div _ _
  split
  next hgt =>
    have hlt : 1 < gapsize.toNat / 4 := hdiv ▸ UInt32.lt_iff_toNat_lt.mp hgt
    rw [UInt32.toNat_sub_of_le _ _ (UInt32.le_iff_toNat_le.mpr (hdiv.symm ▸ Nat.le_of_lt hlt)), hdiv]
    rfl
  next hgt =>
    have hle : ¬ 1 < gapsize.toNat / 4 := fun hlt => hgt (UInt32.lt_iff_toNat_lt.mpr (hdiv.symm ▸ hlt))
    show 0 = _
    omega

/-- The gap's end in bytes. -/
theorem mfmGapEnd_toNat {dstSize : UInt64} (h : 11968 ≤ dstSize.toNat) :
    (mfmGapWords dstSize 11968 * 4).toNat = 4 * (mfmGapWords dstSize 11968).toNat := by
  have hwords := mfmGapWords_toNat h
  have hmul : (mfmGapWords dstSize 11968 * 4).toNat = (mfmGapWords dstSize 11968).toNat * 4 % 2 ^ 32 :=
    UInt32.toNat_mul _ 4
  omega

theorem elevenSectors : (11 : UInt32) * 1088 = 11968 := rfl

/-- The sizes that are turned down. -/
theorem lt_elevenSectors (dstSize : UInt64) : dstSize < (11968 : UInt32).toUInt64 ↔ dstSize.toNat < 11968 :=
  UInt64.lt_iff_toNat_lt

section
variable (trackData : Nat → UInt8) (track sectorsPerTrack : UInt32)

theorem be32_longs_length (longs : List UInt32) (h : longs.length = 272) : (longs.flatMap be32).length = 1088 := by
  rw [be32_bytes_length, h]

theorem floppyMfmEncodeSector_length (sectorData : Nat → UInt8) (sector : UInt32) :
    (floppyMfmEncodeSector sectorData track sector sectorsPerTrack).length = 272 := by
  have hbody := sectorBody_length track sectorsPerTrack sectorData sector
  have hcoded := mfmcodeU32_length 0x44894489 (sectorBody sectorData track sector sectorsPerTrack)
  have hlongs : floppyMfmEncodeSector sectorData track sector sectorsPerTrack =
      0xAAAAAAAA :: 0x44894489 :: mfmcodeU32 0x44894489 (sectorBody sectorData track sector sectorsPerTrack) := rfl
  rw [hlongs, List.length_cons, List.length_cons, hcoded, hbody]

/-- A sector leaves what is behind it alone. -/
theorem mfmSectorAt_past (dst : Nat → UInt8) (pos : UInt32) (sec : Nat) {i : Nat} (h : pos.toNat + 1088 ≤ i) :
    (mfmSectorAt trackData track sectorsPerTrack (dst, pos) sec).1 i = dst i := by
  have hlength := be32_longs_length _ (floppyMfmEncodeSector_length track sectorsPerTrack
    (fun i => trackData (sec * amigaSectorSize + i)) (UInt32.ofNat sec))
  have hfirst : pos.toNat + 4 ≤ i := by omega
  unfold mfmSectorAt
  simp only
  rw [writeBytes_past _ hfirst, writeBytes_past]
  rwa [hlength]

/-- **No write is behind the position that 32 bits were enough for.** -/
theorem mfmSectors_past (dst : Nat → UInt8) {pos : UInt32} (haligned : pos.toNat % 4 = 0) (n : Nat) :
    ∀ st, st = (List.range n).foldl (mfmSectorAt trackData track sectorsPerTrack) (dst, pos) →
      (st.2.toNat ≤ pos.toNat + 1088 * n ∧ st.2.toNat % 4 = 0) ∧ ∀ i, pos.toNat + 1088 * n ≤ i → st.1 i = dst i := by
  induction n with
  | zero =>
    rintro st rfl
    exact ⟨⟨Nat.le_refl _, haligned⟩, fun _ _ => rfl⟩
  | succ n ih =>
    rintro st rfl
    rw [List.range_succ, List.foldl_append, List.foldl_cons, List.foldl_nil]
    obtain ⟨⟨hle, hmod⟩, hpast⟩ := ih _ rfl
    generalize (List.range n).foldl (mfmSectorAt trackData track sectorsPerTrack) (dst, pos) = before at hle hmod hpast ⊢
    obtain ⟨buf, at'⟩ := before
    have hnext : (mfmSectorAt trackData track sectorsPerTrack (buf, at') n).2.toNat = (at'.toNat + 1088) % 2 ^ 32 :=
      UInt32.toNat_add at' 1088
    simp only at hle hmod hpast
    rw [hnext]
    refine ⟨⟨by omega, by omega⟩, fun i hi => ?_⟩
    rw [Nat.mul_succ, ← Nat.add_assoc] at hi
    have hroom := (Nat.add_le_add_right hle 1088).trans hi
    rw [mfmSectorAt_past trackData track sectorsPerTrack buf at' n hroom]
    exact hpast i ((Nat.le_add_right _ _).trans hi)

/-! ## Where the position is right -/

theorem readBefore_eq (dst : Nat → UInt8) (pos : UInt32) : (if pos ≥ 4 then readBe32 dst (pos - 4).toNat else 0) =
    if pos.toNat ≥ 4 then readBe32 dst (pos.toNat - 4) else 0 := by
  by_cases hge : pos ≥ 4
  · have hnat : 4 ≤ pos.toNat := UInt32.le_iff_toNat_le.mp hge
    have hsub : (pos - 4).toNat = pos.toNat - 4 := UInt32.toNat_sub_of_le _ _ hge
    rw [if_pos hge, if_pos hnat, hsub]
  · have hnat : ¬ 4 ≤ pos.toNat := fun h => hge (UInt32.le_iff_toNat_le.mpr h)
    rw [if_neg hge, if_neg hnat]

theorem mfmSectorAt_eq (dst : Nat → UInt8) {pos : UInt32} {gap sec : Nat}
    (hpos : pos.toNat = gap + sec * amigaMfmSectorSize) :
    mfmSectorAt trackData track sectorsPerTrack (dst, pos) sec =
      (mfmTrackSector trackData track sectorsPerTrack gap dst sec, pos + 1088) := by
  have hand : ∀ (c : Prop) [Decidable c] (x : UInt32), (if c then x &&& 1 else 0) = (if c then x else 0) &&& 1 := by
    intro c _ x
    split <;> rfl
  unfold mfmSectorAt mfmTrackSector
  simp only [hand, readBefore_eq, hpos]

/-- The loop over sectors that end below 4 GiB. -/
theorem mfmSectors_eq (dst : Nat → UInt8) {pos : UInt32} {gap : Nat} (hpos : pos.toNat = gap) (n : Nat)
    (hroom : gap + n * amigaMfmSectorSize < 2 ^ 32) :
    ∃ pos' : UInt32, pos'.toNat = gap + n * amigaMfmSectorSize ∧
      (List.range n).foldl (mfmSectorAt trackData track sectorsPerTrack) (dst, pos) =
        ((List.range n).foldl (mfmTrackSector trackData track sectorsPerTrack gap) dst, pos') := by
  induction n with
  | zero => exact ⟨pos, by rw [hpos, Nat.zero_mul, Nat.add_zero], rfl⟩
  | succ n ih =>
    rw [Nat.succ_mul, ← Nat.add_assoc] at hroom ⊢
    obtain ⟨pos', hpos', hloop⟩ := ih ((Nat.le_add_right _ _).trans_lt hroom)
    refine ⟨pos' + 1088, ?_, ?_⟩
    · have hadd : (pos' + 1088).toNat = (pos'.toNat + amigaMfmSectorSize) % 2 ^ 32 := UInt32.toNat_add pos' 1088
      rw [hadd, hpos', Nat.mod_eq_of_lt hroom]
    · rw [List.range_succ, List.foldl_append, List.foldl_append, hloop, List.foldl_cons, List.foldl_nil, List.foldl_cons,
        List.foldl_nil, mfmSectorAt_eq _ _ _ _ hpos']

theorem mfmTailAt_eq (dst : Nat → UInt8) {pos : UInt32} {dstSize : UInt64} (hfits : 11968 ≤ dstSize.toNat)
    (hsize : dstSize.toNat ≤ 2 ^ 32) (hpos : pos.toNat = 4 * (dstSize.toNat / 4 - 2992 - 1) + 11968) :
    mfmTailAt dst dstSize.toUInt32 pos = mfmTrackTail dst dstSize.toNat pos.toNat := by
  have hadd : (pos + 4).toNat = (pos.toNat + 4) % 2 ^ 32 := UInt32.toNat_add pos 4
  have hroom : pos + 4 ≤ dstSize.toUInt32 ↔ pos.toNat + 4 ≤ dstSize.toNat := by
    rw [UInt32.le_iff_toNat_le, hadd, UInt64.toNat_toUInt32]
    omega
  unfold mfmTailAt mfmTrackTail
  rw [readBefore_eq]
  by_cases htail : pos.toNat + 4 ≤ dstSize.toNat
  · rw [if_pos (hroom.mpr htail), if_pos htail]
  · rw [if_neg fun h => htail (hroom.mp h), if_neg htail]

end

/-- **Up to 4 GiB the positions do not wrap.** -/
theorem floppyMfmEncodeTrackSized_eq (dst trackData : Nat → UInt8) (track : UInt32) {dstSize : UInt64}
    (hfits : 11968 ≤ dstSize.toNat) (hsize : dstSize.toNat ≤ 2 ^ 32) :
    floppyMfmEncodeTrackSized dst dstSize trackData track 11 =
      floppyMfmEncodeTrack dst dstSize.toNat trackData track amigaSectorsPerTrack := by
  have hwords := mfmGapWords_toNat hfits
  have hsmall : dstSize.toNat - 11968 < 2 ^ 32 := by omega
  rw [Nat.mod_eq_of_lt hsmall] at hwords
  have hroom := (lt_elevenSectors dstSize).not.mpr (Nat.not_lt.mpr hfits)
  have hbytes : amigaSectorsPerTrack * amigaMfmSectorSize = 11968 := rfl
  have hgap : (if (dstSize.toNat - 11968) / 4 > 1 then (dstSize.toNat - 11968) / 4 - 1 else 0) =
      (mfmGapWords dstSize 11968).toNat := by
    rw [hwords]
    split <;> omega
  have hstart := mfmGapEnd_toNat hfits
  unfold floppyMfmEncodeTrackSized floppyMfmEncodeTrack
  rw [elevenSectors, if_neg hroom, hbytes, if_neg (Nat.not_lt.mpr hfits)]
  simp only [hgap]
  generalize mfmGapWords dstSize 11968 = gapWords at hwords hstart
  have hsectors : (11 : UInt32).toNat = amigaSectorsPerTrack := rfl
  rw [Nat.mul_div_cancel_left _ (Nat.succ_pos 3), hsectors]
  have hend : 4 * gapWords.toNat + amigaSectorsPerTrack * amigaMfmSectorSize < 2 ^ 32 := by
    rw [hbytes, hwords]
    omega
  obtain ⟨pos, hpos, hloop⟩ := mfmSectors_eq trackData track 11
    (writeBytes dst 0 ((List.replicate gapWords.toNat (0xAAAAAAAA : UInt32)).flatMap be32)) hstart amigaSectorsPerTrack hend
  rw [hbytes] at hpos
  rw [hloop, ← hpos]
  refine congrArg some (mfmTailAt_eq _ hfits hsize ?_)
  rw [hpos, hwords]
  omega

/-! ## What the buffer held before -/

/-- **The encoded track shows nothing of what was in the buffer.** -/
def EncodesAlike (dstSize : UInt64) (trackData : Nat → UInt8) (track : UInt32) : Prop :=
  ∀ dst dst' raw raw', floppyMfmEncodeTrackSized dst dstSize trackData track 11 = some raw →
    floppyMfmEncodeTrackSized dst' dstSize trackData track 11 = some raw' → ∀ i < dstSize.toNat, raw i = raw' i

section
variable {dstSize : UInt64} (trackData : Nat → UInt8) (track : UInt32)

/-- The sizes that the encoder takes. -/
theorem floppyMfmEncodeTrackSized_isSome (dst : Nat → UInt8) :
    (floppyMfmEncodeTrackSized dst dstSize trackData track 11).isSome = true ↔ 11968 ≤ dstSize.toNat := by
  have hroom := lt_elevenSectors dstSize
  unfold floppyMfmEncodeTrackSized
  rw [elevenSectors]
  by_cases hlt : dstSize.toNat < 11968
  · rw [if_pos (hroom.mpr hlt)]
    exact iff_of_false (fun h => Bool.noConfusion h) (Nat.not_le.mpr hlt)
  · rw [if_neg fun h => hlt (hroom.mp h)]
    exact iff_of_true rfl (Nat.not_lt.mp hlt)

/-- Up to 4 GiB the track is a list of longwords, as many as there is room for. -/
theorem sizedTrack_longs (hfits : 11968 ≤ dstSize.toNat) (hsize : dstSize.toNat ≤ 2 ^ 32) :
    ∃ longs : List UInt32, longs.length = dstSize.toNat / 4 ∧
      ∀ dst, floppyMfmEncodeTrackSized dst dstSize trackData track 11 = some (mfmBuffer dst longs) := by
  have hsectors : 272 * amigaSectorsPerTrack ≤ dstSize.toNat / 4 := by
    unfold amigaSectorsPerTrack
    omega
  refine ⟨encodedLongs trackData track dstSize.toNat amigaSectorsPerTrack, encodedLongs_length _ _ hsectors, fun dst => ?_⟩
  rw [floppyMfmEncodeTrackSized_eq dst trackData track hfits hsize]
  exact floppyMfmEncodeTrack_longs trackData track dst hsectors

/-- Over 4 GiB the zero behind the sectors goes to a wrapped position. -/
theorem sizedTrack_wraps (hsize : 2 ^ 32 < dstSize.toNat) (dst : Nat → UInt8) :
    ∃ raw, floppyMfmEncodeTrackSized dst dstSize trackData track 11 = some raw ∧
      raw (dstSize.toNat - 1) = dst (dstSize.toNat - 1) := by
  have hfits : 11968 ≤ dstSize.toNat := by omega
  have hwords := mfmGapWords_toNat hfits
  have hroom := (lt_elevenSectors dstSize).not.mpr (Nat.not_lt.mpr hfits)
  unfold floppyMfmEncodeTrackSized
  rw [elevenSectors, if_neg hroom]
  refine ⟨_, rfl, ?_⟩
  have hstart := mfmGapEnd_toNat hfits
  generalize mfmGapWords dstSize 11968 = gapWords at hwords hstart ⊢
  have hgap : 0 + ((List.replicate gapWords.toNat (0xAAAAAAAA : UInt32)).flatMap be32).length ≤ dstSize.toNat - 1 := by
    rw [be32_bytes_length, List.length_replicate]
    omega
  have haligned : (gapWords * 4).toNat % 4 = 0 := by omega
  obtain ⟨⟨-, hmod⟩, hpast⟩ := mfmSectors_past trackData track 11
    (writeBytes dst 0 ((List.replicate gapWords.toNat (0xAAAAAAAA : UInt32)).flatMap be32)) haligned 11 _ rfl
  have hloop := hpast (dstSize.toNat - 1) (by omega)
  have hsectors : (11 : UInt32).toNat = 11 := rfl
  rw [hsectors]
  generalize (List.range 11).foldl (mfmSectorAt trackData track 11) _ = st at hmod hloop ⊢
  rw [writeBytes_past dst hgap] at hloop
  unfold mfmTailAt
  split
  · have hlt := st.2.toNat_lt
    have htail : ∀ prev : UInt32, st.2.toNat + ((mfmcodeU32 prev [0]).flatMap be32).length ≤ dstSize.toNat - 1 := by
      intro prev
      rw [be32_bytes_length, mfmcodeU32_length, List.length_singleton]
      omega
    rw [writeBytes_past _ (htail _)]
    exact hloop
  · exact hloop

/-- A last byte that is not written gives the buffer away. -/
theorem not_encodesAlike_of_last (hsome : 0 < dstSize.toNat)
    (h : ∀ dst, ∃ raw, floppyMfmEncodeTrackSized dst dstSize trackData track 11 = some raw ∧
      raw (dstSize.toNat - 1) = dst (dstSize.toNat - 1)) : ¬ EncodesAlike dstSize trackData track := by
  intro halike
  obtain ⟨raw, henc, hlast⟩ := h fun _ => 0
  obtain ⟨raw', henc', hlast'⟩ := h fun _ => 1
  have hsame := halike _ _ raw raw' henc henc' (dstSize.toNat - 1) (Nat.sub_lt hsome (by decide))
  rw [hlast, hlast'] at hsame
  exact absurd hsame (by decide)

/-- Bytes behind the last whole longword are not written. -/
theorem not_encodesAlike_of_rest (hfits : 11968 ≤ dstSize.toNat) (hsize : dstSize.toNat ≤ 2 ^ 32)
    (hrest : dstSize.toNat % 4 ≠ 0) : ¬ EncodesAlike dstSize trackData track := by
  obtain ⟨longs, hlen, henc⟩ := sizedTrack_longs trackData track hfits hsize
  refine not_encodesAlike_of_last trackData track (by omega) fun dst => ⟨_, henc dst, mfmBuffer_past dst longs ?_⟩
  omega

/-- **The encoded track depends only on the image exactly if the buffer has whole longwords and 4 GiB at most.** -/
theorem encodesAlike_iff (haccepts : ∃ dst, (floppyMfmEncodeTrackSized dst dstSize trackData track 11).isSome = true) :
    EncodesAlike dstSize trackData track ↔ dstSize.toNat % 4 = 0 ∧ dstSize.toNat ≤ 2 ^ 32 := by
  obtain ⟨dst, haccept⟩ := haccepts
  have hfits := (floppyMfmEncodeTrackSized_isSome trackData track dst).mp haccept
  by_cases hsize : dstSize.toNat ≤ 2 ^ 32
  · by_cases hrest : dstSize.toNat % 4 = 0
    · refine iff_of_true ?_ ⟨hrest, hsize⟩
      obtain ⟨longs, hlen, henc⟩ := sizedTrack_longs trackData track hfits hsize
      intro d d' raw raw' hraw hraw' i hi
      have hplace : 4 * (i / 4) + i % 4 = i := Nat.div_add_mod i 4
      have hk : i / 4 < longs.length := by omega
      have hj : i % 4 < 4 := Nat.mod_lt _ (by decide)
      rw [← Option.some.inj ((henc d).symm.trans hraw), ← Option.some.inj ((henc d').symm.trans hraw'), ← hplace,
        mfmBuffer_byte d hk _ hj, mfmBuffer_byte d' hk _ hj]
    · exact iff_of_false (not_encodesAlike_of_rest trackData track hfits hsize hrest) fun h => hrest h.1
  · have hbig : 2 ^ 32 < dstSize.toNat := Nat.not_le.mp hsize
    refine iff_of_false ?_ fun h => hsize h.2
    exact not_encodesAlike_of_last trackData track (by omega) (sizedTrack_wraps trackData track hbig)

end

theorem encodesAlike_whole : EncodesAlike 13628 (fun _ => 0) 0 :=
  (encodesAlike_iff (fun _ => 0) 0
    ⟨fun _ => 0, (floppyMfmEncodeTrackSized_isSome (fun _ => 0) 0 fun _ => 0).mpr (by decide)⟩).mpr ⟨by decide, by decide⟩

/-- The disk DMA's buffer of 13630 bytes keeps its last two. -/
theorem encodesAlike_pal : ¬ EncodesAlike (UInt64.ofNat floppyMfmTrackBytesPal) (fun _ => 0) 0 :=
  not_encodesAlike_of_rest (fun _ => 0) 0 (by decide) (by decide) (by decide)

end Rigel
