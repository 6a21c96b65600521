import Mathlib.Data.List.Sort
import Rigel.Bits
import Rigel.Disk

/-!
# MfmTrack — an encoded track and what a reader finds in it

The encoder splits every longword into its odd and its even bits, and puts a clock bit between any two data bits that are
both clear. The sync mark breaks that rule, so that no encoded longword looks like it. A reader takes a track apart again
by the marks: it masks the clock bits and puts the halves together.
-/

namespace Rigel

/-! ## Longwords as bytes -/

/-- A longword put together from bytes is written as these bytes. -/
theorem be32_ofBytes (b0 b1 b2 b3 : UInt8) :
    be32 ((b0.toUInt32 <<< 24) ||| (b1.toUInt32 <<< 16) ||| (b2.toUInt32 <<< 8) ||| b3.toUInt32) = [b0, b1, b2, b3] := by
  have hbits := bytes_testBit b0 b1 b2 b3
  generalize (b0.toUInt32 <<< 24) ||| (b1.toUInt32 <<< 16) ||| (b2.toUInt32 <<< 8) ||| b3.toUInt32 = x at hbits ⊢
  have h0 : (x >>> 24).toUInt8 = b0 := by
    refine toUInt8_of_bits fun j hj => ?_
    simp only [UInt32.toNat_shiftRight, Nat.testBit_shiftRight, UInt32.reduceToNat, Nat.reduceMod, hbits]
    simp [show ¬ 24 + j < 8 by omega, show ¬ 24 + j < 16 by omega, show 24 + j < 32 by omega]
  have h1 : (x >>> 16).toUInt8 = b1 := by
    refine toUInt8_of_bits fun j hj => ?_
    simp only [UInt32.toNat_shiftRight, Nat.testBit_shiftRight, UInt32.reduceToNat, Nat.reduceMod, hbits]
    simp [show ¬ 16 + j < 8 by omega, show 16 + j < 24 by omega]
  have h2 : (x >>> 8).toUInt8 = b2 := by
    refine toUInt8_of_bits fun j hj => ?_
    simp only [UInt32.toNat_shiftRight, Nat.testBit_shiftRight, UInt32.reduceToNat, Nat.reduceMod, hbits]
    simp [show 8 + j < 16 by omega]
  have h3 : x.toUInt8 = b3 := by
    refine toUInt8_of_bits fun j hj => ?_
    simp only [hbits, hj, if_true]
  rw [be32, h0, h1, h2, h3]

theorem be32_readBe32 (p : Nat → UInt8) (i : Nat) : be32 (readBe32 p i) = [p i, p (i + 1), p (i + 2), p (i + 3)] :=
  be32_ofBytes _ _ _ _

/-- A buffer that begins with the bytes of some longwords. -/
def mfmBuffer (dst : Nat → UInt8) (longs : List UInt32) : Nat → UInt8 := writeBytes dst 0 (longs.flatMap be32)

section
variable {dst : Nat → UInt8} {longs : List UInt32}

theorem be32_bytes_length (longs : List UInt32) : (longs.flatMap be32).length = 4 * longs.length := by
  induction longs with
  | nil => rfl
  | cons x longs ih =>
    rw [List.flatMap_cons, List.length_append, ih, List.length_cons]
    simp only [be32, List.length_cons, List.length_nil]
    omega

theorem writeBytes_append (dst : Nat → UInt8) (pos : Nat) (xs ys : List UInt8) :
    writeBytes (writeBytes dst pos xs) (pos + xs.length) ys = writeBytes dst pos (xs ++ ys) := by
  funext i
  simp only [writeBytes, List.length_append, List.getD_eq_getElem?_getD]
  by_cases hx : pos ≤ i ∧ i - pos < xs.length
  · rw [if_neg (by omega), if_pos hx, if_pos (by omega), List.getElem?_append_left hx.2]
  · by_cases hy : pos + xs.length ≤ i ∧ i - (pos + xs.length) < ys.length
    · rw [if_pos hy, if_pos (by omega), List.getElem?_append_right (by omega), Nat.sub_add_eq]
    · rw [if_neg hy, if_neg hx, if_neg (by omega)]

/-- Writing over the first bytes of what was just written. -/
theorem writeBytes_over (pos : Nat) {xs xs' : List UInt8} (ys : List UInt8) (h : xs'.length = xs.length) :
    writeBytes (writeBytes dst pos (xs ++ ys)) pos xs' = writeBytes dst pos (xs' ++ ys) := by
  funext i
  simp only [writeBytes, List.length_append, h, List.getD_eq_getElem?_getD]
  by_cases hx : pos ≤ i ∧ i - pos < xs.length
  · rw [if_pos hx, if_pos (by omega), List.getElem?_append_left (by omega)]
  · rw [if_neg hx]
    by_cases hy : pos ≤ i ∧ i - pos < xs.length + ys.length
    · rw [if_pos hy, if_pos hy, List.getElem?_append_right (by omega), List.getElem?_append_right (by omega), h]
    · rw [if_neg hy, if_neg hy]

theorem mfmBuffer_append (dst : Nat → UInt8) (longs more : List UInt32) :
    writeBytes (mfmBuffer dst longs) (4 * longs.length) (more.flatMap be32) = mfmBuffer dst (longs ++ more) := by
  have hpos := writeBytes_append dst 0 (longs.flatMap be32) (more.flatMap be32)
  rw [Nat.zero_add, be32_bytes_length] at hpos
  rw [mfmBuffer, hpos, mfmBuffer, List.flatMap_append]

theorem writeBytes_past (dst : Nat → UInt8) {pos : Nat} {bytes : List UInt8} {i : Nat} (h : pos + bytes.length ≤ i) :
    writeBytes dst pos bytes i = dst i := by
  rw [writeBytes, if_neg]
  omega

theorem mfmBuffer_past (dst : Nat → UInt8) (longs : List UInt32) {i : Nat} (h : 4 * longs.length ≤ i) :
    mfmBuffer dst longs i = dst i := by
  refine writeBytes_past dst ?_
  rwa [Nat.zero_add, be32_bytes_length]

theorem be32_bytes_getD : ∀ (longs : List UInt32) {k : Nat} (h : k < longs.length) {j : Nat} (_ : j < 4),
    (longs.flatMap be32).getD (4 * k + j) 0 = (be32 longs[k]).getD j 0
  | x :: longs, 0, _, j, hj => by
    rw [Nat.mul_zero, Nat.zero_add, List.flatMap_cons, List.getD_append _ _ _ _ hj]
    rfl
  | x :: longs, k + 1, h, j, hj => by
    have hlen : (be32 x).length = 4 := rfl
    rw [List.flatMap_cons, List.getD_append_right _ _ _ _ (by rw [hlen]; omega), hlen]
    have hplace : 4 * (k + 1) + j - 4 = 4 * k + j := by omega
    rw [hplace]
    exact be32_bytes_getD longs (Nat.lt_of_succ_lt_succ h) hj

theorem mfmBuffer_byte (dst : Nat → UInt8) {k : Nat} (h : k < longs.length) (j : Nat) (hj : j < 4) :
    mfmBuffer dst longs (4 * k + j) = (be32 longs[k]).getD j 0 := by
  rw [mfmBuffer, writeBytes, if_pos, Nat.sub_zero, be32_bytes_getD longs h hj]
  rw [be32_bytes_length]
  omega

theorem mfmBuffer_long (dst : Nat → UInt8) {k : Nat} (h : k < longs.length) :
    readBe32 (mfmBuffer dst longs) (4 * k) = longs[k] := by
  have h0 := mfmBuffer_byte dst h 0 (by decide)
  rw [Nat.add_zero] at h0
  rw [readBe32, h0, mfmBuffer_byte dst h 1 (by decide), mfmBuffer_byte dst h 2 (by decide),
    mfmBuffer_byte dst h 3 (by decide)]
  exact be32_read _

end

/-! ## The code -/

theorem mfmMask_bit : ∀ i : Nat, (h : i < 32) → mfmMask.toBitVec[i] = decide (i % 2 = 0) := by
  decide

/-- One longword with its clock bits. -/
def mfmCode (prev v : UInt32) : UInt32 :=
  v ||| (~~~((prev <<< 31) ||| (v >>> 1)) &&& ~~~(v <<< 1) &&& (0xAAAAAAAA : UInt32))

theorem clockMask_bit : ∀ i : Nat, (h : i < 32) → (0xAAAAAAAA : UInt32).toBitVec[i] = decide (i % 2 = 1) := by
  decide

theorem mfmCode_masked (prev v : UInt32) : mfmCode prev v &&& mfmMask = v &&& mfmMask := by
  apply uint32_ext
  intro i hi
  simp only [mfmCode, UInt32.toBitVec_and, UInt32.toBitVec_or, BitVec.getElem_and, BitVec.getElem_or, mfmMask_bit,
    clockMask_bit]
  by_cases hodd : i % 2 = 0
  · simp [hodd]
  · simp [hodd]

/-- A clock bit is set where both data bits beside it are clear. -/
theorem mfmCode_clock (prev v : UInt32) {i : Nat} (hi : i < 31) (h0 : 0 < i) (hodd : i % 2 = 1)
    (hleft : (mfmCode prev v).toBitVec[i + 1] = false) (hright : (mfmCode prev v).toBitVec[i - 1] = false) :
    (mfmCode prev v).toBitVec[i] = true := by
  have hprev : (prev <<< 31).toBitVec[i] = false := by
    simp only [UInt32.toBitVec_shiftLeft, show UInt32.toBitVec 31 % 32 = 31#32 from rfl, BitVec.shiftLeft_eq']
    rw [BitVec.getElem_shiftLeft]
    simp [hi]
  simp only [mfmCode, UInt32.toBitVec_or, UInt32.toBitVec_and, BitVec.getElem_or, Bool.or_eq_false_iff] at hleft hright
  simp only [mfmCode, UInt32.toBitVec_or, UInt32.toBitVec_and, UInt32.toBitVec_not, BitVec.getElem_or, BitVec.getElem_and,
    BitVec.getElem_not, hprev, shiftRight_one_bit, shiftLeft_one_bit, clockMask_bit]
  simp [hodd, h0, hleft.1, hright.1, show i + 1 < 32 by omega]

/-- Neither half ends in the low byte of the sync word. -/
def MfmClocked (w : UInt32) : Prop := (w >>> 16).toUInt8 ≠ 0x89 ∧ w.toUInt8 ≠ 0x89

/-- The low byte of the sync word has a clock bit missing. -/
theorem mfmCode_clocked (prev v : UInt32) : MfmClocked (mfmCode prev v) := by
  constructor
  · intro h
    have hb : ∀ j, (hj : j < 8) → (mfmCode prev v >>> 16).toUInt8.toBitVec[j] = (0x89 : UInt8).toBitVec[j] := by
      rw [h]
      exact fun _ _ => rfl
    have h20 := hb 4 (by decide)
    have h21 := hb 5 (by decide)
    have h22 := hb 6 (by decide)
    simp at h20 h21 h22
    have hset := mfmCode_clock prev v (i := 21) (by decide) (by decide) (by decide) h22 h20
    exact absurd hset (by simp [h21])
  · intro h
    have hb : ∀ j, (hj : j < 8) → (mfmCode prev v).toUInt8.toBitVec[j] = (0x89 : UInt8).toBitVec[j] := by
      rw [h]
      exact fun _ _ => rfl
    have h4 := hb 4 (by decide)
    have h5 := hb 5 (by decide)
    have h6 := hb 6 (by decide)
    simp at h4 h5 h6
    have hset := mfmCode_clock prev v (i := 5) (by decide) (by decide) (by decide) h6 h4
    exact absurd hset (by simp [h5])

theorem mfmcodeU32_cons (prev x : UInt32) (xs : List UInt32) :
    mfmcodeU32 prev (x :: xs) = mfmCode prev (x &&& mfmMask) :: mfmcodeU32 (x &&& mfmMask) xs := rfl

theorem mfmcodeU32_length : ∀ (prev : UInt32) (xs : List UInt32), (mfmcodeU32 prev xs).length = xs.length
  | _, [] => rfl
  | _, x :: xs => congrArg (· + 1) (mfmcodeU32_length (x &&& mfmMask) xs)

theorem mfmcodeU32_masked : ∀ (prev : UInt32) (xs : List UInt32),
    (mfmcodeU32 prev xs).map (· &&& mfmMask) = xs.map (· &&& mfmMask)
  | _, [] => rfl
  | prev, x :: xs => by
    rw [mfmcodeU32_cons, List.map_cons, List.map_cons, mfmcodeU32_masked _ xs, mfmCode_masked, UInt32.and_assoc,
      UInt32.and_self]

theorem mfmcodeU32_clocked : ∀ (prev : UInt32) (xs : List UInt32), ∀ w ∈ mfmcodeU32 prev xs, MfmClocked w
  | _, [], w, hw => absurd hw (List.not_mem_nil)
  | prev, x :: xs, w, hw => by
    rw [mfmcodeU32_cons, List.mem_cons] at hw
    rcases hw with rfl | hw
    · exact mfmCode_clocked _ _
    · exact mfmcodeU32_clocked _ xs w hw

/-! ## The reader -/

/-- The odd and the even half of a longword, masked and put together. -/
def mfmCombine (odd even : UInt32) : UInt32 := ((odd &&& mfmMask) <<< 1) ||| (even &&& mfmMask)

/-- The halves of a longword give it back. -/
theorem mfmCombine_split (x : UInt32) : mfmCombine (x >>> 1) x = x := by
  apply uint32_ext
  intro i hi
  rw [mfmCombine, UInt32.toBitVec_or, BitVec.getElem_or, shiftLeft_one_bit]
  simp only [UInt32.toBitVec_and, BitVec.getElem_and, mfmMask_bit, shiftRight_one_bit]
  by_cases hodd : i % 2 = 0
  · by_cases h0 : 0 < i
    · simp [h0, hodd, show ¬ (i - 1) % 2 = 0 by omega]
    · simp [h0, hodd]
  · have h0 : 0 < i := by omega
    simp [h0, hodd, show (i - 1) % 2 = 0 by omega, show i - 1 + 1 = i by omega, hi]

def getDecodedLong (raw : Nat → UInt8) (pos offset : Nat) : UInt32 :=
  mfmCombine (readBe32 raw pos) (readBe32 raw (pos + offset))

def readLongs (raw : Nat → UInt8) (pos n : Nat) : List UInt32 := (List.range n).map fun i => readBe32 raw (pos + 4 * i)

/-- The odd halves of `n` longwords, then their even halves. -/
def getDecodedLongs (raw : Nat → UInt8) (pos n : Nat) : List UInt32 :=
  List.zipWith mfmCombine (readLongs raw pos n) (readLongs raw (pos + 4 * n) n)

def floppyMfmChecksum (data : List UInt32) : UInt32 := data.foldl (fun sum x => sum ^^^ (x &&& mfmMask)) 0

/-- What a reader takes from a sector: its longwords, and the checksums of the encoded longwords that it read. -/
structure MfmSector where
  info : UInt32
  label : List UInt32
  headerSum : UInt32
  dataSum : UInt32
  headerXor : UInt32
  dataXor : UInt32
  data : List UInt8

/-- The sector behind a sync mark. -/
def decodeSector (raw : Nat → UInt8) (pos : Nat) : MfmSector where
  info := getDecodedLong raw pos 4
  label := getDecodedLongs raw (pos + 8) 4
  headerSum := getDecodedLong raw (pos + 40) 4
  dataSum := getDecodedLong raw (pos + 48) 4
  headerXor := floppyMfmChecksum (readLongs raw pos 10)
  dataXor := floppyMfmChecksum (readLongs raw (pos + 56) 256)
  data := (getDecodedLongs raw (pos + 56) 128).flatMap be32

def syncWord : UInt16 := 0x4489

/-- The places of the sync marks, two sync words each. -/
def syncMarks (raw : Nat → UInt8) (len : Nat) : List Nat :=
  ((List.range (len / 2 - 1)).filter fun i => readBe16 raw (2 * i) == syncWord && readBe16 raw (2 * i + 2) == syncWord).map
    (2 * ·)

def decodeTrack (raw : Nat → UInt8) (len : Nat) : List MfmSector :=
  (syncMarks raw len).map fun pos => decodeSector raw (pos + 4)

/-! ## The track as longwords -/

/-- The longwords of a sector before the clock bits. -/
def sectorBody (sectorData : Nat → UInt8) (track sector sectorsPerTrack : UInt32) : List UInt32 :=
  let info := mfmSectorInfo track sector sectorsPerTrack
  let raw := (List.range 128).map fun i => readBe32 sectorData (4 * i)
  let hck := mfmOdd info ^^^ mfmEven info
  let dck := raw.foldl (fun c r => c ^^^ mfmOdd r ^^^ mfmEven r) 0
  [mfmOdd info, mfmEven info] ++ List.replicate 8 (0 : UInt32) ++ [hck >>> 1, hck, dck >>> 1, dck] ++ raw.map mfmOdd ++
    raw.map mfmEven

/-- The longword before a sync mark: its first clock bit depends on the track so far. -/
def gapLong (before : List UInt32) : UInt32 := if before.getLastD 0 &&& 1 ≠ 0 then 0x2AAAAAAA else 0xAAAAAAAA

section
variable (trackData : Nat → UInt8) (track sectorsPerTrack : UInt32) (gap : Nat)

/-- The coded longwords of sector `s`. -/
def sectorCoded (s : Nat) : List UInt32 :=
  mfmcodeU32 0x44894489
    (sectorBody (fun i => trackData (s * amigaSectorSize + i)) track (UInt32.ofNat s) sectorsPerTrack)

/-- The gap and the first `n` sectors. -/
def trackLongs : Nat → List UInt32
  | 0 => List.replicate gap 0xAAAAAAAA
  | n + 1 => trackLongs n ++ (gapLong (trackLongs n) :: 0x44894489 :: sectorCoded trackData track sectorsPerTrack n)

theorem sectorBody_length (sectorData : Nat → UInt8) (sector : UInt32) :
    (sectorBody sectorData track sector sectorsPerTrack).length = 270 := by
  simp [sectorBody]

theorem sectorCoded_length (s : Nat) : (sectorCoded trackData track sectorsPerTrack s).length = 270 := by
  rw [sectorCoded, mfmcodeU32_length, sectorBody_length]

theorem trackLongs_length (n : Nat) : (trackLongs trackData track sectorsPerTrack gap n).length = gap + 272 * n := by
  induction n with
  | zero => exact List.length_replicate
  | succ n ih =>
    rw [trackLongs, List.length_append, ih, List.length_cons, List.length_cons, sectorCoded_length]
    omega

/-- The longword before the next one, as the encoder reads it back. -/
theorem mfmBuffer_last (dst : Nat → UInt8) (longs : List UInt32) :
    (if 4 * longs.length ≥ 4 then readBe32 (mfmBuffer dst longs) (4 * longs.length - 4) else 0) = longs.getLastD 0 := by
  rcases List.eq_nil_or_concat' longs with rfl | ⟨init, last, rfl⟩
  · rfl
  · have hlen : (init ++ [last]).length = init.length + 1 := List.length_append
    have hplace : 4 * (init.length + 1) - 4 = 4 * init.length := by omega
    rw [if_pos (by omega), hlen, hplace,
      mfmBuffer_long dst (by omega), List.getElem_concat_length rfl, List.getLastD_concat]

variable {gap}

theorem mfmTrackSector_buffer (dst : Nat → UInt8) (n : Nat) :
    mfmTrackSector trackData track sectorsPerTrack (4 * gap)
        (mfmBuffer dst (trackLongs trackData track sectorsPerTrack gap n)) n =
      mfmBuffer dst (trackLongs trackData track sectorsPerTrack gap (n + 1)) := by
  have hpos : 4 * gap + n * amigaMfmSectorSize = 4 * (trackLongs trackData track sectorsPerTrack gap n).length := by
    rw [trackLongs_length, amigaMfmSectorSize]
    omega
  have hcoded : floppyMfmEncodeSector (fun i => trackData (n * amigaSectorSize + i)) track (UInt32.ofNat n) sectorsPerTrack =
      0xAAAAAAAA :: 0x44894489 :: sectorCoded trackData track sectorsPerTrack n := rfl
  unfold mfmTrackSector
  simp only [hpos, hcoded]
  rw [trackLongs]
  generalize trackLongs trackData track sectorsPerTrack gap n = longs
  have hlast : (if 4 * longs.length ≥ 4 then readBe32 (mfmBuffer dst longs) (4 * longs.length - 4) &&& 1 else 0) =
      longs.getLastD 0 &&& 1 := by
    rw [← mfmBuffer_last dst longs]
    split <;> rfl
  have hover : (be32 (gapLong longs)).length = (be32 0xAAAAAAAA).length := rfl
  rw [hlast, ← gapLong, List.flatMap_cons, writeBytes_over _ _ hover, ← List.flatMap_cons, mfmBuffer_append]

/-- The encoder's loop writes the sectors behind the gap. -/
theorem mfmTrackLoop_buffer (dst : Nat → UInt8) : ∀ m : Nat,
    (List.range m).foldl (mfmTrackSector trackData track sectorsPerTrack (4 * gap))
        (mfmBuffer dst (List.replicate gap 0xAAAAAAAA)) =
      mfmBuffer dst (trackLongs trackData track sectorsPerTrack gap m)
  | 0 => rfl
  | m + 1 => by
    rw [List.range_succ, List.foldl_append, mfmTrackLoop_buffer dst m, List.foldl_cons, List.foldl_nil,
      mfmTrackSector_buffer]

/-- The longwords of a whole track: behind the sectors one coded zero, where there is room for it. -/
def encodedLongs (dstSize n : Nat) : List UInt32 :=
  let longs := trackLongs trackData track (UInt32.ofNat n) (dstSize / 4 - 272 * n - 1) n
  if 272 * n < dstSize / 4 then longs ++ mfmcodeU32 (longs.getLastD 0) [0] else longs

variable {dstSize n : Nat}

theorem encodedLongs_length (hfits : 272 * n ≤ dstSize / 4) :
    (encodedLongs trackData track dstSize n).length = dstSize / 4 := by
  have hlen := trackLongs_length trackData track (UInt32.ofNat n) (dstSize / 4 - 272 * n - 1) n
  unfold encodedLongs
  split
  · rw [List.length_append, hlen, mfmcodeU32_length, List.length_singleton]
    omega
  · rw [hlen]
    omega

/-- **The encoder writes the longwords of the track**, as many as there is room for. -/
theorem floppyMfmEncodeTrack_longs (dst : Nat → UInt8) (hfits : 272 * n ≤ dstSize / 4) :
    floppyMfmEncodeTrack dst dstSize trackData track n =
      some (mfmBuffer dst (encodedLongs trackData track dstSize n)) := by
  have hroom : ¬ dstSize < n * amigaMfmSectorSize := by
    rw [amigaMfmSectorSize]
    omega
  have hwords : (if (dstSize - n * amigaMfmSectorSize) / 4 > 1 then (dstSize - n * amigaMfmSectorSize) / 4 - 1 else 0) =
      dstSize / 4 - 272 * n - 1 := by
    rw [amigaMfmSectorSize]
    split <;> omega
  have hlen := trackLongs_length trackData track (UInt32.ofNat n) (dstSize / 4 - 272 * n - 1) n
  have hend : 4 * (dstSize / 4 - 272 * n - 1) + n * amigaMfmSectorSize =
      4 * (trackLongs trackData track (UInt32.ofNat n) (dstSize / 4 - 272 * n - 1) n).length := by
    rw [hlen, amigaMfmSectorSize]
    omega
  unfold floppyMfmEncodeTrack encodedLongs
  rw [if_neg hroom]
  simp only [hwords]
  rw [Nat.mul_div_cancel_left _ (Nat.succ_pos 3), ← mfmBuffer, mfmTrackLoop_buffer, hend, mfmTrackTail]
  by_cases htail : 272 * n < dstSize / 4
  · rw [if_pos (by omega), if_pos htail, mfmBuffer_last, mfmBuffer_append]
  · rw [if_neg (by omega), if_neg htail]

/-- The gap, the sectors and one coded zero. -/
theorem floppyMfmEncodeTrack_buffer (dst : Nat → UInt8) (hsize : dstSize / 4 = gap + 272 * n + 1) :
    ∃ last, floppyMfmEncodeTrack dst dstSize trackData track n =
      some (mfmBuffer dst (trackLongs trackData track (UInt32.ofNat n) gap n ++ mfmcodeU32 last [0])) := by
  have hgap : dstSize / 4 - 272 * n - 1 = gap := by omega
  have hfits : 272 * n ≤ dstSize / 4 := by omega
  have hlongs := floppyMfmEncodeTrack_longs trackData track dst hfits
  rw [encodedLongs, hgap, if_pos (by omega)] at hlongs
  exact ⟨_, hlongs⟩

end

/-! ## The marks -/

theorem filter_range_eq_map {p : Nat → Bool} {f : Nat → Nat} {m n : Nat} (hf : StrictMono f) (hlt : ∀ s < n, f s < m)
    (hp : ∀ i < m, p i = true ↔ ∃ s < n, i = f s) : (List.range m).filter p = (List.range n).map f := by
  refine List.Pairwise.eq_of_mem_iff (r := (· < ·)) (List.pairwise_lt_range.filter p) ?_ fun i => ?_
  · exact List.pairwise_map.mpr (List.pairwise_lt_range.imp fun h => hf h)
  · simp only [List.mem_filter, List.mem_range, List.mem_map]
    constructor
    · rintro ⟨hi, h⟩
      obtain ⟨s, hs, rfl⟩ := (hp i hi).mp h
      exact ⟨s, hs, rfl⟩
    · rintro ⟨s, hs, rfl⟩
      exact ⟨hlt s hs, (hp _ (hlt s hs)).mpr ⟨s, hs, rfl⟩⟩

/-- The longwords of a track that are sync marks: the second one of each sector. -/
def SyncAt (gap n k : Nat) : Prop := ∃ s < n, k = gap + 272 * s + 1

/-- The sync marks are where they belong, and every other longword is clocked. -/
def Synced (gap n : Nat) (longs : List UInt32) : Prop :=
  ∀ k, (h : k < longs.length) → (SyncAt gap n k → longs[k] = 0x44894489) ∧ (¬ SyncAt gap n k → MfmClocked longs[k])

theorem gapLong_clocked (before : List UInt32) : MfmClocked (gapLong before) := by
  unfold gapLong
  split
  · exact ⟨by decide, by decide⟩
  · exact ⟨by decide, by decide⟩

/-- A sector may follow: a clocked longword, the mark, and 270 clocked longwords. -/
theorem Synced.sector {gap n : Nat} {longs coded : List UInt32} {pad : UInt32} (h : Synced gap n longs)
    (hlen : longs.length = gap + 272 * n) (hpad : MfmClocked pad) (hcoded : ∀ w ∈ coded, MfmClocked w)
    (hcount : coded.length = 270) : Synced gap (n + 1) (longs ++ pad :: 0x44894489 :: coded) := by
  intro k hk
  by_cases hbefore : k < longs.length
  · rw [List.getElem_append_left hbefore]
    obtain ⟨hmark, hclocked⟩ := h k hbefore
    refine ⟨fun ⟨s, hs, he⟩ => hmark ⟨s, by omega, he⟩, fun hnot => hclocked fun ⟨s, hs, he⟩ => hnot ⟨s, by omega, he⟩⟩
  · obtain ⟨j, rfl⟩ : ∃ j, k = longs.length + j := ⟨_, (Nat.add_sub_of_le (Nat.not_lt.mp hbefore)).symm⟩
    rw [List.length_append, List.length_cons, List.length_cons, hcount] at hk
    rw [List.getElem_append_right (Nat.le_add_right _ _)]
    simp only [Nat.add_sub_cancel_left]
    match j with
    | 0 => exact ⟨fun ⟨s, hs, he⟩ => by omega, fun _ => hpad⟩
    | 1 => exact ⟨fun _ => rfl, fun hnot => absurd ⟨n, Nat.lt_succ_self n, by omega⟩ hnot⟩
    | j + 2 => exact ⟨fun ⟨s, hs, he⟩ => by omega, fun _ => hcoded _ (List.getElem_mem _)⟩

theorem trackLongs_synced (trackData : Nat → UInt8) (track sectorsPerTrack : UInt32) (gap n : Nat) :
    Synced gap n (trackLongs trackData track sectorsPerTrack gap n) := by
  induction n with
  | zero =>
    intro k h
    refine ⟨fun ⟨s, hs, _⟩ => absurd hs (Nat.not_lt_zero s), fun _ => ?_⟩
    simp only [trackLongs, List.getElem_replicate]
    exact ⟨by decide, by decide⟩
  | succ n ih =>
    exact ih.sector (trackLongs_length trackData track sectorsPerTrack gap n) (gapLong_clocked _)
      (fun w hw => mfmcodeU32_clocked _ _ w hw) (sectorCoded_length trackData track sectorsPerTrack n)

theorem Synced.append {gap n : Nat} {longs more : List UInt32} (h : Synced gap n longs) (hlen : gap + 272 * n ≤ longs.length)
    (hmore : ∀ w ∈ more, MfmClocked w) : Synced gap n (longs ++ more) := by
  intro k hk
  by_cases hl : k < longs.length
  · rw [List.getElem_append_left hl]
    exact h k hl
  · rw [List.getElem_append_right (Nat.not_lt.mp hl)]
    exact ⟨fun ⟨s, hs, he⟩ => by omega, fun _ => hmore _ (List.getElem_mem _)⟩

theorem readBe16_low (p : Nat → UInt8) (i : Nat) : (readBe16 p i).toUInt8 = p (i + 1) := by
  apply UInt8.toBitVec_inj.mp
  ext j hj
  simp [readBe16]

section
variable {gap n : Nat} {longs : List UInt32} {k : Nat}

theorem Synced.mark (h : Synced gap n longs) (dst : Nat → UInt8) (hk : k < longs.length) (hs : SyncAt gap n k) :
    readBe16 (mfmBuffer dst longs) (4 * k) = syncWord ∧ readBe16 (mfmBuffer dst longs) (4 * k + 2) = syncWord := by
  have hlong := (h k hk).1 hs
  have h0 := mfmBuffer_byte dst hk 0 (by decide)
  have h1 := mfmBuffer_byte dst hk 1 (by decide)
  have h2 := mfmBuffer_byte dst hk 2 (by decide)
  have h3 := mfmBuffer_byte dst hk 3 (by decide)
  rw [hlong] at h0 h1 h2 h3
  rw [Nat.add_zero] at h0
  constructor
  · rw [readBe16, h0, h1]
    rfl
  · rw [readBe16, h2, h3]
    rfl

theorem Synced.noMark (h : Synced gap n longs) (dst : Nat → UInt8) (hk : k < longs.length) (hs : ¬ SyncAt gap n k) :
    readBe16 (mfmBuffer dst longs) (4 * k) ≠ syncWord ∧ readBe16 (mfmBuffer dst longs) (4 * k + 2) ≠ syncWord := by
  obtain ⟨hhi, hlo⟩ := (h k hk).2 hs
  refine ⟨fun he => hhi ?_, fun he => hlo ?_⟩
  · have hlow := readBe16_low (mfmBuffer dst longs) (4 * k)
    rw [he, mfmBuffer_byte dst hk 1 (by decide)] at hlow
    exact hlow.symm
  · have hlow := readBe16_low (mfmBuffer dst longs) (4 * k + 2)
    rw [he, mfmBuffer_byte dst hk 3 (by decide)] at hlow
    exact hlow.symm

/-- **The reader finds the marks, in order, and no others.** -/
theorem syncMarks_buffer (h : Synced gap n longs) (dst : Nat → UInt8) {len : Nat} (hfrom : gap + 272 * n ≤ longs.length)
    (hto : len / 2 - 1 ≤ 2 * longs.length) (hall : 2 * (gap + 272 * n) ≤ len / 2 - 1) :
    syncMarks (mfmBuffer dst longs) len = (List.range n).map fun s => 4 * (gap + 272 * s + 1) := by
  have hfilter : ((List.range (len / 2 - 1)).filter fun i =>
      readBe16 (mfmBuffer dst longs) (2 * i) == syncWord && readBe16 (mfmBuffer dst longs) (2 * i + 2) == syncWord) =
        (List.range n).map fun s => 2 * (gap + 272 * s + 1) := by
    refine filter_range_eq_map (fun a b hab => by omega) (fun s hs => by omega) fun i hi => ?_
    simp only [Bool.and_eq_true, beq_iff_eq]
    have hk : i / 2 < longs.length := by omega
    rcases Nat.mod_two_eq_zero_or_one i with heven | hodd
    · have hplace : 2 * i = 4 * (i / 2) := by omega
      rw [hplace]
      by_cases hs : SyncAt gap n (i / 2)
      · refine ⟨fun _ => ?_, fun _ => h.mark dst hk hs⟩
        obtain ⟨s, hs, he⟩ := hs
        exact ⟨s, hs, by omega⟩
      · refine ⟨fun hwords => absurd hwords.1 (h.noMark dst hk hs).1, fun ⟨s, hlt, he⟩ => absurd ⟨s, hlt, ?_⟩ hs⟩
        omega
    · refine ⟨fun hwords => ?_, fun ⟨s, hlt, he⟩ => by omega⟩
      have hplace : 2 * i = 4 * (i / 2) + 2 := by omega
      rw [hplace] at hwords
      -- the second sync word would be the first half of the longword behind a mark
      by_cases hs : SyncAt gap n (i / 2)
      · have hnext : ¬ SyncAt gap n (i / 2 + 1) := by
          obtain ⟨s, hs, he⟩ := hs
          rintro ⟨s', hs', he'⟩
          omega
        have hlt : i / 2 + 1 < longs.length := by
          obtain ⟨s, hs, he⟩ := hs
          omega
        exact absurd hwords.2 (h.noMark dst hlt hnext).1
      · exact absurd hwords.1 (h.noMark dst hk hs).2
  rw [syncMarks, hfilter, List.map_map]
  refine List.map_congr_left fun s _ => ?_
  show 2 * (2 * (gap + 272 * s + 1)) = _
  omega

end

/-! ## A sector read back -/

theorem readLongs_buffer (dst : Nat → UInt8) (before slice after : List UInt32) :
    readLongs (mfmBuffer dst (before ++ slice ++ after)) (4 * before.length) slice.length = slice := by
  refine List.ext_getElem (by simp [readLongs]) fun i hi hi' => ?_
  have hlt : before.length + i < (before ++ slice ++ after).length := by
    simp only [List.length_append]
    omega
  simp only [readLongs, List.getElem_map, List.getElem_range]
  rw [← Nat.mul_add, mfmBuffer_long dst hlt, List.getElem_append_left (by rw [List.length_append]; omega),
    List.getElem_append_right (Nat.le_add_right _ _)]
  simp only [Nat.add_sub_cancel_left]

section
variable (trackData : Nat → UInt8) (track sectorsPerTrack : UInt32) (gap : Nat)

theorem trackLongs_split {s n : Nat} (h : s < n) :
    ∃ after, trackLongs trackData track sectorsPerTrack gap n =
      (trackLongs trackData track sectorsPerTrack gap s ++
          [gapLong (trackLongs trackData track sectorsPerTrack gap s), 0x44894489]) ++
        sectorCoded trackData track sectorsPerTrack s ++ after := by
  induction n with
  | zero => exact absurd h (Nat.not_lt_zero s)
  | succ n ih =>
    rcases Nat.lt_succ_iff_lt_or_eq.mp h with hlt | rfl
    · obtain ⟨after, ha⟩ := ih hlt
      rw [trackLongs, ha]
      exact ⟨after ++ _, List.append_assoc _ _ _⟩
    · refine ⟨[], ?_⟩
      rw [trackLongs, List.append_nil, List.append_assoc]
      rfl

end

/-- The longwords of a body, and a reader's buffer that has them coded from `pos` on. -/
def CodedAt (raw : Nat → UInt8) (pos : Nat) (body : List UInt32) : Prop :=
  ∀ off n, off + n ≤ body.length →
    (readLongs raw (pos + 4 * off) n).map (· &&& mfmMask) = ((body.drop off).take n).map (· &&& mfmMask)

theorem codedAt_buffer (dst : Nat → UInt8) (before after : List UInt32) (prev : UInt32) (body : List UInt32) :
    CodedAt (mfmBuffer dst (before ++ mfmcodeU32 prev body ++ after)) (4 * before.length) body := by
  intro off n h
  have hlen := mfmcodeU32_length prev body
  have hslice : before ++ mfmcodeU32 prev body ++ after =
      (before ++ (mfmcodeU32 prev body).take off) ++ ((mfmcodeU32 prev body).drop off).take n ++
        (((mfmcodeU32 prev body).drop off).drop n ++ after) := by
    simp only [List.append_assoc, List.append_cancel_left_eq]
    rw [← List.append_assoc (List.take n _), List.take_append_drop, ← List.append_assoc, List.take_append_drop]
  have hbefore : (before ++ (mfmcodeU32 prev body).take off).length = before.length + off := by
    rw [List.length_append, List.length_take]
    omega
  have hn : (((mfmcodeU32 prev body).drop off).take n).length = n := by
    rw [List.length_take, List.length_drop]
    omega
  have hread := readLongs_buffer dst (before ++ (mfmcodeU32 prev body).take off)
    (((mfmcodeU32 prev body).drop off).take n) (((mfmcodeU32 prev body).drop off).drop n ++ after)
  rw [← hslice, hbefore, hn, Nat.mul_add] at hread
  rw [hread, List.map_take, List.map_drop, mfmcodeU32_masked, ← List.map_drop, ← List.map_take]

/-- Each sector of the track is coded behind its mark. -/
theorem codedAt_track (trackData : Nat → UInt8) (track sectorsPerTrack : UInt32) (gap : Nat) (dst : Nat → UInt8)
    (more : List UInt32) {s n : Nat} (h : s < n) :
    CodedAt (mfmBuffer dst (trackLongs trackData track sectorsPerTrack gap n ++ more)) (4 * (gap + 272 * s + 1) + 4)
      (sectorBody (fun i => trackData (s * amigaSectorSize + i)) track (UInt32.ofNat s) sectorsPerTrack) := by
  obtain ⟨after, hsplit⟩ := trackLongs_split trackData track sectorsPerTrack gap h
  have hlen := trackLongs_length trackData track sectorsPerTrack gap s
  rw [hsplit]
  generalize trackLongs trackData track sectorsPerTrack gap s = before at hlen ⊢
  have hcoded := codedAt_buffer dst (before ++ [gapLong before, 0x44894489]) (after ++ more) 0x44894489
    (sectorBody (fun i => trackData (s * amigaSectorSize + i)) track (UInt32.ofNat s) sectorsPerTrack)
  have hpos : 4 * (before ++ [gapLong before, 0x44894489]).length = 4 * (gap + 272 * s + 1) + 4 := by
    rw [List.length_append, hlen]
    rfl
  rwa [hpos, ← List.append_assoc, ← sectorCoded] at hcoded

section
variable {raw : Nat → UInt8} {pos : Nat} {body : List UInt32}

/-- The checksum reads the data bits. -/
theorem floppyMfmChecksum_masked {xs ys : List UInt32} (h : xs.map (· &&& mfmMask) = ys.map (· &&& mfmMask)) :
    floppyMfmChecksum xs = floppyMfmChecksum ys := by
  have hmap : ∀ zs : List UInt32, floppyMfmChecksum zs = (zs.map (· &&& mfmMask)).foldl (· ^^^ ·) 0 := by
    intro zs
    rw [List.foldl_map]
    rfl
  rw [hmap, hmap, h]

theorem mfmCombine_mask (odd even : UInt32) : mfmCombine (odd &&& mfmMask) (even &&& mfmMask) = mfmCombine odd even := by
  rw [mfmCombine, UInt32.and_assoc, UInt32.and_assoc, UInt32.and_self, mfmCombine]

theorem combine_masked {xs xs' ys ys' : List UInt32} (hx : xs.map (· &&& mfmMask) = xs'.map (· &&& mfmMask))
    (hy : ys.map (· &&& mfmMask) = ys'.map (· &&& mfmMask)) :
    List.zipWith mfmCombine xs ys = List.zipWith mfmCombine xs' ys' := by
  have hmap : ∀ xs ys : List UInt32, List.zipWith mfmCombine xs ys =
      List.zipWith mfmCombine (xs.map (· &&& mfmMask)) (ys.map (· &&& mfmMask)) := by
    intro xs ys
    simp only [List.zipWith_map, mfmCombine_mask]
  rw [hmap, hx, hy, ← hmap]

theorem CodedAt.long (h : CodedAt raw pos body) {off : Nat} {odd even : UInt32} {rest : List UInt32}
    (hoff : off + 2 ≤ body.length) (hbody : body.drop off = odd :: even :: rest) :
    getDecodedLong raw (pos + 4 * off) 4 = mfmCombine odd even := by
  have hread := h off 2 hoff
  rw [hbody] at hread
  have htwo : readLongs raw (pos + 4 * off) 2 = [readBe32 raw (pos + 4 * off), readBe32 raw (pos + 4 * off + 4)] := rfl
  rw [htwo] at hread
  simp only [List.map_cons, List.map_nil, List.take_succ_cons, List.take_zero, List.cons.injEq, and_true] at hread
  rw [getDecodedLong, ← mfmCombine_mask, hread.1, hread.2, mfmCombine_mask]

theorem CodedAt.longs (h : CodedAt raw pos body) (off : Nat) {odds evens rest : List UInt32}
    (hlen : evens.length = odds.length) (hbody : body.drop off = odds ++ evens ++ rest)
    (hoff : off + 2 * odds.length ≤ body.length) :
    getDecodedLongs raw (pos + 4 * off) odds.length = List.zipWith mfmCombine odds evens := by
  have hodds := h off odds.length (by omega)
  have hevens := h (off + odds.length) odds.length (by omega)
  rw [hbody, List.append_assoc, List.take_left] at hodds
  rw [← List.drop_drop, hbody, List.append_assoc, List.drop_left, ← hlen, List.take_left] at hevens
  rw [getDecodedLongs]
  refine combine_masked hodds ?_
  rw [← hevens, hlen]
  congr 2
  omega

end

/-! ## The round trip -/

/-- What sector `s` of a track carries. -/
structure CarriesSector (trackData : Nat → UInt8) (track : UInt8) (s : Nat) (d : MfmSector) : Prop where
  info : be32 d.info = [0xFF, track, UInt8.ofNat s, UInt8.ofNat (amigaSectorsPerTrack - s)]
  label : d.label = [0, 0, 0, 0]
  headerSum : d.headerSum = d.headerXor
  dataSum : d.dataSum = d.dataXor
  data : d.data = (List.range amigaSectorSize).map fun i => trackData (s * amigaSectorSize + i)

theorem sectorInfo_bytes (track : UInt8) {s : Nat} (h : s < amigaSectorsPerTrack) :
    be32 (mfmSectorInfo track.toUInt32 (UInt32.ofNat s) (UInt32.ofNat amigaSectorsPerTrack)) =
      [0xFF, track, UInt8.ofNat s, UInt8.ofNat (amigaSectorsPerTrack - s)] := by
  have htrack : track.toUInt32 &&& (0xFF : UInt32) = track.toUInt32 := by
    apply UInt32.toNat_inj.mp
    rw [UInt32.toNat_and, UInt8.toNat_toUInt32]
    exact Nat.and_two_pow_sub_one_of_lt_two_pow track.toNat_lt
  have hbytes : ∀ s < amigaSectorsPerTrack, UInt32.ofNat s &&& (0xFF : UInt32) = (UInt8.ofNat s).toUInt32 ∧
      (UInt32.ofNat amigaSectorsPerTrack - UInt32.ofNat s) &&& (0xFF : UInt32) =
        (UInt8.ofNat (amigaSectorsPerTrack - s)).toUInt32 := by decide
  obtain ⟨hs, hgap⟩ := hbytes s h
  rw [mfmSectorInfo, htrack, hs, hgap]
  exact be32_ofBytes 0xFF _ _ _

theorem mfmHalves_masked (x : UInt32) : mfmOdd x &&& mfmMask = mfmOdd x ∧ mfmEven x &&& mfmMask = mfmEven x := by
  constructor
  · rw [mfmOdd, UInt32.and_assoc, UInt32.and_self]
  · rw [mfmEven, UInt32.and_assoc, UInt32.and_self]

theorem mfmCombine_halves (x : UInt32) : mfmCombine (mfmOdd x) (mfmEven x) = x := by
  rw [mfmOdd, mfmEven, mfmCombine_mask, mfmCombine_split]

/-- A term of a checksum may be added last. -/
theorem checksum_xor (y : UInt32) : ∀ (xs : List UInt32) (c : UInt32),
    xs.foldl (fun sum x => sum ^^^ (x &&& mfmMask)) (c ^^^ y) = xs.foldl (fun sum x => sum ^^^ (x &&& mfmMask)) c ^^^ y
  | [], _ => rfl
  | x :: xs, c => by
    rw [List.foldl_cons, List.foldl_cons, ← checksum_xor y xs, UInt32.xor_assoc, UInt32.xor_comm y, ← UInt32.xor_assoc]

/-- The checksum of the odd halves and then the even ones is the one gathered longword by longword. -/
theorem checksum_halves (raw : List UInt32) :
    floppyMfmChecksum (raw.map mfmOdd ++ raw.map mfmEven) = raw.foldl (fun c r => c ^^^ mfmOdd r ^^^ mfmEven r) 0 := by
  have hgather : ∀ (raw : List UInt32) (c : UInt32),
      (raw.map mfmEven).foldl (fun sum x => sum ^^^ (x &&& mfmMask))
          ((raw.map mfmOdd).foldl (fun sum x => sum ^^^ (x &&& mfmMask)) c) =
        raw.foldl (fun c r => c ^^^ mfmOdd r ^^^ mfmEven r) c := by
    intro raw
    induction raw with
    | nil => exact fun _ => rfl
    | cons r raw ih =>
      intro c
      simp only [List.map_cons, List.foldl_cons]
      rw [(mfmHalves_masked r).1, (mfmHalves_masked r).2, ← ih, ← checksum_xor]
  rw [floppyMfmChecksum, List.foldl_append, hgather]

/-- Four bytes at a time. -/
theorem flatMap_bytes (p : Nat → UInt8) (n : Nat) :
    ((List.range n).map fun i => readBe32 p (4 * i)).flatMap be32 = (List.range (4 * n)).map p := by
  induction n with
  | zero => rfl
  | succ n ih =>
    rw [List.range_succ, List.map_append, List.flatMap_append, ih, Nat.mul_succ, List.range_add, List.map_append]
    simp only [List.map_cons, List.map_nil, List.flatMap_cons, List.flatMap_nil, List.append_nil, be32_readBe32]
    rfl

/-- **A sector is read back** from the longwords that it was coded in. -/
theorem CodedAt.sector {raw : Nat → UInt8} {pos : Nat} {trackData : Nat → UInt8} {track : UInt8} {s : Nat}
    (h : CodedAt raw pos (sectorBody (fun i => trackData (s * amigaSectorSize + i)) track.toUInt32 (UInt32.ofNat s)
      (UInt32.ofNat amigaSectorsPerTrack))) (hs : s < amigaSectorsPerTrack) :
    CarriesSector trackData track s (decodeSector raw pos) := by
  have hinfo := sectorInfo_bytes track hs
  have hbytes := flatMap_bytes (fun i => trackData (s * amigaSectorSize + i)) 128
  unfold sectorBody at h
  simp only at h
  generalize mfmSectorInfo track.toUInt32 (UInt32.ofNat s) (UInt32.ofNat amigaSectorsPerTrack) = info at h hinfo
  have hwords : ((List.range 128).map fun i => readBe32 (fun i => trackData (s * amigaSectorSize + i)) (4 * i)).length =
    128 := by simp
  generalize ((List.range 128).map fun i => readBe32 (fun i => trackData (s * amigaSectorSize + i)) (4 * i)) = data
    at h hbytes hwords
  have hsum := checksum_halves data
  generalize data.foldl (fun c r => c ^^^ mfmOdd r ^^^ mfmEven r) 0 = dck at h hsum
  have hodds : (data.map mfmOdd).length = 128 := by rw [List.length_map, hwords]
  have hevens : (data.map mfmEven).length = 128 := by rw [List.length_map, hwords]
  have hlen : ([mfmOdd info, mfmEven info] ++ List.replicate 8 (0 : UInt32) ++ [(mfmOdd info ^^^ mfmEven info) >>> 1,
      mfmOdd info ^^^ mfmEven info, dck >>> 1, dck] ++ data.map mfmOdd ++ data.map mfmEven).length = 270 := by
    simp only [List.length_append, List.length_cons, List.length_nil, List.length_replicate, hodds, hevens]
  have hplaces : pos + 8 = pos + 4 * 2 ∧ pos + 40 = pos + 4 * 10 ∧ pos + 48 = pos + 4 * 12 ∧ pos + 56 = pos + 4 * 14 :=
    ⟨rfl, rfl, rfl, rfl⟩
  obtain ⟨h2, h10, h12, h14⟩ := hplaces
  unfold decodeSector
  rw [h2, h10, h12, h14]
  refine ⟨?_, ?_, ?_, ?_, ?_⟩
  · simp only
    rw [← Nat.add_zero pos, ← Nat.mul_zero 4, h.long (by omega) rfl, mfmCombine_halves, hinfo]
  · have hlabel : getDecodedLongs raw (pos + 4 * 2) (List.replicate 4 (0 : UInt32)).length =
        List.zipWith mfmCombine (List.replicate 4 0) (List.replicate 4 0) := h.longs 2 rfl rfl (by rw [hlen]; decide)
    exact hlabel
  · have hread := h 0 10 (by omega)
    rw [Nat.mul_zero, Nat.add_zero] at hread
    simp only
    rw [h.long (by omega) rfl, mfmCombine_split, floppyMfmChecksum_masked hread]
    show _ = floppyMfmChecksum ([mfmOdd info, mfmEven info] ++ List.replicate 8 0)
    obtain ⟨hodd, heven⟩ := mfmHalves_masked info
    simp [floppyMfmChecksum, List.replicate, hodd, heven]
  · simp only
    rw [h.long (by omega) rfl, mfmCombine_split, floppyMfmChecksum_masked (h 14 256 (by omega)), ← hsum]
    refine congrArg floppyMfmChecksum (List.take_of_length_le ?_).symm
    rw [List.length_append, hodds, hevens]
  · have hlongs : getDecodedLongs raw (pos + 4 * 14) (data.map mfmOdd).length =
        List.zipWith mfmCombine (data.map mfmOdd) (data.map mfmEven) :=
      h.longs 14 (hevens.trans hodds.symm) (List.append_nil _).symm (by omega)
    rw [hodds] at hlongs
    simp only
    rw [hlongs, List.zipWith_map, List.zipWith_self]
    simp only [mfmCombine_halves, List.map_id']
    exact hbytes

/-- **MFM track round trip.** Whatever the buffer held before, a reader finds the eleven sectors of the encoded track in
order, and no others: each with its info longword, with checksums that agree with the longwords they cover, and with the
source's bytes. -/
theorem mfmTrack_roundTrip (dst trackData : Nat → UInt8) (track : UInt8) :
    ∃ raw, floppyMfmEncodeTrack dst floppyMfmTrackBytesPal trackData track.toUInt32 amigaSectorsPerTrack = some raw ∧
      List.Forall₂ (CarriesSector trackData track) (List.range amigaSectorsPerTrack)
        (decodeTrack raw floppyMfmTrackBytesPal) := by
  have hwords : floppyMfmTrackBytesPal / 4 = 414 + 272 * amigaSectorsPerTrack + 1 := rfl
  obtain ⟨last, hencode⟩ := floppyMfmEncodeTrack_buffer trackData track.toUInt32 dst hwords
  refine ⟨_, hencode, ?_⟩
  have hlen := trackLongs_length trackData track.toUInt32 (UInt32.ofNat amigaSectorsPerTrack) 414 amigaSectorsPerTrack
  have hsynced := (trackLongs_synced trackData track.toUInt32 (UInt32.ofNat amigaSectorsPerTrack) 414
    amigaSectorsPerTrack).append hlen.ge (mfmcodeU32_clocked last [0])
  have hall : (trackLongs trackData track.toUInt32 (UInt32.ofNat amigaSectorsPerTrack) 414 amigaSectorsPerTrack ++
      mfmcodeU32 last [0]).length = 414 + 272 * amigaSectorsPerTrack + 1 := by
    rw [List.length_append, hlen, mfmcodeU32_length]
    rfl
  rw [decodeTrack, syncMarks_buffer hsynced dst (by omega) (by rw [hall]; decide) (by decide), List.map_map,
    List.forall₂_map_right_iff, List.forall₂_same]
  intro s hs
  have hlt := List.mem_range.mp hs
  exact (codedAt_track trackData track.toUInt32 (UInt32.ofNat amigaSectorsPerTrack) 414 dst _ hlt).sector hlt

end Rigel
