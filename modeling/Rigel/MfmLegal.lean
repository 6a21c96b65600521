import Mathlib.Data.List.Chain
import Rigel.MfmTrack

/-!
# MfmLegal — the bit stream of an encoded track

On the disk a track is a stream of bits, a clock and a datum in turn. A clock that is set exactly between two clear data
bits keeps ones apart and zeros few. The encoder's clocks all follow this rule, over the joints of its longwords too, but
for the two that are missing in a sync mark; and the low byte of the sync word needs a missing clock.
-/

namespace Rigel

/-! ## Clocked bits -/

/-- Between two ones there are one to three zeros. -/
structure RunLimited (s : Nat → Bool) (n : Nat) : Prop where
  ones : ∀ i, i + 1 < n → ¬ (s i = true ∧ s (i + 1) = true)
  zeros : ∀ i, i + 3 < n → s i = true ∨ s (i + 1) = true ∨ s (i + 2) = true ∨ s (i + 3) = true

/-- The clock at `i` is set exactly between two clear data bits. -/
def ClockRule (s : Nat → Bool) (i : Nat) : Prop := s i = (!s (i - 1) && !s (i + 1))

/-- The clock at `i` is missing, and the clocks beside it are set. -/
structure ClockMissing (s : Nat → Bool) (i : Nat) : Prop where
  before : s (i - 2) = true
  left : s (i - 1) = false
  clock : s i = false
  right : s (i + 1) = false
  after : s (i + 2) = true

/-- **A stream of ruled and missing clocks is run limited.** -/
theorem runLimited_of_clocks {s : Nat → Bool} {n : Nat} (hfirst : ¬ (s 0 = true ∧ s 1 = true))
    (h : ∀ i, 0 < i → i < n → i % 2 = 0 → ClockRule s i ∨ ClockMissing s i) : RunLimited s n where
  ones i hi := by
    rintro ⟨hs, hs'⟩
    rcases Nat.mod_two_eq_zero_or_one i with heven | hodd
    · rcases Nat.eq_zero_or_pos i with rfl | hpos
      · exact hfirst ⟨hs, hs'⟩
      rcases h i hpos (by omega) heven with hrule | hmissing
      · rw [ClockRule, hs, hs'] at hrule
        simp at hrule
      · rw [hmissing.clock] at hs
        exact Bool.noConfusion hs
    · rcases h (i + 1) (Nat.succ_pos i) hi (by omega) with hrule | hmissing
      · rw [ClockRule, Nat.add_sub_cancel, hs, hs'] at hrule
        exact Bool.noConfusion hrule
      · rw [hmissing.clock] at hs'
        exact Bool.noConfusion hs'
  zeros i hi := by
    rcases Nat.mod_two_eq_zero_or_one i with heven | hodd
    · rcases h (i + 2) (Nat.succ_pos _) (by omega) (by omega) with hrule | hmissing
      · rw [ClockRule, show i + 2 - 1 = i + 1 from rfl, Nat.add_assoc] at hrule
        cases hleft : s (i + 1) <;> cases hright : s (i + 3) <;> simp_all
      · exact .inl hmissing.before
    · rcases h (i + 1) (Nat.succ_pos i) (by omega) (by omega) with hrule | hmissing
      · rw [ClockRule, Nat.add_sub_cancel, Nat.add_assoc] at hrule
        cases hleft : s i <;> cases hright : s (i + 2) <;> simp_all
      · exact .inr (.inr (.inr hmissing.after))

/-! ## The bits of a buffer -/

/-- Bit `i` of the stream, each byte from its high bit on. -/
def mfmBit (raw : Nat → UInt8) (i : Nat) : Bool := (raw (i / 8)).toBitVec.getLsbD (7 - i % 8)

/-- Bit `j` of a longword on the disk. -/
def longBit (w : UInt32) (j : Nat) : Bool := w.toBitVec.getLsbD (31 - j)

theorem longBit_be32 (w : UInt32) {j : Nat} (hj : j < 32) :
    ((be32 w).getD (j / 8) 0).toBitVec.getLsbD (7 - j % 8) = longBit w j := by
  have hbyte : j / 8 = 0 ∨ j / 8 = 1 ∨ j / 8 = 2 ∨ j / 8 = 3 := by omega
  have hin : 7 - j % 8 < 8 := by omega
  unfold longBit
  rcases hbyte with h | h | h | h
  · have hplace : 24 + (7 - j % 8) = 31 - j := by omega
    simp [h, be32, hin, hplace]
  · have hplace : 16 + (7 - j % 8) = 31 - j := by omega
    simp [h, be32, hin, hplace]
  · have hplace : 8 + (7 - j % 8) = 31 - j := by omega
    simp [h, be32, hin, hplace]
  · have hplace : 7 - j % 8 = 31 - j := by omega
    rw [hplace] at hin
    simp [h, be32, hin, hplace]

theorem mfmBit_buffer (dst : Nat → UInt8) {longs : List UInt32} {k : Nat} (h : k < longs.length) (j : Nat) (hj : j < 32) :
    mfmBit (mfmBuffer dst longs) (32 * k + j) = longBit longs[k] j := by
  have hfour : j / 8 < 4 := by omega
  have hbyte := mfmBuffer_byte dst h (j / 8) hfour
  have hplace : (32 * k + j) / 8 = 4 * k + j / 8 := by omega
  have hbit : (32 * k + j) % 8 = j % 8 := by omega
  rw [mfmBit, hplace, hbyte, hbit]
  exact longBit_be32 _ hj

/-! ## Coded longwords -/

/-- The bit before bit `j` of a longword, which may be the last one of the longword before it. -/
def bitBefore (prev w : UInt32) (j : Nat) : Bool := if j = 0 then longBit prev 31 else longBit w (j - 1)

/-- The clocks of a longword follow the rule, behind the longword before it. -/
def MfmFollows (prev w : UInt32) : Prop :=
  ∀ j < 32, j % 2 = 0 → longBit w j = (!bitBefore prev w j && !longBit w (j + 1))

/-- A longword of a track behind another one: clocked, or a sync mark. -/
def TrackJoin (prev w : UInt32) : Prop := MfmFollows prev w ∨ (w = 0x44894489 ∧ longBit prev 31 = false)

theorem longBit_eq (w : UInt32) {j : Nat} (i : Nat) (hi : i < 32) (h : j + i = 31) : longBit w j = w.toBitVec[i] := by
  have hplace : 31 - j = i := by omega
  rw [longBit, hplace, BitVec.getLsbD_eq_getElem hi]

theorem shiftLeft_31_bit (x : UInt32) {i : Nat} (hi : i < 32) :
    (x <<< 31).toBitVec[i] = if i = 31 then x.toBitVec[0] else false := by
  have hshift : UInt32.toBitVec 31 % 32 = 31#32 := rfl
  simp only [UInt32.toBitVec_shiftLeft, hshift, BitVec.shiftLeft_eq']
  rw [BitVec.getElem_shiftLeft]
  by_cases h : i = 31
  · subst h
    simp
  · have hlt : i < 31 := by omega
    simp [h, hlt]

/-- The data bits of a coded longword. -/
theorem mfmCode_data (prev v : UInt32) {i : Nat} (hi : i < 32) (heven : i % 2 = 0) :
    (mfmCode prev (v &&& mfmMask)).toBitVec[i] = v.toBitVec[i] := by
  simp only [mfmCode, UInt32.toBitVec_or, UInt32.toBitVec_and, BitVec.getElem_or, BitVec.getElem_and, mfmMask_bit,
    clockMask_bit]
  simp [heven]

/-- A clock bit of a coded longword, from the data bits beside it. -/
theorem mfmCode_clockBit (prev v : UInt32) {i : Nat} (hi : i < 32) (hodd : i % 2 = 1) :
    (mfmCode prev (v &&& mfmMask)).toBitVec[i] =
      (!(if h : i + 1 < 32 then v.toBitVec[i + 1] else prev.toBitVec[0]) && !v.toBitVec[i - 1]) := by
  simp only [mfmCode, UInt32.toBitVec_or, UInt32.toBitVec_and, UInt32.toBitVec_not, BitVec.getElem_or, BitVec.getElem_and,
    BitVec.getElem_not, shiftRight_one_bit, shiftLeft_one_bit, shiftLeft_31_bit, mfmMask_bit, clockMask_bit]
  have hpos : 0 < i := by omega
  have hright : (i - 1) % 2 = 0 := by omega
  by_cases hfirst : i + 1 < 32
  · have hne : i ≠ 31 := by omega
    have hleft : (i + 1) % 2 = 0 := by omega
    simp [hodd, hpos, hright, hfirst, hne, hleft]
  · have heq : i = 31 := by omega
    subst heq
    simp

/-- The last bit of a coded longword is the last data bit. -/
theorem mfmCode_last (prev v : UInt32) : longBit (mfmCode prev (v &&& mfmMask)) 31 = longBit (v &&& mfmMask) 31 := by
  rw [longBit_eq _ 0 (by decide) rfl, longBit_eq _ 0 (by decide) rfl,
    mfmCode_data prev v (by decide) rfl]
  simp only [UInt32.toBitVec_and, BitVec.getElem_and, mfmMask_bit]
  simp

/-- **A coded longword follows the rule** behind any longword that ends like the one it was coded after. -/
theorem mfmCode_follows {prev before : UInt32} (h : longBit before 31 = longBit prev 31) (v : UInt32) :
    MfmFollows before (mfmCode prev (v &&& mfmMask)) := by
  intro j hj heven
  obtain ⟨i, hi⟩ : ∃ i, j + i = 31 := ⟨31 - j, by omega⟩
  have hright : longBit (mfmCode prev (v &&& mfmMask)) (j + 1) = v.toBitVec[i - 1] := by
    rw [longBit_eq _ (i - 1) (by omega) (by omega), mfmCode_data prev v _ (by omega)]
  have hleft : bitBefore before (mfmCode prev (v &&& mfmMask)) j =
      if h : i + 1 < 32 then v.toBitVec[i + 1] else prev.toBitVec[0] := by
    unfold bitBefore
    by_cases hfirst : j = 0
    · rw [if_pos hfirst, dif_neg (by omega), h, longBit_eq _ 0 (by decide) rfl]
    · rw [if_neg hfirst, dif_pos (by omega), longBit_eq _ (i + 1) (by omega) (by omega),
        mfmCode_data prev v _ (by omega)]
  rw [hleft, hright, longBit_eq _ i (by omega) hi]
  exact mfmCode_clockBit prev v (by omega) (by omega)

/-- The rule in a sync mark, where two clocks are missing. -/
theorem syncMark_clocks {before : UInt32} (h : longBit before 31 = false) {j : Nat} (hj : j < 32) (heven : j % 2 = 0) :
    longBit 0x44894489 j = (!bitBefore before 0x44894489 j && !longBit 0x44894489 (j + 1)) ∨
      (j = 10 ∨ j = 26) ∧ longBit 0x44894489 (j - 2) = true ∧ longBit 0x44894489 (j - 1) = false ∧
        longBit 0x44894489 j = false ∧ longBit 0x44894489 (j + 1) = false ∧ longBit 0x44894489 (j + 2) = true := by
  have hall : ∀ j < 32, j % 2 = 0 →
      longBit 0x44894489 j = (!(if j = 0 then false else longBit 0x44894489 (j - 1)) && !longBit 0x44894489 (j + 1)) ∨
        (j = 10 ∨ j = 26) ∧ longBit 0x44894489 (j - 2) = true ∧ longBit 0x44894489 (j - 1) = false ∧
          longBit 0x44894489 j = false ∧ longBit 0x44894489 (j + 1) = false ∧ longBit 0x44894489 (j + 2) = true := by
    decide
  rw [bitBefore, h]
  exact hall j hj heven

/-! ## The track as a chain -/

/-- A chain goes on behind its last element. -/
theorem isChain_extend {α : Type*} {R : α → α → Prop} : ∀ {xs : List α} {a : α} {ys : List α}, List.IsChain R (a :: xs) →
    List.IsChain R (xs.getLastD a :: ys) → List.IsChain R (a :: (xs ++ ys))
  | [], _, _, _, hys => hys
  | x :: xs, a, ys, hxs, hys => by
    obtain ⟨hax, htail⟩ := List.isChain_cons_cons.mp hxs
    rw [List.getLastD_cons] at hys
    exact List.isChain_cons_cons.mpr ⟨hax, isChain_extend htail hys⟩

theorem mfmcodeU32_chain : ∀ (xs : List UInt32) {prev before : UInt32} (_ : longBit before 31 = longBit prev 31),
    List.IsChain TrackJoin (before :: mfmcodeU32 prev xs)
  | [], _, before, _ => List.isChain_singleton before
  | x :: xs, prev, before, h => by
    rw [mfmcodeU32_cons]
    exact List.isChain_cons_cons.mpr ⟨.inl (mfmCode_follows h x), mfmcodeU32_chain xs (mfmCode_last prev x)⟩

theorem longBit_last (x : UInt32) : longBit x 31 = true ↔ x &&& 1 ≠ 0 := by
  have hbit : longBit x 31 = x.toNat.testBit 0 := rfl
  have hand : (x &&& 1).toNat = x.toNat % 2 := by
    rw [UInt32.toNat_and]
    exact Nat.and_one_is_mod _
  have hzero : (0 : UInt32).toNat = 0 := rfl
  rw [hbit, Nat.testBit_zero, decide_eq_true_eq, ne_eq, ← UInt32.toNat_inj, hand, hzero]
  omega

theorem gap_follows {before : UInt32} (h : longBit before 31 = false) : MfmFollows before 0xAAAAAAAA := by
  have hall : ∀ j < 32, j % 2 = 0 →
      longBit 0xAAAAAAAA j = (!(if j = 0 then false else longBit 0xAAAAAAAA (j - 1)) && !longBit 0xAAAAAAAA (j + 1)) := by
    decide
  intro j hj heven
  rw [bitBefore, h]
  exact hall j hj heven

/-- The longword before a sync mark lets its first clock go behind a one. -/
theorem gapLong_follows (before : List UInt32) : MfmFollows (before.getLastD 0) (gapLong before) := by
  unfold gapLong
  by_cases hone : longBit (before.getLastD 0) 31 = true
  · rw [if_pos ((longBit_last _).mp hone)]
    have hall : ∀ j < 32, j % 2 = 0 →
        longBit 0x2AAAAAAA j = (!(if j = 0 then true else longBit 0x2AAAAAAA (j - 1)) && !longBit 0x2AAAAAAA (j + 1)) := by
      decide
    intro j hj heven
    rw [bitBefore, hone]
    exact hall j hj heven
  · rw [if_neg fun h => hone ((longBit_last _).mpr h)]
    exact gap_follows (Bool.eq_false_of_not_eq_true hone)

theorem gapLong_last (before : List UInt32) : longBit (gapLong before) 31 = false := by
  unfold gapLong
  split <;> rfl

section
variable (trackData : Nat → UInt8) (track sectorsPerTrack : UInt32)

theorem trackLongs_chain (gap : Nat) : ∀ n : Nat,
    List.IsChain TrackJoin (0 :: trackLongs trackData track sectorsPerTrack gap n)
  | 0 => by
    have hgap : ∀ (gap : Nat) {before : UInt32}, longBit before 31 = false →
        List.IsChain TrackJoin (before :: List.replicate gap 0xAAAAAAAA) := by
      intro gap
      induction gap with
      | zero => exact fun _ => List.isChain_singleton _
      | succ gap ih =>
        intro before h
        exact List.isChain_cons_cons.mpr ⟨.inl (gap_follows h), ih rfl⟩
    exact hgap gap rfl
  | n + 1 => by
    refine isChain_extend (trackLongs_chain gap n) ?_
    refine List.isChain_cons_cons.mpr ⟨.inl (gapLong_follows _), ?_⟩
    refine List.isChain_cons_cons.mpr ⟨.inr ⟨rfl, gapLong_last _⟩, ?_⟩
    exact mfmcodeU32_chain _ rfl

/-- **Every longword of a track joins the one before it.** -/
theorem encodedLongs_chain (dstSize n : Nat) : List.IsChain TrackJoin (0 :: encodedLongs trackData track dstSize n) := by
  have hsectors := trackLongs_chain trackData track (UInt32.ofNat n) (dstSize / 4 - 272 * n - 1) n
  unfold encodedLongs
  split
  · exact isChain_extend hsectors (mfmcodeU32_chain _ rfl)
  · exact hsectors

end

/-! ## The stream of a track -/

section
variable {longs : List UInt32} (dst : Nat → UInt8)

theorem chain_join (hchain : List.IsChain TrackJoin (0 :: longs)) {k : Nat} (hk : k < longs.length) :
    TrackJoin ((0 :: longs).get ⟨k, Nat.lt_succ_of_lt hk⟩) longs[k] :=
  List.isChain_iff_getElem.mp hchain k (Nat.succ_lt_succ hk)

/-- The bit before a bit of the stream. -/
theorem mfmBit_before {k : Nat} (hk : k < longs.length) {j : Nat} (hj : j < 32) (hpos : 0 < 32 * k + j) :
    mfmBit (mfmBuffer dst longs) (32 * k + j - 1) =
      bitBefore ((0 :: longs).get ⟨k, Nat.lt_succ_of_lt hk⟩) longs[k] j := by
  unfold bitBefore
  by_cases hfirst : j = 0
  · obtain ⟨m, rfl⟩ : ∃ m, k = m + 1 := ⟨k - 1, by omega⟩
    have hplace : 32 * (m + 1) + j - 1 = 32 * m + 31 := by omega
    have hprev : (0 :: longs).get ⟨m + 1, Nat.lt_succ_of_lt hk⟩ = longs[m] := rfl
    rw [if_pos hfirst, hplace, mfmBit_buffer dst (Nat.lt_of_succ_lt hk) 31 (by decide), hprev]
  · have hplace : 32 * k + j - 1 = 32 * k + (j - 1) := by omega
    rw [if_neg hfirst, hplace, mfmBit_buffer dst hk (j - 1) (by omega)]

/-- **Every clock of the track follows the rule, or is one of the two that a sync mark lacks.** -/
theorem mfmBit_clock (hchain : List.IsChain TrackJoin (0 :: longs)) {k : Nat} (hk : k < longs.length) (j : Nat)
    (hj : j < 32) (heven : j % 2 = 0) (hpos : 0 < 32 * k + j) :
    ClockRule (mfmBit (mfmBuffer dst longs)) (32 * k + j) ∨
      (longs[k] = 0x44894489 ∧ (j = 10 ∨ j = 26)) ∧ ClockMissing (mfmBit (mfmBuffer dst longs)) (32 * k + j) := by
  have hbit := mfmBit_buffer dst hk j hj
  have hright := mfmBit_buffer dst hk (j + 1) (by omega)
  rw [← Nat.add_assoc] at hright
  have hleft := mfmBit_before dst hk hj hpos
  rcases chain_join hchain hk with hfollows | ⟨hsync, hzero⟩
  · left
    rw [ClockRule, hbit, hleft, hright]
    exact hfollows j hj heven
  · rw [hsync] at hbit hright hleft
    rcases syncMark_clocks hzero hj heven with hrule | ⟨hplace, hb, hl, hc, hr, ha⟩
    · left
      rw [ClockRule, hbit, hleft, hright, hrule]
    · right
      have hbefore := mfmBit_buffer dst hk (j - 2) (by omega)
      have hleft' := mfmBit_buffer dst hk (j - 1) (by omega)
      have hafter := mfmBit_buffer dst hk (j + 2) (by omega)
      rw [← Nat.add_sub_assoc (by omega), hsync] at hbefore hleft'
      rw [← Nat.add_assoc, hsync] at hafter
      exact ⟨⟨hsync, hplace⟩, hbefore.trans hb, hleft'.trans hl, hbit.trans hc, hright.trans hr, hafter.trans ha⟩

/-- **The stream of a track is run limited.** -/
theorem mfmBuffer_runLimited (hchain : List.IsChain TrackJoin (0 :: longs)) (hsome : 0 < longs.length) :
    RunLimited (mfmBit (mfmBuffer dst longs)) (32 * longs.length) := by
  refine runLimited_of_clocks ?_ fun i hpos hi heven => ?_
  · have hfirst := mfmBit_buffer dst hsome 0 (by decide)
    have hsecond := mfmBit_buffer dst hsome 1 (by decide)
    rw [Nat.mul_zero, Nat.zero_add] at hfirst hsecond
    rw [hfirst, hsecond]
    rintro ⟨hclock, hdatum⟩
    rcases chain_join hchain hsome with hfollows | ⟨hsync, -⟩
    · have hrule := hfollows 0 (by decide) rfl
      rw [hclock, hdatum, Bool.not_true, Bool.and_false] at hrule
      exact Bool.noConfusion hrule
    · rw [hsync] at hclock
      exact absurd hclock (by decide)
  · have hplace : 32 * (i / 32) + i % 32 = i := Nat.div_add_mod i 32
    have hk : i / 32 < longs.length := by omega
    have hclock := mfmBit_clock dst hchain hk (i % 32) (Nat.mod_lt i (by decide)) (by omega) (hplace.symm ▸ hpos)
    rw [hplace] at hclock
    exact hclock.imp_right And.right

/-- **The low byte of the sync word** is found in sync marks only, as the second and the fourth byte. -/
theorem mfmBuffer_syncLow (hchain : List.IsChain TrackJoin (0 :: longs)) {m : Nat} (hm : m < 4 * longs.length)
    (h : mfmBuffer dst longs m = 0x89) : (∃ hk : m / 4 < longs.length, longs[m / 4] = 0x44894489) ∧ m % 2 = 1 := by
  have hk : m / 4 < longs.length := by omega
  -- the clock that the low byte lacks is its third bit
  have hplace : 32 * (m / 4) + (8 * (m % 4) + 2) = 8 * m + 2 := by omega
  have hclock := mfmBit_clock dst hchain hk (8 * (m % 4) + 2) (by omega) (by omega) (by omega)
  rw [hplace] at hclock
  have hbits : ∀ j < 8, mfmBit (mfmBuffer dst longs) (8 * m + j) = (0x89 : UInt8).toBitVec.getLsbD (7 - j) := by
    intro j hj
    have hbyte : (8 * m + j) / 8 = m := by omega
    have hoff : (8 * m + j) % 8 = j := by omega
    rw [mfmBit, hbyte, hoff, h]
  rcases hclock with hrule | ⟨⟨hsync, hoff⟩, -⟩
  · rw [ClockRule, hbits 2 (by decide)] at hrule
    have hleft : 8 * m + 2 - 1 = 8 * m + 1 := rfl
    rw [hleft, Nat.add_assoc, hbits 1 (by decide), hbits 3 (by decide)] at hrule
    exact absurd hrule (by decide)
  · exact ⟨⟨hk, hsync⟩, by omega⟩

end

/-! ## The track -/

/-- The bytes of the buffer that the encoder writes. -/
def mfmTrackBytes : Nat := 13628

/-- The gap of 414 longwords, then 272 longwords to a sector. -/
def mfmSectorPlace (s : Nat) : Nat := 4 * (414 + 272 * s)

/-- **A track is legal**: it fills the first 13628 bytes of the buffer with a run limited stream, and the sync word is
nowhere in it but twice before each sector's header, so that a search ends at the first sector. -/
structure MfmTrackLegal (dst raw : Nat → UInt8) : Prop where
  written : ∀ i, mfmTrackBytes ≤ i → raw i = dst i
  runs : RunLimited (mfmBit raw) (8 * mfmTrackBytes)
  syncs : ∀ i, i + 1 < mfmTrackBytes → (readBe16 raw i = syncWord ↔
    ∃ s < amigaSectorsPerTrack, i = mfmSectorPlace s + 4 ∨ i = mfmSectorPlace s + 6)
  search : diskTrackFindSync raw floppyMfmTrackBytesPal syncWord = mfmSectorPlace 0 + 4

theorem encodedLongs_synced (trackData : Nat → UInt8) (track : UInt32) (dstSize n : Nat) :
    Synced (dstSize / 4 - 272 * n - 1) n (encodedLongs trackData track dstSize n) := by
  have hsectors := trackLongs_synced trackData track (UInt32.ofNat n) (dstSize / 4 - 272 * n - 1) n
  have hlen := trackLongs_length trackData track (UInt32.ofNat n) (dstSize / 4 - 272 * n - 1) n
  unfold encodedLongs
  split
  · exact hsectors.append hlen.ge (mfmcodeU32_clocked _ [0])
  · exact hsectors

/-- The sync word in a buffer of synced longwords. -/
theorem mfmBuffer_sync_iff {longs : List UInt32} {gap n : Nat} (hchain : List.IsChain TrackJoin (0 :: longs))
    (hsynced : Synced gap n longs) (hlen : gap + 272 * n ≤ longs.length) (dst : Nat → UInt8) {i : Nat}
    (hi : i + 1 < 4 * longs.length) : readBe16 (mfmBuffer dst longs) i = syncWord ↔
      ∃ s < n, i = 4 * (gap + 272 * s) + 4 ∨ i = 4 * (gap + 272 * s) + 6 := by
  constructor
  · intro hword
    have hlow := readBe16_low (mfmBuffer dst longs) i
    rw [hword] at hlow
    obtain ⟨⟨hk, hsync⟩, hodd⟩ := mfmBuffer_syncLow dst hchain hi hlow.symm
    have hat : SyncAt gap n ((i + 1) / 4) := by
      by_contra hnot
      have hclocked := (hsynced _ hk).2 hnot
      rw [hsync] at hclocked
      exact hclocked.2 rfl
    obtain ⟨s, hs, hplace⟩ := hat
    exact ⟨s, hs, by omega⟩
  · rintro ⟨s, hs, hplace⟩
    have hk : gap + 272 * s + 1 < longs.length := by omega
    obtain ⟨hfirst, hsecond⟩ := hsynced.mark dst hk ⟨s, hs, rfl⟩
    rcases hplace with rfl | rfl
    · exact hfirst
    · exact hsecond

/-- **Every encoded track is legal.** -/
theorem mfmTrack_legal (dst trackData : Nat → UInt8) (track : UInt32) :
    ∃ raw, floppyMfmEncodeTrack dst floppyMfmTrackBytesPal trackData track amigaSectorsPerTrack = some raw ∧
      MfmTrackLegal dst raw := by
  have hfits : 272 * amigaSectorsPerTrack ≤ floppyMfmTrackBytesPal / 4 := by decide
  have hlen := encodedLongs_length trackData track hfits
  have hchain := encodedLongs_chain trackData track floppyMfmTrackBytesPal amigaSectorsPerTrack
  have hsynced := encodedLongs_synced trackData track floppyMfmTrackBytesPal amigaSectorsPerTrack
  refine ⟨_, floppyMfmEncodeTrack_longs trackData track dst hfits, ?_⟩
  generalize encodedLongs trackData track floppyMfmTrackBytesPal amigaSectorsPerTrack = longs at hlen hchain hsynced ⊢
  have hbytes : 4 * longs.length = mfmTrackBytes := congrArg (4 * ·) hlen
  have hsyncs : ∀ i, i + 1 < mfmTrackBytes → (readBe16 (mfmBuffer dst longs) i = syncWord ↔
      ∃ s < amigaSectorsPerTrack, i = mfmSectorPlace s + 4 ∨ i = mfmSectorPlace s + 6) :=
    fun i hi => mfmBuffer_sync_iff hchain hsynced (hlen.symm ▸ by decide) dst (hbytes.symm ▸ hi)
  refine ⟨fun i hi => mfmBuffer_past dst longs (hbytes.symm ▸ hi), ?_, hsyncs, ?_⟩
  · have hruns := mfmBuffer_runLimited dst hchain (hlen.symm ▸ by decide)
    have hbits : 32 * longs.length = 8 * mfmTrackBytes := by omega
    rwa [hbits] at hruns
  · have hfind : ((List.range (floppyMfmTrackBytesPal - 1)).find? fun i => readBe16 (mfmBuffer dst longs) i == syncWord) =
        some (mfmSectorPlace 0 + 4) := by
      rw [List.find?_range_eq_some]
      refine ⟨beq_iff_eq.mpr ((hsyncs _ (by decide)).mpr ⟨0, by decide, .inl rfl⟩), List.mem_range.mpr (by decide),
        fun j hj => ?_⟩
      have hbefore : j < 1660 := hj
      rw [Bool.not_eq_true', beq_eq_false_iff_ne]
      intro hword
      obtain ⟨s, -, hplace⟩ := (hsyncs j (by unfold mfmTrackBytes; omega)).mp hword
      unfold mfmSectorPlace at hplace
      omega
    rw [diskTrackFindSync, hfind]
    rfl

end Rigel
