import Rigel.KickRom

/-!
# Peek — the debugger's side of memory

`harness_peek16` and what is made of it: reads that change nothing, with a decode of their own that tries Slow RAM before the
board and knows no registers. Where the CPU finds memory they find the same; two boards at one place is what they would differ
about.
-/

namespace Rigel

def harnessPeek16 (m : HarnessBus) (addr : UInt32) : UInt16 :=
  let addr := bus24 addr
  if addr + 1 < m.chipRamSize then
    if harnessOverlay m then
      ((harnessOverlayRead8 m addr).toUInt16 <<< 8) ||| (harnessOverlayRead8 m (addr + 1)).toUInt16
    else ((chipByte m.chipRam addr).toUInt16 <<< 8) ||| (chipByte m.chipRam (addr + 1)).toUInt16
  else if m.slowRamSize ≠ 0 ∧ addr ≥ harnessSlowRamBase ∧ addr + 1 < harnessSlowRamBase + m.slowRamSize then
    let off := addr - harnessSlowRamBase
    ((m.slowRam off.toNat).toUInt16 <<< 8) ||| (m.slowRam (off + 1).toNat).toUInt16
  else if harnessFastramOwns m addr && harnessFastramOwns m (addr + 1) then (harnessFastramRead m addr 2).toUInt16
  else if addrInCia addr || addrInCustom addr then 0
  else if harnessLideOwns m addr then 0
  else ((harnessRomRead8 m addr).toUInt16 <<< 8) ||| (harnessRomRead8 m (addr + 1)).toUInt16

def harnessPeek8 (m : HarnessBus) (addr : UInt32) : UInt8 :=
  let w := harnessPeek16 m (addr &&& ~~~1)
  if addr &&& 1 ≠ 0 then (w &&& 0xFF).toUInt8 else (w >>> 8).toUInt8

/-- The bytes that are put out. -/
def harnessPeek (m : HarnessBus) (addr : UInt32) (len : Nat) : List UInt8 :=
  (List.range len).map fun i => harnessPeek8 m (addr + UInt32.ofNat i)

def m68kReadDisassembler16 (m : HarnessBus) (addr : UInt32) : UInt32 := (harnessPeek16 m addr).toUInt32

def m68kReadDisassembler32 (m : HarnessBus) (addr : UInt32) : UInt32 :=
  ((harnessPeek16 m addr).toUInt32 <<< 16) ||| (harnessPeek16 m (addr + 2)).toUInt32

/-! ## Both bytes of a word -/

/-- A window between even addresses has words in it. -/
theorem word_in_window {lo hi a : UInt32} (hlo : lo &&& 1 = 0) (hhi : hi &&& 1 = 0) (ha : a &&& 1 = 0) :
    lo ≤ a + 1 ∧ a + 1 < hi ↔ lo ≤ a ∧ a < hi := by
  rw [even_toNat] at hlo hhi ha
  have htop := a.toNat_lt
  have hnext : (a + 1).toNat = a.toNat + 1 := by
    rw [UInt32.toNat_add, show (1 : UInt32).toNat = 1 from rfl]
    omega
  rw [UInt32.le_iff_toNat_le, UInt32.lt_iff_toNat_lt, UInt32.le_iff_toNat_le, UInt32.lt_iff_toNat_lt, hnext]
  omega

theorem aligned_add {a b : UInt32} (ha : a &&& 1 = 0) (hb : b &&& 1 = 0) : a + b &&& 1 = 0 := by
  rw [even_toNat] at ha hb ⊢
  rw [UInt32.toNat_add]
  omega

section
variable {m : HarnessBus} {a : UInt32}

theorem fastramOwns_word (hm : SoundMap m) (ha : a &&& 1 = 0) : harnessFastramOwns m (a + 1) = harnessFastramOwns m a := by
  unfold harnessFastramOwns
  cases hboard : m.fastram with
  | none => rfl
  | some b =>
    obtain ⟨hbase, hsize, -⟩ := hm.fast b hboard
    have hword := word_in_window hbase (aligned_add hbase hsize) ha
    rw [Option.any_some, Option.any_some, Bool.eq_iff_iff]
    simp only [fastramOwns, zorroOwns, Bool.and_eq_true, decide_eq_true_eq, ge_iff_le, and_assoc]
    exact and_congr_right fun _ => hword

theorem addrInSlowRam_word (hslow : m.slowRamSize &&& 1 = 0) (ha : a &&& 1 = 0) :
    addrInSlowRam m (a + 1) = addrInSlowRam m a := by
  have hbase : harnessSlowRamBase &&& 1 = 0 := by decide
  have hword := word_in_window hbase (aligned_add hbase hslow) ha
  rw [Bool.eq_iff_iff]
  simp only [addrInSlowRam, Bool.and_eq_true, decide_eq_true_eq, ge_iff_le, and_assoc]
  exact and_congr_right fun _ => hword

/-- The peek's own test for Slow RAM. -/
theorem peekSlow_iff (hslow : m.slowRamSize &&& 1 = 0) (ha : a &&& 1 = 0) :
    (m.slowRamSize ≠ 0 ∧ a ≥ harnessSlowRamBase ∧ a + 1 < harnessSlowRamBase + m.slowRamSize) ↔ addrInSlowRam m a = true := by
  have hbase : harnessSlowRamBase &&& 1 = 0 := by decide
  have hlast : a + 1 < harnessSlowRamBase + m.slowRamSize ↔ a < harnessSlowRamBase + m.slowRamSize :=
    ⟨lt_of_succ_lt_even ha, succ_lt_even ha (aligned_add hbase hslow)⟩
  simp only [addrInSlowRam, Bool.and_eq_true, decide_eq_true_eq, bne_iff_ne, ge_iff_le, and_assoc, hlast]

/-- A byte of memory that is in neither Chip RAM nor the board. -/
theorem harnessRead8_beyond (run : Int32) (h : IsMemory m (bus24 a)) (hchip : ¬ bus24 a < m.chipRamSize)
    (hfast : harnessFastramOwns m (bus24 a) = false) : harnessRead8 m run a =
      (m, if addrInSlowRam m (bus24 a) then m.slowRam (bus24 a - harnessSlowRamBase).toNat
        else harnessRomRead8 m (bus24 a)) := by
  obtain ⟨hcustom, hmem⟩ := h
  obtain ⟨hlide, hauto, hcia⟩ := (hmem.resolve_left hchip).resolve_left (by simp [hfast])
  unfold harnessRead8
  simp only [hchip, hfast, hlide, hauto, hcia, hcustom, if_false, Bool.false_eq_true]
  split <;> rfl

/-- **A word of memory is peeked** as it is read. -/
theorem harnessPeek16_memory (hm : SoundMap m) (hslow : m.slowRamSize &&& 1 = 0) (run : Int32) {addr : UInt32}
    (haddr : addr &&& 1 = 0) (h : IsMemory m (bus24 addr)) (h' : IsMemory m (bus24 (addr + 1)))
    (hone : ¬ (harnessFastramOwns m (bus24 addr) = true ∧ addrInSlowRam m (bus24 addr) = true)) :
    harnessPeek16 m addr = (harnessRead16 m run addr).2 := by
  have heven := bus24_even haddr
  have hsucc := bus24_succ haddr
  have hcustom := h.1
  by_cases hchip : bus24 addr + 1 < m.chipRamSize
  · unfold harnessPeek16 harnessRead16
    simp only [hcustom, hchip, if_true, if_false, Bool.false_eq_true]
  have hslowWord := addrInSlowRam_word hslow heven
  have hfastWord := fastramOwns_word hm heven
  have hpeekSlow := peekSlow_iff hslow heven
  have hchip' : ¬ bus24 addr < m.chipRamSize := fun hlt => hchip (succ_lt_even heven hm.chip hlt)
  cases hfast : harnessFastramOwns m (bus24 addr) with
  | true =>
    have hapart : addrInSlowRam m (bus24 addr) = false := by simpa [hfast] using hone
    unfold harnessPeek16 harnessRead16
    simp only [hcustom, hchip, hpeekSlow, hapart, hfast, hfastWord, Bool.and_self, if_true, if_false, Bool.false_eq_true]
  | false =>
    have hbeyond' : ¬ bus24 (addr + 1) < m.chipRamSize := by rwa [hsucc]
    obtain ⟨hlide, -, hcia⟩ := (h.2.resolve_left hchip').resolve_left (by simp [hfast])
    rw [harnessRead16_memory run hm haddr h h', harnessRead8_beyond run h hchip' hfast,
      harnessRead8_beyond run h' hbeyond' (by rw [hsucc, hfastWord, hfast]), hsucc, hslowWord]
    unfold harnessPeek16
    simp only [hchip, hpeekSlow, hfast, hcia, hcustom, hlide, Bool.false_and, Bool.or_self, if_false, Bool.false_eq_true]
    cases hin : addrInSlowRam m (bus24 addr) with
    | true =>
      have hoff : bus24 addr - harnessSlowRamBase + 1 = bus24 addr + 1 - harnessSlowRamBase := by grind
      simp only [↓reduceIte, hoff]
    | false => simp only [Bool.false_eq_true, ↓reduceIte]

/-- The word of an address. -/
theorem even_word (addr : UInt32) : (addr &&& ~~~1) &&& 1 = 0 := by
  rw [UInt32.and_assoc, show (~~~1 &&& 1 : UInt32) = 0 by decide, UInt32.and_zero]

end

/-- Memory for the whole of a byte's word, on one board. -/
def IsWordOfMemory (m : HarnessBus) (addr : UInt32) : Prop :=
  let a := addr &&& ~~~1
  IsMemory m (bus24 a) ∧ IsMemory m (bus24 (a + 1)) ∧
    ¬ (harnessFastramOwns m (bus24 a) = true ∧ addrInSlowRam m (bus24 a) = true)

instance (m : HarnessBus) (addr : UInt32) : Decidable (IsWordOfMemory m addr) := inferInstanceAs (Decidable (_ ∧ _ ∧ _))

theorem odd_word {addr : UInt32} (h : ¬ addr &&& 1 = 0) : (addr &&& ~~~1) + 1 = addr := by
  obtain ⟨hword, hodd⟩ := odd_address (even_word addr)
  exact address_ext hword ((odd_lane hodd).trans (odd_lane h).symm)

theorem IsWordOfMemory.byte {m : HarnessBus} {addr : UInt32} (h : IsWordOfMemory m addr) : IsMemory m (bus24 addr) := by
  by_cases hlane : addr &&& 1 = 0
  · exact even_aligned hlane ▸ h.1
  · exact odd_word hlane ▸ h.2.1

theorem lane_mask : ∀ v : UInt8, v.toUInt16 &&& 0x00FF = v.toUInt16 := uint8_forall (by decide +kernel)

/-- A byte of a word, by its lane. -/
theorem word_lane (mem : UInt32 → UInt8) (addr : UInt32) :
    (if addr &&& 1 ≠ 0 then (flatWord bus24 mem (addr &&& ~~~1) &&& 0xFF).toUInt8
      else (flatWord bus24 mem (addr &&& ~~~1) >>> 8).toUInt8) = mem (bus24 addr) := by
  rw [flatWord, lowByte_mask, ← lane_mask (mem (bus24 ((addr &&& ~~~1) + 1))), high_putHigh, low_putHigh]
  by_cases hlane : addr &&& 1 = 0
  · rw [if_neg (not_not.mpr hlane), even_aligned hlane]
  · rw [if_pos hlane, UInt8.toUInt8_toUInt16, odd_word hlane]

theorem isWordOfMemory_clearRam {m : HarnessBus} {addr : UInt32} :
    IsWordOfMemory (clearRam m) addr ↔ IsWordOfMemory m addr := by
  obtain ⟨h, chipRamSize, slowRam, slowRamSize, rom, romSize, stdOff, stdSize, stdMask, extOff, extSize, extMask, ovlOff,
    ovlMask, execMode, fastram, lide⟩ := m
  cases fastram <;> rfl

section
variable {m s : HarnessBus} {mem : UInt32 → UInt8} {addr : UInt32}

theorem OverRam.isWordOfMemory (h : OverRam m s mem) : IsWordOfMemory s addr ↔ IsWordOfMemory m addr := by
  rw [← isWordOfMemory_clearRam, h.rest, isWordOfMemory_clearRam]

/-- **A word is peeked.** -/
theorem OverRam.peek16 (h : OverRam m s mem) (hm : SoundMap m) (hslow : m.slowRamSize &&& 1 = 0)
    (ha : IsWordOfMemory m addr) : harnessPeek16 s (addr &&& ~~~1) = flatWord bus24 (romOver m mem) (addr &&& ~~~1) := by
  have hsize : (clearRam s).slowRamSize = (clearRam m).slowRamSize := congrArg HarnessBus.slowRamSize h.rest
  have heven := even_word addr
  obtain ⟨hfirst, hsecond, hone⟩ := h.isWordOfMemory.mpr ha
  rw [harnessPeek16_memory (h.soundMap hm) (hsize ▸ hslow) 0 heven hfirst hsecond hone,
    harnessRead16_memory 0 (h.soundMap hm) heven hfirst hsecond, h.read8 0 ha.1, h.read8 0 ha.2.1, flatWord]

/-- **A byte is peeked.** -/
theorem OverRam.peek8 (h : OverRam m s mem) (hm : SoundMap m) (hslow : m.slowRamSize &&& 1 = 0)
    (ha : IsWordOfMemory m addr) : harnessPeek8 s addr = romOver m mem (bus24 addr) := by
  rw [← word_lane (romOver m mem) addr, harnessPeek8, h.peek16 hm hslow ha]

end

/-- **The debugger sees the CPU's memory.** However a machine with a Kickstart got where it is, after any run of accesses to
its memory a dump shows the image over the array of bytes that the run leaves, and the disassembler the words of it. -/
theorem peek_flat {m : HarnessBus} {data : Nat → UInt8} {size : UInt32} (h : KickReachable data size m)
    (hslow : m.slowRamSize &&& 1 = 0) (is : List (Int32 × MemAccess)) (his : ∀ i ∈ is, OnPlaces (IsMemory m) i) :
    let s := is.foldl cpuStep m
    let shown := kickOver m data size (is.foldl (fun mem i => flatAccess bus24 mem i.2) (ramShown (underOverlay m)))
    (∀ addr len, (∀ i < len, IsWordOfMemory m (addr + UInt32.ofNat i)) →
        harnessPeek s addr len = (List.range len).map fun i => shown (bus24 (addr + UInt32.ofNat i))) ∧
      ∀ addr, addr &&& 1 = 0 → IsWordOfMemory m addr →
        some (m68kReadDisassembler16 s addr) = flatAnswer bus24 shown (.read .word addr) ∧
          (IsWordOfMemory m (addr + 2) →
            some (m68kReadDisassembler32 s addr) = flatAnswer bus24 shown (.read .long addr)) := by
  intro s shown
  obtain ⟨k, hk⟩ := (kickReachable_windows h).1
  have hend := (collectAlong_simulates (over_access h.soundMap) is m _ (overRam_shown m) his).2
  have hbyte : ∀ addr, IsWordOfMemory m addr → harnessPeek8 s addr = shown (bus24 addr) := fun addr ha =>
    (hend.peek8 h.soundMap hslow ha).trans (hk.over ha.byte)
  have hword : ∀ addr, addr &&& 1 = 0 → IsWordOfMemory m addr → harnessPeek16 s addr = flatWord bus24 shown addr := by
    intro addr heven ha
    have hpeek := hend.peek16 h.soundMap hslow ha
    have hfirst := ha.1
    have hsecond := ha.2.1
    rw [even_aligned heven] at hpeek hfirst hsecond
    rw [hpeek, flatWord, flatWord, hk.over hfirst, hk.over hsecond]
  refine ⟨fun addr len ha => List.map_congr_left fun i hi => hbyte _ (ha i (List.mem_range.mp hi)), fun addr heven ha => ?_⟩
  refine ⟨by rw [m68kReadDisassembler16, hword addr heven ha, flatAnswer], fun ha' => ?_⟩
  rw [m68kReadDisassembler32, hword addr heven ha, hword (addr + 2) (even_add_two heven) ha', flatAnswer]

/-- After the accesses above, the image is in place of what was stored under it. -/
theorem kickAccesses_peeked : harnessPeek (kickAccesses.foldl cpuStep kickMachine) 0x1003 2 = [0, 1] ∧
    m68kReadDisassembler32 (kickAccesses.foldl cpuStep kickMachine) 0xF80406 = 0x01010202 := by
  have hplaces : ∀ i ∈ kickAccesses, OnPlaces (IsMemory kickMachine) i := by decide +kernel
  obtain ⟨hdump, hwords⟩ := peek_flat kickMachine_reachable (by decide) kickAccesses hplaces
  have hlong := (hwords 0xF80406 (by decide) (by decide)).2 (by decide)
  exact ⟨(hdump 0x1003 2 (by decide)).trans (by decide), Option.some.inj (hlong.trans (by decide))⟩

end Rigel
