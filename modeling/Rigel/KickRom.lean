import Rigel.MachineMemory

/-!
# KickRom — the Kickstart over RAM

`harness_load_kickstart`: one ROM in the standard window, mirrored when it is short, or two of them in two windows. Where no
board and no RAM answers, the ROM or nothing does, and stores are swallowed; under the overlay the ROM also answers for Chip
RAM, and stores go to the RAM under it. To the CPU that is a flat memory with the image over it.
-/

namespace Rigel

/-! ## The loader -/

def harnessRomMax : UInt32 := 0x100000

/-- `pc` is the CPU's program counter after its reset. -/
def harnessLoadKickstart (m : HarnessBus) (pc : UInt32) (data : Nat → UInt8) (size : UInt32) : HarnessBus × Bool :=
  if size ≠ 0x40000 ∧ size ≠ 0x80000 ∧ size ≠ harnessRomMax then (m, false)
  else
    let m := { m with
      rom := fun i => if i < size.toNat then data i else 0
      romSize := size
      h := { m.h with lastPc := pc, pcStallSteps := 0 } }
    if size = harnessRomMax then
      let half := size / 2
      ({ m with
        extOff := 0
        extSize := half
        extMask := half - 1
        stdOff := half
        stdSize := half
        stdMask := half - 1
        ovlOff := 0
        ovlMask := half - 1 }, true)
    else
      ({ m with
        extOff := 0
        extSize := 0
        extMask := 0
        stdOff := 0
        stdSize := size
        stdMask := size - 1
        ovlOff := 0
        ovlMask := size - 1 }, true)

/-! ## What answers -/

/-- What the ROM shows at an address of the bus, or the empty bus does. -/
def romByte (m : HarnessBus) (addr : UInt32) : Option UInt8 :=
  if addrInCustom addr then none
  else if addr < m.chipRamSize then (if harnessOverlay m then some (harnessOverlayRead8 m addr) else none)
  else if harnessFastramOwns m addr then none
  else if harnessLideOwns m addr then none
  else if addrInAutoconfig addr && harnessAutoconfigActive m then none
  else if addrInCia addr then none
  else if addrInSlowRam m addr then none
  else some (harnessRomRead8 m addr)

/-- Neither registers nor a board to be configured are at the address: memory of some kind, or nothing. -/
def IsMemory (m : HarnessBus) (addr : UInt32) : Prop :=
  addrInCustom addr = false ∧
    (addr < m.chipRamSize ∨ harnessFastramOwns m addr = true ∨
      harnessLideOwns m addr = false ∧ (addrInAutoconfig addr && harnessAutoconfigActive m) = false ∧ addrInCia addr = false)

instance (m : HarnessBus) (addr : UInt32) : Decidable (IsMemory m addr) := inferInstanceAs (Decidable (_ ∧ _))

/-- The ROM over a memory. -/
def romOver (m : HarnessBus) (mem : UInt32 → UInt8) (addr : UInt32) : UInt8 := (romByte m addr).getD (mem addr)

section
variable {m : HarnessBus} {addr : UInt32}

/-- **The ways to be ROM.** -/
theorem romByte_cases {v : UInt8} (h : romByte m addr = some v) : addrInCustom addr = false ∧
    ((addr < m.chipRamSize ∧ harnessOverlay m = true ∧ v = harnessOverlayRead8 m addr) ∨
      ¬ addr < m.chipRamSize ∧ harnessFastramOwns m addr = false ∧ harnessLideOwns m addr = false ∧
        (addrInAutoconfig addr && harnessAutoconfigActive m) = false ∧ addrInCia addr = false ∧
        addrInSlowRam m addr = false ∧ v = harnessRomRead8 m addr) := by
  unfold romByte at h
  split at h
  · cases h
  rename_i hcustom
  refine ⟨by simpa using hcustom, ?_⟩
  split at h
  · rename_i hchip
    split at h
    · rename_i hoverlay
      cases h
      exact .inl ⟨hchip, hoverlay, rfl⟩
    · cases h
  rename_i hchip
  refine .inr ⟨hchip, ?_⟩
  split at h
  · cases h
  rename_i hfast
  split at h
  · cases h
  rename_i hlide
  split at h
  · cases h
  rename_i hauto
  split at h
  · cases h
  rename_i hcia
  split at h
  · cases h
  rename_i hslow
  cases h
  exact ⟨by simpa using hfast, by simpa using hlide, by simpa using hauto, by simpa using hcia, by simpa using hslow, rfl⟩

/-- Where the ROM does not show, RAM is as without the overlay. -/
theorem ramCell_shown {c : RamCell} (hrom : romByte m addr = none) (h : ramCell (underOverlay m) addr = some c) :
    ramCell m addr = some c := by
  by_cases hoverlay : addr < m.chipRamSize ∧ harnessOverlay m = true
  · have hcustom := (ramCell_cases h).1
    unfold romByte at hrom
    rw [if_neg (by simp [hcustom]), if_pos hoverlay.1, if_pos hoverlay.2] at hrom
    cases hrom
  · rw [not_and] at hoverlay
    unfold ramCell at h ⊢
    split at h
    · cases h
    · split at h
      · rename_i hchip
        have hoff : harnessOverlay m = false := by simpa using hoverlay hchip
        have hchip' : addr < m.chipRamSize := hchip
        rw [if_neg ‹_›, if_pos hchip', hoff]
        exact h
      · rename_i hcustom hchip
        have hchip' : ¬ addr < m.chipRamSize := hchip
        rw [if_neg hcustom, if_neg hchip']
        exact h

/-- RAM beyond Chip RAM is never under the ROM. -/
theorem romByte_beyond {c : RamCell} (hbeyond : ¬ addr < m.chipRamSize) (h : ramCell (underOverlay m) addr = some c) :
    romByte m addr = none := by
  obtain ⟨hcustom, hcases⟩ := ramCell_cases h
  rw [Option.eq_none_iff_forall_not_mem]
  intro v hv
  obtain ⟨-, ⟨hchip, -⟩ | ⟨-, hfast, hlide, hauto, hcia, hslow, -⟩⟩ := romByte_cases (Option.mem_def.mp hv)
  · exact hbeyond hchip
  · rcases hcases with ⟨hchip, -⟩ | ⟨-, ⟨b, hboard, howns, -⟩ | ⟨-, -, -, -, hslow', -⟩⟩
    · exact hbeyond hchip
    · have hboard' : m.fastram = some b := hboard
      have hfast' : harnessFastramOwns m addr = true := by simp [harnessFastramOwns, hboard', howns]
      exact absurd (hfast.symm.trans hfast') Bool.false_ne_true
    · exact absurd (hslow.symm.trans hslow') Bool.false_ne_true

end

/-! ## Bytes and words -/

section
variable {m : HarnessBus} (run : Int32) {addr : UInt32}

/-- **The ROM is read.** -/
theorem harnessRead8_rom {v : UInt8} (h : romByte m (bus24 addr) = some v) : harnessRead8 m run addr = (m, v) := by
  obtain ⟨hcustom, ⟨hchip, hoverlay, rfl⟩ | ⟨hchip, hfast, hlide, hauto, hcia, hslow, rfl⟩⟩ := romByte_cases h
  · unfold harnessRead8
    simp only [hchip, hoverlay, if_true]
  · unfold harnessRead8
    simp only [hchip, hfast, hlide, hauto, hcia, hslow, hcustom, if_false, Bool.false_eq_true]

/-- **A store into the ROM is swallowed.** -/
theorem harnessWrite8_rom {v : UInt8} (h : romByte m (bus24 addr) = some v) (hbeyond : ¬ bus24 addr < m.chipRamSize)
    (value : UInt8) : harnessWrite8 m run addr value = m := by
  obtain ⟨hcustom, ⟨hchip, -⟩ | ⟨-, hfast, hlide, hauto, hcia, hslow, -⟩⟩ := romByte_cases h
  · exact absurd hchip hbeyond
  · unfold harnessWrite8
    simp only [hbeyond, hfast, hlide, hauto, hcia, hslow, hcustom, if_false, Bool.false_eq_true]

theorem IsMemory.lide {a : UInt32} (h : IsMemory m a) (hchip : ¬ a < m.chipRamSize) (hfast : harnessFastramOwns m a = false) :
    harnessLideOwns m a = false :=
  ((h.2.resolve_left hchip).resolve_left (by simp [hfast])).1

/-- RAM with the overlay off. -/
theorem ramCell_underOverlay (m : HarnessBus) (a : UInt32) : ramCell (underOverlay m) a =
    if addrInCustom a then none
    else if a < m.chipRamSize then some (.chip a)
    else if harnessFastramOwns m a then m.fastram.map fun b => .fast (a - b.base)
    else if harnessLideOwns m a then none
    else if addrInAutoconfig a && harnessAutoconfigActive m then none
    else if addrInCia a then none
    else if addrInSlowRam m a then some (.slow (a - harnessSlowRamBase))
    else none := rfl

/-- **The ROM or RAM is there.** -/
theorem IsMemory.covered {a : UInt32} (h : IsMemory m a) : romByte m a ≠ none ∨ ramCell (underOverlay m) a ≠ none := by
  obtain ⟨hcustom, hmem⟩ := h
  rw [ramCell_underOverlay]
  by_cases hchip : a < m.chipRamSize
  · exact .inr (by simp [hcustom, hchip])
  cases hfast : harnessFastramOwns m a with
  | true =>
    obtain ⟨b, hboard, -⟩ := (Option.any_eq_true _ _).mp hfast
    exact .inr (by simp [hcustom, hchip, hboard])
  | false =>
    obtain ⟨hlide, hauto, hcia⟩ := (hmem.resolve_left hchip).resolve_left (by simp [hfast])
    cases hslow : addrInSlowRam m a with
    | true => exact .inr (by simp [hcustom, hchip, hlide, hauto, hcia])
    | false => exact .inl (by simp [romByte, hcustom, hchip, hfast, hlide, hauto, hcia, hslow])

/-- Where the ROM does not show there is RAM to be seen. -/
theorem IsMemory.cell {a : UInt32} (h : IsMemory m a) (hrom : romByte m a = none) : ∃ c, ramCell m a = some c := by
  obtain ⟨c, hc⟩ := Option.ne_none_iff_exists'.mp (h.covered.resolve_left fun hne => hne hrom)
  exact ⟨c, ramCell_shown hrom hc⟩

theorem romByte_overlay {a : UInt32} (hcustom : addrInCustom a = false) (hchip : a < m.chipRamSize)
    (hoverlay : harnessOverlay m = true) : romByte m a = some (harnessOverlayRead8 m a) := by
  unfold romByte
  rw [if_neg (by simp [hcustom]), if_pos hchip, if_pos hoverlay]

theorem romByte_uncovered {a : UInt32} (hchip : a < m.chipRamSize) (hoverlay : harnessOverlay m = false) :
    romByte m a = none := by
  unfold romByte
  cases addrInCustom a <;> simp [hchip, hoverlay]

theorem harnessRead8_bus24 (a : UInt32) : harnessRead8 m run (bus24 a) = harnessRead8 m run a := by
  unfold harnessRead8
  rw [bus24_bus24]

theorem harnessWrite8_bus24 (a : UInt32) (value : UInt8) : harnessWrite8 m run (bus24 a) value = harnessWrite8 m run a value := by
  unfold harnessWrite8
  rw [bus24_bus24]

/-- A byte of memory is read without a trace. -/
theorem harnessRead8_memory (h : IsMemory m (bus24 addr)) : (harnessRead8 m run addr).1 = m := by
  cases hrom : romByte m (bus24 addr) with
  | none =>
    obtain ⟨c, hc⟩ := h.cell hrom
    rw [harnessRead8_ram run hc]
  | some v => rw [harnessRead8_rom run hrom]

/-- Where there is no RAM there is neither Chip RAM nor a board. -/
theorem IsMemory.beyond {a : UInt32} (h : IsMemory m a) (hram : ramCell (underOverlay m) a = none) :
    ¬ a < m.chipRamSize ∧ harnessFastramOwns m a = false := by
  obtain ⟨v, hv⟩ := Option.ne_none_iff_exists'.mp (h.covered.resolve_right fun hne => hne hram)
  obtain ⟨hcustom, ⟨hchip, -⟩ | ⟨hchip, hfast, -⟩⟩ := romByte_cases hv
  · rw [ramCell_underOverlay, if_neg (by simp [hcustom]), if_pos hchip] at hram
    cases hram
  · exact ⟨hchip, hfast⟩

/-- A word that is not RAM throughout has none of the paths of its own. -/
theorem word_beyond (hm : SoundMap m) {a : UInt32} (ha : a &&& 1 = 0) (h : IsMemory m a) (h' : IsMemory m (a + 1))
    (hboth : ¬ (ramCell (underOverlay m) a ≠ none ∧ ramCell (underOverlay m) (a + 1) ≠ none)) :
    ¬ a + 1 < m.chipRamSize ∧ harnessFastramOwns m a = false := by
  by_cases hfirst : ramCell (underOverlay m) a = none
  · obtain ⟨hchip, hfast⟩ := h.beyond hfirst
    exact ⟨fun hlt => hchip (lt_of_succ_lt_even ha hlt), hfast⟩
  · obtain ⟨hchip, hfast⟩ := h'.beyond (not_not.mp fun hne => hboth ⟨hfirst, hne⟩)
    refine ⟨hchip, ?_⟩
    cases hboard : m.fastram with
    | none => simp [harnessFastramOwns, hboard]
    | some b =>
      have hfast' : fastramOwns b (a + 1) = false := by simpa [harnessFastramOwns, hboard] using hfast
      have hnot : fastramOwns b a = false := Bool.eq_false_iff.mpr fun howns =>
        absurd ((fastramOwns_succ hm ha hboard howns).1.symm.trans hfast') (by decide)
      simp [harnessFastramOwns, hboard, hnot]

/-- **A word of memory is read** as two bytes are. -/
theorem harnessRead16_memory (hm : SoundMap m) (haddr : addr &&& 1 = 0) (h : IsMemory m (bus24 addr))
    (h' : IsMemory m (bus24 (addr + 1))) : harnessRead16 m run addr =
      (m, (harnessRead8 m run addr).2.toUInt16 <<< 8 ||| (harnessRead8 m run (addr + 1)).2.toUInt16) := by
  have heven := bus24_even haddr
  have hsucc := bus24_succ haddr
  have hcustom := h.1
  by_cases hboth : ramCell (underOverlay m) (bus24 addr) ≠ none ∧ ramCell (underOverlay m) (bus24 (addr + 1)) ≠ none
  · obtain ⟨c, hc⟩ := Option.ne_none_iff_exists'.mp hboth.1
    obtain ⟨c', hc'⟩ := Option.ne_none_iff_exists'.mp hboth.2
    by_cases hover : bus24 addr < m.chipRamSize ∧ harnessOverlay m = true
    · -- both bytes are the overlay's, which Chip RAM's word path asks twice
      have hnext := succ_lt_even heven hm.chip hover.1
      rw [harnessRead8_rom run (romByte_overlay hcustom hover.1 hover.2),
        harnessRead8_rom run (romByte_overlay h'.1 (by rwa [hsucc]) hover.2), hsucc]
      unfold harnessRead16
      simp only [hcustom, hnext, hover.2, if_true, if_false, Bool.false_eq_true]
    · have hnone : romByte m (bus24 addr) = none ∧ romByte m (bus24 (addr + 1)) = none := by
        by_cases hchip : bus24 addr < m.chipRamSize
        · have hoff : harnessOverlay m = false := by simpa using fun ho => hover ⟨hchip, ho⟩
          exact ⟨romByte_uncovered hchip hoff,
            romByte_uncovered (by rw [hsucc]; exact succ_lt_even heven hm.chip hchip) hoff⟩
        · have hchip' : ¬ bus24 (addr + 1) < m.chipRamSize := by
            rw [hsucc]
            exact fun hlt => hchip (lt_of_succ_lt_even heven hlt)
          exact ⟨romByte_beyond hchip hc, romByte_beyond hchip' hc'⟩
      have hread := ramCell_shown hnone.1 hc
      have hread' := ramCell_shown hnone.2 hc'
      rw [harnessRead16_ram run hm haddr hread hread', harnessRead8_ram run hread, harnessRead8_ram run hread']
      rfl
  · obtain ⟨hnext, hfast⟩ := word_beyond hm heven h (hsucc ▸ h') (hsucc ▸ hboth)
    have hchip : ¬ bus24 addr < m.chipRamSize := fun hlt => hnext (succ_lt_even heven hm.chip hlt)
    rw [← hsucc] at hnext
    unfold harnessRead16
    simp only [hcustom, hnext, hfast, h.lide hchip hfast, if_false, Bool.false_eq_true, harnessRead8_bus24, ← hsucc,
      harnessRead8_memory run h, harnessRead8_memory run h']

/-- **A word of memory is written** as two bytes are. -/
theorem harnessWrite16_memory (hm : SoundMap m) (haddr : addr &&& 1 = 0) (h : IsMemory m (bus24 addr))
    (h' : IsMemory m (bus24 (addr + 1))) (value : UInt16) : harnessWrite16 m run addr value =
      harnessWrite8 (harnessWrite8 m run addr (value >>> 8).toUInt8) run (addr + 1) (value &&& 0xFF).toUInt8 := by
  have heven := bus24_even haddr
  have hsucc := bus24_succ haddr
  by_cases hboth : ramCell (underOverlay m) (bus24 addr) ≠ none ∧ ramCell (underOverlay m) (bus24 (addr + 1)) ≠ none
  · obtain ⟨c, hc⟩ := Option.ne_none_iff_exists'.mp hboth.1
    obtain ⟨c', hc'⟩ := Option.ne_none_iff_exists'.mp hboth.2
    rw [harnessWrite16_ram run hm haddr hc hc', harnessWrite8_ram run hc, ramPutWord]
    refine (harnessWrite8_ram run ?_ _).symm
    rw [underOverlay_put, ramCell_put]
    exact hc'
  · obtain ⟨hnext, hfast⟩ := word_beyond hm heven h (hsucc ▸ h') (hsucc ▸ hboth)
    have hchip : ¬ bus24 addr < m.chipRamSize := fun hlt => hnext (succ_lt_even heven hm.chip hlt)
    rw [← hsucc] at hnext
    unfold harnessWrite16
    simp only [h.1, hnext, hfast, h.lide hchip hfast, if_false, Bool.false_eq_true, harnessWrite8_bus24, ← hsucc]

end

/-! ## Runs -/

/-- `m` but for its RAM, and under the overlay its RAM is the memory. -/
structure OverRam (m s : HarnessBus) (mem : UInt32 → UInt8) : Prop where
  rest : clearRam s = clearRam m
  bytes : ∀ addr c, ramCell (underOverlay m) addr = some c → ramByte s c = mem addr

/-- What the ROM shows, and where there is memory, is not in RAM. -/
theorem romByte_clearRam (m : HarnessBus) : romByte (clearRam m) = romByte m := by
  funext addr
  obtain ⟨h, chipRamSize, slowRam, slowRamSize, rom, romSize, stdOff, stdSize, stdMask, extOff, extSize, extMask, ovlOff,
    ovlMask, execMode, fastram, lide⟩ := m
  cases fastram <;> rfl

theorem isMemory_clearRam {m : HarnessBus} {addr : UInt32} : IsMemory (clearRam m) addr ↔ IsMemory m addr := by
  obtain ⟨h, chipRamSize, slowRam, slowRamSize, rom, romSize, stdOff, stdSize, stdMask, extOff, extSize, extMask, ovlOff,
    ovlMask, execMode, fastram, lide⟩ := m
  cases fastram <;> rfl

theorem underOverlay_clearRam (m : HarnessBus) : underOverlay (clearRam m) = clearRam (underOverlay m) := rfl

section
variable {m s : HarnessBus} {mem : UInt32 → UInt8} {a : UInt32}

theorem OverRam.rom (h : OverRam m s mem) : romByte s = romByte m := by
  rw [← romByte_clearRam, h.rest, romByte_clearRam]

theorem OverRam.isMemory (h : OverRam m s mem) : IsMemory s a ↔ IsMemory m a := by
  rw [← isMemory_clearRam, h.rest, isMemory_clearRam]

theorem OverRam.soundMap (h : OverRam m s mem) (hm : SoundMap m) : SoundMap s := by
  rw [← soundMap_clearRam, h.rest, soundMap_clearRam]
  exact hm

theorem OverRam.decode (h : OverRam m s mem) : ramCell (underOverlay s) = ramCell (underOverlay m) := by
  rw [← ramCell_clearRam, ← underOverlay_clearRam, h.rest, underOverlay_clearRam, ramCell_clearRam]

theorem overRam_shown (m : HarnessBus) : OverRam m m (ramShown (underOverlay m)) := by
  refine ⟨rfl, fun addr c hc => ?_⟩
  rw [ramShown, hc]
  cases c <;> rfl

theorem OverRam.read8 (h : OverRam m s mem) (run : Int32) (ha : IsMemory m (bus24 a)) :
    harnessRead8 s run a = (s, romOver m mem (bus24 a)) := by
  have hs := h.isMemory.mpr ha
  rw [romOver, ← h.rom]
  cases hrom : romByte s (bus24 a) with
  | some v => rw [harnessRead8_rom run hrom, Option.getD_some]
  | none =>
    obtain ⟨c, hc⟩ := hs.cell hrom
    rw [harnessRead8_ram run hc, Option.getD_none, h.bytes _ _ (by rw [← h.decode]; exact ramCell_under hc)]

/-- A store goes to RAM or is lost. -/
theorem OverRam.write8 (h : OverRam m s mem) (run : Int32) (ha : IsMemory m (bus24 a)) (value : UInt8) :
    OverRam m (harnessWrite8 s run a value) (Function.update mem (bus24 a) value) := by
  have hs := h.isMemory.mpr ha
  cases hcell : ramCell (underOverlay s) (bus24 a) with
  | some c =>
    rw [harnessWrite8_ram run hcell]
    rw [h.decode] at hcell
    have hput : RamHolds (underOverlay m) (ramPut (underOverlay s) value c) (Function.update mem (bus24 a) value) := by
      refine RamHolds.put ⟨?_, fun addr c' hc' => ?_⟩ hcell value
      · rw [← underOverlay_clearRam, h.rest, underOverlay_clearRam]
      · rw [← h.bytes _ _ hc']
        cases c' <;> rfl
    refine ⟨by rw [clearRam_put, h.rest], fun addr c' hc' => ?_⟩
    rw [← hput.bytes addr c' hc', ← underOverlay_put]
    cases c' <;> rfl
  | none =>
    obtain ⟨v, hv⟩ := Option.ne_none_iff_exists'.mp (hs.covered.resolve_right fun hne => hne hcell)
    rw [harnessWrite8_rom run hv (hs.beyond hcell).1]
    refine ⟨h.rest, fun addr c hc => ?_⟩
    have hne : addr ≠ bus24 a := by
      rintro rfl
      rw [h.decode, hc] at hcell
      cases hcell
    rw [Function.update_of_ne hne, h.bytes _ _ hc]

/-- **One access** to memory. -/
theorem over_access (hm : SoundMap m) (s : HarnessBus) (mem : UInt32 → UInt8) (i : Int32 × MemAccess)
    (h : OverRam m s mem) (hi : OnPlaces (IsMemory m) i) :
    cpuAnswer s i = flatAnswer bus24 (romOver m mem) i.2 ∧ OverRam m (cpuStep s i) (flatAccess bus24 mem i.2) := by
  refine access_simulates (R := OverRam m) (S := romOver m) (P := IsMemory m) ?_ ?_ ?_ ?_ s mem i h hi
  · intro s mem run a h ha
    exact h.read8 run ha
  · intro s mem run a h heven ha ha'
    rw [harnessRead16_memory run (h.soundMap hm) heven (h.isMemory.mpr ha) (h.isMemory.mpr ha'), h.read8 run ha,
      h.read8 run ha', flatWord]
  · intro s mem run a value h ha
    exact h.write8 run ha value
  · intro s mem run a value h heven ha ha'
    rw [harnessWrite16_memory run (h.soundMap hm) heven (h.isMemory.mpr ha) (h.isMemory.mpr ha')]
    exact (h.write8 run ha _).write8 run ha' _

end

/-! ## The image in its windows -/

/-- The part of the image that the standard window shows, which is the end of it. -/
def kickStandard (size : UInt32) : Nat := min size.toNat 0x80000

/-- The windows of an image: the standard one, which it fills over and over; the extended one, for the half that has no room
there; and nothing. -/
def kickByte (data : Nat → UInt8) (size addr : UInt32) : UInt8 :=
  if 0xF80000 ≤ addr.toNat then
    data (size.toNat - kickStandard size + (addr.toNat - 0xF80000) % kickStandard size)
  else if 0xE00000 ≤ addr.toNat ∧ addr.toNat - 0xE00000 < size.toNat - kickStandard size then data (addr.toNat - 0xE00000)
  else 0xFF

/-- **The memory that the CPU has with a Kickstart**: under the overlay the start of the image in place of Chip RAM, RAM where
there is RAM, and the windows of the image. -/
def kickOver (m : HarnessBus) (data : Nat → UInt8) (size : UInt32) (mem : UInt32 → UInt8) (addr : UInt32) : UInt8 :=
  if addr < m.chipRamSize then
    (if harnessOverlay m then data (addr.toNat % kickStandard size) else mem addr)
  else if ramCell m addr ≠ none then mem addr
  else kickByte data size addr

/-- The windows as the loader leaves them: each a power of two. -/
structure KickWindows (m : HarnessBus) (data : Nat → UInt8) (size : UInt32) (k : Nat) : Prop where
  image : m.rom = fun i => if i < size.toNat then data i else 0
  standard : kickStandard size = 2 ^ k
  stdSize : m.stdSize.toNat = 2 ^ k
  stdMask : m.stdMask.toNat = 2 ^ k - 1
  stdOff : m.stdOff.toNat + 2 ^ k = size.toNat
  ovlOff : m.ovlOff = 0
  ovlMask : m.ovlMask.toNat = 2 ^ k - 1
  extOff : m.extOff = 0
  extended : m.extSize = 0 ∧ size.toNat = 2 ^ k ∨ m.extSize = 0x80000 ∧ m.extMask.toNat = 2 ^ 19 - 1 ∧ size.toNat = 2 ^ k + 2 ^ 19
  bits : k = 18 ∨ k = 19

section
variable {m₀ m : HarnessBus} {pc size : UInt32} {data : Nat → UInt8} {k : Nat}

theorem kickstart_windows (h : harnessLoadKickstart m₀ pc data size = (m, true)) : ∃ k, KickWindows m data size k := by
  by_cases hsize : size ≠ 0x40000 ∧ size ≠ 0x80000 ∧ size ≠ harnessRomMax
  · rw [harnessLoadKickstart, if_pos hsize] at h
    cases h
  · obtain rfl | rfl | rfl : size = 0x40000 ∨ size = 0x80000 ∨ size = harnessRomMax := by
      by_contra hne
      exact hsize (by simpa only [not_or] using hne)
    all_goals cases h
    · refine ⟨18, ?_⟩
      constructor
      case image => rfl
      all_goals try dsimp only
      all_goals decide
    all_goals
      refine ⟨19, ?_⟩
      constructor
      case image => rfl
      all_goals try dsimp only
      all_goals decide

/-- A place of a window is one of the image. -/
theorem KickWindows.at (h : KickWindows m data size k) (off : UInt32) {mask : UInt32} {j : Nat} (hmask : mask.toNat = 2 ^ j - 1)
    (hoff : off.toNat + 2 ^ j ≤ size.toNat) (addr : UInt32) :
    m.rom (off + (addr &&& mask)).toNat = data (off.toNat + addr.toNat % 2 ^ j) := by
  have hlt : addr.toNat % 2 ^ j < 2 ^ j := Nat.mod_lt _ (Nat.two_pow_pos j)
  have hmasked : (addr &&& mask).toNat = addr.toNat % 2 ^ j := by
    rw [UInt32.toNat_and, hmask, Nat.and_two_pow_sub_one_eq_mod]
  have htop := size.toNat_lt
  have hplace : (off + (addr &&& mask)).toNat = off.toNat + addr.toNat % 2 ^ j := by
    rw [UInt32.toNat_add, hmasked, Nat.mod_eq_of_lt (by omega)]
  rw [hplace, h.image]
  exact if_pos (by omega)

/-- **The overlay** shows the start of the image. -/
theorem KickWindows.overlay (h : KickWindows m data size k) (addr : UInt32) :
    harnessOverlayRead8 m addr = data (addr.toNat % kickStandard size) := by
  have hsize := h.stdOff
  have hread := h.at 0 h.ovlMask (by simp only [UInt32.toNat_zero]; omega) addr
  rw [harnessOverlayRead8, h.ovlOff, hread, h.standard, UInt32.toNat_zero, Nat.zero_add]

/-- **The windows** show what they are for. -/
theorem KickWindows.rom (h : KickWindows m data size k) (addr : UInt32) : harnessRomRead8 m addr = kickByte data size addr := by
  have hstd : m.stdSize ≠ 0 := by
    intro hzero
    have hsize := h.stdSize
    rw [hzero] at hsize
    exact absurd hsize (Nat.ne_of_lt (Nat.two_pow_pos k))
  have hbase : harnessRomBase.toNat = 0xF80000 := rfl
  have hstart : (0xF80000 : Nat) % 2 ^ k = 0 := by rcases h.bits with rfl | rfl <;> rfl
  have hoff : m.stdOff.toNat = size.toNat - 2 ^ k := Nat.eq_sub_of_add_eq h.stdOff
  unfold harnessRomRead8 kickByte
  simp only [ge_iff_le, UInt32.le_iff_toNat_le, UInt32.lt_iff_toNat_lt, hbase, h.standard]
  by_cases hhigh : 0xF80000 ≤ addr.toNat
  · have hmirror : (addr.toNat - 0xF80000) % 2 ^ k = addr.toNat % 2 ^ k := by
      rw [← Nat.sub_add_cancel hhigh, Nat.add_mod, hstart]
      simp
    rw [if_pos ⟨hhigh, hstd⟩, if_pos hhigh, h.at _ h.stdMask (Nat.le_of_eq h.stdOff), hoff, hmirror]
  · rw [if_neg fun hc => hhigh hc.1, if_neg hhigh]
    rcases h.extended with ⟨hext, hsize⟩ | ⟨hext, hmask, hsize⟩
    · rw [if_neg fun hc => hc.1 hext, if_neg fun hc => by omega]
    · have hend : (harnessRomExtBase + m.extSize).toNat = 0xE80000 := by rw [hext]; rfl
      have hextBase : harnessRomExtBase.toNat = 0xE00000 := rfl
      simp only [hend, hextBase]
      by_cases hin : 0xE00000 ≤ addr.toNat ∧ addr.toNat < 0xE80000
      · have hwindow : addr.toNat % 2 ^ 19 = addr.toNat - 0xE00000 := by omega
        rw [if_pos ⟨by rw [hext]; decide, hin⟩, if_pos ⟨hin.1, by omega⟩, h.extOff,
          h.at 0 hmask (by simp only [UInt32.toNat_zero]; omega), UInt32.toNat_zero, Nat.zero_add, hwindow]
      · rw [if_neg fun hc => hin hc.2, if_neg fun hc => hin ⟨hc.1, by omega⟩]

/-- **The ROM over RAM is the image over RAM.** -/
theorem KickWindows.over (h : KickWindows m data size k) {mem : UInt32 → UInt8} {addr : UInt32} (ha : IsMemory m addr) :
    romOver m mem addr = kickOver m data size mem addr := by
  unfold romOver kickOver
  by_cases hchip : addr < m.chipRamSize
  · rw [if_pos hchip]
    cases hoverlay : harnessOverlay m with
    | true => rw [romByte_overlay ha.1 hchip hoverlay, Option.getD_some, if_pos rfl, h.overlay]
    | false => rw [romByte_uncovered hchip hoverlay, Option.getD_none, if_neg Bool.false_ne_true]
  · rw [if_neg hchip]
    cases hrom : romByte m addr with
    | none =>
      obtain ⟨c, hc⟩ := ha.cell hrom
      rw [if_pos (by simp [hc]), Option.getD_none]
    | some v =>
      have hcell : ramCell m addr = none := by
        rw [Option.eq_none_iff_forall_not_mem]
        intro c hc
        have hnone := romByte_beyond hchip (ramCell_under (Option.mem_def.mp hc))
        rw [hrom] at hnone
        cases hnone
      obtain ⟨-, ⟨hchip', -⟩ | ⟨-, -, -, -, -, -, rfl⟩⟩ := romByte_cases hrom
      · exact absurd hchip' hchip
      · rw [if_neg (by simp [hcell]), Option.getD_some, h.rom]

end

/-! ## What no access changes -/

/-- Nothing but the chipset, the boards and Slow RAM differs, and Fast RAM is still as it can be. -/
def KeepsRom (m s : HarnessBus) : Prop :=
  ∃ h slowRam fastram lide, s = { m with h := h, slowRam := slowRam, fastram := fastram, lide := lide } ∧
    ((∀ b, m.fastram = some b → FastramReachable b) → ∀ b, fastram = some b → FastramReachable b)

section
variable {m s t : HarnessBus} (run : Int32) (addr : UInt32)

theorem KeepsRom.refl (m : HarnessBus) : KeepsRom m m := ⟨m.h, m.slowRam, m.fastram, m.lide, rfl, id⟩

theorem KeepsRom.trans (h : KeepsRom m s) (h' : KeepsRom s t) : KeepsRom m t := by
  obtain ⟨_, _, _, _, rfl, hfast⟩ := h
  obtain ⟨h, slowRam, fastram, lide, rfl, hfast'⟩ := h'
  exact ⟨h, slowRam, fastram, lide, rfl, fun hm => hfast' (hfast hm)⟩

theorem keepsRom_chipset (m : HarnessBus) (h : Harness) : KeepsRom m { m with h := h } :=
  ⟨h, m.slowRam, m.fastram, m.lide, rfl, id⟩

theorem keepsRom_lide (m : HarnessBus) (lide : Option LideBoard) : KeepsRom m { m with lide := lide } :=
  ⟨m.h, m.slowRam, m.fastram, lide, rfl, id⟩

theorem keepsRom_fastram (m : HarnessBus) {f : FastramBoard → FastramBoard}
    (hf : ∀ b, FastramReachable b → FastramReachable (f b)) : KeepsRom m { m with fastram := m.fastram.map f } := by
  refine ⟨m.h, m.slowRam, _, m.lide, rfl, fun hm b hb => ?_⟩
  obtain ⟨b', hb', rfl⟩ := Option.map_eq_some_iff.mp hb
  exact hf b' (hm b' hb')

theorem keepsRom_lideRead (size : Nat) : KeepsRom m (harnessLideRead m addr size).1 := by
  unfold harnessLideRead
  cases m.lide with
  | none => exact .refl m
  | some b => exact keepsRom_lide m _

theorem keepsRom_autoconfig (value : UInt8) : KeepsRom m (harnessAutoconfigWrite m addr value) := by
  unfold harnessAutoconfigWrite
  simp only
  split
  · rename_i b hb
    obtain ⟨hboard, -⟩ := Option.filter_eq_some_iff.mp hb
    refine ⟨m.h, m.slowRam, _, m.lide, rfl, fun hm b' hb' => ?_⟩
    cases hb'
    exact .acWrite _ _ (hm b hboard)
  · exact keepsRom_lide m _
  · exact .refl m

theorem keepsRom_read8 : KeepsRom m (harnessRead8 m run addr).1 := by
  unfold harnessRead8
  simp only
  split_ifs
  · exact .refl m
  · exact .refl m
  · exact .refl m
  · exact keepsRom_lideRead _ _
  · exact .refl m
  · exact keepsRom_chipset m _
  · exact .refl m
  · exact keepsRom_chipset m _
  · exact keepsRom_chipset m _
  · exact .refl m

theorem keepsRom_write8 (value : UInt8) : KeepsRom m (harnessWrite8 m run addr value) := by
  unfold harnessWrite8
  simp only
  split_ifs
  · exact keepsRom_chipset m _
  · exact keepsRom_fastram m fun b hb => .write _ _ _ hb
  · exact keepsRom_lide m _
  · exact keepsRom_autoconfig _ _
  · exact keepsRom_chipset m _
  · exact ⟨m.h, _, m.fastram, m.lide, rfl, id⟩
  · exact keepsRom_chipset m _
  · exact keepsRom_chipset m _
  · exact .refl m

theorem keepsRom_read16 : KeepsRom m (harnessRead16 m run addr).1 := by
  unfold harnessRead16
  simp only
  split_ifs
  · exact keepsRom_chipset m _
  · exact .refl m
  · exact .refl m
  · exact .refl m
  · exact keepsRom_lideRead _ _
  · exact (keepsRom_read8 run _).trans (keepsRom_read8 run _)

theorem keepsRom_write16 (value : UInt16) : KeepsRom m (harnessWrite16 m run addr value) := by
  unfold harnessWrite16
  simp only
  split_ifs
  · exact keepsRom_chipset m _
  · exact keepsRom_chipset m _
  · exact keepsRom_fastram m fun b hb => .write _ _ _ hb
  · exact keepsRom_lide m _
  · exact (keepsRom_write8 run _ _).trans (keepsRom_write8 run _ _)

/-- **No access touches the ROM or its windows.** -/
theorem keepsRom_access (a : MemAccess) : KeepsRom m (cpuStep m (run, a)) := by
  unfold cpuStep m68kMemory
  cases a with
  | read w addr =>
    cases w with
    | byte => exact keepsRom_read8 run addr
    | word => exact keepsRom_read16 run addr
    | long => exact (keepsRom_read16 run addr).trans (keepsRom_read16 run _)
  | write w addr value =>
    cases w with
    | byte => exact keepsRom_write8 run addr _
    | word => exact keepsRom_write16 run addr _
    | long => exact (keepsRom_write16 run addr _).trans (keepsRom_write16 run _ _)

end

/-- **A machine with a Kickstart**, from its loading on: the CPU makes accesses of any kind, to registers too, and between them
the chipset does whatever it does. -/
inductive KickReachable (data : Nat → UInt8) (size : UInt32) : HarnessBus → Prop where
  | load {m m' : HarnessBus} {pc : UInt32} (hchip : m.chipRamSize &&& 1 = 0)
    (hfast : ∀ b, m.fastram = some b → FastramReachable b) (h : harnessLoadKickstart m pc data size = (m', true)) :
    KickReachable data size m'
  | access {m : HarnessBus} (run : Int32) (a : MemAccess) (h : KickReachable data size m) :
    KickReachable data size (cpuStep m (run, a))
  | chipset {m : HarnessBus} (h' : Harness) (h : KickReachable data size m) : KickReachable data size { m with h := h' }

section
variable {m : HarnessBus} {data : Nat → UInt8} {size : UInt32}

theorem kickstart_boards {m' : HarnessBus} {pc : UInt32} (h : harnessLoadKickstart m pc data size = (m', true)) :
    m'.chipRamSize = m.chipRamSize ∧ m'.fastram = m.fastram := by
  unfold harnessLoadKickstart at h
  simp only at h
  split_ifs at h
  · cases h
  · cases h
    exact ⟨rfl, rfl⟩
  · cases h
    exact ⟨rfl, rfl⟩

/-- What is so of all of them. -/
theorem kickReachable_windows (h : KickReachable data size m) :
    (∃ k, KickWindows m data size k) ∧ m.chipRamSize &&& 1 = 0 ∧ ∀ b, m.fastram = some b → FastramReachable b := by
  induction h with
  | load hchip hfast h =>
    obtain ⟨hsame, hboard⟩ := kickstart_boards h
    exact ⟨kickstart_windows h, hsame ▸ hchip, hboard ▸ hfast⟩
  | access run a h ih =>
    obtain ⟨⟨k, hk⟩, hchip, hfast⟩ := ih
    obtain ⟨_, _, _, _, heq, hkeep⟩ := keepsRom_access run a
    rw [heq]
    exact ⟨⟨k, { hk with }⟩, hchip, hkeep hfast⟩
  | chipset h' h ih =>
    obtain ⟨⟨k, hk⟩, hchip, hfast⟩ := ih
    exact ⟨⟨k, { hk with }⟩, hchip, hfast⟩

theorem KickReachable.soundMap (h : KickReachable data size m) : SoundMap m :=
  soundMap_of (kickReachable_windows h).2.1 (kickReachable_windows h).2.2

/-- **A Kickstart is memory.** However a machine with a Kickstart got where it is, along any run of accesses to its memory the
CPU reads what the image over an array of bytes answers; what is stored goes to the array, also under the overlay, and nothing
else in the machine changes. -/
theorem kickstart_flat (h : KickReachable data size m) (is : List (Int32 × MemAccess))
    (his : ∀ i ∈ is, OnPlaces (IsMemory m) i) :
    let s := is.foldl cpuStep m
    let mem := is.foldl (fun mem i => flatAccess bus24 mem i.2) (ramShown (underOverlay m))
    collectAlong cpuStep cpuAnswer m is =
        collectAlong (fun mem i => flatAccess bus24 mem i.2) (fun mem i => flatAnswer bus24 (kickOver m data size mem) i.2)
          (ramShown (underOverlay m)) is ∧
      clearRam s = clearRam m ∧ ∀ addr c, ramCell (underOverlay m) addr = some c → ramByte s c = mem addr := by
  intro s mem
  obtain ⟨k, hk⟩ := (kickReachable_windows h).1
  have haccess : ∀ s mem i, OverRam m s mem → OnPlaces (IsMemory m) i →
      cpuAnswer s i = flatAnswer bus24 (kickOver m data size mem) i.2 ∧
        OverRam m (cpuStep s i) (flatAccess bus24 mem i.2) := by
    intro s mem i hs hi
    obtain ⟨hanswer, hnext⟩ := over_access h.soundMap s mem i hs hi
    exact ⟨hanswer.trans (flatAnswer_congr fun p hp => hk.over (hi.2 p hp)), hnext⟩
  obtain ⟨hanswers, hend⟩ := collectAlong_simulates haccess is m _ (overRam_shown m) his
  exact ⟨hanswers, hend.rest, hend.bytes⟩

end

/-- An image that counts. -/
def countingImage (i : Nat) : UInt8 := UInt8.ofNat (i / 4)

/-- At reset, with the overlay on. -/
def kickMachine : HarnessBus := (harnessLoadKickstart { flatMachine with execMode := false } 0 countingImage 0x80000).1

theorem kickMachine_reachable : KickReachable countingImage 0x80000 kickMachine :=
  .load (m := { flatMachine with execMode := false }) (by decide) flatMachine_boards rfl

/-- The vectors are read, a long is stored under the overlay and one into the ROM, and both are read. -/
def kickAccesses : List (Int32 × MemAccess) :=
  [(0, .read .long 4), (2, .write .long 0x1000 0xCAFEBABE), (4, .read .word 0x1002), (6, .write .long 0xF80400 0xCAFEBABE),
    (8, .read .long 0xF80404), (10, .read .word 0x700000)]

theorem kickAccesses_read : collectAlong cpuStep cpuAnswer kickMachine kickAccesses = [0x01010101, 0, 0x01010101, 0xFFFF] ∧
    ramByte (kickAccesses.foldl cpuStep kickMachine) (.chip 0x1001) = 0xFE := by
  have hplaces : ∀ i ∈ kickAccesses, OnPlaces (IsMemory kickMachine) i := by decide +kernel
  obtain ⟨hanswers, -, hram⟩ := kickstart_flat kickMachine_reachable kickAccesses hplaces
  exact ⟨hanswers.trans (by decide), (hram 0x1001 _ (by decide)).trans (by decide)⟩

end Rigel
