import Rigel.HunkLoad
import Rigel.MachineMemory

/-!
# HunkBoot — an executable is put into the machine

`harness_load_hunk`: the loader writes through the CPU's own paths, into Fast RAM where there is a board, and the machine is
then made ready for the reset: the stack and the entry in the vectors, a branch to itself to return to, and a framebuffer.
-/

namespace Rigel

def harnessExecExitAddr : UInt32 := 0x800

/-- The callbacks of the loader, at some `m68k_cycles_run`. -/
def harnessGuest (run : Int32) : HunkGuest HarnessBus where
  write8 m addr value := harnessWrite8 m run addr value
  read8 m addr := (harnessRead8 m run addr).2

inductive HunkLoadError where
  | loader (e : HunkError)
  | noFramebuffer (fbWidth fbHeight fbBytes fb limit : UInt32)
  deriving DecidableEq

/-- What `harness_exec_framebuffer` tells, and the CPU's registers. -/
structure ExecFramebuffer where
  addr : UInt32
  width : UInt32
  height : UInt32
  pitch : UInt32
  deriving DecidableEq

/-- `h->chip_ram[addr] = value`. -/
def harnessPokeChip (m : HarnessBus) (w : GuestWrite) : HarnessBus := m.setChip (chipPut m.chipRam w.1 w.2)

/-- The exit, the return address on the stack, and the two vectors. -/
def harnessBootRecord (chipRamSize entry : UInt32) : List GuestWrite :=
  let sp := chipRamSize - 4
  (harnessExecExitAddr, 0x60) :: (harnessExecExitAddr + 1, 0xFE) ::
    (put32 sp harnessExecExitAddr ++ (put32 0 sp ++ put32 4 entry))

/-- Behind the image, with room for a stack between, at a multiple of 32. -/
def harnessFramebufferAddr (finish : UInt32) : UInt32 := (finish + 0x10000 + 31) &&& ~~~31

/-- `harness_load_hunk`, once the loader has returned true. -/
def harnessStartImage (m : HarnessBus) (run : Int32) (img : HunkImage) (limit fbWidth fbHeight : UInt32) :
    HarnessBus × Except HunkLoadError ExecFramebuffer :=
  let m := (harnessBootRecord m.chipRamSize img.entry).foldl harnessPokeChip { m with execMode := true }
  let pitch := fbWidth * 2
  let fbBytes := pitch * fbHeight
  let fb := harnessFramebufferAddr img.finish
  if fb + fbBytes > limit then (m, .error (.noFramebuffer fbWidth fbHeight fbBytes fb limit))
  else
    ((List.range fbBytes.toNat).foldl (fun m i => harnessWrite8 m run (fb + UInt32.ofNat i) 0) m,
      .ok ⟨fb, fbWidth, fbHeight, pitch⟩)

/-- Where an executable goes, and up to where. -/
def harnessLoadWindow (m : HarnessBus) : HarnessBus × UInt32 × UInt32 :=
  match m.fastram with
  | some b =>
    let b := fastramForceConfigure b 0x200000
    ({ m with fastram := some b }, b.base, b.base + b.size)
  | none => (m, 0x1000, m.chipRamSize)

/-- `harness_load_hunk`, if the loader returns within `n` steps. -/
def harnessLoadHunk (m : HarnessBus) (run : Int32) (f : HunkFile) (fbWidth fbHeight : UInt32) (n : Nat) :
    Option (HarnessBus × Except HunkLoadError ExecFramebuffer) :=
  let w := harnessLoadWindow m
  let s := hunkRun (harnessGuest run) f w.2.1 w.2.2 w.1 n
  match s.loader.phase with
  | .done (.ok img) => some (harnessStartImage s.ctx run img w.2.2 fbWidth fbHeight)
  | .done (.error e) => some (s.ctx, .error (.loader e))
  | _ => none

/-! ## The loader's memory -/

/-- A guest that another one shows in full runs the loader alike. -/
theorem hunkRun_map {σ τ : Type*} (g : HunkGuest σ) (g' : HunkGuest τ) (π : σ → τ)
    (hwrite : ∀ s a v, π (g.write8 s a v) = g'.write8 (π s) a v) (hread : ∀ s a, g.read8 s a = g'.read8 (π s) a) (f : HunkFile)
    (load limit : UInt32) (ctx : σ) (n : Nat) :
    (hunkRun g f load limit ctx n).loader = (hunkRun g' f load limit (π ctx) n).loader ∧
      π (hunkRun g f load limit ctx n).ctx = (hunkRun g' f load limit (π ctx) n).ctx := by
  have happly : ∀ (ws : List GuestWrite) (s : σ), π (g.apply s ws) = g'.apply (π s) ws := by
    intro ws
    induction ws with
    | nil => exact fun _ => rfl
    | cons w ws ih =>
      intro s
      refine (ih _).trans ?_
      rw [hwrite]
      rfl
  induction n with
  | zero => exact ⟨rfl, rfl⟩
  | succ n ih =>
    have hmem : g.read8 (hunkRun g f load limit ctx n).ctx = g'.read8 (hunkRun g' f load limit (π ctx) n).ctx := by
      funext a
      rw [hread, ih.2]
    rw [hunkRun_succ, hunkRun_succ]
    unfold hunkMachineStep HunkMachine.effect
    rw [hmem, ih.1]
    exact ⟨rfl, by rw [happly, ih.2]⟩

/-- Chip RAM as it was, and a board of `size` bytes behind it. -/
structure FastAt (chipRamSize size : UInt32) (s : HarnessBus) : Prop where
  chip : s.chipRamSize = chipRamSize
  board : ∃ b, s.fastram = some b ∧ b.base = 0x200000 ∧ b.size = size ∧ b.configured = true

section
variable {chipRamSize size : UInt32} {s : HarnessBus}

theorem fastramWrite_board (b : FastramBoard) (addr value : UInt32) (n : Nat) :
    (fastramWrite b addr value n).toZorroBoard = b.toZorroBoard := by
  unfold fastramWrite
  simp only
  split_ifs <;> rfl

theorem FastAt.of_same {s' : HarnessBus} (h : FastAt chipRamSize size s) (hchip : s'.chipRamSize = s.chipRamSize)
    (hfast : s'.fastram = s.fastram) : FastAt chipRamSize size s' :=
  ⟨hchip.trans h.chip, by rw [hfast]; exact h.board⟩

/-- **No write of the CPU changes that.** -/
theorem FastAt.write8 (h : FastAt chipRamSize size s) (run : Int32) (addr : UInt32) (value : UInt8) :
    FastAt chipRamSize size (harnessWrite8 s run addr value) := by
  obtain ⟨b, hboard, hbase, hsize, hconf⟩ := h.board
  unfold harnessWrite8
  simp only
  split_ifs
  any_goals exact h.of_same rfl rfl
  · refine ⟨h.chip, fastramWrite b (bus24 addr) value.toUInt32 1, by simp [harnessFastramWrite, hboard], ?_⟩
    obtain ⟨-, hsize'⟩ := fastramWrite_window b (bus24 addr) value.toUInt32 1
    rw [hsize', fastramWrite_board]
    exact ⟨hbase, hsize, hconf⟩
  · -- the board is no longer in the chain
    have hpending : s.fastram.filter fastramPending = none := by
      simp [hboard, Option.filter, fastramPending, zorroPending, hconf]
    unfold harnessAutoconfigWrite
    rw [hpending]
    split
    · contradiction
    · exact h.of_same rfl rfl
    · exact h

theorem FastAt.exec (h : FastAt chipRamSize size s) : FastAt chipRamSize size { s with execMode := true } := h.of_same rfl rfl

theorem FastAt.soundMap (h : FastAt chipRamSize size s) (hchip : chipRamSize &&& 1 = 0) (heven : size &&& 1 = 0)
    (hsize : size.toNat ≤ 0x800000) : SoundMap s := by
  obtain ⟨b, hboard, hbase, hbsize, -⟩ := h.board
  refine ⟨by rw [h.chip]; exact hchip, fun b' hb' => ?_⟩
  rw [hboard] at hb'
  cases hb'
  rw [hbase, hbsize]
  exact ⟨by decide, heven, Nat.lt_of_le_of_lt (Nat.add_le_add_left hsize _) (by decide)⟩

/-- The board, at an address of its window. -/
theorem FastAt.cell (h : FastAt chipRamSize size s) (hchip : chipRamSize.toNat ≤ 0x200000) (hsize : size.toNat ≤ 0x800000)
    {a : UInt32} (hlow : 0x200000 ≤ a.toNat) (hhigh : a.toNat < 0x200000 + size.toNat) :
    bus24 a = a ∧ ramCell s a = some (.fast (a - 0x200000)) := by
  obtain ⟨hsame, b, hboard, hbase, hbsize, hconf⟩ := h
  have hbus : bus24 a = a := by
    refine UInt32.toNat_inj.mp ?_
    rw [bus24_toNat]
    omega
  have hcustom : addrInCustom a = false := by
    simp only [addrInCustom, Bool.and_eq_false_iff, decide_eq_false_iff_not, ge_iff_le, UInt32.le_iff_toNat_le]
    exact .inl (by rw [show (0xDF0000 : UInt32).toNat = 0xDF0000 from rfl]; omega)
  have hbeyond : ¬ a < s.chipRamSize := by
    rw [hsame, UInt32.lt_iff_toNat_lt]
    omega
  have hend : (b.base + b.size).toNat = 0x200000 + size.toNat := by
    rw [hbase, hbsize, UInt32.toNat_add, show (0x200000 : UInt32).toNat = 0x200000 from rfl]
    omega
  have howns : harnessFastramOwns s a = true := by
    simp only [harnessFastramOwns, hboard, Option.any_some, fastramOwns, zorroOwns, hconf, Bool.true_and, Bool.and_eq_true,
      decide_eq_true_eq, ge_iff_le, UInt32.le_iff_toNat_le, UInt32.lt_iff_toNat_lt, hend]
    exact ⟨by rw [hbase, show (0x200000 : UInt32).toNat = 0x200000 from rfl]; exact hlow, hhigh⟩
  refine ⟨hbus, ?_⟩
  simp only [ramCell, hcustom, hbeyond, howns, hboard, hbase, Option.map_some, if_true, if_false, Bool.false_eq_true]

end

/-- The loader's guest where Fast RAM is. -/
def fastGuest (run : Int32) (chipRamSize size : UInt32) : HunkGuest { s // FastAt chipRamSize size s } where
  write8 s addr value := ⟨harnessWrite8 s.1 run addr value, s.2.write8 run addr value⟩
  read8 s addr := (harnessRead8 s.1 run addr).2

/-- **The board is RAM.** -/
theorem fastGuest_ramOn (run : Int32) {chipRamSize size : UInt32} (hchip : chipRamSize.toNat ≤ 0x200000)
    (hsize : size.toNat ≤ 0x800000) : RamOn (fastGuest run chipRamSize size) 0x200000 (0x200000 + size) := by
  intro s a b v hla hah hlb hbh
  have hend : ((0x200000 : UInt32) + size).toNat = 0x200000 + size.toNat := by
    rw [UInt32.toNat_add, show (0x200000 : UInt32).toNat = 0x200000 from rfl]
    omega
  rw [UInt32.lt_iff_toNat_lt, hend] at hah hbh
  obtain ⟨hbusa, hcella⟩ := s.2.cell hchip hsize (UInt32.le_iff_toNat_le.mp hla) hah
  obtain ⟨hbusb, hcellb⟩ := s.2.cell hchip hsize (UInt32.le_iff_toNat_le.mp hlb) hbh
  have hwrite : harnessWrite8 s.1 run a v = ramPut s.1 v (.fast (a - 0x200000)) :=
    harnessWrite8_ram run (ramCell_under (by rw [hbusa]; exact hcella)) v
  have hread : harnessRead8 s.1 run b = (s.1, ramByte s.1 (.fast (b - 0x200000))) :=
    harnessRead8_ram run (by rw [hbusb]; exact hcellb)
  have hread' : harnessRead8 (ramPut s.1 v (.fast (a - 0x200000))) run b =
      (_, ramByte (ramPut s.1 v (.fast (a - 0x200000))) (.fast (b - 0x200000))) :=
    harnessRead8_ram run (by rw [hbusb, ramCell_put]; exact hcellb)
  have hsame : RamCell.fast (b - 0x200000) = .fast (a - 0x200000) ↔ b = a := by
    rw [RamCell.fast.injEq]
    exact UInt32.sub_left_inj _
  unfold fastGuest
  simp only
  rw [hwrite, hread, hread', ramByte_put hcella]
  exact if_congr hsame rfl rfl

/-! ## The boot record -/

/-- The low bytes of the words of a long. -/
theorem long_bytes (v : UInt32) : ((v >>> 16).toUInt16 >>> 8).toUInt8 = (v >>> 24).toUInt8 ∧
    ((v >>> 16).toUInt16 &&& 0xFF).toUInt8 = (v >>> 16).toUInt8 ∧ (v.toUInt16 >>> 8).toUInt8 = (v >>> 8).toUInt8 ∧
    (v.toUInt16 &&& 0xFF).toUInt8 = v.toUInt8 := by
  refine ⟨?_, ?_, ?_, ?_⟩
  · refine UInt8.toNat_inj.mp ?_
    rw [UInt16.toNat_toUInt8, UInt16.toNat_shiftRight, UInt32.toNat_toUInt16, UInt32.toNat_shiftRight, UInt32.toNat_toUInt8,
      UInt32.toNat_shiftRight]
    simp only [UInt16.reduceToNat, UInt32.reduceToNat, Nat.reduceMod, Nat.shiftRight_eq_div_pow]
    omega
  · rw [lowByte_mask, UInt32.toUInt8_toUInt16]
  · refine UInt8.toNat_inj.mp ?_
    rw [UInt16.toNat_toUInt8, UInt16.toNat_shiftRight, UInt32.toNat_toUInt16, UInt32.toNat_toUInt8, UInt32.toNat_shiftRight]
    simp only [UInt16.reduceToNat, UInt32.reduceToNat, Nat.reduceMod, Nat.shiftRight_eq_div_pow]
    omega
  · rw [lowByte_mask, UInt32.toUInt8_toUInt16]

section
variable {m s : HarnessBus} {mem : UInt32 → UInt8}

/-- Without the overlay the low end of the bus is Chip RAM. -/
theorem chip_cell (hexec : m.execMode = true) (hchip : m.chipRamSize.toNat ≤ 0x200000) {a : UInt32}
    (ha : a.toNat < m.chipRamSize.toNat) : ramCell m a = some (.chip a) := by
  have hcustom : addrInCustom a = false := by
    simp only [addrInCustom, Bool.and_eq_false_iff, decide_eq_false_iff_not, ge_iff_le, UInt32.le_iff_toNat_le]
    exact .inl (by rw [show (0xDF0000 : UInt32).toNat = 0xDF0000 from rfl]; omega)
  have hlow : a < m.chipRamSize := UInt32.lt_iff_toNat_lt.mpr ha
  have hoverlay : harnessOverlay m = false := by rw [harnessOverlay, if_pos hexec]
  simp only [ramCell, hcustom, hlow, hoverlay, if_true, if_false, Bool.false_eq_true]

theorem RamHolds.poke (h : RamHolds m s mem) {w : GuestWrite} (hw : ramCell m w.1 = some (.chip w.1)) :
    RamHolds m (harnessPokeChip s w) (Function.update mem w.1 w.2) := h.put hw w.2

/-- Four bytes that are poked are a long that is stored. -/
theorem RamHolds.pokeLong (h : RamHolds m s mem) (hexec : m.execMode = true) (hchip : m.chipRamSize.toNat ≤ 0x200000)
    {a : UInt32} (ha : a.toNat + 4 ≤ m.chipRamSize.toNat) (v : UInt32) :
    RamHolds m ((put32 a v).foldl harnessPokeChip s) (flatAccess bus24 mem (.write .long a v)) := by
  have hplace : ∀ k < 4, bus24 (a + UInt32.ofNat k) = a + UInt32.ofNat k ∧
      ramCell m (a + UInt32.ofNat k) = some (.chip (a + UInt32.ofNat k)) := by
    intro k hk
    obtain ⟨hplain, hsum⟩ := bus24_plain (show a.toNat + k < 2 ^ 24 by omega)
    exact ⟨hplain, chip_cell hexec hchip (by omega)⟩
  obtain ⟨h0, c0⟩ := hplace 0 (by decide)
  obtain ⟨h1, c1⟩ := hplace 1 (by decide)
  obtain ⟨h2, c2⟩ := hplace 2 (by decide)
  obtain ⟨h3, c3⟩ := hplace 3 (by decide)
  rw [show UInt32.ofNat 0 = 0 from rfl, UInt32.add_zero] at h0 c0
  have hthree : a + 2 + 1 = a + UInt32.ofNat 3 := UInt32.add_assoc _ _ _
  obtain ⟨b0, b1, b2, b3⟩ := long_bytes v
  have hstored : flatAccess bus24 mem (.write .long a v) =
      Function.update (Function.update (Function.update (Function.update mem a (v >>> 24).toUInt8) (a + 1) (v >>> 16).toUInt8)
        (a + 2) (v >>> 8).toUInt8) (a + 3) v.toUInt8 := by
    have h1' : bus24 (a + 1) = a + 1 := h1
    have h2' : bus24 (a + 2) = a + 2 := h2
    rw [flatAccess, flatPutWord, flatPutWord, hthree, h0, h1', h2', h3, b0, b1, b2, b3]
    rfl
  rw [hstored]
  exact (((h.poke c0).poke c1).poke c2).poke c3

/-- The accesses that the boot record comes to. -/
def bootStores (chipRamSize entry : UInt32) : List MemAccess :=
  [.write .word harnessExecExitAddr 0x60FE, .write .long (chipRamSize - 4) harnessExecExitAddr,
    .write .long 0 (chipRamSize - 4), .write .long 4 entry]

/-- Where they are. -/
theorem bootStores_below {chipRamSize : UInt32} (hlow : 0x1000 ≤ chipRamSize.toNat) (entry : UInt32) :
    (chipRamSize - 4).toNat = chipRamSize.toNat - 4 ∧
      ∀ w ∈ bootStores chipRamSize entry, w.addr.toNat + w.width.bytes ≤ chipRamSize.toNat := by
  have hsp : (chipRamSize - 4).toNat = chipRamSize.toNat - 4 := by
    rw [UInt32.toNat_sub_of_le _ _ (by rw [UInt32.le_iff_toNat_le]; exact Nat.le_trans (by decide) hlow)]
    rfl
  refine ⟨hsp, fun w hw => ?_⟩
  simp only [bootStores, List.mem_cons, List.not_mem_nil, or_false] at hw
  rcases hw with rfl | rfl | rfl | rfl
  · exact Nat.le_trans (show 0x802 ≤ 0x1000 by decide) hlow
  · rw [show (MemAccess.write .long (chipRamSize - 4) harnessExecExitAddr).addr = chipRamSize - 4 from rfl, hsp]
    exact Nat.le_of_eq (Nat.sub_add_cancel (Nat.le_trans (by decide) hlow))
  · exact Nat.le_trans (show 4 ≤ 0x1000 by decide) hlow
  · exact Nat.le_trans (show 8 ≤ 0x1000 by decide) hlow

theorem RamHolds.bootRecord (h : RamHolds m s mem) (hexec : m.execMode = true) (hlow : 0x1000 ≤ m.chipRamSize.toNat)
    (hchip : m.chipRamSize.toNat ≤ 0x200000) (entry : UInt32) :
    RamHolds m ((harnessBootRecord m.chipRamSize entry).foldl harnessPokeChip s)
      ((bootStores m.chipRamSize entry).foldl (flatAccess bus24) mem) := by
  have hsp := (bootStores_below hlow entry).1
  have hexit : RamHolds m (harnessPokeChip (harnessPokeChip s (harnessExecExitAddr, 0x60)) (harnessExecExitAddr + 1, 0xFE))
      (flatAccess bus24 mem (.write .word harnessExecExitAddr 0x60FE)) :=
    (h.poke (chip_cell hexec hchip (show harnessExecExitAddr.toNat < _ from Nat.lt_of_lt_of_le (by decide) hlow))).poke
      (chip_cell hexec hchip (show (harnessExecExitAddr + 1).toNat < _ from Nat.lt_of_lt_of_le (by decide) hlow))
  have hstack := hexit.pokeLong hexec hchip (show (m.chipRamSize - 4).toNat + 4 ≤ _ by omega) harnessExecExitAddr
  have hsp0 := hstack.pokeLong hexec hchip (show (0 : UInt32).toNat + 4 ≤ _ from Nat.le_trans (by decide) hlow)
    (m.chipRamSize - 4)
  have hpc := hsp0.pokeLong hexec hchip (show (4 : UInt32).toNat + 4 ≤ _ from Nat.le_trans (by decide) hlow) entry
  unfold harnessBootRecord bootStores
  simp only [List.foldl_cons, List.foldl_append, List.foldl_nil]
  exact hpc

/-- Nothing else is stored. -/
theorem bootStores_frame {chipRamSize : UInt32} (hlow : 0x1000 ≤ chipRamSize.toNat) (hchip : chipRamSize.toNat ≤ 0x200000)
    (entry : UInt32) (mem : UInt32 → UInt8) {p : UInt32} (hp : chipRamSize.toNat ≤ p.toNat) :
    (bootStores chipRamSize entry).foldl (flatAccess bus24) mem p = mem p := by
  have hbelow := (bootStores_below hlow entry).2
  have hframe : ∀ w ∈ bootStores chipRamSize entry, ∀ mem : UInt32 → UInt8, flatAccess bus24 mem w p = mem p := by
    intro w hw mem
    have hfit := hbelow w hw
    refine flatAccess_frame fun hmem => ?_
    have hin := MemAccess.Below.place (show w.Below from Nat.le_trans hfit (Nat.le_trans hchip (by decide))) hmem
    omega
  unfold bootStores at hframe ⊢
  simp only [List.foldl_cons, List.foldl_nil]
  rw [hframe _ (by simp), hframe _ (by simp), hframe _ (by simp), hframe _ (by simp)]

/-- **What the reset finds**: the vectors, and at the stack the way out. -/
theorem bootStores_answers {chipRamSize : UInt32} (hlow : 0x1000 ≤ chipRamSize.toNat) (hchip : chipRamSize.toNat ≤ 0x200000)
    (entry : UInt32) (mem : UInt32 → UInt8) :
    let mem' := (bootStores chipRamSize entry).foldl (flatAccess bus24) mem
    flatAnswer bus24 mem' (.read .long 0) = some (chipRamSize - 4) ∧ flatAnswer bus24 mem' (.read .long 4) = some entry ∧
      flatAnswer bus24 mem' (.read .long (chipRamSize - 4)) = some harnessExecExitAddr ∧
      flatAnswer bus24 mem' (.read .word harnessExecExitAddr) = some 0x60FE := by
  obtain ⟨hsp, hbelow⟩ := bootStores_below hlow entry
  have hin : ∀ w ∈ bootStores chipRamSize entry, w.Below := fun w hw =>
    Nat.le_trans (hbelow w hw) (Nat.le_trans hchip (by decide))
  have hexit := hin (.write .word harnessExecExitAddr 0x60FE) (by simp [bootStores])
  have hstack := hin (.write .long (chipRamSize - 4) harnessExecExitAddr) (by simp [bootStores])
  have hzero := hin (.write .long 0 (chipRamSize - 4)) (by simp [bootStores])
  have hfour := hin (.write .long 4 entry) (by simp [bootStores])
  intro mem'
  have hmem : mem' = flatAccess bus24 (flatAccess bus24 (flatAccess bus24 (flatAccess bus24 mem
      (.write .word harnessExecExitAddr 0x60FE)) (.write .long (chipRamSize - 4) harnessExecExitAddr))
      (.write .long 0 (chipRamSize - 4))) (.write .long 4 entry) := rfl
  -- a read of what was stored, under the stores that came after it
  refine ⟨?_, ?_, ?_, ?_⟩
  · have hread : MemAccess.Below (.read .long 0) := hzero
    rw [hmem, flatAnswer_apart hfour hread (.inr (Nat.le_refl 4)), flatAnswer_stored _ hread.nodup]
    rfl
  · have hread : MemAccess.Below (.read .long 4) := hfour
    rw [hmem, flatAnswer_stored _ hread.nodup]
    rfl
  · have hread : MemAccess.Below (.read .long (chipRamSize - 4)) := hstack
    have hfar : ∀ a : UInt32, a.toNat ≤ 4 → a.toNat + 4 ≤ (chipRamSize - 4).toNat := by
      intro a ha
      omega
    rw [hmem, flatAnswer_apart hfour hread (.inl (hfar 4 (by decide))),
      flatAnswer_apart hzero hread (.inl (hfar 0 (by decide))), flatAnswer_stored _ hread.nodup]
    rfl
  · have hread : MemAccess.Below (.read .word harnessExecExitAddr) := hexit
    have hfar : harnessExecExitAddr.toNat + 2 ≤ (chipRamSize - 4).toNat := by
      rw [hsp, show harnessExecExitAddr.toNat = 0x800 from rfl]
      omega
    rw [hmem, flatAnswer_apart hfour hread (.inl (show 4 + 4 ≤ 0x800 by decide)),
      flatAnswer_apart hzero hread (.inl (show 0 + 4 ≤ 0x800 by decide)), flatAnswer_apart hstack hread (.inr hfar),
      flatAnswer_stored _ hread.nodup]
    rfl

/-- **A span that is cleared.** -/
theorem RamHolds.fill (h : RamHolds m s mem) (run : Int32) {a : UInt32} : ∀ {n : Nat}, a.toNat + n ≤ 2 ^ 24 →
    (∀ k < n, ramCell m (a + UInt32.ofNat k) ≠ none) →
    ∃ mem', RamHolds m ((List.range n).foldl (fun s i => harnessWrite8 s run (a + UInt32.ofNat i) 0) s) mem' ∧
      (∀ k < n, mem' (a + UInt32.ofNat k) = 0) ∧ ∀ p : UInt32, p.toNat < a.toNat ∨ a.toNat + n ≤ p.toNat → mem' p = mem p
  | 0, _, _ => ⟨mem, h, nofun, fun _ _ => rfl⟩
  | n + 1, hfit, hcells => by
    obtain ⟨mem', hmem, hzero, hrest⟩ := h.fill run (Nat.le_of_succ_le hfit) fun k hk => hcells k (Nat.lt_succ_of_lt hk)
    obtain ⟨hplain, hsum⟩ := bus24_plain (show a.toNat + n < 2 ^ 24 by omega)
    obtain ⟨c, hc⟩ := Option.ne_none_iff_exists'.mp (hcells n (Nat.lt_succ_self n))
    refine ⟨Function.update mem' (a + UInt32.ofNat n) 0, ?_, fun k hk => ?_, fun p hp => ?_⟩
    · have hlast := hmem.write8 run (by rw [hplain]; exact hc) 0
      rw [hplain] at hlast
      rw [List.range_succ, List.foldl_append]
      exact hlast
    · by_cases hkn : k = n
      · rw [hkn, Function.update_self]
      · rw [Function.update_apply, hzero k (by omega), ite_self]
    · have hne : p ≠ a + UInt32.ofNat n := by
        rintro rfl
        omega
      rw [Function.update_of_ne hne, hrest p (by omega)]

end

/-! ## The whole load -/

section
variable {chipRamSize size : UInt32} {m : HarnessBus} {e : HunkExecutable} {f : HunkFile}

/-- What the loader answers for an executable. -/
def HunkExecutable.loadedImage (e : HunkExecutable) (load : UInt32) : HunkImage :=
  ⟨e.dataAddr load 0, load, UInt32.ofNat (e.start load e.hunks.length), UInt32.ofNat e.hunks.length⟩

/-- **The loader in the machine.** -/
theorem machine_loads (run : Int32) (h : FastAt chipRamSize size m) (hchip : chipRamSize.toNat ≤ 0x200000)
    (hsize : size.toNat ≤ 0x800000) (hfits : e.Fits 0x200000 (0x200000 + size)) (hfile : f.Holds 0 e.words) :
    ∃ n, (hunkRun (harnessGuest run) f 0x200000 (0x200000 + size) m n).loader.phase =
        .done (.ok (e.loadedImage 0x200000)) ∧
      FastAt chipRamSize size (hunkRun (harnessGuest run) f 0x200000 (0x200000 + size) m n).ctx ∧
      ∀ i < e.hunks.length, ∀ k < 8 + e.size i,
        (harnessRead8 (hunkRun (harnessGuest run) f 0x200000 (0x200000 + size) m n).ctx run
          (UInt32.ofNat (e.start 0x200000 i + k))).2 = passCells e 0x200000 e.hunks.length (fun _ => 0) i k := by
  have hram := fastGuest_ramOn run hchip hsize
  let ctx : { s // FastAt chipRamSize size s } := ⟨m, h⟩
  obtain ⟨pos, hbody, hheader⟩ := header_leads hfile fun i k =>
    (fastGuest run chipRamSize size).read8 ctx (UInt32.ofNat (e.start 0x200000 i + k))
  obtain ⟨hsizes, hhunks⟩ := holds_append.mp hbody
  rw [List.length_map] at hhunks
  have hreserved := (hheader.trans (table_leads hram hfits hsizes)).trans (seglist_leads hram hfits)
  obtain ⟨n, hn⟩ := ((hreserved.trans (hunks_lead hram hfits hhunks)).trans end_leads) _ (hunkStart_at ctx)
  obtain ⟨hloader, hctx⟩ := hunkRun_map (fastGuest run chipRamSize size) (harnessGuest run) Subtype.val (fun _ _ _ => rfl)
    (fun _ _ => rfl) f 0x200000 (0x200000 + size) ctx n
  refine ⟨n, ?_, ?_, ?_⟩
  · rw [← hloader]
    exact congrArg HunkLoader.phase hn.loader
  · rw [← hctx]
    exact Subtype.property _
  · rw [← hctx]
    exact hn.memory

/-- The address of the framebuffer, without a wrap. -/
theorem harnessFramebufferAddr_toNat {x : Nat} (h : (x + 0x10000 + 31) / 32 * 32 < 2 ^ 32) :
    (harnessFramebufferAddr (UInt32.ofNat x)).toNat = (x + 0x10000 + 31) / 32 * 32 := by
  have hsum : UInt32.ofNat x + 0x10000 = UInt32.ofNat (x + 0x10000) := (UInt32.ofNat_add x 0x10000).symm
  rw [harnessFramebufferAddr, hsum, roundUp_eq, toNat_ofNat_small h]

end

theorem fastramCreate_unconfigured {megabytes : UInt32} {b : FastramBoard} (h : fastramCreate megabytes = some b) :
    b.configured = false := by
  unfold fastramCreate at h
  split at h
  · cases h
  · cases h
    rfl

/-- **The first half of `harness_load_hunk`.** -/
theorem harnessLoadHunk_loads {m : HarnessBus} {megabytes : UInt32} {b : FastramBoard}
    (hcreate : fastramCreate megabytes = some b) (hboard : m.fastram = some b) (hchip : m.chipRamSize.toNat ≤ 0x200000) {e : HunkExecutable} {f : HunkFile}
    (hfits : e.Fits 0x200000 (0x200000 + b.size)) (hfile : f.Holds 0 e.words) (fbWidth fbHeight : UInt32) (run : Int32) :
    ∃ n loaded, harnessLoadHunk m run f fbWidth fbHeight n =
        some (harnessStartImage loaded run (e.loadedImage 0x200000) (0x200000 + b.size) fbWidth fbHeight) ∧
      FastAt m.chipRamSize b.size loaded ∧
      ∀ i < e.hunks.length, ∀ k < 8 + e.size i,
        (harnessRead8 loaded run (UInt32.ofNat (e.start 0x200000 i + k))).2 =
          passCells e 0x200000 e.hunks.length (fun _ => 0) i k := by
  obtain ⟨-, -, -, hsize⟩ := fastram_sound (.create hcreate)
  have hforce : fastramForceConfigure b 0x200000 = { b with base := 0x200000, configured := true } := by
    rw [fastramForceConfigure, fastramCreate_unconfigured hcreate]
    rfl
  have hwindow : harnessLoadWindow m = ({ m with fastram := some { b with base := 0x200000, configured := true } }, 0x200000,
      0x200000 + b.size) := by
    unfold harnessLoadWindow
    rw [hboard]
    simp only [hforce]
  have hplaced : FastAt m.chipRamSize b.size { m with fastram := some { b with base := 0x200000, configured := true } } :=
    ⟨rfl, _, rfl, rfl, rfl, rfl⟩
  obtain ⟨n, hphase, hloaded, hcells⟩ := machine_loads run hplaced hchip hsize hfits hfile
  refine ⟨n, _, ?_, hloaded, hcells⟩
  unfold harnessLoadHunk
  rw [hwindow]
  simp only
  rw [hphase]

/-- **The image is made ready**: the boot record in Chip RAM, and the framebuffer on the board. -/
theorem harnessStartImage_ready {chipRamSize size : UInt32} {s : HarnessBus} (h : FastAt chipRamSize size s)
    (hlow : 0x1000 ≤ chipRamSize.toNat) (hchip : chipRamSize.toNat ≤ 0x200000) (hsize : size.toNat ≤ 0x800000) (run : Int32)
    {img : HunkImage} {x : Nat} (hfinish : img.finish = UInt32.ofNat x) (hx : 0x200000 ≤ x) {fbWidth fbHeight : UInt32}
    (hroom : (x + 0x10000 + 31) / 32 * 32 + fbWidth.toNat * 2 * fbHeight.toNat ≤ 0x200000 + size.toNat) :
    ∃ s' mem, harnessStartImage s run img (0x200000 + size) fbWidth fbHeight =
        (s', .ok ⟨harnessFramebufferAddr img.finish, fbWidth, fbHeight, fbWidth * 2⟩) ∧
      RamHolds { s with execMode := true } s' mem ∧
      (∀ k < fbWidth.toNat * 2 * fbHeight.toNat, mem (harnessFramebufferAddr img.finish + UInt32.ofNat k) = 0) ∧
      ∀ p : UInt32, p.toNat < (harnessFramebufferAddr img.finish).toNat →
        mem p = (bootStores chipRamSize img.entry).foldl (flatAccess bus24) (ramShown { s with execMode := true }) p := by
  have hexec := h.exec
  have hfb : (harnessFramebufferAddr img.finish).toNat = (x + 0x10000 + 31) / 32 * 32 := by
    rw [hfinish, harnessFramebufferAddr_toNat (by omega)]
  have hbytes : (fbWidth * 2 * fbHeight).toNat = fbWidth.toNat * 2 * fbHeight.toNat := by
    rw [UInt32.toNat_mul, UInt32.toNat_mul, Nat.mod_mul_mod, show (2 : UInt32).toNat = 2 from rfl, Nat.mod_eq_of_lt (by omega)]
  have hend : ((0x200000 : UInt32) + size).toNat = 0x200000 + size.toNat := by
    rw [UInt32.toNat_add, show (0x200000 : UInt32).toNat = 0x200000 from rfl]
    omega
  have hfits : ¬ harnessFramebufferAddr img.finish + fbWidth * 2 * fbHeight > 0x200000 + size := by
    rw [gt_iff_lt, UInt32.lt_iff_toNat_lt, hend, UInt32.toNat_add, hfb, hbytes]
    omega
  have hrecord := (holds_shown { s with execMode := true }).bootRecord rfl (by rw [hexec.chip]; exact hlow)
    (by rw [hexec.chip]; exact hchip) img.entry
  obtain ⟨mem, hmem, hzero, hrest⟩ := hrecord.fill run
    (show (harnessFramebufferAddr img.finish).toNat + (fbWidth * 2 * fbHeight).toNat ≤ 2 ^ 24 by omega) fun k hk => by
      rw [hbytes] at hk
      obtain ⟨-, hsum⟩ := bus24_plain (show (harnessFramebufferAddr img.finish).toNat + k < 2 ^ 24 by omega)
      rw [(hexec.cell hchip hsize (by omega) (by omega)).2]
      exact nofun
  refine ⟨_, mem, ?_, hmem, ?_, fun p hp => ?_⟩
  · unfold harnessStartImage
    simp only
    rw [if_neg hfits]
  · rw [← hbytes]
    exact hzero
  · rw [hrest p (.inl hp), hexec.chip]

section
variable {chipRamSize size : UInt32} {m s : HarnessBus} {mem : UInt32 → UInt8} {entry : UInt32} {fb : Nat}

/-- The CPU finds the boot record in Chip RAM. -/
theorem ready_answers (h : FastAt chipRamSize size m) (hexec : m.execMode = true) (hm : SoundMap m)
    (hchip : chipRamSize.toNat ≤ 0x200000) (hmem : RamHolds m s mem) (hfb : 0x200000 ≤ fb)
    (hrest : ∀ p : UInt32, p.toNat < fb → mem p = (bootStores chipRamSize entry).foldl (flatAccess bus24) (ramShown m) p)
    (run : Int32) {r : MemAccess} (haligned : r.Aligned) (hfit : r.addr.toNat + r.width.bytes ≤ chipRamSize.toNat) :
    cpuAnswer s (run, r) = flatAnswer bus24 ((bootStores chipRamSize entry).foldl (flatAccess bus24) (ramShown m)) r := by
  have hplace : ∀ p ∈ r.places bus24, p.toNat < chipRamSize.toNat := by
    intro p hp
    have hin := MemAccess.Below.place (show r.Below from Nat.le_trans hfit (Nat.le_trans hchip (by decide))) hp
    omega
  have hram : InRam m (run, r) := by
    refine ⟨haligned, fun p hp => ?_⟩
    rw [chip_cell hexec (by rw [h.chip]; exact hchip) (by rw [h.chip]; exact hplace p hp)]
    exact nofun
  refine (holds_access hm s mem (run, r) hmem hram).1.trans (flatAnswer_congr fun p hp => hrest p ?_)
  have hlt := hplace p hp
  omega

/-- And on the board what the loader left there. -/
theorem ready_board (h : FastAt chipRamSize size m) (hlow : 0x1000 ≤ chipRamSize.toNat) (hchip : chipRamSize.toNat ≤ 0x200000)
    (hsize : size.toNat ≤ 0x800000) (hmem : RamHolds m s mem)
    (hrest : ∀ p : UInt32, p.toNat < fb → mem p = (bootStores chipRamSize entry).foldl (flatAccess bus24) (ramShown m) p)
    (run : Int32) {a : UInt32} (ha : 0x200000 ≤ a.toNat) (hin : a.toNat < 0x200000 + size.toNat) (hbelow : a.toNat < fb) :
    (harnessRead8 s run a).2 = ramByte m (.fast (a - 0x200000)) := by
  obtain ⟨hbus, hcell⟩ := h.cell hchip hsize ha hin
  have hread := hmem.read8 run (by rw [hbus]; exact hcell)
  rw [hread, hbus, hrest a hbelow, bootStores_frame hlow hchip entry _ (Nat.le_trans hchip ha), ramShown, hcell]
  rfl

end

/-- **An executable is ready to run.** In a machine that has just been given Fast RAM, any file that holds an executable for
which there is room is loaded; after that the CPU reads its segments, relocated, on the board, the stack and the entry in the
vectors, on the stack the address of a branch to itself, and zeros all over the framebuffer, which is at least 64 KB behind the
image. -/
theorem hunk_boots {m : HarnessBus} {megabytes : UInt32} {b : FastramBoard} (hcreate : fastramCreate megabytes = some b)
    (hboard : m.fastram = some b) (heven : m.chipRamSize &&& 1 = 0) (hlow : 0x1000 ≤ m.chipRamSize.toNat)
    (hchip : m.chipRamSize.toNat ≤ 0x200000) {e : HunkExecutable} {f : HunkFile} (hfits : e.Fits 0x200000 (0x200000 + b.size))
    (hfile : f.Holds 0 e.words) {fbWidth fbHeight : UInt32}
    (hroom : (e.start 0x200000 e.hunks.length + 0x10000 + 31) / 32 * 32 + fbWidth.toNat * 2 * fbHeight.toNat ≤
      0x200000 + b.size.toNat) (run : Int32) :
    ∃ n s fb, harnessLoadHunk m run f fbWidth fbHeight n = some (s, .ok ⟨fb, fbWidth, fbHeight, fbWidth * 2⟩) ∧
      e.start 0x200000 e.hunks.length + 0x10000 ≤ fb.toNat ∧
      ∀ run', e.LoadedIn 0x200000 (fun a => (harnessRead8 s run' a).2) ∧
        cpuAnswer s (run', .read .long 0) = some (m.chipRamSize - 4) ∧
        cpuAnswer s (run', .read .long 4) = some (e.dataAddr 0x200000 0) ∧
        cpuAnswer s (run', .read .long (m.chipRamSize - 4)) = some harnessExecExitAddr ∧
        cpuAnswer s (run', .read .word harnessExecExitAddr) = some 0x60FE ∧
        ∀ k < fbWidth.toNat * 2 * fbHeight.toNat, (harnessRead8 s run' (fb + UInt32.ofNat k)).2 = 0 := by
  obtain ⟨-, hsizeEven, -, hsize⟩ := fastram_sound (.create hcreate)
  obtain ⟨n, loaded, hload, hfast, hcells⟩ := harnessLoadHunk_loads hcreate hboard hchip hfits hfile fbWidth fbHeight run
  have hbehind : 0x200000 ≤ e.start 0x200000 e.hunks.length := e.le_start 0x200000 e.hunks.length
  obtain ⟨s, mem, hstart, hmem, hzero, hrest⟩ := harnessStartImage_ready hfast hlow hchip hsize run
    (show (e.loadedImage 0x200000).finish = UInt32.ofNat (e.start 0x200000 e.hunks.length) from rfl) hbehind hroom
  have hfb : (harnessFramebufferAddr (e.loadedImage 0x200000).finish).toNat = _ :=
    harnessFramebufferAddr_toNat (show (e.start 0x200000 e.hunks.length + 0x10000 + 31) / 32 * 32 < 2 ^ 32 by omega)
  have hready := hfast.exec
  refine ⟨n, s, _, by rw [hload, hstart], by rw [hfb]; omega, fun run' => ?_⟩
  have hsound := hready.soundMap heven hsizeEven hsize
  obtain ⟨hsp, hpc, hreturn, hexit⟩ := bootStores_answers hlow hchip (e.loadedImage 0x200000).entry
    (ramShown { loaded with execMode := true })
  have hboot : ∀ {r : MemAccess}, r.Aligned → r.addr.toNat + r.width.bytes ≤ m.chipRamSize.toNat → _ := fun ha hfit =>
    ready_answers hready rfl hsound hchip hmem (by rw [hfb]; omega) hrest run' ha hfit
  have hstackTop := (bootStores_below hlow (e.loadedImage 0x200000).entry).1
  have hstackEven : m.chipRamSize - 4 &&& 1 = 0 := by
    rw [even_toNat] at heven ⊢
    omega
  refine ⟨passCells_loaded fun i hi k hk => ?_, ?_, ?_, ?_, ?_, fun k hk => ?_⟩
  · have hin := e.start_apart 0x200000 hi
    have hat := e.le_start 0x200000 i
    have haddr := toNat_ofNat_small (show e.start 0x200000 i + k < 2 ^ 32 by omega)
    rw [show (0x200000 : UInt32).toNat = 0x200000 from rfl] at hat
    have hlower : 0x200000 ≤ (UInt32.ofNat (e.start 0x200000 i + k)).toNat := by omega
    obtain ⟨hbus, hcell⟩ := hfast.cell hchip hsize hlower (by omega)
    have hleft := hcells i hi k hk
    rw [harnessRead8_ram run (by rw [hbus]; exact hcell)] at hleft
    exact (ready_board hready hlow hchip hsize hmem hrest run' (by omega) (by omega) (by omega)).trans hleft
  · exact (hboot (.inr rfl) (Nat.le_trans (by decide) hlow)).trans hsp
  · exact (hboot (.inr rfl) (Nat.le_trans (by decide) hlow)).trans hpc
  · refine (hboot (show MemAccess.Aligned (.read .long (m.chipRamSize - 4)) from .inr hstackEven) ?_).trans hreturn
    rw [show (MemAccess.read .long (m.chipRamSize - 4)).addr = m.chipRamSize - 4 from rfl, hstackTop]
    exact Nat.le_of_eq (Nat.sub_add_cancel (Nat.le_trans (by decide) hlow))
  · exact (hboot (.inr rfl) (Nat.le_trans (by decide) hlow)).trans hexit
  · obtain ⟨hplain, hsum⟩ :=
      bus24_plain (show (harnessFramebufferAddr (e.loadedImage 0x200000).finish).toNat + k < 2 ^ 24 by omega)
    have hlower : 0x200000 ≤ (harnessFramebufferAddr (e.loadedImage 0x200000).finish + UInt32.ofNat k).toNat := by omega
    have hcell := (hready.cell hchip hsize hlower (by omega)).2
    rw [hmem.read8 run' (by rw [hplain]; exact hcell), hplain]
    exact hzero k hk

/-- A machine that has just been given a megabyte of Fast RAM. -/
def freshMachine : HarnessBus := { flatMachine with execMode := false, fastram := fastramCreate 1 }

/-- The file of two hunks is ready to run in it, with the entry behind the header of the first segment. -/
theorem freshMachine_boots : ∃ n s fb,
    harnessLoadHunk freshMachine 0 (.ofWords twoHunks.words) 320 200 n = some (s, .ok ⟨fb, 320, 200, 640⟩) ∧
      twoHunks.LoadedIn 0x200000 (fun a => (harnessRead8 s 0 a).2) ∧ cpuAnswer s (0, .read .long 4) = some 0x200008 ∧
      cpuAnswer s (0, .read .long 0x7FFFC) = some 0x800 := by
  have hfits : twoHunks.Fits 0x200000 (0x200000 + 1024 * 1024) := by
    unfold HunkExecutable.Fits
    decide +kernel
  obtain ⟨n, s, fb, hload, -, hreads⟩ := hunk_boots (show fastramCreate 1 = some _ from rfl)
    (show freshMachine.fastram = some _ from rfl) rfl (by decide) (by decide) hfits (ofWords_holds (by decide))
    (show _ + (320 : UInt32).toNat * 2 * (200 : UInt32).toNat ≤ _ by decide) 0
  obtain ⟨hloaded, -, hpc, hreturn, -, -⟩ := hreads 0
  exact ⟨n, s, fb, hload, hloaded, hpc, hreturn⟩

end Rigel
