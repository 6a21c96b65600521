import Mathlib.Data.List.Nodup
import Rigel.ChipMirror
import Rigel.FlatMemory
import Rigel.Harness
import Rigel.LideBoard

/-!
# MachineMemory — the CPU's side of the harness

The address decode of `harness.c`: Chip RAM under the overlay of the ROM, the two boards and their configuration window, the
CIAs, Slow RAM, the custom registers and the ROM. The decode is made for bytes; words have paths of their own for the custom
registers, Chip RAM and the boards, and longs are two words. Where there is RAM, all of that is one flat memory.
-/

namespace Rigel

/-! ## Chip RAM as bytes -/

/-- A byte of the words that the chipset sees. -/
def chipByte (m : ChipRam) (addr : UInt32) : UInt8 :=
  let w := m.words (addr &&& ~~~1)
  if addr &&& 1 = 0 then (w >>> 8).toUInt8 else w.toUInt8

def chipPut (m : ChipRam) (addr : UInt32) (value : UInt8) : ChipRam :=
  let w := m.words (addr &&& ~~~1)
  { m with
    words := Function.update m.words (addr &&& ~~~1)
      (if addr &&& 1 = 0 then (value.toUInt16 <<< 8) ||| (w &&& 0x00FF) else (w &&& 0xFF00) ||| value.toUInt16) }

/-! ## The harness -/

/-- `harness_t` as the CPU reaches it. The bytes of Chip RAM are the words of the context. -/
structure HarnessBus where
  h : Harness
  chipRamSize : UInt32
  slowRam : Nat → UInt8
  slowRamSize : UInt32
  rom : Nat → UInt8
  romSize : UInt32
  stdOff : UInt32
  stdSize : UInt32
  stdMask : UInt32
  extOff : UInt32
  extSize : UInt32
  extMask : UInt32
  ovlOff : UInt32
  ovlMask : UInt32
  execMode : Bool
  fastram : Option FastramBoard
  lide : Option LideBoard

def harnessRomBase : UInt32 := 0xF80000
def harnessRomExtBase : UInt32 := 0xE00000
def harnessSlowRamBase : UInt32 := 0xC00000

def HarnessBus.chipRam (m : HarnessBus) : ChipRam := m.h.rigel.ram

def HarnessBus.setChip (m : HarnessBus) (ram : ChipRam) : HarnessBus :=
  { m with h := { m.h with rigel := { m.h.rigel with ram := ram } } }

def harnessOverlay (m : HarnessBus) : Bool :=
  if m.execMode then false
  else if m.romSize = 0 then false
  else if (rigelCiaRead m.h.rigel .portA 0x2).2 &&& 0x01 = 0 then true
  else (rigelCiaRead m.h.rigel .portA 0x0).2 &&& 0x01 != 0

def harnessOverlayRead8 (m : HarnessBus) (addr : UInt32) : UInt8 := m.rom (m.ovlOff + (addr &&& m.ovlMask)).toNat

def harnessRomRead8 (m : HarnessBus) (addr : UInt32) : UInt8 :=
  if addr ≥ harnessRomBase ∧ m.stdSize ≠ 0 then m.rom (m.stdOff + (addr &&& m.stdMask)).toNat
  else if m.extSize ≠ 0 ∧ addr ≥ harnessRomExtBase ∧ addr < harnessRomExtBase + m.extSize then
    m.rom (m.extOff + (addr &&& m.extMask)).toNat
  else 0xFF

def harnessFastramOwns (m : HarnessBus) (addr : UInt32) : Bool := m.fastram.any fun b => fastramOwns b addr

def harnessLideOwns (m : HarnessBus) (addr : UInt32) : Bool := m.lide.any fun b => lideOwns b addr

def addrInAutoconfig (a : UInt32) : Bool := a ≥ zorroAcBase && a < zorroAcBase + zorroAcWindow
def addrInCustom (a : UInt32) : Bool := a ≥ 0xDF0000 && a < 0xE00000
def addrInCia (a : UInt32) : Bool := a ≥ 0xA00000 && a < 0xC00000
def addrInSlowRam (m : HarnessBus) (a : UInt32) : Bool :=
  m.slowRamSize != 0 && a ≥ harnessSlowRamBase && a < harnessSlowRamBase + m.slowRamSize

def harnessAutoconfigRead (m : HarnessBus) (addr : UInt32) : UInt8 :=
  let off := addr - zorroAcBase
  match m.fastram.filter fastramPending, m.lide.filter lidePending with
  | some b, _ => fastramAcRead b off
  | none, some b => lideAcRead b off
  | none, none => 0xFF

def harnessAutoconfigWrite (m : HarnessBus) (addr : UInt32) (value : UInt8) : HarnessBus :=
  let off := addr - zorroAcBase
  match m.fastram.filter fastramPending, m.lide.filter lidePending with
  | some b, _ => { m with fastram := some (fastramAcWrite b off value) }
  | none, some b => { m with lide := some (lideAcWrite b off value) }
  | none, none => m

def harnessAutoconfigActive (m : HarnessBus) : Bool := m.fastram.any fastramPending || m.lide.any lidePending

/-- The 24 lines of the bus. -/
def bus24 (addr : UInt32) : UInt32 := addr &&& 0x00FFFFFF

/-- A read of a board: the board after it, and the word. -/
def harnessLideRead (m : HarnessBus) (addr : UInt32) (size : Nat) : HarnessBus × UInt32 :=
  match m.lide with
  | some b => ({ m with lide := some (lideRead b addr size).1 }, (lideRead b addr size).2)
  | none => (m, 0xFFFFFFFF)

def harnessLideWrite (m : HarnessBus) (addr value : UInt32) (size : Nat) : HarnessBus :=
  { m with lide := m.lide.map fun b => lideWrite b addr value size }

def harnessFastramRead (m : HarnessBus) (addr : UInt32) (size : Nat) : UInt32 :=
  match m.fastram with
  | some b => fastramRead b addr size
  | none => 0xFFFFFFFF

def harnessFastramWrite (m : HarnessBus) (addr value : UInt32) (size : Nat) : HarnessBus :=
  { m with fastram := m.fastram.map fun b => fastramWrite b addr value size }

section
variable (m : HarnessBus) (run : Int32)

def harnessRead8 (addr : UInt32) : HarnessBus × UInt8 :=
  let addr := bus24 addr
  if addr < m.chipRamSize then
    (m, if harnessOverlay m then harnessOverlayRead8 m addr else chipByte m.chipRam addr)
  else if harnessFastramOwns m addr then (m, (harnessFastramRead m addr 1).toUInt8)
  else if harnessLideOwns m addr then ((harnessLideRead m addr 1).1, (harnessLideRead m addr 1).2.toUInt8)
  else if addrInAutoconfig addr && harnessAutoconfigActive m then (m, harnessAutoconfigRead m addr)
  else if addrInCia addr then
    let r := harnessCiaRead8 m.h run addr
    ({ m with h := r.1 }, r.2)
  else if addrInSlowRam m addr then (m, m.slowRam (addr - harnessSlowRamBase).toNat)
  else if addrInCustom addr then
    let r := harnessCustomRead m.h run (addr &&& 0x1FE)
    ({ m with h := r.1 }, if addr &&& 1 ≠ 0 then (r.2 &&& (0xFF : UInt16)).toUInt8 else (r.2 >>> 8).toUInt8)
  else (m, harnessRomRead8 m addr)

def harnessWrite8 (addr : UInt32) (value : UInt8) : HarnessBus :=
  let addr := bus24 addr
  if addr < m.chipRamSize then m.setChip (chipPut m.chipRam addr value)
  else if harnessFastramOwns m addr then harnessFastramWrite m addr value.toUInt32 1
  else if harnessLideOwns m addr then harnessLideWrite m addr value.toUInt32 1
  else if addrInAutoconfig addr && harnessAutoconfigActive m then harnessAutoconfigWrite m addr value
  else if addrInCia addr then { m with h := harnessCiaWrite8 m.h run addr value }
  else if addrInSlowRam m addr then { m with slowRam := Function.update m.slowRam (addr - harnessSlowRamBase).toNat value }
  else if addrInCustom addr then
    -- a byte at the registers is read, merged and written as a word
    let reg := addr &&& 0x1FE
    let r := harnessCustomRead m.h run reg
    let word : UInt16 :=
      if addr &&& 1 ≠ 0 then (r.2 &&& (0xFF00 : UInt16)) ||| value.toUInt16
      else (r.2 &&& (0x00FF : UInt16)) ||| (value.toUInt16 <<< 8)
    { m with h := harnessCustomWrite r.1 run reg word }
  else m

def harnessRead16 (addr : UInt32) : HarnessBus × UInt16 :=
  let addr := bus24 addr
  if addrInCustom addr then
    let r := harnessCustomRead m.h run (addr &&& 0x1FE)
    ({ m with h := r.1 }, r.2)
  else if addr + 1 < m.chipRamSize then
    (m, if harnessOverlay m then
        ((harnessOverlayRead8 m addr).toUInt16 <<< 8) ||| (harnessOverlayRead8 m (addr + 1)).toUInt16
      else ((chipByte m.chipRam addr).toUInt16 <<< 8) ||| (chipByte m.chipRam (addr + 1)).toUInt16)
  else if harnessFastramOwns m addr then (m, (harnessFastramRead m addr 2).toUInt16)
  else if harnessLideOwns m addr then ((harnessLideRead m addr 2).1, (harnessLideRead m addr 2).2.toUInt16)
  else
    let hi := harnessRead8 m run addr
    let lo := harnessRead8 hi.1 run (addr + 1)
    (lo.1, (hi.2.toUInt16 <<< 8) ||| lo.2.toUInt16)

def harnessWrite16 (addr : UInt32) (value : UInt16) : HarnessBus :=
  let addr := bus24 addr
  if addrInCustom addr then { m with h := harnessCustomWrite m.h run (addr &&& 0x1FE) value }
  else if addr + 1 < m.chipRamSize then
    m.setChip (chipPut (chipPut m.chipRam addr (value >>> 8).toUInt8) (addr + 1) (value &&& 0xFF).toUInt8)
  else if harnessFastramOwns m addr then harnessFastramWrite m addr value.toUInt32 2
  else if harnessLideOwns m addr then harnessLideWrite m addr value.toUInt32 2
  else harnessWrite8 (harnessWrite8 m run addr (value >>> 8).toUInt8) run (addr + 1) (value &&& 0xFF).toUInt8

/-- The memory callbacks of the CPU, at some `m68k_cycles_run`: the machine after them, and the answer of a read. -/
def m68kMemory : MemAccess → HarnessBus × Option UInt32
  | .read .byte addr =>
    let r := harnessRead8 m run addr
    (r.1, some r.2.toUInt32)
  | .read .word addr =>
    let r := harnessRead16 m run addr
    (r.1, some r.2.toUInt32)
  | .read .long addr =>
    let hi := harnessRead16 m run addr
    let lo := harnessRead16 hi.1 run (addr + 2)
    (lo.1, some ((hi.2.toUInt32 <<< 16) ||| lo.2.toUInt32))
  | .write .byte addr value => (harnessWrite8 m run addr value.toUInt8, none)
  | .write .word addr value => (harnessWrite16 m run addr value.toUInt16, none)
  | .write .long addr value =>
    (harnessWrite16 (harnessWrite16 m run addr (value >>> 16).toUInt16) run (addr + 2) value.toUInt16, none)

end

/-! ## RAM -/

/-- A byte of RAM: of Chip RAM by its address, of the others by its offset. -/
inductive RamCell where
  | chip (addr : UInt32)
  | fast (off : UInt32)
  | slow (off : UInt32)
  deriving Repr, DecidableEq

/-- The RAM at an address of the bus. Under the overlay Chip RAM is not seen, and the word path of the custom registers comes
before everything. -/
def ramCell (m : HarnessBus) (addr : UInt32) : Option RamCell :=
  if addrInCustom addr then none
  else if addr < m.chipRamSize then (if harnessOverlay m then none else some (.chip addr))
  else if harnessFastramOwns m addr then m.fastram.map fun b => .fast (addr - b.base)
  else if harnessLideOwns m addr then none
  else if addrInAutoconfig addr && harnessAutoconfigActive m then none
  else if addrInCia addr then none
  else if addrInSlowRam m addr then some (.slow (addr - harnessSlowRamBase))
  else none

/-- The machine with the overlay taken off. -/
def underOverlay (m : HarnessBus) : HarnessBus := { m with execMode := true }

def ramByte (m : HarnessBus) : RamCell → UInt8
  | .chip addr => chipByte m.chipRam addr
  | .fast off => (m.fastram.map fun b => b.ram off.toNat).getD 0xFF
  | .slow off => m.slowRam off.toNat

def ramPut (m : HarnessBus) (value : UInt8) : RamCell → HarnessBus
  | .chip addr => m.setChip (chipPut m.chipRam addr value)
  | .fast off => { m with fastram := m.fastram.map fun b => { b with ram := Function.update b.ram off.toNat value } }
  | .slow off => { m with slowRam := Function.update m.slowRam off.toNat value }

/-- Chip RAM and the board end at even addresses, and the window of the board does not wrap. -/
structure SoundMap (m : HarnessBus) : Prop where
  chip : m.chipRamSize &&& 1 = 0
  fast : ∀ b, m.fastram = some b → b.base &&& 1 = 0 ∧ b.size &&& 1 = 0 ∧ b.base.toNat + b.size.toNat < 2 ^ 32

/-- Fast RAM, from its creation on. -/
inductive FastramReachable : FastramBoard → Prop where
  | create {megabytes : UInt32} {b : FastramBoard} (h : fastramCreate megabytes = some b) : FastramReachable b
  | acWrite {b : FastramBoard} (off : UInt32) (value : UInt8) (h : FastramReachable b) :
    FastramReachable (fastramAcWrite b off value)
  | forceConfigure {b : FastramBoard} (h : FastramReachable b) : FastramReachable (fastramForceConfigure b 0x200000)
  | write {b : FastramBoard} (addr value : UInt32) (size : Nat) (h : FastramReachable b) :
    FastramReachable (fastramWrite b addr value size)

theorem even_toNat {x : UInt32} : x &&& 1 = 0 ↔ x.toNat % 2 = 0 := by
  rw [← UInt32.toNat_inj, UInt32.toNat_and, show (1 : UInt32).toNat = 1 from rfl, Nat.and_one_is_mod]
  rfl

/-- A base that a guest writes. -/
theorem acBase_bounds : ∀ value : UInt8, value.toUInt32 <<< 16 &&& 1 = 0 ∧ (value.toUInt32 <<< 16).toNat ≤ 0xFF0000 :=
  uint8_forall (by decide +kernel)

theorem fastramWrite_window (b : FastramBoard) (addr value : UInt32) (size : Nat) :
    (fastramWrite b addr value size).base = b.base ∧ (fastramWrite b addr value size).size = b.size := by
  unfold fastramWrite
  simp only
  split_ifs <;> exact ⟨rfl, rfl⟩

/-- **The board's part of it** is so however the guest or the host configures it. -/
theorem fastram_sound {b : FastramBoard} (h : FastramReachable b) :
    b.base &&& 1 = 0 ∧ b.size &&& 1 = 0 ∧ b.base.toNat ≤ 0xFF0000 ∧ b.size.toNat ≤ 0x800000 := by
  induction h with
  | @create megabytes b h =>
    have hsize : megabytes = 1 ∨ megabytes = 2 ∨ megabytes = 4 ∨ megabytes = 8 := by
      by_contra hne
      simp only [not_or] at hne
      rw [fastramCreate, if_pos hne] at h
      cases h
    rcases hsize with rfl | rfl | rfl | rfl
    all_goals
      cases h
      decide
  | @acWrite b off value h ih =>
    unfold fastramAcWrite zorroAcWrite
    split_ifs
    · exact ⟨(acBase_bounds value).1, ih.2.1, (acBase_bounds value).2, ih.2.2.2⟩
    · exact ih
    · exact ih
  | @forceConfigure b h ih =>
    have hbase : (0x200000 : UInt32) &&& 1 = 0 ∧ (0x200000 : UInt32).toNat ≤ 0xFF0000 := by decide
    unfold fastramForceConfigure
    split_ifs
    · exact ih
    · exact ⟨hbase.1, ih.2.1, hbase.2, ih.2.2.2⟩
  | @write b addr value size h ih =>
    obtain ⟨hbase, hsize⟩ := fastramWrite_window b addr value size
    rw [hbase, hsize]
    exact ih

theorem soundMap_of {m : HarnessBus} (hchip : m.chipRamSize &&& 1 = 0) (hfast : ∀ b, m.fastram = some b → FastramReachable b) :
    SoundMap m := by
  refine ⟨hchip, fun b hb => ?_⟩
  obtain ⟨hbase, hsize, hlow, hsmall⟩ := fastram_sound (hfast b hb)
  exact ⟨hbase, hsize, by omega⟩

theorem bus24_toNat (addr : UInt32) : (bus24 addr).toNat = addr.toNat % 2 ^ 24 := by
  rw [bus24, UInt32.toNat_and]
  exact Nat.and_two_pow_sub_one_eq_mod _ 24

theorem bus24_succ {addr : UInt32} (h : addr &&& 1 = 0) : bus24 (addr + 1) = bus24 addr + 1 := by
  have heven := even_toNat.mp h
  have haddr := addr.toNat_lt
  refine UInt32.toNat_inj.mp ?_
  rw [bus24_toNat, UInt32.toNat_add, UInt32.toNat_add, bus24_toNat]
  simp only [UInt32.reduceToNat]
  omega

/-! ## Spans -/

/-- An access that does not wrap around the bus. -/
def MemAccess.Below (a : MemAccess) : Prop := a.addr.toNat + a.width.bytes ≤ 2 ^ 24

theorem bus24_plain {addr : UInt32} {k : Nat} (h : addr.toNat + k < 2 ^ 24) :
    bus24 (addr + UInt32.ofNat k) = addr + UInt32.ofNat k ∧ (addr + UInt32.ofNat k).toNat = addr.toNat + k := by
  have hk : (UInt32.ofNat k).toNat = k :=
    UInt32.toNat_ofNat_of_lt' (Nat.lt_trans (Nat.lt_of_le_of_lt (Nat.le_add_left k _) h) (by decide))
  have hsum : (addr + UInt32.ofNat k).toNat = addr.toNat + k := by
    rw [UInt32.toNat_add, hk]
    omega
  refine ⟨UInt32.toNat_inj.mp ?_, hsum⟩
  rw [bus24_toNat, hsum, Nat.mod_eq_of_lt h]

/-- The places of such an access are the addresses from its own on. -/
theorem MemAccess.Below.place {a : MemAccess} (ha : a.Below) {p : UInt32} (hp : p ∈ a.places bus24) :
    a.addr.toNat ≤ p.toNat ∧ p.toNat < a.addr.toNat + a.width.bytes := by
  unfold MemAccess.Below at ha
  obtain ⟨k, hk, rfl⟩ := List.mem_map.mp hp
  have hk' := List.mem_range.mp hk
  obtain ⟨hplain, hsum⟩ := bus24_plain (show a.addr.toNat + k < 2 ^ 24 by omega)
  rw [hplain, hsum]
  omega

theorem MemAccess.Below.nodup {a : MemAccess} (ha : a.Below) : (a.places bus24).Nodup := by
  unfold MemAccess.Below at ha
  refine List.Nodup.map_on (fun i hi j hj hij => ?_) List.nodup_range
  have hi' := List.mem_range.mp hi
  have hj' := List.mem_range.mp hj
  obtain ⟨hplain, hsum⟩ := bus24_plain (show a.addr.toNat + i < 2 ^ 24 by omega)
  obtain ⟨hplain', hsum'⟩ := bus24_plain (show a.addr.toNat + j < 2 ^ 24 by omega)
  have hnat := congrArg UInt32.toNat hij
  rw [hplain, hplain', hsum, hsum'] at hnat
  omega

/-- Two accesses that are apart. -/
theorem flatAnswer_apart {w r : MemAccess} (hw : w.Below) (hr : r.Below)
    (h : w.addr.toNat + w.width.bytes ≤ r.addr.toNat ∨ r.addr.toNat + r.width.bytes ≤ w.addr.toNat) (mem : UInt32 → UInt8) :
    flatAnswer bus24 (flatAccess bus24 mem w) r = flatAnswer bus24 mem r := by
  refine flatAnswer_frame fun p hp hp' => ?_
  have hin := hr.place hp
  have hin' := hw.place hp'
  omega

/-! ## Bytes -/

/-- The bits of the two masks of a byte. -/
theorem byteMasks {i : Nat} (hi : i < 8) : Nat.testBit 0x00FF i = true ∧ Nat.testBit 0x00FF (8 + i) = false ∧
    Nat.testBit 0xFF00 i = false ∧ Nat.testBit 0xFF00 (8 + i) = true := by
  revert i
  decide

theorem high_putHigh (v : UInt8) (w : UInt16) : ((v.toUInt16 <<< 8 ||| (w &&& 0x00FF)) >>> 8).toUInt8 = v := by
  refine uint8_ext fun i hi => ?_
  obtain ⟨-, hlow, -, -⟩ := byteMasks hi
  simp only [UInt16.toNat_toUInt8, Nat.testBit_mod_two_pow, hi, decide_true, Bool.true_and,
    uint16_testBit_shiftRight _ (show (8 : UInt16).toNat = 8 from rfl) (by decide), UInt16.toNat_or, Nat.testBit_lor,
    uint16_testBit_shiftLeft _ (show (8 : UInt16).toNat = 8 from rfl) (by decide) (show 8 + i < 16 by omega),
    UInt16.toNat_and, Nat.testBit_land, UInt16.reduceToNat, hlow, Bool.and_false, Bool.or_false, UInt8.toNat_toUInt16,
    Nat.add_sub_cancel_left, Nat.le_add_right]

theorem low_putHigh (v : UInt8) (w : UInt16) : (v.toUInt16 <<< 8 ||| (w &&& 0x00FF)).toUInt8 = w.toUInt8 := by
  refine uint8_ext fun i hi => ?_
  obtain ⟨hmask, -, -, -⟩ := byteMasks hi
  simp only [UInt16.toNat_toUInt8, Nat.testBit_mod_two_pow, hi, decide_true, Bool.true_and, UInt16.toNat_or, Nat.testBit_lor,
    uint16_testBit_shiftLeft _ (show (8 : UInt16).toNat = 8 from rfl) (by decide) (show i < 16 by omega),
    show ¬ 8 ≤ i by omega, decide_false, Bool.false_and, Bool.false_or, UInt16.toNat_and, Nat.testBit_land,
    UInt16.reduceToNat, hmask, Bool.and_true]

theorem low_putLow (v : UInt8) (w : UInt16) : ((w &&& 0xFF00) ||| v.toUInt16).toUInt8 = v := by
  refine uint8_ext fun i hi => ?_
  obtain ⟨-, -, hmask, -⟩ := byteMasks hi
  simp only [UInt16.toNat_toUInt8, Nat.testBit_mod_two_pow, hi, decide_true, Bool.true_and, UInt16.toNat_or, Nat.testBit_lor,
    UInt16.toNat_and, Nat.testBit_land, UInt16.reduceToNat, hmask, Bool.and_false, Bool.false_or, UInt8.toNat_toUInt16]

theorem high_putLow (v : UInt8) (w : UInt16) : (((w &&& 0xFF00) ||| v.toUInt16) >>> 8).toUInt8 = (w >>> 8).toUInt8 := by
  refine uint8_ext fun i hi => ?_
  obtain ⟨-, -, -, hmask⟩ := byteMasks hi
  simp only [UInt16.toNat_toUInt8, Nat.testBit_mod_two_pow, hi, decide_true, Bool.true_and,
    uint16_testBit_shiftRight _ (show (8 : UInt16).toNat = 8 from rfl) (by decide), UInt16.toNat_or, Nat.testBit_lor,
    UInt16.toNat_and, Nat.testBit_land, UInt16.reduceToNat, hmask, Bool.and_true, UInt8.toNat_toUInt16,
    uint8_testBit_ge v (show 8 ≤ 8 + i by omega), Bool.or_false]

/-- An address is its word and its lane. -/
theorem address_ext {a b : UInt32} (hword : a &&& ~~~1 = b &&& ~~~1) (hlane : a &&& 1 = b &&& 1) : a = b := by
  have hsplit : ∀ x : UInt32, (x &&& ~~~1) ||| (x &&& 1) = x := by
    intro x
    have hall : ~~~(1 : UInt32) ||| 1 = -1 := by decide
    rw [UInt32.and_comm x, UInt32.and_comm x, ← uint32_or_and_distrib, hall, UInt32.and_comm, UInt32.and_neg_one]
  rw [← hsplit a, ← hsplit b, hword, hlane]

theorem odd_lane {x : UInt32} (h : ¬ x &&& 1 = 0) : x &&& 1 = 1 := by
  rw [even_toNat] at h
  rw [← UInt32.toNat_inj, UInt32.toNat_and, show (1 : UInt32).toNat = 1 from rfl, Nat.and_one_is_mod]
  omega

/-- **A byte that is put into Chip RAM** is there, and the others are as they were. -/
theorem chipByte_put (m : ChipRam) (a b : UInt32) (value : UInt8) :
    chipByte (chipPut m a value) b = if b = a then value else chipByte m b := by
  by_cases hword : b &&& ~~~1 = a &&& ~~~1
  · unfold chipByte chipPut
    simp only [hword, Function.update_self]
    by_cases ha : a &&& 1 = 0
    · by_cases hb : b &&& 1 = 0
      · rw [if_pos (address_ext hword (hb.trans ha.symm)), if_pos hb, if_pos ha, high_putHigh]
      · have hne : b ≠ a := fun heq => hb (by rw [heq]; exact ha)
        rw [if_neg hne, if_neg hb, if_pos ha, if_neg hb, low_putHigh]
    · by_cases hb : b &&& 1 = 0
      · have hne : b ≠ a := fun heq => ha (by rw [← heq]; exact hb)
        rw [if_neg hne, if_pos hb, if_neg ha, if_pos hb, high_putLow]
      · rw [if_pos (address_ext hword ((odd_lane hb).trans (odd_lane ha).symm)), if_neg hb, if_neg ha, low_putLow]
  · have hne : b ≠ a := fun heq => hword (by rw [heq])
    unfold chipByte chipPut
    simp only [Function.update_of_ne hword]
    rw [if_neg hne]

section
variable {m : HarnessBus} {addr : UInt32} {c : RamCell}

/-- **The ways to be RAM.** -/
theorem ramCell_cases (h : ramCell m addr = some c) : addrInCustom addr = false ∧
    ((addr < m.chipRamSize ∧ harnessOverlay m = false ∧ c = .chip addr) ∨
      ¬ addr < m.chipRamSize ∧
        ((∃ b, m.fastram = some b ∧ fastramOwns b addr = true ∧ c = .fast (addr - b.base)) ∨
          harnessFastramOwns m addr = false ∧ harnessLideOwns m addr = false ∧
            (addrInAutoconfig addr && harnessAutoconfigActive m) = false ∧ addrInCia addr = false ∧
            addrInSlowRam m addr = true ∧ c = .slow (addr - harnessSlowRamBase))) := by
  unfold ramCell at h
  split at h
  · cases h
  rename_i hcustom
  refine ⟨by simpa using hcustom, ?_⟩
  split at h
  · rename_i hchip
    split at h
    · cases h
    · rename_i hoverlay
      cases h
      exact .inl ⟨hchip, by simpa using hoverlay, rfl⟩
  rename_i hchip
  refine .inr ⟨hchip, ?_⟩
  split at h
  · rename_i hfast
    unfold harnessFastramOwns at hfast
    cases hboard : m.fastram with
    | none => simp [hboard] at hfast
    | some b =>
      rw [hboard] at h hfast
      cases h
      exact .inl ⟨b, rfl, by simpa using hfast, rfl⟩
  rename_i hfast
  split at h
  · cases h
  rename_i hlide
  split at h
  · cases h
  rename_i hauto
  split at h
  · cases h
  rename_i hcia
  split at h
  · rename_i hslow
    cases h
    exact .inr ⟨by simpa using hfast, by simpa using hlide, by simpa using hauto, by simpa using hcia, hslow, rfl⟩
  · cases h

/-- The overlay hides RAM and makes none. -/
theorem ramCell_under (h : ramCell m addr = some c) : ramCell (underOverlay m) addr = some c := by
  obtain ⟨hcustom, hcases⟩ := ramCell_cases h
  unfold ramCell
  rcases hcases with ⟨hchip, -, rfl⟩ | ⟨hchip, ⟨b, hboard, howns, rfl⟩ | ⟨hfast, hlide, hauto, hcia, hslow, rfl⟩⟩
  · have hchip' : addr < (underOverlay m).chipRamSize := hchip
    rw [if_neg (by simp [hcustom]), if_pos hchip']
    rfl
  · have hchip' : ¬ addr < (underOverlay m).chipRamSize := hchip
    have hfast : harnessFastramOwns (underOverlay m) addr = true := by simp [harnessFastramOwns, underOverlay, hboard, howns]
    rw [if_neg (by simp [hcustom]), if_neg hchip', if_pos hfast]
    simp [underOverlay, hboard]
  · unfold ramCell at h
    rw [if_neg (by simp [hcustom]), if_neg hchip] at h
    have hchip' : ¬ addr < (underOverlay m).chipRamSize := hchip
    rw [if_neg (by simp [hcustom]), if_neg hchip']
    exact h

/-- The ways to be RAM for a store, which does not look at the overlay. -/
theorem ramCell_under_cases (h : ramCell (underOverlay m) addr = some c) : addrInCustom addr = false ∧
    ((addr < m.chipRamSize ∧ c = .chip addr) ∨
      ¬ addr < m.chipRamSize ∧
        ((∃ b, m.fastram = some b ∧ fastramOwns b addr = true ∧ c = .fast (addr - b.base)) ∨
          harnessFastramOwns m addr = false ∧ harnessLideOwns m addr = false ∧
            (addrInAutoconfig addr && harnessAutoconfigActive m) = false ∧ addrInCia addr = false ∧
            addrInSlowRam m addr = true ∧ c = .slow (addr - harnessSlowRamBase))) :=
  ⟨(ramCell_cases h).1, (ramCell_cases h).2.imp_left fun ⟨hchip, _, hc⟩ => ⟨hchip, hc⟩⟩

theorem SoundMap.under (hm : SoundMap m) : SoundMap (underOverlay m) := ⟨hm.chip, hm.fast⟩

/-- The machine less what is in its RAM. -/
def clearRam (m : HarnessBus) : HarnessBus :=
  { m.setChip { m.chipRam with words := fun _ => 0 } with
    slowRam := fun _ => 0
    fastram := m.fastram.map fun b => { b with ram := fun _ => 0 } }

/-- No decision of the decode looks into RAM. -/
theorem ramCell_clearRam (m : HarnessBus) : ramCell (clearRam m) = ramCell m := by
  funext addr
  obtain ⟨h, chipRamSize, slowRam, slowRamSize, rom, romSize, stdOff, stdSize, stdMask, extOff, extSize, extMask, ovlOff,
    ovlMask, execMode, fastram, lide⟩ := m
  cases fastram <;> rfl

/-- A write to RAM changes nothing else. -/
theorem clearRam_put (m : HarnessBus) (value : UInt8) (c : RamCell) : clearRam (ramPut m value c) = clearRam m := by
  cases c with
  | chip a => rfl
  | slow off => rfl
  | fast off =>
    obtain ⟨h, chipRamSize, slowRam, slowRamSize, rom, romSize, stdOff, stdSize, stdMask, extOff, extSize, extMask, ovlOff,
      ovlMask, execMode, fastram, lide⟩ := m
    cases fastram <;> rfl

theorem ramCell_put (m : HarnessBus) (value : UInt8) (c : RamCell) : ramCell (ramPut m value c) = ramCell m := by
  rw [← ramCell_clearRam, clearRam_put, ramCell_clearRam]

theorem soundMap_clearRam {m : HarnessBus} : SoundMap (clearRam m) ↔ SoundMap m := by
  constructor
  · rintro ⟨hchip, hfast⟩
    exact ⟨hchip, fun b hb => hfast { b with ram := fun _ => 0 } (by simp [clearRam, HarnessBus.setChip, hb])⟩
  · rintro ⟨hchip, hfast⟩
    refine ⟨hchip, fun b' hb' => ?_⟩
    obtain ⟨b, hb, rfl⟩ := Option.map_eq_some_iff.mp hb'
    exact hfast b hb

end

/-- The cell that an address is decoded to has it for its own. -/
theorem ramCell_injective {m : HarnessBus} {a b : UInt32} {c : RamCell} (ha : ramCell m a = some c)
    (hb : ramCell m b = some c) : a = b := by
  obtain ⟨-, ha⟩ := ramCell_cases ha
  obtain ⟨-, hb⟩ := ramCell_cases hb
  rcases ha with ⟨-, -, hac⟩ | ⟨-, ⟨f, hf, -, hac⟩ | ⟨-, -, -, -, -, hac⟩⟩ <;>
    rcases hb with ⟨-, -, hbc⟩ | ⟨-, ⟨g, hg, -, hbc⟩ | ⟨-, -, -, -, -, hbc⟩⟩ <;>
    rw [hac] at hbc
  all_goals first
    | cases hbc; done
    | skip
  · cases hbc
    rfl
  · rw [hf] at hg
    cases hg
    exact (UInt32.sub_left_inj _).mp (RamCell.fast.inj hbc)
  · exact (UInt32.sub_left_inj _).mp (RamCell.slow.inj hbc)

/-- **A byte that is put into RAM** is there, and the other cells are as they were. -/
theorem ramByte_put {m : HarnessBus} {a : UInt32} {c : RamCell} (ha : ramCell m a = some c) (value : UInt8) (c' : RamCell) :
    ramByte (ramPut m value c) c' = if c' = c then value else ramByte m c' := by
  obtain ⟨-, hcases⟩ := ramCell_cases ha
  cases c with
  | chip addr =>
    cases c' with
    | chip addr' =>
      have hbyte : ramByte (ramPut m value (.chip addr)) (.chip addr') = chipByte (chipPut m.chipRam addr value) addr' := rfl
      rw [hbyte, chipByte_put]
      exact if_congr (by simp) rfl rfl
    | _ => exact (if_neg (by simp)).symm
  | slow off =>
    cases c' with
    | slow off' =>
      have hbyte : ramByte (ramPut m value (.slow off)) (.slow off') =
          Function.update m.slowRam off.toNat value off'.toNat := rfl
      rw [hbyte, Function.update_apply]
      exact if_congr (by rw [UInt32.toNat_inj]; simp) rfl rfl
    | _ => exact (if_neg (by simp)).symm
  | fast off =>
    cases c' with
    | fast off' =>
      obtain ⟨b, hboard⟩ : ∃ b, m.fastram = some b := by
        rcases hcases with ⟨-, -, hc⟩ | ⟨-, ⟨b, hboard, -, -⟩ | ⟨-, -, -, -, -, hc⟩⟩
        · cases hc
        · exact ⟨b, hboard⟩
        · cases hc
      have hbyte : ramByte (ramPut m value (.fast off)) (.fast off') = Function.update b.ram off.toNat value off'.toNat := by
        simp only [ramByte, ramPut, hboard, Option.map_some, Option.getD_some]
      have hold : ramByte m (.fast off') = b.ram off'.toNat := by
        simp only [ramByte, hboard, Option.map_some, Option.getD_some]
      rw [hbyte, hold, Function.update_apply]
      exact if_congr (by rw [UInt32.toNat_inj]; simp) rfl rfl
    | _ => exact (if_neg (by simp)).symm

/-! ## Accesses -/

section
variable {m : HarnessBus} (run : Int32) {addr : UInt32} {c : RamCell}

theorem fastramRead_byte (b : FastramBoard) (addr : UInt32) :
    (fastramRead b addr 1).toUInt8 = b.ram (addr - b.base).toNat := by
  simp only [fastramRead, if_true, UInt8.toUInt8_toUInt32]

/-- **A byte of RAM is read.** -/
theorem harnessRead8_ram (h : ramCell m (bus24 addr) = some c) : harnessRead8 m run addr = (m, ramByte m c) := by
  obtain ⟨hcustom, hcases⟩ := ramCell_cases h
  unfold harnessRead8
  rcases hcases with ⟨hchip, hoverlay, rfl⟩ | ⟨hchip, ⟨b, hboard, howns, rfl⟩ | ⟨hfast, hlide, hauto, hcia, hslow, rfl⟩⟩
  · simp only [hchip, hoverlay, if_true, Bool.false_eq_true, if_false]
    rfl
  · have hfast : harnessFastramOwns m (bus24 addr) = true := by simp [harnessFastramOwns, hboard, howns]
    simp only [hchip, hfast, if_true, if_false, harnessFastramRead, hboard, fastramRead_byte, ramByte, Option.map_some,
      Option.getD_some]
  · simp only [hchip, hfast, hlide, hauto, hcia, hslow, if_true, if_false, Bool.false_eq_true]
    rfl

/-- **A byte of RAM is written**, under the overlay too. -/
theorem harnessWrite8_ram (h : ramCell (underOverlay m) (bus24 addr) = some c) (value : UInt8) :
    harnessWrite8 m run addr value = ramPut m value c := by
  obtain ⟨hcustom, hcases⟩ := ramCell_under_cases h
  unfold harnessWrite8
  rcases hcases with ⟨hchip, rfl⟩ | ⟨hchip, ⟨b, hboard, howns, rfl⟩ | ⟨hfast, hlide, hauto, hcia, hslow, rfl⟩⟩
  · simp only [hchip, if_true]
    rfl
  · have hfast : harnessFastramOwns m (bus24 addr) = true := by simp [harnessFastramOwns, hboard, howns]
    simp only [hchip, hfast, if_true, if_false, harnessFastramWrite, hboard, fastramWrite, ramPut, Option.map_some,
      UInt8.toUInt8_toUInt32]
  · simp only [hchip, hfast, hlide, hauto, hcia, hslow, if_true, if_false, Bool.false_eq_true]
    rfl

/-- A word's second byte is on the same side of an even bound as its first. -/
theorem succ_lt_even {a bound : UInt32} (ha : a &&& 1 = 0) (hbound : bound &&& 1 = 0) (h : a < bound) : a + 1 < bound := by
  rw [even_toNat] at ha hbound
  rw [UInt32.lt_iff_toNat_lt] at h ⊢
  have htop := bound.toNat_lt
  rw [UInt32.toNat_add, show (1 : UInt32).toNat = 1 from rfl]
  omega

theorem lt_of_succ_lt_even {a bound : UInt32} (ha : a &&& 1 = 0) (h : a + 1 < bound) : a < bound := by
  rw [even_toNat] at ha
  rw [UInt32.lt_iff_toNat_lt, UInt32.toNat_add, show (1 : UInt32).toNat = 1 from rfl] at h
  rw [UInt32.lt_iff_toNat_lt]
  have htop := a.toNat_lt
  omega

theorem bus24_even (h : addr &&& 1 = 0) : bus24 addr &&& 1 = 0 := by
  rw [even_toNat] at h ⊢
  rw [bus24_toNat]
  omega

theorem bus24_bus24 (addr : UInt32) : bus24 (bus24 addr) = bus24 addr := by
  refine UInt32.toNat_inj.mp ?_
  rw [bus24_toNat, bus24_toNat, Nat.mod_mod]

/-- The second byte of a word that begins in Chip RAM is the next one there. -/
theorem ramCell_chip_succ {a a' : UInt32} {c' : RamCell} (hm : SoundMap m) (ha : a &&& 1 = 0) (hsucc : a' = a + 1)
    (hchip : a < m.chipRamSize) (h : ramCell m a' = some c') : a + 1 < m.chipRamSize ∧ c' = .chip (a + 1) := by
  subst hsucc
  have hnext := succ_lt_even ha hm.chip hchip
  obtain ⟨-, hcases⟩ := ramCell_cases h
  rcases hcases with ⟨-, -, hc⟩ | ⟨hbeyond, -⟩
  · exact ⟨hnext, hc⟩
  · exact absurd hnext hbeyond

/-- And so it is on the board. -/
theorem fastramOwns_succ {a : UInt32} {b : FastramBoard} (hm : SoundMap m) (ha : a &&& 1 = 0) (hboard : m.fastram = some b)
    (howns : fastramOwns b a = true) : fastramOwns b (a + 1) = true ∧ ¬ a - b.base + 1 ≥ b.size := by
  obtain ⟨hbase, hsize, hwrap⟩ := hm.fast b hboard
  simp only [fastramOwns, zorroOwns, Bool.and_eq_true, decide_eq_true_eq, ge_iff_le] at howns
  obtain ⟨⟨hconf, hge⟩, hlt⟩ := howns
  have hplus : (b.base + b.size).toNat = b.base.toNat + b.size.toNat := by
    rw [UInt32.toNat_add]
    omega
  have hend : b.base + b.size &&& 1 = 0 := by
    rw [even_toNat] at hbase hsize ⊢
    omega
  have hnext := succ_lt_even ha hend hlt
  rw [UInt32.lt_iff_toNat_lt, hplus] at hlt hnext
  rw [UInt32.le_iff_toNat_le] at hge
  have hin : (a - b.base + 1).toNat = a.toNat + 1 - b.base.toNat ∧ (a + 1).toNat = a.toNat + 1 := by
    rw [UInt32.toNat_add, UInt32.toNat_add, UInt32.toNat_sub_of_le _ _ (UInt32.le_iff_toNat_le.mpr hge),
      show (1 : UInt32).toNat = 1 from rfl]
    omega
  constructor
  · simp only [fastramOwns, zorroOwns, Bool.and_eq_true, decide_eq_true_eq, ge_iff_le, UInt32.le_iff_toNat_le,
      UInt32.lt_iff_toNat_lt, hplus]
    exact ⟨⟨hconf, by omega⟩, by omega⟩
  · rw [ge_iff_le, UInt32.le_iff_toNat_le, hin.1]
    omega

theorem ramCell_fast_succ {a : UInt32} {b : FastramBoard} {c' : RamCell} (hm : SoundMap m) (ha : a &&& 1 = 0)
    (hbeyond : ¬ a < m.chipRamSize) (hboard : m.fastram = some b) (howns : fastramOwns b a = true)
    (h : ramCell m (a + 1) = some c') : ¬ a - b.base + 1 ≥ b.size ∧ c' = .fast (a - b.base + 1) := by
  obtain ⟨howns', hin⟩ := fastramOwns_succ hm ha hboard howns
  have hone : a + 1 - b.base = a - b.base + 1 := by
    rw [UInt32.sub_eq_add_neg, UInt32.sub_eq_add_neg, UInt32.add_assoc, UInt32.add_comm 1, UInt32.add_assoc]
  refine ⟨hin, ?_⟩
  obtain ⟨-, hcases⟩ := ramCell_cases h
  rcases hcases with ⟨hchip, -, -⟩ | ⟨-, ⟨b', hb', -, hc⟩ | ⟨hfast, -⟩⟩
  · exact absurd (lt_of_succ_lt_even ha hchip) hbeyond
  · rw [hboard] at hb'
    cases hb'
    rw [hc, hone]
  · simp [harnessFastramOwns, hboard, howns'] at hfast

/-- A word of two bytes of RAM. -/
def ramWord (m : HarnessBus) (hi lo : RamCell) : UInt16 := (ramByte m hi).toUInt16 <<< 8 ||| (ramByte m lo).toUInt16

def ramPutWord (m : HarnessBus) (value : UInt16) (hi lo : RamCell) : HarnessBus :=
  ramPut (ramPut m (value >>> 8).toUInt8 hi) (value &&& 0xFF).toUInt8 lo

theorem toUInt16_bytes (hi lo : UInt8) :
    ((hi.toUInt32 <<< 8) ||| lo.toUInt32).toUInt16 = hi.toUInt16 <<< 8 ||| lo.toUInt16 := by
  have hshift : (hi.toUInt32 <<< 8).toUInt16 = hi.toUInt16 <<< 8 := by
    refine UInt16.toNat_inj.mp ?_
    rw [UInt32.toNat_toUInt16, UInt32.toNat_shiftLeft, UInt16.toNat_shiftLeft, UInt8.toNat_toUInt32, UInt8.toNat_toUInt16]
    exact Nat.mod_mod_of_dvd _ (by decide)
  have hlow : lo.toUInt32.toUInt16 = lo.toUInt16 := UInt8.toUInt16_toUInt32 lo
  rw [UInt32.toUInt16_or, hshift, hlow]

theorem highByte_toUInt32 (w : UInt16) : (w.toUInt32 >>> 8).toUInt8 = (w >>> 8).toUInt8 := by
  refine UInt8.toNat_inj.mp ?_
  rw [UInt32.toNat_toUInt8, UInt16.toNat_toUInt8, UInt32.toNat_shiftRight, UInt16.toNat_shiftRight, UInt16.toNat_toUInt32]
  rfl

theorem lowByte_mask (w : UInt16) : (w &&& 0xFF).toUInt8 = w.toUInt8 := by
  rw [UInt16.toUInt8_and, show (0xFF : UInt16).toUInt8 = -1 from rfl, UInt8.and_neg_one]

theorem lowByte_toUInt32 (w : UInt16) : w.toUInt32.toUInt8 = (w &&& 0xFF).toUInt8 := by
  rw [lowByte_mask, UInt16.toUInt8_toUInt32]

/-- **A word of RAM is read.** -/
theorem harnessRead16_ram {c' : RamCell} (hm : SoundMap m) (haddr : addr &&& 1 = 0) (h : ramCell m (bus24 addr) = some c)
    (h' : ramCell m (bus24 (addr + 1)) = some c') : harnessRead16 m run addr = (m, ramWord m c c') := by
  have heven := bus24_even haddr
  rw [bus24_succ haddr] at h'
  obtain ⟨hcustom, hcases⟩ := ramCell_cases h
  unfold harnessRead16
  rcases hcases with ⟨hchip, hoverlay, rfl⟩ | ⟨hchip, ⟨b, hboard, howns, rfl⟩ | ⟨hfast, hlide, hauto, hcia, hslow, rfl⟩⟩
  · obtain ⟨hnext, rfl⟩ := ramCell_chip_succ hm heven rfl hchip h'
    simp only [hcustom, hnext, hoverlay, if_true, if_false, Bool.false_eq_true]
    rfl
  · have hfast : harnessFastramOwns m (bus24 addr) = true := by simp [harnessFastramOwns, hboard, howns]
    obtain ⟨hin, rfl⟩ := ramCell_fast_succ hm heven hchip hboard howns h'
    have hnext : ¬ bus24 addr + 1 < m.chipRamSize := fun hlt => hchip (lt_of_succ_lt_even heven hlt)
    simp only [hcustom, hnext, hfast, if_true, if_false, Bool.false_eq_true, harnessFastramRead, hboard, fastramRead, hin,
      show ¬ (2 : Nat) = 1 by decide, toUInt16_bytes, ramWord, ramByte, Option.map_some, Option.getD_some]
  · have hnext : ¬ bus24 addr + 1 < m.chipRamSize := fun hlt => hchip (lt_of_succ_lt_even heven hlt)
    have hhigh : harnessRead8 m run (bus24 addr) = (m, ramByte m (.slow (bus24 addr - harnessSlowRamBase))) :=
      harnessRead8_ram run (by rw [bus24_bus24]; exact h)
    have hlow : harnessRead8 m run (bus24 addr + 1) = (m, ramByte m c') :=
      harnessRead8_ram run (by rw [← bus24_succ haddr, bus24_bus24, bus24_succ haddr]; exact h')
    simp only [hcustom, hnext, hfast, hlide, if_false, Bool.false_eq_true, hhigh, hlow]
    rfl

theorem underOverlay_put (m : HarnessBus) (value : UInt8) (c : RamCell) :
    underOverlay (ramPut m value c) = ramPut (underOverlay m) value c := by
  cases c <;> rfl

/-- **A word of RAM is written**, under the overlay too. -/
theorem harnessWrite16_ram {c' : RamCell} (hm : SoundMap m) (haddr : addr &&& 1 = 0)
    (h : ramCell (underOverlay m) (bus24 addr) = some c) (h' : ramCell (underOverlay m) (bus24 (addr + 1)) = some c')
    (value : UInt16) : harnessWrite16 m run addr value = ramPutWord m value c c' := by
  have heven := bus24_even haddr
  rw [bus24_succ haddr] at h'
  obtain ⟨hcustom, hcases⟩ := ramCell_under_cases h
  unfold harnessWrite16
  rcases hcases with ⟨hchip, rfl⟩ | ⟨hchip, ⟨b, hboard, howns, rfl⟩ | ⟨hfast, hlide, hauto, hcia, hslow, rfl⟩⟩
  · obtain ⟨hnext, rfl⟩ := ramCell_chip_succ hm.under heven rfl hchip h'
    change bus24 addr + 1 < m.chipRamSize at hnext
    simp only [hcustom, hnext, if_true, if_false, Bool.false_eq_true]
    rfl
  · have hfast : harnessFastramOwns m (bus24 addr) = true := by simp [harnessFastramOwns, hboard, howns]
    obtain ⟨hin, rfl⟩ := ramCell_fast_succ hm.under heven hchip hboard howns h'
    have hnext : ¬ bus24 addr + 1 < m.chipRamSize := fun hlt => hchip (lt_of_succ_lt_even heven hlt)
    simp only [hcustom, hnext, hfast, if_true, if_false, Bool.false_eq_true, harnessFastramWrite, hboard, fastramWrite, hin,
      show ¬ (2 : Nat) = 1 by decide, ramPutWord, ramPut, Option.map_some, highByte_toUInt32, lowByte_toUInt32]
  · have hnext : ¬ bus24 addr + 1 < m.chipRamSize := fun hlt => hchip (lt_of_succ_lt_even heven hlt)
    have hhigh : harnessWrite8 m run (bus24 addr) (value >>> 8).toUInt8 =
        ramPut m (value >>> 8).toUInt8 (.slow (bus24 addr - harnessSlowRamBase)) :=
      harnessWrite8_ram run (by rw [bus24_bus24]; exact h) _
    simp only [hcustom, hnext, hfast, hlide, if_false, Bool.false_eq_true, hhigh]
    refine harnessWrite8_ram run ?_ _
    rw [underOverlay_put, ramCell_put, ← bus24_succ haddr, bus24_bus24, bus24_succ haddr]
    exact h'

end

/-! ## Runs -/

/-- The bytes that the CPU finds in RAM. -/
def ramShown (m : HarnessBus) (addr : UInt32) : UInt8 := ((ramCell m addr).map (ramByte m)).getD 0

/-- An access of the CPU to RAM alone, at some `m68k_cycles_run`. -/
def InRam (m : HarnessBus) (i : Int32 × MemAccess) : Prop :=
  i.2.Aligned ∧ ∀ p ∈ i.2.places bus24, ramCell m p ≠ none

instance (m : HarnessBus) (i : Int32 × MemAccess) : Decidable (InRam m i) :=
  @instDecidableAnd _ _ inferInstance (List.decidableBAll _ _)

def cpuStep (m : HarnessBus) (i : Int32 × MemAccess) : HarnessBus := (m68kMemory m i.1 i.2).1

def cpuAnswer (m : HarnessBus) (i : Int32 × MemAccess) : Option UInt32 := (m68kMemory m i.1 i.2).2

/-- The machine is `m` but for its RAM, and its RAM is the memory. -/
structure RamHolds (m s : HarnessBus) (mem : UInt32 → UInt8) : Prop where
  rest : clearRam s = clearRam m
  bytes : ∀ addr c, ramCell m addr = some c → ramByte s c = mem addr

section
variable {m s : HarnessBus} {mem : UInt32 → UInt8}

theorem RamHolds.decode (h : RamHolds m s mem) : ramCell s = ramCell m := by
  rw [← ramCell_clearRam, h.rest, ramCell_clearRam]

theorem RamHolds.soundMap (h : RamHolds m s mem) (hm : SoundMap m) : SoundMap s := by
  rw [← soundMap_clearRam, h.rest, soundMap_clearRam]
  exact hm

theorem holds_shown (m : HarnessBus) : RamHolds m m (ramShown m) := by
  refine ⟨rfl, fun addr c hc => ?_⟩
  rw [ramShown, hc]
  rfl

/-- One byte. -/
theorem RamHolds.put (h : RamHolds m s mem) {a : UInt32} {c : RamCell} (hc : ramCell m a = some c) (value : UInt8) :
    RamHolds m (ramPut s value c) (Function.update mem a value) := by
  refine ⟨by rw [clearRam_put, h.rest], fun addr c' hc' => ?_⟩
  rw [ramByte_put (by rw [h.decode]; exact hc), Function.update_apply, h.bytes addr c' hc']
  refine if_congr ⟨fun heq => ?_, fun heq => ?_⟩ rfl rfl
  · rw [heq] at hc'
    exact ramCell_injective hc' hc
  · rw [heq, hc] at hc'
    exact (Option.some.inj hc').symm

variable {a : UInt32} {c c' : RamCell}

/-- And a word. -/
theorem RamHolds.putWord (h : RamHolds m s mem) (hc : ramCell m (bus24 a) = some c)
    (hc' : ramCell m (bus24 (a + 1)) = some c') (value : UInt16) :
    RamHolds m (ramPutWord s value c c') (flatPutWord bus24 mem a value) := (h.put hc _).put hc' _

theorem RamHolds.read8 (h : RamHolds m s mem) (run : Int32) (hc : ramCell m (bus24 a) = some c) :
    harnessRead8 s run a = (s, mem (bus24 a)) := by
  rw [harnessRead8_ram run (by rw [h.decode]; exact hc), h.bytes _ _ hc]

theorem RamHolds.write8 (h : RamHolds m s mem) (run : Int32) (hc : ramCell m (bus24 a) = some c) (value : UInt8) :
    RamHolds m (harnessWrite8 s run a value) (Function.update mem (bus24 a) value) := by
  rw [harnessWrite8_ram run (ramCell_under (by rw [h.decode]; exact hc))]
  exact h.put hc value

theorem RamHolds.word (h : RamHolds m s mem) (hc : ramCell m (bus24 a) = some c)
    (hc' : ramCell m (bus24 (a + 1)) = some c') : ramWord s c c' = flatWord bus24 mem a := by
  rw [ramWord, flatWord, h.bytes _ _ hc, h.bytes _ _ hc']

theorem RamHolds.read16 (h : RamHolds m s mem) (hm : SoundMap m) (run : Int32) (ha : a &&& 1 = 0)
    (hc : ramCell m (bus24 a) = some c) (hc' : ramCell m (bus24 (a + 1)) = some c') :
    harnessRead16 s run a = (s, flatWord bus24 mem a) := by
  rw [harnessRead16_ram run (h.soundMap hm) ha (by rw [h.decode]; exact hc) (by rw [h.decode]; exact hc'), h.word hc hc']

theorem RamHolds.write16 (h : RamHolds m s mem) (hm : SoundMap m) (run : Int32) (ha : a &&& 1 = 0)
    (hc : ramCell m (bus24 a) = some c) (hc' : ramCell m (bus24 (a + 1)) = some c') (value : UInt16) :
    RamHolds m (harnessWrite16 s run a value) (flatPutWord bus24 mem a value) := by
  rw [harnessWrite16_ram run (h.soundMap hm) ha (ramCell_under (by rw [h.decode]; exact hc))
    (ramCell_under (by rw [h.decode]; exact hc'))]
  exact h.putWord hc hc' value

end

theorem even_add_two {a : UInt32} (h : a &&& 1 = 0) : a + 2 &&& 1 = 0 := by
  rw [even_toNat] at h ⊢
  rw [UInt32.toNat_add, show (2 : UInt32).toNat = 2 from rfl]
  omega

/-- An access of the CPU whose bytes are all at such places. -/
def OnPlaces (P : UInt32 → Prop) (i : Int32 × MemAccess) : Prop := i.2.Aligned ∧ ∀ p ∈ i.2.places bus24, P p

instance (P : UInt32 → Prop) [DecidablePred P] (i : Int32 × MemAccess) : Decidable (OnPlaces P i) :=
  @instDecidableAnd _ _ inferInstance (List.decidableBAll _ _)

theorem OnPlaces.at {P : UInt32 → Prop} {i : Int32 × MemAccess} (h : OnPlaces P i) {k : Nat} (hk : k < i.2.width.bytes) :
    P (bus24 (i.2.addr + UInt32.ofNat k)) := h.2 _ (List.mem_map.mpr ⟨k, List.mem_range.mpr hk, rfl⟩)

theorem OnPlaces.first {P : UInt32 → Prop} {i : Int32 × MemAccess} (h : OnPlaces P i) : P (bus24 i.2.addr) := by
  have hfirst := h.at (show 0 < i.2.width.bytes by cases i.2.width <;> decide)
  rwa [show UInt32.ofNat 0 = 0 from rfl, UInt32.add_zero] at hfirst

/-- **The CPU's accesses are made of bytes and words**: a machine that shows some memory by bytes and by words shows it to
every access. -/
theorem access_simulates {R : HarnessBus → (UInt32 → UInt8) → Prop} {S : (UInt32 → UInt8) → UInt32 → UInt8}
    {P : UInt32 → Prop}
    (hread8 : ∀ s mem run a, R s mem → P (bus24 a) → harnessRead8 s run a = (s, S mem (bus24 a)))
    (hread16 : ∀ s mem run a, R s mem → a &&& 1 = 0 → P (bus24 a) → P (bus24 (a + 1)) →
      harnessRead16 s run a = (s, flatWord bus24 (S mem) a))
    (hwrite8 : ∀ s mem run a value, R s mem → P (bus24 a) →
      R (harnessWrite8 s run a value) (Function.update mem (bus24 a) value))
    (hwrite16 : ∀ s mem run a value, R s mem → a &&& 1 = 0 → P (bus24 a) → P (bus24 (a + 1)) →
      R (harnessWrite16 s run a value) (flatPutWord bus24 mem a value))
    (s : HarnessBus) (mem : UInt32 → UInt8) (i : Int32 × MemAccess) (h : R s mem) (hi : OnPlaces P i) :
    cpuAnswer s i = flatAnswer bus24 (S mem) i.2 ∧ R (cpuStep s i) (flatAccess bus24 mem i.2) := by
  obtain ⟨run, a⟩ := i
  have haligned := hi.1
  have h₀ := hi.first
  cases a with
  | read w addr =>
    cases w with
    | byte =>
      have hread := hread8 s mem run addr h h₀
      unfold cpuAnswer cpuStep m68kMemory
      simp only
      rw [hread]
      exact ⟨rfl, h⟩
    | word =>
      have heven : addr &&& 1 = 0 := haligned.resolve_left nofun
      have hread := hread16 s mem run addr h heven h₀ (hi.at (show 1 < 2 by decide))
      unfold cpuAnswer cpuStep m68kMemory
      simp only
      rw [hread]
      exact ⟨rfl, h⟩
    | long =>
      have heven : addr &&& 1 = 0 := haligned.resolve_left nofun
      have hhigh := hread16 s mem run addr h heven h₀ (hi.at (show 1 < 4 by decide))
      have hlow := hread16 s mem run (addr + 2) h (even_add_two heven) (hi.at (show 2 < 4 by decide))
        (by rw [UInt32.add_assoc]; exact hi.at (show 3 < 4 by decide))
      unfold cpuAnswer cpuStep m68kMemory
      simp only
      rw [hhigh, hlow]
      exact ⟨rfl, h⟩
  | write w addr value =>
    refine ⟨by cases w <;> rfl, ?_⟩
    cases w with
    | byte => exact hwrite8 s mem run addr _ h h₀
    | word => exact hwrite16 s mem run addr _ h (haligned.resolve_left nofun) h₀ (hi.at (show 1 < 2 by decide))
    | long =>
      have heven : addr &&& 1 = 0 := haligned.resolve_left nofun
      have hhigh := hwrite16 s mem run addr (value >>> 16).toUInt16 h heven h₀ (hi.at (show 1 < 4 by decide))
      exact hwrite16 _ _ run (addr + 2) _ hhigh (even_add_two heven) (hi.at (show 2 < 4 by decide))
        (by rw [UInt32.add_assoc]; exact hi.at (show 3 < 4 by decide))

/-- **One access** to RAM. -/
theorem holds_access {m : HarnessBus} (hm : SoundMap m) (s : HarnessBus) (mem : UInt32 → UInt8) (i : Int32 × MemAccess)
    (h : RamHolds m s mem) (hi : InRam m i) :
    cpuAnswer s i = flatAnswer bus24 mem i.2 ∧ RamHolds m (cpuStep s i) (flatAccess bus24 mem i.2) := by
  refine access_simulates (R := RamHolds m) (S := id) (P := fun p => ramCell m p ≠ none) ?_ ?_ ?_ ?_ s mem i h hi
  · intro s mem run a h hc
    obtain ⟨c, hc⟩ := Option.ne_none_iff_exists'.mp hc
    exact h.read8 run hc
  · intro s mem run a h ha hc hc'
    obtain ⟨c, hc⟩ := Option.ne_none_iff_exists'.mp hc
    obtain ⟨c', hc'⟩ := Option.ne_none_iff_exists'.mp hc'
    exact h.read16 hm run ha hc hc'
  · intro s mem run a value h hc
    obtain ⟨c, hc⟩ := Option.ne_none_iff_exists'.mp hc
    exact h.write8 run hc value
  · intro s mem run a value h ha hc hc'
    obtain ⟨c, hc⟩ := Option.ne_none_iff_exists'.mp hc
    obtain ⟨c', hc'⟩ := Option.ne_none_iff_exists'.mp hc'
    exact h.write16 hm run ha hc hc' value

/-- The address of a word's low byte. -/
theorem odd_address {a : UInt32} (h : a &&& 1 = 0) : (a + 1) &&& ~~~1 = a ∧ ¬ (a + 1) &&& 1 = 0 := by
  have heven := even_toNat.mp h
  have hor : a + 1 = a ||| 1 := by
    refine UInt32.toNat_inj.mp ?_
    have hsplit : a.toNat = 2 ^ 1 * (a.toNat / 2) := by omega
    have htop := a.toNat_lt
    rw [UInt32.toNat_add, UInt32.toNat_or, show (1 : UInt32).toNat = 1 from rfl, Nat.mod_eq_of_lt (by omega), hsplit]
    exact Nat.two_pow_add_eq_or_of_lt (by decide) _
  constructor
  · rw [hor, uint32_or_and_distrib, even_aligned h]
    exact UInt32.or_zero
  · rw [hor, uint32_or_and_distrib, h]
    decide

/-- After an even cell of Chip RAM comes another. -/
theorem ramCell_chip_odd {m : HarnessBus} (hm : SoundMap m) {a : UInt32} (ha : a &&& 1 = 0)
    (hc : ramCell m a = some (.chip a)) : ramCell m (a + 1) = some (.chip (a + 1)) := by
  obtain ⟨hcustom, hcases⟩ := ramCell_cases hc
  have hcustom' : addrInCustom (a + 1) = false := by
    simp only [addrInCustom, Bool.and_eq_false_iff, decide_eq_false_iff_not, ge_iff_le, UInt32.not_le, UInt32.not_lt]
      at hcustom ⊢
    rcases hcustom with hbelow | habove
    · exact .inl (succ_lt_even ha (by decide) hbelow)
    · refine .inr (UInt32.not_lt.mp fun hlt => ?_)
      exact absurd (lt_of_succ_lt_even ha hlt) (UInt32.not_lt.mpr habove)
  rcases hcases with ⟨hchip, hoverlay, -⟩ | ⟨-, ⟨b, -, -, hfast⟩ | ⟨-, -, -, -, -, hslow⟩⟩
  · have hnext := succ_lt_even ha hm.chip hchip
    simp only [ramCell, hcustom', hnext, hoverlay, if_true, if_false, Bool.false_eq_true]
  · cases hfast
  · cases hslow

/-- The chipset's side of Chip RAM: the words that its channels read. -/
theorem RamHolds.chipWord {m s : HarnessBus} {mem : UInt32 → UInt8} (h : RamHolds m s mem) (hm : SoundMap m) {a : UInt32}
    (ha : a &&& 1 = 0) (hc : ramCell m a = some (.chip a)) :
    s.chipRam.words a = (mem a).toUInt16 <<< 8 ||| (mem (a + 1)).toUInt16 := by
  obtain ⟨hodd, hlane⟩ := odd_address ha
  have hhigh : (s.chipRam.words a >>> 8).toUInt8 = mem a := by
    rw [← h.bytes _ _ hc]
    simp only [ramByte, chipByte, even_aligned ha, ha, if_true]
  have hlow : (s.chipRam.words a).toUInt8 = mem (a + 1) := by
    rw [← h.bytes _ _ (ramCell_chip_odd hm ha hc)]
    simp only [ramByte, chipByte, hodd, hlane, if_false]
  have hjoin := word_bytes (s.chipRam.words a)
  rw [lowByte_mask] at hjoin
  rw [← hhigh, ← hlow, hjoin]

/-- **RAM is flat.** Along any run of accesses to RAM, of any widths at any cycles, the CPU reads what an array of bytes would
answer, and RAM ends as that array does; nothing else in the machine changes, and the words that the chipset reads from Chip
RAM are those of the array. -/
theorem ram_flat {m : HarnessBus} (hm : SoundMap m) (is : List (Int32 × MemAccess)) (his : ∀ i ∈ is, InRam m i) :
    let s := is.foldl cpuStep m
    let mem := is.foldl (fun mem i => flatAccess bus24 mem i.2) (ramShown m)
    collectAlong cpuStep cpuAnswer m is =
        collectAlong (fun mem i => flatAccess bus24 mem i.2) (fun mem i => flatAnswer bus24 mem i.2) (ramShown m) is ∧
      clearRam s = clearRam m ∧ (∀ addr c, ramCell m addr = some c → ramByte s c = mem addr) ∧
      ∀ a, a &&& 1 = 0 → ramCell m a = some (.chip a) →
        s.chipRam.words a = (mem a).toUInt16 <<< 8 ||| (mem (a + 1)).toUInt16 := by
  intro s mem
  obtain ⟨hanswers, hend⟩ := collectAlong_simulates (holds_access hm) is m (ramShown m) (holds_shown m) his
  exact ⟨hanswers, hend.rest, hend.bytes, fun a ha hc => hend.chipWord hm ha hc⟩

/-- A machine without a Kickstart, with a megabyte of Fast RAM where the guest would have put it. -/
def flatMachine : HarnessBus where
  h := harnessCreate (rigelCreate ⟨.pal, false, false, true, true⟩ ⟨.ocs, 0x80000, true, true, fun _ => 0⟩) 0 0
  chipRamSize := 0x80000
  slowRam := fun _ => 0
  slowRamSize := 0x80000
  rom := fun _ => 0
  romSize := 0x80000
  stdOff := 0
  stdSize := 0x80000
  stdMask := 0x7FFFF
  extOff := 0
  extSize := 0
  extMask := 0
  ovlOff := 0
  ovlMask := 0x7FFFF
  execMode := true
  fastram := (fastramCreate 1).map fun b => fastramForceConfigure b 0x200000
  lide := none

theorem flatMachine_boards : ∀ b, flatMachine.fastram = some b → FastramReachable b := by
  intro b hb
  cases hb
  exact .forceConfigure (.create (show fastramCreate 1 = some _ from rfl))

theorem flatMachine_sound : SoundMap flatMachine := soundMap_of (by decide) flatMachine_boards

/-- A long is stored in each kind of RAM, and parts of it are read. -/
def flatStores : List (Int32 × MemAccess) :=
  [(0, .write .long 0x200000 0x12345678), (2, .read .word 0xFF200002), (4, .write .long 0x1000 0xCAFEBABE),
    (6, .read .byte 0x1001), (8, .write .long 0xC00000 0x600DF00D), (10, .write .byte 0xC00002 0xAA),
    (12, .read .long 0xC00000)]

theorem flatStores_read : collectAlong cpuStep cpuAnswer flatMachine flatStores = [0x5678, 0xFE, 0x600DAA0D] := by
  have hram : ∀ i ∈ flatStores, InRam flatMachine i := by decide +kernel
  exact (ram_flat flatMachine_sound flatStores hram).1.trans (by decide)

end Rigel
