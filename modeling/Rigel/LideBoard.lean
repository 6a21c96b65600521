import Rigel.CdPackets
import Rigel.Zorro

/-!
# LideBoard — Fast RAM and the IDE board

The two boards of the harness: `fastram.c`, a memory, and `lide.c`, which shows the registers of its channel, the boot loader
and the driver in one window. Accesses of both are big-endian and come in the sizes 1, 2 and 4; outside of what they have, the
bus floats.
-/

namespace Rigel

/-! ## Fast RAM -/

structure FastramBoard extends ZorroBoard where
  ram : Nat → UInt8
  size : UInt32

def fastramSizeCode (bytes : UInt32) : UInt8 :=
  if bytes ≥ 8 * 1024 * 1024 then 0x00
  else if bytes ≥ 4 * 1024 * 1024 then 0x07
  else if bytes ≥ 2 * 1024 * 1024 then 0x06
  else 0x05

/-- The bytes that the board identifies itself with. -/
def fastramRaw (size : UInt32) (i : Nat) : UInt8 :=
  if i = 0 then (0xC0 : UInt8) ||| (0x20 : UInt8) ||| fastramSizeCode size
  else if i = 1 then 0x01 else if i = 4 then 0x07 else if i = 5 then 0xDB else if i = 9 then 0x01 else 0

/-- `fastram_create`, on a host that has the memory. -/
def fastramCreate (megabytes : UInt32) : Option FastramBoard :=
  if megabytes ≠ 1 ∧ megabytes ≠ 2 ∧ megabytes ≠ 4 ∧ megabytes ≠ 8 then none
  else
    let size := megabytes * 1024 * 1024
    some { zorroCreate (fastramRaw size) with ram := fun _ => 0, size := size }

def fastramPending (b : FastramBoard) : Bool := zorroPending b.toZorroBoard

def fastramAcRead (b : FastramBoard) (off : UInt32) : UInt8 := zorroAcRead b.toZorroBoard off

def fastramAcWrite (b : FastramBoard) (off : UInt32) (value : UInt8) : FastramBoard :=
  { b with toZorroBoard := zorroAcWrite b.toZorroBoard off value }

/-- `fastram_force_configure`. -/
def fastramForceConfigure (b : FastramBoard) (base : UInt32) : FastramBoard :=
  if b.configured then b else { b with base := base, configured := true }

def fastramOwns (b : FastramBoard) (addr : UInt32) : Bool := zorroOwns b.toZorroBoard b.size addr

def fastramRead (b : FastramBoard) (addr : UInt32) (size : Nat) : UInt32 :=
  let off := addr - b.base
  let byte (i : UInt32) : UInt32 := (b.ram i.toNat).toUInt32
  if size = 1 then byte off
  else if off + 1 ≥ b.size then 0xFFFFFFFF
  else if size = 2 then (byte off <<< 8) ||| byte (off + 1)
  else if off + 3 ≥ b.size then 0xFFFFFFFF
  else (byte off <<< 24) ||| (byte (off + 1) <<< 16) ||| (byte (off + 2) <<< 8) ||| byte (off + 3)

def fastramWrite (b : FastramBoard) (addr value : UInt32) (size : Nat) : FastramBoard :=
  let off := addr - b.base
  let put (i : UInt32) (v : UInt32) (ram : Nat → UInt8) : Nat → UInt8 := Function.update ram i.toNat v.toUInt8
  if size = 1 then { b with ram := put off value b.ram }
  else if off + 1 ≥ b.size then b
  else if size = 2 then { b with ram := put (off + 1) value (put off (value >>> 8) b.ram) }
  else if off + 3 ≥ b.size then b
  else
    { b with
      ram := put (off + 3) value (put (off + 2) (value >>> 8) (put (off + 1) (value >>> 16) (put off (value >>> 24) b.ram))) }

/-! ## The IDE board -/

def rippleCs1Offset : UInt32 := 0x1000
def rippleNextReg : UInt32 := 0x200

/-- `ata_ide_offset_to_reg`. -/
def ataIdeOffsetToReg (off : UInt32) : Option UInt8 :=
  if off < rippleCs1Offset then none
  else if off ≥ rippleCs1Offset + 8 * rippleNextReg + 2 then none
  else
    let rel := off - rippleCs1Offset
    let reg := rel / rippleNextReg
    if reg ≥ 8 then (if rel ≤ 1 then some 0 else none) else some reg.toUInt8

/-- A file that has been read into memory. -/
structure BoardRom where
  bytes : Nat → UInt8
  size : Nat

def BoardRom.at (rom : BoardRom) (i : Nat) : UInt8 := if i < rom.size then rom.bytes i else 0xFF

structure LideBoard extends ZorroBoard where
  bus : LideBus MediaFile
  iso : MediaFile
  /-- What the host asks for in its environment: discs that boot. -/
  bootable : Bool
  rom : BoardRom
  odfs : Option BoardRom

def lideRaw (i : Nat) : UInt8 :=
  ([(0xC0 : UInt8) ||| (0x10 : UInt8) ||| (0x02 : UInt8), 0x07, 0x00, 0x00, 0x14, 0x4A, 0x00, 0x00, 0x00, 0x01, 0x00, 0x04,
    0x00, 0x00, 0x00, 0x00]).getD i 0

/-- `lide_create`, with a boot ROM that can be read and before any medium is attached; `buf` is what the sector buffer holds. -/
def lideCreate (rom : BoardRom) (buf : Nat → UInt8) (bootable : Bool) : Option LideBoard :=
  if rom.size = 0 then none
  else
    some
      { zorroCreate lideRaw with
        bus := ⟨⟨{ ataIdeChannelInit buf with atapiExec := true }, noDisc⟩, atapiCdromInit⟩
        iso := noDisc
        bootable := bootable
        rom := rom
        odfs := none }

def lideWindowSize : UInt32 := 0x020000

def lidePending (b : LideBoard) : Bool := zorroPending b.toZorroBoard

def lideAcRead (b : LideBoard) (off : UInt32) : UInt8 := zorroAcRead b.toZorroBoard off

def lideAcWrite (b : LideBoard) (off : UInt32) (value : UInt8) : LideBoard :=
  { b with toZorroBoard := zorroAcWrite b.toZorroBoard off value }

def lideOwns (b : LideBoard) (addr : UInt32) : Bool := zorroOwns b.toZorroBoard lideWindowSize addr

/-- `rom_byte`: the header, the boot loader's nibbles on the even addresses, and from 0x2000 on the driver, also there. -/
def lideRomByte (b : LideBoard) (off : UInt32) : UInt8 :=
  if off < 0x0004 then b.rom.at off.toNat
  else if off < 0x1000 then
    let rel := off - 0x0004
    let phase := rel &&& 3
    let nidx := rel >>> 2
    if phase = 0 then b.rom.at ((0x0004 : UInt32) + nidx * 2).toNat
    else if phase = 2 then b.rom.at ((0x0004 : UInt32) + nidx * 2 + 1).toNat
    else 0xFF
  else if off < 0x2000 then 0xFF
  else if off &&& 1 ≠ 0 then 0xFF
  else b.rom.at ((0x1000 : UInt32) + ((off - 0x2000) >>> 1)).toNat

/-- `odfs_byte`. -/
def lideOdfsByte (odfs : BoardRom) (off : UInt32) : UInt8 :=
  let rel := off - 0x10000
  if rel &&& 1 ≠ 0 then 0xFF else odfs.at (rel >>> 1).toNat

/-- The host side of the channel: the hard disk file behind it. -/
def hdfCallbacks : DiskCallbacks MediaFile := ⟨hdfRead, hdfWrite⟩

def lideBusAccess (b : LideBoard) (a : AtaAccess) : LideBoard :=
  { b with bus := lideAccess hdfCallbacks isoOps b.iso b.bootable b.bus a }

/-- The bytes of a window that is a file. -/
def lideRomRead (byte : UInt32 → UInt8) (off : UInt32) (size : Nat) : UInt32 :=
  if size = 1 then (byte off).toUInt32
  else if size = 2 then ((byte off).toUInt32 <<< 8) ||| (byte (off + 1)).toUInt32
  else 0xFFFFFFFF

def lideRead (b : LideBoard) (addr : UInt32) (size : Nat) : LideBoard × UInt32 :=
  if !b.configured then (b, 0xFFFFFFFF)
  else
    let off := addr - b.base
    match ataIdeOffsetToReg off with
    | some reg =>
      if reg = 0 ∧ size = 4 then
        let hi := (ataIdeRead16 b.bus.ch 0).2
        let b := lideBusAccess b (.read16 0)
        (lideBusAccess b (.read16 0), (hi.toUInt32 <<< 16) ||| (ataIdeRead16 b.bus.ch 0).2.toUInt32)
      else if reg = 0 ∧ size = 2 then (lideBusAccess b (.read16 0), (ataIdeRead16 b.bus.ch 0).2.toUInt32)
      else (b, (ataIdeRead8 b.bus.ch reg).toUInt32)
    | none =>
      match b.odfs with
      | some odfs =>
        if off ≥ 0x10000 ∧ off < 0x20000 then (b, lideRomRead (lideOdfsByte odfs) off size)
        else (b, lideRomRead (lideRomByte b) off size)
      | none => (b, lideRomRead (lideRomByte b) off size)

def lideWrite (b : LideBoard) (addr value : UInt32) (size : Nat) : LideBoard :=
  if !b.configured then b
  else
    match ataIdeOffsetToReg (addr - b.base) with
    | some reg =>
      if reg = 0 ∧ size = 4 then
        lideBusAccess (lideBusAccess b (.write16 0 (value >>> 16).toUInt16)) (.write16 0 (value &&& 0xFFFF).toUInt16)
      else if reg = 0 ∧ size = 2 then lideBusAccess b (.write16 0 value.toUInt16)
      else lideBusAccess b (.write8 reg value.toUInt8)
    | none => b

end Rigel
