import Rigel.AtaSectors

/-!
# AtapiCdrom — the packet layer behind the channel

`atapi_cdrom.c`: the drive takes a packet of twelve bytes, answers into the buffer of the channel, and keeps the sense data
of the command that failed last and a unit attention that is still to be reported. Its medium is behind callbacks; a disc
is one whose sectors are an array of bytes, and the image file that the board attaches is such a disc. The board closes the
circle: on it the answers to the channel come from the disk and from this drive.
-/

namespace Rigel

/-! ## The medium -/

def atapiSectorSize : UInt32 := 2048
def iso9660PvdLba : UInt32 := 16
def iso9660SysidOff : Nat := 8
def iso9660SysidLen : Nat := 32

/-- `AtapiMediaOps`: a read returns a code and the buffer after it, and leaves the medium as it was. -/
structure AtapiMediaOps (τ : Type*) where
  present : τ → Bool
  readSectors : τ → UInt32 → UInt32 → (Nat → UInt8) → Int32 × (Nat → UInt8)
  sectorCount : τ → UInt32

/-- `g_iso_ops`, the image file of `lide.c`. -/
def isoOps : AtapiMediaOps MediaFile where
  present := MediaFile.present
  readSectors := fun m lba count buf => mediaRead m atapiSectorSize lba count buf
  sectorCount := MediaFile.sectors

/-- **A disc**: a medium that is there, with an array of sectors that can all be read. -/
structure SectorDisc {τ : Type*} (ops : AtapiMediaOps τ) (medium : τ) where
  present : ops.present medium = true
  /-- The bytes of the array, 2048 to a sector. -/
  byte : Nat → UInt8
  read_ok : ∀ {lba count : UInt32} (buf : Nat → UInt8), lba.toNat + count.toNat ≤ (ops.sectorCount medium).toNat →
    (ops.readSectors medium lba count buf).1 = 0 ∧
      ∀ i < 2048 * count.toNat, (ops.readSectors medium lba count buf).2 i = byte (2048 * lba.toNat + i)

/-- **An attached image is a disc** of as many sectors as it counts. -/
def isoDisc {bytes : Nat → UInt8} {size : Nat} {m : MediaFile} (h : mediaOpen bytes size atapiSectorSize = some m) :
    SectorDisc isoOps m where
  present := by
    unfold mediaOpen at h
    split at h
    · cases h
    · cases h
      rfl
  byte := m.bytes
  read_ok := by
    intro lba count buf hrange
    have hsector : atapiSectorSize.toNat = 2048 := rfl
    unfold mediaOpen at h
    split at h
    · cases h
    · cases h
      have hcount : (UInt32.ofNat (size / atapiSectorSize.toNat)).toNat ≤ size / 2048 := by
        rw [UInt32.toNat_ofNat', hsector]
        exact Nat.mod_le _ _
      have hend : lba.toNat + count.toNat ≤ size / 2048 := Nat.le_trans hrange hcount
      have hgot : min (count.toNat * 2048) (size - lba.toNat * 2048) = count.toNat * 2048 := by omega
      simp only [isoOps, mediaRead, Bool.not_true, Bool.false_eq_true, if_false, hsector, hgot, ne_eq, not_true_eq_false]
      refine ⟨trivial, fun i hi => ?_⟩
      rw [if_pos (by omega), Nat.mul_comm]

/-! ## The drive -/

/-- `AtapiCdromState` without its medium. -/
structure AtapiCdromState where
  senseKey : UInt8
  asc : UInt8
  ascq : UInt8
  unitAttention : Bool
  deriving Repr, DecidableEq

/-- The code that a command returns, the buffer after it, and how much of that is its data. -/
structure AtapiAnswer where
  rc : Int32
  buf : Nat → UInt8
  len : Nat

def cmdTestUnitReady : UInt8 := 0x00
def cmdRequestSense : UInt8 := 0x03
def cmdInquiry : UInt8 := 0x12
def cmdStartStop : UInt8 := 0x1B
def cmdReadCapacity : UInt8 := 0x25
def cmdRead10 : UInt8 := 0x28
def cmdReadToc : UInt8 := 0x43
def cmdModeSense10 : UInt8 := 0x5A

def skNoSense : UInt8 := 0x00
def skNotReady : UInt8 := 0x02
def skIllegalRequest : UInt8 := 0x05
def skUnitAttention : UInt8 := 0x06

def ascMediumNotPresent : UInt8 := 0x3A
def ascMediumChanged : UInt8 := 0x28
def ascInvalidCommand : UInt8 := 0x20
def ascInvalidFieldInCdb : UInt8 := 0x24
def ascLbaOutOfRange : UInt8 := 0x21

def setSense (s : AtapiCdromState) (key asc ascq : UInt8) : AtapiCdromState :=
  { s with senseKey := key, asc := asc, ascq := ascq }

def atapiCdromInit : AtapiCdromState := ⟨0, 0, 0, false⟩

/-- `atapi_cdrom_reset`: a medium that is there is announced anew. -/
def atapiCdromReset (hadMedia : Bool) : AtapiCdromState := ⟨0, 0, 0, hadMedia⟩

def atapiCdromInsert (s : AtapiCdromState) : AtapiCdromState := { s with unitAttention := true }

def atapiCdromEject (s : AtapiCdromState) : AtapiCdromState := { s with unitAttention := false }

/-! ## The volume descriptor -/

def asciiBytes (text : List Char) : List UInt8 := text.map Char.toUInt8

/-- `memcmp` says that these bytes stand there. -/
def bytesAt (buf : Nat → UInt8) (off : Nat) (bytes : List UInt8) : Bool :=
  (List.range bytes.length).all fun i => buf (off + i) == bytes.getD i 0

/-- `memcpy` of these bytes to there. -/
def putBytes (buf : Nat → UInt8) (off : Nat) (bytes : List UInt8) : Nat → UInt8 :=
  fun i => if off ≤ i ∧ i < off + bytes.length then bytes.getD (i - off) 0 else buf i

/-- `patch_pvd_sysid`: on a host that asks for it, a volume descriptor without an Amiga's marker gets one. -/
def patchPvdSysid (bootable : Bool) (buf : Nat → UInt8) (off : Nat) : Nat → UInt8 :=
  if !bootable then buf
  else if buf off ≠ 0x01 then buf
  else if !bytesAt buf (off + 1) (asciiBytes "CD001".toList) then buf
  else if bytesAt buf (off + iso9660SysidOff) (asciiBytes "CDTV".toList) ||
      bytesAt buf (off + iso9660SysidOff) (asciiBytes "AMIGA BOOT".toList) then buf
  else
    putBytes (putBytes buf (off + iso9660SysidOff) (List.replicate iso9660SysidLen 0x20)) (off + iso9660SysidOff)
      (asciiBytes "AMIGA BOOT".toList)

/-! ## Commands -/

section
variable {τ : Type*} (ops : AtapiMediaOps τ) (medium : τ) (bootable : Bool) (s : AtapiCdromState) (pkt buf : Nat → UInt8)
  (max : Nat)

/-- A command that fails before it writes anything. -/
def atapiFail : AtapiAnswer := ⟨-1, buf, 0⟩

/-- A command that answers with these bytes. -/
def atapiData (bytes : List UInt8) : AtapiAnswer := ⟨0, putBytes buf 0 bytes, bytes.length⟩

def cmdTestUnitReadyExec : AtapiCdromState × AtapiAnswer :=
  if !ops.present medium then (setSense s skNotReady ascMediumNotPresent 0x00, atapiFail buf)
  else if s.unitAttention then
    (setSense { s with unitAttention := false } skUnitAttention ascMediumChanged 0x00, atapiFail buf)
  else (setSense s skNoSense 0 0, atapiData buf [])

def cmdRequestSenseExec : AtapiCdromState × AtapiAnswer :=
  if max < 18 then (s, atapiFail buf)
  else
    (setSense s skNoSense 0 0,
      atapiData buf [0x70, 0, s.senseKey &&& 0x0F, 0, 0, 0, 0, 10, 0, 0, 0, 0, s.asc, s.ascq, 0, 0, 0, 0])

def cmdInquiryExec : AtapiCdromState × AtapiAnswer :=
  if max < 36 then (s, atapiFail buf)
  else
    (s, atapiData buf ([0x05, 0x80, 0x02, 0x32, 31, 0, 0, 0] ++ asciiBytes "BELLA   ".toList ++
      asciiBytes "VIRTUAL CDROM   ".toList ++ asciiBytes "1.00".toList))

/-- A long, the high byte first. -/
def be32Bytes (x : UInt32) : List UInt8 := [(x >>> 24).toUInt8, (x >>> 16).toUInt8, (x >>> 8).toUInt8, x.toUInt8]

def cmdReadCapacityExec : AtapiCdromState × AtapiAnswer :=
  if max < 8 then (s, atapiFail buf)
  else if !ops.present medium then (setSense s skNotReady ascMediumNotPresent 0, atapiFail buf)
  else
    let sectors := if ops.sectorCount medium = 0 then 1 else ops.sectorCount medium
    (s, atapiData buf (be32Bytes (sectors - 1) ++ [0x00, 0x00, 0x08, 0x00]))

def cmdReadTocExec : AtapiCdromState × AtapiAnswer :=
  if max < 20 then (s, atapiFail buf)
  else if !ops.present medium then (setSense s skNotReady ascMediumNotPresent 0, atapiFail buf)
  else
    (s, atapiData buf ([0, 18, 1, 1, 0, 0x14, 1, 0, 0, 0, 0, 0, 0, 0x14, 0xAA, 0] ++ be32Bytes (ops.sectorCount medium)))

def cmdModeSense10Exec : AtapiCdromState × AtapiAnswer :=
  if max < 8 then (s, atapiFail buf) else (s, atapiData buf [0, 6, 0, 0, 0, 0, 0, 0])

/-- The range that a READ(10) names. -/
def read10Lba : UInt32 :=
  ((pkt 2).toUInt32 <<< 24) ||| ((pkt 3).toUInt32 <<< 16) ||| ((pkt 4).toUInt32 <<< 8) ||| (pkt 5).toUInt32

def read10Count : UInt16 := ((pkt 7).toUInt16 <<< 8) ||| (pkt 8).toUInt16

/-- What `patch_pvd_sysid` makes of a buffer that holds the volume descriptor's sector. -/
def read10Patch (lba : UInt32) (count : UInt16) : Nat → UInt8 :=
  if lba ≤ iso9660PvdLba ∧ lba + count.toUInt32 > iso9660PvdLba then
    patchPvdSysid bootable buf ((iso9660PvdLba - lba).toNat * atapiSectorSize.toNat)
  else buf

def cmdRead10Exec : AtapiCdromState × AtapiAnswer :=
  if !ops.present medium then (setSense s skNotReady ascMediumNotPresent 0, atapiFail buf)
  else
    let lba := read10Lba pkt
    let count := read10Count pkt
    let needed := count.toNat * atapiSectorSize.toNat
    if count = 0 then (s, atapiData buf [])
    else if needed > max then (setSense s skIllegalRequest ascInvalidFieldInCdb 0, atapiFail buf)
    else
      let r := ops.readSectors medium lba count.toUInt32 buf
      if r.1 ≠ 0 then (setSense s skIllegalRequest ascLbaOutOfRange 0, ⟨-1, r.2, 0⟩)
      else (setSense s skNoSense 0 0, ⟨0, read10Patch bootable r.2 lba count, needed⟩)

/-- `atapi_cdrom_exec`. -/
def atapiCdromExec : AtapiCdromState × AtapiAnswer :=
  if pkt 0 = cmdTestUnitReady then cmdTestUnitReadyExec ops medium s buf
  else if pkt 0 = cmdRequestSense then cmdRequestSenseExec s buf max
  else if pkt 0 = cmdInquiry then cmdInquiryExec s buf max
  else if pkt 0 = cmdReadCapacity then cmdReadCapacityExec ops medium s buf max
  else if pkt 0 = cmdReadToc then cmdReadTocExec ops medium s buf max
  else if pkt 0 = cmdModeSense10 then cmdModeSense10Exec s buf max
  else if pkt 0 = cmdRead10 then cmdRead10Exec ops medium bootable s pkt buf max
  else if pkt 0 = cmdStartStop then (s, atapiData buf [])
  else (setSense s skIllegalRequest ascInvalidCommand 0, atapiFail buf)

/-- **An answer fits.** It is inside the buffer, has whole words, and after a failure there is none. -/
structure AtapiAnswer.Fits (r : AtapiAnswer) (max : Nat) : Prop where
  inside : r.len ≤ max
  even : r.len % 2 = 0
  failed : r.rc ≠ 0 → r.len = 0

theorem fits_nothing (rc : Int32) (buf : Nat → UInt8) (max : Nat) : AtapiAnswer.Fits ⟨rc, buf, 0⟩ max :=
  ⟨Nat.zero_le max, rfl, fun _ => rfl⟩

/-- A success with `n` bytes, for which the buffer has been found large enough. -/
theorem fits_data {n : Nat} (h : ¬ max < n) (heven : n % 2 = 0) (buf : Nat → UInt8) : AtapiAnswer.Fits ⟨0, buf, n⟩ max :=
  ⟨Nat.le_of_not_lt h, heven, fun hrc => absurd rfl hrc⟩

theorem cmdRead10Exec_fits : (cmdRead10Exec ops medium bootable s pkt buf max).2.Fits max := by
  unfold cmdRead10Exec
  split
  · exact fits_nothing _ _ _
  dsimp only
  split
  · exact fits_nothing _ _ _
  split
  · exact fits_nothing _ _ _
  · rename_i hfits
    have heven : (read10Count pkt).toNat * atapiSectorSize.toNat % 2 = 0 := by
      have hsector : atapiSectorSize.toNat = 2048 := rfl
      rw [hsector]
      omega
    split
    · exact fits_nothing _ _ _
    · exact fits_data _ hfits heven _

/-- **Every answer fits.** -/
theorem atapiCdromExec_fits : (atapiCdromExec ops medium bootable s pkt buf max).2.Fits max := by
  unfold atapiCdromExec
  split
  · unfold cmdTestUnitReadyExec
    repeat' split
    all_goals exact fits_nothing _ _ _
  split
  · unfold cmdRequestSenseExec
    split
    · exact fits_nothing _ _ _
    · rename_i hmax
      exact fits_data _ hmax rfl _
  split
  · unfold cmdInquiryExec
    split
    · exact fits_nothing _ _ _
    · rename_i hmax
      exact fits_data _ hmax rfl _
  split
  · unfold cmdReadCapacityExec
    split
    · exact fits_nothing _ _ _
    · rename_i hmax
      split
      · exact fits_nothing _ _ _
      · exact fits_data _ hmax rfl _
  split
  · unfold cmdReadTocExec
    split
    · exact fits_nothing _ _ _
    · rename_i hmax
      split
      · exact fits_nothing _ _ _
      · exact fits_data _ hmax rfl _
  split
  · unfold cmdModeSense10Exec
    split
    · exact fits_nothing _ _ _
    · rename_i hmax
      exact fits_data _ hmax rfl _
  split
  · exact cmdRead10Exec_fits ops medium bootable s pkt buf max
  split
  · exact fits_nothing _ _ _
  · exact fits_nothing _ _ _

/-- **Twelve bytes are the packet**: what stands behind them is not looked at. -/
theorem atapiCdromExec_packet {pkt pkt' : Nat → UInt8} (h : ∀ i < 12, pkt i = pkt' i) :
    atapiCdromExec ops medium bootable s pkt buf max = atapiCdromExec ops medium bootable s pkt' buf max := by
  unfold atapiCdromExec cmdRead10Exec read10Lba read10Count
  rw [h 0 (by decide), h 2 (by decide), h 3 (by decide), h 4 (by decide), h 5 (by decide), h 7 (by decide), h 8 (by decide)]

end

end Rigel
