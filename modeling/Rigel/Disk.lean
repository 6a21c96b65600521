import Rigel.Paula

/-!
# Disk — floppy drives, the MFM track encoder and disk DMA

`floppy/floppy_drive.c`, `floppy/floppy_mfm.c` and `paula/disk.c`. A drive is stepped by CIA-B's port lines; a DSKLEN
double write freezes the drive's current track as an MFM stream into Paula's buffer, and every granted slot then moves
one word of it into chip memory. Without media the transfer only counts down.
-/

namespace Rigel

/-! ## Drives -/

def floppyAdfCylinders : Nat := 80

/-- `FloppyDrive`. The image belongs to the host: a pointer to bytes, or none. -/
structure FloppyDrive where
  connected : Bool
  selected : Bool
  motor : Bool
  cylinder : Nat
  side : Bool
  ready : Bool
  track0 : Bool
  diskInserted : Bool
  diskChanged : Bool
  writeProtected : Bool
  stepLatch : Bool
  idData : UInt32
  idCount : Int
  adf : Option (Nat → UInt8)
  adfSize : UInt32
  readOffset : UInt32

structure FloppySignals where
  selected : Bool
  motor : Bool
  step : Bool
  direction : Bool
  side : Bool
  deriving Repr, DecidableEq

def floppyInit : FloppyDrive where
  connected := false
  selected := false
  motor := false
  cylinder := 0
  side := false
  ready := false
  track0 := true
  diskInserted := false
  diskChanged := true
  writeProtected := true
  stepLatch := true
  idData := 0
  idCount := 0
  adf := none
  adfSize := 0
  readOffset := 0

def floppyHasMedia (d : FloppyDrive) : Bool := d.connected && d.diskInserted && d.adf.isSome && d.adfSize > 0

def floppyInsert (d : FloppyDrive) (adf : Option (Nat → UInt8)) (adfSize : UInt32) : FloppyDrive :=
  { d with
    connected := true
    adf := adf
    adfSize := adfSize
    diskInserted := adf.isSome && adfSize > 0
    diskChanged := true
    writeProtected := true
    readOffset := 0 }

def floppyEject (d : FloppyDrive) : FloppyDrive :=
  { d with
    adf := none
    adfSize := 0
    diskInserted := false
    diskChanged := true
    writeProtected := false
    ready := false
    motor := false
    readOffset := 0 }

def floppySetConnected (d : FloppyDrive) (connected : Bool) : FloppyDrive :=
  if connected then { d with connected := true } else { d with connected := false, motor := false, ready := false }

def floppyReset (d : FloppyDrive) : FloppyDrive :=
  let fresh := { floppyInit with connected := d.connected }
  if d.adf.isSome ∧ d.adfSize ≠ 0 then floppyInsert fresh d.adf d.adfSize else fresh

def floppyMotor (d : FloppyDrive) (on : Bool) : FloppyDrive :=
  if on ∧ !d.motor then { d with motor := true, ready := floppyHasMedia d, idCount := -1 }
  else if !on ∧ d.motor then { d with motor := false, ready := false }
  else d

/-- The head moves on the leading edge of a step pulse; a step acknowledges a change only with media present. -/
def floppyHead (d : FloppyDrive) (step direction : Bool) : FloppyDrive :=
  if step ∧ d.stepLatch then
    { d with
      stepLatch := false
      cylinder :=
        if direction then d.cylinder - 1
        else if d.cylinder < floppyAdfCylinders - 1 then d.cylinder + 1 else d.cylinder
      diskChanged := !floppyHasMedia d }
  else if !step then { d with stepLatch := true }
  else d

def floppyTrack0 (d : FloppyDrive) : FloppyDrive := { d with track0 := d.cylinder == 0 }

def floppyStep (d : FloppyDrive) (sig : FloppySignals) : FloppyDrive :=
  if !d.connected then { d with selected := false, motor := false, ready := false }
  else if !sig.selected then
    { d with idCount := if d.selected && !d.motor then d.idCount + 1 else d.idCount, selected := false }
  else
    floppyTrack0
      (floppyHead { floppyMotor { d with selected := true } sig.motor with side := sig.side } sig.step sig.direction)

def floppyGetReady (d : FloppyDrive) : Bool := d.connected && d.ready
def floppyGetTrack0 (d : FloppyDrive) : Bool := d.connected && d.track0
def floppyGetDskchg (d : FloppyDrive) : Bool := !d.connected || !d.diskChanged
def floppyGetWpro (d : FloppyDrive) : Bool := !d.connected || !floppyHasMedia d || !d.writeProtected

def floppyGetIdbit (d : FloppyDrive) : Bool :=
  d.connected && (d.idData >>> (31 - UInt32.ofNat (d.idCount % 32).toNat)) &&& 1 != 0

/-! ## MFM -/

def amigaSectorSize : Nat := 512
def amigaSectorsPerTrack : Nat := 11
def amigaTrackSize : UInt32 := 5632
def amigaMfmSectorSize : Nat := 1088
def floppyMfmTrackBytesPal : Nat := 13630

def mfmMask : UInt32 := 0x55555555

def be32 (v : UInt32) : List UInt8 := [(v >>> 24).toUInt8, (v >>> 16).toUInt8, (v >>> 8).toUInt8, v.toUInt8]

def readBe32 (p : Nat → UInt8) (i : Nat) : UInt32 :=
  ((p i).toUInt32 <<< 24) ||| ((p (i + 1)).toUInt32 <<< 16) ||| ((p (i + 2)).toUInt32 <<< 8) ||| (p (i + 3)).toUInt32

/-- A buffer after `bytes` have been stored from `pos` on. -/
def writeBytes (dst : Nat → UInt8) (pos : Nat) (bytes : List UInt8) : Nat → UInt8 :=
  fun i => if pos ≤ i ∧ i - pos < bytes.length then bytes.getD (i - pos) 0 else dst i

/-- `mfmcode_u32`: the clock bits of a run of longwords, from the longword before it. -/
def mfmcodeU32 : UInt32 → List UInt32 → List UInt32
  | _, [] => []
  | prev, x :: xs =>
    let v := x &&& mfmMask
    let clk := ~~~((prev <<< 31) ||| (v >>> 1)) &&& ~~~(v <<< 1) &&& (0xAAAAAAAA : UInt32)
    (v ||| clk) :: mfmcodeU32 v xs

def mfmOdd (x : UInt32) : UInt32 := (x >>> 1) &&& mfmMask
def mfmEven (x : UInt32) : UInt32 := x &&& mfmMask

def mfmSectorInfo (track sector sectorsPerTrack : UInt32) : UInt32 :=
  ((0xFF : UInt32) <<< 24) ||| ((track &&& (0xFF : UInt32)) <<< 16) ||| ((sector &&& (0xFF : UInt32)) <<< 8) |||
    ((sectorsPerTrack - sector) &&& (0xFF : UInt32))

/-- The 272 longwords of `floppy_mfm_encode_sector`. -/
def floppyMfmEncodeSector (sectorData : Nat → UInt8) (track sector sectorsPerTrack : UInt32) : List UInt32 :=
  let info := mfmSectorInfo track sector sectorsPerTrack
  let raw := (List.range 128).map fun i => readBe32 sectorData (4 * i)
  let hck := mfmOdd info ^^^ mfmEven info
  let dck := raw.foldl (fun c r => c ^^^ mfmOdd r ^^^ mfmEven r) 0
  [(0xAAAAAAAA : UInt32), 0x44894489] ++
    mfmcodeU32 0x44894489
      ([mfmOdd info, mfmEven info] ++ List.replicate 8 (0 : UInt32) ++ [hck >>> 1, hck, dck >>> 1, dck] ++ raw.map mfmOdd ++
        raw.map mfmEven)

/-- One sector of the track loop: its longwords, the first replaced so that the clock rule holds across the joint. -/
def mfmTrackSector (trackData : Nat → UInt8) (track sectorsPerTrack : UInt32) (gap : Nat) (dst : Nat → UInt8)
    (sec : Nat) : Nat → UInt8 :=
  let pos := gap + sec * amigaMfmSectorSize
  let prevLastBit := if pos ≥ 4 then readBe32 dst (pos - 4) &&& 1 else 0
  let longs := floppyMfmEncodeSector (fun i => trackData (sec * amigaSectorSize + i)) track (UInt32.ofNat sec)
    sectorsPerTrack
  let dst := writeBytes dst pos (longs.flatMap be32)
  writeBytes dst pos (be32 (if prevLastBit ≠ 0 then 0x2AAAAAAA else 0xAAAAAAAA))

def mfmTrackTail (dst : Nat → UInt8) (dstSize pos : Nat) : Nat → UInt8 :=
  if pos + 4 ≤ dstSize then
    writeBytes dst pos ((mfmcodeU32 (if pos ≥ 4 then readBe32 dst (pos - 4) else 0) [0]).flatMap be32)
  else dst

/-- `floppy_mfm_encode_track` on a buffer of `dstSize` bytes. -/
def floppyMfmEncodeTrack (dst : Nat → UInt8) (dstSize : Nat) (trackData : Nat → UInt8) (track : UInt32)
    (sectorsPerTrack : Nat) : Option (Nat → UInt8) :=
  let dataBytes := sectorsPerTrack * amigaMfmSectorSize
  if dstSize < dataBytes then none
  else
    let gapsize := dstSize - dataBytes
    let gap := 4 * (if gapsize / 4 > 1 then gapsize / 4 - 1 else 0)
    let dst := writeBytes dst 0 ((List.replicate (gap / 4) (0xAAAAAAAA : UInt32)).flatMap be32)
    let dst := (List.range sectorsPerTrack).foldl
      (mfmTrackSector trackData track (UInt32.ofNat sectorsPerTrack) gap) dst
    some (mfmTrackTail dst dstSize (gap + dataBytes))

/-! ## Disk DMA -/

structure DiskState where
  dskptr : UInt32
  dsklen : UInt16
  dskbytr : UInt16
  dskdatr : UInt16
  dsksync : UInt16
  adkcon : UInt16
  dmaActive : Bool
  dmaArmed : Bool
  writeMode : Bool
  syncSeen : Bool
  syncIrqFired : Bool
  dskbytrData : UInt16
  armedDsklen : UInt16
  countdown : UInt32
  dmaPtrBase : UInt32
  dmaBytesTotal : UInt32
  dmaBytesDone : UInt32
  dmaSrcOffset : UInt32
  dmaTrackLen : UInt32
  dmaFillWord : UInt16
  dmaTrackBuf : Nat → UInt8
  /-- The drive that `disk->drive` points to, by number. -/
  drive : Nat

def dsklenDmaen : UInt16 := 0x8000
def dskbytrDmaon : UInt16 := 0x2000
def dskbytrWordsync : UInt16 := 0x0800
def adkconWordsync : UInt16 := 0x0400
def diskFakeDmaCycles : UInt32 := 46000

def readBe16 (p : Nat → UInt8) (i : Nat) : UInt16 := ((p i).toUInt16 <<< 8) ||| (p (i + 1)).toUInt16

/-- `disk_reset`. The track buffer and the drive stay. -/
def diskReset (d : DiskState) : DiskState :=
  { dskptr := 0
    dsklen := 0
    dskbytr := 0
    dskdatr := 0
    dsksync := 0x4489
    adkcon := 0
    dmaActive := false
    dmaArmed := false
    writeMode := false
    syncSeen := false
    syncIrqFired := false
    dskbytrData := 0
    armedDsklen := 0
    countdown := 0
    dmaPtrBase := 0
    dmaBytesTotal := 0
    dmaBytesDone := 0
    dmaSrcOffset := 0
    dmaTrackLen := 0
    dmaFillWord := 0
    dmaTrackBuf := d.dmaTrackBuf
    drive := d.drive }

/-- The sync interrupt fires once per arming, under WORDSYNC. -/
def diskSyncFires (d : DiskState) : Bool := d.syncSeen && d.adkcon &&& adkconWordsync != 0 && !d.syncIrqFired

/-- `disk_maybe_emit_sync`. `dsksynIrq` is the process switch that silences the interrupt but not its latch. -/
def diskMaybeEmitSync (dsksynIrq : Bool) (d : DiskState) : DiskState × List UInt16 :=
  if diskSyncFires d then ({ d with syncIrqFired := true }, if dsksynIrq then [paulaIntDsksyn] else []) else (d, [])

/-- The sync latch is all that `disk_maybe_emit_sync` touches. -/
theorem diskMaybeEmitSync_eq (irq : Bool) (d : DiskState) :
    (diskMaybeEmitSync irq d).1 = { d with syncIrqFired := diskSyncFires d || d.syncIrqFired } := by
  unfold diskMaybeEmitSync
  cases diskSyncFires d with
  | true => rfl
  | false => rfl

def diskLoadDskbytr (d : DiskState) (word : UInt16) : DiskState :=
  { d with dskbytrData := (0x8000 : UInt16) ||| (word &&& (0x00FF : UInt16)), dskdatr := word }

def diskWriteDsksync (dsksynIrq : Bool) (d : DiskState) (value : UInt16) : DiskState × List UInt16 :=
  diskMaybeEmitSync dsksynIrq { d with dsksync := value, syncIrqFired := false }

def diskWriteAdkcon (dsksynIrq : Bool) (d : DiskState) (value : UInt16) : DiskState × List UInt16 :=
  diskMaybeEmitSync dsksynIrq { d with adkcon := applySetclr d.adkcon value }

def diskTrackOffset (drive : FloppyDrive) : UInt32 :=
  UInt32.ofNat (2 * drive.cylinder + (if drive.side then 1 else 0)) * amigaTrackSize

/-- The first offset of the sync word, or the length. -/
def diskTrackFindSync (src : Nat → UInt8) (len : Nat) (sync : UInt16) : Nat :=
  ((List.range (len - 1)).find? fun i => readBe16 src i == sync).getD len

/-- What every start does before it looks at the drive. -/
def diskStartBase (d : DiskState) (value : UInt16) : DiskState :=
  { d with
    dsklen := value
    writeMode := value &&& 0x4000 != 0
    dmaActive := true
    dmaArmed := false
    syncSeen := false
    syncIrqFired := false
    dskbytrData := 0
    countdown := 0
    dskbytr := (d.dskbytr ||| dskbytrDmaon) &&& ~~~dskbytrWordsync
    dskdatr := 0
    dmaPtrBase := d.dskptr
    dmaBytesTotal := 0
    dmaBytesDone := 0
    dmaSrcOffset := 0
    dmaTrackLen := 0
    dmaFillWord := 0 }

/-- The encoded track becomes the DMA source, from its first sync word under WORDSYNC. -/
def diskLoadTrack (d : DiskState) (buf : Nat → UInt8) : DiskState :=
  let off := diskTrackFindSync buf floppyMfmTrackBytesPal d.dsksync
  let found := off + 1 < floppyMfmTrackBytesPal
  let d := { d with dmaTrackBuf := buf, dmaTrackLen := UInt32.ofNat floppyMfmTrackBytesPal }
  let d := if found then diskLoadDskbytr d (readBe16 buf off) else d
  { d with
    dmaSrcOffset := if d.adkcon &&& adkconWordsync ≠ 0 ∧ found then UInt32.ofNat off else 0
    syncSeen := found }

def diskStartDma (dsksynIrq : Bool) (d : DiskState) (drive : FloppyDrive) (value : UInt16) : DiskState × List UInt16 :=
  let lenWords : UInt32 := (value &&& 0x3FFF).toUInt32
  let d := diskStartBase d value
  let fake := { d with countdown := diskFakeDmaCycles }
  let offset := diskTrackOffset drive
  if d.writeMode || lenWords == 0 then (d, [])
  else if !floppyHasMedia drive then (fake, [])
  else if offset ≥ drive.adfSize ∨ amigaTrackSize > drive.adfSize - offset then (fake, [])
  else
    match floppyMfmEncodeTrack d.dmaTrackBuf floppyMfmTrackBytesPal
        (fun i => drive.adf.getD (fun _ => 0) (offset.toNat + i)) (offset / amigaTrackSize) amigaSectorsPerTrack with
    | none => (fake, [])
    | some buf =>
      let r := diskMaybeEmitSync dsksynIrq (diskLoadTrack d buf)
      ({ r.1 with dmaBytesTotal := lenWords <<< 1 }, r.2)

def diskWriteDsklen (dsksynIrq : Bool) (d : DiskState) (drive : FloppyDrive) (value : UInt16) :
    DiskState × List UInt16 :=
  if value &&& dsklenDmaen = 0 then
    ({ d with
        dsklen := value
        dmaActive := false
        dmaArmed := false
        armedDsklen := 0
        countdown := 0
        syncSeen := false
        syncIrqFired := false
        dskbytrData := 0
        dskbytr := d.dskbytr &&& ~~~dskbytrDmaon }, [])
  else if !d.dmaArmed then ({ d with dsklen := value, armedDsklen := value, dmaArmed := true }, [])
  else diskStartDma dsksynIrq d drive value

/-- `disk_read_dskbytr`: the read drops the byte-ready bit. -/
def diskReadDskbytr (d : DiskState) : DiskState × UInt16 :=
  ({ d with dskbytrData := d.dskbytrData &&& ~~~0x8000 },
    (d.dskbytrData &&& 0x80FF) ||| (if d.syncSeen then dskbytrWordsync else 0) |||
      (if d.dmaActive then dskbytrDmaon else 0))

/-- A transfer is over, by countdown or by its last word. -/
def diskComplete (d : DiskState) : DiskState :=
  { d with
    dmaActive := false
    dmaArmed := false
    armedDsklen := 0
    syncSeen := false
    syncIrqFired := false
    dskbytr := d.dskbytr &&& ~~~dskbytrDmaon
    dsklen := d.dsklen &&& ~~~dsklenDmaen }

def diskStep (d : DiskState) (cycles : UInt32) : DiskState × List UInt16 :=
  if !d.dmaActive || d.dmaBytesTotal > 0 || d.countdown == 0 then (d, [])
  else if d.countdown > cycles then ({ d with countdown := d.countdown - cycles }, [])
  else (diskComplete { d with countdown := 0 }, [paulaIntDskblk])

def diskDmaWantsService (d : DiskState) : Bool := d.dmaActive && !d.writeMode && d.dmaBytesDone < d.dmaBytesTotal

/-- One word of a granted transfer: the disk with the word loaded and counted, and the sync mask it may raise. -/
def diskMoveWord (dsksynIrq : Bool) (d : DiskState) (src : UInt32) (word : UInt16) : DiskState × List UInt16 :=
  let d := diskLoadDskbytr d word
  let r := if word = d.dsksync then diskMaybeEmitSync dsksynIrq { d with syncSeen := true } else (d, [])
  ({ r.1 with dmaBytesDone := d.dmaBytesDone + 2, dmaSrcOffset := (src + 2) % d.dmaTrackLen }, r.2)

/-- The end of a granted transfer: a sync seen during it is raised once more before DSKBLK. -/
def diskFinish (dsksynIrq : Bool) (d : DiskState) : DiskState × List UInt16 :=
  let r := if d.syncSeen then diskMaybeEmitSync dsksynIrq { d with syncIrqFired := false } else (d, [])
  ({ diskComplete r.1 with dskptr := d.dmaPtrBase + d.dmaBytesTotal }, r.2 ++ [paulaIntDskblk])

structure DiskGrant where
  disk : DiskState
  mem : ChipRam
  irqs : List UInt16

/-- `disk_dma_service_grant`. -/
def diskDmaServiceGrant (dsksynIrq : Bool) (d : DiskState) (mem : ChipRam) : DiskGrant :=
  if !diskDmaWantsService d || d.dmaTrackLen < 2 then ⟨d, mem, []⟩
  else
    let src := if d.dmaSrcOffset + 1 ≥ d.dmaTrackLen then 0 else d.dmaSrcOffset
    let word := readBe16 d.dmaTrackBuf src.toNat
    let mem := chipRamWrite16 mem (d.dmaPtrBase + d.dmaBytesDone) word
    let r := diskMoveWord dsksynIrq d src word
    if r.1.dmaBytesDone < r.1.dmaBytesTotal then ⟨r.1, mem, r.2⟩
    else ⟨(diskFinish dsksynIrq r.1).1, mem, r.2 ++ (diskFinish dsksynIrq r.1).2⟩

def diskCyclesToNextEvent (d : DiskState) : UInt32 :=
  if d.dmaActive ∧ d.countdown > 0 ∧ d.dmaBytesTotal = 0 then d.countdown else 0xFFFFFFFF

def diskOwnsReg (addr : UInt32) : Bool :=
  addr == 0x008 || addr == 0x010 || addr == 0x01A || addr == 0x020 || addr == 0x022 || addr == 0x024 ||
    addr == 0x07E || addr == 0x09E

def diskReadReg (d : DiskState) (addr : UInt32) : DiskState × UInt16 :=
  match addr with
  | 0x008 => (d, d.dskdatr)
  | 0x010 => (d, d.adkcon)
  | 0x01A => diskReadDskbytr d
  | 0x020 => (d, (d.dskptr >>> 16).toUInt16)
  | 0x022 => (d, d.dskptr.toUInt16)
  | 0x024 => (d, d.dsklen)
  | 0x07E => (d, d.dsksync)
  | _ => (d, 0)

def diskWriteReg (dsksynIrq : Bool) (d : DiskState) (drive : FloppyDrive) (addr : UInt32) (value : UInt16) :
    DiskState × List UInt16 :=
  match addr with
  | 0x020 => ({ d with dskptr := (d.dskptr &&& (0x0000FFFF : UInt32)) ||| (value.toUInt32 <<< 16) }, [])
  | 0x022 => ({ d with dskptr := (d.dskptr &&& 0xFFFF0000) ||| value.toUInt32 }, [])
  | 0x024 => diskWriteDsklen dsksynIrq d drive value
  | 0x07E => diskWriteDsksync dsksynIrq d value
  | 0x09E => diskWriteAdkcon dsksynIrq d value
  | _ => (d, [])

end Rigel
