import Mathlib.Logic.Function.Basic

/-!
# AtaIde — the register layer of the IDE channel

One channel with two devices on it, an ATA disk and an ATAPI drive, which share the task file, the transfer buffer and the
state. The disk and the packet layer behind the channel are callbacks. What they would answer during an access is an
input of it (`MediaAnswers`); the calls of `disk_write` are recorded in `diskWrites`.
-/

namespace Rigel

def ataXferBufSectors : Nat := 256
def ataXferBufSize : Nat := ataXferBufSectors * 2048

inductive AtaRegState where
  | idle
  | identify
  | atapiCmd
  | atapiDataIn
  | atapiDataOut
  | atapiStatus
  | dataIn
  | dataOut
  deriving Repr, DecidableEq

/-- A call of `disk_write`, with the buffer it was given. -/
structure DiskWrite where
  lba : UInt32
  count : UInt32
  buf : Nat → UInt8

/-- `AtaIdeChannel`. A callback that may be `NULL` is a flag that says whether it is there. -/
structure AtaIdeChannel where
  features : UInt8
  sectorCount : UInt8
  lbaLow : UInt8
  lbaMid : UInt8
  lbaHigh : UInt8
  devHead : UInt8
  error : UInt8
  status : UInt8
  state : AtaRegState
  xferBuf : Nat → UInt8
  xferLen : Nat
  xferPos : Nat
  atapiPkt : Nat → UInt8
  atapiPktPos : Nat
  atapiExec : Bool
  diskRead : Bool
  diskWrite : Bool
  diskSectors : UInt32
  diskWrLba : UInt32
  diskWrCount : UInt32
  diskWrites : List DiskWrite

/-- What the callbacks answer if an access calls them. `atapi_exec` is given the size of the buffer and reports the bytes
it wrote there, which are no more. -/
structure MediaAnswers where
  readRc : Int32
  readBuf : Nat → UInt8
  writeRc : Int32
  execRc : Int32
  execBuf : Nat → UInt8
  execLen : Nat
  execLen_le : execLen ≤ ataXferBufSize

/-! ## The bits and codes -/

def ataStatusRdy : UInt8 := 0x40
def ataStatusDrq : UInt8 := 0x08
def ataStatusErr : UInt8 := 0x01
def ataErrAbrt : UInt8 := 0x04
def irCod : UInt8 := 0x01
def irIo : UInt8 := 0x02
def atapiSigLbaMid : UInt8 := 0x14
def atapiSigLbaHigh : UInt8 := 0xEB
def ataCmdIdentifyDevice : UInt8 := 0xEC
def ataCmdIdentifyPacket : UInt8 := 0xA1
def ataCmdPacket : UInt8 := 0xA0
def ataCmdDeviceReset : UInt8 := 0x08
def ataCmdReadSectors : UInt8 := 0x20
def ataCmdWriteSectors : UInt8 := 0x30
def ataCmdSetFeatures : UInt8 := 0xEF
def ataDevSlaveBit : UInt8 := 0x10
def ataSectorSize : UInt32 := 512

/-! ## The answers to IDENTIFY -/

def clear512 (buf : Nat → UInt8) (n : Nat) : UInt8 := if n < 512 then 0 else buf n

/-- `WORD_LE`. -/
def wordLe (i : Nat) (w : UInt16) (buf : Nat → UInt8) : Nat → UInt8 :=
  Function.update (Function.update buf (i * 2) (w &&& 0xFF).toUInt8) (i * 2 + 1) (w >>> 8).toUInt8

/-- A text from word `i` on, the characters of each pair swapped. -/
def textLe (buf : Nat → UInt8) : Nat → List Char → Nat → UInt8
  | i, a :: b :: rest =>
    textLe (Function.update (Function.update buf (i * 2) b.toUInt8) (i * 2 + 1) a.toUInt8) (i + 1) rest
  | _, _ => buf

def identifyPacketBuf (buf : Nat → UInt8) : Nat → UInt8 :=
  let buf := clear512 buf
  let buf := wordLe 0 0x85C0 buf
  let buf := wordLe 1 0x0000 buf
  let buf := wordLe 2 0xC837 buf
  let buf := wordLe 49 0x0200 buf
  let buf := wordLe 51 0x0200 buf
  let buf := wordLe 53 0x0006 buf
  let buf := wordLe 63 0x0007 buf
  let buf := wordLe 64 0x0001 buf
  let buf := textLe buf 10 "00000000000000000001".toList
  let buf := textLe buf 23 "1.00    ".toList
  let buf := textLe buf 27 "BELLATRIX VIRTUAL CD-ROM                ".toList
  let buf := wordLe 47 0x8001 buf
  let buf := wordLe 80 0x00F0 buf
  wordLe 81 0x0022 buf

def identifyDiskBuf (total : UInt32) (buf : Nat → UInt8) : Nat → UInt8 :=
  let cylinders := total / (16 * 63)
  let buf := clear512 buf
  let buf := wordLe 0 0x0040 buf
  let buf := wordLe 1 (if cylinders > 65535 then 65535 else cylinders.toUInt16) buf
  let buf := wordLe 3 16 buf
  let buf := wordLe 6 63 buf
  let buf := wordLe 47 0x8000 buf
  let buf := wordLe 49 0x0200 buf
  let buf := wordLe 53 0x0006 buf
  let buf := wordLe 60 (total &&& 0xFFFF).toUInt16 buf
  let buf := wordLe 61 (total >>> 16).toUInt16 buf
  let buf := wordLe 64 0x0001 buf
  let buf := wordLe 80 0x00F0 buf
  let buf := wordLe 83 0x4000 buf
  let buf := textLe buf 10 "00000000000000000002".toList
  let buf := textLe buf 23 "1.00    ".toList
  textLe buf 27 "BELLATRIX VIRTUAL HARDDISK              ".toList

def buildIdentify (ch : AtaIdeChannel) : AtaIdeChannel :=
  { ch with xferBuf := identifyPacketBuf ch.xferBuf, xferLen := 512, xferPos := 0 }

def buildIdentifyDisk (ch : AtaIdeChannel) : AtaIdeChannel :=
  { ch with xferBuf := identifyDiskBuf ch.diskSectors ch.xferBuf, xferLen := 512, xferPos := 0 }

/-! ## Reset -/

def ataIdeChannelReset (ch : AtaIdeChannel) : AtaIdeChannel :=
  { ch with
    error := 0x01
    status := ataStatusRdy
    lbaMid := atapiSigLbaMid
    lbaHigh := atapiSigLbaHigh
    devHead := 0x00
    features := 0
    sectorCount := 0
    lbaLow := 0
    state := .idle
    xferLen := 0
    xferPos := 0
    atapiPktPos := 0 }

/-- `ata_ide_channel_init`: everything 0 but the buffer, then a reset. -/
def ataIdeChannelInit (buf : Nat → UInt8) : AtaIdeChannel :=
  ataIdeChannelReset
    { features := 0, sectorCount := 0, lbaLow := 0, lbaMid := 0, lbaHigh := 0, devHead := 0, error := 0, status := 0
      state := .idle
      xferBuf := buf, xferLen := 0, xferPos := 0
      atapiPkt := fun _ => 0, atapiPktPos := 0
      atapiExec := false
      diskRead := false, diskWrite := false, diskSectors := 0, diskWrLba := 0, diskWrCount := 0
      diskWrites := [] }

/-- What the board registers with the channel: the packet layer, and a disk with its size. -/
structure AtaMedia where
  atapiExec : Bool
  diskRead : Bool
  diskWrite : Bool
  diskSectors : UInt32

/-- The channel as the board leaves it: initialised, registered, and reset once more. -/
def ataIdeChannel (media : AtaMedia) (buf : Nat → UInt8) : AtaIdeChannel :=
  ataIdeChannelReset
    { ataIdeChannelInit buf with
      atapiExec := media.atapiExec
      diskRead := media.diskRead
      diskWrite := media.diskWrite
      diskSectors := media.diskSectors }

/-! ## Commands -/

def ataDiskPresent (ch : AtaIdeChannel) : Bool := ch.diskRead

/-- The ATAPI drive is selected. -/
def ataSelectedSlave (ch : AtaIdeChannel) : Bool := ch.devHead &&& ataDevSlaveBit != 0

/-- The lines that every refusal ends with: an aborted command, and nothing but the registers touched. -/
def ataAbort (ch : AtaIdeChannel) : AtaIdeChannel :=
  { ch with error := ataErrAbrt, status := ataStatusRdy ||| ataStatusErr }

/-- The DEV bit survives. -/
def ataDeviceReset (ch : AtaIdeChannel) : AtaIdeChannel :=
  { ataIdeChannelReset ch with devHead := ch.devHead &&& ataDevSlaveBit }

def diskLba (ch : AtaIdeChannel) : UInt32 :=
  ((ch.devHead &&& 0x0F).toUInt32 <<< 24) ||| (ch.lbaHigh.toUInt32 <<< 16) ||| (ch.lbaMid.toUInt32 <<< 8) |||
    ch.lbaLow.toUInt32

def diskCount (ch : AtaIdeChannel) : UInt32 := if ch.sectorCount ≠ 0 then ch.sectorCount.toUInt32 else 256

def diskOutOfRange (ch : AtaIdeChannel) : Bool :=
  diskLba ch + diskCount ch > ch.diskSectors || diskCount ch * ataSectorSize > ataXferBufSize.toUInt32

def executeDiskRead (ch : AtaIdeChannel) (answers : MediaAnswers) : AtaIdeChannel :=
  if diskOutOfRange ch then ataAbort ch
  else if answers.readRc ≠ 0 then ataAbort { ch with xferBuf := answers.readBuf }
  else
    { ch with
      xferBuf := answers.readBuf
      xferLen := (diskCount ch).toNat * ataSectorSize.toNat
      xferPos := 0
      state := .dataIn
      status := ataStatusRdy ||| ataStatusDrq
      error := 0 }

def executeDiskWrite (ch : AtaIdeChannel) : AtaIdeChannel :=
  if diskOutOfRange ch then ataAbort ch
  else if !ch.diskWrite then ataAbort ch
  else
    { ch with
      diskWrLba := diskLba ch
      diskWrCount := diskCount ch
      xferLen := (diskCount ch).toNat * ataSectorSize.toNat
      xferPos := 0
      state := .dataOut
      status := ataStatusRdy ||| ataStatusDrq
      error := 0 }

def executeDiskCommand (ch : AtaIdeChannel) (answers : MediaAnswers) (cmd : UInt8) : AtaIdeChannel :=
  if cmd = ataCmdDeviceReset then { ataDeviceReset ch with lbaMid := 0, lbaHigh := 0 }
  else if cmd = ataCmdIdentifyDevice then
    { buildIdentifyDisk ch with state := .dataIn, status := ataStatusRdy ||| ataStatusDrq, error := 0 }
  else if cmd = ataCmdSetFeatures then { ch with status := ataStatusRdy, error := 0 }
  else if cmd = ataCmdReadSectors then executeDiskRead ch answers
  else if cmd = ataCmdWriteSectors then executeDiskWrite ch
  else ataAbort ch

def executeAtapiCommand (ch : AtaIdeChannel) (cmd : UInt8) : AtaIdeChannel :=
  if cmd = ataCmdDeviceReset then ataDeviceReset ch
  else if cmd = ataCmdIdentifyDevice then ataAbort { ch with lbaMid := atapiSigLbaMid, lbaHigh := atapiSigLbaHigh }
  else if cmd = ataCmdIdentifyPacket then
    { buildIdentify ch with
      state := .identify
      status := ataStatusRdy ||| ataStatusDrq
      error := 0
      lbaMid := 0x00
      lbaHigh := 0x02 }
  else if cmd = ataCmdPacket then
    { ch with
      state := .atapiCmd
      atapiPktPos := 0
      status := ataStatusRdy ||| ataStatusDrq
      error := 0
      sectorCount := irCod }
  else ataAbort ch

def executeCommand (ch : AtaIdeChannel) (answers : MediaAnswers) (cmd : UInt8) : AtaIdeChannel :=
  if ataSelectedSlave ch then executeAtapiCommand ch cmd
  else if ataDiskPresent ch then executeDiskCommand ch answers cmd
  else ataAbort { ch with lbaMid := 0, lbaHigh := 0 }

def executeAtapiPacket (ch : AtaIdeChannel) (answers : MediaAnswers) : AtaIdeChannel :=
  if !ch.atapiExec then ataAbort ch
  else
    let ch := { ch with xferBuf := answers.execBuf }
    if answers.execRc ≠ 0 ∨ answers.execLen = 0 then
      { ch with
        state := .idle
        status := ataStatusRdy ||| (if answers.execRc ≠ 0 then ataStatusErr else 0)
        error := if answers.execRc ≠ 0 then ataErrAbrt else ch.error
        sectorCount := irIo ||| irCod }
    else
      let bc : UInt16 := if answers.execLen > 0xFFFE then 0xFFFE else answers.execLen.toUInt16
      { ch with
        xferLen := answers.execLen
        xferPos := 0
        state := .atapiDataIn
        status := ataStatusRdy ||| ataStatusDrq
        error := 0
        lbaMid := (bc &&& 0xFF).toUInt8
        lbaHigh := (bc >>> 8).toUInt8
        sectorCount := irIo }

/-! ## Register accesses -/

def ataIdeRead8 (ch : AtaIdeChannel) (reg : UInt8) : UInt8 :=
  if reg = 1 then ch.error
  else if reg = 2 then ch.sectorCount
  else if reg = 3 then ch.lbaLow
  else if reg = 4 then ch.lbaMid
  else if reg = 5 then ch.lbaHigh
  else if reg = 6 then ch.devHead ||| 0xA0
  else if reg = 7 then ch.status
  else 0xFF

/-- The host is taking words out of the buffer. -/
def AtaRegState.sends : AtaRegState → Bool
  | .identify | .atapiDataIn | .dataIn => true
  | _ => false

/-- The last word of a transfer to the host has been taken. -/
def ataReadComplete (ch : AtaIdeChannel) : AtaIdeChannel :=
  { ch with
    state := .idle
    status := ataStatusRdy
    sectorCount := if ch.state = .atapiDataIn then irIo ||| irCod else ch.sectorCount
    xferLen := 0
    xferPos := 0 }

/-- The DATA register of `ata_ide_read16`. -/
def ataReadData (ch : AtaIdeChannel) : AtaIdeChannel × UInt16 :=
  if ch.state.sends ∧ ch.xferPos + 1 < ch.xferLen then
    let word := (ch.xferBuf ch.xferPos).toUInt16 <<< 8 ||| (ch.xferBuf (ch.xferPos + 1)).toUInt16
    let taken := { ch with xferPos := ch.xferPos + 2 }
    (if taken.xferPos ≥ taken.xferLen then ataReadComplete taken else taken, word)
  else (ch, 0xFFFF)

def ataIdeRead16 (ch : AtaIdeChannel) (reg : UInt8) : AtaIdeChannel × UInt16 :=
  if reg ≠ 0 then (ch, (ataIdeRead8 ch reg).toUInt16) else ataReadData ch

def ataIdeWrite8 (ch : AtaIdeChannel) (answers : MediaAnswers) (reg value : UInt8) : AtaIdeChannel :=
  if reg = 1 then { ch with features := value }
  else if reg = 2 then { ch with sectorCount := value }
  else if reg = 3 then { ch with lbaLow := value }
  else if reg = 4 then { ch with lbaMid := value }
  else if reg = 5 then { ch with lbaHigh := value }
  else if reg = 6 then { ch with devHead := value }
  else if reg = 7 then executeCommand ch answers value
  else ch

/-- The last word of a WRITE has arrived: the buffer goes to the disk. -/
def ataWriteFlush (ch : AtaIdeChannel) (answers : MediaAnswers) : AtaIdeChannel :=
  { ch with
    diskWrites := ch.diskWrites ++ [⟨ch.diskWrLba, ch.diskWrCount, ch.xferBuf⟩]
    state := .idle
    xferLen := 0
    xferPos := 0
    status := ataStatusRdy ||| (if answers.writeRc ≠ 0 then ataStatusErr else 0)
    error := if answers.writeRc ≠ 0 then ataErrAbrt else 0 }

/-- A word for the disk. -/
def ataWriteSectorWord (ch : AtaIdeChannel) (answers : MediaAnswers) (hi lo : UInt8) : AtaIdeChannel :=
  if ch.xferPos + 1 < ch.xferLen then
    let taken := { ch with
      xferBuf := Function.update (Function.update ch.xferBuf ch.xferPos hi) (ch.xferPos + 1) lo
      xferPos := ch.xferPos + 2 }
    if taken.xferPos ≥ taken.xferLen then ataWriteFlush taken answers else taken
  else ch

/-- Two bytes of a packet, or the one that still fits. -/
def ataPacketTake (ch : AtaIdeChannel) (hi lo : UInt8) : AtaIdeChannel :=
  let ch := { ch with atapiPkt := Function.update ch.atapiPkt ch.atapiPktPos hi, atapiPktPos := ch.atapiPktPos + 1 }
  if ch.atapiPktPos < 12 then
    { ch with atapiPkt := Function.update ch.atapiPkt ch.atapiPktPos lo, atapiPktPos := ch.atapiPktPos + 1 }
  else ch

/-- The DATA register of `ata_ide_write16`. -/
def ataWriteData (ch : AtaIdeChannel) (answers : MediaAnswers) (value : UInt16) : AtaIdeChannel :=
  let lo := (value &&& 0xFF).toUInt8
  let hi := (value >>> 8).toUInt8
  if ch.state = .dataOut then ataWriteSectorWord ch answers hi lo
  else if ch.state = .atapiCmd ∧ ch.atapiPktPos < 12 then
    if (ataPacketTake ch hi lo).atapiPktPos ≥ 12 then executeAtapiPacket (ataPacketTake ch hi lo) answers
    else ataPacketTake ch hi lo
  else ch

def ataIdeWrite16 (ch : AtaIdeChannel) (answers : MediaAnswers) (reg : UInt8) (value : UInt16) : AtaIdeChannel :=
  if reg ≠ 0 then ataIdeWrite8 ch answers reg (value &&& 0xFF).toUInt8 else ataWriteData ch answers value

inductive AtaAccess where
  | read8 (reg : UInt8)
  | read16 (reg : UInt8)
  | write8 (reg value : UInt8)
  | write16 (reg : UInt8) (value : UInt16)
  deriving DecidableEq

/-- One access of the host, and what the callbacks answer during it. -/
def ataAccess (ch : AtaIdeChannel) (a : AtaAccess × MediaAnswers) : AtaIdeChannel :=
  match a.1 with
  | .read8 _ => ch
  | .read16 reg => (ataIdeRead16 ch reg).1
  | .write8 reg value => ataIdeWrite8 ch a.2 reg value
  | .write16 reg value => ataIdeWrite16 ch a.2 reg value

end Rigel
