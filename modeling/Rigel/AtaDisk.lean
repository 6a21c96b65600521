import Rigel.AtaIde

/-!
# AtaDisk — the disk behind the channel

`disk_read` and `disk_write` are given a range of sectors and a buffer. A disk that is an array of sectors answers every range
inside it with success, and moves just the bytes of the range. The hard disk file that the board attaches is such a disk. On
the bus the answers to the channel are those of its disk, and only the packet layer's are still inputs.
-/

namespace Rigel

/-! ## Callbacks -/

/-- `disk_read` and `disk_write`: the code that is returned, and the buffer or the context after the call. A read leaves no
trace in the context: both seek before they move anything. -/
structure DiskCallbacks (σ : Type*) where
  read : σ → UInt32 → UInt32 → (Nat → UInt8) → Int32 × (Nat → UInt8)
  write : σ → UInt32 → UInt32 → (Nat → UInt8) → Int32 × σ

/-- **A disk that is an array of sectors.** In a sound context every range inside the array is read and written, and the
callbacks succeed. -/
structure SectorDisk (σ : Type*) extends DiskCallbacks σ where
  sectors : UInt32
  Sound : σ → Prop
  /-- The bytes of the array, 512 to a sector. -/
  byte : σ → Nat → UInt8
  read_ok : ∀ {s : σ} {lba count : UInt32} (buf : Nat → UInt8), Sound s → lba.toNat + count.toNat ≤ sectors.toNat →
    (read s lba count buf).1 = 0 ∧
      ∀ i < 512 * count.toNat, (read s lba count buf).2 i = byte s (512 * lba.toNat + i)
  write_ok : ∀ {s : σ} {lba count : UInt32} (buf : Nat → UInt8), Sound s → lba.toNat + count.toNat ≤ sectors.toNat →
    (write s lba count buf).1 = 0 ∧ Sound (write s lba count buf).2 ∧
      ∀ i < 512 * sectors.toNat, byte (write s lba count buf).2 i =
        if 512 * lba.toNat ≤ i ∧ i < 512 * (lba.toNat + count.toNat) then buf (i - 512 * lba.toNat) else byte s i

/-! ## The hard disk file -/

/-- `media_file_t`, with the file that it holds open. -/
structure MediaFile where
  bytes : Nat → UInt8
  size : Nat
  sectors : UInt32
  present : Bool

/-- `media_open` of a file that can be opened. -/
def mediaOpen (bytes : Nat → UInt8) (size : Nat) (sectorSize : UInt32) : Option MediaFile :=
  if size = 0 then none
  else some { bytes := bytes, size := size, sectors := UInt32.ofNat (size / sectorSize.toNat), present := true }

/-- A short read is an error, and has filled a part of the buffer. -/
def mediaRead (m : MediaFile) (sectorSize lba count : UInt32) (buf : Nat → UInt8) : Int32 × (Nat → UInt8) :=
  if !m.present then (-1, buf)
  else
    let pos := lba.toNat * sectorSize.toNat
    let want := count.toNat * sectorSize.toNat
    let got := min want (m.size - pos)
    (if got ≠ want then -1 else 0, fun i => if i < got then m.bytes (pos + i) else buf i)

/-- The file after `fwrite`. What lies between its end and the place written is 0. -/
def MediaFile.store (m : MediaFile) (pos want : Nat) (buf : Nat → UInt8) : MediaFile :=
  if want = 0 then m
  else
    { m with
      bytes := fun i => if pos ≤ i ∧ i < pos + want then buf (i - pos) else if i < m.size then m.bytes i else 0
      size := max m.size (pos + want) }

def hdfRead (m : MediaFile) (lba count : UInt32) (buf : Nat → UInt8) : Int32 × (Nat → UInt8) := mediaRead m 512 lba count buf

/-- `hdf_write`, on a host whose file can be written. -/
def hdfWrite (m : MediaFile) (lba count : UInt32) (buf : Nat → UInt8) : Int32 × MediaFile :=
  if !m.present then (-1, m) else (0, m.store (lba.toNat * 512) (count.toNat * 512) buf)

/-- **The hard disk file is an array of sectors** while it is open and has them all. -/
def hdfDisk (sectors : UInt32) : SectorDisk MediaFile where
  read := hdfRead
  write := hdfWrite
  sectors := sectors
  Sound := fun m => m.present = true ∧ 512 * sectors.toNat ≤ m.size
  byte := MediaFile.bytes
  read_ok := by
    rintro m lba count buf ⟨hpresent, hsize⟩ hrange
    have hsector : (512 : UInt32).toNat = 512 := rfl
    have hgot : min (count.toNat * 512) (m.size - lba.toNat * 512) = count.toNat * 512 := by omega
    simp only [hdfRead, mediaRead, hpresent, Bool.not_true, Bool.false_eq_true, if_false, hsector, hgot, ne_eq,
      not_true_eq_false]
    refine ⟨trivial, fun i hi => ?_⟩
    rw [if_pos (by omega), Nat.mul_comm]
  write_ok := by
    rintro m lba count buf ⟨hpresent, hsize⟩ hrange
    have hwrite : hdfWrite m lba count buf = (0, m.store (lba.toNat * 512) (count.toNat * 512) buf) := by
      simp [hdfWrite, hpresent]
    rw [hwrite]
    unfold MediaFile.store
    by_cases hzero : count.toNat * 512 = 0
    · rw [if_pos hzero]
      exact ⟨rfl, ⟨hpresent, hsize⟩, fun i _ => (if_neg (by omega)).symm⟩
    · rw [if_neg hzero]
      refine ⟨rfl, ⟨hpresent, by simp only; omega⟩, fun i hi => ?_⟩
      have hinside : i < m.size := by omega
      simp only [hinside, if_true, Nat.mul_comm lba.toNat]
      exact if_congr (by omega) rfl rfl

/-- The channel knows the disk. -/
structure DiskAttached {σ : Type*} (disk : SectorDisk σ) (ch : AtaIdeChannel) : Prop where
  read : ch.diskRead = true
  write : ch.diskWrite = true
  sectors : ch.diskSectors = disk.sectors

/-- `lide_attach_hdf`. -/
def lideAttachHdf (ch : AtaIdeChannel) (bytes : Nat → UInt8) (size : Nat) : Option (AtaIdeChannel × MediaFile) :=
  (mediaOpen bytes size 512).map fun m =>
    (ataIdeChannelReset { ch with diskRead := true, diskWrite := true, diskSectors := m.sectors }, m)

/-- **An attached file is a disk of the channel**, and has all sectors that the channel counts. -/
theorem lideAttachHdf_attached {ch ch' : AtaIdeChannel} {bytes : Nat → UInt8} {size : Nat} {m : MediaFile}
    (h : lideAttachHdf ch bytes size = some (ch', m)) : DiskAttached (hdfDisk m.sectors) ch' ∧ (hdfDisk m.sectors).Sound m := by
  obtain ⟨m', hopen, heq⟩ := Option.map_eq_some_iff.mp h
  cases heq
  unfold mediaOpen at hopen
  split at hopen
  · cases hopen
  · cases hopen
    have hsector : (512 : UInt32).toNat = 512 := rfl
    have hcount : (UInt32.ofNat (size / 512)).toNat ≤ size / 512 := by
      rw [UInt32.toNat_ofNat']
      exact Nat.mod_le _ _
    refine ⟨⟨rfl, rfl, rfl⟩, rfl, ?_⟩
    simp only [hsector]
    omega

/-! ## The bus -/

/-- The channel, and the context of its disk. -/
structure AtaBus (σ : Type*) where
  ch : AtaIdeChannel
  ctx : σ

/-- A word in a buffer, the high byte first. -/
def storeWord (buf : Nat → UInt8) (pos : Nat) (value : UInt16) : Nat → UInt8 :=
  Function.update (Function.update buf pos (value >>> 8).toUInt8) (pos + 1) (value &&& 0xFF).toUInt8

/-- The word that an access writes to the data port. -/
def AtaAccess.word : AtaAccess → Option UInt16
  | .write16 reg value => if reg = 0 then some value else none
  | _ => none

/-- The access reads the data port. -/
def AtaAccess.takes : AtaAccess → Bool
  | .read16 reg => reg = 0
  | _ => false

/-- The buffer with the word that an access brings, as `disk_write` is given it. -/
def ataCollected (ch : AtaIdeChannel) (a : AtaAccess) : Nat → UInt8 :=
  match a.word with
  | some value => storeWord ch.xferBuf ch.xferPos value
  | none => ch.xferBuf

section
variable {σ : Type*}

/-- What the callbacks answer during an access: the disk by its context, the packet layer as given. -/
def ataAnswers (disk : DiskCallbacks σ) (b : AtaBus σ) (a : AtaAccess × MediaAnswers) : MediaAnswers :=
  { a.2 with
    readRc := (disk.read b.ctx (diskLba b.ch) (diskCount b.ch) b.ch.xferBuf).1
    readBuf := (disk.read b.ctx (diskLba b.ch) (diskCount b.ch) b.ch.xferBuf).2
    writeRc := (disk.write b.ctx b.ch.diskWrLba b.ch.diskWrCount (ataCollected b.ch a.1)).1 }

/-- One access of the host. The calls of `disk_write` that the channel has made change the disk. -/
def ataBusAccess (disk : DiskCallbacks σ) (b : AtaBus σ) (a : AtaAccess × MediaAnswers) : AtaBus σ :=
  let ch := ataAccess b.ch (a.1, ataAnswers disk b a)
  { ch := ch
    ctx := (ch.diskWrites.drop b.ch.diskWrites.length).foldl (fun s w => (disk.write s w.lba w.count w.buf).2) b.ctx }

def ataBusRun (disk : DiskCallbacks σ) (b : AtaBus σ) (as : List (AtaAccess × MediaAnswers)) : AtaBus σ :=
  as.foldl (ataBusAccess disk) b

end

end Rigel
