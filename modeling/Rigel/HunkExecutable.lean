import Mathlib.Data.UInt
import Rigel.Hunk
import Rigel.MfmTrack

/-!
# HunkExecutable — what a hunk file says

An executable as a list of hunks, the longwords of its file, and the memory that it asks for: where its segments lie, and what
is in them once all relocations are made, in the order of the file.
-/

namespace Rigel

/-! ## Executables -/

/-- A longword for the type of a block. Its two highest bits are flags. -/
structure BlockType (type : UInt32) where
  word : UInt32
  masked : word &&& hunkTypeMask = type

/-- What a hunk holds. -/
inductive HunkBody where
  | code (type : BlockType hunkCode) (longs : List UInt32)
  | data (type : BlockType hunkData) (longs : List UInt32)
  | bss (type : BlockType hunkBss) (longs : UInt32)

/-- The offsets to which the address of one hunk is added. -/
structure RelocList where
  target : UInt32
  offsets : List UInt32
  nonempty : offsets ≠ []

/-- A name of some longwords, and its value. -/
structure HunkName where
  name : List UInt32
  value : UInt32
  nonempty : name ≠ []

/-- What may follow the body of a hunk. -/
inductive HunkBlock where
  | reloc32 (type : BlockType hunkReloc32) (lists : List RelocList)
  | symbol (type : BlockType hunkSymbol) (names : List HunkName)
  | debug (type : BlockType hunkDebug) (longs : List UInt32)

/-- The bytes that a hunk's size in the header asks for. Its two highest bits are flags as well. -/
def hunkBytes (size : UInt32) : Nat := (size &&& hunkTypeMask).toNat * 4

/-- The bytes of the file. -/
def HunkBody.bytes : HunkBody → List UInt8
  | .code _ longs | .data _ longs => longs.flatMap beBytes
  | .bss _ _ => []

/-- The size that the body itself states. -/
def HunkBody.size : HunkBody → Nat
  | .code _ longs | .data _ longs => longs.length * 4
  | .bss _ longs => longs.toNat * 4

def HunkBlock.lists : HunkBlock → List RelocList
  | .reloc32 _ lists => lists
  | _ => []

/-- **A hunk**: its size in the header, a body that is not larger, and blocks whose relocations are within it. -/
structure Hunk where
  size : UInt32
  body : HunkBody
  blocks : List HunkBlock
  close : BlockType hunkEnd
  fits : body.size ≤ hunkBytes size
  inside : ∀ block ∈ blocks, ∀ list ∈ block.lists, ∀ off ∈ list.offsets, off.toNat + 4 ≤ hunkBytes size

/-- **An executable**: one to 64 hunks, numbered from `first` on, whose relocations are by hunks that there are. -/
structure HunkExecutable where
  names : List UInt32
  tableSize : UInt32
  first : UInt32
  hunks : List Hunk
  named : ∀ w ∈ names, w ≠ 0
  nonempty : hunks ≠ []
  few : hunks.length ≤ 64
  numbered : first.toNat + hunks.length ≤ 2 ^ 32
  targets : ∀ hunk ∈ hunks, ∀ block ∈ hunk.blocks, ∀ list ∈ block.lists, list.target.toNat < hunks.length

/-! ## The file -/

def HunkBody.words : HunkBody → List UInt32
  | .code type longs => type.word :: UInt32.ofNat longs.length :: longs
  | .data type longs => type.word :: UInt32.ofNat longs.length :: longs
  | .bss type longs => [type.word, longs]

def RelocList.words (list : RelocList) : List UInt32 := UInt32.ofNat list.offsets.length :: list.target :: list.offsets

def HunkName.words (name : HunkName) : List UInt32 := UInt32.ofNat name.name.length :: (name.name ++ [name.value])

def HunkBlock.words : HunkBlock → List UInt32
  | .reloc32 type lists => type.word :: (lists.flatMap RelocList.words ++ [0])
  | .symbol type names => type.word :: (names.flatMap HunkName.words ++ [0])
  | .debug type longs => type.word :: UInt32.ofNat longs.length :: longs

def Hunk.words (hunk : Hunk) : List UInt32 := hunk.body.words ++ (hunk.blocks.flatMap HunkBlock.words ++ [hunk.close.word])

/-- The longwords of an executable's file. -/
def HunkExecutable.words (e : HunkExecutable) : List UInt32 :=
  hunkHeader :: (e.names ++ (0 :: e.tableSize :: e.first :: (e.first + UInt32.ofNat (e.hunks.length - 1)) ::
    (e.hunks.map Hunk.size ++ e.hunks.flatMap Hunk.words)))

/-! ## The memory -/

/-- Where the next segment begins: behind the header and the data of one, at a multiple of 32. -/
def segmentEnd (start size : Nat) : Nat := (start + 8 + size + 31) / 32 * 32

/-- The bytes of a hunk's segment, and where the segment begins: the size, the link and then the data. -/
def HunkExecutable.size (e : HunkExecutable) (i : Nat) : Nat := ((e.hunks[i]?).map fun hunk => hunkBytes hunk.size).getD 0

def HunkExecutable.start (e : HunkExecutable) (load : UInt32) : Nat → Nat
  | 0 => load.toNat
  | i + 1 => segmentEnd (e.start load i) (e.size i)

def HunkExecutable.dataAddr (e : HunkExecutable) (load : UInt32) (i : Nat) : UInt32 := UInt32.ofNat (e.start load i + 8)

/-- All segments are below the limit. -/
def HunkExecutable.Fits (e : HunkExecutable) (load limit : UInt32) : Prop :=
  ∀ i < e.hunks.length, e.start load i + 8 + e.size i ≤ limit.toNat

/-- Bytes of which some are others from an offset on. -/
def painted (bytes : Nat → UInt8) (off n : Nat) (v : Nat → UInt8) (k : Nat) : UInt8 :=
  if off ≤ k ∧ k < off + n then v (k - off) else bytes k

def longAt (bytes : Nat → UInt8) (off : Nat) : UInt32 :=
  beLong (bytes off) (bytes (off + 1)) (bytes (off + 2)) (bytes (off + 3))

/-- The bytes of a longword by their number. -/
def longByte (v : UInt32) (k : Nat) : UInt8 := (beBytes v).getD k 0

/-- One relocation: the longword at the offset is increased by the address. -/
def relocated (bytes : Nat → UInt8) (off : Nat) (addr : UInt32) : Nat → UInt8 :=
  painted bytes off 4 (longByte (longAt bytes off + addr))

/-- The bytes of the file, and zeros behind them. -/
def HunkBody.padded (body : HunkBody) (k : Nat) : UInt8 := body.bytes.getD k 0

def RelocList.image (addr : Nat → UInt32) (bytes : Nat → UInt8) (list : RelocList) : Nat → UInt8 :=
  list.offsets.foldl (fun bytes off => relocated bytes off.toNat (addr list.target.toNat)) bytes

def HunkBlock.image (addr : Nat → UInt32) (bytes : Nat → UInt8) (block : HunkBlock) : Nat → UInt8 :=
  block.lists.foldl (RelocList.image addr) bytes

/-- **The data of a hunk's segment**: its body, padded, and every relocation made once, in the order of the file. -/
def Hunk.image (hunk : Hunk) (addr : Nat → UInt32) : Nat → UInt8 := hunk.blocks.foldl (HunkBlock.image addr) hunk.body.padded

/-- The link of a segment is the address of the next one's. -/
def HunkExecutable.link (e : HunkExecutable) (load : UInt32) (i : Nat) : UInt32 :=
  if i + 1 < e.hunks.length then UInt32.ofNat (e.start load (i + 1) + 4) else 0

/-- **A memory in which an executable is loaded.** -/
structure HunkExecutable.LoadedIn (e : HunkExecutable) (load : UInt32) (mem : UInt32 → UInt8) : Prop where
  size : ∀ i < e.hunks.length, get32 mem (UInt32.ofNat (e.start load i)) = UInt32.ofNat (e.size i)
  link : ∀ i < e.hunks.length, get32 mem (UInt32.ofNat (e.start load i + 4)) = e.link load i
  data : ∀ i (h : i < e.hunks.length), ∀ k < e.size i,
    mem (e.dataAddr load i + UInt32.ofNat k) = e.hunks[i].image (e.dataAddr load) k

/-! ## Layout -/

theorem le_segmentEnd (start size : Nat) : start + 8 + size ≤ segmentEnd start size := by
  unfold segmentEnd
  omega

/-- **The segments do not overlap**, and they are in their order. -/
theorem HunkExecutable.start_apart (e : HunkExecutable) (load : UInt32) {i j : Nat} (h : i < j) :
    e.start load i + 8 + e.size i ≤ e.start load j := by
  induction j, h using Nat.le_induction with
  | base => exact le_segmentEnd _ _
  | succ j _ ih =>
    have hnext := le_segmentEnd (e.start load j) (e.size j)
    have hstep : e.start load (j + 1) = segmentEnd (e.start load j) (e.size j) := rfl
    omega

theorem HunkExecutable.le_start (e : HunkExecutable) (load : UInt32) (i : Nat) : load.toNat ≤ e.start load i := by
  rcases Nat.eq_zero_or_pos i with rfl | hpos
  · exact Nat.le_refl _
  · have hapart := e.start_apart load hpos
    have hzero : e.start load 0 = load.toNat := rfl
    omega

/-! ## Bytes -/

theorem longAt_longByte (v : UInt32) : beLong (longByte v 0) (longByte v 1) (longByte v 2) (longByte v 3) = v := be32_read v

theorem beBytes_beLong (b₀ b₁ b₂ b₃ : UInt8) : beBytes (beLong b₀ b₁ b₂ b₃) = [b₀, b₁, b₂, b₃] := be32_ofBytes b₀ b₁ b₂ b₃

theorem beBytes_length (longs : List UInt32) : (longs.flatMap beBytes).length = longs.length * 4 := by
  rw [Nat.mul_comm]
  exact be32_bytes_length longs

theorem painted_in {bytes v : Nat → UInt8} {off n k : Nat} (h : k < n) : painted bytes off n v (off + k) = v k := by
  unfold painted
  rw [if_pos (by omega), Nat.add_sub_cancel_left]

theorem painted_out {bytes v : Nat → UInt8} {off n k : Nat} (h : k < off ∨ off + n ≤ k) : painted bytes off n v k = bytes k := by
  unfold painted
  rw [if_neg (by omega)]

theorem foldl_same {α β : Type*} {f : (Nat → α) → β → Nat → α} {k : Nat} {xs : List β}
    (h : ∀ x ∈ xs, ∀ bytes, f bytes x k = bytes k) (bytes : Nat → α) : xs.foldl f bytes k = bytes k := by
  induction xs generalizing bytes with
  | nil => rfl
  | cons x xs ih =>
    rw [List.foldl_cons, ih fun y hy => h y (List.mem_cons_of_mem x hy)]
    exact h x List.mem_cons_self bytes

/-- **Only what is relocated changes**: a byte that no relocation covers is the one of the file. -/
theorem Hunk.image_out {hunk : Hunk} {k : Nat} (h : ∀ block ∈ hunk.blocks, ∀ list ∈ block.lists, ∀ off ∈ list.offsets,
    k < off.toNat ∨ off.toNat + 4 ≤ k) (addr : Nat → UInt32) : hunk.image addr k = hunk.body.padded k :=
  foldl_same (fun block hblock => foldl_same fun list hlist => foldl_same fun off hoff _ =>
    painted_out (h block hblock list hlist off hoff)) _

theorem longAt_relocated (bytes : Nat → UInt8) (off : Nat) (addr : UInt32) :
    longAt (relocated bytes off addr) off = longAt bytes off + addr := by
  have hin : ∀ k < 4, relocated bytes off addr (off + k) = longByte (longAt bytes off + addr) k := fun k hk => painted_in hk
  have h0 := hin 0 (by decide)
  rw [Nat.add_zero] at h0
  rw [longAt, h0, hin 1 (by decide), hin 2 (by decide), hin 3 (by decide), longAt_longByte]

theorem longAt_relocated_apart {bytes : Nat → UInt8} {off off' : Nat} (h : off' + 4 ≤ off ∨ off + 4 ≤ off') (addr : UInt32) :
    longAt (relocated bytes off addr) off' = longAt bytes off' := by
  have hout : ∀ k < 4, relocated bytes off addr (off' + k) = bytes (off' + k) := fun k hk => painted_out (by omega)
  have h0 := hout 0 (by decide)
  rw [Nat.add_zero] at h0
  rw [longAt, h0, hout 1 (by decide), hout 2 (by decide), hout 3 (by decide), longAt]

/-- The relocations of a hunk: offsets and targets, in the order of the file. -/
def Hunk.entries (hunk : Hunk) : List (UInt32 × UInt32) :=
  hunk.blocks.flatMap fun block => block.lists.flatMap fun list => list.offsets.map fun off => (off, list.target)

theorem Hunk.image_entries (hunk : Hunk) (addr : Nat → UInt32) : hunk.image addr =
    hunk.entries.foldl (fun bytes r => relocated bytes r.1.toNat (addr r.2.toNat)) hunk.body.padded := by
  unfold Hunk.image Hunk.entries
  simp only [List.foldl_flatMap, List.foldl_map]
  rfl

/-- **A longword is increased once for each of its relocations**, if no other relocation covers a part of it. -/
theorem Hunk.image_longAt {hunk : Hunk} {off : Nat} (h : ∀ r ∈ hunk.entries, r.1.toNat = off ∨ r.1.toNat + 4 ≤ off ∨
    off + 4 ≤ r.1.toNat) (addr : Nat → UInt32) : longAt (hunk.image addr) off =
      longAt hunk.body.padded off + ((hunk.entries.filter fun r => r.1.toNat = off).map fun r => addr r.2.toNat).sum := by
  rw [hunk.image_entries addr]
  generalize hunk.body.padded = bytes
  generalize hunk.entries = entries at h
  induction entries generalizing bytes with
  | nil => exact (UInt32.add_zero _).symm
  | cons r entries ih =>
    rw [List.foldl_cons, ih _ fun r' hr' => h r' (List.mem_cons_of_mem r hr')]
    by_cases hhit : r.1.toNat = off
    · rw [List.filter_cons_of_pos (by simpa using hhit), List.map_cons, List.sum_cons, hhit, longAt_relocated,
        UInt32.add_assoc]
    · rw [List.filter_cons_of_neg (by simpa using hhit)]
      have hapart : off + 4 ≤ r.1.toNat ∨ r.1.toNat + 4 ≤ off := by
        rcases h r List.mem_cons_self with heq | hlow | hhigh
        · exact absurd heq hhit
        · exact Or.inr hlow
        · exact Or.inl hhigh
      rw [longAt_relocated_apart hapart]

end Rigel
