import Mathlib.Logic.Function.Iterate
import Mathlib.Order.Basic
import Rigel.Bits

/-!
# Hunk — the loader of hunk files

`harness/hunk.c`, as a machine that reads one longword of the file in each step. What a step does to the guest is a list of
byte writes, and what it reads of the file a list of offsets. All sums are of 32 bits, as they are in the source: an offset
or a size of the file is added before it is compared, and the sum may wrap.
-/

namespace Rigel

/-! ## The file -/

/-- A file: the bytes from its pointer on, of which the first `size` are its own. -/
structure HunkFile where
  data : Nat → UInt8
  size : UInt32

structure HunkReader where
  pos : UInt32
  overrun : Bool
  deriving DecidableEq

/-- A big-endian longword. -/
def beLong (b₀ b₁ b₂ b₃ : UInt8) : UInt32 :=
  (b₀.toUInt32 <<< 24) ||| (b₁.toUInt32 <<< 16) ||| (b₂.toUInt32 <<< 8) ||| b₃.toUInt32

def rd32 (f : HunkFile) (r : HunkReader) : UInt32 × HunkReader :=
  if r.pos + 4 > f.size then (0, { r with overrun := true })
  else
    (beLong (f.data r.pos.toNat) (f.data (r.pos + 1).toNat) (f.data (r.pos + 2).toNat) (f.data (r.pos + 3).toNat),
      { r with pos := r.pos + 4 })

/-- The offsets that `rd32` reads. -/
def rd32Reads (f : HunkFile) (r : HunkReader) : List Nat :=
  if r.pos + 4 > f.size then [] else [r.pos.toNat, (r.pos + 1).toNat, (r.pos + 2).toNat, (r.pos + 3).toNat]

/-! ## The guest -/

/-- The guest's memory by the two callbacks. -/
structure HunkGuest (σ : Type*) where
  write8 : σ → UInt32 → UInt8 → σ
  read8 : σ → UInt32 → UInt8

abbrev GuestWrite := UInt32 × UInt8

def put32 (addr v : UInt32) : List GuestWrite :=
  [(addr, (v >>> 24).toUInt8), (addr + 1, (v >>> 16).toUInt8), (addr + 2, (v >>> 8).toUInt8), (addr + 3, v.toUInt8)]

def get32 (mem : UInt32 → UInt8) (addr : UInt32) : UInt32 :=
  beLong (mem addr) (mem (addr + 1)) (mem (addr + 2)) (mem (addr + 3))

/-! ## The loader -/

/-- What a file is rejected for. -/
inductive HunkError where
  | noHeader
  | truncatedNames
  | truncatedHeader
  | badRange (first last : UInt32)
  | tooMany (count : UInt32)
  | noRoom (hunk : Nat) (bytes free cursor : UInt32)
  | truncatedSizes
  | truncatedHunk (block : UInt32)
  | tooLong (block bytes reserved : UInt32)
  | badTarget (target : UInt32)
  | truncatedRelocs
  | badReloc (off block : UInt32)
  deriving DecidableEq

structure HunkImage where
  entry : UInt32
  base : UInt32
  finish : UInt32
  hunkCount : UInt32
  deriving DecidableEq

/-- What the next longword of the file is for. -/
inductive HunkPhase where
  | magic
  | names
  | tableSize
  | firstHunk
  | lastHunk (first : UInt32)
  | segment (i : Nat)
  | seglist
  | block
  | code
  | bss
  | relocCount
  | relocTarget (n : UInt32)
  | relocOffset (n target : UInt32)
  | symbol
  | debug
  | done (result : Except HunkError HunkImage)
  deriving DecidableEq

structure HunkLoader where
  reader : HunkReader
  phase : HunkPhase
  count : UInt32
  segData : Nat → UInt32
  segSize : Nat → UInt32
  cursor : UInt32
  block : UInt32

/-- One step: what it leaves, which offsets of the file it read, and what it wrote to the guest. -/
structure HunkEffect where
  next : HunkLoader
  reads : List Nat
  writes : List GuestWrite

def HunkLoader.to (c : HunkLoader) (phase : HunkPhase) : HunkLoader := { c with phase := phase }

def HunkLoader.fail (c : HunkLoader) (e : HunkError) : HunkLoader := c.to (.done (.error e))

/-- The loader returns true. -/
def HunkLoader.loaded (c : HunkLoader) (load : UInt32) : HunkLoader :=
  c.to (.done (.ok ⟨c.segData 0, load, c.cursor, c.count⟩))

/-- The types of blocks, and the bits of flags beside them. -/
def hunkHeader : UInt32 := 0x3F3
def hunkCode : UInt32 := 0x3E9
def hunkData : UInt32 := 0x3EA
def hunkBss : UInt32 := 0x3EB
def hunkReloc32 : UInt32 := 0x3EC
def hunkSymbol : UInt32 := 0x3F0
def hunkDebug : UInt32 := 0x3F1
def hunkEnd : UInt32 := 0x3F2
def hunkTypeMask : UInt32 := 0x3FFFFFFF

def maxHunks : UInt32 := 64
def segHeader : UInt32 := 8

/-- `first` and `last` make the count, if there was room for the header in the file. -/
def hunkRange (c : HunkLoader) (first last : UInt32) : HunkLoader :=
  let count := last - first + 1
  if c.reader.overrun then c.fail .truncatedHeader
  else if last < first then c.fail (.badRange first last)
  else if count > maxHunks then c.fail (.tooMany count)
  else if 0 < count then { c with count := count, phase := .segment 0 }
  else { c with count := count, phase := .seglist }

/-- One segment is reserved: its size, a link to be filled in, and zeros. -/
def hunkReserve (limit : UInt32) (c : HunkLoader) (i : Nat) (longs : UInt32) : HunkLoader × List GuestWrite :=
  let bytes := (longs &&& hunkTypeMask) * 4
  if c.cursor + segHeader + bytes > limit then
    (c.fail (.noRoom i bytes (if limit > c.cursor then limit - c.cursor else 0) c.cursor), [])
  else
    let data := c.cursor + segHeader
    let c' : HunkLoader :=
      { c with
        segData := Function.update c.segData i data
        segSize := Function.update c.segSize i bytes
        cursor := (c.cursor + segHeader + bytes + 31) &&& ~~~31 }
    (if i + 1 < c.count.toNat then c'.to (.segment (i + 1))
      else if c.reader.overrun then c'.fail .truncatedSizes
      else c'.to .seglist,
      put32 c.cursor bytes ++ put32 (c.cursor + 4) 0 ++
        (List.range bytes.toNat).map fun b => (data + UInt32.ofNat b, 0))

/-- The links of the segment list. -/
def hunkLinks (c : HunkLoader) : List GuestWrite :=
  (List.range (c.count.toNat - 1)).flatMap fun i => put32 (c.segData i - 4) (c.segData (i + 1) - 4)

/-- What a block's type begins. An unknown one ends what is used of the file. -/
def hunkBlock (f : HunkFile) (load : UInt32) (c : HunkLoader) (word : UInt32) : HunkLoader :=
  let type := word &&& hunkTypeMask
  if c.reader.overrun then c.loaded load
  else if type = hunkCode ∨ type = hunkData then c.to .code
  else if type = hunkBss then c.to .bss
  else if type = hunkReloc32 then c.to .relocCount
  else if type = hunkEnd then { c with block := c.block + 1, phase := .block }
  else if type = hunkSymbol then c.to .symbol
  else if type = hunkDebug then c.to .debug
  else { c with reader := { c.reader with pos := f.size }, phase := .block }

/-- A CODE or DATA block is copied, if the file and the segment are long enough. -/
def hunkCopy (f : HunkFile) (c : HunkLoader) (longs : UInt32) : HunkEffect :=
  let bytes := longs * 4
  let b := c.block.toNat
  if c.reader.pos + bytes > f.size then ⟨c.fail (.truncatedHunk c.block), [], []⟩
  else if bytes > c.segSize b then ⟨c.fail (.tooLong c.block bytes (c.segSize b)), [], []⟩
  else
    ⟨{ c with reader := { c.reader with pos := c.reader.pos + bytes }, phase := .block },
      (List.range bytes.toNat).map fun k => (c.reader.pos + UInt32.ofNat k).toNat,
      (List.range bytes.toNat).map fun k =>
        (c.segData b + UInt32.ofNat k, f.data (c.reader.pos + UInt32.ofNat k).toNat)⟩

/-- One relocation: the longword at the offset gets the target's address added. -/
def hunkRelocate (mem : UInt32 → UInt8) (c : HunkLoader) (n target off : UInt32) : HunkLoader × List GuestWrite :=
  let b := c.block.toNat
  if c.reader.overrun then (c.fail .truncatedRelocs, [])
  else if off + 4 > c.segSize b then (c.fail (.badReloc off c.block), [])
  else
    (c.to (if n - 1 = 0 then .relocCount else .relocOffset (n - 1) target),
      put32 (c.segData b + off) (get32 mem (c.segData b + off) + c.segData target.toNat))

/-- The step that a longword makes, once it is read. -/
def hunkWord (f : HunkFile) (load limit : UInt32) (mem : UInt32 → UInt8) (c : HunkLoader) (v : UInt32) : HunkEffect :=
  match c.phase with
  | .magic => ⟨if v ≠ hunkHeader then c.fail .noHeader else c.to .names, [], []⟩
  | .names => ⟨if v ≠ 0 then (if c.reader.overrun then c.fail .truncatedNames else c) else c.to .tableSize, [], []⟩
  | .tableSize => ⟨c.to .firstHunk, [], []⟩
  | .firstHunk => ⟨c.to (.lastHunk v), [], []⟩
  | .lastHunk first => ⟨hunkRange c first v, [], []⟩
  | .segment i => ⟨(hunkReserve limit c i v).1, [], (hunkReserve limit c i v).2⟩
  | .block => ⟨hunkBlock f load c v, [], []⟩
  | .code => hunkCopy f c v
  | .bss => ⟨c.to .block, [], []⟩
  | .relocCount => ⟨if v = 0 ∨ c.reader.overrun then c.to .block else c.to (.relocTarget v), [], []⟩
  | .relocTarget n => ⟨if v ≥ c.count then c.fail (.badTarget v) else c.to (.relocOffset n v), [], []⟩
  | .relocOffset n target => ⟨(hunkRelocate mem c n target v).1, [], (hunkRelocate mem c n target v).2⟩
  | .symbol =>
    ⟨if v = 0 ∨ c.reader.overrun then c.to .block
      else { c with reader := { c.reader with pos := c.reader.pos + (v * 4 + 4) } }, [], []⟩
  | .debug => ⟨{ c with reader := { c.reader with pos := c.reader.pos + v * 4 }, phase := .block }, [], []⟩
  | .seglist | .done _ => ⟨c, [], []⟩

/-- The loader reads a longword in this step. -/
def HunkLoader.readsWord (f : HunkFile) (c : HunkLoader) : Bool :=
  match c.phase with
  | .seglist | .done _ => false
  | .block => c.reader.pos < f.size && c.block < c.count
  | _ => true

/-- **One step of `hunk_load`.** -/
def hunkStep (f : HunkFile) (load limit : UInt32) (mem : UInt32 → UInt8) (c : HunkLoader) : HunkEffect :=
  if c.readsWord f then
    let (v, r) := rd32 f c.reader
    let e := hunkWord f load limit mem { c with reader := r } v
    { e with reads := rd32Reads f c.reader ++ e.reads }
  else
    match c.phase with
    | .seglist => ⟨c.to .block, [], hunkLinks c⟩
    | .block => ⟨c.loaded load, [], []⟩
    | _ => ⟨c, [], []⟩

/-! ## Runs -/

/-- Before the first word of the file. -/
def hunkStart (load : UInt32) : HunkLoader where
  reader := ⟨0, false⟩
  phase := .magic
  count := 0
  segData := fun _ => 0
  segSize := fun _ => 0
  cursor := load
  block := 0

structure HunkMachine (σ : Type*) where
  loader : HunkLoader
  ctx : σ

section
variable {σ : Type*} (g : HunkGuest σ) (f : HunkFile) (load limit : UInt32)

/-- The writes of a step go to the guest in their order. -/
def HunkGuest.apply (ctx : σ) (writes : List GuestWrite) : σ := writes.foldl (fun ctx w => g.write8 ctx w.1 w.2) ctx

/-- What the machine's next step does. -/
def HunkMachine.effect (s : HunkMachine σ) : HunkEffect := hunkStep f load limit (g.read8 s.ctx) s.loader

def hunkMachineStep (s : HunkMachine σ) : HunkMachine σ :=
  ⟨(s.effect g f load limit).next, g.apply s.ctx (s.effect g f load limit).writes⟩

/-- The machine after `n` steps. -/
def hunkRun (ctx : σ) (n : Nat) : HunkMachine σ := (hunkMachineStep g f load limit)^[n] ⟨hunkStart load, ctx⟩

theorem hunkRun_succ (ctx : σ) (n : Nat) :
    hunkRun g f load limit ctx (n + 1) = hunkMachineStep g f load limit (hunkRun g f load limit ctx n) :=
  Function.iterate_succ_apply' _ _ _

/-- `hunk_load` returns after some steps, and with this. -/
def HunkReturns (ctx : σ) (result : Except HunkError HunkImage) : Prop :=
  ∃ n, (hunkRun g f load limit ctx n).loader.phase = .done result

/-- A loader that has returned stays as it is. -/
theorem hunkMachineStep_done {s : HunkMachine σ} {result : Except HunkError HunkImage} (h : s.loader.phase = .done result) :
    hunkMachineStep g f load limit s = s := by
  obtain ⟨⟨reader, phase, count, segData, segSize, cursor, block⟩, ctx⟩ := s
  cases h
  rfl

theorem hunkRun_done {ctx : σ} {n : Nat} {result : Except HunkError HunkImage}
    (h : (hunkRun g f load limit ctx n).loader.phase = .done result) {k : Nat} (hk : n ≤ k) :
    hunkRun g f load limit ctx k = hunkRun g f load limit ctx n := by
  induction k, hk using Nat.le_induction with
  | base => rfl
  | succ k _ ih => rw [hunkRun_succ, ih, hunkMachineStep_done g f load limit h]

end

/-! ## Files and memories of one's own -/

def beBytes (v : UInt32) : List UInt8 := [(v >>> 24).toUInt8, (v >>> 16).toUInt8, (v >>> 8).toUInt8, v.toUInt8]

/-- A file of these bytes, and zeros behind them. -/
def HunkFile.ofBytes (bytes : List UInt8) : HunkFile := ⟨fun i => bytes.getD i 0, UInt32.ofNat bytes.length⟩

/-- A file of these longwords. -/
def HunkFile.ofWords (words : List UInt32) : HunkFile := .ofBytes (words.flatMap beBytes)

/-- A memory that holds what is written to it. -/
def ramGuest : HunkGuest (UInt32 → UInt8) := ⟨Function.update, id⟩

end Rigel
