import Mathlib.Data.List.GetD
import Rigel.AtaDisk
import Rigel.AtaPhase
import Rigel.Bits

/-!
# AtaSectors — sectors written and read back

A WRITE SECTORS collects the words of its range, and gives the buffer to the disk with the last of them; a READ SECTORS gets
the buffer from the disk, and delivers it word by word. Each of them is a phase that the channel is in between its command and
its last word, whatever else the host does with the registers meanwhile, and both put the high byte of a word first.
-/

namespace Rigel

/-! ## What an access leaves alone -/

/-- The transfer of the channel is as it was. -/
structure SameAtaTransfer (ch ch' : AtaIdeChannel) : Prop where
  state : ch'.state = ch.state
  status : ch'.status = ch.status
  buf : ch'.xferBuf = ch.xferBuf
  len : ch'.xferLen = ch.xferLen
  pos : ch'.xferPos = ch.xferPos
  wrLba : ch'.diskWrLba = ch.diskWrLba
  wrCount : ch'.diskWrCount = ch.diskWrCount
  writes : ch'.diskWrites = ch.diskWrites

theorem SameAtaTransfer.refl (ch : AtaIdeChannel) : SameAtaTransfer ch ch := ⟨rfl, rfl, rfl, rfl, rfl, rfl, rfl, rfl⟩

/-- A register other than the command's. -/
theorem ataIdeWrite8_transfer (ch : AtaIdeChannel) (answers : MediaAnswers) {reg : UInt8} (h : reg ≠ 7) (value : UInt8) :
    SameAtaTransfer ch (ataIdeWrite8 ch answers reg value) := by
  unfold ataIdeWrite8
  rw [if_neg h]
  repeat' split
  all_goals exact ⟨rfl, rfl, rfl, rfl, rfl, rfl, rfl, rfl⟩

/-- **An access that neither commands nor moves a word** leaves the transfer as it is. Words to a channel that collects none
are not moved, and from one that sends none. -/
theorem ataAccess_transfer {ch : AtaIdeChannel} {a : AtaAccess} (answers : MediaAnswers) (hcommand : a.command = none)
    (hword : a.word ≠ none → ch.state ≠ .dataOut ∧ ch.state ≠ .atapiCmd)
    (htakes : a.takes = true → ch.state.sends = false) : SameAtaTransfer ch (ataAccess ch (a, answers)) := by
  cases a with
  | read8 reg => exact .refl ch
  | read16 reg =>
    by_cases hreg : reg = 0
    · have hsends := htakes (by simp [AtaAccess.takes, hreg])
      have hdeaf : ataReadData ch = (ch, 0xFFFF) := by simp [ataReadData, hsends]
      simp only [ataAccess, ataIdeRead16, hreg, ne_eq, not_true_eq_false, if_false, hdeaf]
      exact .refl ch
    · simp only [ataAccess, ataIdeRead16, hreg, ne_eq, not_false_eq_true, if_true]
      exact .refl ch
  | write8 reg value =>
    refine ataIdeWrite8_transfer ch answers (fun hreg => ?_) value
    simp [AtaAccess.command, hreg] at hcommand
  | write16 reg value =>
    by_cases hreg : reg = 0
    · obtain ⟨hout, hcmd⟩ := hword (by simp [AtaAccess.word, hreg])
      simp only [ataAccess, ataIdeWrite16, hreg, ne_eq, not_true_eq_false, if_false, ataWriteData, hout, hcmd, false_and]
      exact .refl ch
    · have hseven : reg ≠ 7 := by
        intro hreg
        simp [AtaAccess.command, hreg] at hcommand
      simp only [ataAccess, ataIdeWrite16, hreg, ne_eq, not_false_eq_true, if_true]
      exact ataIdeWrite8_transfer ch answers hseven _

theorem ataAccess_idle {ch : AtaIdeChannel} (hidle : ch.state = .idle) (answers : MediaAnswers) {a : AtaAccess}
    (hcommand : a.command = none) : SameAtaTransfer ch (ataAccess ch (a, answers)) := by
  have hdeaf : ch.state ≠ .dataOut ∧ ch.state ≠ .atapiCmd ∧ ch.state.sends = false := by
    rw [hidle]
    decide
  exact ataAccess_transfer answers hcommand (fun _ => ⟨hdeaf.1, hdeaf.2.1⟩) fun _ => hdeaf.2.2

/-- What the board registered, and the calls of `disk_write` so far. -/
structure SameMedia (ch ch' : AtaIdeChannel) : Prop where
  read : ch'.diskRead = ch.diskRead
  write : ch'.diskWrite = ch.diskWrite
  sectors : ch'.diskSectors = ch.diskSectors
  writes : ch'.diskWrites = ch.diskWrites

theorem executeCommand_media (ch : AtaIdeChannel) (answers : MediaAnswers) (cmd : UInt8) :
    SameMedia ch (executeCommand ch answers cmd) := by
  unfold executeCommand executeAtapiCommand executeDiskCommand executeDiskRead executeDiskWrite
  repeat' split
  all_goals exact ⟨rfl, rfl, rfl, rfl⟩

theorem ataIdeWrite8_media (ch : AtaIdeChannel) (answers : MediaAnswers) (reg value : UInt8) :
    SameMedia ch (ataIdeWrite8 ch answers reg value) := by
  unfold ataIdeWrite8
  repeat' split
  all_goals first
    | exact ⟨rfl, rfl, rfl, rfl⟩
    | exact executeCommand_media ch answers value

theorem ataReadData_media (ch : AtaIdeChannel) : SameMedia ch (ataReadData ch).1 := by
  unfold ataReadData ataReadComplete
  dsimp only
  repeat' split
  all_goals exact ⟨rfl, rfl, rfl, rfl⟩

/-- **Only the last word of a WRITE reaches the disk**, with the buffer that it completes. -/
theorem ataWriteData_writes (ch : AtaIdeChannel) (answers : MediaAnswers) (value : UInt16) :
    (ataWriteData ch answers value).diskWrites = ch.diskWrites ∨
      (ataWriteData ch answers value).diskWrites =
        ch.diskWrites ++ [⟨ch.diskWrLba, ch.diskWrCount, storeWord ch.xferBuf ch.xferPos value⟩] := by
  unfold ataWriteData ataWriteSectorWord ataPacketTake executeAtapiPacket
  dsimp only
  repeat' split
  all_goals first
    | exact .inl rfl
    | exact .inr rfl

theorem ataWriteData_attached {σ : Type*} {disk : SectorDisk σ} {ch : AtaIdeChannel} (h : DiskAttached disk ch)
    (answers : MediaAnswers) (value : UInt16) : DiskAttached disk (ataWriteData ch answers value) := by
  unfold ataWriteData ataWriteSectorWord ataPacketTake executeAtapiPacket
  dsimp only
  repeat' split
  all_goals exact ⟨h.read, h.write, h.sectors⟩

theorem SameMedia.attached {σ : Type*} {disk : SectorDisk σ} {ch ch' : AtaIdeChannel} (hs : SameMedia ch ch')
    (h : DiskAttached disk ch) : DiskAttached disk ch' :=
  ⟨hs.read.trans h.read, hs.write.trans h.write, hs.sectors.trans h.sectors⟩

/-- **The disk stays attached**, and an access calls `disk_write` once at most, as its answer supposes. -/
theorem ataAccess_media {σ : Type*} {disk : SectorDisk σ} {ch : AtaIdeChannel} (h : DiskAttached disk ch) (a : AtaAccess)
    (answers : MediaAnswers) : DiskAttached disk (ataAccess ch (a, answers)) ∧
      ((ataAccess ch (a, answers)).diskWrites = ch.diskWrites ∨
        (ataAccess ch (a, answers)).diskWrites = ch.diskWrites ++ [⟨ch.diskWrLba, ch.diskWrCount, ataCollected ch a⟩]) := by
  have hsame : ∀ {ch'}, SameMedia ch ch' → DiskAttached disk ch' ∧ (ch'.diskWrites = ch.diskWrites ∨
      ch'.diskWrites = ch.diskWrites ++ [⟨ch.diskWrLba, ch.diskWrCount, ataCollected ch a⟩]) :=
    fun hs => ⟨hs.attached h, .inl hs.writes⟩
  cases a with
  | read8 reg => exact hsame ⟨rfl, rfl, rfl, rfl⟩
  | read16 reg =>
    simp only [ataAccess, ataIdeRead16]
    split
    · exact hsame ⟨rfl, rfl, rfl, rfl⟩
    · exact hsame (ataReadData_media ch)
  | write8 reg value => exact hsame (ataIdeWrite8_media ch answers reg value)
  | write16 reg value =>
    simp only [ataAccess, ataIdeWrite16]
    split
    · exact hsame (ataIdeWrite8_media ch answers reg _)
    · rename_i hreg
      have hcollected : ataCollected ch (.write16 reg value) = storeWord ch.xferBuf ch.xferPos value := by
        simp [ataCollected, AtaAccess.word, not_not.mp hreg]
      rw [hcollected]
      exact ⟨ataWriteData_attached h answers value, ataWriteData_writes ch answers value⟩

section
variable {σ : Type*} {disk : SectorDisk σ}

theorem DiskAttached.access {b : AtaBus σ} (h : DiskAttached disk b.ch) (a : AtaAccess × MediaAnswers) :
    DiskAttached disk (ataBusAccess disk.toDiskCallbacks b a).ch := (ataAccess_media h a.1 _).1

/-- Without a call of `disk_write` the disk is as it was. -/
theorem ataBusAccess_ctx {disk : DiskCallbacks σ} {b : AtaBus σ} {a : AtaAccess × MediaAnswers}
    (h : (ataBusAccess disk b a).ch.diskWrites = b.ch.diskWrites) : (ataBusAccess disk b a).ctx = b.ctx := by
  have hnone : (ataBusAccess disk b a).ch.diskWrites.drop b.ch.diskWrites.length = [] := by
    rw [h, List.drop_length]
  exact congrArg (List.foldl _ b.ctx) hnone

/-- The disk after the call that the last word makes. -/
theorem ataBusAccess_flush {b : AtaBus σ} {a : AtaAccess × MediaAnswers} {w : DiskWrite}
    (h : (ataBusAccess disk.toDiskCallbacks b a).ch.diskWrites = b.ch.diskWrites ++ [w]) :
    (ataBusAccess disk.toDiskCallbacks b a).ctx = (disk.write b.ctx w.lba w.count w.buf).2 := by
  have hone : (ataBusAccess disk.toDiskCallbacks b a).ch.diskWrites.drop b.ch.diskWrites.length = [w] := by
    rw [h, List.drop_left]
  exact congrArg (List.foldl _ b.ctx) hone

end

/-! ## Words and bytes -/

/-- The bytes of some words, the high one first. -/
def wordByte (words : List UInt16) (i : Nat) : UInt8 :=
  if i % 2 = 0 then (words.getD (i / 2) 0 >>> 8).toUInt8 else (words.getD (i / 2) 0 &&& 0xFF).toUInt8

/-- The word in two places of a buffer. -/
def wordAt (buf : Nat → UInt8) (k : Nat) : UInt16 := (buf (2 * k)).toUInt16 <<< 8 ||| (buf (2 * k + 1)).toUInt16

/-- A word is put together from its bytes. -/
theorem word_bytes (w : UInt16) : (w >>> 8).toUInt8.toUInt16 <<< 8 ||| (w &&& 0xFF).toUInt8.toUInt16 = w := by
  refine uint16_ext fun i hi => ?_
  simp only [UInt16.toNat_or, Nat.testBit_lor, uint16_testBit_shiftLeft _ (show (8 : UInt16).toNat = 8 from rfl) (by decide) hi,
    UInt8.toNat_toUInt16, UInt16.toNat_toUInt8, UInt16.toNat_and, Nat.testBit_mod_two_pow, Nat.testBit_land,
    uint16_testBit_shiftRight _ (show (8 : UInt16).toNat = 8 from rfl) (by decide)]
  by_cases hlow : i < 8
  · have hmask : (255 : Nat).testBit i = true := by
      rw [show (255 : Nat) = 2 ^ 8 - 1 from rfl, Nat.testBit_two_pow_sub_one]
      exact decide_eq_true hlow
    simp [hlow, Nat.not_le.mpr hlow, hmask]
  · have hplace : 8 + (i - 8) = i := by omega
    simp [hlow, Nat.not_lt.mp hlow, hplace, show i - 8 < 8 by omega]

theorem wordAt_wordByte {buf : Nat → UInt8} {words : List UInt16} {k : Nat} (hk : k < words.length)
    (h : ∀ i < 2 * words.length, buf i = wordByte words i) : wordAt buf k = words[k] := by
  have hget : words.getD k 0 = words[k] := by rw [List.getD_eq_getElem _ _ hk]
  have hhigh : 2 * k % 2 = 0 ∧ 2 * k / 2 = k := by omega
  have hlow : ¬ (2 * k + 1) % 2 = 0 ∧ (2 * k + 1) / 2 = k := by omega
  unfold wordAt
  rw [h _ (by omega), h _ (by omega), wordByte, wordByte, if_pos hhigh.1, if_neg hlow.1, hhigh.2, hlow.2, hget, word_bytes]

/-- **One more word** behind those in the buffer. -/
theorem storeWord_wordByte {buf : Nat → UInt8} {words : List UInt16} (h : ∀ i < 2 * words.length, buf i = wordByte words i)
    (value : UInt16) : ∀ i < 2 * (words ++ [value]).length,
      storeWord buf (2 * words.length) value i = wordByte (words ++ [value]) i := by
  intro i hi
  rw [List.length_append, List.length_singleton] at hi
  have hlast : (words ++ [value]).getD words.length 0 = value := by simp
  unfold storeWord wordByte
  by_cases hbefore : i < 2 * words.length
  · have hinit : (words ++ [value]).getD (i / 2) 0 = words.getD (i / 2) 0 := List.getD_append _ _ _ _ (by omega)
    rw [Function.update_of_ne (by omega), Function.update_of_ne (by omega), hinit]
    exact h i hbefore
  by_cases hhigh : i = 2 * words.length
  · subst hhigh
    have hplace : 2 * words.length % 2 = 0 ∧ 2 * words.length / 2 = words.length := by omega
    rw [Function.update_of_ne (by omega), Function.update_self, if_pos hplace.1, hplace.2, hlast]
  · have hlow : i = 2 * words.length + 1 := by omega
    subst hlow
    have hplace : ¬ (2 * words.length + 1) % 2 = 0 ∧ (2 * words.length + 1) / 2 = words.length := by omega
    rw [Function.update_self, if_neg hplace.1, hplace.2, hlast]

/-! ## WRITE -/

theorem AtaAccess.eq_of_word {a : AtaAccess} {value : UInt16} (h : a.word = some value) : a = .write16 0 value := by
  cases a with
  | write16 reg v =>
    by_cases hreg : reg = 0
    · simp only [AtaAccess.word, hreg, if_true, Option.some.injEq] at h
      rw [hreg, h]
    · simp [AtaAccess.word, hreg] at h
  | _ => simp [AtaAccess.word] at h

theorem ataWriteData_more {ch : AtaIdeChannel} (hstate : ch.state = .dataOut) (hmore : ch.xferPos + 2 < ch.xferLen)
    (answers : MediaAnswers) (value : UInt16) : ataWriteData ch answers value =
      { ch with xferBuf := storeWord ch.xferBuf ch.xferPos value, xferPos := ch.xferPos + 2 } := by
  unfold ataWriteData ataWriteSectorWord
  dsimp only
  rw [if_pos hstate, if_pos (by omega), if_neg (by omega)]
  rfl

theorem ataWriteData_last {ch : AtaIdeChannel} (hstate : ch.state = .dataOut) (hlast : ch.xferPos + 2 = ch.xferLen)
    (answers : MediaAnswers) (value : UInt16) : ataWriteData ch answers value =
      ataWriteFlush { ch with xferBuf := storeWord ch.xferBuf ch.xferPos value, xferPos := ch.xferPos + 2 } answers := by
  unfold ataWriteData ataWriteSectorWord
  dsimp only
  rw [if_pos hstate, if_pos (by omega), if_pos (by omega)]
  rfl

theorem ataReadData_more {ch : AtaIdeChannel} (hsends : ch.state.sends = true) (hmore : ch.xferPos + 2 < ch.xferLen) :
    ataReadData ch = ({ ch with xferPos := ch.xferPos + 2 },
      (ch.xferBuf ch.xferPos).toUInt16 <<< 8 ||| (ch.xferBuf (ch.xferPos + 1)).toUInt16) := by
  unfold ataReadData
  dsimp only
  rw [if_pos ⟨hsends, by omega⟩, if_neg (by omega)]

theorem ataReadData_last {ch : AtaIdeChannel} (hsends : ch.state.sends = true) (hlast : ch.xferPos + 2 = ch.xferLen) :
    ataReadData ch = (ataReadComplete { ch with xferPos := ch.xferPos + 2 },
      (ch.xferBuf ch.xferPos).toUInt16 <<< 8 ||| (ch.xferBuf (ch.xferPos + 1)).toUInt16) := by
  unfold ataReadData
  dsimp only
  rw [if_pos ⟨hsends, by omega⟩, if_pos (by omega)]

section
variable {σ : Type*} (disk : SectorDisk σ) (lba count : UInt32) (ctx : σ)

/-- A WRITE has got some words and waits for more. The disk is as it was. -/
structure Collecting (words : List UInt16) (b : AtaBus σ) : Prop where
  state : b.ch.state = .dataOut
  status : b.ch.status = ataStatusRdy ||| ataStatusDrq
  len : b.ch.xferLen = 512 * count.toNat
  pos : b.ch.xferPos = 2 * words.length
  buf : ∀ i < 2 * words.length, b.ch.xferBuf i = wordByte words i
  wrLba : b.ch.diskWrLba = lba
  wrCount : b.ch.diskWrCount = count
  ctx : b.ctx = ctx

/-- The words stand in the sectors of the range and the channel is idle. The other sectors are as they were. -/
structure Flushed (words : List UInt16) (b : AtaBus σ) : Prop where
  state : b.ch.state = .idle
  status : b.ch.status = ataStatusRdy
  sound : disk.Sound b.ctx
  bytes : ∀ i < 512 * disk.sectors.toNat, disk.byte b.ctx i =
    if 512 * lba.toNat ≤ i ∧ i < 512 * (lba.toNat + count.toNat) then wordByte words (i - 512 * lba.toNat)
    else disk.byte ctx i

/-- **The phase of a WRITE** that has been given `words`. Those behind the range are not heard. -/
def WritePhase (words : List UInt16) (b : AtaBus σ) : Prop :=
  if words.length < 256 * count.toNat then Collecting lba count ctx words b
  else Flushed disk lba count ctx (words.take (256 * count.toNat)) b

variable {disk lba count ctx} {words : List UInt16} {b : AtaBus σ}

theorem Collecting.same {b' : AtaBus σ} (h : Collecting lba count ctx words b) (hs : SameAtaTransfer b.ch b'.ch)
    (hctx : b'.ctx = b.ctx) : Collecting lba count ctx words b' where
  state := hs.state.trans h.state
  status := hs.status.trans h.status
  len := hs.len.trans h.len
  pos := hs.pos.trans h.pos
  buf := by
    rw [hs.buf]
    exact h.buf
  wrLba := hs.wrLba.trans h.wrLba
  wrCount := hs.wrCount.trans h.wrCount
  ctx := hctx.trans h.ctx

theorem Flushed.same {b' : AtaBus σ} (h : Flushed disk lba count ctx words b) (hs : SameAtaTransfer b.ch b'.ch)
    (hctx : b'.ctx = b.ctx) : Flushed disk lba count ctx words b' where
  state := hs.state.trans h.state
  status := hs.status.trans h.status
  sound := by
    rw [hctx]
    exact h.sound
  bytes := by
    rw [hctx]
    exact h.bytes

/-- **A word of a WRITE**, and the flush after the last. -/
theorem Collecting.word (hsound : disk.Sound ctx) (hrange : lba.toNat + count.toNat ≤ disk.sectors.toNat)
    (h : Collecting lba count ctx words b) (hmore : words.length < 256 * count.toNat) (value : UInt16) (answers : MediaAnswers) :
    WritePhase disk lba count ctx (words ++ [value]) (ataBusAccess disk.toDiskCallbacks b (.write16 0 value, answers)) := by
  have hlen := h.len
  have hpos := h.pos
  have hbuf : ∀ i < 2 * (words ++ [value]).length, storeWord b.ch.xferBuf b.ch.xferPos value i = wordByte (words ++ [value]) i := by
    rw [h.pos]
    exact storeWord_wordByte h.buf value
  have hlength : (words ++ [value]).length = words.length + 1 := by simp
  unfold WritePhase
  by_cases hlast : words.length + 1 < 256 * count.toNat
  · have hch : (ataBusAccess disk.toDiskCallbacks b (.write16 0 value, answers)).ch = _ :=
      ataWriteData_more h.state (by omega) _ value
    have hctx : (ataBusAccess disk.toDiskCallbacks b (.write16 0 value, answers)).ctx = b.ctx := ataBusAccess_ctx (by rw [hch])
    rw [hlength, if_pos hlast]
    exact ⟨by rw [hch]; exact h.state, by rw [hch]; exact h.status, by rw [hch]; exact h.len,
      by rw [hch, hlength]; simp only; omega, by rw [hch]; exact hbuf, by rw [hch]; exact h.wrLba,
      by rw [hch]; exact h.wrCount, hctx.trans h.ctx⟩
  · have hch : (ataBusAccess disk.toDiskCallbacks b (.write16 0 value, answers)).ch = _ :=
      ataWriteData_last h.state (by omega) _ value
    have hctx := ataBusAccess_flush (congrArg AtaIdeChannel.diskWrites hch)
    obtain ⟨hrc, hsound', hbytes⟩ := disk.write_ok (storeWord b.ch.xferBuf b.ch.xferPos value) hsound hrange
    simp only [h.wrLba, h.wrCount, h.ctx] at hctx
    have hall : (words ++ [value]).length = 256 * count.toNat := by omega
    rw [hlength, if_neg hlast, List.take_of_length_le (Nat.le_of_eq hall)]
    refine ⟨by rw [hch]; rfl, ?_, by rw [hctx]; exact hsound', fun i hi => ?_⟩
    · rw [hch]
      simp only [ataWriteFlush, ataAnswers, ataCollected, AtaAccess.word, if_true, h.wrLba, h.wrCount, h.ctx, hrc, ne_eq,
        not_true_eq_false, if_false]
      rfl
    · rw [hctx, hbytes i hi]
      by_cases hinside : 512 * lba.toNat ≤ i ∧ i < 512 * (lba.toNat + count.toNat)
      · rw [if_pos hinside, if_pos hinside]
        exact hbuf _ (by omega)
      · rw [if_neg hinside, if_neg hinside]

/-- **Every access of a WRITE**, but a command. -/
theorem WritePhase.access (hsound : disk.Sound ctx) (hrange : lba.toNat + count.toNat ≤ disk.sectors.toNat)
    (h : WritePhase disk lba count ctx words b) {a : AtaAccess × MediaAnswers} (hcommand : a.1.command = none) :
    WritePhase disk lba count ctx (words ++ a.1.word.toList) (ataBusAccess disk.toDiskCallbacks b a) := by
  by_cases hmore : words.length < 256 * count.toNat
  · rw [WritePhase, if_pos hmore] at h
    cases hword : a.1.word with
    | some value =>
      have ha : a = (.write16 0 value, a.2) := by rw [← AtaAccess.eq_of_word hword]
      rw [ha]
      exact h.word hsound hrange hmore value a.2
    | none =>
      have hsends : b.ch.state.sends = false := by rw [h.state]; rfl
      have hs : SameAtaTransfer b.ch (ataBusAccess disk.toDiskCallbacks b a).ch :=
        ataAccess_transfer _ hcommand (fun hsome => absurd hword hsome) fun _ => hsends
      rw [Option.toList_none, List.append_nil, WritePhase, if_pos hmore]
      exact h.same hs (ataBusAccess_ctx hs.writes)
  · rw [WritePhase, if_neg hmore] at h
    have hs : SameAtaTransfer b.ch (ataBusAccess disk.toDiskCallbacks b a).ch := ataAccess_idle h.state _ hcommand
    rw [WritePhase, if_neg (by rw [List.length_append]; omega), List.take_append_of_le_length (Nat.le_of_not_lt hmore)]
    exact h.same hs (ataBusAccess_ctx hs.writes)

/-! ## READ -/

variable (disk lba count ctx) in
/-- A READ has delivered `k` words and has more. -/
structure Delivering (k : Nat) (b : AtaBus σ) : Prop where
  state : b.ch.state = .dataIn
  status : b.ch.status = ataStatusRdy ||| ataStatusDrq
  len : b.ch.xferLen = 512 * count.toNat
  pos : b.ch.xferPos = 2 * k
  buf : ∀ i < 512 * count.toNat, b.ch.xferBuf i = disk.byte ctx (512 * lba.toNat + i)
  ctx : b.ctx = ctx

variable (ctx) in
/-- It has delivered all of them. -/
structure Delivered (b : AtaBus σ) : Prop where
  state : b.ch.state = .idle
  status : b.ch.status = ataStatusRdy
  ctx : b.ctx = ctx

variable (disk lba count ctx) in
/-- **The phase of a READ** whose words have been asked for `k` times. -/
def ReadPhase (k : Nat) (b : AtaBus σ) : Prop :=
  if k < 256 * count.toNat then Delivering disk lba count ctx k b else Delivered ctx b

variable (disk lba count ctx) in
/-- The word that is delivered after `k` others: one of the range, and then the floating bus. -/
def sectorWord (k : Nat) : UInt16 :=
  if k < 256 * count.toNat then wordAt (fun i => disk.byte ctx (512 * lba.toNat + i)) k else 0xFFFF

variable {k : Nat}

theorem Delivering.same {b' : AtaBus σ} (h : Delivering disk lba count ctx k b) (hs : SameAtaTransfer b.ch b'.ch)
    (hctx : b'.ctx = b.ctx) : Delivering disk lba count ctx k b' where
  state := hs.state.trans h.state
  status := hs.status.trans h.status
  len := hs.len.trans h.len
  pos := hs.pos.trans h.pos
  buf := by
    rw [hs.buf]
    exact h.buf
  ctx := hctx.trans h.ctx

theorem Delivered.same {b' : AtaBus σ} (h : Delivered ctx b) (hs : SameAtaTransfer b.ch b'.ch) (hctx : b'.ctx = b.ctx) :
    Delivered ctx b' := ⟨hs.state.trans h.state, hs.status.trans h.status, hctx.trans h.ctx⟩

/-- A word of a READ, and the channel after it. -/
theorem Delivering.read (h : Delivering disk lba count ctx k b) (hmore : k < 256 * count.toNat) :
    ataIdeRead16 b.ch 0 =
      (if k + 1 < 256 * count.toNat then { b.ch with xferPos := b.ch.xferPos + 2 }
        else ataReadComplete { b.ch with xferPos := b.ch.xferPos + 2 }, sectorWord disk lba count ctx k) := by
  have hlen := h.len
  have hpos := h.pos
  have hsends : b.ch.state.sends = true := by rw [h.state]; rfl
  have hread : ataIdeRead16 b.ch 0 = ataReadData b.ch := rfl
  have hword : (b.ch.xferBuf b.ch.xferPos).toUInt16 <<< 8 ||| (b.ch.xferBuf (b.ch.xferPos + 1)).toUInt16 =
      sectorWord disk lba count ctx k := by
    rw [sectorWord, if_pos hmore, hpos, h.buf _ (by omega), h.buf _ (by omega)]
    rfl
  rw [hread, ← hword]
  by_cases hlast : k + 1 < 256 * count.toNat
  · rw [if_pos hlast]
    exact ataReadData_more hsends (by omega)
  · rw [if_neg hlast]
    exact ataReadData_last hsends (by omega)

/-- **Every access of a READ**, but a command, and the word that it takes. -/
theorem ReadPhase.access (h : ReadPhase disk lba count ctx k b) {a : AtaAccess × MediaAnswers} (hcommand : a.1.command = none) :
    ReadPhase disk lba count ctx (if a.1.takes then k + 1 else k) (ataBusAccess disk.toDiskCallbacks b a) ∧
      (a.1.takes = true → (ataIdeRead16 b.ch 0).2 = sectorWord disk lba count ctx k) := by
  by_cases hmore : k < 256 * count.toNat
  · rw [ReadPhase, if_pos hmore] at h
    cases htakes : a.1.takes with
    | true =>
      have hread := h.read hmore
      refine ⟨?_, fun _ => by rw [hread]⟩
      have hch : (ataBusAccess disk.toDiskCallbacks b a).ch = (ataIdeRead16 b.ch 0).1 := by
        obtain ⟨a, answers⟩ := a
        cases a with
        | read16 reg =>
          have hreg : reg = 0 := by simpa [AtaAccess.takes] using htakes
          subst hreg
          rfl
        | _ => simp [AtaAccess.takes] at htakes
      have hwrites : (ataBusAccess disk.toDiskCallbacks b a).ch.diskWrites = b.ch.diskWrites := by
        rw [hch, hread]
        dsimp only
        split <;> rfl
      have hctx := (ataBusAccess_ctx hwrites).trans h.ctx
      rw [if_pos rfl, ReadPhase]
      by_cases hlast : k + 1 < 256 * count.toNat
      · rw [if_pos hlast]
        rw [hread, if_pos hlast] at hch
        exact ⟨by rw [hch]; exact h.state, by rw [hch]; exact h.status, by rw [hch]; exact h.len,
          by rw [hch, Nat.mul_add, ← h.pos], by rw [hch]; exact h.buf, hctx⟩
      · rw [if_neg hlast]
        rw [hread, if_neg hlast] at hch
        exact ⟨by rw [hch]; rfl, by rw [hch]; rfl, hctx⟩
    | false =>
      have hs : SameAtaTransfer b.ch (ataBusAccess disk.toDiskCallbacks b a).ch :=
        ataAccess_transfer _ hcommand (fun _ => by rw [h.state]; decide) fun htrue => by simp [htrue] at htakes
      rw [if_neg (by decide), ReadPhase, if_pos hmore]
      exact ⟨h.same hs (ataBusAccess_ctx hs.writes), fun htrue => absurd htrue (by decide)⟩
  · rw [ReadPhase, if_neg hmore] at h
    have hs : SameAtaTransfer b.ch (ataBusAccess disk.toDiskCallbacks b a).ch := ataAccess_idle h.state _ hcommand
    have hover : ¬ (if a.1.takes then k + 1 else k) < 256 * count.toNat := by
      split <;> omega
    rw [ReadPhase, if_neg hover]
    refine ⟨h.same hs (ataBusAccess_ctx hs.writes), fun _ => ?_⟩
    rw [(idle_deaf h.state).1, sectorWord, if_neg hmore]

end

/-! ## Runs without commands -/

def NoCommand (as : List (AtaAccess × MediaAnswers)) : Prop := ∀ a ∈ as, a.1.command = none

/-- The words that a run writes to the data port. -/
def dataWords (as : List (AtaAccess × MediaAnswers)) : List UInt16 := as.filterMap fun a => a.1.word

/-- The times that a run reads the data port. -/
def dataReads (as : List (AtaAccess × MediaAnswers)) : Nat := as.countP fun a => a.1.takes

section
variable {σ : Type*}

/-- The words that a run reads there. -/
def wordsRead (disk : DiskCallbacks σ) (b : AtaBus σ) (as : List (AtaAccess × MediaAnswers)) : List UInt16 :=
  collectAlong (ataBusAccess disk) (fun b a => if a.1.takes then some (ataIdeRead16 b.ch 0).2 else none) b as

variable {disk : SectorDisk σ} {lba count : UInt32} {ctx : σ}

/-- **A WRITE after any run of accesses.** -/
theorem WritePhase.run (hsound : disk.Sound ctx) (hrange : lba.toNat + count.toNat ≤ disk.sectors.toNat) :
    ∀ {as : List (AtaAccess × MediaAnswers)} {words : List UInt16} {b : AtaBus σ}, WritePhase disk lba count ctx words b →
      NoCommand as → WritePhase disk lba count ctx (words ++ dataWords as) (ataBusRun disk.toDiskCallbacks b as)
  | [], words, b, h, _ => by
    rw [dataWords, List.filterMap_nil, List.append_nil]
    exact h
  | a :: as, words, b, h, hquiet => by
    obtain ⟨hcommand, hrest⟩ := List.forall_mem_cons.mp hquiet
    have hstep := (h.access hsound hrange hcommand).run hsound hrange hrest
    have hwords : dataWords (a :: as) = a.1.word.toList ++ dataWords as := by
      unfold dataWords
      rw [List.filterMap_cons]
      cases a.1.word <;> rfl
    rw [hwords, ← List.append_assoc]
    exact hstep

/-- **A READ after any run of accesses**, and the words that the run has taken. -/
theorem ReadPhase.run : ∀ {as : List (AtaAccess × MediaAnswers)} {k : Nat} {b : AtaBus σ},
    ReadPhase disk lba count ctx k b → NoCommand as →
      ReadPhase disk lba count ctx (k + dataReads as) (ataBusRun disk.toDiskCallbacks b as) ∧
        wordsRead disk.toDiskCallbacks b as = (List.range' k (dataReads as)).map (sectorWord disk lba count ctx)
  | [], _, _, h, _ => ⟨h, rfl⟩
  | a :: as, k, b, h, hquiet => by
    obtain ⟨hcommand, hrest⟩ := List.forall_mem_cons.mp hquiet
    obtain ⟨hnext, hword⟩ := h.access hcommand
    obtain ⟨hphase, hwords⟩ := hnext.run hrest
    have hcollect : wordsRead disk.toDiskCallbacks b (a :: as) =
        (if a.1.takes then some (ataIdeRead16 b.ch 0).2 else none).toList ++
          wordsRead disk.toDiskCallbacks (ataBusAccess disk.toDiskCallbacks b a) as := rfl
    rw [hcollect, hwords]
    unfold dataReads at hphase ⊢
    rw [List.countP_cons]
    cases htakes : a.1.takes with
    | true =>
      simp only [htakes, if_true] at hphase hword ⊢
      rw [hword trivial, List.range'_succ, Nat.add_comm _ 1, ← Nat.add_assoc]
      exact ⟨hphase, rfl⟩
    | false =>
      simp only [htakes, Bool.false_eq_true, if_false] at hphase ⊢
      exact ⟨hphase, rfl⟩

theorem DiskAttached.run : ∀ {as : List (AtaAccess × MediaAnswers)} {b : AtaBus σ}, DiskAttached disk b.ch →
    DiskAttached disk (ataBusRun disk.toDiskCallbacks b as).ch
  | [], _, h => h
  | a :: _, _, h => (h.access a).run

end

end Rigel
