import Rigel.AtaSectors

/-!
# AtaRoundTrip — a range written and read back

The four registers of the task file hold the 28 bits of an LBA, and a count of 0 asks for 256 sectors. A WRITE SECTORS and a
READ SECTORS of one range then agree on the bytes of the disk that they move: what the first is given the second returns, and
the other sectors are as they were.
-/

namespace Rigel

/-! ## Commands -/

/-- The sectors that the count register asks for. -/
def sectorsOf (count : UInt8) : UInt32 := if count ≠ 0 then count.toUInt32 else 256

/-- The registers that name a range on device 0: the count, the low bytes of the LBA, and its top nibble beside the bits of
the mode. -/
def taskFile (lba : UInt32) (count mode : UInt8) : List AtaAccess :=
  [.write8 2 count, .write8 3 lba.toUInt8, .write8 4 (lba >>> 8).toUInt8, .write8 5 (lba >>> 16).toUInt8,
    .write8 6 ((mode &&& (0xE0 : UInt8)) ||| ((lba >>> 24).toUInt8 &&& (0x0F : UInt8)))]

/-- A command for a range. The packet layer has no part in it, whatever it would answer. -/
def sectorCommand (lba : UInt32) (count mode cmd : UInt8) (answers : MediaAnswers) : List (AtaAccess × MediaAnswers) :=
  (taskFile lba count mode ++ [AtaAccess.write8 7 cmd]).map fun a => (a, answers)

/-- The channel once the range has been named. -/
def addressed (ch : AtaIdeChannel) (lba : UInt32) (count mode : UInt8) : AtaIdeChannel :=
  { ch with
    sectorCount := count
    lbaLow := lba.toUInt8
    lbaMid := (lba >>> 8).toUInt8
    lbaHigh := (lba >>> 16).toUInt8
    devHead := (mode &&& (0xE0 : UInt8)) ||| ((lba >>> 24).toUInt8 &&& (0x0F : UInt8)) }

theorem addressed_master (ch : AtaIdeChannel) (lba : UInt32) (count mode : UInt8) :
    ataSelectedSlave (addressed ch lba count mode) = false := by
  have hmode : mode &&& (0xE0 : UInt8) &&& (0x10 : UInt8) = 0 := by rw [UInt8.and_assoc]; exact UInt8.and_zero
  have hlba : (lba >>> 24).toUInt8 &&& (0x0F : UInt8) &&& (0x10 : UInt8) = 0 := by rw [UInt8.and_assoc]; exact UInt8.and_zero
  simp only [ataSelectedSlave, addressed, ataDevSlaveBit, uint8_or_and_distrib, hmode, hlba]
  rfl

/-- **The four registers hold the LBA.** -/
theorem diskLba_addressed (ch : AtaIdeChannel) {lba : UInt32} (h : lba < 0x10000000) (count mode : UInt8) :
    diskLba (addressed ch lba count mode) = lba := by
  have hmode : mode &&& (0xE0 : UInt8) &&& (0x0F : UInt8) = 0 := by rw [UInt8.and_assoc]; exact UInt8.and_zero
  have htop : (lba >>> 24).toUInt8 &&& (0x0F : UInt8) &&& (0x0F : UInt8) = (lba >>> 24).toUInt8 := by
    have hlt : lba.toNat < 2 ^ 28 := UInt32.lt_iff_toNat_lt.mp h
    have hshift : (lba >>> 24).toUInt8.toNat = lba.toNat / 2 ^ 24 % 256 := by
      rw [UInt32.toNat_toUInt8, UInt32.toNat_shiftRight]
      exact congrArg (· % 256) (Nat.shiftRight_eq_div_pow _ 24)
    have hmask : ∀ x : UInt8, (x &&& 0x0F).toNat = x.toNat % 16 := fun x => Nat.and_two_pow_sub_one_eq_mod _ 4
    refine UInt8.toNat_inj.mp ?_
    rw [hmask, hmask, hshift]
    omega
  unfold diskLba addressed
  simp only [uint8_or_and_distrib, hmode, htop, UInt8.zero_or]
  exact be32_read lba

theorem sectorsOf_range (count : UInt8) : 1 ≤ (sectorsOf count).toNat ∧ (sectorsOf count).toNat ≤ 256 :=
  diskCount_range (addressed (ataIdeChannelInit fun _ => 0) 0 count 0)

section
variable {σ : Type*} {disk : SectorDisk σ} {b : AtaBus σ} {lba : UInt32} {count : UInt8}

theorem ataBusAccess_register {reg : UInt8} (h : reg ≠ 7) (ch : AtaIdeChannel) (ctx : σ) (value : UInt8)
    (answers : MediaAnswers) : ataBusAccess disk.toDiskCallbacks ⟨ch, ctx⟩ (.write8 reg value, answers) =
      ⟨ataIdeWrite8 ch answers reg value, ctx⟩ := by
  have hanswers : ∀ answers', ataIdeWrite8 ch answers' reg value = ataIdeWrite8 ch answers reg value := by
    intro answers'
    unfold ataIdeWrite8
    rw [if_neg h, if_neg h]
  have hch : (ataBusAccess disk.toDiskCallbacks ⟨ch, ctx⟩ (.write8 reg value, answers)).ch =
      ataIdeWrite8 ch answers reg value := hanswers _
  have hctx : (ataBusAccess disk.toDiskCallbacks ⟨ch, ctx⟩ (.write8 reg value, answers)).ctx = ctx :=
    ataBusAccess_ctx (by rw [hch]; exact (ataIdeWrite8_transfer ch answers h value).writes)
  exact congrArg₂ AtaBus.mk hch hctx

theorem sectorCommand_run (b : AtaBus σ) (lba : UInt32) (count mode cmd : UInt8) (answers : MediaAnswers) :
    ataBusRun disk.toDiskCallbacks b (sectorCommand lba count mode cmd answers) =
      ataBusAccess disk.toDiskCallbacks ⟨addressed b.ch lba count mode, b.ctx⟩ (.write8 7 cmd, answers) := by
  obtain ⟨ch, ctx⟩ := b
  unfold sectorCommand taskFile ataBusRun
  simp only [List.map_append, List.map_cons, List.map_nil, List.foldl_append, List.foldl_cons, List.foldl_nil]
  rw [ataBusAccess_register (show (2 : UInt8) ≠ 7 by decide), ataBusAccess_register (show (3 : UInt8) ≠ 7 by decide),
    ataBusAccess_register (show (4 : UInt8) ≠ 7 by decide), ataBusAccess_register (show (5 : UInt8) ≠ 7 by decide),
    ataBusAccess_register (show (6 : UInt8) ≠ 7 by decide)]
  rfl

section
variable (hattached : DiskAttached disk b.ch) (hlba : lba < 0x10000000)
  (hrange : lba.toNat + (sectorsOf count).toNat ≤ disk.sectors.toNat) (mode : UInt8) (answers : MediaAnswers)
include hattached hlba hrange

theorem addressed_inRange : diskOutOfRange (addressed b.ch lba count mode) = false := by
  have hcount := sectorsOf_range count
  have hsectors : disk.sectors.toNat < 2 ^ 32 := disk.sectors.toNat_lt
  have hend : (lba + sectorsOf count).toNat = lba.toNat + (sectorsOf count).toNat := by
    rw [UInt32.toNat_add]
    exact Nat.mod_eq_of_lt (Nat.lt_of_le_of_lt hrange hsectors)
  have hsize : ataSectorSize.toNat = 512 := rfl
  have hbytes : (sectorsOf count * ataSectorSize).toNat = (sectorsOf count).toNat * 512 := by
    rw [UInt32.toNat_mul, hsize]
    exact Nat.mod_eq_of_lt (by omega)
  have hbuffer : ataXferBufSize.toUInt32.toNat = 524288 := by decide
  have hdisk : (addressed b.ch lba count mode).diskSectors = disk.sectors := hattached.sectors
  have hdiskCount : diskCount (addressed b.ch lba count mode) = sectorsOf count := rfl
  simp only [diskOutOfRange, diskLba_addressed b.ch hlba, hdiskCount, hdisk, Bool.or_eq_false_iff, decide_eq_false_iff_not,
    gt_iff_lt, UInt32.lt_iff_toNat_lt, hend, hbytes, hbuffer]
  omega

omit hlba hrange in
theorem executeCommand_addressed (cmd : UInt8) : executeCommand (addressed b.ch lba count mode) answers cmd =
    executeDiskCommand (addressed b.ch lba count mode) answers cmd := by
  have hpresent : ataDiskPresent (addressed b.ch lba count mode) = true := hattached.read
  unfold executeCommand
  rw [addressed_master, hpresent]
  rfl

/-- **WRITE SECTORS** begins to collect. -/
theorem writeSectors_phase : WritePhase disk lba (sectorsOf count) b.ctx []
    (ataBusRun disk.toDiskCallbacks b (sectorCommand lba count mode ataCmdWriteSectors answers)) := by
  have hcount := sectorsOf_range count
  have hwrite : (addressed b.ch lba count mode).diskWrite = true := hattached.write
  have hexecute : ∀ answers', executeCommand (addressed b.ch lba count mode) answers' ataCmdWriteSectors =
      { addressed b.ch lba count mode with
        diskWrLba := lba
        diskWrCount := sectorsOf count
        xferLen := (sectorsOf count).toNat * 512
        xferPos := 0
        state := .dataOut
        status := ataStatusRdy ||| ataStatusDrq
        error := 0 } := by
    intro answers'
    have hdisk : executeDiskCommand (addressed b.ch lba count mode) answers' ataCmdWriteSectors =
        executeDiskWrite (addressed b.ch lba count mode) := rfl
    rw [executeCommand_addressed hattached, hdisk]
    unfold executeDiskWrite
    rw [addressed_inRange hattached hlba hrange mode, diskLba_addressed b.ch hlba, if_neg (by decide),
      if_neg (by simp [hwrite])]
    rfl
  rw [sectorCommand_run]
  have hch : (ataBusAccess disk.toDiskCallbacks ⟨addressed b.ch lba count mode, b.ctx⟩
      (.write8 7 ataCmdWriteSectors, answers)).ch = _ := hexecute _
  rw [WritePhase, if_pos (by rw [List.length_nil]; omega)]
  exact ⟨by rw [hch], by rw [hch], by rw [hch, Nat.mul_comm], by rw [hch]; rfl, fun i hi => absurd hi (Nat.not_lt_zero i),
    by rw [hch], by rw [hch], ataBusAccess_ctx (by rw [hch])⟩

/-- **READ SECTORS** begins to deliver. -/
theorem readSectors_phase (hsound : disk.Sound b.ctx) : ReadPhase disk lba (sectorsOf count) b.ctx 0
    (ataBusRun disk.toDiskCallbacks b (sectorCommand lba count mode ataCmdReadSectors answers)) := by
  have hcount := sectorsOf_range count
  obtain ⟨hrc, hbytes⟩ := disk.read_ok b.ch.xferBuf hsound hrange
  have hexecute : ∀ answers' : MediaAnswers, answers'.readRc = 0 →
      executeCommand (addressed b.ch lba count mode) answers' ataCmdReadSectors =
        { addressed b.ch lba count mode with
          xferBuf := answers'.readBuf
          xferLen := (sectorsOf count).toNat * 512
          xferPos := 0
          state := .dataIn
          status := ataStatusRdy ||| ataStatusDrq
          error := 0 } := by
    intro answers' hanswer
    have hdisk : executeDiskCommand (addressed b.ch lba count mode) answers' ataCmdReadSectors =
        executeDiskRead (addressed b.ch lba count mode) answers' := rfl
    rw [executeCommand_addressed hattached, hdisk]
    unfold executeDiskRead
    rw [addressed_inRange hattached hlba hrange mode, if_neg (by decide), if_neg (not_not.mpr hanswer)]
    rfl
  have hanswers : ataAnswers disk.toDiskCallbacks ⟨addressed b.ch lba count mode, b.ctx⟩ (.write8 7 ataCmdReadSectors, answers) =
      { answers with
        readRc := (disk.read b.ctx lba (sectorsOf count) b.ch.xferBuf).1
        readBuf := (disk.read b.ctx lba (sectorsOf count) b.ch.xferBuf).2
        writeRc := (disk.write b.ctx b.ch.diskWrLba b.ch.diskWrCount b.ch.xferBuf).1 } := by
    unfold ataAnswers
    simp only [diskLba_addressed b.ch hlba]
    rfl
  rw [sectorCommand_run]
  have hch : (ataBusAccess disk.toDiskCallbacks ⟨addressed b.ch lba count mode, b.ctx⟩
      (.write8 7 ataCmdReadSectors, answers)).ch = _ := hexecute _ (by rw [hanswers]; exact hrc)
  rw [ReadPhase, if_pos (by omega)]
  refine ⟨by rw [hch], by rw [hch], by rw [hch, Nat.mul_comm], by rw [hch], fun i hi => ?_, ataBusAccess_ctx (by rw [hch])⟩
  rw [hch, hanswers]
  exact hbytes i hi

end

/-! ## There and back -/

/-- The status register asks for a word. -/
def dataRequested (ch : AtaIdeChannel) : Prop := ataIdeRead8 ch 7 &&& ataStatusDrq ≠ 0

/-- **A run moves just `n` words.** They are asked for until as many have been moved, and then the channel is idle. -/
def MovesJust (disk : DiskCallbacks σ) (b : AtaBus σ) (as : List (AtaAccess × MediaAnswers))
    (moved : List (AtaAccess × MediaAnswers) → Nat) (n : Nat) : Prop :=
  ∀ pre, pre <+: as → (dataRequested (ataBusRun disk b pre).ch ↔ moved pre < n) ∧
    ((ataBusRun disk b pre).ch.state = .idle ↔ n ≤ moved pre)

theorem NoCommand.before {as pre : List (AtaAccess × MediaAnswers)} (h : NoCommand as) (hpre : pre <+: as) : NoCommand pre :=
  fun a ha => h a (hpre.subset ha)

theorem dataRequested_of_drq {ch : AtaIdeChannel} (h : ch.status = ataStatusRdy ||| ataStatusDrq) : dataRequested ch := by
  have hstatus : ataIdeRead8 ch 7 = ch.status := rfl
  rw [dataRequested, hstatus, h]
  decide

theorem not_dataRequested {ch : AtaIdeChannel} (h : ch.status = ataStatusRdy) : ¬ dataRequested ch := by
  have hstatus : ataIdeRead8 ch 7 = ch.status := rfl
  rw [dataRequested, hstatus, h]
  decide

/-- A channel that is between its command and its last word, or past both. -/
theorem moves_iff {ch : AtaIdeChannel} {k n : Nat}
    (hmore : k < n → ch.status = ataStatusRdy ||| ataStatusDrq ∧ ch.state ≠ .idle)
    (hdone : ¬ k < n → ch.status = ataStatusRdy ∧ ch.state = .idle) :
    (dataRequested ch ↔ k < n) ∧ (ch.state = .idle ↔ n ≤ k) := by
  by_cases h : k < n
  · obtain ⟨hstatus, hbusy⟩ := hmore h
    exact ⟨iff_of_true (dataRequested_of_drq hstatus) h, iff_of_false hbusy (Nat.not_le.mpr h)⟩
  · obtain ⟨hstatus, hidle⟩ := hdone h
    exact ⟨iff_of_false (not_dataRequested hstatus) h, iff_of_true hidle (Nat.le_of_not_lt h)⟩

/-- A WRITE asks for its words. -/
theorem WritePhase.movesJust {count : UInt32} {ctx : σ} (hsound : disk.Sound ctx)
    (hrange : lba.toNat + count.toNat ≤ disk.sectors.toNat) (h : WritePhase disk lba count ctx [] b)
    {as : List (AtaAccess × MediaAnswers)} (hquiet : NoCommand as) :
    MovesJust disk.toDiskCallbacks b as (fun pre => (dataWords pre).length) (256 * count.toNat) := by
  intro pre hpre
  have hphase := h.run hsound hrange (hquiet.before hpre)
  rw [List.nil_append, WritePhase] at hphase
  refine moves_iff (fun hmore => ?_) fun hdone => ?_
  · rw [if_pos hmore] at hphase
    exact ⟨hphase.status, by rw [hphase.state]; decide⟩
  · rw [if_neg hdone] at hphase
    exact ⟨hphase.status, hphase.state⟩

theorem ReadPhase.movesJust {count : UInt32} {ctx : σ} (h : ReadPhase disk lba count ctx 0 b)
    {as : List (AtaAccess × MediaAnswers)} (hquiet : NoCommand as) :
    MovesJust disk.toDiskCallbacks b as dataReads (256 * count.toNat) := by
  intro pre hpre
  have hphase := (h.run (hquiet.before hpre)).1
  rw [Nat.zero_add, ReadPhase] at hphase
  refine moves_iff (fun hmore => ?_) fun hdone => ?_
  · rw [if_pos hmore] at hphase
    exact ⟨hphase.status, by rw [hphase.state]; decide⟩
  · rw [if_neg hdone] at hphase
    exact ⟨hphase.status, hphase.state⟩

/-- **The words of a range are those that have been flushed to it.** -/
theorem Flushed.sectorWords {count : UInt32} {ctx : σ} {words : List UInt16}
    (hrange : lba.toNat + count.toNat ≤ disk.sectors.toNat) (h : Flushed disk lba count ctx words b)
    (hlength : words.length = 256 * count.toNat) :
    (List.range' 0 (256 * count.toNat)).map (sectorWord disk lba count b.ctx) = words := by
  have hbytes : ∀ i < 2 * words.length, disk.byte b.ctx (512 * lba.toNat + i) = wordByte words i := by
    intro i hi
    rw [h.bytes _ (by omega), if_pos (by omega), Nat.add_sub_cancel_left]
  refine List.ext_getElem (by simp [hlength]) fun k hk hk' => ?_
  rw [List.getElem_map, List.getElem_range', sectorWord, if_pos (by omega), Nat.zero_add, Nat.one_mul]
  exact wordAt_wordByte hk' hbytes

/-- **Sectors are read back as they were written.** A WRITE SECTORS with the words of its range, and then a READ SECTORS of
the same range: the words are returned in order, each command asks for just as many and is idle after them, and the other
sectors are as they were. Between its commands the host may do with the registers what it likes. -/
theorem ataSectors_roundTrip (hattached : DiskAttached disk b.ch) (hsound : disk.Sound b.ctx) (hlba : lba < 0x10000000)
    (hrange : lba.toNat + (sectorsOf count).toNat ≤ disk.sectors.toNat) (mode mode' : UInt8) (answers answers' : MediaAnswers)
    {ws rs : List (AtaAccess × MediaAnswers)} (hws : NoCommand ws) (hrs : NoCommand rs)
    (hwords : (dataWords ws).length = 256 * (sectorsOf count).toNat) (hreads : dataReads rs = 256 * (sectorsOf count).toNat) :
    let b₁ := ataBusRun disk.toDiskCallbacks b (sectorCommand lba count mode ataCmdWriteSectors answers)
    let b₂ := ataBusRun disk.toDiskCallbacks b₁ ws
    let b₃ := ataBusRun disk.toDiskCallbacks b₂ (sectorCommand lba count mode' ataCmdReadSectors answers')
    wordsRead disk.toDiskCallbacks b₃ rs = dataWords ws ∧
      MovesJust disk.toDiskCallbacks b₁ ws (fun pre => (dataWords pre).length) (256 * (sectorsOf count).toNat) ∧
      MovesJust disk.toDiskCallbacks b₃ rs dataReads (256 * (sectorsOf count).toNat) ∧
      ∀ sector < disk.sectors.toNat, ¬ (lba.toNat ≤ sector ∧ sector < lba.toNat + (sectorsOf count).toNat) →
        ∀ i < 512, disk.byte (ataBusRun disk.toDiskCallbacks b₃ rs).ctx (512 * sector + i) =
          disk.byte b.ctx (512 * sector + i) := by
  intro b₁ b₂ b₃
  have hwrite : WritePhase disk lba (sectorsOf count) b.ctx [] b₁ := writeSectors_phase hattached hlba hrange mode answers
  have hflushed : Flushed disk lba (sectorsOf count) b.ctx (dataWords ws) b₂ := by
    have hphase : WritePhase disk lba (sectorsOf count) b.ctx (dataWords ws) b₂ := hwrite.run hsound hrange hws
    rw [WritePhase, if_neg (Nat.not_lt.mpr (Nat.le_of_eq hwords.symm)), List.take_of_length_le (Nat.le_of_eq hwords)] at hphase
    exact hphase
  have hread : ReadPhase disk lba (sectorsOf count) b₂.ctx 0 b₃ :=
    readSectors_phase hattached.run.run hlba hrange mode' answers' hflushed.sound
  obtain ⟨hdone, htaken⟩ := hread.run hrs
  refine ⟨?_, hwrite.movesJust hsound hrange hws, hread.movesJust hrs, fun sector hsector hother i hi => ?_⟩
  · rw [htaken, hreads]
    exact hflushed.sectorWords hrange hwords
  · rw [Nat.zero_add, hreads, ReadPhase, if_neg (Nat.lt_irrefl _)] at hdone
    rw [hdone.ctx, hflushed.bytes _ (by omega), if_neg (by omega)]

end

/-- A board to which a file of three sectors has been attached. -/
def smallDisk : AtaBus MediaFile :=
  ⟨ataIdeChannelReset { ataIdeChannelInit (fun _ => 0) with diskRead := true, diskWrite := true, diskSectors := 3 },
    ⟨fun _ => 0, 1536, 3, true⟩⟩

/-- The numbers from 0 on, as words for the data port. -/
def countingWords : List (AtaAccess × MediaAnswers) :=
  (List.range 256).map fun i => (AtaAccess.write16 0 (UInt16.ofNat i), answersOk)

/-- Its sector 1 is written with the numbers from 0 to 255, and read back. -/
theorem smallDisk_roundTrip :
    let disk := (hdfDisk 3).toDiskCallbacks
    let written := ataBusRun disk (ataBusRun disk smallDisk (sectorCommand 1 1 0x40 ataCmdWriteSectors answersOk)) countingWords
    wordsRead disk (ataBusRun disk written (sectorCommand 1 1 0x40 ataCmdReadSectors answersOk))
      (List.replicate 256 (.read16 0, answersOk)) = (List.range 256).map UInt16.ofNat := by
  have hattach : lideAttachHdf (ataIdeChannelInit fun _ => 0) (fun _ => 0) 1536 = some (smallDisk.ch, smallDisk.ctx) := rfl
  obtain ⟨hattached, hsound⟩ := lideAttachHdf_attached hattach
  have hws : NoCommand countingWords := by
    intro a ha
    obtain ⟨i, -, rfl⟩ := List.mem_map.mp ha
    rfl
  have hwords : dataWords countingWords = (List.range 256).map UInt16.ofNat := by
    unfold dataWords countingWords
    rw [List.filterMap_map]
    exact congrFun List.filterMap_eq_map _
  have hrs : NoCommand (List.replicate 256 (AtaAccess.read16 0, answersOk)) := by
    intro a ha
    rw [List.eq_of_mem_replicate ha]
    rfl
  have hreads : dataReads (List.replicate 256 (AtaAccess.read16 0, answersOk)) = 256 := by
    rw [dataReads, List.countP_replicate]
    rfl
  have hback := ataSectors_roundTrip hattached hsound (show (1 : UInt32) < 0x10000000 by decide)
    (show (1 : UInt32).toNat + (sectorsOf 1).toNat ≤ 3 by decide) 0x40 0x40 answersOk answersOk hws hrs
    (by rw [hwords, List.length_map, List.length_range]; rfl) hreads
  exact hback.1.trans hwords

end Rigel
