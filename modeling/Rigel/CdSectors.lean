import Rigel.CdPackets

/-!
# CdSectors — the sectors of a disc

A READ(10) of a range of the disc is answered with the bytes of the range, 2048 to a sector, in one transfer. On a host that
asks for bootable discs the volume descriptor is patched in every transfer that holds it, wherever it lies there: the host sees
one disc, that with the patch.
-/

namespace Rigel

/-! ## The volume descriptor in a window -/

section
variable {buf buf' : Nat → UInt8} {off off' : Nat}

theorem bytesAt_window {bytes : List UInt8} (h : ∀ i < bytes.length, buf (off + i) = buf' (off' + i)) :
    bytesAt buf off bytes = bytesAt buf' off' bytes := by
  unfold bytesAt
  rw [Bool.eq_iff_iff, List.all_eq_true, List.all_eq_true]
  exact forall₂_congr fun i hi => by rw [h i (List.mem_range.mp hi)]

theorem putBytes_window {bytes : List UInt8} {i j : Nat} (h : buf i = buf' j) (hoff : off' + i = off + j) :
    putBytes buf off bytes i = putBytes buf' off' bytes j := by
  unfold putBytes
  rw [h, show i - off = j - off' by omega]
  exact if_congr (by omega) rfl rfl

/-- What is patched lies in the sector. -/
theorem patchPvdSysid_outside (bootable : Bool) (buf : Nat → UInt8) {off i : Nat} (h : i < off ∨ off + 2048 ≤ i) :
    patchPvdSysid bootable buf off i = buf i := by
  have hsysid : iso9660SysidOff = 8 ∧ iso9660SysidLen = 32 := ⟨rfl, rfl⟩
  have hboot : (asciiBytes "AMIGA BOOT".toList).length = 10 := by decide
  unfold patchPvdSysid
  repeat' split
  · rfl
  · rfl
  · rfl
  · rfl
  · unfold putBytes
    rw [if_neg (by rw [hboot]; omega), if_neg (by rw [List.length_replicate]; omega)]

/-- **A sector is patched alike wherever it stands.** -/
theorem patchPvdSysid_window (bootable : Bool) (h : ∀ i < 2048, buf (off + i) = buf' (off' + i)) {i : Nat} (hi : i < 2048) :
    patchPvdSysid bootable buf off (off + i) = patchPvdSysid bootable buf' off' (off' + i) := by
  have hsysid : iso9660SysidOff = 8 := rfl
  have hlengths : (asciiBytes "CD001".toList).length = 5 ∧ (asciiBytes "CDTV".toList).length = 4 ∧
      (asciiBytes "AMIGA BOOT".toList).length = 10 := by decide
  have htype : buf off = buf' off' := h 0 (by decide)
  have hname : bytesAt buf (off + 1) (asciiBytes "CD001".toList) = bytesAt buf' (off' + 1) (asciiBytes "CD001".toList) :=
    bytesAt_window fun i hi => by rw [Nat.add_assoc, Nat.add_assoc]; exact h _ (by omega)
  have hcdtv : bytesAt buf (off + iso9660SysidOff) (asciiBytes "CDTV".toList) =
      bytesAt buf' (off' + iso9660SysidOff) (asciiBytes "CDTV".toList) :=
    bytesAt_window fun i hi => by rw [Nat.add_assoc, Nat.add_assoc]; exact h _ (by omega)
  have hboot : bytesAt buf (off + iso9660SysidOff) (asciiBytes "AMIGA BOOT".toList) =
      bytesAt buf' (off' + iso9660SysidOff) (asciiBytes "AMIGA BOOT".toList) :=
    bytesAt_window fun i hi => by rw [Nat.add_assoc, Nat.add_assoc]; exact h _ (by omega)
  unfold patchPvdSysid
  rw [htype, hname, hcdtv, hboot]
  repeat' split
  · exact h i hi
  · exact h i hi
  · exact h i hi
  · exact h i hi
  · exact putBytes_window (putBytes_window (h i hi) (by omega)) (by omega)

end

/-! ## The packet -/

/-- The words of a READ(10) of `count` sectors from `lba` on. -/
def read10Packet (lba : UInt32) (count : UInt16) : List UInt16 :=
  [0x2800, (lba >>> 16).toUInt16, lba.toUInt16, count >>> 8, count <<< 8, 0]

theorem read10Packet_lba (lba : UInt32) (count : UInt16) : read10Lba (wordByte (read10Packet lba count)) = lba := by
  have h24 : ((lba >>> 16).toUInt16 >>> 8).toUInt8 = (lba >>> 24).toUInt8 := by
    apply UInt8.toNat_inj.mp
    simp only [UInt16.toNat_toUInt8, UInt16.toNat_shiftRight, UInt32.toNat_toUInt16, UInt32.toNat_shiftRight,
      UInt32.toNat_toUInt8, UInt32.reduceToNat, UInt16.reduceToNat, Nat.reduceMod, Nat.shiftRight_eq_div_pow]
    omega
  have h16 : ((lba >>> 16).toUInt16 &&& 0xFF).toUInt8 = (lba >>> 16).toUInt8 := by
    apply UInt8.toNat_inj.mp
    simp only [UInt16.toNat_toUInt8, UInt16.toNat_and, UInt32.toNat_toUInt16, UInt32.toNat_shiftRight, UInt32.toNat_toUInt8,
      UInt32.reduceToNat, UInt16.reduceToNat, Nat.reduceMod, Nat.shiftRight_eq_div_pow, Nat.and_two_pow_sub_one_eq_mod _ 8]
    omega
  have h8 : (lba.toUInt16 >>> 8).toUInt8 = (lba >>> 8).toUInt8 := by
    apply UInt8.toNat_inj.mp
    simp only [UInt16.toNat_toUInt8, UInt16.toNat_shiftRight, UInt32.toNat_toUInt16, UInt32.toNat_shiftRight,
      UInt32.toNat_toUInt8, UInt32.reduceToNat, UInt16.reduceToNat, Nat.reduceMod, Nat.shiftRight_eq_div_pow]
    omega
  have h0 : (lba.toUInt16 &&& 0xFF).toUInt8 = lba.toUInt8 := by
    apply UInt8.toNat_inj.mp
    simp only [UInt16.toNat_toUInt8, UInt16.toNat_and, UInt32.toNat_toUInt16, UInt32.toNat_toUInt8, UInt16.reduceToNat,
      Nat.and_two_pow_sub_one_eq_mod _ 8]
    omega
  have hbytes : read10Lba (wordByte (read10Packet lba count)) =
      (((lba >>> 16).toUInt16 >>> 8).toUInt8.toUInt32 <<< 24) ||| (((lba >>> 16).toUInt16 &&& 0xFF).toUInt8.toUInt32 <<< 16) |||
        ((lba.toUInt16 >>> 8).toUInt8.toUInt32 <<< 8) ||| (lba.toUInt16 &&& 0xFF).toUInt8.toUInt32 := rfl
  rw [hbytes, h24, h16, h8, h0]
  exact be32_read lba

theorem read10Packet_count (lba : UInt32) (count : UInt16) : read10Count (wordByte (read10Packet lba count)) = count := by
  have hhigh : (count >>> 8 &&& 0xFF).toUInt8 = (count >>> 8).toUInt8 := by
    apply UInt8.toNat_inj.mp
    simp only [UInt16.toNat_toUInt8, UInt16.toNat_and, UInt16.toNat_shiftRight, UInt16.reduceToNat, Nat.reduceMod,
      Nat.shiftRight_eq_div_pow, Nat.and_two_pow_sub_one_eq_mod _ 8]
    omega
  have hlow : (count <<< 8 >>> 8).toUInt8 = (count &&& 0xFF).toUInt8 := by
    apply UInt8.toNat_inj.mp
    simp only [UInt16.toNat_toUInt8, UInt16.toNat_and, UInt16.toNat_shiftRight, UInt16.toNat_shiftLeft, UInt16.reduceToNat,
      Nat.reduceMod, Nat.shiftRight_eq_div_pow, Nat.shiftLeft_eq, Nat.and_two_pow_sub_one_eq_mod _ 8]
    omega
  have hbytes : read10Count (wordByte (read10Packet lba count)) =
      (count >>> 8 &&& 0xFF).toUInt8.toUInt16 <<< 8 ||| (count <<< 8 >>> 8).toUInt8.toUInt16 := rfl
  have hword : (count >>> 8).toUInt8.toUInt16 <<< 8 ||| (count &&& 0xFF).toUInt8.toUInt16 = count := word_bytes count
  rw [hbytes, hhigh, hlow, hword]

/-! ## The answer -/

section
variable {σ τ : Type*} {ops : AtapiMediaOps τ} {medium : τ}

/-- The bytes of the disc as the host is shown them. -/
def SectorDisc.shown (disc : SectorDisc ops medium) (bootable : Bool) : Nat → UInt8 :=
  patchPvdSysid bootable disc.byte (2048 * iso9660PvdLba.toNat)

/-- **A buffer with sectors of the disc** is patched as the disc is. -/
theorem read10Patch_shown (disc : SectorDisc ops medium) (bootable : Bool) {lba : UInt32} {count : UInt16} {buf : Nat → UInt8}
    (hend : lba.toNat + count.toNat < 2 ^ 32) (h : ∀ i < 2048 * count.toNat, buf i = disc.byte (2048 * lba.toNat + i)) :
    ∀ i < 2048 * count.toNat, read10Patch bootable buf lba count i = disc.shown bootable (2048 * lba.toNat + i) := by
  intro i hi
  have hpvd : iso9660PvdLba.toNat = 16 := rfl
  have hsector : atapiSectorSize.toNat = 2048 := rfl
  have hsum : (lba + count.toUInt32).toNat = lba.toNat + count.toNat := by
    rw [UInt32.toNat_add, UInt16.toNat_toUInt32]
    exact Nat.mod_eq_of_lt hend
  unfold read10Patch SectorDisc.shown
  split
  · rename_i hinside
    obtain ⟨hfrom, hto⟩ := hinside
    have hle : lba.toNat ≤ 16 := UInt32.le_iff_toNat_le.mp hfrom
    have hlt : 16 < lba.toNat + count.toNat := by
      rw [← hsum]
      exact UInt32.lt_iff_toNat_lt.mp hto
    have hoff : (iso9660PvdLba - lba).toNat = 16 - lba.toNat := by
      rw [UInt32.toNat_sub_of_le _ _ hfrom]
      rfl
    rw [hoff, hsector, hpvd]
    by_cases hin : (16 - lba.toNat) * 2048 ≤ i ∧ i < (16 - lba.toNat) * 2048 + 2048
    · obtain ⟨j, rfl⟩ := Nat.exists_eq_add_of_le hin.1
      have hplace : 2048 * lba.toNat + ((16 - lba.toNat) * 2048 + j) = 2048 * 16 + j := by omega
      rw [hplace]
      refine patchPvdSysid_window bootable (fun i hi => ?_) (by omega)
      rw [h _ (by omega)]
      exact congrArg disc.byte (by omega)
    · rw [patchPvdSysid_outside _ _ (by omega), patchPvdSysid_outside _ _ (by omega)]
      exact h i hi
  · rename_i hinside
    have hout : ¬ (lba.toNat ≤ 16 ∧ 16 < lba.toNat + count.toNat) := by
      rintro ⟨hle, hlt⟩
      refine hinside ⟨UInt32.le_iff_toNat_le.mpr hle, UInt32.lt_iff_toNat_lt.mpr ?_⟩
      rw [hsum]
      exact hlt
    rw [patchPvdSysid_outside _ _ (by omega)]
    exact h i hi

variable (disc : SectorDisc ops medium) (bootable : Bool) {b : LideBus σ} {lba : UInt32} {count : UInt16}
  (hrange : lba.toNat + count.toNat ≤ (ops.sectorCount medium).toNat) (hpos : count ≠ 0) (hfit : count.toNat ≤ 256)
include hrange hpos hfit

/-- **The answer to a READ(10)** of a range on the disc. -/
theorem read10_result : let r := packetResult ops medium bootable b (read10Packet lba count)
    r.1 = setSense b.cd skNoSense 0 0 ∧ r.2.rc = 0 ∧ r.2.len = 2048 * count.toNat ∧
      ∀ i < 2048 * count.toNat, r.2.buf i = disc.shown bootable (2048 * lba.toNat + i) := by
  have hsector : atapiSectorSize.toNat = 2048 := rfl
  have hbuf : ataXferBufSize = 524288 := rfl
  have hresult : packetResult ops medium bootable b (read10Packet lba count) =
      cmdRead10Exec ops medium bootable b.cd (wordByte (read10Packet lba count)) b.ch.xferBuf ataXferBufSize := by
    have hcmd : wordByte (read10Packet lba count) 0 = cmdRead10 := by
      have hhigh : wordByte (read10Packet lba count) 0 = ((0x2800 : UInt16) >>> 8).toUInt8 := rfl
      rw [hhigh]
      decide
    unfold packetResult cdExec atapiCdromExec
    rw [hcmd, if_neg (by decide), if_neg (by decide), if_neg (by decide), if_neg (by decide), if_neg (by decide),
      if_neg (by decide), if_pos rfl]
  have hwide : count.toUInt32.toNat = count.toNat := UInt16.toNat_toUInt32 count
  obtain ⟨hrc, hbytes⟩ := disc.read_ok b.ch.xferBuf (show lba.toNat + count.toUInt32.toNat ≤ _ by rw [hwide]; exact hrange)
  rw [hwide] at hbytes
  rw [hresult]
  unfold cmdRead10Exec
  simp only [read10Packet_lba, read10Packet_count, disc.present, hpos, hsector, hbuf, hrc, Bool.not_true, Bool.false_eq_true,
    if_false, ne_eq, not_true_eq_false]
  rw [if_neg (by omega)]
  refine ⟨rfl, rfl, Nat.mul_comm _ _, read10Patch_shown disc bootable ?_ hbytes⟩
  exact Nat.lt_of_le_of_lt hrange (ops.sectorCount medium).toNat_lt

variable {disk : DiskCallbacks σ} {ws rs : List AtaAccess} {last : UInt16}

variable (disk) in
/-- **The host reads the sectors of the disc.** A READ(10) of a range of up to 256 sectors, sent among other accesses: the host
then reads the words of the range in order, with the volume descriptor patched where it asked for that, and after as many the
channel is idle, without an error, and no sense is pending. -/
theorem read10_sectors (hexec : b.ch.atapiExec = true) (hslave : ataSelectedSlave b.ch = true)
    (hws : ∀ a ∈ ws, a.command = none) (hwords : ws.filterMap AtaAccess.word ++ [last] = read10Packet lba count)
    (hrs : ∀ a ∈ rs, a.command = none) (htakes : rs.countP AtaAccess.takes = 1024 * count.toNat) :
    let b₁ := lideRun disk ops medium bootable b (packetRun ws last)
    let b₂ := lideRun disk ops medium bootable b₁ rs
    lideReads disk ops medium bootable b₁ rs =
        (List.range' (1024 * lba.toNat) (1024 * count.toNat)).map (wordAt (disc.shown bootable)) ∧
      b₂.ch.state = .idle ∧ b₂.ch.status = ataStatusRdy ∧ b₂.cd = setSense b.cd skNoSense 0 0 ∧ b₂.ctx = b.ctx := by
  intro b₁ b₂
  have hfive : (ws.filterMap AtaAccess.word).length = 5 := by
    have hlength := congrArg List.length hwords
    rw [List.length_append] at hlength
    simpa [read10Packet] using hlength
  have hphase : AnswerPhase b.ctx (packetResult ops medium bootable b (read10Packet lba count)) 0 b₁ := by
    rw [← hwords]
    exact packetRun_phase hexec hslave hws hfive last
  obtain ⟨hcd, hrc, hlen, hbytes⟩ := read10_result disc bootable (b := b) hrange hpos hfit
  have hfits : (packetResult ops medium bootable b (read10Packet lba count)).2.Fits ataXferBufSize := cdExec_fits _
  obtain ⟨hdone, hreads⟩ : AnswerPhase b.ctx _ (0 + rs.countP AtaAccess.takes) b₂ ∧ lideReads disk ops medium bootable b₁ rs = _ :=
    hphase.run hfits hrs
  rw [Nat.zero_add, AnswerPhase, if_neg (by omega)] at hdone
  refine ⟨?_, hdone.state, ?_, hdone.cd.trans hcd, hdone.ctx⟩
  · rw [hreads, htakes]
    refine List.ext_getElem (by simp) fun k hk hk' => ?_
    rw [List.length_map, List.length_range'] at hk
    rw [List.getElem_map, List.getElem_map, List.getElem_range', List.getElem_range', answerWord, if_pos (by omega), wordAt,
      wordAt, hbytes _ (by omega), hbytes _ (by omega)]
    have hplace : 2048 * lba.toNat + 2 * (0 + 1 * k) = 2 * (1024 * lba.toNat + 1 * k) := by omega
    rw [← Nat.add_assoc, hplace]
  · rw [hdone.status, hrc]
    rfl

end

/-- The bytes of a disc that counts, but for the name of the volume descriptor in sector 16. -/
def volumeByte (i : Nat) : UInt8 :=
  if i < 2048 * 16 ∨ 2048 * 16 + 6 ≤ i then UInt8.ofNat i else (0x01 :: asciiBytes "CD001".toList).getD (i - 2048 * 16) 0

/-- A disc of eighteen sectors. -/
def volumeDisc : MediaFile := ⟨volumeByte, 2048 * 18, 18, true⟩

theorem volumeDisc_open : mediaOpen volumeByte (2048 * 18) atapiSectorSize = some volumeDisc := rfl

/-- A board with that disc in its drive, which is selected. -/
def volumeDrive : LideBus MediaFile :=
  ⟨⟨{ ataIdeChannelInit (fun _ => 0) with atapiExec := true, devHead := 0x10 }, noDisc⟩, atapiCdromInsert atapiCdromInit⟩

/-- The words of a READ(10) of the last three sectors but the last. -/
def lastSectorsWords : List AtaAccess := [0x2800, 0, 15, 0, 0x0300].map (.write16 0)

/-- What the host reads after that packet. -/
def volumeReads : List UInt16 :=
  lideReads (hdfDisk 0).toDiskCallbacks isoOps volumeDisc true
    (lideRun (hdfDisk 0).toDiskCallbacks isoOps volumeDisc true volumeDrive (packetRun lastSectorsWords 0))
    (List.replicate 3072 (.read16 0))

/-- Three sectors are read, and in the middle one the system identifier starts with the Amiga's marker, between the name
and the byte that follows the field. -/
theorem volumeDrive_read :
    volumeReads = (List.range' 15360 3072).map (wordAt ((isoDisc volumeDisc_open).shown true)) ∧
      volumeReads[1024]? = some 0x0143 ∧ volumeReads[1028]? = some 0x414D ∧ volumeReads[1033]? = some 0x2020 ∧
        volumeReads[1044]? = some 0x2829 := by
  have hrange : (15 : UInt32).toNat + (3 : UInt16).toNat ≤ (isoOps.sectorCount volumeDisc).toNat := by decide
  have hslave : ataSelectedSlave volumeDrive.ch = true := by decide
  have hws : ∀ a ∈ lastSectorsWords, a.command = none := by decide
  have hwords : lastSectorsWords.filterMap AtaAccess.word ++ [0] = read10Packet 15 3 := by decide
  have hrs : ∀ a ∈ List.replicate 3072 (AtaAccess.read16 0), a.command = none := by
    intro a ha
    rw [List.eq_of_mem_replicate ha]
    rfl
  have htakes : (List.replicate 3072 (AtaAccess.read16 0)).countP AtaAccess.takes = 1024 * (3 : UInt16).toNat := by
    rw [List.countP_replicate]
    rfl
  have hread : volumeReads = (List.range' 15360 3072).map (wordAt ((isoDisc volumeDisc_open).shown true)) :=
    (read10_sectors (isoDisc volumeDisc_open) true hrange (by decide) (by decide) (hdfDisk 0).toDiskCallbacks rfl hslave hws
      hwords hrs htakes).1
  have hword : ∀ {k : Nat}, k < 3072 →
      volumeReads[k]? = some (wordAt ((isoDisc volumeDisc_open).shown true) (15360 + k)) := by
    intro k hk
    rw [hread, List.getElem?_map, List.getElem?_range' hk, Nat.one_mul]
    rfl
  refine ⟨hread, ?_, ?_, ?_, ?_⟩
  · rw [hword (by decide)]
    decide +kernel
  · rw [hword (by decide)]
    decide +kernel
  · rw [hword (by decide)]
    decide +kernel
  · rw [hword (by decide)]
    decide +kernel

end Rigel
