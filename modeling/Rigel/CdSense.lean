import Rigel.CdPackets

/-!
# CdSense — why a packet has failed

ERR in the status register says that a packet has failed, and the sense data say why: a failure always leaves a reason, and the
reason stays until a packet notes another one or the drive is reset. INQUIRY, MODE SENSE, START STOP and the queries that
succeed note nothing. A unit attention is noted by the next TEST UNIT READY, once.
-/

namespace Rigel

/-! ## What a packet notes -/

section
variable {τ : Type*} (ops : AtapiMediaOps τ) (medium : τ) (s : AtapiCdromState) (pkt buf : Nat → UInt8)

/-- The key and the codes that a packet leaves in the sense data, if it leaves any. -/
def packetNote : Option (UInt8 × UInt8 × UInt8) :=
  if pkt 0 = cmdTestUnitReady then
    if !ops.present medium then some (skNotReady, ascMediumNotPresent, 0)
    else if s.unitAttention then some (skUnitAttention, ascMediumChanged, 0)
    else some (skNoSense, 0, 0)
  else if pkt 0 = cmdRequestSense then some (skNoSense, 0, 0)
  else if pkt 0 = cmdInquiry ∨ pkt 0 = cmdModeSense10 ∨ pkt 0 = cmdStartStop then none
  else if pkt 0 = cmdReadCapacity ∨ pkt 0 = cmdReadToc then
    if !ops.present medium then some (skNotReady, ascMediumNotPresent, 0) else none
  else if pkt 0 = cmdRead10 then
    if !ops.present medium then some (skNotReady, ascMediumNotPresent, 0)
    else if read10Count pkt = 0 then none
    else if (read10Count pkt).toNat > 256 then some (skIllegalRequest, ascInvalidFieldInCdb, 0)
    else if (ops.readSectors medium (read10Lba pkt) (read10Count pkt).toUInt32 buf).1 ≠ 0 then
      some (skIllegalRequest, ascLbaOutOfRange, 0)
    else some (skNoSense, 0, 0)
  else some (skIllegalRequest, ascInvalidCommand, 0)

/-- The reason in the sense data. -/
def AtapiCdromState.reason (s : AtapiCdromState) : UInt8 × UInt8 × UInt8 := (s.senseKey, s.asc, s.ascq)

/-- A packet has left its note, and has failed just when that is a reason. -/
structure Noted (note : Option (UInt8 × UInt8 × UInt8)) (r : AtapiCdromState × AtapiAnswer) : Prop where
  reason : r.1.reason = note.getD s.reason
  failed : r.2.rc ≠ 0 ↔ ∃ key code, note = some (key, code) ∧ key ≠ skNoSense

theorem noted_nothing (buf : Nat → UInt8) (len : Nat) : Noted s none (s, ⟨0, buf, len⟩) :=
  ⟨rfl, iff_of_false (not_not.mpr rfl) fun ⟨_, _, hnote, _⟩ => by cases hnote⟩

theorem noted_good (s' : AtapiCdromState) (buf : Nat → UInt8) (len : Nat) :
    Noted s (some (skNoSense, 0, 0)) (setSense s' skNoSense 0 0, ⟨0, buf, len⟩) := by
  refine ⟨rfl, iff_of_false (not_not.mpr rfl) ?_⟩
  rintro ⟨key, code, hnote, hkey⟩
  cases hnote
  exact hkey rfl

theorem noted_failure (s' : AtapiCdromState) (buf : Nat → UInt8) (len : Nat) {key : UInt8} (hkey : key ≠ skNoSense) (code : UInt8) :
    Noted s (some (key, code, 0)) (setSense s' key code 0, ⟨-1, buf, len⟩) :=
  ⟨rfl, iff_of_true (show (-1 : Int32) ≠ 0 by decide) ⟨key, (code, 0), rfl, hkey⟩⟩

theorem read10_overflow : (read10Count pkt).toNat * atapiSectorSize.toNat > ataXferBufSize ↔ (read10Count pkt).toNat > 256 := by
  have hsector : atapiSectorSize.toNat = 2048 := rfl
  have hbuf : ataXferBufSize = 524288 := rfl
  rw [hsector, hbuf]
  omega

variable (bootable : Bool)

theorem cmdRead10Exec_noted : Noted s
    (if !ops.present medium then some (skNotReady, ascMediumNotPresent, 0)
      else if read10Count pkt = 0 then none
      else if (read10Count pkt).toNat > 256 then some (skIllegalRequest, ascInvalidFieldInCdb, 0)
      else if (ops.readSectors medium (read10Lba pkt) (read10Count pkt).toUInt32 buf).1 ≠ 0 then
        some (skIllegalRequest, ascLbaOutOfRange, 0)
      else some (skNoSense, 0, 0)) (cmdRead10Exec ops medium bootable s pkt buf ataXferBufSize) := by
  unfold cmdRead10Exec
  simp only [read10_overflow]
  split
  · exact noted_failure s s _ _ (by decide) _
  split
  · exact noted_nothing s _ _
  split
  · exact noted_failure s s _ _ (by decide) _
  split
  · exact noted_failure s s _ _ (by decide) _
  · exact noted_good s s _ _

/-- **Every packet leaves its note.** -/
theorem atapiCdromExec_noted : Noted s (packetNote ops medium s pkt buf)
    (atapiCdromExec ops medium bootable s pkt buf ataXferBufSize) := by
  have hsize : ¬ ataXferBufSize < 18 ∧ ¬ ataXferBufSize < 36 ∧ ¬ ataXferBufSize < 8 ∧ ¬ ataXferBufSize < 20 := by decide
  unfold packetNote atapiCdromExec
  by_cases hready : pkt 0 = cmdTestUnitReady
  · rw [if_pos hready, if_pos hready]
    unfold cmdTestUnitReadyExec
    split
    · exact noted_failure s s _ _ (by decide) _
    split
    · exact noted_failure s _ _ _ (by decide) _
    · exact noted_good s s _ _
  rw [if_neg hready, if_neg hready]
  by_cases hsense : pkt 0 = cmdRequestSense
  · rw [if_pos hsense, if_pos hsense, cmdRequestSenseExec, if_neg hsize.1]
    exact noted_good s s _ _
  rw [if_neg hsense, if_neg hsense]
  by_cases hinquiry : pkt 0 = cmdInquiry
  · rw [if_pos (.inl hinquiry), if_pos hinquiry, cmdInquiryExec, if_neg hsize.2.1]
    exact noted_nothing s _ _
  rw [if_neg hinquiry]
  by_cases hcapacity : pkt 0 = cmdReadCapacity
  · rw [if_neg (by rw [hcapacity]; decide), if_pos (.inl hcapacity), if_pos hcapacity, cmdReadCapacityExec, if_neg hsize.2.2.1]
    split
    · exact noted_failure s s _ _ (by decide) _
    · exact noted_nothing s _ _
  rw [if_neg hcapacity]
  by_cases htoc : pkt 0 = cmdReadToc
  · rw [if_neg (by rw [htoc]; decide), if_pos (.inr htoc), if_pos htoc, cmdReadTocExec, if_neg hsize.2.2.2]
    split
    · exact noted_failure s s _ _ (by decide) _
    · exact noted_nothing s _ _
  rw [if_neg htoc]
  by_cases hmode : pkt 0 = cmdModeSense10
  · rw [if_pos (.inr (.inl hmode)), if_pos hmode, cmdModeSense10Exec, if_neg hsize.2.2.1]
    exact noted_nothing s _ _
  rw [if_neg hmode]
  by_cases hread : pkt 0 = cmdRead10
  · rw [if_neg (by rw [hread]; decide), if_neg (by rw [hread]; decide), if_pos hread, if_pos hread]
    exact cmdRead10Exec_noted ops medium s pkt buf bootable
  by_cases hstop : pkt 0 = cmdStartStop
  · rw [if_pos (.inr (.inr hstop)), if_neg hread, if_pos hstop]
    exact noted_nothing s _ _
  · rw [if_neg (by simp [hinquiry, hmode, hstop]), if_neg (by simp [hcapacity, htoc]), if_neg hread, if_neg hread, if_neg hstop]
    exact noted_failure s s _ _ (by decide) _

end

/-! ## Runs -/

section
variable {σ τ : Type*} (disk : DiskCallbacks σ) (ops : AtapiMediaOps τ) (medium : τ) (bootable : Bool)

/-- What the drive notes during an access. A reset forgets. -/
def accessNote (b : LideBus σ) (a : AtaAccess) : Option (UInt8 × UInt8 × UInt8) :=
  match completedPacket b.ch a with
  | some pkt => packetNote ops medium b.cd pkt b.ch.xferBuf
  | none => if resetsCdrom b.ch a then some (skNoSense, 0, 0) else none

/-- The notes of a run. -/
def runNotes (b : LideBus σ) (as : List AtaAccess) : List (UInt8 × UInt8 × UInt8) :=
  collectAlong (lideAccess disk ops medium bootable) (accessNote ops medium) b as

theorem lideAccess_reason (b : LideBus σ) (a : AtaAccess) :
    (lideAccess disk ops medium bootable b a).cd.reason = (accessNote ops medium b a).getD b.cd.reason := by
  unfold lideAccess accessNote
  cases completedPacket b.ch a with
  | some pkt => exact (atapiCdromExec_noted ops medium b.cd pkt b.ch.xferBuf bootable).reason
  | none =>
    dsimp only
    split
    · rfl
    · rfl

/-- **The sense data hold the last note of a run.** -/
theorem lideRun_reason (b : LideBus σ) (as : List AtaAccess) : (lideRun disk ops medium bootable b as).cd.reason =
    ((runNotes disk ops medium bootable b as).getLast?).getD b.cd.reason :=
  collectAlong_last (fun b => b.cd.reason) (lideAccess_reason disk ops medium bootable) as b

/-- The words of a REQUEST SENSE that answers with this reason. -/
def senseWords (reason : UInt8 × UInt8 × UInt8) : List UInt16 :=
  [0x7000, (reason.1 &&& 0x0F).toUInt16 <<< 8, 0, 0x000A, 0, 0, reason.2.1.toUInt16 <<< 8 ||| reason.2.2.toUInt16, 0, 0]

end

/-! ## REQUEST SENSE -/

section
variable {σ τ : Type*} {disk : DiskCallbacks σ} {ops : AtapiMediaOps τ} {medium : τ} {bootable : Bool} {b : LideBus σ}
  {ws : List AtaAccess} {last : UInt16}

variable (ops medium bootable b) in
/-- **The answer to a REQUEST SENSE.** -/
theorem requestSense_result {words : List UInt16} (h : (words.getD 0 0 >>> 8).toUInt8 = cmdRequestSense) :
    let r := packetResult ops medium bootable b words
    r.1.reason = (skNoSense, 0, 0) ∧ r.2.rc = 0 ∧ r.2.len = 18 ∧ (List.range' 0 9).map (answerWord r) = senseWords b.cd.reason := by
  have hcmd : wordByte words 0 = cmdRequestSense := h
  have hresult : packetResult ops medium bootable b words = cmdRequestSenseExec b.cd b.ch.xferBuf ataXferBufSize := by
    unfold packetResult cdExec atapiCdromExec
    rw [hcmd, if_neg (by decide), if_pos rfl]
  have hzero : ∀ x : UInt16, x ||| (0 : UInt8).toUInt16 = x := fun x => UInt16.or_zero
  intro r
  have hr : r = cmdRequestSenseExec b.cd b.ch.xferBuf ataXferBufSize := hresult
  rw [hr, cmdRequestSenseExec, if_neg (by decide)]
  refine ⟨rfl, rfl, rfl, ?_⟩
  have hwords : (List.range' 0 9).map (answerWord (setSense b.cd skNoSense 0 0, atapiData b.ch.xferBuf
      [0x70, 0, b.cd.senseKey &&& 0x0F, 0, 0, 0, 0, 10, 0, 0, 0, 0, b.cd.asc, b.cd.ascq, 0, 0, 0, 0])) =
      [(0x70 : UInt8).toUInt16 <<< 8 ||| (0 : UInt8).toUInt16, (b.cd.senseKey &&& 0x0F).toUInt16 <<< 8 ||| (0 : UInt8).toUInt16,
        (0 : UInt8).toUInt16 <<< 8 ||| (0 : UInt8).toUInt16, (0 : UInt8).toUInt16 <<< 8 ||| (10 : UInt8).toUInt16,
        (0 : UInt8).toUInt16 <<< 8 ||| (0 : UInt8).toUInt16, (0 : UInt8).toUInt16 <<< 8 ||| (0 : UInt8).toUInt16,
        b.cd.asc.toUInt16 <<< 8 ||| b.cd.ascq.toUInt16, (0 : UInt8).toUInt16 <<< 8 ||| (0 : UInt8).toUInt16,
        (0 : UInt8).toUInt16 <<< 8 ||| (0 : UInt8).toUInt16] := rfl
  rw [hwords, senseWords]
  simp only [hzero]
  rfl

/-- The board's packet layer is there for good. -/
theorem ataAccess_exec (ch : AtaIdeChannel) (a : AtaAccess × MediaAnswers) : (ataAccess ch a).atapiExec = ch.atapiExec := by
  obtain ⟨a, answers⟩ := a
  have hcommand : ∀ cmd, (executeCommand ch answers cmd).atapiExec = ch.atapiExec := by
    intro cmd
    unfold executeCommand executeAtapiCommand executeDiskCommand executeDiskRead executeDiskWrite
    repeat' split
    all_goals rfl
  have hregister : ∀ reg value, (ataIdeWrite8 ch answers reg value).atapiExec = ch.atapiExec := by
    intro reg value
    unfold ataIdeWrite8
    repeat' split
    all_goals first
      | rfl
      | exact hcommand value
  cases a with
  | read8 reg => rfl
  | read16 reg =>
    simp only [ataAccess, ataIdeRead16, ataReadData, ataReadComplete]
    repeat' split
    all_goals rfl
  | write8 reg value => exact hregister reg value
  | write16 reg value =>
    simp only [ataAccess, ataIdeWrite16]
    split
    · exact hregister reg _
    · unfold ataWriteData ataWriteSectorWord ataPacketTake executeAtapiPacket
      dsimp only
      repeat' split
      all_goals rfl

theorem lideRun_exec : ∀ (as : List AtaAccess) (b : LideBus σ),
    (lideRun disk ops medium bootable b as).ch.atapiExec = b.ch.atapiExec
  | [], _ => rfl
  | a :: as, b => (lideRun_exec as (lideAccess disk ops medium bootable b a)).trans (ataAccess_exec b.ch _)

theorem completedPacket_exec {ch : AtaIdeChannel} {a : AtaAccess} {pkt : Nat → UInt8} (h : completedPacket ch a = some pkt) :
    ch.atapiExec = true := by
  unfold completedPacket at h
  split at h
  · dsimp only at h
    split at h
    · rename_i hpacket
      exact hpacket.2.2.2
    · cases h
  · cases h

variable (disk) in
/-- **A failure is explained.** After an access has completed a packet that fails, and any run of accesses that note nothing, the
host sends a REQUEST SENSE: it reads the reason of that failure, which has a key, and after it none is left. -/
theorem failure_explained {a : AtaAccess} {pkt : Nat → UInt8} (hpacket : completedPacket b.ch a = some pkt)
    (hfail : (cdExec ops medium bootable b pkt).2.rc ≠ 0) {post : List AtaAccess}
    (hquiet : runNotes disk ops medium bootable (lideAccess disk ops medium bootable b a) post = [])
    (hslave : ataSelectedSlave (lideRun disk ops medium bootable b (a :: post)).ch = true)
    (hws : ∀ a ∈ ws, a.command = none) (hwords : (ws.filterMap AtaAccess.word).length = 5)
    (hcmd : ((ws.filterMap AtaAccess.word).getD 0 0 >>> 8).toUInt8 = cmdRequestSense) {rs : List AtaAccess}
    (hrs : ∀ a ∈ rs, a.command = none) (htakes : rs.countP AtaAccess.takes = 9) :
    let b₁ := lideRun disk ops medium bootable b (a :: post)
    let b₂ := lideRun disk ops medium bootable b₁ (packetRun ws last)
    ∃ key code, packetNote ops medium b.cd pkt b.ch.xferBuf = some (key, code) ∧ key ≠ skNoSense ∧
      lideReads disk ops medium bootable b₂ rs = senseWords (key, code) ∧
      (lideRun disk ops medium bootable b₂ rs).cd.reason = (skNoSense, 0, 0) := by
  intro b₁ b₂
  have hnoted := atapiCdromExec_noted ops medium b.cd pkt b.ch.xferBuf bootable
  obtain ⟨key, code, hnote, hkey⟩ := hnoted.failed.mp hfail
  have hexec : b₁.ch.atapiExec = true := (lideRun_exec (a :: post) b).trans (completedPacket_exec hpacket)
  have hreason : b₁.cd.reason = (key, code) := by
    have hafter : (lideAccess disk ops medium bootable b a).cd.reason = (key, code) := by
      rw [lideAccess_reason, accessNote, hpacket]
      exact congrArg (Option.getD · b.cd.reason) hnote
    have hkept := lideRun_reason disk ops medium bootable (lideAccess disk ops medium bootable b a) post
    rw [hquiet, hafter] at hkept
    exact hkept
  have hfirst : ((ws.filterMap AtaAccess.word ++ [last]).getD 0 0 >>> 8).toUInt8 = cmdRequestSense := by
    rw [List.getD_append _ _ _ _ (by omega)]
    exact hcmd
  obtain ⟨hcleared, -, hlen, hanswer⟩ := requestSense_result ops medium bootable b₁ hfirst
  have hfits : (packetResult ops medium bootable b₁ (ws.filterMap AtaAccess.word ++ [last])).2.Fits ataXferBufSize := cdExec_fits _
  have hphase : AnswerPhase b₁.ctx (packetResult ops medium bootable b₁ (ws.filterMap AtaAccess.word ++ [last])) 0 b₂ :=
    packetRun_phase hexec hslave hws hwords last
  obtain ⟨hdone, hreads⟩ : AnswerPhase b₁.ctx _ (0 + rs.countP AtaAccess.takes) (lideRun disk ops medium bootable b₂ rs) ∧
      lideReads disk ops medium bootable b₂ rs = _ := hphase.run hfits hrs
  rw [htakes, Nat.zero_add, AnswerPhase, if_neg (by rw [hlen]; decide)] at hdone
  refine ⟨key, code, hnote, hkey, ?_, ?_⟩
  · rw [hreads, htakes, hanswer, hreason]
  · rw [hdone.cd]
    exact hcleared

end

/-- The empty drive has been sent a TEST UNIT READY but for its last word. -/
def askedDrive : LideBus MediaFile :=
  lideRun (hdfDisk 0).toDiskCallbacks isoOps noDisc false emptyDrive (.write8 7 ataCmdPacket :: List.replicate 5 (.write16 0 0))

/-- The words of a REQUEST SENSE but the last. -/
def requestSenseWords : List AtaAccess := [0x0300, 0, 0x1200, 0, 0].map (.write16 0)

/-- With an INQUIRY in between it is told that there is no medium. -/
theorem askedDrive_explained :
    let run := lideRun (hdfDisk 0).toDiskCallbacks isoOps noDisc false
    lideReads (hdfDisk 0).toDiskCallbacks isoOps noDisc false
        (run (run askedDrive (.write16 0 0 :: packetRun inquiryWords 0)) (packetRun requestSenseWords 0))
        (List.replicate 9 (.read16 0)) = [0x7000, 0x0200, 0, 0x000A, 0, 0, 0x3A00, 0, 0] := by
  intro run
  have hpacket : completedPacket askedDrive.ch (.write16 0 0) =
      some (storeWord askedDrive.ch.atapiPkt askedDrive.ch.atapiPktPos 0) := rfl
  have hnote : packetNote isoOps noDisc askedDrive.cd (storeWord askedDrive.ch.atapiPkt askedDrive.ch.atapiPktPos 0)
      askedDrive.ch.xferBuf = some (skNotReady, ascMediumNotPresent, 0) := rfl
  obtain ⟨key, code, hnoted, -, hreads, -⟩ := failure_explained (hdfDisk 0).toDiskCallbacks hpacket
    (show (cdExec isoOps noDisc false askedDrive _).2.rc ≠ 0 by decide +kernel)
    (show runNotes _ isoOps noDisc false _ (packetRun inquiryWords 0) = [] by decide +kernel) (by decide +kernel)
    (show ∀ a ∈ requestSenseWords, a.command = none by decide) (by decide) (by decide)
    (show ∀ a ∈ List.replicate 9 (AtaAccess.read16 0), a.command = none by decide) (by decide)
  rw [hnote] at hnoted
  cases hnoted
  exact hreads.trans (by decide)

end Rigel
