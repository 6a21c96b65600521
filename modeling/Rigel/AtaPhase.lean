import Mathlib.Tactic.Push
import Rigel.AtaIde
import Rigel.Run

/-!
# AtaPhase — the phases of the IDE channel

DRQ in the status register tells the host that a transfer is open, and the state says which one. The two agree until a
command arrives that the source answers in the status register alone: DRQ goes off, and the transfer of the earlier
command stays open behind it. The data port then still delivers its words, or still collects a WRITE and flushes it.
-/

namespace Rigel

/-- The states in which the data port moves words of the buffer. -/
def AtaRegState.moves : AtaRegState → Bool
  | .identify | .atapiDataIn | .dataIn | .dataOut => true
  | _ => false

/-- The states in which a transfer is open: these and the wait for a packet. -/
def AtaRegState.transfers (s : AtaRegState) : Bool := s.moves || s = .atapiCmd

/-- **The channel is in phase.** DRQ says that a transfer is open; the position is inside the transfer; and after an error
nothing is open, so that the data port is deaf in both directions. -/
structure AtaPhase (ch : AtaIdeChannel) : Prop where
  drq : ch.status &&& ataStatusDrq ≠ 0 ↔ ch.state.transfers = true
  even : ch.state.moves = true → ch.xferPos % 2 = 0
  inside : ch.state.moves = true → ch.xferPos < ch.xferLen ∧ ch.xferLen ≤ ataXferBufSize
  packet : ch.state = .atapiCmd → ch.atapiPktPos < 12
  error : ch.status &&& ataStatusErr ≠ 0 → ch.state = .idle
  deaf : ch.status &&& ataStatusErr ≠ 0 →
    ataIdeRead16 ch 0 = (ch, 0xFFFF) ∧ ∀ answers value, ataIdeWrite16 ch answers 0 value = ch

/-! ## The condition -/

/-- The commands that the ATAPI drive answers in the status register alone, whatever transfer is open. -/
def atapiAnswersInPlace (cmd : UInt8) : Bool := cmd ∉ [ataCmdDeviceReset, ataCmdIdentifyPacket, ataCmdPacket]

/-- Those of the disk. SET FEATURES is one, without an error. -/
def diskAnswersInPlace (ch : AtaIdeChannel) (answers : MediaAnswers) (cmd : UInt8) : Bool :=
  if cmd = ataCmdReadSectors then diskOutOfRange ch || answers.readRc != 0
  else if cmd = ataCmdWriteSectors then diskOutOfRange ch || !ch.diskWrite
  else cmd ∉ [ataCmdDeviceReset, ataCmdIdentifyDevice]

/-- With no disk, every command to it is one. -/
def answersInPlace (ch : AtaIdeChannel) (answers : MediaAnswers) (cmd : UInt8) : Bool :=
  if ataSelectedSlave ch then atapiAnswersInPlace cmd
  else if ataDiskPresent ch then diskAnswersInPlace ch answers cmd
  else true

/-- The command that an access writes into register 7. -/
def AtaAccess.command : AtaAccess → Option UInt8
  | .write8 reg value => if reg = 7 then some value else none
  | .write16 reg value => if reg = 7 then some (value &&& 0xFF).toUInt8 else none
  | _ => none

/-- The access writes a word to the data port. -/
def AtaAccess.dataWrite : AtaAccess → Bool
  | .write16 reg _ => reg = 0
  | _ => false

/-- **No open transfer is left behind**: no command that is answered in place while one is open, and no packet completed
without a packet layer to take it. -/
structure ClosesTransfers (ch : AtaIdeChannel) (a : AtaAccess × MediaAnswers) : Prop where
  command : ∀ cmd, a.1.command = some cmd → ch.state.transfers = true → answersInPlace ch a.2 cmd = false
  packet : ch.state = .atapiCmd → a.1.dataWrite = true → 10 ≤ ch.atapiPktPos → ch.atapiExec = true

/-! ## States in phase -/

/-- In phase, and in no state that the source names and never enters. -/
structure AtaSteady (ch : AtaIdeChannel) : Prop extends AtaPhase ch where
  known : ch.state = .idle ∨ ch.state.transfers = true

theorem rdyDrq_drq : (ataStatusRdy ||| ataStatusDrq) &&& ataStatusDrq ≠ 0 := by decide

theorem rdy_drq : ataStatusRdy &&& ataStatusDrq = 0 := by decide

theorem rdyErr_drq : (ataStatusRdy ||| ataStatusErr) &&& ataStatusDrq = 0 := by decide

theorem rdyDrq_err : ¬ (ataStatusRdy ||| ataStatusDrq) &&& ataStatusErr ≠ 0 := by decide

/-- An idle channel hears nothing at its data port. -/
theorem idle_deaf {ch : AtaIdeChannel} (hstate : ch.state = .idle) :
    ataIdeRead16 ch 0 = (ch, 0xFFFF) ∧ ∀ answers value, ataIdeWrite16 ch answers 0 value = ch := by
  refine ⟨?_, fun answers value => ?_⟩
  · simp [ataIdeRead16, ataReadData, AtaRegState.sends, hstate]
  · simp [ataIdeWrite16, ataWriteData, hstate]

theorem ataSteady_idle {ch : AtaIdeChannel} (hstate : ch.state = .idle) (hdrq : ch.status &&& ataStatusDrq = 0) :
    AtaSteady ch where
  drq := by simp [hdrq, hstate, AtaRegState.transfers, AtaRegState.moves]
  even := by simp [hstate, AtaRegState.moves]
  inside := by simp [hstate, AtaRegState.moves]
  packet := by simp [hstate]
  error := fun _ => hstate
  deaf := fun _ => idle_deaf hstate
  known := .inl hstate

theorem ataSteady_moves {ch : AtaIdeChannel} (hstate : ch.state.moves = true)
    (hstatus : ch.status = ataStatusRdy ||| ataStatusDrq) (heven : ch.xferPos % 2 = 0)
    (hinside : ch.xferPos < ch.xferLen ∧ ch.xferLen ≤ ataXferBufSize) : AtaSteady ch where
  drq := by simp [hstatus, rdyDrq_drq, AtaRegState.transfers, hstate]
  even := fun _ => heven
  inside := fun _ => hinside
  packet := fun hcmd => by simp [hcmd, AtaRegState.moves] at hstate
  error := fun herr => absurd (hstatus ▸ herr) rdyDrq_err
  deaf := fun herr => absurd (hstatus ▸ herr) rdyDrq_err
  known := .inr (by simp [AtaRegState.transfers, hstate])

theorem ataSteady_packet {ch : AtaIdeChannel} (hstate : ch.state = .atapiCmd)
    (hstatus : ch.status = ataStatusRdy ||| ataStatusDrq) (hpos : ch.atapiPktPos < 12) : AtaSteady ch where
  drq := by simp [hstatus, rdyDrq_drq, AtaRegState.transfers, hstate]
  even := by simp [hstate, AtaRegState.moves]
  inside := by simp [hstate, AtaRegState.moves]
  packet := fun _ => hpos
  error := fun herr => absurd (hstatus ▸ herr) rdyDrq_err
  deaf := fun herr => absurd (hstatus ▸ herr) rdyDrq_err
  known := .inr (by simp [AtaRegState.transfers, hstate])

/-! ## Commands -/

theorem diskCount_range (ch : AtaIdeChannel) : 1 ≤ (diskCount ch).toNat ∧ (diskCount ch).toNat ≤ 256 := by
  have hlt := ch.sectorCount.toNat_lt
  unfold diskCount
  split
  · rename_i hne
    have hpos : ch.sectorCount.toNat ≠ 0 := fun h => hne (UInt8.toNat_inj.mp h)
    rw [UInt8.toNat_toUInt32]
    omega
  · decide

theorem diskTransfer_inside (ch : AtaIdeChannel) :
    0 < (diskCount ch).toNat * ataSectorSize.toNat ∧ (diskCount ch).toNat * ataSectorSize.toNat ≤ ataXferBufSize := by
  have hrange := diskCount_range ch
  have hsize : ataSectorSize.toNat = 512 := rfl
  have hbuf : ataXferBufSize = 524288 := rfl
  rw [hsize, hbuf]
  omega

/-- An answer in place leaves the state, and takes DRQ away. -/
structure InPlace (ch ch' : AtaIdeChannel) : Prop where
  state : ch'.state = ch.state
  drq : ch'.status &&& ataStatusDrq = 0

/-- The two ways a command ends. -/
def CommandEnds (inPlace : Bool) (ch ch' : AtaIdeChannel) : Prop := if inPlace then InPlace ch ch' else AtaSteady ch'

theorem commandEnds_inPlace {inPlace : Bool} {ch ch' : AtaIdeChannel} (h : inPlace = true) (hp : InPlace ch ch') :
    CommandEnds inPlace ch ch' := by
  rw [CommandEnds, if_pos h]
  exact hp

theorem commandEnds_steady {inPlace : Bool} {ch ch' : AtaIdeChannel} (h : inPlace = false) (hs : AtaSteady ch') :
    CommandEnds inPlace ch ch' := by
  rw [CommandEnds, if_neg (by simp [h])]
  exact hs

theorem ataAbort_inPlace (ch : AtaIdeChannel) : InPlace ch (ataAbort ch) := ⟨rfl, rdyErr_drq⟩

theorem identify_inside : 0 < 512 ∧ 512 ≤ ataXferBufSize := by decide

theorem executeAtapiCommand_ends (ch : AtaIdeChannel) (cmd : UInt8) :
    CommandEnds (atapiAnswersInPlace cmd) ch (executeAtapiCommand ch cmd) := by
  unfold executeAtapiCommand
  split
  · rename_i hreset
    exact commandEnds_steady (by simp [atapiAnswersInPlace, hreset]) (ataSteady_idle rfl rdy_drq)
  split
  · rename_i hidentify
    exact commandEnds_inPlace (hidentify ▸ by decide) ⟨rfl, rdyErr_drq⟩
  split
  · rename_i hpacket
    exact commandEnds_steady (by simp [atapiAnswersInPlace, hpacket]) (ataSteady_moves rfl rfl rfl identify_inside)
  split
  · rename_i hpacket
    exact commandEnds_steady (by simp [atapiAnswersInPlace, hpacket]) (ataSteady_packet rfl rfl (Nat.succ_pos 11))
  · rename_i hreset _ hidentify hpacket
    exact commandEnds_inPlace (by simp [atapiAnswersInPlace, hreset, hidentify, hpacket]) (ataAbort_inPlace ch)

theorem executeDiskRead_ends (ch : AtaIdeChannel) (answers : MediaAnswers) :
    CommandEnds (diskOutOfRange ch || answers.readRc != 0) ch (executeDiskRead ch answers) := by
  unfold executeDiskRead
  split
  · rename_i hrange
    exact commandEnds_inPlace (by simp [hrange]) (ataAbort_inPlace ch)
  split
  · rename_i hrc
    exact commandEnds_inPlace (by simp [hrc]) ⟨rfl, rdyErr_drq⟩
  · rename_i hrange hrc
    exact commandEnds_steady (by simpa [hrange] using hrc) (ataSteady_moves rfl rfl rfl (diskTransfer_inside ch))

theorem executeDiskWrite_ends (ch : AtaIdeChannel) :
    CommandEnds (diskOutOfRange ch || !ch.diskWrite) ch (executeDiskWrite ch) := by
  unfold executeDiskWrite
  split
  · rename_i hrange
    exact commandEnds_inPlace (by simp [hrange]) (ataAbort_inPlace ch)
  split
  · rename_i hnone
    exact commandEnds_inPlace (by simp [hnone]) (ataAbort_inPlace ch)
  · rename_i hrange hsome
    exact commandEnds_steady (by simpa [hrange] using hsome) (ataSteady_moves rfl rfl rfl (diskTransfer_inside ch))

theorem executeDiskCommand_ends (ch : AtaIdeChannel) (answers : MediaAnswers) (cmd : UInt8) :
    CommandEnds (diskAnswersInPlace ch answers cmd) ch (executeDiskCommand ch answers cmd) := by
  by_cases hread : cmd = ataCmdReadSectors
  · subst hread
    exact executeDiskRead_ends ch answers
  by_cases hwrite : cmd = ataCmdWriteSectors
  · subst hwrite
    exact executeDiskWrite_ends ch
  unfold executeDiskCommand diskAnswersInPlace
  simp only [if_neg hread, if_neg hwrite]
  split
  · rename_i hreset
    exact commandEnds_steady (by simp [hreset]) (ataSteady_idle rfl rdy_drq)
  split
  · rename_i hidentify
    exact commandEnds_steady (by simp [hidentify]) (ataSteady_moves rfl rfl rfl identify_inside)
  split
  · rename_i hfeatures
    exact commandEnds_inPlace (hfeatures ▸ by decide) ⟨rfl, rdy_drq⟩
  · rename_i hreset hidentify _
    exact commandEnds_inPlace (by simp [hreset, hidentify]) (ataAbort_inPlace ch)

/-- **Every command is answered in place, or leaves the channel in phase.** -/
theorem executeCommand_ends (ch : AtaIdeChannel) (answers : MediaAnswers) (cmd : UInt8) :
    CommandEnds (answersInPlace ch answers cmd) ch (executeCommand ch answers cmd) := by
  unfold executeCommand answersInPlace
  cases ataSelectedSlave ch with
  | true => exact executeAtapiCommand_ends ch cmd
  | false =>
    cases ataDiskPresent ch with
    | true => exact executeDiskCommand_ends ch answers cmd
    | false => exact commandEnds_inPlace rfl ⟨rfl, rdyErr_drq⟩

/-! ## The data port -/

/-- A channel in phase stays so while its registers and its position move inside the open transfer. -/
theorem AtaSteady.move {ch ch' : AtaIdeChannel} (hs : AtaSteady ch) (hstate : ch'.state = ch.state)
    (hstatus : ch'.status = ch.status)
    (hmoves : ch.state.moves = true → ch'.xferPos % 2 = 0 ∧ ch'.xferPos < ch'.xferLen ∧ ch'.xferLen ≤ ataXferBufSize)
    (hpacket : ch.state = .atapiCmd → ch'.atapiPktPos < 12) : AtaSteady ch' where
  drq := by rw [hstatus, hstate]; exact hs.drq
  even := fun h => (hmoves (hstate ▸ h)).1
  inside := fun h => (hmoves (hstate ▸ h)).2
  packet := fun h => hpacket (hstate ▸ h)
  error := fun h => hstate.trans (hs.error (hstatus ▸ h))
  deaf := fun h => idle_deaf (hstate.trans (hs.error (hstatus ▸ h)))
  known := hstate ▸ hs.known

theorem AtaSteady.registers {ch ch' : AtaIdeChannel} (hs : AtaSteady ch) (hstate : ch'.state = ch.state)
    (hstatus : ch'.status = ch.status) (hpos : ch'.xferPos = ch.xferPos) (hlen : ch'.xferLen = ch.xferLen)
    (hpacket : ch'.atapiPktPos = ch.atapiPktPos) : AtaSteady ch' := by
  refine hs.move hstate hstatus (fun hmoves => ?_) fun hcmd => ?_
  · rw [hpos, hlen]
    exact ⟨hs.even hmoves, hs.inside hmoves⟩
  · rw [hpacket]
    exact hs.packet hcmd

theorem ataReadData_steady {ch : AtaIdeChannel} (hs : AtaSteady ch) : AtaSteady (ataReadData ch).1 := by
  unfold ataReadData
  split
  · rename_i hword
    dsimp only
    split
    · exact ataSteady_idle rfl rdy_drq
    · rename_i hmore
      have hmoves : ch.state.moves = true := by
        have hsends := hword.1
        revert hsends
        cases ch.state <;> decide
      have heven := hs.even hmoves
      have hinside := hs.inside hmoves
      refine hs.move rfl rfl (fun _ => ⟨?_, ?_, hinside.2⟩) hs.packet
      · dsimp only
        omega
      · exact Nat.lt_of_not_le hmore
  · exact hs

theorem ataWriteSectorWord_steady {ch : AtaIdeChannel} (hs : AtaSteady ch) (hstate : ch.state = .dataOut)
    (answers : MediaAnswers) (hi lo : UInt8) : AtaSteady (ataWriteSectorWord ch answers hi lo) := by
  unfold ataWriteSectorWord
  split
  · dsimp only
    split
    · refine ataSteady_idle rfl ?_
      unfold ataWriteFlush
      dsimp only
      split <;> decide
    · rename_i hmore
      have hmoves : ch.state.moves = true := by rw [hstate]; rfl
      have heven := hs.even hmoves
      refine hs.move rfl rfl (fun _ => ⟨?_, ?_, (hs.inside hmoves).2⟩) hs.packet
      · dsimp only
        omega
      · exact Nat.lt_of_not_le hmore
  · exact hs

theorem ataPacketTake_state (ch : AtaIdeChannel) (hi lo : UInt8) :
    (ataPacketTake ch hi lo).state = ch.state ∧ (ataPacketTake ch hi lo).status = ch.status ∧
      (ataPacketTake ch hi lo).atapiExec = ch.atapiExec := by
  unfold ataPacketTake
  dsimp only
  split <;> exact ⟨rfl, rfl, rfl⟩

/-- A packet is complete with its twelfth byte, which a word brings from position 10 on. -/
theorem ataPacketTake_pos (ch : AtaIdeChannel) (hi lo : UInt8) (hpos : ch.atapiPktPos < 12) :
    (ataPacketTake ch hi lo).atapiPktPos ≥ 12 ↔ 10 ≤ ch.atapiPktPos := by
  unfold ataPacketTake
  dsimp only
  split
  · dsimp only
    omega
  · dsimp only
    omega

theorem executeAtapiPacket_steady {ch : AtaIdeChannel} (hexec : ch.atapiExec = true) (answers : MediaAnswers) :
    AtaSteady (executeAtapiPacket ch answers) := by
  unfold executeAtapiPacket
  simp only [hexec, Bool.not_true, Bool.false_eq_true, if_false]
  split
  · refine ataSteady_idle rfl ?_
    dsimp only
    split <;> decide
  · rename_i hdata
    have hpos : 0 < answers.execLen := Nat.pos_of_ne_zero fun hzero => hdata (.inr hzero)
    exact ataSteady_moves rfl rfl rfl ⟨hpos, answers.execLen_le⟩

theorem ataWriteData_steady {ch : AtaIdeChannel} (hs : AtaSteady ch) (answers : MediaAnswers) (value : UInt16)
    (hexec : ch.state = .atapiCmd → 10 ≤ ch.atapiPktPos → ch.atapiExec = true) :
    AtaSteady (ataWriteData ch answers value) := by
  unfold ataWriteData
  dsimp only
  split
  · rename_i hstate
    exact ataWriteSectorWord_steady hs hstate answers _ _
  split
  · rename_i hpacket
    obtain ⟨hstate, hstatus, hsame⟩ := ataPacketTake_state ch (value >>> 8).toUInt8 (value &&& 0xFF).toUInt8
    have hfull := ataPacketTake_pos ch (value >>> 8).toUInt8 (value &&& 0xFF).toUInt8 hpacket.2
    split
    · rename_i hcomplete
      exact executeAtapiPacket_steady (hsame.trans (hexec hpacket.1 (hfull.mp hcomplete))) answers
    · rename_i hmore
      refine hs.move hstate hstatus (fun hmoves => ?_) fun _ => Nat.lt_of_not_le hmore
      rw [hpacket.1] at hmoves
      exact absurd hmoves (by decide)
  · exact hs

/-! ## One access -/

theorem executeCommand_steady {ch : AtaIdeChannel} (hs : AtaSteady ch) {answers : MediaAnswers} {cmd : UInt8}
    (hc : ch.state.transfers = true → answersInPlace ch answers cmd = false) :
    AtaSteady (executeCommand ch answers cmd) := by
  have hends := executeCommand_ends ch answers cmd
  cases hplace : answersInPlace ch answers cmd with
  | false =>
    rw [hplace] at hends
    exact hends
  | true =>
    rw [hplace] at hends
    -- an answer in place finds the channel idle, and leaves it so
    have hstate : ch.state = .idle := hs.known.resolve_right fun hopen => by simp [hplace] at hc; simp [hc] at hopen
    exact ataSteady_idle (hends.state.trans hstate) hends.drq

theorem ataIdeWrite8_steady {ch : AtaIdeChannel} (hs : AtaSteady ch) (answers : MediaAnswers) (reg value : UInt8)
    (hc : reg = 7 → ch.state.transfers = true → answersInPlace ch answers value = false) :
    AtaSteady (ataIdeWrite8 ch answers reg value) := by
  unfold ataIdeWrite8
  by_cases hcommand : reg = 7
  · subst hcommand
    exact executeCommand_steady hs (hc rfl)
  · rw [if_neg hcommand]
    repeat' split
    all_goals exact hs.registers rfl rfl rfl rfl rfl

/-- **The step.** An access that closes what it ends keeps the channel in phase. -/
theorem ataAccess_steady {ch : AtaIdeChannel} (hs : AtaSteady ch) {a : AtaAccess × MediaAnswers}
    (hc : ClosesTransfers ch a) : AtaSteady (ataAccess ch a) := by
  obtain ⟨access, answers⟩ := a
  have hcommand := hc.command
  have hpacket := hc.packet
  cases access with
  | read8 reg => exact hs
  | read16 reg =>
    simp only [ataAccess, ataIdeRead16]
    split
    · exact hs
    · exact ataReadData_steady hs
  | write8 reg value =>
    exact ataIdeWrite8_steady hs answers reg value fun hreg => hcommand value (if_pos hreg)
  | write16 reg value =>
    simp only [ataAccess, ataIdeWrite16]
    split
    · exact ataIdeWrite8_steady hs answers reg _ fun hreg => hcommand _ (if_pos hreg)
    · rename_i hreg
      have hdata : reg = 0 := not_not.mp hreg
      exact ataWriteData_steady hs answers value fun hstate hpos => hpacket hstate (decide_eq_true hdata) hpos

/-- The command register is reached by either width. -/
theorem ataAccess_command {ch : AtaIdeChannel} {a : AtaAccess × MediaAnswers} {cmd : UInt8}
    (h : a.1.command = some cmd) : ataAccess ch a = executeCommand ch a.2 cmd := by
  obtain ⟨access, answers⟩ := a
  cases access with
  | read8 reg => cases h
  | read16 reg => cases h
  | write8 reg value =>
    simp only [AtaAccess.command, Option.ite_none_right_eq_some, Option.some.injEq] at h
    obtain ⟨rfl, rfl⟩ := h
    rfl
  | write16 reg value =>
    simp only [AtaAccess.command, Option.ite_none_right_eq_some, Option.some.injEq] at h
    obtain ⟨rfl, rfl⟩ := h
    rfl

/-- A packet completed with no packet layer leaves its state behind, and DRQ off. -/
theorem ataWriteData_unheard {ch : AtaIdeChannel} (hstate : ch.state = .atapiCmd) (hlt : ch.atapiPktPos < 12)
    (hpos : 10 ≤ ch.atapiPktPos) (hexec : ch.atapiExec = false) (answers : MediaAnswers) (value : UInt16) :
    InPlace ch (ataWriteData ch answers value) := by
  have hfull := (ataPacketTake_pos ch (value >>> 8).toUInt8 (value &&& 0xFF).toUInt8 hlt).mpr hpos
  obtain ⟨hsame, -, hnone⟩ := ataPacketTake_state ch (value >>> 8).toUInt8 (value &&& 0xFF).toUInt8
  have hout : ¬ ch.state = .dataOut := by rw [hstate]; decide
  unfold ataWriteData
  dsimp only
  rw [if_neg hout, if_pos ⟨hstate, hlt⟩, if_pos hfull, executeAtapiPacket, hnone, hexec]
  exact ⟨hsame, rdyErr_drq⟩

/-- An answer in place puts an open transfer out of phase. -/
theorem InPlace.not_phase {ch ch' : AtaIdeChannel} (h : InPlace ch ch') (hopen : ch.state.transfers = true) :
    ¬ AtaPhase ch' := fun hphase => hphase.drq.mpr (h.state ▸ hopen) h.drq

/-- **The step, the other way.** An access after which the channel is in phase closed what it ended. -/
theorem ataAccess_closes {ch : AtaIdeChannel} (hs : AtaSteady ch) {a : AtaAccess × MediaAnswers}
    (hphase : AtaPhase (ataAccess ch a)) : ClosesTransfers ch a where
  command := fun cmd hcmd hopen => by
    have hends := executeCommand_ends ch a.2 cmd
    rw [ataAccess_command hcmd] at hphase
    cases hplace : answersInPlace ch a.2 cmd with
    | false => rfl
    | true =>
      rw [hplace] at hends
      exact absurd hphase (InPlace.not_phase hends hopen)
  packet := fun hstate hdata hpos => by
    obtain ⟨access, answers⟩ := a
    cases access with
    | read8 reg => exact Bool.noConfusion hdata
    | read16 reg => exact Bool.noConfusion hdata
    | write8 reg value => exact Bool.noConfusion hdata
    | write16 reg value =>
      have hreg : reg = 0 := of_decide_eq_true hdata
      subst hreg
      cases hexec : ch.atapiExec with
      | true => rfl
      | false =>
        have hunheard := ataWriteData_unheard hstate (hs.packet hstate) hpos hexec answers value
        exact absurd hphase (hunheard.not_phase (by rw [hstate]; rfl))

/-! ## Whole runs -/

theorem ataIdeChannel_steady (media : AtaMedia) (buf : Nat → UInt8) : AtaSteady (ataIdeChannel media buf) :=
  ataSteady_idle rfl rdy_drq

/-- **The channel is in phase in every state of a run exactly when every access of it closes what it ends.** -/
theorem ataPhase_iff (media : AtaMedia) (buf : Nat → UInt8) (accesses : List (AtaAccess × MediaAnswers)) :
    (∀ pre, pre <+: accesses → AtaPhase (pre.foldl ataAccess (ataIdeChannel media buf))) ↔
      AlongRun ataAccess ClosesTransfers (ataIdeChannel media buf) accesses := by
  have hstart := ataIdeChannel_steady media buf
  have hsteps := @alongRun_iff _ _ ataAccess (fun ch a => AtaPhase (ataAccess ch a)) ClosesTransfers AtaSteady
    (fun ch a hs => ⟨ataAccess_closes hs, fun hc => (ataAccess_steady hs hc).toAtaPhase⟩)
    (fun ch a hs hc => ataAccess_steady hs hc) accesses (ataIdeChannel media buf) hstart
  rw [forall_prefix_iff, hsteps]
  exact and_iff_right hstart.toAtaPhase

/-- Callbacks that would all succeed. -/
def answersOk : MediaAnswers := ⟨0, fun _ => 0, 0, 0, fun _ => 0, 0, Nat.zero_le _⟩

/-- Sector 0 is to be written, and then a command comes that nobody knows. -/
def writeThenUnknown : List (AtaAccess × MediaAnswers) :=
  [(.write8 2 1, answersOk), (.write8 3 0, answersOk), (.write8 4 0, answersOk), (.write8 5 0, answersOk),
    (.write8 7 0x30, answersOk), (.write8 7 0xFF, answersOk)]

/-- **A WRITE survives the error of the command after it**: the status says ERR and no DRQ, and 256 words at the data port
still reach the disk. -/
theorem ataPhase_unknown :
    ¬ (∀ pre, pre <+: writeThenUnknown →
        AtaPhase (pre.foldl ataAccess (ataIdeChannel ⟨true, true, true, 1⟩ fun _ => 0))) ∧
      (writeThenUnknown.foldl ataAccess (ataIdeChannel ⟨true, true, true, 1⟩ fun _ => 0)).status =
        ataStatusRdy ||| ataStatusErr ∧
      ((writeThenUnknown ++ List.replicate 256 (AtaAccess.write16 0 0x1234, answersOk)).foldl ataAccess
        (ataIdeChannel ⟨true, true, true, 1⟩ fun _ => 0)).diskWrites.length = 1 := by
  refine ⟨fun h => ?_, by decide +kernel, by decide +kernel⟩
  have hphase := h writeThenUnknown (List.prefix_refl _)
  have herror : (writeThenUnknown.foldl ataAccess (ataIdeChannel ⟨true, true, true, 1⟩ fun _ => 0)).state = .idle :=
    hphase.error (by decide +kernel)
  exact absurd herror (by decide +kernel)

end Rigel
