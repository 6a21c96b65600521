import Rigel.AtaRoundTrip
import Rigel.AtapiCdrom

/-!
# CdPackets — a packet, and its answer

On the board the channel and the drive are one. The host gives the PACKET command and six words, with the last of which the
drive answers, and then it takes the answer word by word. Between the command and the end of the answer it may touch the
registers as it likes, and read the port too early or write to it too late: neither is heard.
-/

namespace Rigel

/-! ## The board -/

/-- The channel, its disk, and the drive. -/
structure LideBus (σ : Type*) extends AtaBus σ where
  cd : AtapiCdromState

/-- The packet that an access completes and the channel hands on. -/
def completedPacket (ch : AtaIdeChannel) (a : AtaAccess) : Option (Nat → UInt8) :=
  match a.word with
  | some value =>
    let taken := ataPacketTake ch (value >>> 8).toUInt8 (value &&& 0xFF).toUInt8
    if ch.state = .atapiCmd ∧ ch.atapiPktPos < 12 ∧ taken.atapiPktPos ≥ 12 ∧ ch.atapiExec then some taken.atapiPkt else none
  | none => none

/-- The access is a DEVICE RESET of the drive. -/
def resetsCdrom (ch : AtaIdeChannel) (a : AtaAccess) : Bool :=
  a.command = some ataCmdDeviceReset && ataSelectedSlave ch

section
variable {σ τ : Type*} (disk : DiskCallbacks σ) (ops : AtapiMediaOps τ) (medium : τ) (bootable : Bool)

/-- What the drive does with a packet now. -/
def cdExec (b : LideBus σ) (pkt : Nat → UInt8) : AtapiCdromState × AtapiAnswer :=
  atapiCdromExec ops medium bootable b.cd pkt b.ch.xferBuf ataXferBufSize

/-- The answers of the drive during an access. Those of the disk are the bus's own. -/
def cdAnswers (b : LideBus σ) (a : AtaAccess) : MediaAnswers :=
  let r := cdExec ops medium bootable b ((completedPacket b.ch a).getD b.ch.atapiPkt)
  { readRc := 0
    readBuf := b.ch.xferBuf
    writeRc := 0
    execRc := r.2.rc
    execBuf := r.2.buf
    execLen := r.2.len
    execLen_le := (atapiCdromExec_fits ops medium bootable _ _ _ _).inside }

/-- **One access of the host.** The drive sees the packets that are completed and the resets. -/
def lideAccess (b : LideBus σ) (a : AtaAccess) : LideBus σ where
  toAtaBus := ataBusAccess disk b.toAtaBus (a, cdAnswers ops medium bootable b a)
  cd :=
    match completedPacket b.ch a with
    | some pkt => (cdExec ops medium bootable b pkt).1
    | none => if resetsCdrom b.ch a then atapiCdromReset (ops.present medium) else b.cd

def lideRun (b : LideBus σ) (as : List AtaAccess) : LideBus σ := as.foldl (lideAccess disk ops medium bootable) b

/-- The words that a run reads from the data port. -/
def lideReads (b : LideBus σ) (as : List AtaAccess) : List UInt16 :=
  collectAlong (lideAccess disk ops medium bootable) (fun b a => if a.takes then some (ataIdeRead16 b.ch 0).2 else none) b as

end

/-! ## What an access leaves alone -/

/-- The packet of the channel is as it was. -/
structure SamePacket (ch ch' : AtaIdeChannel) : Prop where
  pkt : ch'.atapiPkt = ch.atapiPkt
  pos : ch'.atapiPktPos = ch.atapiPktPos
  exec : ch'.atapiExec = ch.atapiExec

theorem ataIdeWrite8_packet (ch : AtaIdeChannel) (answers : MediaAnswers) {reg : UInt8} (h : reg ≠ 7) (value : UInt8) :
    SamePacket ch (ataIdeWrite8 ch answers reg value) := by
  unfold ataIdeWrite8
  rw [if_neg h]
  repeat' split
  all_goals exact ⟨rfl, rfl, rfl⟩

/-- **Neither a register nor a word taken touches the packet.** -/
theorem ataAccess_packet (ch : AtaIdeChannel) {a : AtaAccess} (answers : MediaAnswers) (hcommand : a.command = none)
    (hword : a.word = none) : SamePacket ch (ataAccess ch (a, answers)) := by
  cases a with
  | read8 reg => exact ⟨rfl, rfl, rfl⟩
  | read16 reg =>
    simp only [ataAccess, ataIdeRead16, ataReadData, ataReadComplete]
    repeat' split
    all_goals exact ⟨rfl, rfl, rfl⟩
  | write8 reg value =>
    refine ataIdeWrite8_packet ch answers (fun hreg => ?_) value
    simp [AtaAccess.command, hreg] at hcommand
  | write16 reg value =>
    by_cases hreg : reg = 0
    · simp [AtaAccess.word, hreg] at hword
    · have hseven : reg ≠ 7 := by
        intro hreg
        simp [AtaAccess.command, hreg] at hcommand
      simp only [ataAccess, ataIdeWrite16, hreg, ne_eq, not_false_eq_true, if_true]
      exact ataIdeWrite8_packet ch answers hseven _

theorem completedPacket_none {ch : AtaIdeChannel} {a : AtaAccess} (h : ch.state ≠ .atapiCmd ∨ a.word = none) :
    completedPacket ch a = none := by
  unfold completedPacket
  cases hword : a.word with
  | none => rfl
  | some value =>
    have hstate : ch.state ≠ .atapiCmd := h.resolve_right (by rw [hword]; exact Option.some_ne_none value)
    exact if_neg fun hpacket => hstate hpacket.1

theorem resetsCdrom_quiet (ch : AtaIdeChannel) {a : AtaAccess} (hcommand : a.command = none) : resetsCdrom ch a = false := by
  simp [resetsCdrom, hcommand]

section
variable {σ τ : Type*} {disk : DiskCallbacks σ} {ops : AtapiMediaOps τ} {medium : τ} {bootable : Bool} {b : LideBus σ}
  {a : AtaAccess}

/-- **An access that completes no packet and is no command** leaves the drive as it is. -/
theorem lideAccess_cd (hcommand : a.command = none) (hpacket : completedPacket b.ch a = none) :
    (lideAccess disk ops medium bootable b a).cd = b.cd := by
  unfold lideAccess
  simp only [hpacket, resetsCdrom_quiet b.ch hcommand, Bool.false_eq_true, if_false]

/-- Without a call of `disk_write` the disk is as it was. -/
theorem lideAccess_ctx (h : (lideAccess disk ops medium bootable b a).ch.diskWrites = b.ch.diskWrites) :
    (lideAccess disk ops medium bootable b a).ctx = b.ctx := ataBusAccess_ctx h

end

/-! ## Taking the packet -/

section
variable {σ τ : Type*} (ops : AtapiMediaOps τ) (medium : τ) (bootable : Bool) (b₀ : LideBus σ)

/-- Some words of a packet have come, and the drive has not been asked yet. -/
structure PacketTaking (words : List UInt16) (b : LideBus σ) : Prop where
  state : b.ch.state = .atapiCmd
  status : b.ch.status = ataStatusRdy ||| ataStatusDrq
  exec : b.ch.atapiExec = true
  pos : b.ch.atapiPktPos = 2 * words.length
  pkt : ∀ i < 2 * words.length, b.ch.atapiPkt i = wordByte words i
  buf : b.ch.xferBuf = b₀.ch.xferBuf
  ctx : b.ctx = b₀.ctx
  cd : b.cd = b₀.cd

/-- What the drive does with these words. -/
def packetResult (words : List UInt16) : AtapiCdromState × AtapiAnswer := cdExec ops medium bootable b₀ (wordByte words)

end

section
variable {σ : Type*} (ctx : σ) (r : AtapiCdromState × AtapiAnswer)

/-- An answer of which `k` words have been taken and more are there. -/
structure Answering (k : Nat) (b : LideBus σ) : Prop where
  state : b.ch.state = .atapiDataIn
  status : b.ch.status = ataStatusRdy ||| ataStatusDrq
  len : b.ch.xferLen = r.2.len
  pos : b.ch.xferPos = 2 * k
  buf : b.ch.xferBuf = r.2.buf
  ctx : b.ctx = ctx
  cd : b.cd = r.1

/-- The answer has been taken, or there was none. -/
structure Answered (b : LideBus σ) : Prop where
  state : b.ch.state = .idle
  status : b.ch.status = ataStatusRdy ||| (if r.2.rc ≠ 0 then ataStatusErr else 0)
  ctx : b.ctx = ctx
  cd : b.cd = r.1

/-- **The phase of an answer** whose words have been asked for `k` times. -/
def AnswerPhase (k : Nat) (b : LideBus σ) : Prop := if 2 * k < r.2.len then Answering ctx r k b else Answered ctx r b

/-- The word that is taken after `k` others: one of the answer, and then the floating bus. -/
def answerWord (k : Nat) : UInt16 := if 2 * k < r.2.len then wordAt r.2.buf k else 0xFFFF

end

section
variable {σ τ : Type*} {disk : DiskCallbacks σ} {ops : AtapiMediaOps τ} {medium : τ} {bootable : Bool} {b₀ b : LideBus σ}
  {words : List UInt16} {a : AtaAccess}

/-- **PACKET** asks for the words. -/
theorem packetCommand_taking (hexec : b₀.ch.atapiExec = true) (hslave : ataSelectedSlave b₀.ch = true) :
    PacketTaking b₀ [] (lideAccess disk ops medium bootable b₀ (.write8 7 ataCmdPacket)) := by
  have hch : (lideAccess disk ops medium bootable b₀ (.write8 7 ataCmdPacket)).ch =
      { b₀.ch with
        state := .atapiCmd
        atapiPktPos := 0
        status := ataStatusRdy ||| ataStatusDrq
        error := 0
        sectorCount := irCod } := by
    have hcommand : ∀ answers, ataAccess b₀.ch (.write8 7 ataCmdPacket, answers) = executeCommand b₀.ch answers ataCmdPacket :=
      fun _ => rfl
    refine (hcommand _).trans ?_
    unfold executeCommand
    rw [hslave]
    rfl
  have hcd : (lideAccess disk ops medium bootable b₀ (.write8 7 ataCmdPacket)).cd = b₀.cd := rfl
  exact ⟨by rw [hch], by rw [hch], by rw [hch]; exact hexec, by rw [hch]; rfl, fun i hi => absurd hi (Nat.not_lt_zero i),
    by rw [hch], lideAccess_ctx (by rw [hch]), hcd⟩

/-- **An access between the words** changes nothing of that. -/
theorem PacketTaking.other (h : PacketTaking b₀ words b) (hcommand : a.command = none) (hword : a.word = none) :
    PacketTaking b₀ words (lideAccess disk ops medium bootable b a) := by
  have hsends : b.ch.state.sends = false := by rw [h.state]; rfl
  have hs : SameAtaTransfer b.ch (lideAccess disk ops medium bootable b a).ch :=
    ataAccess_transfer _ hcommand (fun hsome => absurd hword hsome) fun _ => hsends
  have hp : SamePacket b.ch (lideAccess disk ops medium bootable b a).ch := ataAccess_packet b.ch _ hcommand hword
  exact ⟨hs.state.trans h.state, hs.status.trans h.status, hp.exec.trans h.exec, hp.pos.trans h.pos, by rw [hp.pkt]; exact h.pkt,
    hs.buf.trans h.buf, (lideAccess_ctx hs.writes).trans h.ctx,
    (lideAccess_cd hcommand (completedPacket_none (.inr hword))).trans h.cd⟩

/-- Two bytes more. -/
theorem ataPacketTake_word {ch : AtaIdeChannel} (hpos : ch.atapiPktPos + 1 < 12) (value : UInt16) :
    ataPacketTake ch (value >>> 8).toUInt8 (value &&& 0xFF).toUInt8 =
      { ch with atapiPkt := storeWord ch.atapiPkt ch.atapiPktPos value, atapiPktPos := ch.atapiPktPos + 2 } := by
  unfold ataPacketTake
  dsimp only
  rw [if_pos hpos]
  rfl

/-- **A word of the packet**, and not the last. -/
theorem PacketTaking.word (h : PacketTaking b₀ words b) (hmore : words.length + 1 < 6) (value : UInt16) :
    PacketTaking b₀ (words ++ [value]) (lideAccess disk ops medium bootable b (.write16 0 value)) := by
  have hpos := h.pos
  have htake := ataPacketTake_word (show b.ch.atapiPktPos + 1 < 12 by omega) value
  have hlength : (words ++ [value]).length = words.length + 1 := by simp
  have hnone : completedPacket b.ch (.write16 0 value) = none := by
    refine if_neg fun hpacket => ?_
    have hfull := hpacket.2.2.1
    rw [htake] at hfull
    simp only at hfull
    omega
  have hch : (lideAccess disk ops medium bootable b (.write16 0 value)).ch =
      ataPacketTake b.ch (value >>> 8).toUInt8 (value &&& 0xFF).toUInt8 := by
    have hdata : ∀ answers, ataAccess b.ch (.write16 0 value, answers) = ataWriteData b.ch answers value := fun _ => rfl
    refine (hdata _).trans ?_
    unfold ataWriteData
    dsimp only
    rw [if_neg (by rw [h.state]; decide), if_pos ⟨h.state, by omega⟩, if_neg (by rw [htake]; simp only; omega)]
  rw [htake] at hch
  refine ⟨by rw [hch]; exact h.state, by rw [hch]; exact h.status, by rw [hch]; exact h.exec, by rw [hch, hlength, hpos]; rfl,
    ?_, by rw [hch]; exact h.buf, (lideAccess_ctx (by rw [hch])).trans h.ctx,
    (lideAccess_cd rfl hnone).trans h.cd⟩
  rw [hch, hpos]
  exact storeWord_wordByte h.pkt value

/-- An answer with data opens a transfer. -/
theorem executeAtapiPacket_data {ch : AtaIdeChannel} {answers : MediaAnswers} (hexec : ch.atapiExec = true)
    (hrc : answers.execRc = 0) (hlen : 0 < answers.execLen) :
    let ch' := executeAtapiPacket ch answers
    ch'.state = .atapiDataIn ∧ ch'.status = ataStatusRdy ||| ataStatusDrq ∧ ch'.xferLen = answers.execLen ∧ ch'.xferPos = 0 ∧
      ch'.xferBuf = answers.execBuf ∧ ch'.diskWrites = ch.diskWrites := by
  unfold executeAtapiPacket
  rw [hexec, if_neg (by decide)]
  dsimp only
  rw [if_neg (fun h => h.elim (absurd hrc) (Nat.ne_of_gt hlen))]
  exact ⟨rfl, rfl, rfl, rfl, rfl, rfl⟩

/-- One without data is a status. -/
theorem executeAtapiPacket_status {ch : AtaIdeChannel} {answers : MediaAnswers} (hexec : ch.atapiExec = true)
    (hlen : answers.execLen = 0) :
    let ch' := executeAtapiPacket ch answers
    ch'.state = .idle ∧ ch'.status = ataStatusRdy ||| (if answers.execRc ≠ 0 then ataStatusErr else 0) ∧
      ch'.diskWrites = ch.diskWrites := by
  unfold executeAtapiPacket
  rw [hexec, if_neg (by decide)]
  dsimp only
  rw [if_pos (.inr hlen)]
  exact ⟨rfl, rfl, rfl⟩

theorem cdExec_fits (pkt : Nat → UInt8) : (cdExec ops medium bootable b pkt).2.Fits ataXferBufSize :=
  atapiCdromExec_fits ops medium bootable b.cd pkt b.ch.xferBuf ataXferBufSize

/-- **The last word.** The drive is asked, and the answer begins. -/
theorem PacketTaking.last (h : PacketTaking b₀ words b) (hlast : words.length + 1 = 6) (value : UInt16) :
    AnswerPhase b₀.ctx (packetResult ops medium bootable b₀ (words ++ [value])) 0
      (lideAccess disk ops medium bootable b (.write16 0 value)) := by
  have hpos := h.pos
  have htake := ataPacketTake_word (show b.ch.atapiPktPos + 1 < 12 by omega) value
  have hfull : (ataPacketTake b.ch (value >>> 8).toUInt8 (value &&& 0xFF).toUInt8).atapiPktPos ≥ 12 := by
    rw [htake]
    simp only
    omega
  have hexec : (ataPacketTake b.ch (value >>> 8).toUInt8 (value &&& 0xFF).toUInt8).atapiExec = true := by
    rw [htake]
    exact h.exec
  have hwrites : (ataPacketTake b.ch (value >>> 8).toUInt8 (value &&& 0xFF).toUInt8).diskWrites = b.ch.diskWrites := by
    rw [htake]
  have hpacket : completedPacket b.ch (.write16 0 value) = some (storeWord b.ch.atapiPkt b.ch.atapiPktPos value) := by
    have htaken : (ataPacketTake b.ch (value >>> 8).toUInt8 (value &&& 0xFF).toUInt8).atapiPkt =
        storeWord b.ch.atapiPkt b.ch.atapiPktPos value := by rw [htake]
    rw [← htaken]
    exact if_pos ⟨h.state, by omega, hfull, h.exec⟩
  have hresult : cdExec ops medium bootable b (storeWord b.ch.atapiPkt b.ch.atapiPktPos value) =
      packetResult ops medium bootable b₀ (words ++ [value]) := by
    unfold packetResult cdExec
    rw [h.cd, h.buf, hpos]
    refine atapiCdromExec_packet ops medium bootable _ _ _ fun i hi => ?_
    refine storeWord_wordByte h.pkt value i ?_
    rw [List.length_append, List.length_singleton]
    omega
  have hcd : (lideAccess disk ops medium bootable b (.write16 0 value)).cd =
      (packetResult ops medium bootable b₀ (words ++ [value])).1 := by
    rw [← hresult]
    unfold lideAccess
    simp only [hpacket]
  have hch : ∃ answers : MediaAnswers,
      (lideAccess disk ops medium bootable b (.write16 0 value)).ch =
        executeAtapiPacket (ataPacketTake b.ch (value >>> 8).toUInt8 (value &&& 0xFF).toUInt8) answers ∧
      answers.execRc = (packetResult ops medium bootable b₀ (words ++ [value])).2.rc ∧
      answers.execBuf = (packetResult ops medium bootable b₀ (words ++ [value])).2.buf ∧
      answers.execLen = (packetResult ops medium bootable b₀ (words ++ [value])).2.len := by
    rw [← hresult]
    refine ⟨ataAnswers disk b.toAtaBus (.write16 0 value, cdAnswers ops medium bootable b (.write16 0 value)), ?_, ?_, ?_, ?_⟩
    · have hdata : ∀ answers, ataAccess b.ch (.write16 0 value, answers) = ataWriteData b.ch answers value := fun _ => rfl
      refine (hdata _).trans ?_
      unfold ataWriteData
      dsimp only
      rw [if_neg (by rw [h.state]; decide), if_pos ⟨h.state, by omega⟩, if_pos hfull]
    all_goals
      unfold ataAnswers cdAnswers
      simp only [hpacket, Option.getD_some]
  obtain ⟨answers, hch, hrc, hbuf, hlen⟩ := hch
  have hfits : (packetResult ops medium bootable b₀ (words ++ [value])).2.Fits ataXferBufSize := cdExec_fits _
  unfold AnswerPhase
  by_cases hdata : 2 * 0 < (packetResult ops medium bootable b₀ (words ++ [value])).2.len
  · have hok : (packetResult ops medium bootable b₀ (words ++ [value])).2.rc = 0 := by
      by_contra hne
      have hzero := hfits.failed hne
      omega
    obtain ⟨hstate, hstatus, hlen', hpos', hbuf', hsame⟩ :=
      executeAtapiPacket_data hexec (hrc.trans hok) (by omega : 0 < answers.execLen)
    rw [if_pos hdata]
    exact ⟨by rw [hch]; exact hstate, by rw [hch]; exact hstatus, by rw [hch]; exact hlen'.trans hlen, by rw [hch]; exact hpos',
      by rw [hch]; exact hbuf'.trans hbuf, (lideAccess_ctx (by rw [hch]; exact hsame.trans hwrites)).trans h.ctx, hcd⟩
  · obtain ⟨hstate, hstatus, hsame⟩ := executeAtapiPacket_status hexec (show answers.execLen = 0 by omega)
    rw [if_neg hdata]
    exact ⟨by rw [hch]; exact hstate, by rw [hch, ← hrc]; exact hstatus,
      (lideAccess_ctx (by rw [hch]; exact hsame.trans hwrites)).trans h.ctx, hcd⟩

/-! ## Taking the answer -/

variable {ctx : σ} {r : AtapiCdromState × AtapiAnswer} {k : Nat}

theorem Answering.other (h : Answering ctx r k b) (hcommand : a.command = none) (htakes : a.takes = false) :
    Answering ctx r k (lideAccess disk ops medium bootable b a) := by
  have hs : SameAtaTransfer b.ch (lideAccess disk ops medium bootable b a).ch :=
    ataAccess_transfer _ hcommand (fun _ => by rw [h.state]; decide) fun htrue => by simp [htrue] at htakes
  have hnone : completedPacket b.ch a = none := completedPacket_none (.inl (by rw [h.state]; decide))
  exact ⟨hs.state.trans h.state, hs.status.trans h.status, hs.len.trans h.len, hs.pos.trans h.pos, hs.buf.trans h.buf,
    (lideAccess_ctx hs.writes).trans h.ctx, (lideAccess_cd hcommand hnone).trans h.cd⟩

theorem Answered.other (h : Answered ctx r b) (hcommand : a.command = none) :
    Answered ctx r (lideAccess disk ops medium bootable b a) := by
  have hs : SameAtaTransfer b.ch (lideAccess disk ops medium bootable b a).ch := ataAccess_idle h.state _ hcommand
  have hnone : completedPacket b.ch a = none := completedPacket_none (.inl (by rw [h.state]; decide))
  exact ⟨hs.state.trans h.state, hs.status.trans h.status, (lideAccess_ctx hs.writes).trans h.ctx,
    (lideAccess_cd hcommand hnone).trans h.cd⟩

theorem AtaAccess.eq_of_takes {a : AtaAccess} (h : a.takes = true) : a = .read16 0 := by
  cases a with
  | read16 reg => rw [show reg = 0 by simpa [AtaAccess.takes] using h]
  | _ => simp [AtaAccess.takes] at h

/-- **A word of the answer**, and the end after the last. -/
theorem Answering.take (hfits : r.2.Fits ataXferBufSize) (hmore : 2 * k < r.2.len) (h : Answering ctx r k b) :
    AnswerPhase ctx r (k + 1) (lideAccess disk ops medium bootable b (.read16 0)) ∧
      (ataIdeRead16 b.ch 0).2 = answerWord r k := by
  have hlen := h.len
  have hpos := h.pos
  have heven := hfits.even
  have hsends : b.ch.state.sends = true := by rw [h.state]; rfl
  have hread : ataIdeRead16 b.ch 0 = ataReadData b.ch := rfl
  have hch : (lideAccess disk ops medium bootable b (.read16 0)).ch = (ataReadData b.ch).1 := rfl
  have hnone : completedPacket b.ch (.read16 0) = none := completedPacket_none (.inr rfl)
  have hcd : (lideAccess disk ops medium bootable b (.read16 0)).cd = r.1 := (lideAccess_cd rfl hnone).trans h.cd
  have hword : (b.ch.xferBuf b.ch.xferPos).toUInt16 <<< 8 ||| (b.ch.xferBuf (b.ch.xferPos + 1)).toUInt16 = answerWord r k := by
    rw [answerWord, if_pos hmore, hpos, h.buf]
    rfl
  rw [hread, AnswerPhase]
  by_cases hlast : 2 * (k + 1) < r.2.len
  · have hdata := ataReadData_more hsends (by omega)
    rw [hdata] at hch ⊢
    rw [if_pos hlast]
    exact ⟨⟨by rw [hch]; exact h.state, by rw [hch]; exact h.status, by rw [hch]; exact h.len, by rw [hch, Nat.mul_add, ← hpos],
      by rw [hch]; exact h.buf, (lideAccess_ctx (by rw [hch])).trans h.ctx, hcd⟩, hword⟩
  · have hdata := ataReadData_last hsends (by omega)
    have hok : r.2.rc = 0 := by
      by_contra hne
      have hzero := hfits.failed hne
      omega
    rw [hdata] at hch ⊢
    rw [if_neg hlast]
    exact ⟨⟨by rw [hch]; rfl, by rw [hch, hok]; rfl, (lideAccess_ctx (by rw [hch]; rfl)).trans h.ctx, hcd⟩, hword⟩

/-- **Every access while the answer is taken**, but a command, and the word that it takes. -/
theorem AnswerPhase.access (hfits : r.2.Fits ataXferBufSize) (h : AnswerPhase ctx r k b) (hcommand : a.command = none) :
    AnswerPhase ctx r (if a.takes then k + 1 else k) (lideAccess disk ops medium bootable b a) ∧
      (a.takes = true → (ataIdeRead16 b.ch 0).2 = answerWord r k) := by
  by_cases hmore : 2 * k < r.2.len
  · rw [AnswerPhase, if_pos hmore] at h
    cases htakes : a.takes with
    | true =>
      rw [AtaAccess.eq_of_takes htakes, if_pos rfl]
      exact (h.take hfits hmore).imp_right fun hword _ => hword
    | false =>
      rw [if_neg (by decide), AnswerPhase, if_pos hmore]
      exact ⟨h.other hcommand htakes, fun htrue => absurd htrue (by decide)⟩
  · rw [AnswerPhase, if_neg hmore] at h
    have hover : ¬ 2 * (if a.takes then k + 1 else k) < r.2.len := by
      split <;> omega
    rw [AnswerPhase, if_neg hover]
    refine ⟨h.other hcommand, fun _ => ?_⟩
    rw [(idle_deaf h.state).1, answerWord, if_neg hmore]

/-! ## Runs -/

/-- **The words of a packet, among other accesses.** -/
theorem PacketTaking.run : ∀ {as : List AtaAccess} {words : List UInt16} {b : LideBus σ}, PacketTaking b₀ words b →
    (∀ a ∈ as, a.command = none) → (words ++ as.filterMap AtaAccess.word).length < 6 →
      PacketTaking b₀ (words ++ as.filterMap AtaAccess.word) (lideRun disk ops medium bootable b as) ∧
        lideReads disk ops medium bootable b as = List.replicate (as.countP AtaAccess.takes) 0xFFFF
  | [], words, b, h, _, _ => by
    rw [List.filterMap_nil, List.append_nil]
    exact ⟨h, rfl⟩
  | a :: as, words, b, h, hquiet, hlength => by
    obtain ⟨hcommand, hrest⟩ := List.forall_mem_cons.mp hquiet
    have hcollect : lideReads disk ops medium bootable b (a :: as) =
        (if a.takes then some (ataIdeRead16 b.ch 0).2 else none).toList ++
          lideReads disk ops medium bootable (lideAccess disk ops medium bootable b a) as := rfl
    have hdeaf : (ataIdeRead16 b.ch 0).2 = 0xFFFF := by
      have hread : ataIdeRead16 b.ch 0 = ataReadData b.ch := rfl
      rw [hread, ataReadData, if_neg (by rw [h.state]; simp [AtaRegState.sends])]
    rw [hcollect, hdeaf, List.countP_cons]
    cases hword : a.word with
    | some value =>
      have ha := AtaAccess.eq_of_word hword
      subst ha
      rw [List.filterMap_cons_some hword] at hlength ⊢
      rw [List.append_cons] at hlength ⊢
      have hmore : words.length + 1 < 6 := by
        simp only [List.length_append, List.length_singleton] at hlength
        omega
      obtain ⟨hphase, hreads⟩ := (h.word hmore value).run hrest hlength
      exact ⟨hphase, by rw [hreads]; rfl⟩
    | none =>
      rw [List.filterMap_cons_none hword] at hlength ⊢
      obtain ⟨hphase, hreads⟩ := (h.other hcommand hword).run hrest hlength
      refine ⟨hphase, ?_⟩
      rw [hreads]
      cases a.takes with
      | true => exact (List.replicate_succ).symm
      | false => rfl

/-- **An answer after any run of accesses**, and the words that the run has taken. -/
theorem AnswerPhase.run (hfits : r.2.Fits ataXferBufSize) : ∀ {as : List AtaAccess} {k : Nat} {b : LideBus σ},
    AnswerPhase ctx r k b → (∀ a ∈ as, a.command = none) →
      AnswerPhase ctx r (k + as.countP AtaAccess.takes) (lideRun disk ops medium bootable b as) ∧
        lideReads disk ops medium bootable b as = (List.range' k (as.countP AtaAccess.takes)).map (answerWord r)
  | [], _, _, h, _ => ⟨h, rfl⟩
  | a :: as, k, b, h, hquiet => by
    obtain ⟨hcommand, hrest⟩ := List.forall_mem_cons.mp hquiet
    obtain ⟨hnext, hword⟩ : AnswerPhase ctx r (if a.takes then k + 1 else k) (lideAccess disk ops medium bootable b a) ∧
        (a.takes = true → (ataIdeRead16 b.ch 0).2 = answerWord r k) := h.access hfits hcommand
    obtain ⟨hphase, hwords⟩ := hnext.run hfits hrest
    have hcollect : lideReads disk ops medium bootable b (a :: as) =
        (if a.takes then some (ataIdeRead16 b.ch 0).2 else none).toList ++
          lideReads disk ops medium bootable (lideAccess disk ops medium bootable b a) as := rfl
    rw [hcollect, hwords, List.countP_cons]
    cases htakes : a.takes with
    | true =>
      simp only [htakes, if_true] at hphase hword ⊢
      rw [hword trivial, List.range'_succ, Nat.add_comm _ 1, ← Nat.add_assoc]
      exact ⟨hphase, rfl⟩
    | false =>
      simp only [htakes, Bool.false_eq_true, if_false] at hphase ⊢
      exact ⟨hphase, rfl⟩

/-! ## The whole exchange -/

/-- A PACKET command and its words, among other accesses; the last word comes last. -/
def packetRun (ws : List AtaAccess) (last : UInt16) : List AtaAccess := .write8 7 ataCmdPacket :: (ws ++ [.write16 0 last])

section
variable (hexec : b.ch.atapiExec = true) (hslave : ataSelectedSlave b.ch = true) {ws : List AtaAccess}
  (hws : ∀ a ∈ ws, a.command = none) (hwords : (ws.filterMap AtaAccess.word).length = 5) (last : UInt16)
include hexec hslave hws hwords

omit hslave hexec in
/-- Five words have been sent. -/
theorem packetWords_taking (h : PacketTaking b [] (lideAccess disk ops medium bootable b (.write8 7 ataCmdPacket))) :
    let b₁ := lideAccess disk ops medium bootable b (.write8 7 ataCmdPacket)
    PacketTaking b (ws.filterMap AtaAccess.word) (lideRun disk ops medium bootable b₁ ws) ∧
      lideReads disk ops medium bootable b₁ ws = List.replicate (ws.countP AtaAccess.takes) 0xFFFF :=
  h.run hws (by rw [List.nil_append, hwords]; decide)

/-- **The packet has been sent**, and the answer begins. -/
theorem packetRun_phase : AnswerPhase b.ctx (packetResult ops medium bootable b (ws.filterMap AtaAccess.word ++ [last])) 0
    (lideRun disk ops medium bootable b (packetRun ws last)) := by
  have hrun : lideRun disk ops medium bootable b (packetRun ws last) = lideAccess disk ops medium bootable
      (lideRun disk ops medium bootable (lideAccess disk ops medium bootable b (.write8 7 ataCmdPacket)) ws)
      (.write16 0 last) := by
    unfold lideRun packetRun
    rw [List.foldl_cons, List.foldl_append]
    rfl
  rw [hrun]
  exact (packetWords_taking hws hwords (packetCommand_taking hexec hslave)).1.last (by rw [hwords]) last

/-- What the host reads while it sends is the floating bus. -/
theorem packetRun_reads : lideReads disk ops medium bootable b (packetRun ws last) =
    List.replicate (ws.countP AtaAccess.takes) 0xFFFF := by
  have hreads : lideReads disk ops medium bootable (lideAccess disk ops medium bootable b (.write8 7 ataCmdPacket)) ws =
      List.replicate (ws.countP AtaAccess.takes) 0xFFFF :=
    (packetWords_taking hws hwords (packetCommand_taking hexec hslave)).2
  have hcollect : lideReads disk ops medium bootable b (packetRun ws last) =
      lideReads disk ops medium bootable (lideAccess disk ops medium bootable b (.write8 7 ataCmdPacket))
        (ws ++ [.write16 0 last]) := rfl
  unfold lideReads at hcollect hreads ⊢
  rw [hcollect, collectAlong_concat, hreads]
  exact List.append_nil _

variable (disk ops medium bootable) in
/-- **Every packet is answered.** The host sends a packet of six words and then reads; among these it may do with the
registers what it likes. It reads the answer of the drive from the first word on, with DRQ set for just as long, and then the
floating bus; ERR says that the packet has failed; and the disk beside the drive is as it was. -/
theorem packet_answered {rs : List AtaAccess} (hrs : ∀ a ∈ rs, a.command = none) :
    let r := packetResult ops medium bootable b (ws.filterMap AtaAccess.word ++ [last])
    let b₁ := lideRun disk ops medium bootable b (packetRun ws last)
    lideReads disk ops medium bootable b (packetRun ws last) = List.replicate (ws.countP AtaAccess.takes) 0xFFFF ∧
      lideReads disk ops medium bootable b₁ rs = (List.range' 0 (rs.countP AtaAccess.takes)).map (answerWord r) ∧
      ∀ pre, pre <+: rs → let b₂ := lideRun disk ops medium bootable b₁ pre
        b₂.cd = r.1 ∧ b₂.ctx = b.ctx ∧ (dataRequested b₂.ch ↔ 2 * pre.countP AtaAccess.takes < r.2.len) ∧
          (b₂.ch.state = .idle ↔ r.2.len ≤ 2 * pre.countP AtaAccess.takes) ∧
          (ataIdeRead8 b₂.ch 7 &&& ataStatusErr ≠ 0 ↔ r.2.rc ≠ 0) := by
  intro r b₁
  have hphase : AnswerPhase b.ctx r 0 b₁ := packetRun_phase hexec hslave hws hwords last
  have hfits : r.2.Fits ataXferBufSize := cdExec_fits _
  refine ⟨packetRun_reads hexec hslave hws hwords last, (hphase.run hfits hrs).2, fun pre hpre => ?_⟩
  intro b₂
  have hnow : AnswerPhase b.ctx r (pre.countP AtaAccess.takes) b₂ := by
    rw [← Nat.zero_add (pre.countP _)]
    exact (hphase.run hfits fun a ha => hrs a (hpre.subset ha)).1
  have hstatus : ataIdeRead8 b₂.ch 7 = b₂.ch.status := rfl
  rw [dataRequested, hstatus]
  unfold AnswerPhase at hnow
  split at hnow
  · rename_i hmore
    have hok : r.2.rc = 0 := by
      by_contra hne
      have hzero := hfits.failed hne
      omega
    refine ⟨hnow.cd, hnow.ctx, iff_of_true ?_ hmore, iff_of_false ?_ (Nat.not_le.mpr hmore), iff_of_false ?_ (not_not.mpr hok)⟩
    · rw [hnow.status]
      decide
    · rw [hnow.state]
      decide
    · rw [hnow.status]
      decide
  · rename_i hdone
    refine ⟨hnow.cd, hnow.ctx, iff_of_false ?_ hdone, iff_of_true hnow.state (Nat.le_of_not_lt hdone), ?_⟩
    · rw [hnow.status]
      split <;> decide
    · rw [hnow.status]
      by_cases hrc : r.2.rc = 0
      · rw [if_neg (not_not.mpr hrc)]
        exact iff_of_false (by decide) (not_not.mpr hrc)
      · rw [if_pos hrc]
        exact iff_of_true (by decide) hrc

end

end

/-- A drive without a disc. -/
def noDisc : MediaFile := ⟨fun _ => 0, 0, 0, false⟩

/-- A board with that drive, which is selected. -/
def emptyDrive : LideBus MediaFile :=
  ⟨⟨{ ataIdeChannelInit (fun _ => 0) with atapiExec := true, devHead := 0x10 }, noDisc⟩, atapiCdromInit⟩

/-- The words of an INQUIRY but the last, and an attempt to read the answer among them. -/
def inquiryWords : List AtaAccess :=
  [.write16 0 0x1200, .write16 0 0, .read16 0, .write16 0 0x2400, .write16 0 0, .write16 0 0]

/-- Its answer: a CD-ROM drive, removable, and the names. -/
theorem emptyDrive_inquiry : lideReads (hdfDisk 0).toDiskCallbacks isoOps noDisc false
      (lideRun (hdfDisk 0).toDiskCallbacks isoOps noDisc false emptyDrive (packetRun inquiryWords 0))
      (List.replicate 19 (.read16 0)) =
    [0x0580, 0x0232, 0x1F00, 0x0000, 0x4245, 0x4C4C, 0x4120, 0x2020, 0x5649, 0x5254, 0x5541, 0x4C20, 0x4344, 0x524F, 0x4D20,
      0x2020, 0x312E, 0x3030, 0xFFFF] := by
  have hrs : ∀ a ∈ List.replicate 19 (AtaAccess.read16 0), a.command = none := by decide
  have hws : ∀ a ∈ inquiryWords, a.command = none := by decide
  have hanswered := packet_answered (hdfDisk 0).toDiskCallbacks isoOps noDisc false (show emptyDrive.ch.atapiExec = true from rfl)
    (by decide) hws (by decide) 0 hrs
  refine hanswered.2.1.trans ?_
  decide +kernel

end Rigel
