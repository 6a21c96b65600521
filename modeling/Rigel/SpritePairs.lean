import Rigel.BusQuery
import Rigel.IrqFlow
import Rigel.LineRun

/-!
# SpritePairs — the two slots of a sprite on a line

A sprite fetches its words in pairs: the A-slot latches the first, the B-slot two clocks later fetches the second and
hands both to Denise. Each slot is arbitrated on its own, and nothing remembers in the B-slot whether the A-slot was
served. A run is watched here with a record of the last A-slot beside it; as long as an active disk transfer and the
bitplane fetch take both slots of a pair or none, the pointer stays in step with the pairs.
-/

namespace Rigel

/-! ## One clock -/

/-- The slot goes to an active disk transfer or to the bitplane fetch. -/
def slotStolen (ctx : RigelContext) : Bool := diskWantsSlot ctx || liveEntry ctx == .bitplane

/-- The channel fetches on this line: it has not seen its end, and is not waiting for its first line. -/
def spriteActive (ch : SpriteDmaChannel) (vpos : UInt16) : Bool := !(ch.terminated || (ch.armed && vpos < ch.vstart))

/-- The clock's slot is given to the sprite and the channel fetches a word in it. -/
def spriteServed (sp : Fin 8) (ctx : RigelContext) : Bool :=
  dispatchedOwner ctx == .sprite sp && spriteActive (ctx.agnus.spriteDma.sp sp) ctx.agnus.beam.vpos

theorem dispatchedSprite_iff {ctx : RigelContext} (h : AgnusOk ctx.agnus) (sp : Fin 8) :
    dispatchedOwner ctx = .sprite sp ↔ slotEntry ctx = .sprite sp :=
  dispatchedOwner_iff h SlotOwner.noConfusion SlotOwner.noConfusion SlotOwner.noConfusion

/-- A sprite is dispatched on its own two slots only. -/
theorem dispatched_sprite_slot {ctx : RigelContext} (h : AgnusOk ctx.agnus) {sp : Fin 8}
    (hd : dispatchedOwner ctx = .sprite sp) :
    ctx.agnus.beam.hpos.toNat = spriteSlotA sp ∨ ctx.agnus.beam.hpos.toNat = spriteSlotB sp := by
  have he := (dispatchedSprite_iff h sp).mp hd
  unfold slotEntry at he
  split at he
  · cases he
  · have hpos := buildSlotTables_sprite he
    rwa [hposSlot h] at hpos

/-- On its slots, with sprite DMA on, the sprite is dispatched unless the slot is stolen. -/
theorem dispatched_sprite_iff {ctx : RigelContext} (h : AgnusOk ctx.agnus)
    (hon : dmaconSprenOn ctx.agnus.dma.dmacon = true) {sp : Fin 8}
    (hpos : ctx.agnus.beam.hpos.toNat = spriteSlotA sp ∨ ctx.agnus.beam.hpos.toNat = spriteSlotB sp) :
    dispatchedOwner ctx = .sprite sp ↔ slotStolen ctx = false := by
  have hentry : liveEntry ctx = .sprite sp ∨ liveEntry ctx = .bitplane := by
    refine buildSlotTables_spriteSlot hon _ _ ?_
    rw [hposSlot h]
    exact hpos
  have hiff : slotEntry ctx = .sprite sp ↔ slotStolen ctx = false := by
    unfold slotEntry slotStolen
    cases diskWantsSlot ctx with
    | true => simp
    | false => rcases hentry with e | e <;> simp [e]
  exact (dispatchedSprite_iff h sp).trans hiff

/-- The channels after the slot of a clock. -/
def spritesAfterSlot (ctx : RigelContext) : SpriteDmaState :=
  match dispatchedOwner ctx with
  | .sprite sp =>
    (spriteDmaSlot ctx.agnus.spriteDma sp.val ctx.agnus.beam.vpos (ctx.agnus.beam.hpos &&& 2 != 0) ctx.ram).1
  | _ => ctx.agnus.spriteDma

/-- No copper MOVE of this clock writes a sprite pointer. -/
def NoSpriteMove (ctx : RigelContext) : Prop := ∀ addr value, clockWrite ctx = some (addr, value) → isSprptReg addr = false

theorem agnusAfterWrite_sprites {addr : UInt32} (h : isSprptReg addr = false) (a : RigelAgnus) (value : UInt16) :
    (agnusAfterWrite a addr value).spriteDma = a.spriteDma := by
  have hpointers : (agnusWritePointers a addr value).spriteDma = a.spriteDma := by simp [agnusWritePointers, h]
  unfold agnusAfterWrite agnusAfterMmio agnusFollowDenise
  repeat' split
  all_goals first | rfl | exact hpointers

theorem copperService_sprites {ctx : RigelContext}
    (h : ∀ addr value, copperServiceWrite ctx = some (addr, value) → isSprptReg addr = false) :
    (rigelCopperServiceStepProgram ctx).agnus.spriteDma = ctx.agnus.spriteDma := by
  rcases copperService_write ctx with ⟨-, c, hc⟩ | ⟨reg, value, c, c', hw, -, hc⟩
  · rw [hc]
    rfl
  · rw [hc]
    show (customRegsWrite16 (copperWriting ctx c) reg value).agnus.spriteDma = ctx.agnus.spriteDma
    rw [customRegsWrite16_agnus, agnusAfterWrite_sprites (h reg value hw)]
    rfl

theorem schedulerDispatch_sprites {ctx : RigelContext} (hmove : NoSpriteMove ctx) :
    (schedulerDispatch (schedulerPrepare ctx)).agnus.spriteDma = spritesAfterSlot ctx := by
  have hready := slotReady ctx
  have hsp := hready.spriteDma
  have hbeam := hready.beam
  have hram := hready.ram
  have hpos := (schedulerPrepare_inputs ctx).2
  unfold schedulerDispatch spritesAfterSlot dispatchedOwner
  rw [hpos]
  cases howner : slotOwner (schedulerPrepare ctx) with
  | sprite sp =>
    simp only [dispatchSlot, spriteSlot]
    rw [hsp, hbeam, hram]
  | disk =>
    simp only [dispatchSlot, diskSlot, raiseIrqSources_agnus]
    exact hsp
  | blitter =>
    simp only [dispatchSlot, blitterSlot, raiseIrqSources_agnus]
    exact hsp
  | bitplane =>
    simp only [dispatchSlot, bitplaneSlot]
    split
    · exact hsp
    · exact hsp
  | copper =>
    exact (copperService_sprites fun addr value hw => copperWrite_of_clock howner hmove hw).trans hsp
  | _ => exact hsp

/-- The sprites of both chips after a clock: those of the dispatch, and a restart when the beam arrives at VERTB. -/
theorem clock_restart (ctx : RigelContext) :
    (agnusSlotSchedulerStep ctx).agnus.spriteDma =
        (if agnusIsVertbPosition (agnusSlotSchedulerStep ctx).agnus.beam.hpos (agnusSlotSchedulerStep ctx).agnus.beam.vpos
          then spriteDmaFrameStart (schedulerDispatch (schedulerPrepare ctx)).agnus.spriteDma
          else (schedulerDispatch (schedulerPrepare ctx)).agnus.spriteDma) ∧
      (agnusSlotSchedulerStep ctx).denise.sprites =
        (if agnusIsVertbPosition (agnusSlotSchedulerStep ctx).agnus.beam.hpos (agnusSlotSchedulerStep ctx).agnus.beam.vpos
          then deniseSpritesReset else (schedulerDispatch (schedulerPrepare ctx)).denise.sprites) := by
  have hbeam : (agnusSlotSchedulerStep ctx).agnus.beam =
      (schedulerMoveBeam (schedulerDispatch (schedulerPrepare ctx))).agnus.beam := schedulerAdvance_beam _
  rw [hbeam]
  generalize hd : schedulerDispatch (schedulerPrepare ctx) = d
  have hline := lineStarted (schedulerMoveBeam d)
  have hden : (schedulerAtLineStart (schedulerMoveBeam d)).denise.sprites = d.denise.sprites := by
    rw [hline.denise]
    rfl
  have hstep : agnusSlotSchedulerStep ctx = schedulerAdvance d := by
    rw [← hd]
    rfl
  rw [hstep]
  unfold schedulerAdvance schedulerAtVertb
  rw [hline.beam]
  split
  · exact ⟨congrArg spriteDmaFrameStart hline.spriteDma, rfl⟩
  · exact ⟨hline.spriteDma, hden⟩

/-- **The channels after a clock**: the slot, and the restart when the beam arrives at VERTB. -/
theorem clock_sprites {ctx : RigelContext} (hmove : NoSpriteMove ctx) :
    (agnusSlotSchedulerStep ctx).agnus.spriteDma =
      if agnusIsVertbPosition (agnusSlotSchedulerStep ctx).agnus.beam.hpos (agnusSlotSchedulerStep ctx).agnus.beam.vpos
      then spriteDmaFrameStart (spritesAfterSlot ctx) else spritesAfterSlot ctx := by
  rw [(clock_restart ctx).1, schedulerDispatch_sprites hmove]

/-! ## One channel -/

/-- The pointer is a whole number of pairs past the base. -/
def SpriteAligned (ch : SpriteDmaChannel) : Prop := ∃ k : UInt32, ch.ptr = ch.basePtr + 4 * k

theorem spriteSlotB_ptr (ch : SpriteDmaChannel) (mem : ChipRam) :
    (spriteDmaSlotB ch mem).1.ptr = ch.ptr + 2 ∧ (spriteDmaSlotB ch mem).1.basePtr = ch.basePtr := by
  unfold spriteDmaSlotB
  simp only
  repeat' split
  all_goals exact ⟨rfl, rfl⟩

/-- A pair that a B-slot delivers is the latched word and the word under the pointer. -/
theorem spriteSlotB_pair {ch : SpriteDmaChannel} {mem : ChipRam} {w0 w1 : UInt16} {ctrl : Bool}
    (h : (spriteDmaSlotB ch mem).2 = some (w0, w1, ctrl)) : w0 = ch.w0 ∧ w1 = chipRamRead16 mem ch.ptr := by
  unfold spriteDmaSlotB at h
  simp only at h
  split at h
  · split at h
    · cases h
    · cases h
      exact ⟨rfl, rfl⟩
  · cases h
    exact ⟨rfl, rfl⟩

theorem spriteDmaSlot_pair {s : SpriteDmaState} {sp : Fin 8} {vpos : UInt16} {isB : Bool} {mem : ChipRam}
    {r : UInt16 × UInt16 × Bool} (h : (spriteDmaSlot s sp.val vpos isB mem).2 = some r) :
    spriteActive (s.sp sp) vpos = true ∧ isB = true ∧ (spriteDmaSlotB (s.sp sp) mem).2 = some r := by
  have hsp : ¬ sp.val ≥ spriteDmaChannels := Nat.not_le.mpr sp.isLt
  unfold spriteDmaSlot at h
  rw [if_neg hsp] at h
  unfold spriteActive
  cases hidle : (s.sp sp).terminated || ((s.sp sp).armed && decide (vpos < (s.sp sp).vstart)) with
  | true =>
    simp only [hidle, if_true] at h
    cases h
  | false =>
    cases isB with
    | true =>
      simp only [hidle, Bool.false_eq_true, if_false, if_true] at h
      exact ⟨rfl, rfl, h⟩
    | false =>
      simp only [hidle, Bool.false_eq_true, if_false] at h
      cases h

theorem isB_of_slotA {hpos : UInt16} {sp : Fin 8} (h : hpos.toNat = spriteSlotA sp) : (hpos &&& 2 != 0) = false := by
  have hall : ∀ sp : Fin 8, (UInt16.ofNat (spriteSlotA sp) &&& 2 != 0) = false := by decide
  rw [← UInt16.ofNat_toNat (x := hpos), h]
  exact hall sp

theorem isB_of_slotB {hpos : UInt16} {sp : Fin 8} (h : hpos.toNat = spriteSlotB sp) : (hpos &&& 2 != 0) = true := by
  have hall : ∀ sp : Fin 8, (UInt16.ofNat (spriteSlotB sp) &&& 2 != 0) = true := by decide
  rw [← UInt16.ofNat_toNat (x := hpos), h]
  exact hall sp

theorem spriteDmaSlot_own (s : SpriteDmaState) (sp : Fin 8) (vpos : UInt16) (isB : Bool) (mem : ChipRam) :
    (spriteDmaSlot s sp.val vpos isB mem).1.sp sp =
      if spriteActive (s.sp sp) vpos then
        (if isB then (spriteDmaSlotB (s.sp sp) mem).1 else spriteDmaSlotA (s.sp sp) vpos mem)
      else s.sp sp := by
  have hsp : ¬ sp.val ≥ spriteDmaChannels := Nat.not_le.mpr sp.isLt
  unfold spriteDmaSlot spriteActive
  rw [if_neg hsp]
  cases (s.sp sp).terminated || ((s.sp sp).armed && decide (vpos < (s.sp sp).vstart)) with
  | true => rfl
  | false =>
    cases isB with
    | true => simp
    | false => simp

theorem spriteDmaSlot_other (s : SpriteDmaState) {sp sp' : Fin 8} (h : sp ≠ sp') (vpos : UInt16) (isB : Bool)
    (mem : ChipRam) : (spriteDmaSlot s sp'.val vpos isB mem).1.sp sp = s.sp sp := by
  have hne : sp.val ≠ sp'.val := fun e => h (Fin.ext e)
  unfold spriteDmaSlot
  repeat' split
  all_goals first
    | rfl
    | exact Function.update_of_ne hne _ _

/-- The channel after the slot of a clock: changed by its own slot alone. -/
theorem spritesAfterSlot_channel (ctx : RigelContext) (sp : Fin 8) :
    (spritesAfterSlot ctx).sp sp =
      if spriteServed sp ctx then
        (if ctx.agnus.beam.hpos &&& 2 != 0 then (spriteDmaSlotB (ctx.agnus.spriteDma.sp sp) ctx.ram).1
          else spriteDmaSlotA (ctx.agnus.spriteDma.sp sp) ctx.agnus.beam.vpos ctx.ram)
      else ctx.agnus.spriteDma.sp sp := by
  unfold spritesAfterSlot spriteServed
  cases howner : dispatchedOwner ctx with
  | sprite sp' =>
    simp only
    by_cases h : sp = sp'
    · subst h
      rw [spriteDmaSlot_own]
      simp
    · rw [spriteDmaSlot_other _ h]
      have hne : (SlotOwner.sprite sp' == SlotOwner.sprite sp) = false := by simpa using fun e => h e.symm
      rw [hne]
      rfl
  | _ => simp

/-! ## The run and its record -/

/-- What the last A-slot of a channel found: the slot stolen or not, a word fetched or not, and from where. -/
structure SpriteLatch where
  stolen : Bool
  served : Bool
  addr : UInt32
  word : UInt16

def recordA (sp : Fin 8) (ctx : RigelContext) (l : SpriteLatch) : LineEvent → SpriteLatch
  | .bus .clock =>
    if ctx.agnus.beam.hpos.toNat = spriteSlotA sp then
      { stolen := slotStolen ctx
        served := spriteServed sp ctx
        addr := (ctx.agnus.spriteDma.sp sp).ptr
        word := chipRamRead16 ctx.ram (ctx.agnus.spriteDma.sp sp).ptr }
    else l
  | _ => l

theorem recordA_between {sp : Fin 8} {ctx : RigelContext} {l : SpriteLatch} {e : LineEvent} (h : ¬ e.IsClock) :
    recordA sp ctx l e = l := by
  cases e with
  | bus e =>
    cases e with
    | clock => exact absurd trivial h
    | _ => rfl
  | call c => rfl

/-- A run with the record of one channel beside it. -/
def spriteEvent (sp : Fin 8) (s : RigelContext × SpriteLatch) (e : LineEvent) : RigelContext × SpriteLatch :=
  (lineEvent s.1 e, recordA sp s.1 s.2 e)

/-- Sprite DMA is on in every clock, and nobody writes a sprite pointer. -/
def SpritesUndisturbed (s : RigelContext × SpriteLatch) (e : LineEvent) : Prop :=
  e.Unrolled ∧ (e.IsClock → dmaconSprenOn s.1.agnus.dma.dmacon = true ∧ NoSpriteMove s.1) ∧
    ∀ addr value, e.writes = some (addr, value) → isSprptReg addr = false

/-- On the B-slot of a channel that fetches on this line: it is stolen exactly if the A-slot was. -/
def StolenTogether (sp : Fin 8) (s : RigelContext × SpriteLatch) (e : LineEvent) : Prop :=
  e.IsClock → s.1.agnus.beam.hpos.toNat = spriteSlotB sp →
    spriteActive (s.1.agnus.spriteDma.sp sp) s.1.agnus.beam.vpos = true → slotStolen s.1 = s.2.stolen

/-- A line begins in step; the B-slot is served exactly if the A-slot was; and what it delivers are the words at two
consecutive addresses, a whole number of pairs past the base. -/
structure SpritePaired (sp : Fin 8) (s : RigelContext × SpriteLatch) (e : LineEvent) : Prop where
  lineStart : (lineEvent s.1 e).agnus.beam.hpos = 0 →
    ((lineEvent s.1 e).agnus.spriteDma.sp sp).ptr % 4 = ((lineEvent s.1 e).agnus.spriteDma.sp sp).basePtr % 4
  together : e.IsClock → s.1.agnus.beam.hpos.toNat = spriteSlotB sp → spriteServed sp s.1 = s.2.served
  pair : e.IsClock → dispatchedOwner s.1 = .sprite sp →
    ∀ w0 w1 ctrl, (spriteDmaSlot s.1.agnus.spriteDma sp.val s.1.agnus.beam.vpos (s.1.agnus.beam.hpos &&& 2 != 0)
        s.1.ram).2 = some (w0, w1, ctrl) →
      ∃ k : UInt32, s.2.addr = (s.1.agnus.spriteDma.sp sp).basePtr + 4 * k ∧ w0 = s.2.word ∧
        w1 = chipRamRead16 s.1.ram ((s.1.agnus.spriteDma.sp sp).basePtr + 4 * k + 2)

/-- Where a channel is on its line: in step outside the pair, and between the two slots as the record says. -/
structure SpritePhase (sp : Fin 8) (ctx : RigelContext) (l : SpriteLatch) : Prop where
  ok : AgnusOk ctx.agnus
  outside : ctx.agnus.beam.hpos.toNat ≤ spriteSlotA sp ∨ spriteSlotB sp < ctx.agnus.beam.hpos.toNat →
    SpriteAligned (ctx.agnus.spriteDma.sp sp)
  served : spriteSlotA sp < ctx.agnus.beam.hpos.toNat → ctx.agnus.beam.hpos.toNat ≤ spriteSlotB sp →
    l.served = (!l.stolen && spriteActive (ctx.agnus.spriteDma.sp sp) ctx.agnus.beam.vpos)
  fetched : spriteSlotA sp < ctx.agnus.beam.hpos.toNat → ctx.agnus.beam.hpos.toNat ≤ spriteSlotB sp →
    l.served = true →
    (ctx.agnus.spriteDma.sp sp).ptr = l.addr + 2 ∧ (ctx.agnus.spriteDma.sp sp).w0 = l.word ∧
      ∃ k : UInt32, l.addr = (ctx.agnus.spriteDma.sp sp).basePtr + 4 * k
  skipped : spriteSlotA sp < ctx.agnus.beam.hpos.toNat → ctx.agnus.beam.hpos.toNat ≤ spriteSlotB sp →
    l.served = false → SpriteAligned (ctx.agnus.spriteDma.sp sp)

theorem SpriteAligned.next {ch ch' : SpriteDmaChannel} (hbase : ch'.basePtr = ch.basePtr) {addr k : UInt32}
    (haddr : addr = ch.basePtr + 4 * k) (hptr : ch'.ptr = addr + 4) : SpriteAligned ch' := by
  refine ⟨k + 1, ?_⟩
  rw [hptr, haddr, hbase]
  grind

theorem spriteAligned_frameStart (s : SpriteDmaState) (sp : Fin 8) :
    SpriteAligned ((spriteDmaFrameStart s).sp sp) := ⟨0, by simp [spriteDmaFrameStart, spriteDmaRebase]⟩

theorem served_slot {sp : Fin 8} {ctx : RigelContext} (h : AgnusOk ctx.agnus) (hs : spriteServed sp ctx = true) :
    ctx.agnus.beam.hpos.toNat = spriteSlotA sp ∨ ctx.agnus.beam.hpos.toNat = spriteSlotB sp := by
  simp only [spriteServed, Bool.and_eq_true, beq_iff_eq] at hs
  exact dispatched_sprite_slot h hs.1

/-- The last slot of a sprite is well inside the line. -/
theorem spriteSlots_lt (sp : Fin 8) : spriteSlotB sp = spriteSlotA sp + 2 ∧ 1 < spriteSlotA sp ∧ spriteSlotB sp < 100 := by
  have := sp.isLt
  unfold spriteSlotA spriteSlotB
  omega

theorem clock_channel {ctx : RigelContext} (hmove : NoSpriteMove ctx)
    (hv : (agnusSlotSchedulerStep ctx).agnus.beam.hpos.toNat ≠ 1) (sp : Fin 8) :
    (agnusSlotSchedulerStep ctx).agnus.spriteDma.sp sp = (spritesAfterSlot ctx).sp sp := by
  rw [clock_sprites hmove, if_neg]
  intro hpos
  simp only [agnusIsVertbPosition, Bool.and_eq_true, beq_iff_eq] at hpos
  rw [hpos.2] at hv
  exact hv rfl

/-- A clock away from the channel's slots leaves it in step. -/
theorem clock_aligned {ctx : RigelContext} (hmove : NoSpriteMove ctx) {sp : Fin 8}
    (hserved : spriteServed sp ctx = false) (ha : SpriteAligned (ctx.agnus.spriteDma.sp sp)) :
    SpriteAligned ((agnusSlotSchedulerStep ctx).agnus.spriteDma.sp sp) := by
  rw [clock_sprites hmove]
  split
  · exact spriteAligned_frameStart _ _
  · rw [spritesAfterSlot_channel, hserved]
    exact ha

variable {sp : Fin 8} {ctx : RigelContext} {l : SpriteLatch}

theorem not_served_of_slot (h : AgnusOk ctx.agnus) (ha : ctx.agnus.beam.hpos.toNat ≠ spriteSlotA sp)
    (hb : ctx.agnus.beam.hpos.toNat ≠ spriteSlotB sp) : spriteServed sp ctx = false := by
  cases hs : spriteServed sp ctx with
  | false => rfl
  | true =>
    rcases served_slot h hs with e | e
    · exact absurd e ha
    · exact absurd e hb

theorem served_eq (h : AgnusOk ctx.agnus) (hon : dmaconSprenOn ctx.agnus.dma.dmacon = true)
    (hpos : ctx.agnus.beam.hpos.toNat = spriteSlotA sp ∨ ctx.agnus.beam.hpos.toNat = spriteSlotB sp) :
    spriteServed sp ctx =
      (!slotStolen ctx && spriteActive (ctx.agnus.spriteDma.sp sp) ctx.agnus.beam.vpos) := by
  have hiff := dispatched_sprite_iff h hon hpos
  unfold spriteServed
  cases hst : slotStolen ctx with
  | false =>
    rw [hiff.mpr hst]
    simp
  | true =>
    have hne : dispatchedOwner ctx ≠ .sprite sp := fun e => Bool.noConfusion (hst.symm.trans (hiff.mp e))
    simp [hne]

/-- The clock of the A-slot: the record is made, and the channel is where it says. -/
theorem SpritePhase.clockA (h : SpritePhase sp ctx l) (hon : dmaconSprenOn ctx.agnus.dma.dmacon = true)
    (hmove : NoSpriteMove ctx) (ha : ctx.agnus.beam.hpos.toNat = spriteSlotA sp) :
    SpritePhase sp (agnusSlotSchedulerStep ctx) (recordA sp ctx l (.bus .clock)) := by
  obtain ⟨hAB, hA1, hB⟩ := spriteSlots_lt sp
  obtain ⟨k, hk⟩ := h.outside (.inl (Nat.le_of_eq ha))
  have hlatch : recordA sp ctx l (.bus .clock) =
      ⟨slotStolen ctx, spriteServed sp ctx, (ctx.agnus.spriteDma.sp sp).ptr,
        chipRamRead16 ctx.ram (ctx.agnus.spriteDma.sp sp).ptr⟩ := if_pos ha
  have hserved := served_eq h.ok hon (.inl ha)
  have hisB := isB_of_slotA ha
  rw [hlatch]
  cases clock_beam h.ok with
  | line last => omega
  | frame last => omega
  | right hpos hvpos =>
    have hne : (agnusSlotSchedulerStep ctx).agnus.beam.hpos.toNat ≠ 1 := by omega
    have hch := clock_channel hmove hne sp
    rw [spritesAfterSlot_channel, hisB] at hch
    refine ⟨agnusSlotSchedulerStep_ok _ h.ok, fun hout => ?_, fun _ _ => ?_, fun _ _ hs => ?_, fun _ _ hs => ?_⟩
    · omega
    · simp only
      rw [hserved, hch, hvpos]
      split <;> rfl
    · simp only at hs ⊢
      rw [hch, hs]
      exact ⟨rfl, rfl, k, hk⟩
    · simp only at hs
      rw [hch, hs]
      exact ⟨k, hk⟩

/-- The clock of the B-slot: a fetched word is followed by its second half, a skipped one by nothing. -/
theorem SpritePhase.clockB (h : SpritePhase sp ctx l) (hon : dmaconSprenOn ctx.agnus.dma.dmacon = true)
    (hmove : NoSpriteMove ctx) (hb : ctx.agnus.beam.hpos.toNat = spriteSlotB sp)
    (htogether : spriteActive (ctx.agnus.spriteDma.sp sp) ctx.agnus.beam.vpos = true → slotStolen ctx = l.stolen) :
    spriteServed sp ctx = l.served ∧
      SpritePhase sp (agnusSlotSchedulerStep ctx) (recordA sp ctx l (.bus .clock)) := by
  obtain ⟨hAB, hA1, hB⟩ := spriteSlots_lt sp
  have hA : spriteSlotA sp < ctx.agnus.beam.hpos.toNat := by omega
  have hle : ctx.agnus.beam.hpos.toNat ≤ spriteSlotB sp := Nat.le_of_eq hb
  have hserved : spriteServed sp ctx = l.served := by
    rw [served_eq h.ok hon (.inr hb), h.served hA hle]
    cases hact : spriteActive (ctx.agnus.spriteDma.sp sp) ctx.agnus.beam.vpos with
    | true => rw [htogether hact]
    | false => rw [Bool.and_false, Bool.and_false]
  have hlatch : recordA sp ctx l (.bus .clock) = l := if_neg (by omega)
  have hisB := isB_of_slotB hb
  refine ⟨hserved, ?_⟩
  rw [hlatch]
  cases clock_beam h.ok with
  | line last => omega
  | frame last => omega
  | right hpos hvpos =>
    have hne : (agnusSlotSchedulerStep ctx).agnus.beam.hpos.toNat ≠ 1 := by omega
    have hch := clock_channel hmove hne sp
    rw [spritesAfterSlot_channel, hisB, hserved] at hch
    refine ⟨agnusSlotSchedulerStep_ok _ h.ok, fun _ => ?_, fun _ hout => ?_, fun _ hout => ?_, fun _ hout => ?_⟩
    · cases hs : l.served with
      | true =>
        obtain ⟨hptr, -, k, hk⟩ := h.fetched hA hle hs
        rw [hs, if_pos rfl, if_pos rfl] at hch
        obtain ⟨hp, hbase⟩ := spriteSlotB_ptr (ctx.agnus.spriteDma.sp sp) ctx.ram
        rw [hch]
        refine SpriteAligned.next hbase hk ?_
        rw [hp, hptr]
        grind
      | false =>
        rw [hs] at hch
        rw [hch]
        exact h.skipped hA hle hs
    · omega
    · omega
    · omega

theorem SpritePhase.clockOther (h : SpritePhase sp ctx l) (hmove : NoSpriteMove ctx)
    (ha : ctx.agnus.beam.hpos.toNat ≠ spriteSlotA sp) (hb : ctx.agnus.beam.hpos.toNat ≠ spriteSlotB sp) :
    SpritePhase sp (agnusSlotSchedulerStep ctx) (recordA sp ctx l (.bus .clock)) := by
  obtain ⟨hAB, hA1, hB⟩ := spriteSlots_lt sp
  have hserved := not_served_of_slot h.ok ha hb
  have hlatch : recordA sp ctx l (.bus .clock) = l := if_neg ha
  have hok := agnusSlotSchedulerStep_ok _ h.ok
  rw [hlatch]
  by_cases hin : spriteSlotA sp < ctx.agnus.beam.hpos.toNat ∧ ctx.agnus.beam.hpos.toNat < spriteSlotB sp
  · -- between the two slots
    cases clock_beam h.ok with
    | line last => omega
    | frame last => omega
    | right hpos hvpos =>
      have hne : (agnusSlotSchedulerStep ctx).agnus.beam.hpos.toNat ≠ 1 := by omega
      have hch := clock_channel hmove hne sp
      rw [spritesAfterSlot_channel, hserved] at hch
      have hch' : (agnusSlotSchedulerStep ctx).agnus.spriteDma.sp sp = ctx.agnus.spriteDma.sp sp := hch
      have hle : ctx.agnus.beam.hpos.toNat ≤ spriteSlotB sp := by omega
      refine ⟨hok, fun hout => ?_, fun _ _ => ?_, fun _ _ hs => ?_, fun _ _ hs => ?_⟩
      · omega
      · rw [hch', hvpos]
        exact h.served hin.1 hle
      · rw [hch']
        exact h.fetched hin.1 hle hs
      · rw [hch']
        exact h.skipped hin.1 hle hs
  · have haligned := clock_aligned hmove hserved (h.outside (by omega))
    refine ⟨hok, fun _ => haligned, fun h1 h2 => ?_, fun h1 h2 => ?_, fun _ _ _ => haligned⟩
    · cases clock_beam h.ok with
      | line last hpos => rw [hpos] at h1; exact absurd h1 (Nat.not_lt_zero _)
      | frame last hpos => rw [hpos] at h1; exact absurd h1 (Nat.not_lt_zero _)
      | right hpos => omega
    · cases clock_beam h.ok with
      | line last hpos => rw [hpos] at h1; exact absurd h1 (Nat.not_lt_zero _)
      | frame last hpos => rw [hpos] at h1; exact absurd h1 (Nat.not_lt_zero _)
      | right hpos => omega

theorem SpritePhase.between (h : SpritePhase sp ctx l) {e : LineEvent} (hu : e.Unrolled) (hc : ¬ e.IsClock)
    (hw : ∀ addr value, e.writes = some (addr, value) → isSprptReg addr = false) :
    SpritePhase sp (lineEvent ctx e) l := by
  have hsprites : (lineEvent ctx e).agnus.spriteDma = ctx.agnus.spriteDma := by
    rcases lineEvent_agnus h.ok hu hc with ⟨addr, value, hwrite, ha⟩ | ⟨-, hs⟩
    · rw [ha]
      exact agnusAfterWrite_sprites (hw addr value hwrite) _ _
    · rw [hs]
  obtain ⟨hhpos, hvpos, -⟩ := lineEvent_position h.ok hu hc
  refine ⟨lineEvent_ok h.ok e, ?_, ?_, ?_, ?_⟩
  · rw [hsprites, hhpos]
    exact h.outside
  · rw [hsprites, hhpos, hvpos]
    exact h.served
  · rw [hsprites, hhpos]
    exact h.fetched
  · rw [hsprites, hhpos]
    exact h.skipped

theorem SpriteAligned.mod_four {ch : SpriteDmaChannel} (h : SpriteAligned ch) : ch.ptr % 4 = ch.basePtr % 4 := by
  obtain ⟨k, hk⟩ := h
  apply UInt32.toNat_inj.mp
  rw [hk, UInt32.toNat_mod, UInt32.toNat_mod, UInt32.toNat_add, UInt32.toNat_mul]
  simp only [UInt32.reduceToNat, Nat.reducePow]
  omega

theorem SpritePhase.lineStart (h : SpritePhase sp ctx l) (h0 : ctx.agnus.beam.hpos = 0) :
    (ctx.agnus.spriteDma.sp sp).ptr % 4 = (ctx.agnus.spriteDma.sp sp).basePtr % 4 := by
  refine (h.outside (.inl ?_)).mod_four
  rw [h0]
  exact Nat.zero_le _

/-- What a clock delivers, in step. -/
theorem SpritePhase.pair (h : SpritePhase sp ctx l)
    (htogether : ctx.agnus.beam.hpos.toNat = spriteSlotB sp → spriteServed sp ctx = l.served)
    (hd : dispatchedOwner ctx = .sprite sp) {w0 w1 : UInt16} {ctrl : Bool}
    (hpair : (spriteDmaSlot ctx.agnus.spriteDma sp.val ctx.agnus.beam.vpos (ctx.agnus.beam.hpos &&& 2 != 0)
      ctx.ram).2 = some (w0, w1, ctrl)) :
    ∃ k : UInt32, l.addr = (ctx.agnus.spriteDma.sp sp).basePtr + 4 * k ∧ w0 = l.word ∧
      w1 = chipRamRead16 ctx.ram ((ctx.agnus.spriteDma.sp sp).basePtr + 4 * k + 2) := by
  obtain ⟨hAB, -, -⟩ := spriteSlots_lt sp
  obtain ⟨hactive, hB, hslot⟩ := spriteDmaSlot_pair hpair
  have hb : ctx.agnus.beam.hpos.toNat = spriteSlotB sp := by
    rcases dispatched_sprite_slot h.ok hd with e | e
    · rw [isB_of_slotA e] at hB
      exact Bool.noConfusion hB
    · exact e
  have hserved : l.served = true := by
    rw [← htogether hb, spriteServed, hd, hactive]
    simp
  obtain ⟨hptr, hw0, k, hk⟩ := h.fetched (by omega) (Nat.le_of_eq hb) hserved
  obtain ⟨h0, h1⟩ := spriteSlotB_pair hslot
  refine ⟨k, hk, h0.trans hw0, ?_⟩
  rw [h1, hptr, hk]

/-- **One event of a run**: paired exactly if stolen together, and then the channel is where the record says. -/
theorem SpritePhase.event (h : SpritePhase sp ctx l) {e : LineEvent} (hu : SpritesUndisturbed (ctx, l) e) :
    (SpritePaired sp (ctx, l) e ↔ StolenTogether sp (ctx, l) e) ∧
      (StolenTogether sp (ctx, l) e → SpritePhase sp (lineEvent ctx e) (recordA sp ctx l e)) := by
  obtain ⟨hunrolled, hclock, hwrites⟩ := hu
  by_cases hc : e.IsClock
  · obtain ⟨hon, hmove⟩ := hclock hc
    obtain rfl : e = .bus .clock := LineEvent.eq_clock hc
    have hafter : StolenTogether sp (ctx, l) (.bus .clock) →
        (ctx.agnus.beam.hpos.toNat = spriteSlotB sp → spriteServed sp ctx = l.served) ∧
          SpritePhase sp (agnusSlotSchedulerStep ctx) (recordA sp ctx l (.bus .clock)) := by
      intro htogether
      by_cases hb : ctx.agnus.beam.hpos.toNat = spriteSlotB sp
      · obtain ⟨hs, hp⟩ := h.clockB hon hmove hb (htogether trivial hb)
        exact ⟨fun _ => hs, hp⟩
      · by_cases ha : ctx.agnus.beam.hpos.toNat = spriteSlotA sp
        · exact ⟨fun e => absurd e hb, h.clockA hon hmove ha⟩
        · exact ⟨fun e => absurd e hb, h.clockOther hmove ha hb⟩
    refine ⟨⟨fun hp _ hb hactive => ?_, fun htogether => ?_⟩, fun htogether => (hafter htogether).2⟩
    · obtain ⟨hAB, -, -⟩ := spriteSlots_lt sp
      have hserved := hp.together trivial hb
      simp only at hserved hb hactive ⊢
      rw [served_eq h.ok hon (.inr hb), h.served (by omega) (Nat.le_of_eq hb), hactive, Bool.and_true,
        Bool.and_true] at hserved
      exact Bool.not_inj hserved
    · obtain ⟨htog, hphase⟩ := hafter htogether
      exact ⟨hphase.lineStart, fun _ => htog, fun _ hd w0 w1 ctrl hpair => h.pair htog hd hpair⟩
  · have hphase := h.between hunrolled hc hwrites
    have hlatch : recordA sp ctx l e = l := recordA_between hc
    rw [hlatch]
    exact ⟨⟨fun _ he => absurd he hc, fun _ => ⟨hphase.lineStart, fun he => absurd he hc, fun he => absurd he hc⟩⟩,
      fun _ => hphase⟩

/-! ## The frame -/

/-- The clock that arrives at VERTB puts every channel in step. -/
theorem SpritePhase.frameStart (h : AgnusOk ctx.agnus)
    (hv : agnusIsVertbPosition (agnusSlotSchedulerStep ctx).agnus.beam.hpos
      (agnusSlotSchedulerStep ctx).agnus.beam.vpos = true) : SpritePhase sp (agnusSlotSchedulerStep ctx) l := by
  obtain ⟨-, hA1, -⟩ := spriteSlots_lt sp
  have hpos : (agnusSlotSchedulerStep ctx).agnus.beam.hpos.toNat = 1 := by
    simp only [agnusIsVertbPosition, Bool.and_eq_true, beq_iff_eq] at hv
    rw [hv.2]
    rfl
  have haligned : SpriteAligned ((agnusSlotSchedulerStep ctx).agnus.spriteDma.sp sp) := by
    have hbeam : (agnusSlotSchedulerStep ctx).agnus.beam =
        (schedulerAtLineStart (schedulerMoveBeam (schedulerDispatch (schedulerPrepare ctx)))).agnus.beam := by
      rw [(lineStarted _).beam]
      exact schedulerAdvance_beam _
    rw [hbeam] at hv
    show SpriteAligned ((schedulerAdvance (schedulerDispatch (schedulerPrepare ctx))).agnus.spriteDma.sp sp)
    unfold schedulerAdvance schedulerAtVertb
    rw [if_pos hv]
    exact spriteAligned_frameStart _ _
  refine ⟨agnusSlotSchedulerStep_ok _ h, fun _ => haligned, fun h1 => ?_, fun h1 => ?_, fun _ _ _ => haligned⟩
  · omega
  · omega

/-- **Over a run** whose every clock has sprite DMA on: paired exactly if stolen together. -/
theorem SpritePhase.run (h : SpritePhase sp ctx l) {es : List LineEvent}
    (hu : AlongRun (spriteEvent sp) SpritesUndisturbed (ctx, l) es) :
    AlongRun (spriteEvent sp) (SpritePaired sp) (ctx, l) es ↔ AlongRun (spriteEvent sp) (StolenTogether sp) (ctx, l) es := by
  refine alongRun_iff_of (fun s => SpritePhase sp s.1 s.2) ?_ ?_ es (ctx, l) h hu
  · exact fun s e hs hr => (hs.event hr).1
  · exact fun s e hs hr hq => (hs.event hr).2 hq

/-- **A sprite's slots are served in pairs exactly if they are stolen in pairs.** From the start of a frame, over any run
with sprite DMA on and no sprite pointer written, the two slots of a line are both served or both skipped, every line
starts with the pointer in step with its base, and every pair that is delivered is two consecutive words, exactly when no
active disk transfer or bitplane fetch takes one slot of a channel that is fetching and leaves the other. -/
theorem sprites_paired_iff (sp : Fin 8) {ctx : RigelContext} (h : BusReachable ctx)
    (hv : agnusIsVertbPosition (agnusSlotSchedulerStep ctx).agnus.beam.hpos
      (agnusSlotSchedulerStep ctx).agnus.beam.vpos = true) (l : SpriteLatch) (es : List LineEvent)
    (hu : AlongRun (spriteEvent sp) SpritesUndisturbed (agnusSlotSchedulerStep ctx, l) es) :
    AlongRun (spriteEvent sp) (SpritePaired sp) (agnusSlotSchedulerStep ctx, l) es ↔
      AlongRun (spriteEvent sp) (StolenTogether sp) (agnusSlotSchedulerStep ctx, l) es :=
  (SpritePhase.frameStart h.agnusOk hv).run hu

/-- No write, or one to another register. -/
def sparesSprites (w : Option (UInt32 × UInt16)) : Bool := w.all fun w => !isSprptReg w.1

theorem sparesSprites_iff (w : Option (UInt32 × UInt16)) :
    sparesSprites w = true ↔ ∀ addr value, w = some (addr, value) → isSprptReg addr = false := by
  cases w with
  | none => simp [sparesSprites]
  | some w =>
    obtain ⟨addr, value⟩ := w
    simp only [sparesSprites, Option.all_some, Bool.not_eq_true']
    constructor
    · rintro h _ _ ⟨rfl, rfl⟩
      exact h
    · exact fun h => h addr value rfl

instance (ctx : RigelContext) : Decidable (NoSpriteMove ctx) := decidable_of_iff _ (sparesSprites_iff (clockWrite ctx))

instance (s : RigelContext × SpriteLatch) (e : LineEvent) : Decidable (SpritesUndisturbed s e) :=
  decidable_of_iff (e.Unrolled ∧ (e.IsClock → dmaconSprenOn s.1.agnus.dma.dmacon = true ∧ NoSpriteMove s.1) ∧
    sparesSprites e.writes = true) (by rw [sparesSprites_iff]; rfl)

instance (sp : Fin 8) (s : RigelContext × SpriteLatch) (e : LineEvent) : Decidable (StolenTogether sp s e) :=
  inferInstanceAs (Decidable (_ → _ → _ → _))

/-- A disk in the drive, and DMA for disk and sprites on. -/
def spriteMachine : RigelContext :=
  ([.floppyInsert 0 (some fun _ => 0) 901120, .customWrite 0x07E 0xAAAA, .customWrite 0x096 0x8230] : List HostCall).foldl
    hostCall palMachine

theorem spriteMachine_reachable : BusReachable spriteMachine := .ofHost (palMachine_reachable.calls _)

def noLatch : SpriteLatch := ⟨false, false, 0, 0⟩

theorem sprites_paired_sprite0 :
    AlongRun (spriteEvent 0) (SpritePaired 0) (agnusSlotSchedulerStep spriteMachine, noLatch)
      (List.replicate 23 (.bus .clock)) :=
  (sprites_paired_iff 0 spriteMachine_reachable (by decide +kernel) _ _ (by decide +kernel)).mpr (by decide +kernel)

/-- A transfer of one word, started just before the A-slot of sprite 0. -/
def splitRun : List LineEvent :=
  List.replicate 20 (.bus .clock) ++ [.call (.customWrite 0x024 0x8001), .call (.customWrite 0x024 0x8001)] ++
    List.replicate 2 (.bus .clock)

/-- The word takes the A-slot; the B-slot is served, with a stale first word. -/
theorem sprites_paired_split :
    BusReachable spriteMachine ∧
      agnusIsVertbPosition (agnusSlotSchedulerStep spriteMachine).agnus.beam.hpos
        (agnusSlotSchedulerStep spriteMachine).agnus.beam.vpos = true ∧
      AlongRun (spriteEvent 0) SpritesUndisturbed (agnusSlotSchedulerStep spriteMachine, noLatch)
        (splitRun ++ [.bus .clock]) ∧
      ¬ AlongRun (spriteEvent 0) (SpritePaired 0) (agnusSlotSchedulerStep spriteMachine, noLatch)
        (splitRun ++ [.bus .clock]) := by
  refine ⟨spriteMachine_reachable, by decide +kernel, by decide +kernel, fun hrun => ?_⟩
  have htogether := hrun.last.together trivial (by decide +kernel)
  exact absurd htogether (by decide +kernel)

end Rigel
