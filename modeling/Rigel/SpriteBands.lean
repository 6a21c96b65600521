import Rigel.BeamProjection
import Rigel.CalmRun
import Rigel.Compositor
import Rigel.DisplayRun
import Rigel.SpritePairs

/-!
# SpriteBands — the lines that a sprite is fetched for and the lines that it is drawn on

Agnus keeps a channel's first and last line in its fetch state, Denise reads them again from the control words. The two
agree on a band that has a stop behind its start, and on the line of a data pair. They differ on the line that a control
pair arrives on, and on a band that Denise lets wrap into the next 256 lines: Agnus takes a new control pair on its first
line, and if that is the end of the list Denise keeps the old one. A run is watched with a record of the data pair that
its channel got on the beam's line.
-/

namespace Rigel

/-! ## The channel's registers -/

/-- A register of one channel: its pointer in Agnus, or its position, control or data in Denise. -/
def isChannelReg (sp : Fin 8) (addr : UInt32) : Bool :=
  (isSprptReg addr && ((addr - 0x120) / 4).toNat == sp.val) ||
    (addr ≥ 0x140 && addr ≤ 0x17E && addr &&& 1 == 0 && ((addr - 0x140) / 8).toNat == sp.val)

section
variable {sp : Fin 8} {addr : UInt32}

theorem spriteDmaSetPtr_channel (s : SpriteDmaState) {i : Nat} (h : i ≠ sp.val) (value : UInt16) :
    (spriteDmaSetPtrHi s i value).sp sp = s.sp sp ∧ (spriteDmaSetPtrLo s i value).sp sp = s.sp sp := by
  unfold spriteDmaSetPtrHi spriteDmaSetPtrLo
  split
  · exact ⟨rfl, rfl⟩
  · exact ⟨Function.update_of_ne (Ne.symm h) _ _, Function.update_of_ne (Ne.symm h) _ _⟩

/-- A write to another register leaves the channel's fetch state. -/
theorem agnusAfterWrite_channel (h : isChannelReg sp addr = false) (a : RigelAgnus) (value : UInt16) :
    (agnusAfterWrite a addr value).spriteDma.sp sp = a.spriteDma.sp sp := by
  have hpointers : (agnusWritePointers a addr value).spriteDma.sp sp = a.spriteDma.sp sp := by
    unfold agnusWritePointers
    cases hptr : isSprptReg addr with
    | false => rfl
    | true =>
      have hne : ((addr - 0x120) / 4).toNat ≠ sp.val := by
        simp only [isChannelReg, hptr, Bool.true_and, Bool.or_eq_false_iff, beq_eq_false_iff_ne] at h
        exact h.1
      obtain ⟨hhi, hlo⟩ := spriteDmaSetPtr_channel a.spriteDma hne value
      simp only [if_true]
      split
      · exact hhi
      · exact hlo
  unfold agnusAfterWrite agnusAfterMmio agnusFollowDenise
  repeat' split
  all_goals first
    | rfl
    | exact hpointers

theorem deniseAfterWrite_channel (h : isChannelReg sp addr = false) (a : RigelAgnus) (d : RigelDenise) (value : UInt16) :
    (deniseAfterWrite a d addr value).sprites.sp sp = d.sprites.sp sp := by
  have hregs : (rigelDeniseRegistersWrite d addr value).sprites.sp sp = d.sprites.sp sp := by
    unfold rigelDeniseRegistersWrite
    split
    · rfl
    split
    · rename_i hsprite
      have hne : ((addr - 0x140) / 8).toNat ≠ sp.val := by
        simp only [isChannelReg, hsprite.1, hsprite.2.1, hsprite.2.2, decide_true, beq_self_eq_true, Bool.true_and,
          Bool.or_eq_false_iff, beq_eq_false_iff_ne] at h
        exact h.2
      unfold rigelDeniseSpriteRegWrite
      simp only
      split
      all_goals first
        | rfl
        | exact Function.update_of_ne (Ne.symm hne) _ _
    · exact congrFun (congrArg DeniseSpritesState.sp (deniseControlWrite_frame d addr value).2) sp
  unfold deniseAfterWrite
  cases rigelCustomDomainForReg addr with
  | agnus => rw [deniseAfterMmio_eq]
  | denise => exact hregs
  | paula => rfl
  | unknown => rfl

end

/-! ## One clock -/

/-- No copper MOVE of this clock writes the channel. -/
def NoChannelMove (sp : Fin 8) (ctx : RigelContext) : Prop :=
  ∀ addr value, clockWrite ctx = some (addr, value) → isChannelReg sp addr = false

/-- The pair that the channel gets in this clock, with its control flag. -/
def channelPair (sp : Fin 8) (ctx : RigelContext) : Option (UInt16 × UInt16 × Bool) :=
  if spriteServed sp ctx && ctx.agnus.beam.hpos &&& 2 != 0 then (spriteDmaSlotB (ctx.agnus.spriteDma.sp sp) ctx.ram).2
  else none

/-- The channel's latches after a pair. -/
def spriteReceive (ch : DeniseSprite) : Option (UInt16 × UInt16 × Bool) → DeniseSprite
  | none => ch
  | some (w0, w1, true) => { ch with pos := w0, ctl := w1, armed := true }
  | some (w0, w1, false) => { ch with data := w0, datb := w1 }

theorem copperService_channel {sp : Fin 8} {ctx : RigelContext}
    (h : ∀ addr value, copperServiceWrite ctx = some (addr, value) → isChannelReg sp addr = false) :
    (rigelCopperServiceStepProgram ctx).agnus.spriteDma.sp sp = ctx.agnus.spriteDma.sp sp ∧
      (rigelCopperServiceStepProgram ctx).denise.sprites.sp sp = ctx.denise.sprites.sp sp := by
  rcases copperService_write ctx with ⟨-, c, hc⟩ | ⟨reg, value, c, c', hw, -, hc⟩
  · rw [hc]
    exact ⟨rfl, rfl⟩
  · rw [hc]
    have hreg := h reg value hw
    constructor
    · show (customRegsWrite16 (copperWriting ctx c) reg value).agnus.spriteDma.sp sp = _
      rw [customRegsWrite16_agnus, agnusAfterWrite_channel hreg]
      rfl
    · show (customRegsWrite16 (copperWriting ctx c) reg value).denise.sprites.sp sp = _
      rw [customRegsWrite16_denise, deniseAfterWrite_channel hreg]
      rfl

/-- What Denise does with a pair. -/
theorem spriteSlot_sprites (ctx : RigelContext) (sp : Nat) (hpos : UInt16) :
    (spriteSlot ctx sp hpos).denise.sprites =
      match (spriteDmaSlot ctx.agnus.spriteDma sp ctx.agnus.beam.vpos (hpos &&& 2 != 0) ctx.ram).2 with
      | none => ctx.denise.sprites
      | some (w0, w1, true) => deniseSpriteReceiveCtrl ctx.denise.sprites sp w0 w1
      | some (w0, w1, false) => deniseSpriteReceiveData ctx.denise.sprites sp w0 w1 := rfl

theorem spriteSlot_channel (ctx : RigelContext) (sp sp' : Fin 8) (hpos : UInt16) :
    (spriteSlot ctx sp'.val hpos).denise.sprites.sp sp =
      if sp = sp' then
        spriteReceive (ctx.denise.sprites.sp sp)
          (spriteDmaSlot ctx.agnus.spriteDma sp'.val ctx.agnus.beam.vpos (hpos &&& 2 != 0) ctx.ram).2
      else ctx.denise.sprites.sp sp := by
  have hlt : ¬ sp'.val ≥ deniseSpriteCount := Nat.not_le.mpr sp'.isLt
  rw [spriteSlot_sprites]
  generalize (spriteDmaSlot ctx.agnus.spriteDma sp'.val ctx.agnus.beam.vpos (hpos &&& 2 != 0) ctx.ram).2 = pair
  by_cases h : sp = sp'
  · subst h
    rw [if_pos rfl]
    match pair with
    | none => rfl
    | some (w0, w1, true) =>
      simp only [deniseSpriteReceiveCtrl, if_neg hlt, Function.update_self, spriteReceive]
    | some (w0, w1, false) =>
      simp only [deniseSpriteReceiveData, if_neg hlt, Function.update_self, spriteReceive]
  · have hne : sp.val ≠ sp'.val := fun e => h (Fin.ext e)
    rw [if_neg h]
    match pair with
    | none => rfl
    | some (w0, w1, true) =>
      simp only [deniseSpriteReceiveCtrl, if_neg hlt, Function.update_of_ne hne]
    | some (w0, w1, false) =>
      simp only [deniseSpriteReceiveData, if_neg hlt, Function.update_of_ne hne]

theorem spriteDmaSlot_delivers (s : SpriteDmaState) (sp : Fin 8) (vpos : UInt16) (isB : Bool) (mem : ChipRam) :
    (spriteDmaSlot s sp.val vpos isB mem).2 =
      if spriteActive (s.sp sp) vpos && isB then (spriteDmaSlotB (s.sp sp) mem).2 else none := by
  have hsp : ¬ sp.val ≥ spriteDmaChannels := Nat.not_le.mpr sp.isLt
  unfold spriteDmaSlot spriteActive
  rw [if_neg hsp]
  cases (s.sp sp).terminated || ((s.sp sp).armed && decide (vpos < (s.sp sp).vstart)) with
  | true => rfl
  | false => cases isB <;> simp

theorem dispatchSlot_sprites {owner : SlotOwner} (hc : owner ≠ .copper) (hs : ∀ sp, owner ≠ .sprite sp)
    (ctx : RigelContext) (hpos : UInt16) :
    (dispatchSlot owner ctx hpos).agnus.spriteDma = ctx.agnus.spriteDma ∧
      (dispatchSlot owner ctx hpos).denise.sprites = ctx.denise.sprites := by
  cases owner with
  | copper => exact absurd rfl hc
  | sprite sp => exact absurd rfl (hs sp)
  | disk =>
    simp only [dispatchSlot, diskSlot, raiseIrqSources_agnus, raiseIrqSources_denise, and_self]
  | blitter =>
    simp only [dispatchSlot, blitterSlot, raiseIrqSources_agnus, raiseIrqSources_denise, and_self]
  | bitplane =>
    simp only [dispatchSlot, bitplaneSlot]
    split
    · simp only [bitplaneFetch, bitplaneLatchLine, and_self]
    · exact ⟨rfl, rfl⟩
  | _ => exact ⟨rfl, rfl⟩

theorem spritesAfterSlot_noSprite {ctx : RigelContext} (h : ∀ sp, dispatchedOwner ctx ≠ .sprite sp) :
    spritesAfterSlot ctx = ctx.agnus.spriteDma := by
  unfold spritesAfterSlot
  split
  · rename_i sp howner
    exact absurd howner (h sp)
  · rfl

theorem channelPair_noSprite {sp : Fin 8} {ctx : RigelContext} (h : dispatchedOwner ctx ≠ .sprite sp) :
    channelPair sp ctx = none := by
  unfold channelPair spriteServed
  rw [beq_eq_false_iff_ne.mpr h]
  rfl

/-- **The channel after the dispatch of a clock**, on both sides. -/
theorem dispatch_channel {sp : Fin 8} {ctx : RigelContext} (hmove : NoChannelMove sp ctx) :
    (schedulerDispatch (schedulerPrepare ctx)).agnus.spriteDma.sp sp = (spritesAfterSlot ctx).sp sp ∧
      (schedulerDispatch (schedulerPrepare ctx)).denise.sprites.sp sp =
        spriteReceive (ctx.denise.sprites.sp sp) (channelPair sp ctx) := by
  have hready := slotReady ctx
  have hsp := hready.spriteDma
  have hbeam := hready.beam
  have hram := hready.ram
  have hden := congrArg RigelDenise.sprites hready.denise
  have hpos := (schedulerPrepare_inputs ctx).2
  unfold schedulerDispatch
  rw [hpos]
  by_cases hc : dispatchedOwner ctx = .copper
  · have hne : ∀ sp, dispatchedOwner ctx ≠ .sprite sp := fun _ e => SlotOwner.noConfusion (hc.symm.trans e)
    have hwrite : ∀ addr value, copperServiceWrite (schedulerRestoreDsken (schedulerPrepare ctx)) = some (addr, value) →
        isChannelReg sp addr = false := by
      intro addr value hw
      exact hmove addr value ((if_pos hc).trans hw)
    obtain ⟨ha, hd⟩ := copperService_channel hwrite
    rw [show slotOwner (schedulerPrepare ctx) = .copper from hc, spritesAfterSlot_noSprite hne, channelPair_noSprite (hne sp),
      ← hsp, ← hden]
    exact ⟨ha, hd⟩
  by_cases hs : ∃ sp', dispatchedOwner ctx = .sprite sp'
  · obtain ⟨sp', hd⟩ := hs
    rw [show slotOwner (schedulerPrepare ctx) = .sprite sp' from hd]
    simp only [dispatchSlot]
    rw [spriteSlot_channel, hden, hsp, hbeam, hram, spriteDmaSlot_delivers]
    unfold spritesAfterSlot channelPair spriteServed
    rw [hd]
    refine ⟨?_, ?_⟩
    · simp only [spriteSlot, hsp, hbeam, hram]
    · by_cases h : sp = sp'
      · subst h
        rw [if_pos rfl, beq_self_eq_true, Bool.true_and]
      · have hne : (SlotOwner.sprite sp' == SlotOwner.sprite sp) = false := by simpa using fun e => h e.symm
        rw [if_neg h, hne]
        rfl
  · have hne : ∀ sp, dispatchedOwner ctx ≠ .sprite sp := fun sp e => hs ⟨sp, e⟩
    obtain ⟨ha, hd⟩ := dispatchSlot_sprites hc hne (schedulerRestoreDsken (schedulerPrepare ctx)) ctx.agnus.beam.hpos
    rw [show slotOwner (schedulerPrepare ctx) = dispatchedOwner ctx from rfl, spritesAfterSlot_noSprite hne,
      channelPair_noSprite (hne sp), ha, hd, hsp, hden]
    exact ⟨rfl, rfl⟩

/-! ## Denise and the beam -/

/-- Where Denise saw the beam last, whether it was on a visible line, and how wide that is. -/
def SameSight (o o' : DeniseOutputState) : Prop :=
  o'.beamVpos = o.beamVpos ∧ o'.frameCounter = o.frameCounter ∧ o'.visibleScanline = o.visibleScanline ∧
    o'.scanlineWidth = o.scanlineWidth

/-- And which frame buffer is in front. -/
def SameRaster (o o' : DeniseOutputState) : Prop := SameSight o o' ∧ o'.frontIdx = o.frontIdx

theorem SameRaster.refl (o : DeniseOutputState) : SameRaster o o := ⟨⟨rfl, rfl, rfl, rfl⟩, rfl⟩

theorem deniseAfterWrite_raster (a : RigelAgnus) (d : RigelDenise) (addr : UInt32) (value : UInt16) :
    SameRaster d.output (deniseAfterWrite a d addr value).output := by
  have hwindow : ∀ d : RigelDenise, (rigelDeniseDisplayWindowUpdate d).output = d.output := by
    intro d
    unfold rigelDeniseDisplayWindowUpdate
    simp only
    repeat' split
    all_goals rfl
  have hcontrol : (rigelDeniseControlWrite d addr value).output = d.output := by
    unfold rigelDeniseControlWrite
    repeat' split
    all_goals first
      | rfl
      | exact hwindow _
  unfold deniseAfterWrite
  cases rigelCustomDomainForReg addr with
  | agnus =>
    simp only [deniseAfterMmio]
    split <;> exact .refl _
  | denise =>
    simp only [rigelDeniseRegistersWrite]
    split
    · exact .refl _
    split
    · exact .refl _
    · rw [hcontrol]
      exact .refl _
  | paula => exact .refl _
  | unknown => exact .refl _

/-- No slot that is dispatched moves Denise's raster. -/
theorem dispatch_raster (ctx : RigelContext) :
    SameRaster ctx.denise.output (schedulerDispatch (schedulerPrepare ctx)).denise.output := by
  have hready := (slotReady ctx).denise
  unfold schedulerDispatch
  cases slotOwner (schedulerPrepare ctx) with
  | copper =>
    simp only [dispatchSlot]
    rcases copperService_write (schedulerRestoreDsken (schedulerPrepare ctx)) with ⟨-, c, hc⟩ | ⟨reg, value, c, c', -, -, hc⟩
    · rw [hc]
      show SameRaster ctx.denise.output (schedulerRestoreDsken (schedulerPrepare ctx)).denise.output
      rw [hready]
      exact .refl _
    · rw [hc]
      show SameRaster ctx.denise.output
        (customRegsWrite16 (copperWriting (schedulerRestoreDsken (schedulerPrepare ctx)) c) reg value).denise.output
      rw [customRegsWrite16_denise, ← hready]
      exact deniseAfterWrite_raster _ _ _ _
  | disk =>
    simp only [dispatchSlot, diskSlot, raiseIrqSources_denise, hready]
    exact .refl _
  | blitter =>
    simp only [dispatchSlot, blitterSlot, raiseIrqSources_denise, hready]
    exact .refl _
  | bitplane =>
    simp only [dispatchSlot, bitplaneSlot]
    split
    · have hlatch : SameRaster ctx.denise.output (deniseLatchBplcon ctx.denise) := by
        unfold deniseLatchBplcon
        split <;> exact .refl _
      simp only [bitplaneFetch, hready]
      exact hlatch
    · rw [hready]
      exact .refl _
  | sprite sp =>
    simp only [dispatchSlot, spriteSlot, hready]
    exact .refl _
  | _ =>
    simp only [dispatchSlot, audioSlot, refreshSlot, hready]
    exact .refl _

theorem dispatch_sight (ctx : RigelContext) :
    SameSight ctx.denise.output (schedulerDispatch (schedulerPrepare ctx)).denise.output := (dispatch_raster ctx).1

/-- Denise has seen the beam where it stands, and calls no line above the visible ones visible. -/
structure DeniseFollows (ctx : RigelContext) : Prop where
  vpos : ctx.denise.output.beamVpos = ctx.agnus.beam.vpos
  frame : ctx.denise.output.frameCounter = ctx.agnus.beam.frameCount
  visible : ctx.denise.output.visibleScanline = true → ctx.agnus.beam.visibleYStart ≤ ctx.agnus.beam.vpos

/-- Denise after a clock has followed the beam. -/
theorem clock_output (ctx : RigelContext) :
    (agnusSlotSchedulerStep ctx).denise.output =
      (rigelDeniseStep (schedulerDispatch (schedulerPrepare ctx)).denise (agnusSlotSchedulerStep ctx).agnus.beam).output := by
  have hbeam : (agnusSlotSchedulerStep ctx).agnus.beam =
      (schedulerMoveBeam (schedulerDispatch (schedulerPrepare ctx))).agnus.beam := schedulerAdvance_beam _
  rw [hbeam]
  show (schedulerAdvance (schedulerDispatch (schedulerPrepare ctx))).denise.output = _
  unfold schedulerAdvance schedulerAtVertb schedulerAtLineStart
  split
  · split <;> rfl
  · split <;> rfl

theorem DeniseFollows.clock (ctx : RigelContext) : DeniseFollows (agnusSlotSchedulerStep ctx) := by
  have hseen := rigelDeniseStep_follows (schedulerDispatch (schedulerPrepare ctx)).denise (agnusSlotSchedulerStep ctx).agnus.beam
  rw [← clock_output] at hseen
  refine ⟨hseen.vpos, hseen.frame, fun hv => ?_⟩
  · have hvisible : beamInVisibleArea (agnusSlotSchedulerStep ctx).agnus.beam = true := hseen.visible.symm.trans hv
    simp only [beamInVisibleArea, Bool.and_eq_true, decide_eq_true_eq] at hvisible
    exact hvisible.1

/-- A call that brings no clocks and no reset changes Denise by a register write alone. -/
theorem hostCall_denise (ctx : RigelContext) {c : HostCall} (hu : (LineEvent.call c).Unrolled) :
    (∃ addr value, c = .customWrite addr value ∧ (hostCall ctx c).denise = deniseAfterWrite ctx.agnus ctx.denise addr value) ∨
      (hostCall ctx c).denise = ctx.denise := by
  cases c with
  | reset => exact absurd hu id
  | step cycles => exact absurd hu id
  | stepUntil target => exact absurd hu id
  | customWrite addr value => exact .inl ⟨addr, value, rfl, customRegsWrite16_denise ctx addr value⟩
  | customRead addr =>
    right
    simp only [hostCall, customRegsRead16, paulaReadReg]
    repeat' split
    all_goals rfl
  | ciaRead id reg => cases id <;> exact .inr rfl
  | ciaWrite id reg value =>
    right
    cases id with
    | portA => rfl
    | portB =>
      simp only [hostCall, rigelCiaWrite]
      split <;> rfl
  | setFire port pressed =>
    right
    simp only [hostCall, rigelInputSetFire]
    split <;> rfl
  | floppyInsert drive data size =>
    right
    simp only [hostCall, rigelFloppyInsert]
    split <;> rfl
  | floppyEject drive =>
    right
    simp only [hostCall, rigelFloppyEject]
    split <;> rfl
  | serialReceive byte => exact .inr (raiseIrqSources_denise _ _)
  | _ => exact .inr rfl

theorem lineEvent_denise (ctx : RigelContext) {e : LineEvent} (hu : e.Unrolled) (hc : ¬ e.IsClock) :
    (∃ addr value, e.writes = some (addr, value) ∧
        (lineEvent ctx e).denise = deniseAfterWrite ctx.agnus ctx.denise addr value) ∨
      (lineEvent ctx e).denise = ctx.denise := by
  cases e with
  | bus e =>
    cases e with
    | clock => exact absurd trivial hc
    | write addr value => exact .inl ⟨addr, value, rfl, customRegsWrite16_denise ctx addr value⟩
    | stepBegin cycles =>
      right
      show (stepPrologue ctx cycles).denise = ctx.denise
      unfold stepPrologue
      simp only
      split <;> rfl
    | stepEnd before cycles => exact .inr (chipsetSettle_frame before ctx cycles).2.1
  | call c =>
    rcases hostCall_denise ctx hu with ⟨addr, value, rfl, hd⟩ | hd
    · exact .inl ⟨addr, value, rfl, hd⟩
    · exact .inr hd

theorem lineEvent_raster (ctx : RigelContext) {e : LineEvent} (hu : e.Unrolled) (hc : ¬ e.IsClock) :
    SameRaster ctx.denise.output (lineEvent ctx e).denise.output := by
  rcases lineEvent_denise ctx hu hc with ⟨addr, value, -, hd⟩ | hd
  · rw [hd]
    exact deniseAfterWrite_raster _ _ _ _
  · rw [hd]
    exact .refl _

/-- A register write leaves the first visible line. -/
theorem agnusWrite_visibleStart {a a' : RigelAgnus} (h : AgnusWrite a a') : a'.beam.visibleYStart = a.beam.visibleYStart := by
  cases h <;> rfl

theorem slotEffect_visibleStart {a a' : RigelAgnus} (h : SlotEffect a a') : a'.beam.visibleYStart = a.beam.visibleYStart := by
  cases h with
  | copper hc =>
    cases hc with
    | move pc reg value =>
      have hw := agnusWrite_visibleStart
        (agnusAfterWrite_cases { a with copper := { a.copper with fetchPending := false } } reg value)
      exact hw
    | _ => rfl
  | _ => rfl

/-- The first visible line is the same along a run. -/
theorem lineEvent_visibleStart {ctx : RigelContext} (h : AgnusOk ctx.agnus) {e : LineEvent} (hu : e.Unrolled) :
    (lineEvent ctx e).agnus.beam.visibleYStart = ctx.agnus.beam.visibleYStart := by
  by_cases hc : e.IsClock
  · obtain rfl : e = .bus .clock := LineEvent.eq_clock hc
    have hok := schedulerDispatch_ok _ (schedulerPrepare_ok ctx h)
    have hready := (slotReady ctx).beam
    have hdispatch : (schedulerDispatch (schedulerPrepare ctx)).agnus.beam.visibleYStart = ctx.agnus.beam.visibleYStart := by
      rw [← hready]
      exact slotEffect_visibleStart (dispatchSlot_cases (slotOwner (schedulerPrepare ctx))
        (schedulerRestoreDsken (schedulerPrepare ctx)) (schedulerPrepare ctx).agnus.scheduler.hpos)
    show (agnusSlotSchedulerStep ctx).agnus.beam.visibleYStart = _
    unfold agnusSlotSchedulerStep
    rw [schedulerAdvance_beam, hok.beam.beamStep_one, ← hdispatch]
    split <;> rfl
  · rcases lineEvent_agnus h hu hc with ⟨addr, value, -, hw⟩ | ⟨-, hs⟩
    · rw [hw]
      exact agnusWrite_visibleStart (agnusAfterWrite_cases _ _ _)
    · rw [hs]

/-! ## The run and its record -/

/-- The data pair that the channel got on the beam's line, if it got one yet. -/
abbrev LineData := Option (UInt16 × UInt16)

def recordData (sp : Fin 8) (ctx : RigelContext) (r : LineData) : LineEvent → LineData
  | .bus .clock =>
    if (agnusSlotSchedulerStep ctx).agnus.beam.hpos = 0 then none
    else match channelPair sp ctx with
      | some (w0, w1, false) => some (w0, w1)
      | _ => r
  | _ => r

theorem recordData_between {sp : Fin 8} {ctx : RigelContext} {r : LineData} {e : LineEvent} (h : ¬ e.IsClock) :
    recordData sp ctx r e = r := by
  cases e with
  | bus e =>
    cases e with
    | clock => exact absurd trivial h
    | _ => rfl
  | call c => rfl

/-- A run with the record of one channel beside it. -/
def bandEvent (sp : Fin 8) (s : RigelContext × LineData) (e : LineEvent) : RigelContext × LineData :=
  (lineEvent s.1 e, recordData sp s.1 s.2 e)

/-- The channel is driven by DMA alone: sprite DMA is on in every clock, its two slots are its own, and no MOVE and no
access of the CPU writes one of its registers. -/
structure DmaDriven (sp : Fin 8) (s : RigelContext × LineData) (e : LineEvent) : Prop where
  unrolled : e.Unrolled
  on : e.IsClock → dmaconSprenOn s.1.agnus.dma.dmacon = true
  granted : e.IsClock → s.1.agnus.beam.hpos.toNat = spriteSlotA sp ∨ s.1.agnus.beam.hpos.toNat = spriteSlotB sp →
    slotStolen s.1 = false
  move : e.IsClock → NoChannelMove sp s.1
  writes : ∀ addr value, e.writes = some (addr, value) → isChannelReg sp addr = false

/-- The line whose pixels the compositor makes for the frame in this clock: a visible one that the beam leaves. -/
def composedLine (ctx : RigelContext) : Option UInt16 :=
  let d := (schedulerDispatch (schedulerPrepare ctx)).denise
  if deniseLineChanged d (agnusSlotSchedulerStep ctx).agnus.beam && d.output.visibleScanline &&
      d.output.scanlineWidth != 0 then some d.output.beamVpos
  else none

/-- The pixels of the channel are drawn on the line: by its own turn in the overlay, or as the upper half of its partner's
when it is attached. -/
def channelShown (s : DeniseSpritesState) (sp : Nat) (y : UInt16) : Bool :=
  if deniseSpriteIsAttached s sp then spriteOnLine s (sp - 1) y && (s.sp sp).armed else spriteOnLine s sp y

/-- Only odd channels are attached. -/
theorem channelShown_even {s : DeniseSpritesState} {sp : Nat} (heven : sp % 2 = 0) (y : UInt16) :
    channelShown s sp y = spriteBandHas (s.sp sp) y := by
  have hattached : deniseSpriteIsAttached s sp = false := by
    unfold deniseSpriteIsAttached
    rw [heven]
    rfl
  rw [channelShown, hattached, if_neg Bool.false_ne_true, spriteOnLine, hattached, Bool.not_false, Bool.true_and]

/-- Other pixel words for one channel. -/
def withWords (s : DeniseSpritesState) (sp : Nat) (data datb : UInt16) : DeniseSpritesState :=
  { s with sp := Function.update s.sp sp { s.sp sp with data := data, datb := datb } }

section
variable {s : DeniseSpritesState} {sp : Nat} {data datb : UInt16}

theorem withWords_other {spr : Nat} (h : spr ≠ sp) : (withWords s sp data datb).sp spr = s.sp spr :=
  Function.update_of_ne h _ _

/-- Where a channel is drawn does not depend on the words. -/
theorem withWords_control (s : DeniseSpritesState) (sp : Nat) (data datb : UInt16) (spr : Nat) :
    ((withWords s sp data datb).sp spr).pos = (s.sp spr).pos ∧ ((withWords s sp data datb).sp spr).ctl = (s.sp spr).ctl ∧
      ((withWords s sp data datb).sp spr).armed = (s.sp spr).armed := by
  by_cases h : spr = sp
  · subst h
    simp only [withWords, Function.update_self, and_self]
  · rw [withWords_other h]
    exact ⟨rfl, rfl, rfl⟩

theorem withWords_onLine (spr : Nat) (y : UInt16) :
    spriteOnLine (withWords s sp data datb) spr y = spriteOnLine s spr y := by
  obtain ⟨hpos, hctl, harmed⟩ := withWords_control s sp data datb spr
  simp only [spriteOnLine, spriteBandHas, spriteBandStop, deniseSpriteVstart, deniseSpriteVstop, hpos, hctl, harmed]
  rfl

theorem withWords_pixel {spr : Nat} (h : spr = sp → (s.sp sp).armed = false) (x : UInt16) :
    deniseSpritePixel (withWords s sp data datb) spr x = deniseSpritePixel s spr x := by
  by_cases hs : spr = sp
  · subst hs
    have harmed := (withWords_control s spr data datb spr).2.2
    rw [h rfl] at harmed
    simp [deniseSpritePixel, harmed, h rfl]
  · simp only [deniseSpritePixel, withWords_other hs]

/-- A channel that is drawn on the line does not use the words of one that is not shown. -/
theorem withWords_color {d : RigelDenise} (h : channelShown d.sprites sp d.output.beamVpos = false) {spr : Nat}
    (hon : spriteOnLine d.sprites spr d.output.beamVpos = true) (x : UInt16) :
    spriteColor { d with sprites := withWords d.sprites sp data datb } spr x = spriteColor d spr x := by
  have hfree : deniseSpriteIsAttached d.sprites spr = false := by
    simp only [spriteOnLine, Bool.and_eq_true, Bool.not_eq_true'] at hon
    exact hon.1
  have hown : spr ≠ sp := by
    rintro rfl
    rw [channelShown, hfree, if_neg (by decide), hon] at h
    cases h
  have hfirst : deniseSpritePixel (withWords d.sprites sp data datb) spr x = deniseSpritePixel d.sprites spr x :=
    withWords_pixel (fun e => absurd e hown) x
  have hsecond : deniseSpriteIsAttached d.sprites (spr + 1) = true →
      deniseSpritePixel (withWords d.sprites sp data datb) (spr + 1) x = deniseSpritePixel d.sprites (spr + 1) x := by
    intro hatt
    refine withWords_pixel (fun e => ?_) x
    rw [channelShown, ← e, hatt, if_pos rfl, Nat.add_sub_cancel, hon, Bool.true_and] at h
    rw [← e]
    exact h
  have hsame : deniseSpriteIsAttached (withWords d.sprites sp data datb) (spr + 1) =
      deniseSpriteIsAttached d.sprites (spr + 1) := rfl
  unfold spriteColor deniseSpriteAttachedPixel
  simp only [hfirst, hsame]
  by_cases hpair : spr % 2 = 0 ∧ deniseSpriteIsAttached d.sprites (spr + 1) = true
  · rw [if_pos hpair, if_pos hpair, hsecond hpair.2]
  · rw [if_neg hpair, if_neg hpair]

/-- **The pixels of a line do not depend on the words of a channel that is not shown on it.** -/
theorem composeLine_hidden {d : RigelDenise} (h : channelShown d.sprites sp d.output.beamVpos = false) (p : DenisePixels) :
    composeLine { d with sprites := withWords d.sprites sp data datb } p = composeLine d p := by
  have hoverlay : ∀ m l, composeSprites { d with sprites := withWords d.sprites sp data datb } m l = composeSprites d m l := by
    intro m l
    unfold composeSprites
    refine List.foldl_ext _ _ _ fun l spr _ => ?_
    simp only [withWords_onLine]
    split
    · rename_i hon
      refine List.foldl_ext _ _ _ fun l px _ => ?_
      obtain ⟨hpos, hctl, -⟩ := withWords_control d.sprites sp data datb spr
      have hstart : deniseSpriteHstart ((withWords d.sprites sp data datb).sp spr) = deniseSpriteHstart (d.sprites.sp spr) := by
        rw [deniseSpriteHstart, hpos, hctl]
        rfl
      simp only [composeSpritePixel, hstart, withWords_color h hon]
    · rfl
  unfold composeLine
  simp only [hoverlay]
  rfl

end

/-- A line on which the channel is drawn got a data pair, and the words drawn are that pair's. -/
def DrawsDelivered (sp : Fin 8) (s : RigelContext × LineData) (e : LineEvent) : Prop :=
  e.IsClock → ∀ y, composedLine s.1 = some y →
    channelShown (schedulerDispatch (schedulerPrepare s.1)).denise.sprites sp y = true →
    y = s.1.agnus.beam.vpos ∧
      s.2 = some (((schedulerDispatch (schedulerPrepare s.1)).denise.sprites.sp sp).data,
        ((schedulerDispatch (schedulerPrepare s.1)).denise.sprites.sp sp).datb)

/-- The band of a channel's latches has no visible line from `y` on. -/
def BandOver (ctx : RigelContext) (ch : DeniseSprite) : Prop :=
  ch.armed = true →
    (spriteBandStop ch).toNat ≤ max ctx.agnus.beam.vpos.toNat ctx.agnus.beam.visibleYStart.toNat

/-- The control words that a channel finds on the beam's line do not lead to pixels without data: a new band does not
have the visible line that it arrives on, and the end of the list is found behind the band that Denise still holds. -/
def ControlApart (sp : Fin 8) (ctx : RigelContext) : Prop :=
  let ch := ctx.agnus.spriteDma.sp sp
  let w1 := chipRamRead16 ctx.ram ch.ptr
  let shown := ctx.denise.sprites.sp sp
  spriteActive ch ctx.agnus.beam.vpos = true → ch.fetchCtrl = true →
    if ch.w0 = 0 ∧ w1 = 0 then BandOver ctx shown
    else ctx.agnus.beam.visibleYStart ≤ ctx.agnus.beam.vpos →
      spriteBandHas { shown with pos := ch.w0, ctl := w1, armed := true } ctx.agnus.beam.vpos = false

/-- On the channel's B-slot the control words keep the bands apart; and where a line is composed, an attached channel is
inside its own band if its partner is inside its. -/
structure BandsApart (sp : Fin 8) (s : RigelContext × LineData) (e : LineEvent) : Prop where
  control : e.IsClock → s.1.agnus.beam.hpos.toNat = spriteSlotB sp → ControlApart sp s.1
  attached : e.IsClock → ∀ y, composedLine s.1 = some y →
    deniseSpriteIsAttached (schedulerDispatch (schedulerPrepare s.1)).denise.sprites sp = true →
    spriteBandHas ((schedulerDispatch (schedulerPrepare s.1)).denise.sprites.sp (sp - 1)) y = true →
      spriteBandHas ((schedulerDispatch (schedulerPrepare s.1)).denise.sprites.sp sp) y = true

/-! ## What holds along a run -/

/-- Both chips hold the same band, or Denise holds none, or the list has ended behind it. -/
structure BandKnown (ctx : RigelContext) (ch : SpriteDmaChannel) (shown : DeniseSprite) : Prop where
  synced : shown.armed = true → ch.terminated = false →
    ch.armed = true ∧ ch.vstart = deniseSpriteVstart shown ∧ ch.vstop = deniseSpriteVstop shown
  passed : shown.armed = true → ch.terminated = true → ¬ (ctx.agnus.beam.vpos = 0 ∧ ctx.agnus.beam.hpos = 0) →
    BandOver ctx shown

/-- Where a channel is on its line: after the B-slot the record holds the words that its latches hold, if the line is in
its band. -/
structure BandPhase (sp : Fin 8) (ctx : RigelContext) (r : LineData) : Prop where
  ok : AgnusOk ctx.agnus
  follows : DeniseFollows ctx
  known : BandKnown ctx (ctx.agnus.spriteDma.sp sp) (ctx.denise.sprites.sp sp)
  served : spriteSlotB sp < ctx.agnus.beam.hpos.toNat → ctx.agnus.beam.visibleYStart ≤ ctx.agnus.beam.vpos →
    spriteBandHas (ctx.denise.sprites.sp sp) ctx.agnus.beam.vpos = true →
    r = some ((ctx.denise.sprites.sp sp).data, (ctx.denise.sprites.sp sp).datb)

theorem spriteBandHas_iff (ch : DeniseSprite) (y : UInt16) :
    spriteBandHas ch y = true ↔ ch.armed = true ∧ deniseSpriteVstart ch ≤ y ∧ y < spriteBandStop ch := by
  simp only [spriteBandHas, Bool.and_eq_true, Bool.not_eq_true', Bool.or_eq_false_iff, decide_eq_false_iff_not,
    UInt16.not_lt, ge_iff_le, UInt16.not_le]

section
variable {sp : Fin 8} {ctx : RigelContext} {r : LineData}

theorem spriteActive_iff (ch : SpriteDmaChannel) (vpos : UInt16) :
    spriteActive ch vpos = true ↔ ch.terminated = false ∧ (ch.armed = true → ch.vstart ≤ vpos) := by
  simp only [spriteActive, Bool.not_eq_true', Bool.or_eq_false_iff, Bool.and_eq_false_iff, decide_eq_false_iff_not,
    UInt16.not_lt]
  cases ch.armed <;> simp

/-- The channel after a clock that does not restart it. -/
theorem clock_band (hmove : NoChannelMove sp ctx)
    (hv : agnusIsVertbPosition (agnusSlotSchedulerStep ctx).agnus.beam.hpos
      (agnusSlotSchedulerStep ctx).agnus.beam.vpos = false) :
    (agnusSlotSchedulerStep ctx).agnus.spriteDma.sp sp = (spritesAfterSlot ctx).sp sp ∧
      (agnusSlotSchedulerStep ctx).denise.sprites.sp sp = spriteReceive (ctx.denise.sprites.sp sp) (channelPair sp ctx) := by
  obtain ⟨ha, hd⟩ := clock_restart ctx
  obtain ⟨hca, hcd⟩ := dispatch_channel hmove
  rw [ha, hd, hv, if_neg (by decide), if_neg (by decide)]
  exact ⟨hca, hcd⟩

/-- The fetch state but for the pointer and the latch. -/
def SameBand (ch ch' : SpriteDmaChannel) : Prop :=
  ch'.armed = ch.armed ∧ ch'.terminated = ch.terminated ∧ ch'.vstart = ch.vstart ∧ ch'.vstop = ch.vstop

/-- Away from its B-slot nothing reaches the channel in Denise, and its band stays. -/
theorem channelPair_other (h : AgnusOk ctx.agnus) (hb : ctx.agnus.beam.hpos.toNat ≠ spriteSlotB sp) :
    SameBand (ctx.agnus.spriteDma.sp sp) ((spritesAfterSlot ctx).sp sp) ∧ channelPair sp ctx = none := by
  unfold channelPair
  rw [spritesAfterSlot_channel]
  cases hs : spriteServed sp ctx with
  | false => exact ⟨⟨rfl, rfl, rfl, rfl⟩, rfl⟩
  | true =>
    have hA : ctx.agnus.beam.hpos.toNat = spriteSlotA sp := (served_slot h hs).resolve_right hb
    rw [isB_of_slotA hA]
    exact ⟨⟨rfl, rfl, rfl, rfl⟩, rfl⟩

theorem BandKnown.same {ch ch' : SpriteDmaChannel} {shown : DeniseSprite} {ctx' : RigelContext} (h : BandKnown ctx ch shown)
    (hs : SameBand ch ch')
    (hover : ¬ (ctx'.agnus.beam.vpos = 0 ∧ ctx'.agnus.beam.hpos = 0) →
      ¬ (ctx.agnus.beam.vpos = 0 ∧ ctx.agnus.beam.hpos = 0) ∧ (BandOver ctx shown → BandOver ctx' shown)) :
    BandKnown ctx' ch' shown := by
  obtain ⟨harmed, hterm, hstart, hstop⟩ := hs
  refine ⟨fun hd ht => ?_, fun hd ht hpos => ?_⟩
  · rw [hterm] at ht
    rw [harmed, hstart, hstop]
    exact h.synced hd ht
  · rw [hterm] at ht
    obtain ⟨hold, hkeep⟩ := hover hpos
    exact hkeep (h.passed hd ht hold)

theorem BandKnown.receiveData {ch : SpriteDmaChannel} {shown : DeniseSprite} (h : BandKnown ctx ch shown) (w0 w1 : UInt16) :
    BandKnown ctx ch (spriteReceive shown (some (w0, w1, false))) := ⟨h.synced, h.passed⟩

theorem BandPhase.unarmed (hok : AgnusOk ctx.agnus) (hfollows : DeniseFollows ctx)
    (h : (ctx.denise.sprites.sp sp).armed = false) (r : LineData) : BandPhase sp ctx r := by
  refine ⟨hok, hfollows, ⟨fun hd => ?_, fun hd => ?_⟩, fun _ _ hb => ?_⟩
  · exact Bool.noConfusion (h.symm.trans hd)
  · exact Bool.noConfusion (h.symm.trans hd)
  · exact Bool.noConfusion (h.symm.trans ((spriteBandHas_iff _ _).mp hb).1)

theorem BandPhase.restart (hok : AgnusOk ctx.agnus)
    (hv : agnusIsVertbPosition (agnusSlotSchedulerStep ctx).agnus.beam.hpos
      (agnusSlotSchedulerStep ctx).agnus.beam.vpos = true) (r : LineData) : BandPhase sp (agnusSlotSchedulerStep ctx) r := by
  refine .unarmed (agnusSlotSchedulerStep_ok _ hok) (.clock ctx) ?_ r
  rw [(clock_restart ctx).2, if_pos hv]
  rfl

/-- **What a B-slot does**: a data pair, the end of the list, or a new band, the one that Denise will read as well. -/
theorem spriteDmaSlotB_cases (ch : SpriteDmaChannel) (mem : ChipRam) :
    (ch.fetchCtrl = false ∧ SameBand ch (spriteDmaSlotB ch mem).1 ∧
        (spriteDmaSlotB ch mem).2 = some (ch.w0, chipRamRead16 mem ch.ptr, false)) ∨
      (ch.fetchCtrl = true ∧ (ch.w0 = 0 ∧ chipRamRead16 mem ch.ptr = 0) ∧ (spriteDmaSlotB ch mem).1.terminated = true ∧
        (spriteDmaSlotB ch mem).2 = none) ∨
      (ch.fetchCtrl = true ∧ ¬ (ch.w0 = 0 ∧ chipRamRead16 mem ch.ptr = 0) ∧
        (∀ shown : DeniseSprite, (spriteDmaSlotB ch mem).1.armed = true ∧
          (spriteDmaSlotB ch mem).1.terminated = ch.terminated ∧
          (spriteDmaSlotB ch mem).1.vstart =
            deniseSpriteVstart { shown with pos := ch.w0, ctl := chipRamRead16 mem ch.ptr, armed := true } ∧
          (spriteDmaSlotB ch mem).1.vstop =
            deniseSpriteVstop { shown with pos := ch.w0, ctl := chipRamRead16 mem ch.ptr, armed := true }) ∧
        (spriteDmaSlotB ch mem).2 = some (ch.w0, chipRamRead16 mem ch.ptr, true)) := by
  unfold spriteDmaSlotB
  simp only
  cases hctrl : ch.fetchCtrl with
  | false => exact .inl ⟨rfl, ⟨rfl, rfl, rfl, rfl⟩, rfl⟩
  | true =>
    by_cases hend : ch.w0 = 0 ∧ chipRamRead16 mem ch.ptr = 0
    · rw [if_pos rfl, if_pos hend]
      exact .inr (.inl ⟨rfl, hend, rfl, rfl⟩)
    · rw [if_pos rfl, if_neg hend]
      exact .inr (.inr ⟨rfl, hend, fun _ => ⟨rfl, rfl, rfl, rfl⟩, rfl⟩)

theorem BandPhase.clockOther (h : BandPhase sp ctx r) (hmove : NoChannelMove sp ctx)
    (hb : ctx.agnus.beam.hpos.toNat ≠ spriteSlotB sp) :
    BandPhase sp (agnusSlotSchedulerStep ctx) (recordData sp ctx r (.bus .clock)) := by
  cases hv : agnusIsVertbPosition (agnusSlotSchedulerStep ctx).agnus.beam.hpos
      (agnusSlotSchedulerStep ctx).agnus.beam.vpos with
  | true => exact .restart h.ok hv _
  | false =>
    obtain ⟨hsame, hnone⟩ := channelPair_other h.ok hb
    obtain ⟨hch, hshown⟩ := clock_band hmove hv
    rw [hnone] at hshown
    have hstart : (agnusSlotSchedulerStep ctx).agnus.beam.visibleYStart = ctx.agnus.beam.visibleYStart :=
      lineEvent_visibleStart (e := .bus .clock) h.ok trivial
    rw [← hch] at hsame
    refine ⟨agnusSlotSchedulerStep_ok _ h.ok, .clock ctx, ?_, ?_⟩
    · rw [hshown]
      refine h.known.same hsame fun hpos => ?_
      unfold BandOver
      rw [hstart]
      cases clock_beam h.ok with
      | right hhpos hvpos =>
        rw [hvpos]
        refine ⟨fun h0 => ?_, id⟩
        -- from the top of the frame this clock would have been the restart
        rw [h0.2] at hhpos
        have h1 : (agnusSlotSchedulerStep ctx).agnus.beam.hpos = 1 := UInt16.toNat_inj.mp hhpos
        rw [hvpos, h0.1, h1] at hv
        exact absurd hv (by decide)
      | line last hhpos hvpos =>
        refine ⟨fun h0 => ?_, fun hover hd => ?_⟩
        · rw [h0.2] at last
          exact absurd last (by decide)
        · have hstop := hover hd
          rw [hvpos]
          omega
      | frame last hhpos hvpos => exact absurd ⟨hvpos, hhpos⟩ hpos
    · intro hB hvis hband
      cases clock_beam h.ok with
      | right hhpos hvpos =>
        have hne : (agnusSlotSchedulerStep ctx).agnus.beam.hpos ≠ 0 := by
          intro h0
          rw [h0] at hhpos
          exact absurd hhpos (Nat.succ_ne_zero _).symm
        have hrecord : recordData sp ctx r (.bus .clock) = r := by
          unfold recordData
          rw [if_neg hne, hnone]
        rw [hrecord]
        rw [hstart, hvpos] at hvis
        rw [hshown, hvpos] at hband
        rw [hshown]
        exact h.served (by omega) hvis hband
      | line last hhpos => rw [hhpos] at hB; exact absurd hB (Nat.not_lt_zero _)
      | frame last hhpos => rw [hhpos] at hB; exact absurd hB (Nat.not_lt_zero _)

theorem BandPhase.clockB (h : BandPhase sp ctx r) (hon : dmaconSprenOn ctx.agnus.dma.dmacon = true)
    (hgranted : slotStolen ctx = false) (hmove : NoChannelMove sp ctx)
    (hb : ctx.agnus.beam.hpos.toNat = spriteSlotB sp) (hapart : ControlApart sp ctx) :
    BandPhase sp (agnusSlotSchedulerStep ctx) (recordData sp ctx r (.bus .clock)) := by
  obtain ⟨hAB, hA1, hB⟩ := spriteSlots_lt sp
  have hisB := isB_of_slotB hb
  have hserved := served_eq h.ok hon (.inr hb)
  rw [hgranted, Bool.not_false, Bool.true_and] at hserved
  have hstart : (agnusSlotSchedulerStep ctx).agnus.beam.visibleYStart = ctx.agnus.beam.visibleYStart :=
    lineEvent_visibleStart (e := .bus .clock) h.ok trivial
  cases clock_beam h.ok with
  | line last => omega
  | frame last => omega
  | right hhpos hvpos =>
    have hv : agnusIsVertbPosition (agnusSlotSchedulerStep ctx).agnus.beam.hpos
        (agnusSlotSchedulerStep ctx).agnus.beam.vpos = false := not_vertb_of_hpos (by omega)
    have hne : (agnusSlotSchedulerStep ctx).agnus.beam.hpos ≠ 0 := by
      intro h0
      rw [h0] at hhpos
      exact absurd hhpos (Nat.succ_ne_zero _).symm
    have hold : ¬ (ctx.agnus.beam.vpos = 0 ∧ ctx.agnus.beam.hpos = 0) := by
      rintro ⟨-, h0⟩
      rw [h0] at hb
      have hzero : (0 : UInt16).toNat = 0 := rfl
      omega
    have hsameOver : ∀ shown : DeniseSprite, BandOver ctx shown → BandOver (agnusSlotSchedulerStep ctx) shown := by
      intro shown hover hd
      rw [hstart, hvpos]
      exact hover hd
    -- a band that is over does not have a visible line
    have hnotOver : ∀ shown : DeniseSprite, BandOver ctx shown → ctx.agnus.beam.visibleYStart ≤ ctx.agnus.beam.vpos →
        spriteBandHas shown ctx.agnus.beam.vpos ≠ true := by
      intro shown hover hvis hband
      obtain ⟨hd, -, hstop⟩ := (spriteBandHas_iff _ _).mp hband
      have hstop' := UInt16.lt_iff_toNat_lt.mp hstop
      have hle := hover hd
      have hvis' := UInt16.le_iff_toNat_le.mp hvis
      omega
    obtain ⟨hch, hshown⟩ := clock_band hmove hv
    rw [spritesAfterSlot_channel, hserved, hisB] at hch
    unfold channelPair at hshown
    unfold recordData channelPair
    rw [hserved, hisB, Bool.and_true] at hshown
    rw [if_neg hne, hserved, hisB, Bool.and_true]
    have hok := agnusSlotSchedulerStep_ok ctx h.ok
    cases hactive : spriteActive (ctx.agnus.spriteDma.sp sp) ctx.agnus.beam.vpos with
    | false =>
      -- no fetch: the list has ended behind the band, or the band begins further down
      rw [hactive, if_neg (by decide)] at hch hshown
      refine ⟨hok, .clock ctx, ?_, fun _ hvis hband => ?_⟩
      · rw [hch, hshown]
        exact h.known.same ⟨rfl, rfl, rfl, rfl⟩ fun _ => ⟨hold, hsameOver _⟩
      · rw [hstart, hvpos] at hvis
        rw [hshown, hvpos] at hband
        have hd := ((spriteBandHas_iff _ _).mp hband).1
        cases hterm : (ctx.agnus.spriteDma.sp sp).terminated with
        | true => exact absurd hband (hnotOver _ (h.known.passed hd hterm hold) hvis)
        | false =>
          obtain ⟨harmed, hvstart, -⟩ := h.known.synced hd hterm
          have hinside := ((spriteBandHas_iff _ _).mp hband).2.1
          have hfetches : spriteActive (ctx.agnus.spriteDma.sp sp) ctx.agnus.beam.vpos = true := by
            refine (spriteActive_iff _ _).mpr ⟨hterm, fun _ => ?_⟩
            rw [hvstart]
            exact hinside
          exact Bool.noConfusion (hactive.symm.trans hfetches)
    | true =>
      have hterm := ((spriteActive_iff _ _).mp hactive).1
      rw [hactive, if_pos rfl] at hch hshown
      simp only [if_true] at hch hshown
      have hcontrol := hapart hactive
      rcases spriteDmaSlotB_cases (ctx.agnus.spriteDma.sp sp) ctx.ram with
        ⟨-, hsame, hpair⟩ | ⟨hctrl, hend, hterm', hpair⟩ | ⟨hctrl, hend, hnew, hpair⟩
      · -- a data pair
        rw [hpair] at hshown ⊢
        rw [← hch] at hsame
        refine ⟨hok, .clock ctx, ?_, fun _ _ _ => ?_⟩
        · rw [hshown]
          exact (h.known.same hsame fun _ => ⟨hold, hsameOver _⟩).receiveData _ _
        · rw [hshown]
          rfl
      · -- the end of the list
        rw [hpair] at hshown
        rw [← hch] at hterm'
        have hover : BandOver ctx (ctx.denise.sprites.sp sp) := by
          have hif := hcontrol hctrl
          rwa [if_pos hend] at hif
        refine ⟨hok, .clock ctx, ⟨fun _ ht => ?_, fun _ _ _ => ?_⟩, fun _ hvis hband => ?_⟩
        · exact Bool.noConfusion (hterm'.symm.trans ht)
        · rw [hshown]
          exact hsameOver _ hover
        · rw [hstart, hvpos] at hvis
          rw [hshown, hvpos] at hband
          exact absurd hband (hnotOver _ hover hvis)
      · -- a new band
        rw [hpair] at hshown
        obtain ⟨harmed, hterm', hvstart, hvstop⟩ := hnew (ctx.denise.sprites.sp sp)
        rw [← hch] at harmed hterm' hvstart hvstop
        refine ⟨hok, .clock ctx, ⟨fun _ _ => ?_, fun _ ht _ => ?_⟩, fun _ hvis hband => ?_⟩
        · rw [hshown]
          exact ⟨harmed, hvstart, hvstop⟩
        · exact Bool.noConfusion (hterm.symm.trans (hterm'.symm.trans ht))
        · rw [hstart, hvpos] at hvis
          rw [hshown, hvpos] at hband
          have hif := hcontrol hctrl
          rw [if_neg hend] at hif
          exact Bool.noConfusion ((hif hvis).symm.trans hband)

theorem BandPhase.between (h : BandPhase sp ctx r) {e : LineEvent} (hu : e.Unrolled) (hc : ¬ e.IsClock)
    (hw : ∀ addr value, e.writes = some (addr, value) → isChannelReg sp addr = false) :
    BandPhase sp (lineEvent ctx e) r := by
  have hch : (lineEvent ctx e).agnus.spriteDma.sp sp = ctx.agnus.spriteDma.sp sp := by
    rcases lineEvent_agnus h.ok hu hc with ⟨addr, value, hwrite, ha⟩ | ⟨-, hs⟩
    · rw [ha]
      exact agnusAfterWrite_channel (hw addr value hwrite) _ _
    · rw [hs]
  have hshown : (lineEvent ctx e).denise.sprites.sp sp = ctx.denise.sprites.sp sp := by
    rcases lineEvent_denise ctx hu hc with ⟨addr, value, hwrite, hd⟩ | hd
    · rw [hd]
      exact deniseAfterWrite_channel (hw addr value hwrite) _ _ _
    · rw [hd]
  obtain ⟨⟨hseen, hframe, hvisible, -⟩, -⟩ := lineEvent_raster ctx hu hc
  obtain ⟨hhpos, hvpos, hcount⟩ := lineEvent_position h.ok hu hc
  have hstart := lineEvent_visibleStart h.ok hu
  refine ⟨lineEvent_ok h.ok e, ⟨?_, ?_, ?_⟩, ?_, ?_⟩
  · rw [hseen, hvpos]
    exact h.follows.vpos
  · rw [hframe, hcount]
    exact h.follows.frame
  · rw [hvisible, hstart, hvpos]
    exact h.follows.visible
  · rw [hch, hshown]
    refine h.known.same ⟨rfl, rfl, rfl, rfl⟩ ?_
    unfold BandOver
    rw [hvpos, hhpos, hstart]
    exact fun hpos => ⟨hpos, id⟩
  · rw [hshown, hhpos, hvpos, hstart]
    exact h.served

/-- **A line that is composed**: the record has the pair of every channel drawn on it. -/
theorem BandPhase.draws (h : BandPhase sp ctx r) {e : LineEvent} (hd : DmaDriven sp (ctx, r) e)
    (hb : BandsApart sp (ctx, r) e) : DrawsDelivered sp (ctx, r) e := by
  intro hc y hline hshown
  simp only at hline hshown ⊢
  have hattached := hb.attached hc y hline
  simp only at hattached
  obtain ⟨hseen, hframe, hvisible, -⟩ := dispatch_sight ctx
  simp only [composedLine, Option.ite_none_right_eq_some, Bool.and_eq_true, Option.some.injEq] at hline
  obtain ⟨⟨⟨hchanged, hvis⟩, -⟩, hy⟩ := hline
  -- the beam is at the end of its line, behind the channel's slots
  have hlast : ctx.agnus.beam.hpos.toNat = 226 := by
    cases clock_beam h.ok with
    | line last => exact last
    | frame last => exact last
    | right hhpos hvpos hcount =>
      simp only [deniseLineChanged, Bool.or_eq_true, bne_iff_ne] at hchanged
      rw [hseen, hframe, h.follows.vpos, h.follows.frame, hvpos, hcount] at hchanged
      rcases hchanged with hne | hne
      · exact absurd rfl hne
      · exact absurd rfl hne
  obtain ⟨-, -, hB⟩ := spriteSlots_lt sp
  have hpair : channelPair sp ctx = none := (channelPair_other h.ok (by omega)).2
  have hsame := (dispatch_channel (hd.move hc)).2
  simp only at hsame
  rw [hpair] at hsame
  have hyv : y = ctx.agnus.beam.vpos := by rw [← hy, hseen, h.follows.vpos]
  have hband : spriteBandHas ((schedulerDispatch (schedulerPrepare ctx)).denise.sprites.sp sp) y = true := by
    unfold channelShown at hshown
    cases hatt : deniseSpriteIsAttached (schedulerDispatch (schedulerPrepare ctx)).denise.sprites sp with
    | true =>
      rw [hatt, if_pos rfl] at hshown
      simp only [spriteOnLine, Bool.and_eq_true] at hshown
      exact hattached hatt hshown.1.2
    | false =>
      rw [hatt, if_neg (by decide)] at hshown
      simp only [spriteOnLine, Bool.and_eq_true] at hshown
      exact hshown.2
  rw [hvisible] at hvis
  rw [hsame, hyv] at hband
  rw [hsame]
  exact ⟨hyv, h.served (by omega) (h.follows.visible hvis) hband⟩

/-- **One event of a run.** -/
theorem BandPhase.event (h : BandPhase sp ctx r) {e : LineEvent} (hd : DmaDriven sp (ctx, r) e)
    (hb : BandsApart sp (ctx, r) e) : BandPhase sp (lineEvent ctx e) (recordData sp ctx r e) := by
  by_cases hc : e.IsClock
  · have hmove := hd.move hc
    have hon := hd.on hc
    have hgranted := hd.granted hc
    have hcontrol := hb.control hc
    obtain rfl : e = .bus .clock := LineEvent.eq_clock hc
    by_cases hB : ctx.agnus.beam.hpos.toNat = spriteSlotB sp
    · exact h.clockB hon (hgranted (.inr hB)) hmove hB (hcontrol hB)
    · exact h.clockOther hmove hB
  · rw [recordData_between hc]
    exact h.between hd.unrolled hc hd.writes

theorem BandPhase.run : ∀ (es : List LineEvent) {ctx : RigelContext} {r : LineData} (_ : BandPhase sp ctx r),
    AlongRun (bandEvent sp) (DmaDriven sp) (ctx, r) es → AlongRun (bandEvent sp) (BandsApart sp) (ctx, r) es →
      AlongRun (bandEvent sp) (DrawsDelivered sp) (ctx, r) es
  | [], _, _, _, _, _ => trivial
  | _ :: es, _, _, h, hd, hb => ⟨h.draws hd.1 hb.1, BandPhase.run es (h.event hd.1 hb.1) hd.2 hb.2⟩

end

/-- **Sprite DMA and sprite display.** From the start of a frame, over any run in which a channel is driven by DMA alone,
every line on which Denise draws the channel is one on which Agnus delivered a data pair to it, and the words drawn are
that pair's, as long as no control pair arrives on a visible line of its own band, no list ends inside the band that
Denise still holds, and no channel is attached to a partner whose band leaves its own. -/
theorem sprite_draws_delivered (sp : Fin 8) {ctx : RigelContext} (h : BusReachable ctx)
    (hv : agnusIsVertbPosition (agnusSlotSchedulerStep ctx).agnus.beam.hpos
      (agnusSlotSchedulerStep ctx).agnus.beam.vpos = true) (r : LineData) (es : List LineEvent)
    (hd : AlongRun (bandEvent sp) (DmaDriven sp) (agnusSlotSchedulerStep ctx, r) es)
    (hb : AlongRun (bandEvent sp) (BandsApart sp) (agnusSlotSchedulerStep ctx, r) es) :
    AlongRun (bandEvent sp) (DrawsDelivered sp) (agnusSlotSchedulerStep ctx, r) es :=
  BandPhase.run es (.restart h.agnusOk hv r) hd hb

/-! ## A machine with one sprite list -/

instance (ctx : RigelContext) (ch : DeniseSprite) : Decidable (BandOver ctx ch) := inferInstanceAs (Decidable (_ → _))

instance (sp : Fin 8) (ctx : RigelContext) : Decidable (ControlApart sp ctx) :=
  inferInstanceAs (Decidable (_ → _ → ite _ _ _))

instance (sp : Fin 8) (s : RigelContext × LineData) (e : LineEvent) : Decidable (BandsApart sp s e) :=
  -- the one line that is composed is looked at, not all of the lines
  have : Decidable (∀ y ∈ composedLine s.1,
      deniseSpriteIsAttached (schedulerDispatch (schedulerPrepare s.1)).denise.sprites sp = true →
      spriteBandHas ((schedulerDispatch (schedulerPrepare s.1)).denise.sprites.sp (sp - 1)) y = true →
        spriteBandHas ((schedulerDispatch (schedulerPrepare s.1)).denise.sprites.sp sp) y = true) :=
    (composedLine s.1).decidableForallMem
  decidable_of_iff
    ((e.IsClock → s.1.agnus.beam.hpos.toNat = spriteSlotB sp → ControlApart sp s.1) ∧
      (e.IsClock → ∀ y ∈ composedLine s.1,
        deniseSpriteIsAttached (schedulerDispatch (schedulerPrepare s.1)).denise.sprites sp = true →
        spriteBandHas ((schedulerDispatch (schedulerPrepare s.1)).denise.sprites.sp (sp - 1)) y = true →
          spriteBandHas ((schedulerDispatch (schedulerPrepare s.1)).denise.sprites.sp sp) y = true))
    ⟨fun h => ⟨h.1, h.2⟩, fun h => ⟨h.control, h.attached⟩⟩

/-- Only refresh and sprites have slots. -/
structure SpritesOnly (ctx : RigelContext) : Prop where
  off : DiskOff ctx
  dmacon : ctx.agnus.dma.dmacon = 0x0220

section
variable {ctx : RigelContext}

theorem SpritesOnly.clock (h : SpritesOnly ctx) : SpritesOnly (agnusSlotSchedulerStep ctx) :=
  ⟨h.off.clock, by rw [h.off.calm.dma, h.dmacon]⟩

theorem SpritesOnly.entry (h : SpritesOnly ctx) : liveEntry ctx ≠ .bitplane := by
  intro he
  have hon := liveEntry_enabled ctx
  rw [he, h.dmacon] at hon
  exact absurd hon (by decide)

theorem SpritesOnly.notBlitter (h : SpritesOnly ctx) : dispatchedOwner ctx ≠ .blitter := by
  have hwants : blitterWantsSlot ctx = false := by
    unfold blitterWantsSlot
    rw [h.dmacon, show dmaconBltenOn 0x0220 = false from by decide, Bool.and_false]
  rw [dispatchedOwner_eq h.off.ok, hwants, if_neg Bool.false_ne_true]
  split
  · split <;> exact SlotOwner.noConfusion
  · exact (slotEntry_static ctx).notBlitter

theorem SpritesOnly.driven (h : SpritesOnly ctx) (sp : Fin 8) (r : LineData) : DmaDriven sp (ctx, r) (.bus .clock) := by
  have hwrite := h.off.calm.write
  refine ⟨trivial, fun _ => ?_, fun _ _ => ?_, fun _ addr value hw => ?_, fun addr value hw => ?_⟩
  · show dmaconSprenOn ctx.agnus.dma.dmacon = true
    rw [h.dmacon]
    decide
  · show (diskWantsSlot ctx || liveEntry ctx == .bitplane) = false
    rw [h.off.wants, beq_eq_false_iff_ne.mpr h.entry]
    rfl
  · rw [hwrite] at hw
    cases hw
  · cases hw

/-- Any number of clocks drives the channel by DMA alone. -/
theorem SpritesOnly.drivenClocks (h : SpritesOnly ctx) (sp : Fin 8) (r : LineData) (n : Nat) :
    AlongRun (bandEvent sp) (DmaDriven sp) (ctx, r) (List.replicate n (.bus .clock)) :=
  alongRun_replicate (fun s => SpritesOnly s.1) (fun _ hs => hs.clock) (fun s hs => hs.driven sp s.2) n _ h

theorem SpritesOnly.beam (h : SpritesOnly ctx) : (agnusSlotSchedulerStep ctx).agnus.beam = beamStep ctx.agnus.beam 1 := by
  have hcopper : slotOwner (schedulerPrepare ctx) ≠ .copper := dispatchedOwner_ne_copper h.off.ok h.off.copper
  unfold agnusSlotSchedulerStep schedulerDispatch
  rw [schedulerAdvance_beam, h.off.calm.restore, dispatchSlot_beam hcopper]
  rfl

theorem SpritesOnly.display (h : SpritesOnly ctx) : SameDisplay ctx (schedulerDispatch (schedulerPrepare ctx)) := by
  have hcopper : slotOwner (schedulerPrepare ctx) ≠ .copper := dispatchedOwner_ne_copper h.off.ok h.off.copper
  unfold schedulerDispatch
  rw [h.off.calm.restore]
  exact (sameDisplay_prepare ctx).trans (sameDisplay_dispatch hcopper _ _)

theorem SpritesOnly.noMove (h : SpritesOnly ctx) (sp : Fin 8) : NoChannelMove sp ctx :=
  (h.driven sp none).move trivial

theorem clock_sight (ctx : RigelContext) :
    (agnusSlotSchedulerStep ctx).denise.output.visibleScanline = beamInVisibleArea (agnusSlotSchedulerStep ctx).agnus.beam ∧
      (agnusSlotSchedulerStep ctx).denise.output.scanlineWidth =
        (schedulerDispatch (schedulerPrepare ctx)).denise.video.width := by
  have hseen := rigelDeniseStep_follows (schedulerDispatch (schedulerPrepare ctx)).denise (agnusSlotSchedulerStep ctx).agnus.beam
  rw [clock_output]
  exact ⟨hseen.visible, hseen.width⟩

theorem schedulerAdvance_ram (ctx : RigelContext) : (schedulerAdvance ctx).ram = ctx.ram := by
  unfold schedulerAdvance schedulerAtVertb schedulerAtLineStart
  split
  · split <;> rfl
  · split <;> rfl

theorem SpritesOnly.ram (h : SpritesOnly ctx) : (agnusSlotSchedulerStep ctx).ram = ctx.ram := by
  have hready := (slotReady ctx).ram
  have hcopper : dispatchedOwner ctx ≠ .copper := dispatchedOwner_ne_copper h.off.ok h.off.copper
  have hdispatch : (schedulerDispatch (schedulerPrepare ctx)).ram = ctx.ram := by
    unfold schedulerDispatch
    change (dispatchSlot (dispatchedOwner ctx) _ _).ram = _
    cases howner : dispatchedOwner ctx with
    | disk => exact absurd howner h.off.owner
    | copper => exact absurd howner hcopper
    | blitter => exact absurd howner h.notBlitter
    | bitplane =>
      rw [dispatchedOwner_iff h.off.ok SlotOwner.noConfusion SlotOwner.noConfusion SlotOwner.noConfusion, slotEntry,
        h.off.wants] at howner
      exact absurd howner h.entry
    | _ => exact hready
  exact (schedulerAdvance_ram _).trans hdispatch

/-- A visible line is composed in the clock in which the beam leaves it. -/
theorem composedLine_leaves (hvpos : ctx.denise.output.beamVpos = ctx.agnus.beam.vpos)
    (hvisible : ctx.denise.output.visibleScanline = true) (hwidth : ctx.denise.output.scanlineWidth ≠ 0)
    (hleaves : (agnusSlotSchedulerStep ctx).agnus.beam.vpos ≠ ctx.agnus.beam.vpos) :
    composedLine ctx = some ctx.agnus.beam.vpos := by
  obtain ⟨hseen, -, hvis, hscan⟩ := dispatch_sight ctx
  unfold composedLine deniseLineChanged
  simp only [hseen, hvis, hscan, hvpos, hvisible]
  rw [bne_iff_ne.mpr hwidth, bne_iff_ne.mpr hleaves.symm]
  rfl

end

/-- A progressive beam keeps its visible lines. -/
theorem Progressive.visible {b : BeamState} (h : Progressive b) (n : Nat) :
    (beamRun b n).visibleYStart = b.visibleYStart ∧ (beamRun b n).visibleYStop = b.visibleYStop := by
  induction n with
  | zero => exact ⟨rfl, rfl⟩
  | succ n ih =>
    rw [beamRun_succ, (progressive_run h n).progressive.step_eq]
    exact ih

/-! ## The clocks of a frame -/

/-- One clock into a PAL frame with sprite DMA alone. -/
structure FrameBegun (ctx : RigelContext) : Prop where
  only : SpritesOnly ctx
  hpos : ctx.agnus.beam.hpos = 1
  vpos : ctx.agnus.beam.vpos = 0
  frameLines : ctx.agnus.beam.frameLines = 312
  lof : ctx.agnus.beam.lof = 0
  lofToggle : ctx.agnus.beam.lofToggle = 0
  visibleYStart : ctx.agnus.beam.visibleYStart = 26
  visibleYStop : ctx.agnus.beam.visibleYStop = 311
  width : ctx.denise.video.width ≠ 0

/-- The run of channel 0 after `n` clocks. -/
def bandClocks (ctx : RigelContext) (n : Nat) : RigelContext × LineData :=
  (List.replicate n (.bus .clock)).foldl (bandEvent 0) (ctx, none)

theorem bandClocks_succ (ctx : RigelContext) (n : Nat) :
    bandClocks ctx (n + 1) = bandEvent 0 (bandClocks ctx n) (.bus .clock) := by
  unfold bandClocks
  rw [List.replicate_succ', List.foldl_append]
  rfl

section
variable {ctx : RigelContext} (h : FrameBegun ctx)
include h

theorem FrameBegun.sprites (n : Nat) : SpritesOnly (bandClocks ctx n).1 := by
  induction n with
  | zero => exact h.only
  | succ n ih =>
    rw [bandClocks_succ]
    exact ih.clock

theorem FrameBegun.beam (n : Nat) : (bandClocks ctx n).1.agnus.beam = beamRun ctx.agnus.beam n := by
  induction n with
  | zero => rfl
  | succ n ih =>
    rw [bandClocks_succ, beamRun_succ, ← ih]
    exact (h.sprites n).beam

theorem FrameBegun.video (n : Nat) : (bandClocks ctx n).1.denise.video = ctx.denise.video := by
  induction n with
  | zero => rfl
  | succ n ih =>
    rw [bandClocks_succ, ← ih]
    exact ((h.sprites n).display.trans (sameDisplay_advance _)).video

theorem FrameBegun.start : agnusIsVertbPosition ctx.agnus.beam.hpos ctx.agnus.beam.vpos = true := by
  rw [h.hpos, h.vpos]
  rfl

theorem FrameBegun.progressive : Progressive ctx.agnus.beam := by
  refine ⟨h.only.off.ok.beam, ?_, h.lof, h.lofToggle⟩
  rw [h.vpos, h.frameLines]
  decide

/-- Where the beam is after `n` clocks. -/
theorem FrameBegun.place (n : Nat) : (bandClocks ctx n).1.agnus.beam.hpos.toNat = (1 + n) % 227 ∧
    (bandClocks ctx n).1.agnus.beam.vpos.toNat = (1 + n) / 227 % 312 := by
  have hat := progressive_run h.progressive n
  have hhpos := hat.hpos
  have hvpos := hat.vpos
  rw [h.hpos] at hhpos
  rw [h.hpos, h.vpos, h.frameLines] at hvpos
  simp only [UInt16.reduceToNat, Nat.zero_add] at hhpos hvpos
  rw [h.beam]
  exact ⟨hhpos, hvpos⟩

theorem FrameBegun.visible (n : Nat) : (bandClocks ctx n).1.agnus.beam.visibleYStart = 26 ∧
    (bandClocks ctx n).1.agnus.beam.visibleYStop = 311 := by
  obtain ⟨hstart, hstop⟩ := h.progressive.visible n
  rw [h.beam]
  exact ⟨hstart.trans h.visibleYStart, hstop.trans h.visibleYStop⟩

/-- The frame does not restart inside itself. -/
theorem FrameBegun.noRestart {n : Nat} (hn : n + 2 < 227 * 312) :
    agnusIsVertbPosition (agnusSlotSchedulerStep (bandClocks ctx n).1).agnus.beam.hpos
      (agnusSlotSchedulerStep (bandClocks ctx n).1).agnus.beam.vpos = false := by
  obtain ⟨hhpos, hvpos⟩ := h.place (n + 1)
  rw [bandClocks_succ] at hhpos hvpos
  rw [agnusIsVertbPosition]
  refine Bool.and_eq_false_imp.mpr fun hv => beq_eq_false_iff_ne.mpr fun hh => ?_
  have h0 := hvpos.symm.trans (congrArg UInt16.toNat (beq_iff_eq.mp hv))
  have h1 := hhpos.symm.trans (congrArg UInt16.toNat hh)
  simp only [agnusVertbVpos, agnusVertbHpos, UInt16.reduceToNat] at h0 h1
  omega

/-- What Denise knows of the line after a clock. -/
theorem FrameBegun.sight (n : Nat) :
    (bandClocks ctx (n + 1)).1.denise.output.beamVpos = (bandClocks ctx (n + 1)).1.agnus.beam.vpos ∧
      (bandClocks ctx (n + 1)).1.denise.output.visibleScanline = beamInVisibleArea (bandClocks ctx (n + 1)).1.agnus.beam ∧
      (bandClocks ctx (n + 1)).1.denise.output.scanlineWidth ≠ 0 := by
  obtain ⟨hvisible, hwidth⟩ := clock_sight (bandClocks ctx n).1
  rw [(h.sprites n).display.video, h.video] at hwidth
  rw [bandClocks_succ]
  exact ⟨(DeniseFollows.clock _).vpos, hvisible, hwidth ▸ h.width⟩

/-- The last clock of a visible line composes it. -/
theorem FrameBegun.composed {n : Nat} {y : UInt16} (hlast : (2 + n) % 227 = 226) (hline : (2 + n) / 227 = y.toNat)
    (hvisible : 26 ≤ y.toNat ∧ y.toNat ≤ 311) : composedLine (bandClocks ctx (n + 1)).1 = some y := by
  obtain ⟨hfollows, hshown, hwidth⟩ := h.sight n
  obtain ⟨hstart, hstop⟩ := h.visible (n + 1)
  have hat := (h.place (n + 1)).2
  have hnext := (h.place (n + 1 + 1)).2
  rw [bandClocks_succ] at hnext
  have hy : (bandClocks ctx (n + 1)).1.agnus.beam.vpos = y := UInt16.toNat_inj.mp (by omega)
  refine hy ▸ composedLine_leaves hfollows (hshown.trans ?_) hwidth fun hsame => ?_
  · unfold beamInVisibleArea
    rw [hstart, hstop, hy, Bool.and_eq_true, decide_eq_true_eq, decide_eq_true_eq]
    exact hvisible
  · have hboth := hnext.symm.trans ((congrArg UInt16.toNat hsame).trans hat)
    omega

theorem FrameBegun.memory (n : Nat) : (bandClocks ctx n).1.ram = ctx.ram := by
  induction n with
  | zero => rfl
  | succ n ih =>
    rw [bandClocks_succ, ← ih]
    exact (h.sprites n).ram

end

/-! ## A list that is drawn -/

/-- Channel 0 on both sides, and the record of its line. -/
structure ChannelAt (ch : SpriteDmaChannel) (shown : DeniseSprite) (r : LineData) (s : RigelContext × LineData) : Prop where
  channel : s.1.agnus.spriteDma.sp (0 : Fin 8) = ch
  shown : s.1.denise.sprites.sp (0 : Fin 8) = shown
  record : s.2 = r

section
variable {ctx : RigelContext} {n : Nat} {ch : SpriteDmaChannel} {shown : DeniseSprite} {r : LineData}

theorem ChannelAt.clock (hat : ChannelAt ch shown r (bandClocks ctx n)) (h : FrameBegun ctx) (hn : n + 2 < 227 * 312) :
    ChannelAt ((spritesAfterSlot (bandClocks ctx n).1).sp (0 : Fin 8)) (spriteReceive shown (channelPair 0 (bandClocks ctx n).1))
      (recordData 0 (bandClocks ctx n).1 r (.bus .clock)) (bandClocks ctx (n + 1)) := by
  obtain ⟨hch, hshown⟩ := clock_band ((h.sprites n).noMove 0) (h.noRestart hn)
  rw [bandClocks_succ]
  refine ⟨hch, ?_, ?_⟩
  · rw [← hat.shown]
    exact hshown
  · rw [← hat.record]
    rfl

/-- A clock that gives the channel nothing. -/
theorem ChannelAt.pause (hat : ChannelAt ch shown r (bandClocks ctx n)) (h : FrameBegun ctx) (hn : n + 2 < 227 * 312)
    (hidle : ch.armed = true ∧ (1 + n) / 227 < ch.vstart.toNat ∨ (1 + n) % 227 ≠ 0x15 ∧ (1 + n) % 227 ≠ 0x17)
    (hline : r = none ∨ (2 + n) % 227 ≠ 0) : ChannelAt ch shown r (bandClocks ctx (n + 1)) := by
  obtain ⟨hhpos, hvpos⟩ := h.place n
  have hserved : spriteServed 0 (bandClocks ctx n).1 = false := by
    rcases hidle with ⟨harmed, habove⟩ | ⟨hA, hB⟩
    · have hbefore : (bandClocks ctx n).1.agnus.beam.vpos < ch.vstart := by
        rw [UInt16.lt_iff_toNat_lt, hvpos]
        omega
      unfold spriteServed spriteActive
      rw [hat.channel, harmed, decide_eq_true hbefore, Bool.and_true, Bool.or_true, Bool.not_true, Bool.and_false]
    · refine not_served_of_slot (h.sprites n).off.ok ?_ ?_
      · rw [hhpos]
        exact hA
      · rw [hhpos]
        exact hB
  have hpair : channelPair 0 (bandClocks ctx n).1 = none := by
    unfold channelPair
    rw [hserved, Bool.false_and, if_neg Bool.false_ne_true]
  have hnext := hat.clock h hn
  rw [hpair, spritesAfterSlot_channel, hserved, if_neg Bool.false_ne_true, hat.channel] at hnext
  refine ⟨hnext.channel, hnext.shown, hnext.record.trans ?_⟩
  unfold recordData
  rw [hpair]
  rcases hline with hnone | hin
  · rw [hnone, ite_self]
  · have hplace := (h.place (n + 1)).1
    rw [bandClocks_succ] at hplace
    refine if_neg fun h0 => hin ?_
    have hzero := hplace.symm.trans (congrArg UInt16.toNat h0)
    simp only [UInt16.reduceToNat] at hzero
    omega

/-- The channel is served in its slots from the first line of its band on. -/
theorem ChannelAt.served (hat : ChannelAt ch shown r (bandClocks ctx n)) (h : FrameBegun ctx) (hn : n + 2 < 227 * 312)
    (hslot : (1 + n) % 227 = 0x15 ∨ (1 + n) % 227 = 0x17) (hgoes : ch.terminated = false)
    (hbelow : ch.vstart.toNat ≤ (1 + n) / 227) : spriteServed 0 (bandClocks ctx n).1 = true := by
  obtain ⟨hhpos, hvpos⟩ := h.place n
  have hdriven := (h.sprites n).driven 0 none
  have hslots : (bandClocks ctx n).1.agnus.beam.hpos.toNat = spriteSlotA 0 ∨
      (bandClocks ctx n).1.agnus.beam.hpos.toNat = spriteSlotB 0 := by
    rw [hhpos]
    exact hslot
  rw [served_eq (h.sprites n).off.ok (hdriven.on trivial) hslots, hdriven.granted trivial hslots, Bool.not_false, Bool.true_and]
  refine (spriteActive_iff _ _).mpr ⟨?_, fun _ => ?_⟩
  · rw [hat.channel]
    exact hgoes
  · rw [hat.channel, UInt16.le_iff_toNat_le, hvpos]
    omega

/-- The first word of a pair. -/
theorem ChannelAt.slotA (hat : ChannelAt ch shown r (bandClocks ctx n)) (h : FrameBegun ctx) (hn : n + 2 < 227 * 312)
    (hslot : (1 + n) % 227 = 0x15) (hgoes : ch.terminated = false) (hbelow : ch.vstart.toNat ≤ (1 + n) / 227) :
    ChannelAt (spriteDmaSlotA ch (bandClocks ctx n).1.agnus.beam.vpos ctx.ram) shown r (bandClocks ctx (n + 1)) := by
  have hserved := hat.served h hn (.inl hslot) hgoes hbelow
  have hisB := @isB_of_slotA _ 0 ((h.place n).1.trans hslot)
  have hpair : channelPair 0 (bandClocks ctx n).1 = none := by
    unfold channelPair
    rw [hisB, Bool.and_false, if_neg Bool.false_ne_true]
  have hnext := hat.clock h hn
  rw [hpair, spritesAfterSlot_channel, hserved, if_pos rfl, hisB, if_neg Bool.false_ne_true, hat.channel, h.memory] at hnext
  refine ⟨hnext.channel, hnext.shown, hnext.record.trans ?_⟩
  have hplace := (h.place (n + 1)).1
  rw [bandClocks_succ] at hplace
  unfold recordData
  rw [hpair]
  refine if_neg fun h0 => ?_
  have hzero := hplace.symm.trans (congrArg UInt16.toNat h0)
  simp only [UInt16.reduceToNat] at hzero
  omega

/-- The second word of a data pair. -/
theorem ChannelAt.slotB (hat : ChannelAt ch shown r (bandClocks ctx n)) (h : FrameBegun ctx) (hn : n + 2 < 227 * 312)
    (hslot : (1 + n) % 227 = 0x17) (hgoes : ch.terminated = false) (hbelow : ch.vstart.toNat ≤ (1 + n) / 227)
    (hdata : ch.fetchCtrl = false) :
    ChannelAt (spriteDmaSlotB ch ctx.ram).1 { shown with data := ch.w0, datb := chipRamRead16 ctx.ram ch.ptr }
      (some (ch.w0, chipRamRead16 ctx.ram ch.ptr)) (bandClocks ctx (n + 1)) := by
  have hserved := hat.served h hn (.inr hslot) hgoes hbelow
  have hisB := @isB_of_slotB _ 0 ((h.place n).1.trans hslot)
  have hpair : channelPair 0 (bandClocks ctx n).1 = some (ch.w0, chipRamRead16 ctx.ram ch.ptr, false) := by
    unfold channelPair spriteDmaSlotB
    rw [hserved, hisB, Bool.and_true, if_pos rfl, hat.channel, h.memory, hdata]
    rfl
  have hnext := hat.clock h hn
  rw [hpair, spritesAfterSlot_channel, hserved, if_pos rfl, hisB, if_pos rfl, hat.channel, h.memory] at hnext
  refine ⟨hnext.channel, hnext.shown, hnext.record.trans ?_⟩
  have hplace := (h.place (n + 1)).1
  rw [bandClocks_succ] at hplace
  unfold recordData
  rw [hpair]
  refine if_neg fun h0 => ?_
  have hzero := hplace.symm.trans (congrArg UInt16.toNat h0)
  simp only [UInt16.reduceToNat] at hzero
  omega

end

/-- A machine with sprite DMA alone and a list at address zero. -/
def listMachine (list : UInt32 → UInt16) : RigelContext :=
  ([.writeRam list, .customWrite 0x096 0x8220] : List HostCall).foldl hostCall palMachine

theorem listMachine_reachable (list : UInt32 → UInt16) : BusReachable (listMachine list) := .ofHost (palMachine_reachable.calls _)

/-- What Agnus, Paula and Denise hold does not depend on the list. -/
theorem listMachine_chips (list : UInt32 → UInt16) :
    (listMachine list).agnus = (listMachine fun _ => 0).agnus ∧ (listMachine list).paula = (listMachine fun _ => 0).paula ∧
      (listMachine list).denise = (listMachine fun _ => 0).denise :=
  ⟨rfl, rfl, rfl⟩

/-- With the sprites' DMA alone on, the first clock begins the frame. -/
theorem listMachine_begun (list : UInt32 → UInt16) :
    SpritesOnly (listMachine list) ∧ FrameBegun (agnusSlotSchedulerStep (listMachine list)) := by
  obtain ⟨hagnus, hpaula, hdenise⟩ := listMachine_chips list
  have hchips : (dmaconCopenOn (listMachine fun _ => 0).agnus.dma.dmacon = false ∧
      dmaconDskenOn (listMachine fun _ => 0).agnus.dma.dmacon = false ∧
      diskDmaWantsService (listMachine fun _ => 0).paula.disk = false ∧
      (listMachine fun _ => 0).agnus.dma.dmacon = 0x0220 ∧ (listMachine fun _ => 0).denise.video.width ≠ 0) ∧
      let b := beamStep (listMachine fun _ => 0).agnus.beam 1
      b.hpos = 1 ∧ b.vpos = 0 ∧ b.frameLines = 312 ∧ b.lof = 0 ∧ b.lofToggle = 0 ∧ b.visibleYStart = 26 ∧
        b.visibleYStop = 311 := by
    decide +kernel
  rw [← hagnus, ← hpaula, ← hdenise] at hchips
  obtain ⟨⟨hcopper, hdsken, hidle, hdmacon, hwidth⟩, hhpos, hvpos, hlines, hlof, htoggle, hstart, hstop⟩ := hchips
  have honly : SpritesOnly (listMachine list) :=
    ⟨⟨(listMachine_reachable list).agnusOk, hcopper, hdsken, .inr hidle⟩, hdmacon⟩
  have hvideo : (agnusSlotSchedulerStep (listMachine list)).denise.video = (listMachine list).denise.video :=
    (honly.display.trans (sameDisplay_advance _)).video
  rw [← honly.beam] at hhpos hvpos hlines hlof htoggle hstart hstop
  exact ⟨honly, honly.clock, hhpos, hvpos, hlines, hlof, htoggle, hstart, hstop, hvideo ▸ hwidth⟩

/-- A band of the lines 26 and 27, their data pairs, and the end. -/
def twoLineList : UInt32 → UInt16
  | 0 => 0x1A40
  | 2 => 0x1C00
  | 4 => 0xF00F
  | 6 => 0x0FF0
  | 8 => 0x8001
  | 10 => 0x1881
  | _ => 0

def drawnFrame : RigelContext := agnusSlotSchedulerStep (listMachine twoLineList)

theorem drawnFrame_begun : FrameBegun drawnFrame := (listMachine_begun twoLineList).2

theorem drawnFrame_ram : drawnFrame.ram = (listMachine twoLineList).ram := (listMachine_begun twoLineList).1.ram

/-- The band as the control pair on line 0 sets it up. -/
def twoLineChannel : SpriteDmaChannel := ⟨0, 4, true, false, true, 26, 28, 0x1A40⟩

def twoLineSprite : DeniseSprite := ⟨0x1A40, 0x1C00, 0, 0, true, false⟩

/-- Behind its slots on line 0 the channel and Denise have the band, and the slots before them belong to no other. -/
theorem drawnFrame_line0 :
    AlongRun (bandEvent 0) (BandsApart 0) (drawnFrame, none) (List.replicate 60 (.bus .clock)) ∧
      (bandClocks drawnFrame 60).1.agnus.spriteDma.sp (0 : Fin 8) = twoLineChannel ∧
      (bandClocks drawnFrame 60).1.denise.sprites.sp (0 : Fin 8) = twoLineSprite ∧ (bandClocks drawnFrame 60).2 = none := by
  decide +kernel

theorem drawnFrame_armed : ChannelAt twoLineChannel twoLineSprite none (bandClocks drawnFrame 60) :=
  ⟨drawnFrame_line0.2.1, drawnFrame_line0.2.2.1, drawnFrame_line0.2.2.2⟩

/-- The channel waits for its band, up to its A-slot on line 26. -/
theorem drawnFrame_waits : ∀ n ≤ 5862, ChannelAt twoLineChannel twoLineSprite none (bandClocks drawnFrame (60 + n))
  | 0, _ => drawnFrame_armed
  | n + 1, hn => by
    refine (drawnFrame_waits n (Nat.le_of_succ_le hn)).pause drawnFrame_begun (by omega) ?_ (.inl rfl)
    by_cases habove : (1 + (60 + n)) / 227 < 26
    · exact .inl ⟨rfl, habove⟩
    · exact .inr (by omega)

/-- Its first word on line 26. -/
def fetchedChannel : SpriteDmaChannel := { twoLineChannel with fetchCtrl := false, w0 := 0xF00F, ptr := 6 }

theorem drawnFrame_slotA : ChannelAt fetchedChannel twoLineSprite none (bandClocks drawnFrame (60 + 5862 + 1)) := by
  have hline : (bandClocks drawnFrame (60 + 5862)).1.agnus.beam.vpos = 26 :=
    UInt16.toNat_inj.mp (drawnFrame_begun.place (60 + 5862)).2
  have hnext := (drawnFrame_waits 5862 le_rfl).slotA drawnFrame_begun (by decide) (by decide) rfl (by decide)
  rw [hline, drawnFrame_ram, show spriteDmaSlotA twoLineChannel 26 (listMachine twoLineList).ram = fetchedChannel from rfl] at hnext
  exact hnext

theorem drawnFrame_fetched : ChannelAt fetchedChannel twoLineSprite none (bandClocks drawnFrame (60 + 5862 + 1 + 1)) :=
  drawnFrame_slotA.pause drawnFrame_begun (by decide) (.inr (by decide)) (.inl rfl)

/-- Its data pair, to the end of the line. -/
theorem drawnFrame_delivered : ∀ n ≤ 202,
    ChannelAt { fetchedChannel with ptr := 8 }
      { twoLineSprite with data := 0xF00F, datb := 0x0FF0 } (some (0xF00F, 0x0FF0)) (bandClocks drawnFrame (5925 + n))
  | 0, _ => by
    have hnext := drawnFrame_fetched.slotB drawnFrame_begun (by decide) (by decide) rfl (by decide) rfl
    rw [drawnFrame_ram, show chipRamRead16 (listMachine twoLineList).ram fetchedChannel.ptr = 0x0FF0 from rfl] at hnext
    exact hnext
  | n + 1, hn => (drawnFrame_delivered n (Nat.le_of_succ_le hn)).pause drawnFrame_begun (by omega) (.inr (by omega)) (.inr (by omega))

theorem drawnFrame_apart :
    AlongRun (bandEvent 0) (BandsApart 0) (drawnFrame, none) (List.replicate 6128 (.bus .clock)) := by
  have hfirst := drawnFrame_line0.1
  rw [alongRun_replicate_iff] at hfirst ⊢
  intro n hn
  by_cases h60 : n < 60
  · exact hfirst n h60
  refine ⟨fun _ hB => ?_, fun _ y _ hattached => ?_⟩
  · change (bandClocks drawnFrame n).1.agnus.beam.hpos.toNat = 0x17 at hB
    change ControlApart 0 (bandClocks drawnFrame n).1
    rw [(drawnFrame_begun.place n).1] at hB
    intro hactive hctrl
    exfalso
    by_cases hwaits : n ≤ 5922
    · -- above the band the channel is idle
      have hat := drawnFrame_waits (n - 60) (by omega)
      rw [show 60 + (n - 60) = n from by omega] at hat
      have hline := ((spriteActive_iff _ _).mp hactive).2 (congrArg SpriteDmaChannel.armed hat.channel)
      rw [hat.channel, UInt16.le_iff_toNat_le, (drawnFrame_begun.place n).2,
        show twoLineChannel.vstart.toNat = 26 from rfl] at hline
      omega
    · -- and on line 26 it fetches data
      obtain rfl : n = 60 + 5862 + 1 + 1 := by omega
      rw [drawnFrame_fetched.channel] at hctrl
      exact Bool.noConfusion hctrl
  · unfold deniseSpriteIsAttached at hattached
    exact Bool.noConfusion hattached

theorem drawnFrame_shown {n : Nat} (hn : n ≤ 202) :
    channelShown (schedulerDispatch (schedulerPrepare (bandClocks drawnFrame (5925 + n)).1)).denise.sprites 0 26 = true := by
  have hsprites := drawnFrame_begun.sprites (5925 + n)
  have hslot : (bandClocks drawnFrame (5925 + n)).1.agnus.beam.hpos.toNat ≠ spriteSlotB 0 := by
    rw [(drawnFrame_begun.place (5925 + n)).1, show spriteSlotB 0 = 0x17 from rfl]
    omega
  have hshown := (dispatch_channel (hsprites.noMove 0)).2
  rw [(channelPair_other hsprites.off.ok hslot).2, (drawnFrame_delivered n hn).shown] at hshown
  rw [channelShown_even rfl]
  exact (congrArg (spriteBandHas · 26) hshown).trans (by decide)

/-- The first line of a band, drawn with its data pair. -/
theorem sprite_draws_delivered_line26 :
    AlongRun (bandEvent 0) (DrawsDelivered 0) (drawnFrame, none) (List.replicate 6128 (.bus .clock)) ∧
      composedLine (bandClocks drawnFrame (5925 + 202)).1 = some 26 ∧
      channelShown (schedulerDispatch (schedulerPrepare (bandClocks drawnFrame (5925 + 202)).1)).denise.sprites 0 26 = true ∧
      (bandClocks drawnFrame (5925 + 202)).2 = some (0xF00F, 0x0FF0) :=
  ⟨sprite_draws_delivered 0 (listMachine_reachable twoLineList) drawnFrame_begun.start none _
      (drawnFrame_begun.only.drivenClocks 0 none 6128) drawnFrame_apart,
    drawnFrame_begun.composed (n := 6126) (by decide) (by decide) (by decide), drawnFrame_shown le_rfl,
    (drawnFrame_delivered 202 le_rfl).record⟩

/-! ## A band left behind -/

/-- A list of one band, which stops on the line that it starts on. -/
def wrappedList : UInt32 → UInt16 := fun addr => if addr = 0 ∨ addr = 2 then 0x0100 else 0

def bandMachine : RigelContext := listMachine wrappedList

def wrappedFrame : RigelContext := agnusSlotSchedulerStep bandMachine

theorem wrappedFrame_begun : FrameBegun wrappedFrame := (listMachine_begun wrappedList).2

/-- The list has ended, and Denise still holds a band of the lines 1 to 256. -/
structure ListEnded (sp : Fin 8) (s : RigelContext × LineData) : Prop where
  only : SpritesOnly s.1
  terminated : (s.1.agnus.spriteDma.sp sp).terminated = true
  band : ∀ y : UInt16, 1 ≤ y → y < 257 → spriteBandHas (s.1.denise.sprites.sp sp) y = true
  record : s.2 = none
  vpos : s.1.denise.output.beamVpos = s.1.agnus.beam.vpos
  visible : s.1.denise.output.visibleScanline = beamInVisibleArea s.1.agnus.beam
  width : s.1.denise.output.scanlineWidth = s.1.denise.video.width
  video : s.1.denise.video.width ≠ 0

section
variable {sp : Fin 8} {s : RigelContext × LineData}

theorem ListEnded.notServed (h : ListEnded sp s) : spriteServed sp s.1 = false := by
  unfold spriteServed spriteActive
  rw [h.terminated, Bool.true_or, Bool.not_true, Bool.and_false]

theorem ListEnded.noPair (h : ListEnded sp s) : channelPair sp s.1 = none := by
  unfold channelPair
  rw [h.notServed, Bool.false_and]
  rfl

theorem ListEnded.clock (h : ListEnded sp s)
    (hv : agnusIsVertbPosition (agnusSlotSchedulerStep s.1).agnus.beam.hpos
      (agnusSlotSchedulerStep s.1).agnus.beam.vpos = false) :
    ListEnded sp (bandEvent sp s (.bus .clock)) := by
  obtain ⟨hch, hshown⟩ := clock_band (h.only.noMove sp) hv
  rw [h.noPair] at hshown
  have hvideo : (agnusSlotSchedulerStep s.1).denise.video = s.1.denise.video :=
    (h.only.display.trans (sameDisplay_advance _)).video
  have hsight := clock_sight s.1
  refine ⟨h.only.clock, ?_, ?_, ?_, (DeniseFollows.clock s.1).vpos, hsight.1, ?_, ?_⟩
  · show ((agnusSlotSchedulerStep s.1).agnus.spriteDma.sp sp).terminated = true
    rw [hch, spritesAfterSlot_channel, h.notServed]
    exact h.terminated
  · show ∀ y : UInt16, 1 ≤ y → y < 257 → spriteBandHas ((agnusSlotSchedulerStep s.1).denise.sprites.sp sp) y = true
    rw [hshown]
    exact h.band
  · show recordData sp s.1 s.2 (.bus .clock) = none
    unfold recordData
    rw [h.noPair, h.record, ite_self]
  · show (agnusSlotSchedulerStep s.1).denise.output.scanlineWidth = (agnusSlotSchedulerStep s.1).denise.video.width
    rw [hsight.2, h.only.display.video, hvideo]
  · show (agnusSlotSchedulerStep s.1).denise.video.width ≠ 0
    rw [hvideo]
    exact h.video

/-- On a visible line that it leaves, the channel is drawn with nothing delivered. -/
theorem ListEnded.drawn (h : ListEnded sp s) (heven : sp.val % 2 = 0) (hvisible : beamInVisibleArea s.1.agnus.beam = true)
    (hstart : 1 ≤ s.1.agnus.beam.vpos) (hstop : s.1.agnus.beam.vpos < 257)
    (hleaves : (agnusSlotSchedulerStep s.1).agnus.beam.vpos ≠ s.1.agnus.beam.vpos) : ¬ DrawsDelivered sp s (.bus .clock) := by
  have hsame := (dispatch_channel (h.only.noMove sp)).2
  rw [h.noPair] at hsame
  have hcomposed : composedLine s.1 = some s.1.agnus.beam.vpos :=
    composedLine_leaves h.vpos (h.visible.trans hvisible) (h.width ▸ h.video) hleaves
  have hdrawn : channelShown (schedulerDispatch (schedulerPrepare s.1)).denise.sprites sp s.1.agnus.beam.vpos = true := by
    rw [channelShown_even heven, hsame]
    exact h.band _ hstart hstop
  intro hdraws
  have hrecord := (hdraws trivial _ hcomposed hdrawn).2
  rw [h.record] at hrecord
  cases hrecord

end

/-- The control pair of a band of the lines 1 to 256 has arrived on both sides. -/
structure BandArrived (sp : Fin 8) (s : RigelContext × LineData) : Prop where
  fetched : (s.1.agnus.spriteDma.sp sp).armed = true ∨ (s.1.agnus.spriteDma.sp sp).terminated = true
  armed : (s.1.denise.sprites.sp sp).armed = true
  vstart : deniseSpriteVstart (s.1.denise.sprites.sp sp) = 1
  stop : spriteBandStop (s.1.denise.sprites.sp sp) = 257
  video : s.1.denise.video.width ≠ 0

instance (sp : Fin 8) (s : RigelContext × LineData) : Decidable (BandArrived sp s) :=
  decidable_of_iff
    (((s.1.agnus.spriteDma.sp sp).armed = true ∨ (s.1.agnus.spriteDma.sp sp).terminated = true) ∧
      (s.1.denise.sprites.sp sp).armed = true ∧ deniseSpriteVstart (s.1.denise.sprites.sp sp) = 1 ∧
        spriteBandStop (s.1.denise.sprites.sp sp) = 257 ∧ s.1.denise.video.width ≠ 0)
    ⟨fun ⟨h1, h2, h3, h4, h5⟩ => ⟨h1, h2, h3, h4, h5⟩, fun ⟨h1, h2, h3, h4, h5⟩ => ⟨h1, h2, h3, h4, h5⟩⟩

/-- A clock at whose end the list has ended. -/
theorem ListEnded.after {sp : Fin 8} {s : RigelContext × LineData} (h : SpritesOnly s.1)
    (harrived : BandArrived sp (bandEvent sp s (.bus .clock)))
    (hterminated : ((bandEvent sp s (.bus .clock)).1.agnus.spriteDma.sp sp).terminated = true)
    (hrecord : (bandEvent sp s (.bus .clock)).2 = none) : ListEnded sp (bandEvent sp s (.bus .clock)) := by
  have hsight := clock_sight s.1
  rw [h.display.video, ← (h.display.trans (sameDisplay_advance _)).video] at hsight
  refine ⟨h.clock, hterminated, fun y hy hy' => ?_, hrecord, (DeniseFollows.clock s.1).vpos, hsight.1, hsight.2,
    harrived.video⟩
  rw [spriteBandHas_iff, harrived.vstart, harrived.stop]
  exact ⟨harrived.armed, hy, hy'⟩

/-- Behind the channel's slots on line 1 the list has ended, without a data pair. -/
theorem bandClocks_line1 :
    AlongRun (bandEvent 0) (fun s _ => BandArrived 0 s) (bandClocks wrappedFrame 30) (List.replicate 230 (.bus .clock) ++ [.bus .clock]) ∧
      (((List.replicate 230 (.bus .clock)).foldl (bandEvent 0) (bandClocks wrappedFrame 30)).1.agnus.spriteDma.sp
        (0 : Fin 8)).terminated = true ∧
      ((List.replicate 230 (.bus .clock)).foldl (bandEvent 0) (bandClocks wrappedFrame 30)).2 = none := by
  decide +kernel

/-- From there on it stays ended, to the end of line 26. -/
theorem bandClocks_ended : ∀ n ≤ 5867, ListEnded 0 (bandClocks wrappedFrame (260 + n))
  | 0, _ => by
    obtain ⟨harrived, hterminated, hrecord⟩ := bandClocks_line1
    have hlast := harrived.last
    rw [show (List.replicate 230 (.bus .clock)).foldl (bandEvent 0) (bandClocks wrappedFrame 30) = bandClocks wrappedFrame (259 + 1) from
      (List.foldl_append ..).symm, bandClocks_succ wrappedFrame 259] at hlast hterminated hrecord
    exact .after (wrappedFrame_begun.sprites 259) hlast hterminated hrecord
  | n + 1, hn => by
    rw [← Nat.add_assoc, bandClocks_succ]
    exact (bandClocks_ended n (Nat.le_of_succ_le hn)).clock (wrappedFrame_begun.noRestart (by omega))

/-- Line 26 of the run: Denise draws the channel, and no data pair was ever delivered. -/
theorem sprite_drawn_undelivered :
    BusReachable bandMachine ∧
      agnusIsVertbPosition (agnusSlotSchedulerStep bandMachine).agnus.beam.hpos
        (agnusSlotSchedulerStep bandMachine).agnus.beam.vpos = true ∧
      AlongRun (bandEvent 0) (DmaDriven 0) (agnusSlotSchedulerStep bandMachine, none)
        (List.replicate 6127 (.bus .clock) ++ [.bus .clock]) ∧
      ¬ AlongRun (bandEvent 0) (DrawsDelivered 0) (agnusSlotSchedulerStep bandMachine, none)
        (List.replicate 6127 (.bus .clock) ++ [.bus .clock]) := by
  refine ⟨listMachine_reachable wrappedList, wrappedFrame_begun.start, ?_, fun hrun => ?_⟩
  · rw [show [LineEvent.bus .clock] = List.replicate 1 (.bus .clock) from rfl, List.replicate_append_replicate]
    exact wrappedFrame_begun.only.drivenClocks 0 none _
  have hdraws : DrawsDelivered 0 (bandClocks wrappedFrame 6127) (.bus .clock) := hrun.last
  have hended : ListEnded 0 (bandClocks wrappedFrame 6127) := bandClocks_ended 5867 le_rfl
  obtain ⟨hstart, hstop⟩ := wrappedFrame_begun.visible 6127
  have hnext := (wrappedFrame_begun.place (6127 + 1)).2
  rw [bandClocks_succ] at hnext
  have h26 : (bandClocks wrappedFrame 6127).1.agnus.beam.vpos = 26 := UInt16.toNat_inj.mp (wrappedFrame_begun.place 6127).2
  refine hended.drawn rfl ?_ ?_ ?_ ?_ hdraws
  · unfold beamInVisibleArea
    rw [hstart, hstop, h26]
    decide
  · rw [h26]
    decide
  · rw [h26]
    decide
  · rw [h26]
    intro hsame
    have h27 : (26 : UInt16).toNat = (1 + (6127 + 1)) / 227 % 312 := by
      rw [← hsame]
      exact hnext
    exact absurd h27 (by decide)

end Rigel
