import Rigel.PixelFormats
import Rigel.StepEvents

/-!
# PictureCut — the picture of a run does not depend on how it is cut into steps

A host steps the machine as it likes: a frame at a time, a line, one instruction of its CPU. Paula and the CIAs settle
once a step and notice. The picture does not: memory, Agnus, Denise and every pixel of the scanline and of both frame
buffers after a run are those of the run that steps one clock at a time, whatever the host does between its steps, as
long as it starts no disk transfer and moves no drive.
-/

namespace Rigel

/-- Two machines with the same picture to come: the same to the bus, and one Denise. -/
structure SameScene (x y : RigelContext) : Prop where
  bus : SameBus x y
  denise : y.denise = x.denise

theorem SameScene.refl (x : RigelContext) : SameScene x x := ⟨⟨rfl, rfl, rfl, rfl, Or.inl rfl, rfl⟩, rfl⟩

theorem SameScene.trans {x y z : RigelContext} (h : SameScene x y) (h' : SameScene y z) : SameScene x z :=
  ⟨h.bus.trans h'.bus, h'.denise.trans h.denise⟩

theorem SameScene.symm {x y : RigelContext} (h : SameScene x y) : SameScene y x := ⟨h.bus.symm, h.denise.symm⟩

/-! ## Denise over a clock -/

theorem schedulerRestoreDsken_denise (ctx : RigelContext) : (schedulerRestoreDsken ctx).denise = ctx.denise := by
  unfold schedulerRestoreDsken
  split <;> rfl

theorem SameScene.write {x y : RigelContext} (h : SameScene x y) {addr : UInt32} (ha : addr ≠ 0x024) (value : UInt16) :
    SameScene (customRegsWrite16 x addr value) (customRegsWrite16 y addr value) := by
  refine ⟨h.bus.writeAny ?_, ?_⟩
  · unfold diskAfterWrite
    split
    · rw [h.bus.config]
      exact h.bus.disk.write _ _ _ ha value
    · exact h.bus.disk
  · rw [customRegsWrite16_denise, customRegsWrite16_denise, h.denise, h.bus.agnus]
    rfl

/-- The copper's MOVE reaches Denise with the same value. -/
theorem SameScene.copperService {x y : RigelContext} (h : SameScene x y) :
    (rigelCopperServiceStepProgram y).denise = (rigelCopperServiceStepProgram x).denise := by
  have hwrite : copperServiceWrite y = copperServiceWrite x := by
    unfold copperServiceWrite
    rw [h.bus.copperMoves, h.bus.copper, h.bus.ram]
  rcases copperService_write x with ⟨hx, c, ex⟩ | ⟨reg, value, c, c', hx, -, ex⟩
  · rcases copperService_write y with ⟨-, d, ey⟩ | ⟨reg, value, d, d', hy, -, -⟩
    · rw [ex, ey]
      exact h.denise
    · rw [hwrite, hx] at hy
      cases hy
  · rcases copperService_write y with ⟨hy, -, -⟩ | ⟨reg', value', d, d', hy, -, ey⟩
    · rw [hwrite, hx] at hy
      cases hy
    · rw [hwrite, hx] at hy
      cases hy
      rw [ex, ey]
      show (customRegsWrite16 (copperWriting y d) reg value).denise = (customRegsWrite16 (copperWriting x c) reg value).denise
      rw [customRegsWrite16_denise, customRegsWrite16_denise]
      simp only [copperWriting, setCopper, h.denise]
      rw [h.bus.agnus]
      rfl

theorem SameScene.dispatch {x y : RigelContext} (h : SameScene x y) (owner : SlotOwner) (hpos : UInt16) :
    (dispatchSlot owner y hpos).denise = (dispatchSlot owner x hpos).denise := by
  cases owner with
  | copper => exact h.copperService
  | disk =>
    simp only [dispatchSlot, diskSlot, raiseIrqSources_denise]
    exact h.denise
  | blitter =>
    simp only [dispatchSlot, blitterSlot, raiseIrqSources_denise]
    exact h.denise
  | sprite sp =>
    simp only [dispatchSlot, spriteSlot]
    rw [h.denise, h.bus.ram, h.bus.agnus]
    rfl
  | bitplane =>
    have hs : y.agnus.scheduler = x.agnus.scheduler := by rw [h.bus.agnus]; rfl
    simp only [dispatchSlot, bitplaneSlot]
    rw [hs]
    split
    · simp only [bitplaneFetch]
      rw [h.denise, h.bus.ram, h.bus.agnus]
      rfl
    · exact h.denise
  | free => exact h.denise
  | cpu => exact h.denise
  | refresh => exact h.denise
  | audio ch => exact h.denise

theorem SameScene.schedulerDispatch {x y : RigelContext} (h : SameScene x y) :
    SameScene (schedulerDispatch (schedulerPrepare x)) (schedulerDispatch (schedulerPrepare y)) := by
  refine ⟨h.bus.prepare.schedulerDispatch, ?_⟩
  have hready : SameScene (schedulerRestoreDsken (schedulerPrepare x)) (schedulerRestoreDsken (schedulerPrepare y)) := by
    refine ⟨h.bus.prepare.restoreDsken, ?_⟩
    rw [schedulerRestoreDsken_denise, schedulerRestoreDsken_denise]
    exact h.denise
  have hs : (schedulerPrepare y).agnus.scheduler = (schedulerPrepare x).agnus.scheduler := by
    rw [h.bus.prepare.agnus]
    rfl
  unfold Rigel.schedulerDispatch
  rw [h.bus.prepare.slotOwner, hs]
  exact hready.dispatch _ _

theorem SameScene.advance {x y : RigelContext} (h : SameScene x y) :
    (schedulerAdvance y).denise = (schedulerAdvance x).denise := by
  have hbeam : y.agnus.beam = x.agnus.beam := by rw [h.bus.agnus]; rfl
  have hline : ∀ ctx : RigelContext, (schedulerAtLineStart ctx).denise = ctx.denise ∧
      (schedulerAtLineStart ctx).agnus.beam = ctx.agnus.beam := by
    intro ctx
    unfold schedulerAtLineStart
    split <;> exact ⟨rfl, rfl⟩
  have hmoved : (schedulerMoveBeam y).denise = (schedulerMoveBeam x).denise := by
    simp only [schedulerMoveBeam, h.denise, hbeam]
  have hto : (schedulerMoveBeam y).agnus.beam = (schedulerMoveBeam x).agnus.beam := by
    simp only [schedulerMoveBeam, hbeam]
  unfold schedulerAdvance schedulerAtVertb
  rw [(hline _).2, (hline _).2, hto]
  split
  · simp only [schedulerVertb, rigelChipsetRaiseIrqSource, (hline _).1, hmoved]
  · rw [(hline _).1, (hline _).1, hmoved]

/-- **One clock.** -/
theorem SameScene.clock {x y : RigelContext} (h : SameScene x y) :
    SameScene (agnusSlotSchedulerStep x) (agnusSlotSchedulerStep y) :=
  ⟨h.bus.clock, h.schedulerDispatch.advance⟩

theorem SameScene.pixelClock {x y : RigelContext} (h : SameScene x y) (p : DenisePixels) : pixelClock y p = pixelClock x p := by
  have hd := h.schedulerDispatch
  have hbeam := congrArg RigelAgnus.beam hd.bus.agnus
  simp only [relatch] at hbeam
  unfold Rigel.pixelClock
  simp only [hd.denise, hbeam]

/-- The clocks of a run, and the pixels that they draw. -/
theorem SameScene.clocks : ∀ (n : Nat) {x y : RigelContext} (_ : SameScene x y) (p : DenisePixels),
    SameScene (agnusSlotSchedulerStepUntil x n) (agnusSlotSchedulerStepUntil y n) ∧ pixelClocks n y p = pixelClocks n x p
  | 0, _, _, h, _ => ⟨h, rfl⟩
  | n + 1, x, y, h, p => by
    rw [pixelClocks, pixelClocks, h.pixelClock p]
    exact SameScene.clocks n h.clock _

/-! ## A step -/

theorem stepPrologue_scene {ctx : RigelContext} (h : AgnusOk ctx.agnus) (cycles : UInt32) :
    SameScene ctx (stepPrologue ctx cycles) := by
  have hdenise : (stepPrologue ctx cycles).denise = ctx.denise := by
    unfold stepPrologue
    simp only
    split <;> rfl
  exact ⟨sameBus_prologue h.dma cycles, hdenise⟩

/-- **A step is its clocks**, to the picture. -/
theorem rigelStep_scene {ctx : RigelContext} (h : AgnusOk ctx.agnus) (cycles : UInt64) (p : DenisePixels) :
    SameScene (agnusSlotSchedulerStepUntil ctx cycles.toUInt32.toNat) (rigelStep ctx cycles).1 ∧
      pixelStep ctx p cycles = pixelClocks cycles.toUInt32.toNat ctx p := by
  obtain ⟨hclocks, hpixels⟩ := (stepPrologue_scene h cycles.toUInt32).clocks cycles.toUInt32.toNat p
  refine ⟨⟨sameBus_rigelStep h cycles, ?_⟩, hpixels⟩
  have hsettled := (chipsetSettle_frame ctx.agnus.beam (chipsetRun (clearEventLatch ctx) cycles.toUInt32) cycles.toUInt32).2.1
  rw [chipsetRun_eq_clocks] at hsettled
  have hrun : (rigelStep ctx cycles).1.denise =
      (agnusSlotSchedulerStepUntil (stepPrologue ctx cycles.toUInt32) cycles.toUInt32.toNat).denise := by
    rw [← hsettled, ← chipsetRun_eq_clocks]
    rfl
  rw [hrun]
  exact hclocks.denise

/-! ## The calls of a host -/

/-- A machine and its pixels after a call. -/
def screenCall (s : RigelContext × DenisePixels) (c : HostCall) : RigelContext × DenisePixels :=
  (hostCall s.1 c, pixelCall s.1 s.2 c)

/-- The calls that the picture follows: all but a reset, a step to a time, a snapshot, a write to DSKLEN, and what moves a
drive or its disk. -/
def picturedCall : HostCall → Bool
  | .customWrite addr _ => addr != 0x024
  | .ciaWrite id _ _ => id == .portA
  | .reset | .stepUntil _ | .loadState _ | .floppyInsert _ _ _ | .floppyEject _ => false
  | _ => true

/-- A step as steps of one clock. -/
def singleClocks : HostCall → List HostCall
  | .step cycles => List.replicate cycles.toUInt32.toNat (.step 1)
  | c => [c]

/-- The calls that touch neither the bus nor Denise. -/
def unseenCall : HostCall → Bool
  | .ciaRead _ _ | .setJoydat _ _ | .setPotButtonX _ _ | .setPotButtonY _ _ | .setFire _ _ => true
  | .serialReceive _ | .serialPop | .serialSetTxInstant _ | .keyboardInject _ _ => true
  | .ciaWrite id _ _ => id == .portA
  | _ => false

theorem unseenCall_scene {c : HostCall} (hc : unseenCall c = true) (ctx : RigelContext) : SameScene ctx (hostCall ctx c) := by
  have hwires : ∀ (ciaA ciaB : CiaState) (paula : RigelPaula), paula.disk = ctx.paula.disk →
      SameScene ctx { ctx with ciaA := ciaA, ciaB := ciaB, paula := paula } :=
    fun _ _ _ hdisk => ⟨⟨rfl, rfl, rfl, rfl, Or.inl hdisk, rfl⟩, rfl⟩
  cases c with
  | ciaRead id reg => cases id <;> exact hwires _ _ _ rfl
  | ciaWrite id reg value =>
    cases id with
    | portA => exact hwires _ _ _ rfl
    | portB => cases hc
  | setFire port pressed =>
    simp only [hostCall, rigelInputSetFire]
    split
    · exact SameScene.refl ctx
    · exact hwires _ _ _ rfl
  | serialReceive byte =>
    have hserial : SameBus ctx { ctx with paula := { ctx.paula with serial := (serialReceiveByte ctx.paula.serial byte).1 } } :=
      (hwires ctx.ciaA ctx.ciaB { ctx.paula with serial := (serialReceiveByte ctx.paula.serial byte).1 } rfl).bus
    refine ⟨hserial.trans (sameBus_raise (SameScene.refl _).bus [] _), ?_⟩
    simp only [hostCall, rigelSerialReceiveByte, raiseIrqSources_denise]
  | setJoydat port value => exact hwires _ _ _ rfl
  | setPotButtonX port pressed => exact hwires _ _ _ rfl
  | setPotButtonY port pressed => exact hwires _ _ _ rfl
  | serialPop => exact hwires _ _ _ rfl
  | serialSetTxInstant enabled => exact hwires _ _ _ rfl
  | keyboardInject keycode pressed => exact hwires _ _ _ rfl
  | reset | step _ | stepUntil _ | customRead _ | customWrite _ _ | setCycleExact _ | loadState _ | floppyInsert _ _ _
  | floppyEject _ | writeRam _ => cases hc

theorem SameDisk.read {d d' : DiskState} (h : SameDisk d d') (addr : UInt32) :
    SameDisk (diskReadReg d addr).1 (diskReadReg d' addr).1 := by
  rcases h with rfl | ⟨hd, hd'⟩
  · exact Or.inl rfl
  · refine Or.inr ⟨?_, ?_⟩
    · rw [← hd]
      unfold diskReadReg
      split <;> rfl
    · rw [← hd']
      unfold diskReadReg
      split <;> rfl

theorem SameScene.read {x y : RigelContext} (h : SameScene x y) (addr : UInt32) :
    SameScene (customRegsRead16 x addr).1 (customRegsRead16 y addr).1 := by
  have hpaula : SameScene (paulaReadReg x addr).1 (paulaReadReg y addr).1 := by
    unfold paulaReadReg
    split
    · exact h
    split
    · exact h
    split
    · exact ⟨⟨h.bus.config, h.bus.ram, h.bus.mod1, h.bus.mod2, h.bus.disk.read addr, h.bus.agnus⟩, h.denise⟩
    split
    · exact ⟨⟨h.bus.config, h.bus.ram, h.bus.mod1, h.bus.mod2, h.bus.disk, h.bus.agnus⟩, h.denise⟩
    split
    · exact h
    · exact h
  unfold customRegsRead16
  split
  · exact h
  · cases rigelCustomDomainForReg addr with
    | paula => exact hpaula
    | agnus => exact h
    | denise => exact h
    | unknown => exact h

/-- **A call other than a step** keeps two machines' pictures the same. -/
theorem SameScene.call {x y : RigelContext} (h : SameScene x y) {c : HostCall} (hc : picturedCall c = true)
    (hstep : ∀ cycles, c ≠ .step cycles) : SameScene (hostCall x c) (hostCall y c) := by
  have hunseen : unseenCall c = true → SameScene (hostCall x c) (hostCall y c) := fun hu =>
    (unseenCall_scene hu x).symm.trans (h.trans (unseenCall_scene hu y))
  cases c with
  | step cycles => exact absurd rfl (hstep cycles)
  | customRead addr => exact h.read addr
  | customWrite addr value => exact h.write (by simpa [picturedCall] using hc) value
  | setCycleExact on =>
    refine ⟨⟨?_, h.bus.ram, h.bus.mod1, h.bus.mod2, h.bus.disk, ?_⟩, h.denise⟩
    · simp only [hostCall, rigelSetCycleExact, h.bus.config]
    · simp only [hostCall, rigelSetCycleExact]
      rw [h.bus.agnus]
      rfl
  | writeRam words =>
    refine ⟨⟨h.bus.config, ?_, h.bus.mod1, h.bus.mod2, h.bus.disk, h.bus.agnus⟩, h.denise⟩
    simp only [hostCall, hostWriteRam, h.bus.ram]
  | ciaWrite id reg value =>
    cases id with
    | portA => exact hunseen rfl
    | portB => cases hc
  | reset | stepUntil _ | loadState _ | floppyInsert _ _ _ | floppyEject _ => cases hc
  | _ => exact hunseen rfl

theorem pixelCall_same {c : HostCall} (hc : picturedCall c = true) (hstep : ∀ cycles, c ≠ .step cycles) (ctx : RigelContext)
    (p : DenisePixels) : pixelCall ctx p c = p := by
  cases c with
  | step cycles => exact absurd rfl (hstep cycles)
  | reset | stepUntil _ => cases hc
  | _ => rfl

/-- **Steps of one clock** pass the clocks one by one. -/
theorem singleClocks_scene : ∀ (n : Nat) {ctx : RigelContext} (_ : Reachable ctx) (p : DenisePixels),
    let s := (List.replicate n (HostCall.step 1)).foldl screenCall (ctx, p)
    Reachable s.1 ∧ SameScene (agnusSlotSchedulerStepUntil ctx n) s.1 ∧ s.2 = pixelClocks n ctx p
  | 0, ctx, h, _ => ⟨h, SameScene.refl ctx, rfl⟩
  | n + 1, ctx, h, p => by
    obtain ⟨hclock, hpixel⟩ := rigelStep_scene h.agnusOk 1 p
    have hone : (1 : UInt64).toUInt32.toNat = 1 := rfl
    rw [hone] at hclock hpixel
    obtain ⟨hreach, hscene, hpixels⟩ := singleClocks_scene n (h.step 1) (pixelStep ctx p 1)
    obtain ⟨hrest, hdrawn⟩ := hclock.clocks n (pixelStep ctx p 1)
    refine ⟨hreach, hrest.trans hscene, hpixels.trans ?_⟩
    rw [hdrawn, hpixel]
    rfl

/-- **A run, and the same run clock by clock.** -/
theorem singleClocks_run : ∀ {cs : List HostCall} (_ : ∀ c ∈ cs, picturedCall c = true) {s t : RigelContext × DenisePixels}
    (_ : Reachable s.1) (_ : Reachable t.1) (_ : SameScene s.1 t.1) (_ : t.2 = s.2),
    SameScene (cs.foldl screenCall s).1 ((cs.flatMap singleClocks).foldl screenCall t).1 ∧
      ((cs.flatMap singleClocks).foldl screenCall t).2 = (cs.foldl screenCall s).2
  | [], _, _, _, _, _, h, hp => ⟨h, hp⟩
  | c :: cs, hcs, (x, p), (y, q), hx, hy, h, hp => by
    obtain rfl : q = p := hp
    rw [List.forall_mem_cons] at hcs
    rw [List.flatMap_cons, List.foldl_append, List.foldl_cons]
    by_cases hstep : ∃ cycles, c = .step cycles
    · obtain ⟨cycles, rfl⟩ := hstep
      obtain ⟨hclocks, hpixels⟩ := rigelStep_scene hx.agnusOk cycles q
      obtain ⟨hreach, hscene, hdrawn⟩ := singleClocks_scene cycles.toUInt32.toNat hy q
      obtain ⟨hsame, hdraws⟩ := h.clocks cycles.toUInt32.toNat q
      exact singleClocks_run hcs.2 (hx.step cycles) hreach (hclocks.symm.trans (hsame.trans hscene))
        (hdrawn.trans (hdraws.trans hpixels.symm))
    · have hother : ∀ cycles, c ≠ .step cycles := fun cycles e => hstep ⟨cycles, e⟩
      have hone : singleClocks c = [c] := by
        cases c with
        | step cycles => exact absurd rfl (hother cycles)
        | _ => rfl
      rw [hone, List.foldl_cons, List.foldl_nil]
      refine singleClocks_run hcs.2 (hx.call c) (hy.call c) (h.call hcs.1 hother) ?_
      simp only [screenCall, pixelCall_same hcs.1 hother]

/-- **How a run is cut does not show.** Two runs from one reachable machine that are the same clock by clock, with the same
calls of the host at the same clocks, leave the same chip memory, the same Denise, the same Agnus but for the copper's
event latch, and the same pixels in every buffer. -/
theorem picture_of_clocks {ctx : RigelContext} {p : DenisePixels} (h : ReachableScreen ctx p) {cs cs' : List HostCall}
    (hcs : ∀ c ∈ cs, picturedCall c = true) (hcs' : ∀ c ∈ cs', picturedCall c = true)
    (hclocks : cs.flatMap singleClocks = cs'.flatMap singleClocks) :
    let s := cs.foldl screenCall (ctx, p)
    let s' := cs'.foldl screenCall (ctx, p)
    s'.1.ram = s.1.ram ∧ s'.1.denise = s.1.denise ∧ s'.1.agnus = relatch s.1.agnus s'.1.agnus.copper.eventLatched ∧
      s'.2 = s.2 := by
  intro s s'
  obtain ⟨hs, hp⟩ := singleClocks_run hcs (s := (ctx, p)) (t := (ctx, p)) h.reachable h.reachable (SameScene.refl ctx) rfl
  obtain ⟨hs', hp'⟩ := singleClocks_run hcs' (s := (ctx, p)) (t := (ctx, p)) h.reachable h.reachable (SameScene.refl ctx) rfl
  rw [← hclocks] at hs' hp'
  have hsame : SameScene s.1 s'.1 := hs.trans hs'.symm
  exact ⟨hsame.bus.ram, hsame.denise, hsame.bus.agnus, hp'.symm.trans hp⟩

/-- A line in one step and in two, after a write to COLOR00. -/
theorem picture_of_clocks_line :
    let s := [HostCall.customWrite 0x180 0x0F83, .step 227].foldl screenCall (palMachine, .cleared)
    let s' := [HostCall.customWrite 0x180 0x0F83, .step 100, .step 127].foldl screenCall (palMachine, .cleared)
    s'.1.ram = s.1.ram ∧ s'.1.denise = s.1.denise ∧ s'.1.agnus = relatch s.1.agnus s'.1.agnus.copper.eventLatched ∧
      s'.2 = s.2 :=
  picture_of_clocks (.create _ _) (by decide) (by decide) rfl

end Rigel
