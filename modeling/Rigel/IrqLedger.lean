import Rigel.BeamTrace
import Rigel.BusQuery
import Rigel.IrqPriority

/-!
# IrqLedger — the interrupt registers as a ledger

Whatever a step does to INTENA and INTREQ is a list of edges: a source is requested or let go, an enable bit is set or
cleared. Each bit stands after them as the last edge that names it left it, so the level that Paula shows after a step is
read off the edges source by source (`levelStays_iff`), without the registers in between. The edges of a step are those of
its clocks, in order, and then those of the settling (`rigelStep_irq`).
-/

namespace Rigel

/-! ## Edges -/

/-- The bits of a mask go up or down in INTREQ, or in INTENA. -/
inductive IrqEdge where
  | request (mask : UInt16) (on : Bool)
  | enable (mask : UInt16) (on : Bool)
  deriving DecidableEq

/-- The bits of a register after an edge; the top bit is never stored. -/
def edgeBits (bits mask : UInt16) (on : Bool) : UInt16 :=
  if on then bits ||| (mask &&& 0x7FFF) else bits &&& ~~~(mask &&& 0x7FFF)

def IrqEdge.apply (irq : PaulaInterrupts) : IrqEdge → PaulaInterrupts
  | .request mask on => interruptUpdate irq.intena (edgeBits irq.intreq mask on)
  | .enable mask on => interruptUpdate (edgeBits irq.intena mask on) irq.intreq

/-- What an edge does to the request of a source. -/
def IrqEdge.requests (s : IrqSource) : IrqEdge → Option Bool
  | .request mask on => if mask &&& s.mask = 0 then none else some on
  | .enable _ _ => none

/-- What an edge does to a bit of INTENA. -/
def IrqEdge.enables (bit : UInt16) : IrqEdge → Option Bool
  | .request _ _ => none
  | .enable mask on => if mask &&& bit = 0 then none else some on

/-- A single bit below the top one. -/
structure SingleBit (m : UInt16) : Prop where
  low : m &&& 0x7FFF = m
  one : ∀ x : UInt16, x &&& m = 0 ∨ x &&& m = m

theorem singleBit_two_pow {i : Nat} (hi : i < 15) : SingleBit (UInt16.ofNat (2 ^ i)) := by
  have hbit : ∀ j < 16, (UInt16.ofNat (2 ^ i)).toNat.testBit j = decide (i = j) := by
    intro j hj
    rw [UInt16.toNat_ofNat', Nat.testBit_mod_two_pow, Nat.testBit_two_pow, decide_eq_true hj, Bool.true_and]
  refine ⟨?_, fun x => ?_⟩
  · revert i
    decide
  · cases hx : x.toNat.testBit i with
    | false =>
      left
      refine uint16_ext fun j hj => ?_
      rw [UInt16.toNat_and, Nat.testBit_and, hbit j hj]
      by_cases hij : i = j
      · subst hij
        simp [hx]
      · simp [hij]
    | true =>
      right
      refine uint16_ext fun j hj => ?_
      rw [UInt16.toNat_and, Nat.testBit_and, hbit j hj]
      by_cases hij : i = j
      · subst hij
        simp [hx]
      · simp [hij]

theorem IrqSource.singleBit (s : IrqSource) : SingleBit s.mask := by
  have h : ∃ i < 15, s.mask = UInt16.ofNat (2 ^ i) := by
    revert s
    decide
  obtain ⟨i, hi, hs⟩ := h
  rw [hs]
  exact singleBit_two_pow hi

theorem singleBit_inten : SingleBit paulaIntInten := singleBit_two_pow (i := 14) (by decide)

/-- A bit after an edge. -/
theorem SingleBit.edge {m : UInt16} (h : SingleBit m) (bits mask : UInt16) (on : Bool) :
    (edgeBits bits mask on &&& m != 0) = (if mask &&& m = 0 then none else some on).getD (bits &&& m != 0) := by
  have hmask : mask &&& 0x7FFF &&& m = mask &&& m := by rw [UInt16.and_assoc, UInt16.and_comm _ m, h.low]
  unfold edgeBits
  cases on with
  | true =>
    rw [if_pos rfl, or_and_distrib, hmask]
    split
    · rename_i h0
      rw [h0, UInt16.or_zero]
      rfl
    · rename_i hne
      exact bne_iff_ne.mpr fun h0 => hne (UInt16.or_eq_zero_iff.mp h0).2
  | false =>
    rw [if_neg Bool.false_ne_true, and_not_and, hmask]
    split
    · rename_i h0
      rw [h0, UInt16.not_zero, UInt16.and_neg_one]
      rfl
    · rename_i hne
      rw [(h.one mask).resolve_left hne, UInt16.and_assoc, UInt16.and_not_self, UInt16.and_zero]
      rfl

/-! ## The level after a ledger -/

section
variable (irq : PaulaInterrupts) (edges : List IrqEdge)

def requestedAfter (s : IrqSource) : Bool := settled (IrqEdge.requests s) (irq.intreq &&& s.mask != 0) edges

def enabledAfter (bit : UInt16) : Bool := settled (IrqEdge.enables bit) (irq.intena &&& bit != 0) edges

/-- After the edges the source is requested and enabled, and so is the CPU's interrupt line. -/
def heardAfter (s : IrqSource) : Bool :=
  requestedAfter irq edges s && enabledAfter irq edges s.mask && enabledAfter irq edges paulaIntInten

/-- After the edges some source of the level shown is heard, unless that is 0, and none above it. -/
structure LevelStays : Prop where
  held : irq.ipl ≠ 0 → ∃ s : IrqSource, s.priority = irq.ipl.toNat ∧ heardAfter irq edges s = true
  below : ∀ s, heardAfter irq edges s = true → s.priority ≤ irq.ipl.toNat

instance : Decidable (LevelStays irq edges) :=
  decidable_of_iff ((irq.ipl ≠ 0 → ∃ s : IrqSource, s.priority = irq.ipl.toNat ∧ heardAfter irq edges s = true) ∧
    ∀ s, heardAfter irq edges s = true → s.priority ≤ irq.ipl.toNat) ⟨fun h => ⟨h.1, h.2⟩, fun h => ⟨h.held, h.below⟩⟩

end

section
variable {irq : PaulaInterrupts}

theorem requestedAfter_eq (edges : List IrqEdge) (s : IrqSource) :
    requestedAfter irq edges s = ((edges.foldl IrqEdge.apply irq).intreq &&& s.mask != 0) := by
  refine (foldl_settled (f := fun irq : PaulaInterrupts => irq.intreq &&& s.mask != 0) (fun irq e => ?_) edges irq).symm
  cases e with
  | request mask on => exact s.singleBit.edge irq.intreq mask on
  | enable mask on => rfl

theorem enabledAfter_eq (edges : List IrqEdge) {bit : UInt16} (h : SingleBit bit) :
    enabledAfter irq edges bit = ((edges.foldl IrqEdge.apply irq).intena &&& bit != 0) := by
  refine (foldl_settled (f := fun irq : PaulaInterrupts => irq.intena &&& bit != 0) (fun irq e => ?_) edges irq).symm
  cases e with
  | request mask on => rfl
  | enable mask on => exact h.edge irq.intena mask on

theorem apply_follows (edges : List IrqEdge) (h : IplFollows irq) : IplFollows (edges.foldl IrqEdge.apply irq) := by
  induction edges using List.reverseRecOn with
  | nil => exact h
  | append_singleton edges e ih =>
    rw [List.foldl_append]
    cases e <;> rfl

/-- A source is heard after the edges iff it counts for the level. -/
theorem heardAfter_iff (edges : List IrqEdge) (s : IrqSource) :
    heardAfter irq edges s = true ↔ (edges.foldl IrqEdge.apply irq).intena &&& paulaIntInten ≠ 0 ∧
      s ∈ enabledPending (edges.foldl IrqEdge.apply irq).intena (edges.foldl IrqEdge.apply irq).intreq := by
  have hboth : ∀ x y : UInt16, x &&& y &&& s.mask ≠ 0 ↔ x &&& s.mask ≠ 0 ∧ y &&& s.mask ≠ 0 := by
    intro x y
    have hsplit : x &&& y &&& s.mask = (x &&& s.mask) &&& (y &&& s.mask) := by
      rw [UInt16.and_assoc x s.mask, UInt16.and_comm y, ← UInt16.and_assoc s.mask, UInt16.and_self, UInt16.and_assoc,
        UInt16.and_comm y]
    rw [hsplit]
    rcases s.singleBit.one x with hx | hx <;> rcases s.singleBit.one y with hy | hy <;> simp [hx, hy]
  unfold heardAfter enabledPending
  rw [requestedAfter_eq, enabledAfter_eq edges s.singleBit, enabledAfter_eq edges singleBit_inten, Finset.mem_filter]
  simp only [Bool.and_eq_true, bne_iff_ne, hboth, Finset.mem_univ, true_and]
  exact and_comm

/-- **The level after a ledger, source by source.** -/
theorem levelStays_iff (edges : List IrqEdge) (h : IplFollows irq) :
    LevelStays irq edges ↔ (edges.foldl IrqEdge.apply irq).ipl = irq.ipl := by
  have hlevel := (apply_follows edges h).coherent
  have hheard := @heardAfter_iff irq edges
  unfold IplCoherent priorityLevel at hlevel
  generalize edges.foldl IrqEdge.apply irq = after at hlevel hheard
  rw [← UInt8.toNat_inj, hlevel]
  by_cases hinten : after.intena &&& paulaIntInten = 0
  · -- nothing is heard, and the level is 0
    have hnone : ∀ s, heardAfter irq edges s ≠ true := fun s hs => ((hheard s).mp hs).1 hinten
    rw [if_pos hinten]
    constructor
    · intro hs
      by_contra hne
      obtain ⟨s, -, hon⟩ := hs.held fun h0 => hne (congrArg UInt8.toNat h0).symm
      exact hnone s hon
    · intro h0
      refine ⟨fun hne => absurd (UInt8.toNat_inj.mp (show (0 : UInt8).toNat = _ from h0)).symm hne, fun s hs => absurd hs (hnone s)⟩
  · rw [if_neg hinten]
    have hmem : ∀ s, heardAfter irq edges s = true ↔ s ∈ enabledPending after.intena after.intreq :=
      fun s => (hheard s).trans (and_iff_right hinten)
    constructor
    · intro hs
      refine Nat.le_antisymm (Finset.sup_le fun s hon => hs.below s ((hmem s).mpr hon)) ?_
      by_cases h0 : irq.ipl = 0
      · rw [h0]
        exact Nat.zero_le _
      · obtain ⟨s, hprio, hon⟩ := hs.held h0
        rw [← hprio]
        exact Finset.le_sup (f := IrqSource.priority) ((hmem s).mp hon)
    · intro hsup
      refine ⟨fun hne => ?_, fun s hon => hsup ▸ Finset.le_sup (f := IrqSource.priority) ((hmem s).mp hon)⟩
      rcases (enabledPending after.intena after.intreq).eq_empty_or_nonempty with hempty | hsome
      · rw [hempty, Finset.sup_empty] at hsup
        exact absurd (UInt8.toNat_inj.mp (show (0 : UInt8).toNat = _ from hsup)).symm hne
      · obtain ⟨s, hs, hmax⟩ := Finset.exists_mem_eq_sup _ hsome IrqSource.priority
        exact ⟨s, hmax.symm.trans hsup, (hmem s).mpr hs⟩

end

/-! ## A register write -/

/-- The edges of the masks that an interrupt sink was called with. -/
def raiseEdges (masks : List UInt16) : List IrqEdge := masks.map (.request · true)

theorem raiseEdges_apply (irq : PaulaInterrupts) (masks : List UInt16) :
    (raiseEdges masks).foldl IrqEdge.apply irq = masks.foldl interruptRaise irq := List.foldl_map ..

theorem raiseIrqSources_edges (ctx : RigelContext) (masks : List UInt16) :
    (raiseIrqSources ctx masks).paula.interrupts = (raiseEdges masks).foldl IrqEdge.apply ctx.paula.interrupts := by
  rw [raiseIrqSources_eq, raiseEdges_apply]

/-- The edges of a write to one of Paula's registers. -/
def paulaWriteEdges (ctx : RigelContext) (addr : UInt32) (value : UInt16) : List IrqEdge :=
  if inputOwnsReg addr || audioOwnsReg addr then []
  else if diskOwnsReg addr then
    raiseEdges (diskWriteReg ctx.config.dsksynIrq ctx.paula.disk (ctx.floppy ctx.paula.disk.drive) addr value).2
  else if serialOwnsReg addr then raiseEdges (serialWriteReg ctx.paula.serial addr value).2
  else if addr = regIntena then [.enable value (value &&& 0x8000 != 0)]
  else if addr = regIntreq then [.request value (value &&& 0x8000 != 0)]
  else []

/-- The edges of a register write: BLTSIZE acknowledges the blitter, and Paula's registers do what they do. -/
def writeEdges (ctx : RigelContext) (addr : UInt32) (value : UInt16) : List IrqEdge :=
  if !rigelCustomIsValidReg addr then []
  else match rigelCustomDomainForReg addr with
    | .agnus => if rigelBlitterDomainOwnsReg addr && addr == 0x058 then [.request blitterIntreqBlit false] else []
    | .paula => paulaWriteEdges ctx addr value
    | _ => []

theorem paulaWrite_edges (ctx : RigelContext) (addr : UInt32) (value : UInt16) :
    (paulaWriteReg ctx addr value).paula.interrupts =
      (paulaWriteEdges ctx addr value).foldl IrqEdge.apply ctx.paula.interrupts := by
  have hsetclr : ∀ bits : UInt16, applySetclr bits value = edgeBits bits value (value &&& 0x8000 != 0) := by
    intro bits
    unfold applySetclr edgeBits
    by_cases h : value &&& 0x8000 = 0 <;> simp [h]
  unfold paulaWriteReg paulaWriteEdges
  cases hinput : inputOwnsReg addr with
  | true => rfl
  | false =>
    cases haudio : audioOwnsReg addr with
    | true => rfl
    | false =>
      simp only [Bool.false_eq_true, if_false, Bool.or_false]
      split
      · exact raiseIrqSources_edges _ _
      split
      · exact raiseIrqSources_edges _ _
      by_cases hintena : addr = regIntena
      · subst hintena
        rw [if_pos rfl, if_pos (by decide)]
        exact congrArg (interruptUpdate · ctx.paula.interrupts.intreq) (hsetclr _)
      by_cases hintreq : addr = regIntreq
      · subst hintreq
        rw [if_neg hintena, if_pos rfl, if_pos (by decide)]
        exact congrArg (interruptUpdate ctx.paula.interrupts.intena) (hsetclr _)
      rw [if_neg hintena, if_neg hintreq]
      split
      · show interruptWriteReg ctx.paula.interrupts addr value = _
        unfold interruptWriteReg
        split
        · exact absurd rfl hintena
        · exact absurd rfl hintreq
        · rfl
      · rfl

/-- **The edges of a register write are all that it does to the interrupt registers.** -/
theorem customWrite_edges (ctx : RigelContext) (addr : UInt32) (value : UInt16) :
    (customRegsWrite16 ctx addr value).paula.interrupts = (writeEdges ctx addr value).foldl IrqEdge.apply ctx.paula.interrupts := by
  unfold customRegsWrite16 writeEdges
  split
  · rfl
  cases rigelCustomDomainForReg addr with
  | paula => exact paulaWrite_edges ctx addr value
  | denise => rfl
  | unknown => rfl
  | agnus =>
    simp only [rigelAgnusMmioWrite]
    cases hown : rigelBlitterDomainOwnsReg addr with
    | true =>
      by_cases hsize : addr = 0x058
      · simp only [agnusWriteBlitter, hsize, if_true, Bool.true_and, beq_self_eq_true]
        rfl
      · simp only [agnusWriteBlitter, hsize, if_false, if_true, Bool.true_and, beq_eq_false_iff_ne.mpr hsize, Bool.false_eq_true]
        rfl
    | false =>
      simp only [Bool.false_and, Bool.false_eq_true, if_false, agnusWriteBeamcon0]
      repeat' split
      all_goals rfl

/-! ## A clock -/

/-- The edges of the slot of a clock: a copper MOVE, a word of the disk, or the end of a blit. -/
def slotEdges (ctx : RigelContext) : List IrqEdge :=
  match dispatchedOwner ctx with
  | .copper => ((clockWrite ctx).map fun w => writeEdges ctx w.1 w.2).getD []
  | .disk => raiseEdges (diskDmaServiceGrant ctx.config.dsksynIrq ctx.paula.disk ctx.ram).irqs
  | .blitter => raiseEdges (rigelBlitterDomainStepDma ctx.agnus.blitter ctx.ram 1).irq.toList
  | _ => []

/-- The edge of the beam: VERTB at its position. -/
def vertbEdges (ctx : RigelContext) : List IrqEdge :=
  if agnusIsVertbPosition (agnusSlotSchedulerStep ctx).agnus.beam.hpos (agnusSlotSchedulerStep ctx).agnus.beam.vpos then
    raiseEdges [paulaIntVertb]
  else []

/-- What a write raises is settled by the machine's configuration, its disk and its serial port. -/
theorem writeEdges_same {ctx ctx' : RigelContext} (hconfig : ctx'.config = ctx.config) (hdisk : ctx'.paula.disk = ctx.paula.disk)
    (hserial : ctx'.paula.serial = ctx.paula.serial) (hfloppy : ctx'.floppy = ctx.floppy) (addr : UInt32) (value : UInt16) :
    writeEdges ctx' addr value = writeEdges ctx addr value := by
  unfold writeEdges paulaWriteEdges
  rw [hconfig, hdisk, hserial, hfloppy]

theorem slot_edges (ctx : RigelContext) :
    (schedulerDispatch (schedulerPrepare ctx)).paula.interrupts = (slotEdges ctx).foldl IrqEdge.apply ctx.paula.interrupts := by
  have hready := slotReady ctx
  have hfloppy : (schedulerRestoreDsken (schedulerPrepare ctx)).floppy = ctx.floppy := by
    unfold schedulerRestoreDsken
    split <;> rfl
  have hirq : (schedulerRestoreDsken (schedulerPrepare ctx)).paula.interrupts = ctx.paula.interrupts :=
    congrArg RigelPaula.interrupts hready.paula
  unfold schedulerDispatch slotEdges
  change (dispatchSlot (dispatchedOwner ctx) _ _).paula.interrupts = _
  cases howner : dispatchedOwner ctx with
  | copper =>
    have hclock : clockWrite ctx = copperServiceWrite (schedulerRestoreDsken (schedulerPrepare ctx)) := if_pos howner
    simp only [dispatchSlot, hclock]
    rcases copperService_write (schedulerRestoreDsken (schedulerPrepare ctx)) with ⟨hnone, c, hc⟩ | ⟨reg, value, c, c', hw, -, hc⟩
    · rw [hc, hnone]
      exact hirq
    · have hsame : writeEdges (copperWriting (schedulerRestoreDsken (schedulerPrepare ctx)) c) reg value = writeEdges ctx reg value :=
        writeEdges_same hready.config (congrArg RigelPaula.disk hready.paula) (congrArg RigelPaula.serial hready.paula) hfloppy reg value
      rw [hc, hw]
      show (customRegsWrite16 (copperWriting _ c) reg value).paula.interrupts = _
      rw [customWrite_edges, hsame]
      exact congrArg (fun irq => (writeEdges ctx reg value).foldl IrqEdge.apply irq) hirq
  | disk =>
    simp only [dispatchSlot, diskSlot]
    rw [raiseIrqSources_edges]
    simp only [hready.config, hready.paula, hready.ram]
  | blitter =>
    simp only [dispatchSlot, blitterSlot]
    rw [raiseIrqSources_edges]
    simp only [hready.paula, hready.blitter, hready.ram]
  | bitplane =>
    simp only [dispatchSlot, bitplaneSlot]
    split <;> exact hirq
  | _ => exact hirq

/-- **The edges of a clock.** -/
theorem clock_edges (ctx : RigelContext) :
    (agnusSlotSchedulerStep ctx).paula.interrupts = (slotEdges ctx ++ vertbEdges ctx).foldl IrqEdge.apply ctx.paula.interrupts := by
  rw [List.foldl_append, ← slot_edges]
  have hbeam : (schedulerAtLineStart (schedulerMoveBeam (schedulerDispatch (schedulerPrepare ctx)))).agnus.beam =
      (agnusSlotSchedulerStep ctx).agnus.beam := by
    rw [(lineStarted _).beam]
    exact (schedulerAdvance_beam _).symm
  unfold vertbEdges
  show (schedulerAtVertb (schedulerAtLineStart (schedulerMoveBeam (schedulerDispatch (schedulerPrepare ctx))))).paula.interrupts = _
  unfold schedulerAtVertb
  rw [hbeam]
  split
  · show interruptRaise (schedulerAtLineStart (schedulerMoveBeam _)).paula.interrupts _ = _
    rw [(lineStarted _).paula]
    rfl
  · rw [(lineStarted _).paula]
    rfl

/-- The edges of the first `n` clocks. -/
def clocksEdges (f : RigelContext → List IrqEdge) (ctx : RigelContext) (n : Nat) : List IrqEdge :=
  (List.range n).flatMap fun i => f (agnusSlotSchedulerStepUntil ctx i)

theorem clocks_edges (ctx : RigelContext) (n : Nat) :
    (agnusSlotSchedulerStepUntil ctx n).paula.interrupts =
      (clocksEdges (fun c => slotEdges c ++ vertbEdges c) ctx n).foldl IrqEdge.apply ctx.paula.interrupts := by
  induction n with
  | zero => rfl
  | succ n ih =>
    unfold clocksEdges at ih ⊢
    rw [List.range_succ, List.flatMap_append, List.foldl_append, ← ih, agnusSlotSchedulerStepUntil_succ, clock_edges,
      List.flatMap_singleton]

end Rigel
