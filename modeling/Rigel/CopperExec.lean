import Rigel.CopperStrobe

/-!
# CopperExec — the copper's instruction machine, in any order of its parts

The machine is split over the comparison of every CCK, the granted slot, the reload at VERTB and the register bus, which
brings the strobes. A `CopperEvent` is one of the four, or anything else that leaves the copper alone; every clock of a
context and every call of a host is a sequence of them (`Reachable.copperReached`).
-/

namespace Rigel

inductive CopperEvent where
  | cck
  | slot
  | vblReload
  | write (addr : UInt32) (value : UInt16)
  | rest (next : RigelContext)

/-- The rest of the machine may change in any way; of the copper it changes the event latch only, which a host's step
clears. -/
def copperEvent (ctx : RigelContext) : CopperEvent → RigelContext
  | .cck => setCopper ctx
      (rigelCopperDomainStep ctx.agnus.copper ctx.agnus.beam ctx.agnus.dma (blitterIsBusy ctx.agnus.blitter))
  | .slot => rigelCopperServiceStepProgram ctx
  | .vblReload => setCopper ctx (copperVblReload ctx.agnus.copper)
  | .write addr value => customRegsWrite16 ctx addr value
  | .rest next => setCopper next { ctx.agnus.copper with eventLatched := next.agnus.copper.eventLatched }

/-- Some events lead here from a reset copper. -/
def CopperReached (ctx : RigelContext) : Prop :=
  ∃ (start : RigelContext) (es : List CopperEvent),
    start.agnus.copper = copperReset ∧ es.foldl copperEvent start = ctx

theorem CopperReached.reset {ctx : RigelContext} (h : ctx.agnus.copper = copperReset) : CopperReached ctx :=
  ⟨ctx, [], h, rfl⟩

theorem CopperReached.event {ctx : RigelContext} (h : CopperReached ctx) (e : CopperEvent) :
    CopperReached (copperEvent ctx e) := by
  obtain ⟨start, es, hstart, hrun⟩ := h
  refine ⟨start, es ++ [e], hstart, ?_⟩
  rw [List.foldl_append, hrun]
  rfl

theorem CopperReached.rest {ctx next : RigelContext} (h : CopperReached ctx)
    (hcop : next.agnus.copper = { ctx.agnus.copper with eventLatched := next.agnus.copper.eventLatched }) :
    CopperReached next := by
  have hnext : copperEvent ctx (.rest next) = next := congrArg (setCopper next) hcop.symm
  exact hnext ▸ h.event (.rest next)

theorem CopperReached.same {ctx next : RigelContext} (h : CopperReached ctx)
    (hcop : next.agnus.copper = ctx.agnus.copper) : CopperReached next := by
  refine h.rest ?_
  rw [hcop]

/-! ## The copper's half of a register write -/

theorem copperWriteReg_flags (c : CopperState) (addr : UInt32) (value : UInt16) :
    (copperWriteReg c addr value).stoppedUntilVbl = c.stoppedUntilVbl ∧
      ((copperWriteReg c addr value).waiting = c.waiting ∧
          (copperWriteReg c addr value).fetchPending = c.fetchPending ∧
          (copperWriteReg c addr value).programCounter = c.programCounter ∨
        ∃ s : CopperStrobe, addr = s.reg ∧ copperWriteReg c addr value = copperJump c (s.target c)) := by
  unfold copperWriteReg
  split
  case h_6 => exact ⟨rfl, .inr ⟨.copjmp1, rfl, rfl⟩⟩
  case h_7 => exact ⟨rfl, .inr ⟨.copjmp2, rfl, rfl⟩⟩
  all_goals exact ⟨rfl, .inl ⟨rfl, rfl, rfl⟩⟩

/-! ## Instructions -/

inductive CopperInstr where
  | move (reg : UInt32) (value : UInt16)
  | wait (ir1 ir2 : UInt16)
  | skip (ir1 ir2 : UInt16)
  deriving Repr, DecidableEq

def copperDecode (ir1 ir2 : UInt16) : CopperInstr :=
  if ir1 &&& 0x0001 ≠ 0 then
    if ir2 &&& 0x0001 ≠ 0 then .skip ir1 ir2 else .wait ir1 ir2
  else .move (ir1 &&& 0x01FE).toUInt32 ir2

/-- The instruction under the program counter. -/
def copperInstrAt (ctx : RigelContext) : CopperInstr :=
  copperDecode (chipRamRead16 ctx.ram ctx.agnus.copper.programCounter)
    (chipRamRead16 ctx.ram (ctx.agnus.copper.programCounter + 2))

/-- The program counter that an instruction leaves. -/
def copperNextPc (c : CopperState) (beam : BeamState) : CopperInstr → UInt32
  | .skip ir1 ir2 => c.programCounter + (if copperExecSkipTest ir1 ir2 beam.hpos beam.vpos then 8 else 4)
  | .wait _ _ => c.programCounter
  | .move reg _ =>
    if copperMoveBlocked c.copcon reg then c.programCounter
    else if reg = 0x088 then (if c.cop1lc = c.programCounter then c.programCounter + 4 else c.cop1lc)
    else if reg = 0x08A then (if c.cop2lc = c.programCounter then c.programCounter + 4 else c.cop2lc)
    else c.programCounter + 4

theorem copperAfterMove_pc {c : CopperState} (h : c.stoppedUntilVbl = false) (pc : UInt32) :
    (copperAfterMove pc c).programCounter = if c.programCounter = pc then c.programCounter + 4 else c.programCounter := by
  unfold copperAfterMove
  rw [if_neg (by rw [h]; exact Bool.false_ne_true)]

theorem copperWriteReg_pc (c : CopperState) (addr : UInt32) (value : UInt16) :
    (copperWriteReg c addr value).programCounter =
      if addr = 0x088 then c.cop1lc else if addr = 0x08A then c.cop2lc else c.programCounter := by
  unfold copperWriteReg
  split
  all_goals first | rfl | simp_all

/-- **One instruction moves the program counter as its kind says.** -/
theorem copperExecute_pc (ctx : RigelContext) (h : ctx.agnus.copper.stoppedUntilVbl = false) (ir1 ir2 : UInt16) :
    (copperExecute ctx ir1 ir2).agnus.copper.programCounter =
      copperNextPc ctx.agnus.copper ctx.agnus.beam (copperDecode ir1 ir2) := by
  unfold copperExecute copperDecode
  simp only
  by_cases hmove : ir1 &&& 0x0001 = 0
  · rw [if_neg (not_not_intro hmove), if_neg (not_not_intro hmove)]
    simp only [setCopper, copperNextPc]
    rw [copperExecMove_agnus]
    generalize (ir1 &&& 0x01FE).toUInt32 = reg
    by_cases hb : copperMoveBlocked ctx.agnus.copper.copcon reg = true
    · rw [if_pos hb, if_pos hb]
      rfl
    · rw [if_neg hb, if_neg hb, agnusAfterWrite_copper,
        copperAfterMove_pc ((copperWriteReg_flags ctx.agnus.copper reg ir2).1.trans h), copperWriteReg_pc]
      by_cases h1 : reg = 0x088
      · rw [if_pos h1, if_pos h1]
        split
        · rename_i e
          rw [e]
        · rfl
      rw [if_neg h1, if_neg h1]
      by_cases h2 : reg = 0x08A
      · rw [if_pos h2, if_pos h2]
        split
        · rename_i e
          rw [e]
        · rfl
      rw [if_neg h2, if_neg h2, if_pos rfl]
  · rw [if_pos hmove, if_pos hmove]
    split
    · rfl
    · rfl

/-- A protected MOVE changes nothing but the copper's own flags. -/
theorem copperExecute_protected (ctx : RigelContext) {ir1 ir2 : UInt16} {reg : UInt32} {value : UInt16}
    (hinstr : copperDecode ir1 ir2 = .move reg value)
    (hb : copperMoveBlocked ctx.agnus.copper.copcon reg = true) :
    copperExecute ctx ir1 ir2 =
      setCopper ctx { ctx.agnus.copper with waiting := false, fetchPending := false, stoppedUntilVbl := true } := by
  unfold copperDecode at hinstr
  by_cases hmove : ir1 &&& 0x0001 = 0
  · rw [if_neg (not_not_intro hmove)] at hinstr
    cases hinstr
    unfold copperExecute copperExecMove
    simp only
    rw [if_neg (not_not_intro hmove), if_pos hb]
    rfl
  · rw [if_pos hmove] at hinstr
    split at hinstr
    · cases hinstr
    · cases hinstr

/-! ## The invariant -/

/-- The copper is not both waiting and holding a fetch. -/
def CopperExclusive (c : CopperState) : Prop := ¬ (c.waiting = true ∧ c.fetchPending = true)

theorem copperService_idle {ctx : RigelContext} (h : copperServiceFetch ctx.agnus.copper = none) :
    rigelCopperServiceStepProgram ctx = ctx := by
  unfold copperServiceFetch at h
  split at h
  · rename_i hidle
    unfold rigelCopperServiceStepProgram
    simp only
    by_cases hs : ctx.agnus.copper.stoppedUntilVbl = true
    · rw [if_pos hs]
    · rw [if_neg hs, if_pos]
      rw [Bool.not_eq_true] at hs
      rw [hs, Bool.false_or] at hidle
      exact hidle
  · cases h

theorem copperServiceFetch_pending {c : CopperState} {pc : UInt32} (h : copperServiceFetch c = some pc) :
    c.fetchPending = true := by
  unfold copperServiceFetch at h
  split at h
  · cases h
  · rename_i hrun
    simp only [Bool.or_eq_true, not_or, Bool.not_eq_true] at hrun
    simpa using hrun.2

theorem CopperExclusive.writeReg {c : CopperState} (h : CopperExclusive c) (addr : UInt32) (value : UInt16) :
    CopperExclusive (copperWriteReg c addr value) := by
  rintro ⟨hw, hf⟩
  rcases (copperWriteReg_flags c addr value).2 with ⟨ew, ef, -⟩ | ⟨s, -, hjump⟩
  · exact h ⟨ew ▸ hw, ef ▸ hf⟩
  · rw [hjump] at hw
    exact Bool.noConfusion hw

/-- A copper that neither waits nor holds a fetch may execute any instruction. -/
theorem copperExecute_exclusive (ctx : RigelContext) (hwait : ctx.agnus.copper.waiting = false)
    (hfetch : ctx.agnus.copper.fetchPending = false) (ir1 ir2 : UInt16) :
    CopperExclusive (copperExecute ctx ir1 ir2).agnus.copper := by
  unfold copperExecute
  simp only
  split
  · split
    · rintro ⟨hw, -⟩
      exact Bool.noConfusion (hwait.symm.trans hw)
    · rintro ⟨-, hf⟩
      exact Bool.noConfusion (hfetch.symm.trans hf)
  · simp only [setCopper]
    rw [copperExecMove_agnus]
    split
    · rintro ⟨hw, -⟩
      exact Bool.noConfusion hw
    · rw [agnusAfterWrite_copper]
      generalize (ir1 &&& 0x01FE).toUInt32 = reg
      have hwr : (copperWriteReg ctx.agnus.copper reg ir2).waiting = false := by
        rcases (copperWriteReg_flags ctx.agnus.copper reg ir2).2 with ⟨ew, -⟩ | ⟨s, -, hjump⟩
        · exact ew.trans hwait
        · rw [hjump]
          rfl
      rintro ⟨hw, -⟩
      unfold copperAfterMove at hw
      split at hw
      · exact Bool.noConfusion (hwr.symm.trans hw)
      · exact Bool.noConfusion (hwr.symm.trans hw)

theorem CopperExclusive.event {ctx : RigelContext} (h : CopperExclusive ctx.agnus.copper) (e : CopperEvent) :
    CopperExclusive (copperEvent ctx e).agnus.copper := by
  cases e with
  | cck =>
    rintro ⟨hw, hf⟩
    simp only [copperEvent, setCopper, rigelCopperDomainStep] at hw hf
    cases hr : copperReleases ctx.agnus.copper ctx.agnus.beam ctx.agnus.dma (blitterIsBusy ctx.agnus.blitter) with
    | true => simp [hr] at hw
    | false => exact h ⟨by simpa [hr] using hw, by simpa [hr] using hf⟩
  | slot =>
    show CopperExclusive (rigelCopperServiceStepProgram ctx).agnus.copper
    cases hfetch : copperServiceFetch ctx.agnus.copper with
    | none =>
      rw [copperService_idle hfetch]
      exact h
    | some pc =>
      have hwait : ctx.agnus.copper.waiting = false := by
        cases hw : ctx.agnus.copper.waiting with
        | false => rfl
        | true => exact absurd ⟨hw, copperServiceFetch_pending hfetch⟩ h
      rw [copperService_of_fetch hfetch]
      exact copperExecute_exclusive (setCopper ctx { ctx.agnus.copper with fetchPending := false }) hwait rfl _ _
  | vblReload =>
    rintro ⟨hw, -⟩
    exact Bool.noConfusion hw
  | write addr value =>
    unfold copperEvent
    rw [customRegsWrite16_agnus, agnusAfterWrite_copper]
    exact h.writeReg addr value
  | rest next => exact h

theorem CopperReached.exclusive {ctx : RigelContext} (h : CopperReached ctx) : CopperExclusive ctx.agnus.copper := by
  obtain ⟨start, es, hstart, rfl⟩ := h
  have hinit : CopperExclusive start.agnus.copper := by
    rw [hstart]
    rintro ⟨hw, -⟩
    exact Bool.noConfusion hw
  exact List.foldlRecOn (motive := fun c : RigelContext => CopperExclusive c.agnus.copper) es copperEvent hinit
    fun c hc e _ => hc.event e

/-! ## What the events do to it -/

/-- The event executes an instruction. -/
def CopperExecutes (ctx : RigelContext) : CopperEvent → Prop
  | .slot => copperServiceFetch ctx.agnus.copper ≠ none
  | _ => False

theorem stoppedUntilVbl_kept {ctx : RigelContext} (h : ctx.agnus.copper.stoppedUntilVbl = true) {e : CopperEvent}
    (he : e ≠ .vblReload) : (copperEvent ctx e).agnus.copper.stoppedUntilVbl = true := by
  cases e with
  | cck => exact h
  | slot =>
    have hidle : copperServiceFetch ctx.agnus.copper = none := by simp [copperServiceFetch, h]
    show (rigelCopperServiceStepProgram ctx).agnus.copper.stoppedUntilVbl = true
    rw [copperService_idle hidle]
    exact h
  | vblReload => exact absurd rfl he
  | write addr value =>
    unfold copperEvent
    rw [customRegsWrite16_agnus, agnusAfterWrite_copper, (copperWriteReg_flags _ _ _).1]
    exact h
  | rest next => exact h

/-- A stopped copper executes nothing before the next vertical blank, strobed or not. -/
theorem stopped_executes_nothing : ∀ (es : List CopperEvent) (ctx : RigelContext),
    ctx.agnus.copper.stoppedUntilVbl = true → (∀ e ∈ es, e ≠ .vblReload) →
      AlongRun copperEvent (fun c e => ¬ CopperExecutes c e) ctx es
  | [], _, _, _ => trivial
  | e :: es, ctx, hs, hes => by
    refine ⟨fun hx => ?_, stopped_executes_nothing es _ (stoppedUntilVbl_kept hs (hes e List.mem_cons_self))
      fun e' he' => hes e' (List.mem_cons_of_mem _ he')⟩
    cases e with
    | slot => exact hx (by simp [copperServiceFetch, hs])
    | _ => exact hx

/-- The program counter of a waiting copper: it stays, unless the wait is released, a strobe or the reload sets it. -/
theorem waiting_pc {ctx : RigelContext} (hx : CopperExclusive ctx.agnus.copper)
    (hw : ctx.agnus.copper.waiting = true) (e : CopperEvent) :
    (copperEvent ctx e).agnus.copper.programCounter = ctx.agnus.copper.programCounter ∨
      (e = .cck ∧ (copperEvent ctx e).agnus.copper.waiting = false ∧
        (copperEvent ctx e).agnus.copper.programCounter = ctx.agnus.copper.programCounter + 4) ∨
      (∃ (s : CopperStrobe) (value : UInt16), e = .write s.reg value ∧
        (copperEvent ctx e).agnus.copper.programCounter = s.target ctx.agnus.copper) ∨
      e = .vblReload := by
  cases e with
  | cck =>
    simp only [copperEvent, setCopper, rigelCopperDomainStep]
    cases copperReleases ctx.agnus.copper ctx.agnus.beam ctx.agnus.dma (blitterIsBusy ctx.agnus.blitter) with
    | true => exact .inr (.inl ⟨trivial, by simp, rfl⟩)
    | false => exact .inl rfl
  | slot =>
    left
    have hidle : copperServiceFetch ctx.agnus.copper = none := by
      cases hf : copperServiceFetch ctx.agnus.copper with
      | none => rfl
      | some pc => exact absurd ⟨hw, copperServiceFetch_pending hf⟩ hx
    show (rigelCopperServiceStepProgram ctx).agnus.copper.programCounter = _
    rw [copperService_idle hidle]
  | vblReload => exact .inr (.inr (.inr rfl))
  | write addr value =>
    unfold copperEvent
    rw [customRegsWrite16_agnus, agnusAfterWrite_copper]
    rcases (copperWriteReg_flags ctx.agnus.copper addr value).2 with ⟨-, -, epc⟩ | ⟨s, hs, hjump⟩
    · exact .inl epc
    · refine .inr (.inr (.inl ⟨s, value, by rw [hs], ?_⟩))
      rw [hjump]
      rfl
  | rest next => exact .inl rfl

/-- The copper's slot has something to do: a fetch is pending, copper DMA is on and the copper is not stopped. -/
structure CopperReady (c : CopperState) : Prop where
  fetchPending : c.fetchPending = true
  enabled : c.enabled = true
  running : c.stoppedUntilVbl = false

theorem CopperReady.fetch {c : CopperState} (h : CopperReady c) : copperServiceFetch c = some c.programCounter := by
  simp [copperServiceFetch, h.fetchPending, h.enabled, h.running]

/-- The context that a fetched instruction is executed in. -/
def copperFetching (ctx : RigelContext) : RigelContext := setCopper ctx { ctx.agnus.copper with fetchPending := false }

theorem CopperReady.slot {ctx : RigelContext} (h : CopperReady ctx.agnus.copper) :
    copperEvent ctx .slot = copperExecute (copperFetching ctx) (chipRamRead16 ctx.ram ctx.agnus.copper.programCounter)
      (chipRamRead16 ctx.ram (ctx.agnus.copper.programCounter + 2)) :=
  copperService_of_fetch h.fetch

/-- What holds of the copper in a state, whatever event comes next. -/
structure CopperDiscipline (ctx : RigelContext) : Prop where
  exclusive : ¬ (ctx.agnus.copper.waiting = true ∧ ctx.agnus.copper.fetchPending = true)
  waits : ctx.agnus.copper.waiting = true → ∀ e : CopperEvent,
    (copperEvent ctx e).agnus.copper.programCounter = ctx.agnus.copper.programCounter ∨
      (e = .cck ∧ (copperEvent ctx e).agnus.copper.waiting = false ∧
        (copperEvent ctx e).agnus.copper.programCounter = ctx.agnus.copper.programCounter + 4) ∨
      (∃ (s : CopperStrobe) (value : UInt16), e = .write s.reg value ∧
        (copperEvent ctx e).agnus.copper.programCounter = s.target ctx.agnus.copper) ∨
      e = .vblReload
  /-- The flag that a slot looks at is copper DMA as the CCK found it. -/
  enabled : (copperEvent ctx .cck).agnus.copper.enabled = dmaconCopenOn ctx.agnus.dma.dmacon
  executes : CopperReady ctx.agnus.copper →
    CopperExecutes ctx .slot ∧
      copperEvent ctx .slot = copperExecute (copperFetching ctx)
        (chipRamRead16 ctx.ram ctx.agnus.copper.programCounter)
        (chipRamRead16 ctx.ram (ctx.agnus.copper.programCounter + 2)) ∧
      (copperEvent ctx .slot).agnus.copper.programCounter =
        copperNextPc ctx.agnus.copper ctx.agnus.beam (copperInstrAt ctx)
  protects : CopperReady ctx.agnus.copper → ∀ (reg : UInt32) (value : UInt16), copperInstrAt ctx = .move reg value →
    copperMoveBlocked ctx.agnus.copper.copcon reg = true →
    copperEvent ctx .slot = setCopper ctx
        { ctx.agnus.copper with waiting := false, fetchPending := false, stoppedUntilVbl := true } ∧
      ∀ es : List CopperEvent, (∀ e ∈ es, e ≠ .vblReload) →
        AlongRun copperEvent (fun c e => ¬ CopperExecutes c e) (copperEvent ctx .slot) es

/-- **The copper's discipline**, after any events from a reset copper on. -/
theorem copper_discipline {ctx : RigelContext} (h : CopperReached ctx) : CopperDiscipline ctx where
  exclusive := h.exclusive
  waits hw e := waiting_pc h.exclusive hw e
  enabled := rfl
  executes hr := by
    refine ⟨?_, hr.slot, ?_⟩
    · show copperServiceFetch ctx.agnus.copper ≠ none
      rw [hr.fetch]
      exact Option.some_ne_none _
    · rw [hr.slot]
      exact copperExecute_pc (copperFetching ctx) hr.running _ _
  protects hr reg value hinstr hb := by
    have hslot : copperEvent ctx .slot = setCopper ctx
        { ctx.agnus.copper with waiting := false, fetchPending := false, stoppedUntilVbl := true } := by
      rw [hr.slot]
      exact copperExecute_protected (copperFetching ctx) hinstr hb
    refine ⟨hslot, fun es hes => stopped_executes_nothing es _ ?_ hes⟩
    rw [hslot]
    rfl

/-! ## The clock and the host -/

theorem CopperReached.dispatch {ctx : RigelContext} (h : CopperReached ctx) :
    CopperReached (schedulerDispatch ctx) := by
  have hready : CopperReached (schedulerRestoreDsken ctx) := h.same (schedulerRestoreDsken_copper ctx)
  unfold schedulerDispatch
  by_cases hslot : slotOwner ctx = .copper
  · rw [hslot]
    exact hready.event .slot
  · exact hready.same (dispatchSlot_copper hslot _ _)

theorem CopperReached.advance {ctx : RigelContext} (h : CopperReached ctx) : CopperReached (schedulerAdvance ctx) := by
  have hcop := schedulerAdvance_copper ctx
  by_cases hv : vertbRestarts ctx = true
  · rw [if_pos hv] at hcop
    exact (h.event .vblReload).same hcop
  · rw [if_neg hv] at hcop
    exact h.same hcop

/-- **A clock is a sequence of the copper's events**: the comparison, the slot if it is the copper's, the reload. -/
theorem CopperReached.clock {ctx : RigelContext} (h : CopperReached ctx) :
    CopperReached (agnusSlotSchedulerStep ctx) := by
  have hprep : CopperReached (schedulerPrepare ctx) := (h.event .cck).same (schedulerPrepare_copper ctx)
  exact hprep.dispatch.advance

theorem CopperReached.clocks {ctx : RigelContext} (h : CopperReached ctx) :
    ∀ n : Nat, CopperReached (agnusSlotSchedulerStepUntil ctx n)
  | 0 => h
  | n + 1 => by
    unfold agnusSlotSchedulerStepUntil
    rw [Function.iterate_succ_apply']
    exact (h.clocks n).clock

theorem CopperReached.stepRun {ctx : RigelContext} (h : CopperReached ctx) (cycles : UInt64) :
    CopperReached (rigelStepRun ctx cycles) := by
  have hbegin : CopperReached (stepPrologue ctx cycles.toUInt32) := by
    refine h.rest ?_
    unfold stepPrologue
    simp only
    split <;> rfl
  have hrun := hbegin.clocks cycles.toUInt32.toNat
  rw [← chipsetRun_eq_clocks] at hrun
  refine hrun.same ?_
  unfold rigelStepRun
  rw [rigelChipsetStep_agnus]

theorem rigelReset_copper (ctx : RigelContext) : (rigelReset ctx).agnus.copper = copperReset := rfl

/-- **Every state of a machine is one that the copper's events reach.** -/
theorem Reachable.copperReached {ctx : RigelContext} (h : Reachable ctx) : CopperReached ctx := by
  induction h with
  | create config ram => exact .reset (rigelReset_copper _)
  | @call ctx _ c ih =>
    have hagnus := hostCall_agnus ctx c
    cases c with
    | reset => exact .reset (rigelReset_copper ctx)
    | step cycles => exact (ih.stepRun cycles).same (congrArg RigelAgnus.copper hagnus)
    | stepUntil target =>
      simp only at hagnus
      by_cases ht : target ≤ ctx.cycles
      · rw [if_pos ht] at hagnus
        exact ih.same (congrArg RigelAgnus.copper hagnus)
      · rw [if_neg ht] at hagnus
        exact (ih.stepRun _).same (congrArg RigelAgnus.copper hagnus)
    | customWrite addr value => exact ih.event (.write addr value)
    | setCycleExact on => exact ih.same rfl
    | _ => exact ih.same (congrArg RigelAgnus.copper hagnus)

theorem copper_discipline_listMachine :
    CopperReached (copperListMachine 0x0088 0) ∧ CopperDiscipline (copperListMachine 0x0088 0) :=
  ⟨(copperListMachine_reachable _ _).copperReached, copper_discipline (copperListMachine_reachable _ _).copperReached⟩

end Rigel
