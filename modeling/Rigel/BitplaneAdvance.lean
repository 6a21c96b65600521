import Mathlib.Data.List.Induction
import Rigel.CalmRun
import Rigel.Tod

/-!
# BitplaneAdvance — the bitplane pointers over a line

The first fetch of a line freezes the pointers as the line's base, every fetch records the highest word index it has
seen, and the start of the next line adds the recorded words and the modulo. A fetch that loses its slot to an active
disk transfer records nothing. A line is followed here from its first clock to its last, whatever else the bus and the
host do on it: the pointers come out right exactly if some slot of the last word was not taken.
-/

namespace Rigel

/-! ## What belongs to a line's fetch -/

/-- What the scheduler has recorded of the fetch of this line. -/
structure LineFetch where
  valid : Bool
  dma : Bool
  words : UInt16
  depth : UInt16
  base : Nat → UInt32

def lineFetch (s : SlotScheduler) : LineFetch :=
  ⟨s.bitplaneLineBaseValid, s.bitplaneDmaThisLine, s.bitplaneWordsThisLine, s.bitplaneLineDepth, s.bitplaneLineBase⟩

/-- The scheduler's inputs that decide how many words a line has. -/
structure FetchSetup where
  depth : UInt16
  hires : Bool
  ddfstrt : UInt16
  ddfstop : UInt16

def fetchSetup (s : SlotScheduler) : FetchSetup := ⟨s.depth, s.hires, s.ddfstrt, s.ddfstop⟩

/-- The words of a plane on this line. -/
def lineWords (s : SlotScheduler) : Nat := bitplaneWordsPerPlane (slotInputs s)

theorem bitplaneWords_setup {s s' : SlotInputs} (hd : s'.depth = s.depth) (hh : s'.hires = s.hires)
    (h1 : s'.ddfstrt = s.ddfstrt) (h2 : s'.ddfstop = s.ddfstop) : bitplaneWordsPerPlane s' = bitplaneWordsPerPlane s := by
  unfold bitplaneWordsPerPlane
  rw [hd, hh, h1, h2]

theorem lineWords_setup {s s' : SlotScheduler} (h : fetchSetup s' = fetchSetup s) : lineWords s' = lineWords s := by
  have hdepth := congrArg FetchSetup.depth h
  have hhires := congrArg FetchSetup.hires h
  have hstrt := congrArg FetchSetup.ddfstrt h
  have hstop := congrArg FetchSetup.ddfstop h
  exact bitplaneWords_setup hdepth hhires hstrt hstop

/-- Nothing of the fetch has changed. -/
structure FetchSame (a a' : RigelAgnus) : Prop where
  bplpt : a'.bplpt = a.bplpt
  setup : fetchSetup a'.scheduler = fetchSetup a.scheduler
  line : lineFetch a'.scheduler = lineFetch a.scheduler

theorem FetchSame.refl (a : RigelAgnus) : FetchSame a a := ⟨rfl, rfl, rfl⟩

theorem FetchSame.trans {a b c : RigelAgnus} (h : FetchSame a b) (h' : FetchSame b c) : FetchSame a c :=
  ⟨h'.bplpt.trans h.bplpt, h'.setup.trans h.setup, h'.line.trans h.line⟩

/-- BPLCON0, DDFSTRT and DDFSTOP, the modulos and the bitplane pointers. -/
def isFetchReg (addr : UInt32) : Bool :=
  addr == 0x100 || addr == 0x092 || addr == 0x094 || addr == 0x108 || addr == 0x10A || isBplptReg addr

theorem agnusAfterWrite_fetch {addr : UInt32} (h : isFetchReg addr = false) (a : RigelAgnus) (value : UInt16) :
    FetchSame a (agnusAfterWrite a addr value) := by
  simp only [isFetchReg, Bool.or_eq_false_iff, beq_eq_false_iff_ne] at h
  obtain ⟨⟨⟨⟨⟨h0, h1⟩, h2⟩, -⟩, -⟩, hptr⟩ := h
  have hpointers : FetchSame a (agnusWritePointers a addr value) := ⟨by simp [agnusWritePointers, hptr], rfl, rfl⟩
  unfold agnusAfterWrite
  split
  · unfold agnusAfterMmio
    repeat' split
    all_goals first
      | exact .refl a
      | exact hpointers
      | exact ⟨rfl, rfl, rfl⟩
  · unfold agnusFollowDenise
    split
    · exact absurd rfl h0
    · refine ⟨rfl, ?_, ?_⟩
      · simp only [agnusSlotSchedulerSetVstrt]
        split <;> rfl
      · simp only [agnusSlotSchedulerSetVstrt]
        split <;> rfl
    · exact ⟨rfl, rfl, rfl⟩
    · exact .refl a
  · exact .refl a
  · exact .refl a

theorem schedulerPrepare_fetch (ctx : RigelContext) : FetchSame ctx.agnus (schedulerPrepare ctx).agnus := by
  unfold schedulerPrepare schedulerRefreshTable agnusFreshTable
  simp only
  split <;> exact ⟨rfl, rfl, rfl⟩

theorem schedulerRestoreDsken_fetch (ctx : RigelContext) : FetchSame ctx.agnus (schedulerRestoreDsken ctx).agnus := by
  unfold schedulerRestoreDsken
  split <;> exact ⟨rfl, rfl, rfl⟩

/-! ## One clock -/

/-- The slot of the next clock is the bitplane fetch's, and no disk transfer takes it. -/
def bitplaneServed (ctx : RigelContext) : Bool := liveEntry ctx == .bitplane && !diskWantsSlot ctx

/-- The word that the slot of the next clock is scheduled for. -/
def slotWord (ctx : RigelContext) : Nat :=
  ((freshTables ctx.agnus).index ctx.agnus.beam.hpos.toNat).toNat / ctx.agnus.scheduler.depth.toNat

/-- The record after a fetch of word `widx`. -/
def LineFetch.fetch (f : LineFetch) (bplpt : Nat → UInt32) (depth : UInt16) (widx : Nat) : LineFetch where
  valid := true
  dma := true
  words := if UInt16.ofNat widx + 1 > f.words then UInt16.ofNat widx + 1 else f.words
  depth := if f.valid then f.depth else depth
  base := if f.valid then f.base else fun p => if p < bitplaneCount then bplpt p &&& 0x001FFFFE else f.base p

/-- No copper MOVE of this clock writes a register of the fetch. -/
def NoFetchMove (ctx : RigelContext) : Prop := ∀ addr value, clockWrite ctx = some (addr, value) → isFetchReg addr = false

theorem dispatchedBitplane_iff {ctx : RigelContext} (h : AgnusOk ctx.agnus) :
    dispatchedOwner ctx = .bitplane ↔ bitplaneServed ctx = true := by
  refine (dispatchedOwner_iff h SlotOwner.noConfusion SlotOwner.noConfusion SlotOwner.noConfusion).trans ?_
  unfold slotEntry bitplaneServed
  cases diskWantsSlot ctx with
  | true => simp
  | false => simp

/-- A clock that serves no bitplane slot leaves the fetch as it is. -/
theorem dispatch_notServed {ctx : RigelContext} (h : AgnusOk ctx.agnus) (hmove : NoFetchMove ctx)
    (hserved : bitplaneServed ctx = false) :
    FetchSame ctx.agnus (schedulerDispatch (schedulerPrepare ctx)).agnus := by
  have hready := (schedulerPrepare_fetch ctx).trans (schedulerRestoreDsken_fetch (schedulerPrepare ctx))
  refine hready.trans ?_
  unfold schedulerDispatch
  cases howner : slotOwner (schedulerPrepare ctx) with
  | bitplane =>
    have hd : dispatchedOwner ctx = .bitplane := howner
    rw [dispatchedBitplane_iff h, hserved] at hd
    exact Bool.noConfusion hd
  | disk =>
    simp only [dispatchSlot, diskSlot, raiseIrqSources_agnus]
    exact .refl _
  | blitter =>
    simp only [dispatchSlot, blitterSlot, raiseIrqSources_agnus]
    exact ⟨rfl, rfl, rfl⟩
  | copper =>
    show FetchSame _ (rigelCopperServiceStepProgram _).agnus
    rcases copperService_write (schedulerRestoreDsken (schedulerPrepare ctx)) with ⟨-, c, hc⟩ | ⟨reg, value, c, c', hw, -, hc⟩
    · rw [hc]
      exact ⟨rfl, rfl, rfl⟩
    · rw [hc]
      have hfetch := agnusAfterWrite_fetch (copperWrite_of_clock howner hmove hw)
        (copperWriting (schedulerRestoreDsken (schedulerPrepare ctx)) c).agnus value
      rw [← customRegsWrite16_agnus] at hfetch
      exact ⟨hfetch.bplpt, hfetch.setup, hfetch.line⟩
  | _ => exact ⟨rfl, rfl, rfl⟩

/-- The depth that BPLCON0 leaves in the scheduler. -/
def DepthOk (s : SlotScheduler) : Prop := s.depth &&& 0x7 = s.depth

/-- The index of a bitplane slot of a fresh table. -/
theorem slotIndex_lt {ctx : RigelContext} (h : AgnusOk ctx.agnus) (hdepth : DepthOk ctx.agnus.scheduler)
    (hentry : liveEntry ctx = .bitplane) :
    ((freshTables ctx.agnus).index ctx.agnus.beam.hpos.toNat).toNat <
      lineWords ctx.agnus.scheduler * ctx.agnus.scheduler.depth.toNat := by
  have hindex := buildSlotTables_index hentry
  rw [hposSlot h] at hindex
  have hwords : bitplaneWordsPerPlane { slotInputs ctx.agnus.scheduler with dmacon := ctx.agnus.dma.dmacon } =
      lineWords ctx.agnus.scheduler := bitplaneWords_setup rfl rfl rfl rfl
  have hd : (slotInputs ctx.agnus.scheduler).depth &&& 0x7 = ctx.agnus.scheduler.depth := hdepth
  rw [hwords] at hindex
  simp only at hindex
  rw [hd] at hindex
  exact hindex

theorem lineDepth_of_words {s : SlotScheduler} (hdepth : DepthOk s) (hwords : lineWords s ≠ 0) :
    0 < s.depth.toNat ∧ s.depth.toNat ≤ 6 := by
  have hd := bitplaneDepth_of_words hwords
  have he : (slotInputs s).depth &&& 0x7 = s.depth := hdepth
  rw [he] at hd
  exact hd

theorem slotWord_lt {ctx : RigelContext} (h : AgnusOk ctx.agnus) (hdepth : DepthOk ctx.agnus.scheduler)
    (hentry : liveEntry ctx = .bitplane) :
    (0 < ctx.agnus.scheduler.depth.toNat ∧ ctx.agnus.scheduler.depth.toNat ≤ 6) ∧
      slotWord ctx < lineWords ctx.agnus.scheduler := by
  have hindex := slotIndex_lt h hdepth hentry
  have hwords : lineWords ctx.agnus.scheduler ≠ 0 := by
    intro h0
    rw [h0, Nat.zero_mul] at hindex
    exact absurd hindex (Nat.not_lt_zero _)
  have hd := lineDepth_of_words hdepth hwords
  refine ⟨hd, ?_⟩
  rw [slotWord, Nat.div_lt_iff_lt_mul hd.1]
  exact hindex

/-- The index that the fetch of this clock reads. -/
theorem bitplaneLogical_live {ctx : RigelContext} (h : AgnusOk ctx.agnus) (hdepth : DepthOk ctx.agnus.scheduler)
    (hentry : liveEntry ctx = .bitplane) :
    bitplaneLogical (schedulerRestoreDsken (schedulerPrepare ctx)).agnus.scheduler
        (schedulerPrepare ctx).agnus.scheduler.hpos =
      (freshTables ctx.agnus).index ctx.agnus.beam.hpos.toNat := by
  have hlt := slotIndex_lt h hdepth hentry
  obtain ⟨hd, -⟩ := slotWord_lt h hdepth hentry
  have hwords : lineWords ctx.agnus.scheduler ≤ 64 := bitplaneWords_le _
  have hsmall : lineWords ctx.agnus.scheduler * ctx.agnus.scheduler.depth.toNat ≤ 64 * 6 := Nat.mul_le_mul hwords hd.2
  have hne : (freshTables ctx.agnus).index ctx.agnus.beam.hpos.toNat ≠ 0xFFFF := by
    intro e
    rw [e] at hlt
    simp only [UInt16.reduceToNat] at hlt
    omega
  obtain ⟨⟨-, hindex⟩, -, -⟩ := schedulerPrepare_fresh ctx h
  rw [(schedulerPrepare_inputs ctx).1] at hindex
  have hpos : ctx.agnus.beam.hpos.toNat < agnusSlotsPerLine := UInt16.lt_iff_toNat_lt.mp h.beam.hpos
  unfold bitplaneLogical
  rw [schedulerRestoreDsken_index, hindex, (schedulerPrepare_inputs ctx).2]
  simp only [hpos, if_true]
  exact if_neg hne

theorem bitplaneFetch_line (ctx : RigelContext) (plane widx : Nat) (logical : UInt16) :
    (bitplaneFetch ctx plane widx logical).agnus.bplpt = ctx.agnus.bplpt ∧
      fetchSetup (bitplaneFetch ctx plane widx logical).agnus.scheduler = fetchSetup ctx.agnus.scheduler ∧
      lineFetch (bitplaneFetch ctx plane widx logical).agnus.scheduler =
        (lineFetch ctx.agnus.scheduler).fetch ctx.agnus.bplpt.bplpt ctx.agnus.scheduler.depth widx := by
  unfold bitplaneFetch bitplaneLatchLine LineFetch.fetch lineFetch
  simp only
  by_cases hv : ctx.agnus.scheduler.bitplaneLineBaseValid = true
  · rw [if_pos hv, if_pos hv, if_pos hv, hv]
    exact ⟨trivial, rfl, rfl⟩
  · rw [if_neg hv, if_neg hv, if_neg hv]
    exact ⟨trivial, rfl, rfl⟩

/-- **A clock that serves a bitplane slot** records the fetch and leaves the pointers. -/
theorem dispatch_served {ctx : RigelContext} (h : AgnusOk ctx.agnus) (hdepth : DepthOk ctx.agnus.scheduler)
    (hserved : bitplaneServed ctx = true) :
    (schedulerDispatch (schedulerPrepare ctx)).agnus.bplpt = ctx.agnus.bplpt ∧
      fetchSetup (schedulerDispatch (schedulerPrepare ctx)).agnus.scheduler = fetchSetup ctx.agnus.scheduler ∧
      lineFetch (schedulerDispatch (schedulerPrepare ctx)).agnus.scheduler =
        (lineFetch ctx.agnus.scheduler).fetch ctx.agnus.bplpt.bplpt ctx.agnus.scheduler.depth (slotWord ctx) := by
  have howner : slotOwner (schedulerPrepare ctx) = .bitplane := (dispatchedBitplane_iff h).mpr hserved
  have hentry : liveEntry ctx = .bitplane := by
    simp only [bitplaneServed, Bool.and_eq_true, beq_iff_eq] at hserved
    exact hserved.1
  obtain ⟨hd, hword⟩ := slotWord_lt h hdepth hentry
  have hwords : lineWords ctx.agnus.scheduler ≤ 64 := bitplaneWords_le _
  have hready := (schedulerPrepare_fetch ctx).trans (schedulerRestoreDsken_fetch (schedulerPrepare ctx))
  have hlogical := bitplaneLogical_live h hdepth hentry
  have hdepthSame : (schedulerRestoreDsken (schedulerPrepare ctx)).agnus.scheduler.depth = ctx.agnus.scheduler.depth :=
    congrArg FetchSetup.depth hready.setup
  unfold schedulerDispatch
  rw [howner]
  simp only [dispatchSlot, bitplaneSlot]
  rw [hlogical, hdepthSame]
  have hguard : ctx.agnus.scheduler.depth.toNat > 0 ∧ ctx.agnus.scheduler.depth.toNat ≤ 6 ∧
      ((freshTables ctx.agnus).index ctx.agnus.beam.hpos.toNat).toNat / ctx.agnus.scheduler.depth.toNat <
        deniseMaxPlaneWords := ⟨hd.1, hd.2, Nat.lt_of_lt_of_le hword hwords⟩
  rw [if_pos hguard]
  obtain ⟨hbplpt, hsetup, hline⟩ := bitplaneFetch_line (schedulerRestoreDsken (schedulerPrepare ctx))
    (((freshTables ctx.agnus).index ctx.agnus.beam.hpos.toNat).toNat % ctx.agnus.scheduler.depth.toNat) (slotWord ctx)
    ((freshTables ctx.agnus).index ctx.agnus.beam.hpos.toNat)
  rw [hready.line, hready.bplpt, hdepthSame] at hline
  exact ⟨hbplpt.trans hready.bplpt, hsetup.trans hready.setup, hline⟩

/-! ## The record over a line -/

/-- The record of a line of `words` words that began with the pointers `bplpt`, when some slot of it has been
`served`, and one of its last word, so that it is `ended`. -/
structure LineRecord (bplpt : Nat → UInt32) (depth : UInt16) (words : Nat) (f : LineFetch) (served ended : Prop) : Prop where
  fresh : ¬ served → f.valid = false ∧ f.dma = false ∧ f.words = 0
  latched : served → f.valid = true ∧ f.dma = true ∧ f.depth = depth ∧
    ∀ p < bitplaneCount, f.base p = bplpt p &&& 0x001FFFFE
  bound : f.words.toNat ≤ words
  counted : served → 0 < f.words.toNat
  complete : served → (f.words.toNat = words ↔ ended)
  began : ended → served

variable {bplpt : Nat → UInt32} {depth : UInt16} {words : Nat} {f : LineFetch} {served ended : Prop}

theorem LineRecord.start (h : f.valid = false ∧ f.dma = false ∧ f.words = 0) :
    LineRecord bplpt depth words f False False := by
  refine ⟨fun _ => h, False.elim, ?_, False.elim, False.elim, id⟩
  rw [h.2.2]
  exact Nat.zero_le _

theorem LineRecord.congr {served' ended' : Prop} (h : LineRecord bplpt depth words f served ended) (hs : served' ↔ served)
    (hl : ended' ↔ ended) : LineRecord bplpt depth words f served' ended' := by
  rw [propext hs, propext hl]
  exact h

/-- One more word. -/
theorem LineRecord.fetch (h : LineRecord bplpt depth words f served ended) {widx : Nat} (hw : widx < words)
    (hsmall : words ≤ 64) :
    LineRecord bplpt depth words (f.fetch bplpt depth widx) True (ended ∨ widx + 1 = words) := by
  have hnew : (UInt16.ofNat widx + 1).toNat = widx + 1 := by
    rw [UInt16.toNat_add, UInt16.toNat_ofNat_of_lt' (by simp only [UInt16.size]; omega)]
    simp only [UInt16.reduceToNat]
    omega
  have hold : (¬ served → f.words.toNat = 0) := by
    intro hs
    rw [(h.fresh hs).2.2]
    rfl
  have hmax : (f.fetch bplpt depth widx).words.toNat = max f.words.toNat (widx + 1) := by
    simp only [LineFetch.fetch]
    split
    · rename_i hgt
      rw [gt_iff_lt, UInt16.lt_iff_toNat_lt, hnew] at hgt
      rw [hnew]
      omega
    · rename_i hle
      rw [gt_iff_lt, UInt16.lt_iff_toNat_lt, hnew] at hle
      omega
  have hbound := h.bound
  refine ⟨fun hn => absurd trivial hn, fun _ => ⟨rfl, rfl, ?_, ?_⟩, ?_, fun _ => ?_, fun _ => ?_, fun _ => trivial⟩
  · by_cases hs : served
    · obtain ⟨hv, -, hd, -⟩ := h.latched hs
      simp only [LineFetch.fetch, hv, if_true]
      exact hd
    · simp only [LineFetch.fetch, (h.fresh hs).1, Bool.false_eq_true, if_false]
  · intro p hp
    by_cases hs : served
    · obtain ⟨hv, -, -, hb⟩ := h.latched hs
      simp only [LineFetch.fetch, hv, if_true]
      exact hb p hp
    · simp only [LineFetch.fetch, (h.fresh hs).1, Bool.false_eq_true, if_false, if_pos hp]
  · rw [hmax]
    omega
  · rw [hmax]
    omega
  · rw [hmax]
    by_cases hs : served
    · rw [← h.complete hs]
      omega
    · have h0 := hold hs
      constructor
      · intro e
        right
        omega
      · rintro (hl | e)
        · exact absurd (h.began hl) hs
        · omega

/-! ## The line -/

/-- A clock of a served bitplane slot. -/
def ServesBitplane (ctx : RigelContext) (e : LineEvent) : Prop := e.IsClock ∧ bitplaneServed ctx = true

/-- A clock of a served slot of the line's last word. -/
def ServesLastWord (ctx : RigelContext) (e : LineEvent) : Prop :=
  e.IsClock ∧ bitplaneServed ctx = true ∧ slotWord ctx + 1 = lineWords ctx.agnus.scheduler

/-- Nobody writes BPLCON0, DDFSTRT, DDFSTOP, a modulo or a bitplane pointer, neither the CPU nor the copper. -/
def FetchUndisturbed (ctx : RigelContext) (e : LineEvent) : Prop :=
  e.Unrolled ∧ (e.IsClock → NoFetchMove ctx) ∧ ∀ addr value, e.writes = some (addr, value) → isFetchReg addr = false

/-- A line that began at `c₀`, after the events `es`. -/
structure LineSoFar (c₀ : RigelContext) (es : List LineEvent) (ctx : RigelContext) : Prop where
  bplpt : ctx.agnus.bplpt = c₀.agnus.bplpt
  setup : fetchSetup ctx.agnus.scheduler = fetchSetup c₀.agnus.scheduler
  modulo : ∀ i, isModuloIndex i → ctx.customRegs i = c₀.customRegs i
  record : LineRecord c₀.agnus.bplpt.bplpt c₀.agnus.scheduler.depth (lineWords c₀.agnus.scheduler)
    (lineFetch ctx.agnus.scheduler) (OnceAlong lineEvent ServesBitplane c₀ es) (OnceAlong lineEvent ServesLastWord c₀ es)

theorem LineSoFar.same {c₀ ctx ctx' : RigelContext} {es : List LineEvent} (h : LineSoFar c₀ es ctx)
    (hs : FetchSame ctx.agnus ctx'.agnus) (hm : ∀ i, isModuloIndex i → ctx'.customRegs i = ctx.customRegs i) :
    LineSoFar c₀ es ctx' := by
  refine ⟨hs.bplpt.trans h.bplpt, hs.setup.trans h.setup, fun i hi => (hm i hi).trans (h.modulo i hi), ?_⟩
  rw [hs.line]
  exact h.record

/-- An event of the run that serves nothing. -/
theorem LineSoFar.concat {c₀ ctx : RigelContext} {es : List LineEvent} (h : LineSoFar c₀ es ctx) {e : LineEvent}
    (hserves : ¬ ServesBitplane (es.foldl lineEvent c₀) e) : LineSoFar c₀ (es ++ [e]) ctx := by
  have hlast : ¬ ServesLastWord (es.foldl lineEvent c₀) e := fun hl => hserves ⟨hl.1, hl.2.1⟩
  refine ⟨h.bplpt, h.setup, h.modulo, h.record.congr ?_ ?_⟩
  · rw [onceAlong_concat]
    exact or_iff_left hserves
  · rw [onceAlong_concat]
    exact or_iff_left hlast

theorem dispatch_modulo {ctx : RigelContext} (hmove : NoFetchMove ctx) {i : UInt32} (hi : isModuloIndex i) :
    (schedulerDispatch (schedulerPrepare ctx)).customRegs i = ctx.customRegs i := by
  have hready := (slotReady ctx).customRegs
  rw [← hready]
  unfold schedulerDispatch
  cases howner : slotOwner (schedulerPrepare ctx) with
  | disk =>
    simp only [dispatchSlot, diskSlot]
    rw [raiseIrqSources_customRegs _ _ hi.ne_intreq]
  | blitter =>
    simp only [dispatchSlot, blitterSlot]
    rw [raiseIrqSources_customRegs _ _ hi.ne_intreq]
  | bitplane =>
    simp only [dispatchSlot, bitplaneSlot]
    split <;> rfl
  | copper =>
    show (rigelCopperServiceStepProgram _).customRegs i = _
    rcases copperService_write (schedulerRestoreDsken (schedulerPrepare ctx)) with ⟨-, c, hc⟩ | ⟨reg, value, c, c', hw, -, hc⟩
    · rw [hc]
      rfl
    · have hreg : isFetchReg reg = false := copperWrite_of_clock howner hmove hw
      simp only [isFetchReg, Bool.or_eq_false_iff, beq_eq_false_iff_ne] at hreg
      rw [hc]
      exact customRegsWrite16_modulo (copperWriting (schedulerRestoreDsken (schedulerPrepare ctx)) c) hi
        hreg.1.1.2 hreg.1.2 value
  | _ => rfl

/-- **The slot of a clock of the line.** -/
theorem LineSoFar.dispatch {c₀ : RigelContext} {es : List LineEvent} (h : LineSoFar c₀ es (es.foldl lineEvent c₀))
    (hok : AgnusOk (es.foldl lineEvent c₀).agnus) (hdepth : DepthOk c₀.agnus.scheduler)
    (hmove : NoFetchMove (es.foldl lineEvent c₀)) :
    LineSoFar c₀ (es ++ [.bus .clock]) (schedulerDispatch (schedulerPrepare (es.foldl lineEvent c₀))) := by
  have hdepthNow : (es.foldl lineEvent c₀).agnus.scheduler.depth = c₀.agnus.scheduler.depth :=
    congrArg FetchSetup.depth h.setup
  have hwordsNow := lineWords_setup h.setup
  cases hserved : bitplaneServed (es.foldl lineEvent c₀) with
  | false =>
    have hnot : ¬ ServesBitplane (es.foldl lineEvent c₀) (.bus .clock) := by
      rintro ⟨-, hs⟩
      exact Bool.noConfusion (hserved.symm.trans hs)
    exact (h.concat hnot).same (dispatch_notServed hok hmove hserved) fun i hi => dispatch_modulo hmove hi
  | true =>
    have hdepthOk : DepthOk (es.foldl lineEvent c₀).agnus.scheduler := by
      unfold DepthOk
      rw [hdepthNow]
      exact hdepth
    obtain ⟨hbplpt, hsetup, hline⟩ := dispatch_served hok hdepthOk hserved
    have hentry : liveEntry (es.foldl lineEvent c₀) = .bitplane := by
      simp only [bitplaneServed, Bool.and_eq_true, beq_iff_eq] at hserved
      exact hserved.1
    obtain ⟨-, hword⟩ := slotWord_lt hok hdepthOk hentry
    rw [hwordsNow] at hword
    refine ⟨hbplpt.trans h.bplpt, hsetup.trans h.setup,
      fun i hi => (dispatch_modulo hmove hi).trans (h.modulo i hi), ?_⟩
    rw [hline, h.bplpt, hdepthNow]
    refine (h.record.fetch hword (bitplaneWords_le _)).congr ?_ ?_
    · rw [onceAlong_concat]
      exact iff_of_true (.inr ⟨trivial, hserved⟩) trivial
    · rw [onceAlong_concat]
      refine or_congr_right ?_
      unfold ServesLastWord
      rw [hwordsNow]
      exact ⟨fun hl => hl.2.2, fun hw => ⟨trivial, hserved, hw⟩⟩

theorem advance_within {ctx : RigelContext} (hpos : (schedulerAdvance ctx).agnus.beam.hpos ≠ 0) :
    FetchSame ctx.agnus (schedulerAdvance ctx).agnus ∧
      ∀ i, isModuloIndex i → (schedulerAdvance ctx).customRegs i = ctx.customRegs i := by
  have hbeam : (schedulerMoveBeam ctx).agnus.beam.hpos ≠ 0 := by
    rw [schedulerAdvance_beam] at hpos
    exact hpos
  have hline : schedulerAtLineStart (schedulerMoveBeam ctx) = schedulerMoveBeam ctx := if_neg hbeam
  unfold schedulerAdvance schedulerAtVertb
  rw [hline]
  split
  · exact ⟨⟨rfl, rfl, rfl⟩, fun i hi => raiseIrqSources_customRegs (schedulerMoveBeam ctx) [paulaIntVertb] hi.ne_intreq⟩
  · exact ⟨⟨rfl, rfl, rfl⟩, fun _ _ => rfl⟩

theorem advance_line {ctx : RigelContext} (hpos : (schedulerAdvance ctx).agnus.beam.hpos = 0) :
    (schedulerAdvance ctx).agnus.bplpt = (schedulerLineStart (schedulerMoveBeam ctx)).agnus.bplpt := by
  have hbeam : (schedulerMoveBeam ctx).agnus.beam.hpos = 0 := by
    rw [schedulerAdvance_beam] at hpos
    exact hpos
  have hline : schedulerAtLineStart (schedulerMoveBeam ctx) = schedulerLineStart (schedulerMoveBeam ctx) := if_pos hbeam
  unfold schedulerAdvance schedulerAtVertb
  rw [hline]
  split <;> rfl

/-- A line starts with an empty record. -/
structure LineBegins (ctx : RigelContext) : Prop where
  hpos : ctx.agnus.beam.hpos = 0
  ok : AgnusOk ctx.agnus
  depth : DepthOk ctx.agnus.scheduler
  fresh : (lineFetch ctx.agnus.scheduler).valid = false ∧ (lineFetch ctx.agnus.scheduler).dma = false ∧
    (lineFetch ctx.agnus.scheduler).words = 0

/-- **The events of a line up to its last clock.** -/
theorem LineBegins.run {c₀ : RigelContext} (h : LineBegins c₀) (es : List LineEvent)
    (hrun : AlongRun lineEvent FetchUndisturbed c₀ es) (hclocks : clocksIn es ≤ 226) :
    AgnusOk (es.foldl lineEvent c₀).agnus ∧
      ((es.foldl lineEvent c₀).agnus.beam.hpos.toNat = clocksIn es ∧
        (es.foldl lineEvent c₀).agnus.beam.vpos = c₀.agnus.beam.vpos) ∧ LineSoFar c₀ es (es.foldl lineEvent c₀) := by
  induction es using List.reverseRecOn with
  | nil =>
    refine ⟨h.ok, ⟨?_, rfl⟩, rfl, rfl, fun _ _ => rfl, LineRecord.start h.fresh⟩
    rw [List.foldl_nil, h.hpos]
    rfl
  | append_singleton es e ih =>
    obtain ⟨hunrolled, hmove, hwrites⟩ := hrun.last
    have hcount := clocksIn_concat es e
    obtain ⟨hok, ⟨hpos, hvpos⟩, hsofar⟩ := ih hrun.init (by omega)
    rw [List.foldl_append, List.foldl_cons, List.foldl_nil]
    refine ⟨lineEvent_ok hok e, ?_⟩
    by_cases hc : e.IsClock
    · obtain rfl : e = .bus .clock := LineEvent.eq_clock hc
      rw [if_pos hc] at hcount
      have hslot := hsofar.dispatch hok h.depth (hmove hc)
      cases clock_beam hok with
      | line last => omega
      | frame last => omega
      | right hright hsame =>
        have hne : (schedulerAdvance (schedulerDispatch (schedulerPrepare (es.foldl lineEvent c₀)))).agnus.beam.hpos ≠ 0 := by
          intro e
          have hz : (agnusSlotSchedulerStep (es.foldl lineEvent c₀)).agnus.beam.hpos.toNat = 0 := by
            rw [show (agnusSlotSchedulerStep (es.foldl lineEvent c₀)).agnus.beam.hpos = 0 from e]
            rfl
          omega
        obtain ⟨hfetch, hmod⟩ := advance_within hne
        exact ⟨⟨by rw [hcount, ← hpos]; exact hright, hsame.trans hvpos⟩, hslot.same hfetch hmod⟩
    · rw [if_neg hc, Nat.add_zero] at hcount
      obtain ⟨hhposSame, hvposSame, -⟩ := lineEvent_position hok hunrolled hc
      refine ⟨⟨by rw [hhposSame, hcount, hpos], hvposSame.trans hvpos⟩, ?_⟩
      have hnot : ¬ ServesBitplane (es.foldl lineEvent c₀) e := fun hs => hc hs.1
      refine (hsofar.concat hnot).same ?_ fun i hi => lineEvent_modulo hi _ hunrolled hc fun addr value hw => ?_
      · rcases lineEvent_agnus hok hunrolled hc with ⟨addr, value, hw, ha⟩ | ⟨-, hs⟩
        · rw [ha]
          exact agnusAfterWrite_fetch (hwrites addr value hw) _ _
        · rw [hs]
          exact ⟨rfl, rfl, rfl⟩
      · have hreg := hwrites addr value hw
        simp only [isFetchReg, Bool.or_eq_false_iff, beq_eq_false_iff_ne] at hreg
        exact ⟨hreg.1.1.2, hreg.1.2⟩

/-! ## Every line begins with an empty record -/

/-- What holds between any two clocks: a depth of three bits, and at the start of a line no fetch recorded. -/
structure FetchKept (a : RigelAgnus) : Prop where
  depth : DepthOk a.scheduler
  fresh : a.beam.hpos = 0 → a.scheduler.bitplaneLineBaseValid = false ∧ a.scheduler.bitplaneDmaThisLine = false ∧
    a.scheduler.bitplaneWordsThisLine = 0

theorem depthOk_mask (s : SlotScheduler) (depth : UInt16) (h : DepthOk s) :
    DepthOk (agnusSlotSchedulerSetDepth s depth) := by
  have hmask : depth &&& 0x7 &&& 0x7 = depth &&& 0x7 := by
    rw [UInt16.and_assoc]
    rfl
  unfold DepthOk agnusSlotSchedulerSetDepth
  split
  · exact hmask
  · exact h

theorem FetchKept.write {a a' : RigelAgnus} (h : FetchKept a) (hw : AgnusWrite a a') : FetchKept a' := by
  cases hw with
  | bplcon0 value =>
    have hhires : ∀ hires, DepthOk (agnusSlotSchedulerSetHires a.scheduler hires) := by
      intro hires
      unfold agnusSlotSchedulerSetHires
      split <;> exact h.depth
    refine ⟨depthOk_mask _ _ (hhires _), fun h0 => ?_⟩
    obtain ⟨hv, hd, hw⟩ := h.fresh h0
    simp only [agnusFollowBplcon0, agnusSlotSchedulerSetDepth, agnusSlotSchedulerSetHires]
    repeat' split
    all_goals exact ⟨hv, hd, hw⟩
  | diwstrt value =>
    refine ⟨?_, fun h0 => ?_⟩
    · simp only [agnusSlotSchedulerSetVstrt]
      split <;> exact h.depth
    · obtain ⟨hv, hd, hw⟩ := h.fresh h0
      simp only [agnusSlotSchedulerSetVstrt]
      split <;> exact ⟨hv, hd, hw⟩
  | _ => exact ⟨h.depth, h.fresh⟩

theorem FetchKept.slotDepth {a a' : RigelAgnus} (h : FetchKept a) (hs : SlotEffect a a') : DepthOk a'.scheduler := by
  cases hs with
  | bitplane data s hc =>
    have hdepth : s.depth = a.scheduler.depth := congrArg SlotInputs.depth hc.2.2.2.1
    unfold DepthOk
    rw [hdepth]
    exact h.depth
  | copper hc =>
    cases hc with
    | move pc reg value =>
      have hbefore : FetchKept { a with copper := { a.copper with fetchPending := false } } := ⟨h.depth, h.fresh⟩
      exact (hbefore.write (agnusAfterWrite_cases _ reg value)).depth
    | _ => exact h.depth
  | _ => exact h.depth

theorem FetchKept.clock {ctx : RigelContext} (h : FetchKept ctx.agnus) :
    FetchKept (agnusSlotSchedulerStep ctx).agnus := by
  have hprepare : FetchKept (schedulerRestoreDsken (schedulerPrepare ctx)).agnus := by
    have hsame := (schedulerPrepare_fetch ctx).trans (schedulerRestoreDsken_fetch (schedulerPrepare ctx))
    have hdepth : (schedulerRestoreDsken (schedulerPrepare ctx)).agnus.scheduler.depth = ctx.agnus.scheduler.depth :=
      congrArg FetchSetup.depth hsame.setup
    refine ⟨?_, fun h0 => ?_⟩
    · unfold DepthOk
      rw [hdepth]
      exact h.depth
    · rw [(slotReady ctx).beam] at h0
      have hline := hsame.line
      simp only [lineFetch, LineFetch.mk.injEq] at hline
      rw [hline.1, hline.2.1, hline.2.2.1]
      exact h.fresh h0
  have hdispatch : DepthOk (schedulerDispatch (schedulerPrepare ctx)).agnus.scheduler :=
    hprepare.slotDepth (dispatchSlot_cases _ _ _)
  show FetchKept (schedulerAdvance (schedulerDispatch (schedulerPrepare ctx))).agnus
  generalize schedulerDispatch (schedulerPrepare ctx) = d at hdispatch
  by_cases h0 : (schedulerMoveBeam d).agnus.beam.hpos = 0
  · have hline : schedulerAtLineStart (schedulerMoveBeam d) = schedulerLineStart (schedulerMoveBeam d) := if_pos h0
    unfold schedulerAdvance schedulerAtVertb
    rw [hline]
    split <;> exact ⟨hdispatch, fun _ => ⟨rfl, rfl, rfl⟩⟩
  · have hline : schedulerAtLineStart (schedulerMoveBeam d) = schedulerMoveBeam d := if_neg h0
    unfold schedulerAdvance schedulerAtVertb
    rw [hline]
    split <;> exact ⟨hdispatch, fun hz => absurd hz h0⟩

theorem fetchKept_invariant : AgnusInvariant FetchKept where
  reset _ := ⟨(by decide : (0 : UInt16) &&& 0x7 = 0), fun _ => ⟨rfl, rfl, rfl⟩⟩
  write h hw := h.write hw
  latch h := ⟨h.depth, h.fresh⟩
  sync h := ⟨h.depth, h.fresh⟩
  clock h := h.clock
  cycleExact _ h := ⟨h.depth, h.fresh⟩

theorem BusReachable.fetchKept {ctx : RigelContext} (h : BusReachable ctx) : FetchKept ctx.agnus :=
  fetchKept_invariant.busReachable h

theorem BusReachable.lineBegins {ctx : RigelContext} (h : BusReachable ctx) (h0 : ctx.agnus.beam.hpos = 0) :
    LineBegins ctx := ⟨h0, h.agnusOk, h.fetchKept.depth, h.fetchKept.fresh h0⟩

/-! ## The pointers -/

theorem and_even_nat (n : Nat) : n &&& 0x1FFFFE = n % 2097152 / 2 * 2 := by
  have hhalf : n &&& 0x1FFFFE = 2 * (n / 2 &&& (2 ^ 20 - 1)) := by
    apply Nat.eq_of_testBit_eq
    intro i
    cases i with
    | zero => simp
    | succ i => simp [Nat.testBit_succ, Nat.and_div_two]
  rw [hhalf, Nat.and_two_pow_sub_one_eq_mod]
  omega

/-- The mask of a pointer takes it modulo 2 MB and makes it even. -/
theorem pointerMask (x : UInt32) : (x &&& 0x001FFFFE).toNat = x.toNat % 2097152 / 2 * 2 := by
  rw [UInt32.toNat_and]
  exact and_even_nat _

theorem pointerMask_idem (x : UInt32) : x &&& 0x001FFFFE &&& 0x001FFFFE = x &&& 0x001FFFFE := by
  rw [UInt32.and_assoc]
  rfl

theorem wordBytes (words : UInt16) : words.toUInt32 * 2 = UInt32.ofNat (2 * words.toNat) := by
  have hw := words.toNat_lt
  apply UInt32.toNat_inj.mp
  rw [UInt32.toNat_mul, UInt16.toNat_toUInt32, UInt32.toNat_ofNat_of_lt' (by simp only [UInt32.size]; omega)]
  simp only [UInt32.reduceToNat, Nat.reducePow]
  omega

/-- Two numbers of words lead to two pointers. -/
theorem pointer_words_iff (x t : UInt32) {w w' : Nat} (hw : w ≤ 64) (hw' : w' ≤ 64) :
    (((x &&& 0x001FFFFE) + UInt32.ofNat (2 * w')) &&& 0x001FFFFE) + t &&& 0x001FFFFE =
      (x &&& 0x001FFFFE) + UInt32.ofNat (2 * w) + t &&& 0x001FFFFE ↔ w' = w := by
  have hn : (UInt32.ofNat (2 * w)).toNat = 2 * w := UInt32.toNat_ofNat_of_lt' (by simp only [UInt32.size]; omega)
  have hn' : (UInt32.ofNat (2 * w')).toNat = 2 * w' := UInt32.toNat_ofNat_of_lt' (by simp only [UInt32.size]; omega)
  rw [← UInt32.toNat_inj]
  simp only [pointerMask, UInt32.toNat_add, hn, hn', Nat.reducePow]
  generalize x.toNat = a
  generalize t.toNat = b
  omega

theorem pointer_still_iff (x t : UInt32) :
    x &&& 0x001FFFFE = (x &&& 0x001FFFFE) + t &&& 0x001FFFFE ↔ t &&& 0x001FFFFE = 0 := by
  rw [← UInt32.toNat_inj, ← UInt32.toNat_inj]
  simp only [pointerMask, UInt32.toNat_add, Nat.reducePow, UInt32.reduceToNat]
  generalize x.toNat = a
  generalize t.toNat = b
  omega

/-- The modulo of a plane. -/
def bplMod (ctx : RigelContext) (p : Nat) : UInt32 :=
  (if p % 2 = 1 then (rigelContextReadReg ctx 0x10A).toInt16 else (rigelContextReadReg ctx 0x108).toInt16).toInt32.toUInt32

/-- From one line start to the next, every plane has moved on by the words of the line and its modulo. -/
def PlanesAdvanced (c₀ c₁ : RigelContext) : Prop :=
  ∀ p < c₀.agnus.scheduler.depth.toNat, c₁.agnus.bplpt.bplpt p &&& 0x001FFFFE =
    (c₀.agnus.bplpt.bplpt p &&& 0x001FFFFE) + UInt32.ofNat (2 * lineWords c₀.agnus.scheduler) + bplMod c₀ p &&& 0x001FFFFE

/-- The words of the line and the modulo cancel out, for every plane. -/
def AdvanceIsNil (ctx : RigelContext) : Prop :=
  ∀ p < ctx.agnus.scheduler.depth.toNat,
    UInt32.ofNat (2 * lineWords ctx.agnus.scheduler) + bplMod ctx p &&& 0x001FFFFE = 0

theorem lineStart_bplpt (ctx : RigelContext) :
    (schedulerLineStart ctx).agnus.bplpt.bplpt = fun p =>
      if ctx.agnus.scheduler.bitplaneDmaThisLine then
        (let advanced := fun q =>
          if ctx.agnus.scheduler.bitplaneLineBaseValid then
            (if q < ctx.agnus.scheduler.bitplaneLineDepth.toNat ∧ q < bitplaneCount then
              (ctx.agnus.scheduler.bitplaneLineBase q + ctx.agnus.scheduler.bitplaneWordsThisLine.toUInt32 * 2) &&&
                0x001FFFFE
            else ctx.agnus.bplpt.bplpt q)
          else ctx.agnus.bplpt.bplpt q
        if p < ctx.agnus.scheduler.bitplaneLineDepth.toNat ∧ p < bitplaneCount then
          advanced p + bplMod ctx p &&& 0x001FFFFE
        else advanced p)
      else ctx.agnus.bplpt.bplpt p := by
  unfold schedulerLineStart bplptApplyModulo bplMod
  simp only
  cases ctx.agnus.scheduler.bitplaneDmaThisLine <;> cases ctx.agnus.scheduler.bitplaneLineBaseValid <;> rfl

/-- **The start of the next line**, from the record of this one. -/
theorem LineSoFar.lineStart {c₀ d : RigelContext} {es : List LineEvent} (h : LineSoFar c₀ es d)
    (hdepth : DepthOk c₀.agnus.scheduler) :
    PlanesAdvanced c₀ (schedulerLineStart (schedulerMoveBeam d)) ↔
      OnceAlong lineEvent ServesLastWord c₀ es ∨ (¬ OnceAlong lineEvent ServesBitplane c₀ es ∧ AdvanceIsNil c₀) := by
  have hwords : lineWords c₀.agnus.scheduler ≤ 64 := bitplaneWords_le _
  have hmod : bplMod (schedulerMoveBeam d) = bplMod c₀ := by
    have h1 : rigelContextReadReg (schedulerMoveBeam d) 0x108 = rigelContextReadReg c₀ 0x108 := h.modulo 0x84 (.inl rfl)
    have h2 : rigelContextReadReg (schedulerMoveBeam d) 0x10A = rigelContextReadReg c₀ 0x10A := h.modulo 0x85 (.inr rfl)
    unfold bplMod
    rw [h1, h2]
  have hptr : (schedulerMoveBeam d).agnus.bplpt = c₀.agnus.bplpt := h.bplpt
  by_cases hs : OnceAlong lineEvent ServesBitplane c₀ es
  · obtain ⟨hvalid, hdma, hlinedepth, hbase⟩ := h.record.latched hs
    have hcounted := h.record.counted hs
    have hbound := h.record.bound
    obtain ⟨hd0, hd6⟩ := lineDepth_of_words hdepth (by omega)
    have hplane : ∀ p < c₀.agnus.scheduler.depth.toNat,
        (schedulerLineStart (schedulerMoveBeam d)).agnus.bplpt.bplpt p =
          (((c₀.agnus.bplpt.bplpt p &&& 0x001FFFFE) +
            UInt32.ofNat (2 * (lineFetch d.agnus.scheduler).words.toNat)) &&& 0x001FFFFE) + bplMod c₀ p &&& 0x001FFFFE := by
      intro p hp
      have hcount : p < bitplaneCount := by
        unfold bitplaneCount
        omega
      have hd : (schedulerMoveBeam d).agnus.scheduler.bitplaneDmaThisLine = true := hdma
      have hv : (schedulerMoveBeam d).agnus.scheduler.bitplaneLineBaseValid = true := hvalid
      have hld : (schedulerMoveBeam d).agnus.scheduler.bitplaneLineDepth = c₀.agnus.scheduler.depth := hlinedepth
      have hb : (schedulerMoveBeam d).agnus.scheduler.bitplaneLineBase p = c₀.agnus.bplpt.bplpt p &&& 0x001FFFFE :=
        hbase p hcount
      rw [lineStart_bplpt]
      simp only [hd, hv, hld, hb, hmod, if_true, if_pos (And.intro hp hcount)]
      rw [wordBytes]
      rfl
    rw [← h.record.complete hs, or_iff_left fun hn => hn.1 hs]
    constructor
    · intro hadvanced
      have h0 := hadvanced 0 hd0
      rw [hplane 0 hd0, pointerMask_idem] at h0
      exact (pointer_words_iff _ _ hwords (by omega)).mp h0
    · intro he p hp
      rw [hplane p hp, pointerMask_idem]
      exact (pointer_words_iff _ _ hwords (by omega)).mpr he
  · have hsame : ∀ p, (schedulerLineStart (schedulerMoveBeam d)).agnus.bplpt.bplpt p = c₀.agnus.bplpt.bplpt p := by
      intro p
      have hdma : (schedulerMoveBeam d).agnus.scheduler.bitplaneDmaThisLine = false := (h.record.fresh hs).2.1
      rw [lineStart_bplpt, hdma, hptr]
      rfl
    have hnot : ¬ OnceAlong lineEvent ServesLastWord c₀ es := fun hl => hs (h.record.began hl)
    rw [or_iff_right hnot, and_iff_right hs]
    refine forall_congr' fun p => forall_congr' fun _ => ?_
    rw [hsame, UInt32.add_assoc]
    exact pointer_still_iff _ _

theorem LineBegins.advance {c₀ : RigelContext} (h : LineBegins c₀) (es : List LineEvent)
    (hrun : AlongRun lineEvent FetchUndisturbed c₀ (es ++ [.bus .clock])) (hclocks : clocksIn es = 226) :
    PlanesAdvanced c₀ ((es ++ [LineEvent.bus .clock]).foldl lineEvent c₀) ↔
      OnceAlong lineEvent ServesLastWord c₀ (es ++ [.bus .clock]) ∨
        (¬ OnceAlong lineEvent ServesBitplane c₀ (es ++ [.bus .clock]) ∧ AdvanceIsNil c₀) := by
  obtain ⟨hok, ⟨hpos, -⟩, hsofar⟩ := h.run es hrun.init (Nat.le_of_eq hclocks)
  obtain ⟨-, hmove, -⟩ := hrun.last
  have hslot := hsofar.dispatch hok h.depth (hmove trivial)
  have hzero : (agnusSlotSchedulerStep (es.foldl lineEvent c₀)).agnus.beam.hpos = 0 := by
    cases clock_beam hok with
    | right hright =>
      have hlt := (agnusSlotSchedulerStep_ok _ hok).beam.hpos
      rw [UInt16.lt_iff_toNat_lt] at hlt
      simp only [UInt16.reduceToNat] at hlt
      omega
    | line _ hline => exact hline
    | frame _ hline => exact hline
  have hbplpt := advance_line hzero
  rw [← hslot.lineStart h.depth, List.foldl_append, List.foldl_cons, List.foldl_nil]
  unfold PlanesAdvanced
  rw [← hbplpt]
  rfl

/-- **The pointers advance over a line exactly if its last word is fetched.** From the start of a line to the start of the
next, with BPLCON0, DDFSTRT, DDFSTOP, the modulos and the pointers left alone, and whatever else the host, the copper,
the blitter and the other channels do: every plane moves on by the words of the line and its modulo exactly when an
active disk transfer leaves some slot of the last word to the bitplane fetch, or takes every bitplane slot of the line
while the advance would be nil. -/
theorem planesAdvanced_iff {ctx : RigelContext} (h : BusReachable ctx) (h0 : ctx.agnus.beam.hpos = 0)
    (es : List LineEvent) (hrun : AlongRun lineEvent FetchUndisturbed ctx (es ++ [.bus .clock]))
    (hclocks : clocksIn es = 226) :
    PlanesAdvanced ctx ((es ++ [LineEvent.bus .clock]).foldl lineEvent ctx) ↔
      OnceAlong lineEvent ServesLastWord ctx (es ++ [.bus .clock]) ∨
        (¬ OnceAlong lineEvent ServesBitplane ctx (es ++ [.bus .clock]) ∧ AdvanceIsNil ctx) :=
  (h.lineBegins h0).advance es hrun hclocks

/-! ## A line below the vertical blank -/

/-- One lores plane of twenty words. -/
def planeSetup : List HostCall := [.customWrite 0x100 0x1200, .customWrite 0x092 0x0038, .customWrite 0x094 0x00D0]

/-- A read of 16383 words, started while DMA is off. -/
def diskSetup : List HostCall :=
  [.floppyInsert 0 (some fun _ => 0) 901120, .customWrite 0x07E 0xAAAA, .customWrite 0x024 0xBFFF,
    .customWrite 0x024 0xBFFF]

/-- The machine at the start of line 26, the first below the vertical blank, after a write to DMACON. -/
def line26 (calls : List HostCall) (dmacon : UInt16) : RigelContext :=
  customRegsWrite16 (agnusSlotSchedulerStepUntil (calls.foldl hostCall palMachine) 5902) 0x096 dmacon

theorem BusReachable.clocks {ctx : RigelContext} (h : BusReachable ctx) :
    ∀ n : Nat, BusReachable (agnusSlotSchedulerStepUntil ctx n)
  | 0 => h
  | n + 1 => by
    rw [agnusSlotSchedulerStepUntil_succ]
    exact (h.clocks n).schedulerStep

theorem line26_reachable (calls : List HostCall) (dmacon : UInt16) : BusReachable (line26 calls dmacon) :=
  ((BusReachable.ofHost (palMachine_reachable.calls calls)).clocks 5902).call (.customWrite 0x096 dmacon)

/-- A machine without DMA, at the top of a progressive frame. -/
structure Waiting (m : RigelContext) : Prop where
  reachable : BusReachable m
  dma : m.agnus.dma = rigelDmaDomainReset
  beam : Progressive m.agnus.beam ∧ m.agnus.beam.hpos = 0 ∧ m.agnus.beam.vpos = 0 ∧ m.agnus.beam.frameLines = 312

/-- What is known of the start of line 26. -/
structure AtLine26 (m ctx : RigelContext) (dmacon : UInt16) : Prop where
  ok : AgnusOk ctx.agnus
  hpos : ctx.agnus.beam.hpos = 0
  vpos : ctx.agnus.beam.vpos = 26
  dma : ctx.agnus.dma = rigelDmaDomainWriteDmacon rigelDmaDomainReset dmacon
  config : ctx.config = m.config
  inputs : { slotInputs ctx.agnus.scheduler with dmacon := 0 } = { slotInputs m.agnus.scheduler with dmacon := 0 }
  modulo : ∀ i, isModuloIndex i → ctx.customRegs i = m.customRegs i
  disk : ctx.paula.disk = m.paula.disk

/-- A waiting machine after any number of clocks. -/
theorem Waiting.clocks {m : RigelContext} (h : Waiting m) (n : Nat) :
    (agnusSlotSchedulerStepUntil m n).agnus.beam.hpos.toNat = n % 227 ∧
      (agnusSlotSchedulerStepUntil m n).agnus.beam.vpos.toNat = n / 227 % 312 ∧
      CalmSame m (agnusSlotSchedulerStepUntil m n) ∧ (agnusSlotSchedulerStepUntil m n).paula.disk = m.paula.disk := by
  have hdmacon : m.agnus.dma.dmacon = 0 := by
    rw [h.dma]
    rfl
  have hoff : DiskOff m :=
    ⟨h.reachable.agnusOk, by rw [hdmacon]; decide, by rw [hdmacon]; decide, .inl (by rw [hdmacon]; decide)⟩
  obtain ⟨-, hsame, hdisk⟩ := hoff.clocks n
  obtain ⟨hprogressive, hh, hv, hf⟩ := h.beam
  have hbeam : (agnusSlotSchedulerStepUntil m n).agnus.beam = beamRun m.agnus.beam n := (beamAt_without_dma hdmacon n).2
  have hat := progressive_run hprogressive n
  refine ⟨?_, ?_, hsame, hdisk⟩
  · rw [hbeam, hat.hpos, hh]
    simp
  · rw [hbeam, hat.vpos, hh, hv, hf]
    simp

theorem dmaconWrite_at (s : RigelContext) (dmacon : UInt16) :
    (customRegsWrite16 s 0x096 dmacon).agnus =
      { s.agnus with
        dma := rigelDmaDomainWriteDmacon s.agnus.dma dmacon
        scheduler := agnusSlotSchedulerInvalidate s.agnus.scheduler (rigelDmaDomainWriteDmacon s.agnus.dma dmacon).dmacon } ∧
      (customRegsWrite16 s 0x096 dmacon).config = s.config ∧
      (customRegsWrite16 s 0x096 dmacon).paula.disk = s.paula.disk := ⟨rfl, rfl, rfl⟩

theorem AtLine26.write {m s : RigelContext} (hr : BusReachable s) (hm : m.agnus.dma = rigelDmaDomainReset)
    (hhpos : s.agnus.beam.hpos.toNat = 0) (hvpos : s.agnus.beam.vpos.toNat = 26) (hsame : CalmSame m s)
    (hdisk : s.paula.disk = m.paula.disk) (dmacon : UInt16) : AtLine26 m (customRegsWrite16 s 0x096 dmacon) dmacon := by
  obtain ⟨hagnus, hconfig, hpaula⟩ := dmaconWrite_at s dmacon
  refine ⟨(hr.call (.customWrite 0x096 dmacon)).agnusOk, ?_, ?_, ?_, hconfig.trans hsame.config, ?_, fun i hi => ?_,
    hpaula.trans hdisk⟩
  · rw [hagnus]
    exact UInt16.toNat_inj.mp hhpos
  · rw [hagnus]
    exact UInt16.toNat_inj.mp hvpos
  · rw [hagnus, ← hm, ← hsame.dma]
  · rw [← hsame.inputs, hagnus]
    rfl
  · rw [customRegsWrite16_modulo s hi (by decide) (by decide)]
    exact hsame.modulo i hi

theorem line26_at (calls : List HostCall) (dmacon : UInt16) (h : Waiting (calls.foldl hostCall palMachine)) :
    AtLine26 (calls.foldl hostCall palMachine) (line26 calls dmacon) dmacon := by
  obtain ⟨hhpos, hvpos, hsame, hdisk⟩ := h.clocks 5902
  exact AtLine26.write (h.reachable.clocks 5902) h.dma hhpos hvpos hsame hdisk dmacon

theorem setup_waiting {calls : List HostCall}
    (h : (calls.foldl hostCall palMachine).agnus.dma = rigelDmaDomainReset ∧
      (calls.foldl hostCall palMachine).agnus.beam = palMachine.agnus.beam) :
    Waiting (calls.foldl hostCall palMachine) := by
  obtain ⟨hdma, hbeam⟩ := h
  have hreachable : BusReachable (calls.foldl hostCall palMachine) := .ofHost (palMachine_reachable.calls calls)
  have hok := hreachable.agnusOk.beam
  refine ⟨hreachable, hdma, ?_⟩
  rw [hbeam] at hok ⊢
  exact ⟨⟨hok, by decide, by decide, by decide⟩, by decide, by decide, by decide⟩

theorem planeSetup_waiting : Waiting (planeSetup.foldl hostCall palMachine) := setup_waiting (by decide +kernel)

theorem diskSetup_waiting : Waiting ((planeSetup ++ diskSetup).foldl hostCall palMachine) :=
  setup_waiting (by decide +kernel)

/-- The table's inputs at line 26, with DMACON as written. -/
theorem AtLine26.tableInputs {m ctx s : RigelContext} {dmacon : UInt16} (h : AtLine26 m ctx dmacon)
    (hsame : CalmSame ctx s) :
    { slotInputs s.agnus.scheduler with dmacon := s.agnus.dma.dmacon } =
      { slotInputs m.agnus.scheduler with dmacon := (rigelDmaDomainWriteDmacon rigelDmaDomainReset dmacon).dmacon } := by
  have hinputs := hsame.inputs.trans h.inputs
  have hdma : s.agnus.dma = rigelDmaDomainWriteDmacon rigelDmaDomainReset dmacon := hsame.dma.trans h.dma
  have hset := congrArg (fun i : SlotInputs => { i with dmacon := s.agnus.dma.dmacon }) hinputs
  rw [← hdma]
  exact hset

theorem AtLine26.plane {m ctx : RigelContext} {dmacon : UInt16} (h : AtLine26 m ctx dmacon)
    (hm : slotInputs m.agnus.scheduler = ⟨0, 0x38, 0xD0, 1, false, 26⟩) :
    ctx.agnus.scheduler.depth = 1 ∧ lineWords ctx.agnus.scheduler = 20 := by
  have hinputs := h.inputs
  rw [hm] at hinputs
  have hdepth := congrArg SlotInputs.depth hinputs
  have hhires := congrArg SlotInputs.hires hinputs
  have hstrt := congrArg SlotInputs.ddfstrt hinputs
  have hstop := congrArg SlotInputs.ddfstop hinputs
  refine ⟨hdepth, ?_⟩
  have hwords : lineWords ctx.agnus.scheduler = bitplaneWordsPerPlane ⟨0, 0x38, 0xD0, 1, false, 26⟩ :=
    bitplaneWords_setup hdepth hhires hstrt hstop
  rw [hwords]
  decide

theorem calm_undisturbed {ctx : RigelContext} (h : Calm ctx) : FetchUndisturbed ctx (.bus .clock) := by
  refine ⟨trivial, fun _ addr value hw => ?_, fun addr value hw => ?_⟩
  · rw [h.write] at hw
    cases hw
  · cases hw

theorem slot215_served {s : RigelContext} (hok : AgnusOk s.agnus) (hpos : s.agnus.beam.hpos.toNat = 215)
    (hvpos : s.agnus.beam.vpos = 26) (hdisk : diskWantsSlot s = false)
    (hin : { slotInputs s.agnus.scheduler with dmacon := s.agnus.dma.dmacon } = ⟨0x0300, 0x38, 0xD0, 1, false, 26⟩) :
    bitplaneServed s = true ∧ slotWord s + 1 = lineWords s.agnus.scheduler := by
  have hwords : bitplaneWordsPerPlane ⟨0x0300, 0x38, 0xD0, 1, false, 26⟩ = 20 := by decide
  obtain ⟨howner, hindex⟩ := buildSlotTables_lastWord ⟨0x0300, 0x38, 0xD0, 1, false, 26⟩ 26
    s.agnus.refresh 19 0 (by decide) rfl hwords (by decide) (by decide)
  have htables : freshTables s.agnus = buildSlotTables ⟨0x0300, 0x38, 0xD0, 1, false, 26⟩ 26 s.agnus.refresh := by
    rw [freshTables, hin, hvpos]
  have hdepth : s.agnus.scheduler.depth = 1 := congrArg SlotInputs.depth hin
  have hline : lineWords s.agnus.scheduler = 20 := by
    rw [← hwords, ← hin]
    exact (bitplaneWords_setup rfl rfl rfl rfl).symm
  constructor
  · rw [bitplaneServed, hdisk, liveEntry, hposSlot hok, hpos, htables]
    exact (Bool.and_true _).trans (beq_iff_eq.mpr howner)
  · rw [slotWord, hline, hdepth, hpos, htables]
    exact congrArg (fun k => k / 1 + 1) hindex

theorem replicate_split (e : LineEvent) (a b : Nat) :
    List.replicate (a + (b + 1)) e = List.replicate a e ++ e :: List.replicate b e := by
  rw [← List.replicate_append_replicate, List.replicate_succ]

theorem line26_diskOff {calls : List HostCall} (h : Waiting (calls.foldl hostCall palMachine))
    (hidle : diskDmaWantsService (calls.foldl hostCall palMachine).paula.disk = false) : DiskOff (line26 calls 0x8300) := by
  have hat := line26_at calls 0x8300 h
  refine ⟨hat.ok, ?_, ?_, .inr ?_⟩
  · rw [hat.dma]
    decide
  · rw [hat.dma]
    decide
  · rw [hat.disk]
    exact hidle

theorem planeSetup_line26 :
    DiskOff (line26 planeSetup 0x8300) ∧
      { slotInputs (line26 planeSetup 0x8300).agnus.scheduler with dmacon := (line26 planeSetup 0x8300).agnus.dma.dmacon } =
        ⟨0x0300, 0x38, 0xD0, 1, false, 26⟩ := by
  have hinputs := (line26_at planeSetup 0x8300 planeSetup_waiting).tableInputs (.refl _)
  have hin : slotInputs (planeSetup.foldl hostCall palMachine).agnus.scheduler = ⟨0, 0x38, 0xD0, 1, false, 26⟩ := by
    decide +kernel
  rw [hin] at hinputs
  exact ⟨line26_diskOff planeSetup_waiting (by decide +kernel), hinputs⟩

theorem line26_served :
    OnceAlong lineEvent ServesLastWord (line26 planeSetup 0x8300) (List.replicate (215 + (11 + 1)) (.bus .clock)) ∧
      AlongRun lineEvent FetchUndisturbed (line26 planeSetup 0x8300) (List.replicate (215 + (11 + 1)) (.bus .clock)) := by
  have hat := line26_at planeSetup 0x8300 planeSetup_waiting
  have hbegins := (line26_reachable planeSetup 0x8300).lineBegins hat.hpos
  obtain ⟨hoff, hin⟩ := planeSetup_line26
  have hrun : ∀ n, AlongRun lineEvent FetchUndisturbed (line26 planeSetup 0x8300) (List.replicate n (.bus .clock)) :=
    fun n => alongRun_replicate DiskOff (fun _ h => h.clock) (fun _ h => calm_undisturbed h.calm) n _ hoff
  refine ⟨?_, hrun _⟩
  obtain ⟨hok, ⟨hpos, hvpos⟩, -⟩ := hbegins.run _ (hrun 215) (by rw [clocksIn_replicate]; decide)
  obtain ⟨hoff', hsame, -⟩ := hoff.clocks 215
  have hinputs := (hat.tableInputs hsame).trans ((hat.tableInputs (.refl _)).symm.trans hin)
  rw [clocksIn_replicate] at hpos
  rw [replicate_split, onceAlong_append, OnceAlong]
  rw [lineEvent_clocks] at hok hpos hvpos ⊢
  exact .inr (.inl ⟨trivial, slot215_served hok hpos (hvpos.trans hat.vpos) hoff'.wants hinputs⟩)

theorem planesAdvanced_line26 :
    PlanesAdvanced (line26 planeSetup 0x8300)
      ((List.replicate 226 (LineEvent.bus .clock) ++ [LineEvent.bus .clock]).foldl lineEvent (line26 planeSetup 0x8300)) := by
  have hat := line26_at planeSetup 0x8300 planeSetup_waiting
  obtain ⟨hserved, hrun⟩ := line26_served
  have hsplit : List.replicate (215 + (11 + 1)) (LineEvent.bus .clock) = List.replicate 226 (.bus .clock) ++ [.bus .clock] :=
    replicate_split (.bus .clock) 226 0
  rw [hsplit] at hserved hrun
  exact (planesAdvanced_iff (line26_reachable planeSetup 0x8300) hat.hpos _ hrun (clocksIn_replicate 226)).mpr (.inl hserved)

/-- A transfer that takes every slot it may. -/
structure Stolen (ctx : RigelContext) (n : Nat) : Prop where
  ok : AgnusOk ctx.agnus
  dmacon : ctx.agnus.dma.dmacon = 0x0310
  legacy : ctx.config.diskLegacyPriority = true
  words : WordsLeft ctx.paula.disk n

theorem Stolen.calm {ctx : RigelContext} {n : Nat} (h : Stolen ctx n) : Calm ctx := by
  refine ⟨h.ok, ?_, fun _ => ?_⟩
  · rw [h.dmacon]
    decide
  · rw [h.dmacon]
    decide

theorem Stolen.notServed {ctx : RigelContext} {n : Nat} (h : Stolen ctx (n + 1)) : bitplaneServed ctx = false := by
  have hmaster : dmaconMaster (0x0310 : UInt16) = true := by decide
  cases hentry : liveEntry ctx with
  | bitplane => simp [bitplaneServed, diskWantsSlot, hentry, h.legacy, h.dmacon, hmaster, h.words.wants]
  | _ => simp [bitplaneServed, hentry]

theorem Stolen.clock {ctx : RigelContext} {n : Nat} (h : Stolen ctx (n + 2)) :
    Stolen (agnusSlotSchedulerStep ctx) (n + 1) := by
  have hsame := h.calm.same
  refine ⟨agnusSlotSchedulerStep_ok _ h.ok, ?_, ?_, h.calm.words h.words⟩
  · rw [hsame.dma]
    exact h.dmacon
  · rw [hsame.config]
    exact h.legacy

/-- As long as words are left, clock after clock serves no bitplane slot. -/
theorem Stolen.run : ∀ (n : Nat) {ctx : RigelContext}, Stolen ctx (n + 1) →
    AlongRun lineEvent FetchUndisturbed ctx (List.replicate n (.bus .clock)) ∧
      ¬ OnceAlong lineEvent ServesBitplane ctx (List.replicate n (.bus .clock))
  | 0, _, _ => ⟨trivial, id⟩
  | n + 1, ctx, h => by
    obtain ⟨hrun, hnever⟩ := Stolen.run n h.clock
    refine ⟨⟨calm_undisturbed h.calm, hrun⟩, ?_⟩
    rintro (⟨-, hserved⟩ | hlater)
    · exact Bool.noConfusion (h.notServed.symm.trans hserved)
    · exact hnever hlater

theorem AtLine26.stolen {m ctx : RigelContext} (h : AtLine26 m ctx 0x8310) (hr : BusReachable ctx)
    (hlegacy : m.config.diskLegacyPriority = true) (hwords : WordsLeft m.paula.disk 228)
    (hin : slotInputs m.agnus.scheduler = ⟨0, 0x38, 0xD0, 1, false, 26⟩) (hmodulo : m.customRegs 0x84 = 0) :
    AlongRun lineEvent FetchUndisturbed ctx (List.replicate 226 (.bus .clock) ++ [.bus .clock]) ∧
      ¬ PlanesAdvanced ctx
        ((List.replicate 226 (LineEvent.bus .clock) ++ [LineEvent.bus .clock]).foldl lineEvent ctx) := by
  have hstolen : Stolen ctx (227 + 1) := by
    refine ⟨h.ok, ?_, ?_, ?_⟩
    · rw [h.dma]
      decide
    · rw [h.config]
      exact hlegacy
    · rw [h.disk]
      exact hwords
  have hsplit : List.replicate 227 (LineEvent.bus .clock) = List.replicate 226 (.bus .clock) ++ [.bus .clock] :=
    replicate_split (.bus .clock) 226 0
  obtain ⟨hrun, hnever⟩ := hstolen.run 227
  rw [hsplit] at hrun hnever
  refine ⟨hrun, fun hadvanced => ?_⟩
  rcases ((hr.lineBegins h.hpos).advance _ hrun (clocksIn_replicate 226)).mp hadvanced with hlast | ⟨-, hnil⟩
  · exact hnever (hlast.imp fun _ _ hl => ⟨hl.1, hl.2.1⟩)
  · obtain ⟨hdepth, hwords⟩ := h.plane hin
    have hmod : rigelContextReadReg ctx 0x108 = 0 := (h.modulo 0x84 (.inl rfl)).trans hmodulo
    have hzero := hnil 0 (by rw [hdepth]; decide)
    unfold bplMod at hzero
    rw [hwords, if_neg (by decide), hmod] at hzero
    exact absurd hzero (by decide)

theorem diskSetup_state :
    WordsLeft ((planeSetup ++ diskSetup).foldl hostCall palMachine).paula.disk 228 ∧
      ((planeSetup ++ diskSetup).foldl hostCall palMachine).config.diskLegacyPriority = true ∧
      slotInputs ((planeSetup ++ diskSetup).foldl hostCall palMachine).agnus.scheduler = ⟨0, 0x38, 0xD0, 1, false, 26⟩ ∧
      ((planeSetup ++ diskSetup).foldl hostCall palMachine).customRegs 0x84 = 0 := by
  decide +kernel

/-- A transfer over the whole of line 26: the pointer stays where it was. -/
theorem planesAdvanced_stolen :
    BusReachable (line26 (planeSetup ++ diskSetup) 0x8310) ∧
      (line26 (planeSetup ++ diskSetup) 0x8310).agnus.beam.hpos = 0 ∧
      AlongRun lineEvent FetchUndisturbed (line26 (planeSetup ++ diskSetup) 0x8310)
        (List.replicate 226 (.bus .clock) ++ [.bus .clock]) ∧
      ¬ PlanesAdvanced (line26 (planeSetup ++ diskSetup) 0x8310)
        ((List.replicate 226 (LineEvent.bus .clock) ++ [LineEvent.bus .clock]).foldl lineEvent
          (line26 (planeSetup ++ diskSetup) 0x8310)) := by
  have hat := line26_at (planeSetup ++ diskSetup) 0x8310 diskSetup_waiting
  have hreachable := line26_reachable (planeSetup ++ diskSetup) 0x8310
  obtain ⟨hwords, hlegacy, hin, hmodulo⟩ := diskSetup_state
  exact ⟨hreachable, hat.hpos, hat.stolen hreachable hlegacy hwords hin hmodulo⟩

end Rigel
