import Mathlib.Data.Nat.Bitwise
import Rigel.DeadlineProgress
import Rigel.SlotCoherence
import Rigel.TableShape

/-!
# BusQuery — what the bus queries answer, and what the next clock does

The queries read the scheduler's cached table entry and flags; the next clock samples DMACON, blitter and copper, may
rebuild the table, and lets an active disk transfer override it. The first half of this module says what the next clock
grants as a function of the live registers, the second half when each query answers the same.
-/

namespace Rigel

/-! ## The live slot -/

/-- The entry of a table built now, at the beam's position. -/
def liveEntry (ctx : RigelContext) : SlotOwner := (freshTables ctx.agnus).owner (slotOf ctx.agnus.beam.hpos)

/-- An active disk transfer takes the slot by the legacy priority. -/
def diskWantsSlot (ctx : RigelContext) : Bool :=
  liveEntry ctx != .refresh && ctx.config.diskLegacyPriority && dmaconMaster ctx.agnus.dma.dmacon &&
    diskDmaWantsService ctx.paula.disk

/-- The channel, FREE or CPU that the slot is given before blitter and copper take a free one. -/
def slotEntry (ctx : RigelContext) : SlotOwner := if diskWantsSlot ctx then .disk else liveEntry ctx

def blitterWantsSlot (ctx : RigelContext) : Bool :=
  blitterIsBusy ctx.agnus.blitter && dmaconBltenOn ctx.agnus.dma.dmacon

/-- Copper DMA is on and a fetch is pending, or becomes so by the comparison of this clock. -/
def copperWantsSlot (ctx : RigelContext) : Bool :=
  dmaconCopenOn ctx.agnus.dma.dmacon && (ctx.agnus.copper.fetchPending ||
    copperReleases ctx.agnus.copper ctx.agnus.beam ctx.agnus.dma (blitterIsBusy ctx.agnus.blitter))

theorem schedulerPrepare_flags (ctx : RigelContext) :
    (schedulerPrepare ctx).agnus.scheduler.blitterActive = blitterWantsSlot ctx ∧
      (schedulerPrepare ctx).agnus.scheduler.copperRequest = copperWantsSlot ctx ∧
      (schedulerPrepare ctx).agnus.scheduler.dmacon = ctx.agnus.dma.dmacon := by
  simp only [schedulerPrepare, schedulerRefreshTable, agnusFreshTable]
  split <;> exact ⟨rfl, rfl, rfl⟩

theorem diskTakesSlot_live {ctx : RigelContext} (h : AgnusOk ctx.agnus) :
    diskTakesSlot (schedulerPrepare ctx) = diskWantsSlot ctx := by
  unfold diskTakesSlot diskWantsSlot liveEntry
  rw [staticOwner_fresh h, (schedulerPrepare_flags ctx).2.2]
  rfl

theorem slotOwner_live {ctx : RigelContext} (h : AgnusOk ctx.agnus) :
    slotOwner (schedulerPrepare ctx) = dynamicOwner (schedulerPrepare ctx).agnus.scheduler (slotEntry ctx) := by
  unfold slotOwner slotEntry liveEntry
  rw [diskTakesSlot_live h, staticOwner_fresh h]

/-- No channel is on without DMAEN. -/
theorem dmaconMaster_of_enabled {channel d : UInt16} (h : dmaconEnabled channel d = true) : dmaconMaster d = true := by
  simp only [dmaconEnabled, beq_iff_eq] at h
  have hm : d &&& dmaconDmaen = dmaconDmaen := by
    calc d &&& dmaconDmaen = d &&& ((dmaconDmaen ||| channel) &&& dmaconDmaen) := by rw [or_and_self_uint16]
      _ = d &&& (dmaconDmaen ||| channel) &&& dmaconDmaen := by rw [UInt16.and_assoc]
      _ = dmaconDmaen := by rw [h, or_and_self_uint16]
  simp only [dmaconMaster, hm]
  decide

theorem liveEntry_enabled (ctx : RigelContext) : staticEnabled ctx.agnus.dma.dmacon (liveEntry ctx) = true :=
  buildSlotTables_enabled _ _ _ _

/-- An entry that a step hands to its overrides: a channel's, or FREE or CPU. -/
structure StaticEntry (active : Bool) (o : SlotOwner) : Prop where
  notBlitter : o ≠ .blitter
  notCopper : o ≠ .copper
  /-- The blitter takes slots only under DMAEN, and then no slot is left to the CPU. -/
  notCpu : active = true → o ≠ .cpu

theorem staticEntry_of_enabled {dmacon : UInt16} {o : SlotOwner} {active : Bool} (h : staticEnabled dmacon o = true)
    (hactive : active = true → dmaconMaster dmacon = true) : StaticEntry active o := by
  refine ⟨?_, ?_, fun ha => ?_⟩
  · rintro rfl
    exact Bool.noConfusion h
  · rintro rfl
    exact Bool.noConfusion h
  · rintro rfl
    rw [staticEnabled, hactive ha] at h
    exact Bool.noConfusion h

theorem blitterWantsSlot_master {ctx : RigelContext} (h : blitterWantsSlot ctx = true) :
    dmaconMaster ctx.agnus.dma.dmacon = true := by
  simp only [blitterWantsSlot, Bool.and_eq_true] at h
  exact dmaconMaster_of_enabled h.2

theorem slotEntry_static (ctx : RigelContext) : StaticEntry (blitterWantsSlot ctx) (slotEntry ctx) := by
  unfold slotEntry
  split
  · exact ⟨SlotOwner.noConfusion, SlotOwner.noConfusion, fun _ => SlotOwner.noConfusion⟩
  · exact staticEntry_of_enabled (liveEntry_enabled ctx) blitterWantsSlot_master

/-- The overrides change free slots only. -/
theorem dynamicOwner_static {s : SlotScheduler} {o : SlotOwner} (h : StaticEntry s.blitterActive o) :
    dynamicOwner s o =
      if o = .free then (if s.blitterActive then .blitter else if s.copperRequest then .copper else .free) else o := by
  unfold dynamicOwner
  by_cases hf : o = .free
  · subst hf
    cases s.blitterActive <;> cases s.copperRequest <;> rfl
  · rw [if_neg hf]
    cases hb : s.blitterActive with
    | true => simp [hf, h.notCpu hb]
    | false => simp [hf]

/-- **Two arbitrations agree exactly when their entries do, and over a free slot their requests.** -/
theorem dynamicOwner_eq_iff {s s' : SlotScheduler} {e o : SlotOwner} (he : StaticEntry s.blitterActive e)
    (ho : StaticEntry s'.blitterActive o) :
    dynamicOwner s e = dynamicOwner s' o ↔
      e = o ∧ (o = .free → s.blitterActive = s'.blitterActive ∧
        (s'.blitterActive = false → s.copperRequest = s'.copperRequest)) := by
  rw [dynamicOwner_static he, dynamicOwner_static ho]
  by_cases he' : e = .free <;> by_cases ho' : o = .free
  · subst he' ho'
    cases s.blitterActive <;> cases s'.blitterActive <;> cases s.copperRequest <;> cases s'.copperRequest <;> decide
  · subst he'
    rw [if_pos rfl, if_neg ho']
    constructor
    · intro h
      exfalso
      split at h
      · exact ho.notBlitter h.symm
      split at h
      · exact ho.notCopper h.symm
      · exact ho' h.symm
    · exact fun h => absurd h.1.symm ho'
  · subst ho'
    rw [if_neg he', if_pos rfl]
    constructor
    · intro h
      exfalso
      split at h
      · exact he.notBlitter h
      split at h
      · exact he.notCopper h
      · exact he' h
    · exact fun h => absurd h.1 he'
  · rw [if_neg he', if_neg ho']
    exact ⟨fun h => ⟨h, fun hf => absurd hf ho'⟩, fun h => h.1⟩

/-! ## The cached slot -/

/-- The cached table has no dynamic owner in it, and the cached blitter flag no CPU slot beside it. -/
def CacheOk (s : SlotScheduler) : Prop := ∀ i, StaticEntry s.blitterActive (s.table i)

/-- Two schedulers with one table and one blitter flag. -/
def SameGrant (s s' : SlotScheduler) : Prop := s'.table = s.table ∧ s'.blitterActive = s.blitterActive

theorem CacheOk.same {s s' : SlotScheduler} (h : CacheOk s) (hs : SameGrant s s') : CacheOk s' := by
  intro i
  rw [hs.1, hs.2]
  exact h i

theorem setters_sameGrant (s : SlotScheduler) (hires : Bool) (depth diwstrt : UInt16) :
    SameGrant s (agnusSlotSchedulerSetDepth (agnusSlotSchedulerSetHires s hires) depth) ∧
      SameGrant s (agnusSlotSchedulerSetVstrt s diwstrt) := by
  unfold SameGrant agnusSlotSchedulerSetDepth agnusSlotSchedulerSetHires agnusSlotSchedulerSetVstrt
  constructor
  · repeat' split
    all_goals exact ⟨rfl, rfl⟩
  · split <;> exact ⟨rfl, rfl⟩

theorem AgnusWrite.sameGrant {a a' : RigelAgnus} (h : AgnusWrite a a') : SameGrant a.scheduler a'.scheduler := by
  cases h with
  | bplcon0 value => exact (setters_sameGrant a.scheduler _ _ 0).1
  | diwstrt value => exact (setters_sameGrant a.scheduler false 0 value).2
  | _ => exact ⟨rfl, rfl⟩

theorem dispatchSlot_sameGrant (owner : SlotOwner) (ctx : RigelContext) (hpos : UInt16) :
    SameGrant ctx.agnus.scheduler (dispatchSlot owner ctx hpos).agnus.scheduler := by
  cases owner with
  | disk => exact ⟨by simp [dispatchSlot, diskSlot], by simp [dispatchSlot, diskSlot]⟩
  | blitter => exact ⟨by simp [dispatchSlot, blitterSlot], by simp [dispatchSlot, blitterSlot]⟩
  | bitplane =>
    simp only [dispatchSlot, bitplaneSlot]
    split
    · simp only [bitplaneFetch, bitplaneLatchLine]
      split <;> exact ⟨rfl, rfl⟩
    · exact ⟨rfl, rfl⟩
  | copper =>
    have hc := rigelCopperServiceStepProgram_cases ctx
    revert hc
    show CopperEffect ctx.agnus (rigelCopperServiceStepProgram ctx).agnus →
      SameGrant ctx.agnus.scheduler (rigelCopperServiceStepProgram ctx).agnus.scheduler
    generalize (rigelCopperServiceStepProgram ctx).agnus = a'
    intro hc
    cases hc with
    | move pc reg value => exact (agnusAfterWrite_cases { ctx.agnus with
        copper := { ctx.agnus.copper with fetchPending := false } } reg value).sameGrant
    | _ => exact ⟨rfl, rfl⟩
  | _ => exact ⟨rfl, rfl⟩

theorem schedulerAdvance_sameGrant (ctx : RigelContext) :
    SameGrant ctx.agnus.scheduler (schedulerAdvance ctx).agnus.scheduler := by
  unfold schedulerAdvance schedulerAtVertb schedulerAtLineStart
  repeat' split
  all_goals exact ⟨rfl, rfl⟩

theorem schedulerRestoreDsken_sameGrant (ctx : RigelContext) :
    SameGrant ctx.agnus.scheduler (schedulerRestoreDsken ctx).agnus.scheduler := by
  unfold schedulerRestoreDsken
  split <;> exact ⟨rfl, rfl⟩

/-- The table that a clock consults and the flag that it samples fit together, whatever was cached before. -/
theorem schedulerPrepare_cacheOk {ctx : RigelContext} (h : AgnusOk ctx.agnus) :
    CacheOk (schedulerPrepare ctx).agnus.scheduler := by
  obtain ⟨⟨htable, -⟩, -, -⟩ := schedulerPrepare_fresh ctx h
  obtain ⟨hactive, -, hdmacon⟩ := schedulerPrepare_flags ctx
  intro i
  rw [htable, hactive]
  refine staticEntry_of_enabled (buildSlotTables_enabled _ _ _ i) fun ha => ?_
  show dmaconMaster (schedulerPrepare ctx).agnus.scheduler.dmacon = true
  rw [hdmacon]
  exact blitterWantsSlot_master ha

theorem clock_cacheOk {ctx : RigelContext} (h : AgnusOk ctx.agnus) :
    CacheOk (agnusSlotSchedulerStep ctx).agnus.scheduler := by
  have hready := (schedulerPrepare_cacheOk h).same (schedulerRestoreDsken_sameGrant _)
  have hdispatch : CacheOk (schedulerDispatch (schedulerPrepare ctx)).agnus.scheduler :=
    hready.same (dispatchSlot_sameGrant _ _ _)
  exact hdispatch.same (schedulerAdvance_sameGrant _)

theorem cacheOk_invariant : AgnusInvariant fun a => AgnusOk a ∧ CacheOk a.scheduler where
  reset ctx := ⟨rigelReset_ok ctx, fun _ => ⟨SlotOwner.noConfusion, SlotOwner.noConfusion, fun ha => Bool.noConfusion ha⟩⟩
  write h hw := ⟨agnusOk_invariant.write h.1 hw, h.2.same hw.sameGrant⟩
  latch h := ⟨agnusOk_invariant.latch h.1, h.2⟩
  sync h := ⟨agnusOk_invariant.sync h.1, h.2⟩
  clock h := ⟨agnusOk_invariant.clock h.1, clock_cacheOk h.1⟩
  cycleExact on h := ⟨agnusOk_invariant.cycleExact on h.1, h.2⟩

theorem BusReachable.cacheOk {ctx : RigelContext} (h : BusReachable ctx) : CacheOk ctx.agnus.scheduler :=
  (cacheOk_invariant.busReachable h).2

theorem slotOf_eq {a : RigelAgnus} (h : AgnusOk a) : slotOf a.beam.hpos = a.scheduler.hpos.toNat := by
  have hpos : a.beam.hpos.toNat < agnusSlotsPerLine := UInt16.lt_iff_toNat_lt.mp h.beam.hpos
  rw [slotOf, if_pos hpos, h.follow]

theorem hposSlot {a : RigelAgnus} (h : AgnusOk a) : slotOf a.beam.hpos = a.beam.hpos.toNat := by
  rw [slotOf_eq h, h.follow]

theorem currentOwner_cached {a : RigelAgnus} (h : AgnusOk a) :
    agnusSlotSchedulerCurrentOwner a.scheduler = dynamicOwner a.scheduler (a.scheduler.table (slotOf a.beam.hpos)) := by
  have hpos : ¬ a.scheduler.hpos.toNat ≥ agnusSlotsPerLine := by
    rw [h.follow]
    exact Nat.not_le.mpr (UInt16.lt_iff_toNat_lt.mp h.beam.hpos)
  rw [agnusSlotSchedulerCurrentOwner, if_neg hpos, slotOf_eq h]

/-! ## The reported owner -/

/-- The owner that the next clock dispatches. -/
def dispatchedOwner (ctx : RigelContext) : SlotOwner := slotOwner (schedulerPrepare ctx)

theorem dispatchedOwner_eq {ctx : RigelContext} (h : AgnusOk ctx.agnus) :
    dispatchedOwner ctx =
      if slotEntry ctx = .free then
        (if blitterWantsSlot ctx then .blitter else if copperWantsSlot ctx then .copper else .free)
      else slotEntry ctx := by
  obtain ⟨hactive, hrequest, -⟩ := schedulerPrepare_flags ctx
  have hstatic : StaticEntry (schedulerPrepare ctx).agnus.scheduler.blitterActive (slotEntry ctx) := by
    rw [hactive]
    exact slotEntry_static ctx
  rw [dispatchedOwner, slotOwner_live h, dynamicOwner_static hstatic, hactive, hrequest]

/-- A channel is dispatched exactly where the entry is its own. -/
theorem dispatchedOwner_iff {ctx : RigelContext} (h : AgnusOk ctx.agnus) {o : SlotOwner} (hfree : o ≠ .free)
    (hblitter : o ≠ .blitter) (hcopper : o ≠ .copper) : dispatchedOwner ctx = o ↔ slotEntry ctx = o := by
  rw [dispatchedOwner_eq h]
  split
  · rename_i hentry
    rw [hentry]
    constructor
    · intro hd
      exfalso
      split at hd
      · exact hblitter hd.symm
      split at hd
      · exact hcopper hd.symm
      · exact hfree hd.symm
    · exact fun e => absurd e.symm hfree
  · exact Iff.rfl

/-- The copper is dispatched only while copper DMA is on. -/
theorem dispatchedOwner_ne_copper {ctx : RigelContext} (h : AgnusOk ctx.agnus)
    (hoff : dmaconCopenOn ctx.agnus.dma.dmacon = false) : dispatchedOwner ctx ≠ .copper := by
  have hwants : copperWantsSlot ctx = false := by
    unfold copperWantsSlot
    rw [hoff, Bool.false_and]
  rw [dispatchedOwner_eq h, hwants]
  split
  · split <;> exact SlotOwner.noConfusion
  · exact (slotEntry_static ctx).notCopper

/-- The queries report what the next clock dispatches. -/
structure OwnerReported (ctx : RigelContext) : Prop where
  owner : agnusSlotSchedulerCurrentOwner ctx.agnus.scheduler = dispatchedOwner ctx
  busOwner : blitterIsBusy ctx.agnus.blitter = false →
    (rigelGetBusState ctx).owner = slotToBusOwner (dispatchedOwner ctx)
  stall : agnusSlotSchedulerCpuStall ctx.agnus.scheduler = true ↔
    dispatchedOwner ctx ≠ .free ∧ dispatchedOwner ctx ≠ .cpu

/-- The cache is up to date where the queries look: the entry is the one the next clock uses, and over a free slot the
two flags are what that clock will sample. -/
structure CacheCurrent (ctx : RigelContext) : Prop where
  entry : ctx.agnus.scheduler.table (slotOf ctx.agnus.beam.hpos) = slotEntry ctx
  blitter : slotEntry ctx = .free → ctx.agnus.scheduler.blitterActive = blitterWantsSlot ctx
  copper : slotEntry ctx = .free → blitterWantsSlot ctx = false →
    ctx.agnus.scheduler.copperRequest = copperWantsSlot ctx

theorem cpuStall_iff (s : SlotScheduler) : agnusSlotSchedulerCpuStall s = true ↔
    agnusSlotSchedulerCurrentOwner s ≠ .free ∧ agnusSlotSchedulerCurrentOwner s ≠ .cpu := by
  simp only [agnusSlotSchedulerCpuStall, Bool.and_eq_true, bne_iff_ne, ne_eq]
  exact And.comm

theorem ownerReported_of_eq {ctx : RigelContext}
    (h : agnusSlotSchedulerCurrentOwner ctx.agnus.scheduler = dispatchedOwner ctx) : OwnerReported ctx := by
  refine ⟨h, fun hidle => ?_, ?_⟩
  · unfold rigelGetBusState
    rw [hidle, ← h]
    rfl
  · rw [← h]
    exact cpuStall_iff _

/-- **The reported owner is the dispatched one exactly when the cache is current.** -/
theorem ownerReported_iff {ctx : RigelContext} (h : BusReachable ctx) : OwnerReported ctx ↔ CacheCurrent ctx := by
  have hok := h.agnusOk
  obtain ⟨hactive, hrequest, -⟩ := schedulerPrepare_flags ctx
  have hlive : StaticEntry (schedulerPrepare ctx).agnus.scheduler.blitterActive (slotEntry ctx) := by
    rw [hactive]
    exact slotEntry_static ctx
  have heq : agnusSlotSchedulerCurrentOwner ctx.agnus.scheduler = dispatchedOwner ctx ↔ CacheCurrent ctx := by
    unfold dispatchedOwner
    rw [currentOwner_cached hok, slotOwner_live hok, dynamicOwner_eq_iff (h.cacheOk _) hlive, hactive, hrequest]
    exact ⟨fun ⟨he, hf⟩ => ⟨he, fun h0 => (hf h0).1, fun h0 => (hf h0).2⟩,
      fun hc => ⟨hc.entry, fun h0 => ⟨hc.blitter h0, hc.copper h0⟩⟩⟩
  rw [← heq]
  exact ⟨fun hr => hr.owner, ownerReported_of_eq⟩

/-- A machine with DMAEN and BLTEN on, in which a one-word blit has been started and no clock has run. -/
def blitStarted : RigelContext :=
  ([.customWrite 0x096 0x8240, .customWrite 0x040 0x01FF, .customWrite 0x058 0x0041] : List HostCall).foldl hostCall
    palMachine

theorem BusReachable.ofHost {ctx : RigelContext} (h : Reachable ctx) : BusReachable ctx := by
  induction h with
  | create config ram => exact .create config ram
  | call _ c ih => exact ih.call c

theorem blitStarted_reachable : BusReachable blitStarted := .ofHost (palMachine_reachable.calls _)

/-- Twenty clocks into a long blit with BLTPRI on. -/
def blitHogging : RigelContext :=
  ([.customWrite 0x096 0x8640, .customWrite 0x040 0x01FF, .customWrite 0x058 0x0410, .step 20] : List HostCall).foldl
    hostCall palMachine

/-- The query and the next clock both give the slot to the blitter. -/
theorem ownerReported_running :
    OwnerReported blitHogging ∧ agnusSlotSchedulerCurrentOwner blitHogging.agnus.scheduler = .blitter :=
  ⟨(ownerReported_iff (.ofHost (palMachine_reachable.calls _))).mpr
    ⟨by decide +kernel, by decide +kernel, by decide +kernel⟩, by decide +kernel⟩

/-- The query still answers CPU; the next clock gives the slot to the blitter. -/
theorem ownerReported_stale :
    BusReachable blitStarted ∧ agnusSlotSchedulerCurrentOwner blitStarted.agnus.scheduler = .cpu ∧
      dispatchedOwner blitStarted = .blitter ∧ ¬ OwnerReported blitStarted :=
  ⟨blitStarted_reachable, by decide +kernel, by decide +kernel, fun h => absurd h.owner (by decide +kernel)⟩

/-! ## The three stall queries -/

/-- The stall queries give one answer, and the resume time lies ahead exactly when the CPU would stall. -/
structure StallsAgree (ctx : RigelContext) : Prop where
  stall : rigelCpuWouldStall ctx = (rigelGetBusState ctx).cpuWouldStall
  access : rigelCpuCanAccessChipRam ctx = (rigelGetBusState ctx).cpuCanAccessChipRam
  resume : rigelGetCpuResumeTime ctx > rigelGetTime ctx ↔ rigelCpuWouldStall ctx = true

/-- BLTPRI is set. -/
def bltpriOn (ctx : RigelContext) : Bool := ctx.agnus.dma.dmacon &&& dmaconBltpri != 0

/-- A time in the future, on the 64-bit clock. -/
def Ahead (now : UInt64) (wait : UInt32) : Prop := wait ≠ 0 ∧ now.toNat + wait.toNat < 2 ^ 64

theorem ahead_iff (now : UInt64) (wait : UInt32) : now + wait.toUInt64 > now ↔ Ahead now wait := by
  have hnow := now.toNat_lt
  have hwait : wait.toUInt64.toNat = wait.toNat := UInt32.toNat_toUInt64 wait
  have hbound := wait.toNat_lt
  have hzero : wait ≠ 0 ↔ wait.toNat ≠ 0 := by
    rw [Ne, ← UInt32.toNat_inj]
    rfl
  unfold Ahead
  rw [gt_iff_lt, UInt64.lt_iff_toNat_lt, UInt64.toNat_add, hwait, hzero]
  simp only [Nat.reducePow] at hnow hbound ⊢
  omega

/-- Where the queries part: a busy blitter without BLTPRI beside a slot that the scheduler denies to the CPU, a blit whose
countdown has run out before the blit, and the end of the clock's range. -/
structure StallsConsistent (ctx : RigelContext) : Prop where
  noPriority : blitterIsBusy ctx.agnus.blitter = true → bltpriOn ctx = false →
    agnusSlotSchedulerCpuStall ctx.agnus.scheduler = false
  countdown : blitterIsBusy ctx.agnus.blitter = true → bltpriOn ctx = true →
    Ahead ctx.cycles ctx.agnus.blitter.cyclesRemaining
  range : blitterIsBusy ctx.agnus.blitter = false → agnusSlotSchedulerCpuStall ctx.agnus.scheduler = true →
    ctx.cycles.toNat + (agnusSlotSchedulerCpuResumeIn ctx.agnus.scheduler ctx.agnus.beam.lineClocks).toNat < 2 ^ 64

theorem cpuResumeIn_ne_zero {a : RigelAgnus} (h : AgnusOk a) :
    agnusSlotSchedulerCpuResumeIn a.scheduler a.beam.lineClocks ≠ 0 := by
  have hpos : 0 < agnusSlotSchedulerCpuResumeIn a.scheduler a.beam.lineClocks := by
    unfold agnusSlotSchedulerCpuResumeIn
    split
    · decide
    · rw [h.beam.lineClocks]
      exact cyclesToSlot_pos _ (h.follow ▸ h.beam.hpos)
  intro h0
  rw [h0] at hpos
  exact absurd hpos (by decide)

/-- The bus state of a busy blitter. -/
theorem busState_busy {ctx : RigelContext} (h : blitterIsBusy ctx.agnus.blitter = true) :
    (rigelGetBusState ctx).cpuWouldStall = bltpriOn ctx ∧
      (rigelGetBusState ctx).cpuCanAccessChipRam = !bltpriOn ctx ∧
      rigelGetCpuResumeTime ctx =
        if bltpriOn ctx then ctx.cycles + ctx.agnus.blitter.cyclesRemaining.toUInt64 else ctx.cycles := by
  unfold rigelGetCpuResumeTime rigelGetBusState
  simp only [h, if_true]
  exact ⟨rfl, rfl, rfl⟩

theorem busState_idle {ctx : RigelContext} (h : blitterIsBusy ctx.agnus.blitter = false) :
    (rigelGetBusState ctx).cpuWouldStall = agnusSlotSchedulerCpuStall ctx.agnus.scheduler ∧
      (rigelGetBusState ctx).cpuCanAccessChipRam = !agnusSlotSchedulerCpuStall ctx.agnus.scheduler ∧
      rigelGetCpuResumeTime ctx =
        if agnusSlotSchedulerCpuStall ctx.agnus.scheduler then
          ctx.cycles + (agnusSlotSchedulerCpuResumeIn ctx.agnus.scheduler ctx.agnus.beam.lineClocks).toUInt64
        else ctx.cycles := by
  unfold rigelGetCpuResumeTime rigelGetBusState
  simp only [h, Bool.false_eq_true, if_false]
  refine ⟨trivial, trivial, ?_⟩
  cases agnusSlotSchedulerCpuStall ctx.agnus.scheduler <;> rfl

theorem wouldStall_eq (ctx : RigelContext) : rigelCpuWouldStall ctx =
    (blitterIsBusy ctx.agnus.blitter && bltpriOn ctx || agnusSlotSchedulerCpuStall ctx.agnus.scheduler) := rfl

theorem not_ahead_self (t : UInt64) : ¬ t > t := fun h => absurd h (UInt64.lt_irrefl t)

/-- **The stall queries agree exactly when none of the three happens.** -/
theorem stallsAgree_iff {ctx : RigelContext} (h : BusReachable ctx) : StallsAgree ctx ↔ StallsConsistent ctx := by
  have hresume := cpuResumeIn_ne_zero h.agnusOk
  cases hbusy : blitterIsBusy ctx.agnus.blitter with
  | true =>
    obtain ⟨hstall, haccess, htime⟩ := busState_busy hbusy
    have hwould := wouldStall_eq ctx
    rw [hbusy, Bool.true_and] at hwould
    cases hpri : bltpriOn ctx with
    | true =>
      rw [hpri] at hstall haccess htime hwould
      rw [Bool.true_or] at hwould
      constructor
      · rintro ⟨-, -, hr⟩
        refine ⟨fun _ h0 => Bool.noConfusion (hpri.symm.trans h0), fun _ _ => ?_,
          fun h0 => Bool.noConfusion (hbusy.symm.trans h0)⟩
        have hr' := hr.mpr hwould
        rw [htime] at hr'
        exact (ahead_iff _ _).mp hr'
      · intro hc
        refine ⟨hwould.trans hstall.symm, ?_, ?_⟩
        · rw [rigelCpuCanAccessChipRam, hwould, haccess]
        · rw [htime, hwould]
          exact ⟨fun _ => rfl, fun _ => (ahead_iff _ _).mpr (hc.countdown hbusy hpri)⟩
    | false =>
      rw [hpri] at hstall haccess htime hwould
      rw [Bool.false_or] at hwould
      constructor
      · rintro ⟨hs, -, -⟩
        refine ⟨fun _ _ => ?_, fun _ h0 => Bool.noConfusion (hpri.symm.trans h0),
          fun h0 => Bool.noConfusion (hbusy.symm.trans h0)⟩
        rw [← hwould, hs, hstall]
      · intro hc
        have hnone := hwould.trans (hc.noPriority hbusy hpri)
        refine ⟨hnone.trans hstall.symm, ?_, ?_⟩
        · rw [rigelCpuCanAccessChipRam, hnone, haccess]
        · rw [htime, hnone]
          exact ⟨fun hr => absurd hr (not_ahead_self _), fun h0 => Bool.noConfusion h0⟩
  | false =>
    obtain ⟨hstall, haccess, htime⟩ := busState_idle hbusy
    have hwould := wouldStall_eq ctx
    rw [hbusy, Bool.false_and, Bool.false_or] at hwould
    have hsame : rigelCpuWouldStall ctx = (rigelGetBusState ctx).cpuWouldStall := hwould.trans hstall.symm
    have haccess' : rigelCpuCanAccessChipRam ctx = (rigelGetBusState ctx).cpuCanAccessChipRam := by
      rw [rigelCpuCanAccessChipRam, hwould, haccess]
    constructor
    · rintro ⟨-, -, hr⟩
      refine ⟨fun h0 => Bool.noConfusion (hbusy.symm.trans h0), fun h0 => Bool.noConfusion (hbusy.symm.trans h0),
        fun _ hs => ?_⟩
      have hr' := hr.mpr (hwould.trans hs)
      rw [htime, hs, if_pos rfl] at hr'
      exact ((ahead_iff _ _).mp hr').2
    · intro hc
      refine ⟨hsame, haccess', ?_⟩
      rw [htime, hwould]
      cases hs : agnusSlotSchedulerCpuStall ctx.agnus.scheduler with
      | true => exact ⟨fun _ => rfl, fun _ => (ahead_iff _ _).mpr ⟨hresume, hc.range hbusy hs⟩⟩
      | false => exact ⟨fun hr => absurd hr (not_ahead_self _), fun h0 => Bool.noConfusion h0⟩

/-- The CPU would stall, by both queries. -/
theorem stallsAgree_running : StallsAgree blitHogging ∧ rigelCpuWouldStall blitHogging = true :=
  have hr : BusReachable blitHogging := .ofHost (palMachine_reachable.calls _)
  have hpri : bltpriOn blitHogging = true := by decide +kernel
  have hbusy : blitterIsBusy blitHogging.agnus.blitter = true := by decide +kernel
  have hleft : Ahead blitHogging.cycles blitHogging.agnus.blitter.cyclesRemaining :=
    ⟨by decide +kernel, by decide +kernel⟩
  ⟨(stallsAgree_iff hr).mpr
    ⟨fun _ h => absurd (hpri.symm.trans h) Bool.noConfusion, fun _ _ => hleft,
      fun h => absurd (hbusy.symm.trans h) Bool.noConfusion⟩, by decide +kernel⟩

/-- One clock into a long blit without BLTPRI: the free slots are the blitter's, `rigel_cpu_would_stall` says so, and the
bus state says that the CPU may access chip memory. -/
def blitRunning : RigelContext :=
  ([.customWrite 0x096 0x8240, .customWrite 0x040 0x01FF, .customWrite 0x058 0x0410, .step 1] : List HostCall).foldl
    hostCall palMachine

theorem stallsAgree_parts :
    BusReachable blitRunning ∧ rigelCpuWouldStall blitRunning = true ∧
      (rigelGetBusState blitRunning).cpuWouldStall = false ∧ ¬ StallsAgree blitRunning :=
  ⟨.ofHost (palMachine_reachable.calls _), by decide +kernel, by decide +kernel,
    fun h => absurd h.stall (by decide +kernel)⟩

/-! ## A stall without a grant -/

/-- The DMACON bits that a granted owner needs. -/
def channelEnabled (dmacon : UInt16) : SlotOwner → Bool
  | .copper => dmaconCopenOn dmacon
  | .blitter => dmaconBltenOn dmacon
  | .free => false
  | .cpu => false
  | o => staticEnabled dmacon o

/-- The next clock grants the slot to a channel, and that channel is on in the DMACON of the grant. -/
def ChannelGranted (ctx : RigelContext) : Prop :=
  channelEnabled (schedulerRestoreDsken (schedulerPrepare ctx)).agnus.dma.dmacon (dispatchedOwner ctx) = true

/-- A channel other than the blitter has a use for the slot: an entry of the live table, an active disk transfer, or a
fetch of the copper. -/
def otherWantsSlot (ctx : RigelContext) : Bool :=
  (slotEntry ctx != .free && slotEntry ctx != .cpu) || copperWantsSlot ctx

theorem dmaconMaster_bit {d : UInt16} (h : dmaconMaster d = true) : d &&& dmaconDmaen = dmaconDmaen := by
  simp only [dmaconMaster, dmaconDmaen, bne_iff_ne, ne_eq] at h ⊢
  have hn : d.toNat &&& 2 ^ 9 = (d.toNat.testBit 9).toNat * 2 ^ 9 := Nat.and_two_pow _ _
  apply UInt16.toNat_inj.mp
  rw [← UInt16.toNat_inj] at h
  simp only [UInt16.toNat_and] at h ⊢
  cases hb : d.toNat.testBit 9 with
  | true =>
    rw [hb] at hn
    exact hn
  | false =>
    rw [hb] at hn
    exact absurd hn h

theorem dskenOn_restored {d : UInt16} (h : dmaconMaster d = true) :
    dmaconDskenOn (applySetclr d (dmaconSetclr ||| dmaconDsken)) = true := by
  have hset : applySetclr d (dmaconSetclr ||| dmaconDsken) = d ||| dmaconDsken := rfl
  simp only [hset, dmaconDskenOn, dmaconEnabled, beq_iff_eq]
  calc (d ||| dmaconDsken) &&& (dmaconDmaen ||| dmaconDsken)
      = (d &&& dmaconDmaen) ||| dmaconDsken := by
        apply UInt16.toBitVec_inj.mp
        ext i hi
        simp only [UInt16.toBitVec_and, UInt16.toBitVec_or, BitVec.getElem_and, BitVec.getElem_or]
        cases d.toBitVec[i] <;> cases dmaconDmaen.toBitVec[i] <;> cases dmaconDsken.toBitVec[i] <;> rfl
    _ = dmaconDmaen ||| dmaconDsken := by rw [dmaconMaster_bit h]

/-- The DMACON of the grant: the live one, with DSKEN restored under an active transfer. -/
theorem grantDmacon {ctx : RigelContext} (h : AgnusOk ctx.agnus) :
    (diskWantsSlot ctx = false →
      (schedulerRestoreDsken (schedulerPrepare ctx)).agnus.dma.dmacon = ctx.agnus.dma.dmacon) ∧
    (diskWantsSlot ctx = true →
      dmaconDskenOn (schedulerRestoreDsken (schedulerPrepare ctx)).agnus.dma.dmacon = true) := by
  have hdmacon := (schedulerPrepare_flags ctx).2.2
  constructor
  · intro hd
    unfold schedulerRestoreDsken
    rw [diskTakesSlot_live h, hd, Bool.false_and]
    rfl
  · intro hd
    unfold schedulerRestoreDsken
    rw [diskTakesSlot_live h, hd, Bool.true_and, hdmacon]
    cases hon : dmaconDskenOn ctx.agnus.dma.dmacon with
    | true => exact hon
    | false =>
      refine dskenOn_restored ?_
      simp only [diskWantsSlot, Bool.and_eq_true] at hd
      exact hd.1.2

/-- Without a channel's entry, no transfer wants the slot, and it is the CPU's only while DMAEN is off. -/
theorem slotEntry_idle {ctx : RigelContext} (h : slotEntry ctx = .free ∨ slotEntry ctx = .cpu) :
    diskWantsSlot ctx = false ∧ (slotEntry ctx = .cpu → dmaconMaster ctx.agnus.dma.dmacon = false) := by
  have hd : diskWantsSlot ctx = false := by
    cases hd : diskWantsSlot ctx with
    | false => rfl
    | true =>
      rw [slotEntry, if_pos hd] at h
      rcases h with h | h <;> cases h
  refine ⟨hd, fun hcpu => ?_⟩
  have hon := liveEntry_enabled ctx
  rw [slotEntry, hd] at hcpu
  rw [show liveEntry ctx = .cpu from hcpu] at hon
  simpa [staticEnabled] using hon

/-- **The next clock grants the slot to a channel exactly when one wants it.** -/
theorem channelGranted_iff {ctx : RigelContext} (h : AgnusOk ctx.agnus) :
    ChannelGranted ctx ↔ blitterWantsSlot ctx = true ∨ otherWantsSlot ctx = true := by
  obtain ⟨hplain, hrestored⟩ := grantDmacon h
  have howner := dispatchedOwner_eq h
  unfold ChannelGranted otherWantsSlot
  by_cases hfree : slotEntry ctx = .free
  · rw [howner, if_pos hfree, hplain (slotEntry_idle (.inl hfree)).1, hfree]
    cases hb : blitterWantsSlot ctx with
    | true =>
      simp only [blitterWantsSlot, Bool.and_eq_true] at hb
      simp [channelEnabled, hb.2]
    | false =>
      cases hc : copperWantsSlot ctx with
      | true =>
        simp only [copperWantsSlot, Bool.and_eq_true] at hc
        simp [channelEnabled, hc.1]
      | false => simp [channelEnabled]
  rw [howner, if_neg hfree]
  by_cases hcpu : slotEntry ctx = .cpu
  · have hoff := (slotEntry_idle (.inr hcpu)).2 hcpu
    have hb : blitterWantsSlot ctx = false := by
      cases hb : blitterWantsSlot ctx with
      | false => rfl
      | true => exact Bool.noConfusion ((blitterWantsSlot_master hb).symm.trans hoff)
    have hc : copperWantsSlot ctx = false := by
      cases hc : copperWantsSlot ctx with
      | false => rfl
      | true =>
        simp only [copperWantsSlot, Bool.and_eq_true] at hc
        exact Bool.noConfusion ((dmaconMaster_of_enabled hc.1).symm.trans hoff)
    simp [hcpu, hb, hc, channelEnabled]
  · have hwanted : (slotEntry ctx != .free && slotEntry ctx != .cpu || copperWantsSlot ctx) = true := by
      simp [hfree, hcpu]
    refine ⟨fun _ => .inr hwanted, fun _ => ?_⟩
    cases hd : diskWantsSlot ctx with
    | true =>
      rw [show slotEntry ctx = .disk from if_pos hd]
      exact hrestored hd
    | false =>
      rw [hplain hd]
      have hentry : slotEntry ctx = liveEntry ctx := by
        rw [slotEntry, hd]
        rfl
      have hon := liveEntry_enabled ctx
      rw [← hentry] at hon
      cases he : slotEntry ctx with
      | free => exact absurd he hfree
      | cpu => exact absurd he hcpu
      | copper => exact absurd he (slotEntry_static ctx).notCopper
      | blitter => exact absurd he (slotEntry_static ctx).notBlitter
      | _ =>
        rw [he] at hon
        exact hon

/-- Whoever is told to stall is kept out by a channel that gets the slot. -/
structure StallJustified (ctx : RigelContext) : Prop where
  query : rigelCpuWouldStall ctx = true → ChannelGranted ctx
  busState : (rigelGetBusState ctx).cpuWouldStall = true → ChannelGranted ctx

/-- The cached entry is a channel's, or it is free and a cached flag claims it. -/
def cachedGrant (a : RigelAgnus) : Bool :=
  let e := a.scheduler.table (slotOf a.beam.hpos)
  (e != .free && e != .cpu) || (e == .free && (a.scheduler.blitterActive || a.scheduler.copperRequest))

/-- Each source of a stall has a live taker of the slot behind it: a busy blitter with BLTPRI its own DMA bits or another
channel, and what is cached any channel at all. -/
structure StallSourcesLive (ctx : RigelContext) : Prop where
  priority : blitterIsBusy ctx.agnus.blitter = true → bltpriOn ctx = true →
    dmaconBltenOn ctx.agnus.dma.dmacon = true ∨ otherWantsSlot ctx = true
  cached : cachedGrant ctx.agnus = true → blitterWantsSlot ctx = true ∨ otherWantsSlot ctx = true

theorem cpuStall_cached {a : RigelAgnus} (h : AgnusOk a) (hc : CacheOk a.scheduler) :
    agnusSlotSchedulerCpuStall a.scheduler = cachedGrant a := by
  have hs := hc (slotOf a.beam.hpos)
  unfold agnusSlotSchedulerCpuStall cachedGrant
  rw [currentOwner_cached h, dynamicOwner_static hs]
  simp only
  generalize a.scheduler.table (slotOf a.beam.hpos) = e at hs ⊢
  by_cases hf : e = .free
  · subst hf
    cases a.scheduler.blitterActive <;> cases a.scheduler.copperRequest <;> rfl
  · rw [if_neg hf]
    simp [hf, Bool.and_comm]

/-- The bus state never reports a stall that the query does not. -/
theorem wouldStall_of_busState {ctx : RigelContext} (h : (rigelGetBusState ctx).cpuWouldStall = true) :
    rigelCpuWouldStall ctx = true := by
  rw [wouldStall_eq]
  cases hbusy : blitterIsBusy ctx.agnus.blitter with
  | true =>
    rw [(busState_busy hbusy).1] at h
    simp [h]
  | false =>
    rw [(busState_idle hbusy).1] at h
    simp [h]

/-- **A reported stall is backed by a grant exactly when its sources are live.** -/
theorem stallJustified_iff {ctx : RigelContext} (h : BusReachable ctx) :
    StallJustified ctx ↔ StallSourcesLive ctx := by
  have hgrant := channelGranted_iff h.agnusOk
  have hcached := cpuStall_cached h.agnusOk h.cacheOk
  have hwould := wouldStall_eq ctx
  rw [hcached] at hwould
  constructor
  · rintro ⟨hq, -⟩
    refine ⟨fun hbusy hpri => ?_, fun hc => ?_⟩
    · have hstall : rigelCpuWouldStall ctx = true := by simp [hwould, hbusy, hpri]
      rcases hgrant.mp (hq hstall) with hb | ho
      · simp only [blitterWantsSlot, Bool.and_eq_true] at hb
        exact .inl hb.2
      · exact .inr ho
    · have hstall : rigelCpuWouldStall ctx = true := by simp [hwould, hc]
      exact hgrant.mp (hq hstall)
  · intro hl
    have hquery : rigelCpuWouldStall ctx = true → ChannelGranted ctx := by
      intro hstall
      rw [hwould, Bool.or_eq_true, Bool.and_eq_true] at hstall
      refine hgrant.mpr ?_
      rcases hstall with ⟨hbusy, hpri⟩ | hc
      · rcases hl.priority hbusy hpri with hon | ho
        · exact .inl (by simp [blitterWantsSlot, hbusy, hon])
        · exact .inr ho
      · exact hl.cached hc
    exact ⟨hquery, fun hs => hquery (wouldStall_of_busState hs)⟩

theorem stallJustified_blit : StallJustified blitRunning :=
  (stallJustified_iff (.ofHost (palMachine_reachable.calls _))).mpr ⟨by decide +kernel, by decide +kernel⟩

/-- A blit started with BLTPRI and DMAEN on and BLTEN off, a hundred clocks later. -/
def blitHeld : RigelContext :=
  ([.customWrite 0x096 0x8600, .customWrite 0x040 0x01FF, .customWrite 0x058 0x0041, .step 100] : List HostCall).foldl
    hostCall palMachine

/-- Both queries stall the CPU for a slot that stays free. -/
theorem stallJustified_held :
    BusReachable blitHeld ∧ rigelCpuWouldStall blitHeld = true ∧ (rigelGetBusState blitHeld).cpuWouldStall = true ∧
      dispatchedOwner blitHeld = .free ∧ ¬ StallJustified blitHeld := by
  have hfree : dispatchedOwner blitHeld = .free := by decide +kernel
  have hstall : rigelCpuWouldStall blitHeld = true := by decide +kernel
  refine ⟨.ofHost (palMachine_reachable.calls _), hstall, by decide +kernel, hfree, fun h => ?_⟩
  have hgranted := h.query hstall
  rw [ChannelGranted, hfree] at hgranted
  exact Bool.noConfusion hgranted

end Rigel
