import Rigel.BitplaneAdvance
import Rigel.WindowLines

/-!
# FetchSchedule — every word of a line has its slot

The first half is about a table: its bitplane slots are numbered without repetition, and a word whose slot lies inside the
line has it. The second half follows a line whose registers nobody writes: the fetches of its clocks are the table's, so
that each of those words is fetched once, from the pointer of its plane.
-/

namespace Rigel

/-! ## The table of a rebuild -/

theorem fetchSlot_ge (s : SlotInputs) (word plane : Nat) : s.ddfstrt.toNat ≤ fetchSlot s word plane := by
  unfold fetchSlot
  split <;> omega

/-- A table schedules no word twice, only words of the line, none before DDFSTRT or behind the line's end, and every word
that the line has room for in the word's own slot. -/
structure FetchScheduled (s : SlotScheduler) : Prop where
  injective : ∀ i j, s.table i = .bitplane → s.table j = .bitplane →
    s.bitplaneSlotIndex i = s.bitplaneSlotIndex j → i = j
  below : ∀ i, s.table i = .bitplane → (s.bitplaneSlotIndex i).toNat < lineWords s * (s.depth &&& 0x7).toNat
  inside : ∀ i, s.table i = .bitplane → s.ddfstrt.toNat ≤ i ∧ i ≤ 226
  scheduled : ∀ word < lineWords s, ∀ plane < (s.depth &&& 0x7).toNat, fetchSlot (slotInputs s) word plane ≤ 226 →
    s.table (fetchSlot (slotInputs s) word plane) = .bitplane ∧
      (s.bitplaneSlotIndex (fetchSlot (slotInputs s) word plane)).toNat = word * (s.depth &&& 0x7).toNat + plane

/-- **A rebuild schedules every word that the line has room for.** -/
theorem rebuild_scheduled (s : SlotScheduler) {vpos : UInt16} (refresh : RefreshDmaState)
    (hgate : fetchGate (slotInputs s) vpos = true) : FetchScheduled (agnusSlotSchedulerRebuild s vpos refresh) := by
  have hslots := buildSlotTables_bitplane_iff refresh hgate
  refine ⟨fun i j hi hj he => ?_, fun i hi => buildSlotTables_index hi, fun i hi => ?_, fun word hword plane hplane hin =>
    buildSlotTables_scheduled refresh hgate hword hplane (Nat.lt_succ_of_le hin)⟩
  · obtain ⟨hin, word, hword, plane, hplane, rfl⟩ := (hslots i).mp hi
    obtain ⟨hin', word', hword', plane', hplane', rfl⟩ := (hslots j).mp hj
    have hi' := (buildSlotTables_scheduled refresh hgate hword hplane hin).2
    have hj' := (buildSlotTables_scheduled refresh hgate hword' hplane' hin').2
    have hnumber : word * (s.depth &&& 0x7).toNat + plane = word' * (s.depth &&& 0x7).toNat + plane' :=
      hi'.symm.trans ((congrArg UInt16.toNat he).trans hj')
    obtain ⟨hw, hp⟩ := wordNumber_inj hplane hplane' hnumber
    rw [hw, hp]
  · obtain ⟨hin, word, -, plane, -, rfl⟩ := (hslots i).mp hi
    exact ⟨fetchSlot_ge (slotInputs s) word plane, Nat.le_of_lt_succ hin⟩

/-! ## The fetch of a clock -/

/-- A word fetched: its plane, its number in the line, and the address that it is read from. -/
structure BitplaneFetch where
  plane : Nat
  word : Nat
  addr : UInt32
  deriving Repr, DecidableEq

/-- The fetch of a bitplane slot. -/
def bitplaneSlotFetch (ctx : RigelContext) (hpos : UInt16) : Option BitplaneFetch :=
  let depth := ctx.agnus.scheduler.depth.toNat
  let logical := (bitplaneLogical ctx.agnus.scheduler hpos).toNat
  if depth > 0 ∧ depth ≤ 6 ∧ logical / depth < deniseMaxPlaneWords then
    some ⟨logical % depth, logical / depth,
      ((bitplaneLatchLine ctx.agnus).bitplaneLineBase (logical % depth) + UInt32.ofNat (logical / depth) * 2) &&&
        0x001FFFFE⟩
  else none

/-- The fetch of the next clock. -/
def clockFetch (ctx : RigelContext) : Option BitplaneFetch :=
  if dispatchedOwner ctx = .bitplane then
    bitplaneSlotFetch (schedulerRestoreDsken (schedulerPrepare ctx)) (schedulerPrepare ctx).agnus.scheduler.hpos
  else none

theorem schedulerRestoreDsken_ram (ctx : RigelContext) :
    (schedulerRestoreDsken (schedulerPrepare ctx)).ram = ctx.ram := by
  unfold schedulerRestoreDsken schedulerPrepare
  split <;> rfl

/-- **A clock delivers what it fetches**: the word at the address is Denise's word of that plane. -/
theorem clockFetch_delivers {ctx : RigelContext} {f : BitplaneFetch} (h : clockFetch ctx = some f) :
    (schedulerDispatch (schedulerPrepare ctx)).denise.output.planeWords f.plane f.word = chipRamRead16 ctx.ram f.addr := by
  unfold clockFetch at h
  split at h
  · rename_i howner
    rw [← schedulerRestoreDsken_ram ctx]
    have hslot : slotOwner (schedulerPrepare ctx) = .bitplane := howner
    unfold schedulerDispatch
    rw [hslot]
    simp only [dispatchSlot, bitplaneSlot]
    unfold bitplaneSlotFetch at h
    simp only at h
    split at h
    · rename_i hguard
      rw [if_pos hguard]
      obtain rfl := Option.some.inj h
      simp [bitplaneFetch]
    · cases h
  · cases h

/-- The fetches of a run. -/
def lineFetches (c₀ : RigelContext) (es : List LineEvent) : List BitplaneFetch :=
  collectAlong lineEvent (fun ctx e => if e.IsClock then clockFetch ctx else none) c₀ es

/-! ## A line with constant registers -/

/-- DMACON and DIWSTRT, which open the gate. -/
def isGateReg (addr : UInt32) : Bool := addr == 0x096 || addr == 0x08E

/-- Nobody writes a register of the fetch or of its gate, and no disk transfer takes the slot. -/
structure FetchSteady (ctx : RigelContext) (e : LineEvent) : Prop where
  undisturbed : FetchUndisturbed ctx e
  disk : e.IsClock → diskWantsSlot ctx = false
  move : e.IsClock → ∀ addr value, clockWrite ctx = some (addr, value) → isGateReg addr = false
  writes : ∀ addr value, e.writes = some (addr, value) → isGateReg addr = false

/-- The gate's own registers are as they were. -/
structure GateSame (a a' : RigelAgnus) : Prop where
  dmacon : a'.dma.dmacon = a.dma.dmacon
  vstrt : a'.scheduler.vstrt = a.scheduler.vstrt

theorem GateSame.trans {a b c : RigelAgnus} (h : GateSame a b) (h' : GateSame b c) : GateSame a c :=
  ⟨h'.dmacon.trans h.dmacon, h'.vstrt.trans h.vstrt⟩

theorem agnusAfterWrite_gate {addr : UInt32} (h : isGateReg addr = false) (a : RigelAgnus) (value : UInt16) :
    GateSame a (agnusAfterWrite a addr value) := by
  simp only [isGateReg, Bool.or_eq_false_iff, beq_eq_false_iff_ne] at h
  obtain ⟨hdmacon, hdiwstrt⟩ := h
  unfold agnusAfterWrite
  split
  · unfold agnusAfterMmio
    rw [if_neg hdmacon]
    repeat' split
    all_goals exact ⟨rfl, rfl⟩
  · unfold agnusFollowDenise
    split
    · refine ⟨rfl, ?_⟩
      simp only [agnusFollowBplcon0, agnusSlotSchedulerSetDepth, agnusSlotSchedulerSetHires]
      repeat' split
      all_goals rfl
    · exact absurd rfl hdiwstrt
    · exact ⟨rfl, rfl⟩
    · exact ⟨rfl, rfl⟩
  · exact ⟨rfl, rfl⟩
  · exact ⟨rfl, rfl⟩

/-- **A clock that nobody disturbs keeps the gate.** -/
theorem clock_gate {ctx : RigelContext} (h : AgnusOk ctx.agnus) (hdisk : diskWantsSlot ctx = false)
    (hmove : ∀ addr value, clockWrite ctx = some (addr, value) → isGateReg addr = false) :
    GateSame ctx.agnus (agnusSlotSchedulerStep ctx).agnus := by
  have hrestore : schedulerRestoreDsken (schedulerPrepare ctx) = schedulerPrepare ctx := by
    unfold schedulerRestoreDsken
    rw [diskTakesSlot_live h, hdisk]
    rfl
  have hprepare : GateSame ctx.agnus (schedulerPrepare ctx).agnus :=
    ⟨rfl, congrArg SlotInputs.vstrt (schedulerPrepare_inputs ctx).1⟩
  have hadvance : GateSame (schedulerDispatch (schedulerPrepare ctx)).agnus (agnusSlotSchedulerStep ctx).agnus := by
    refine ⟨congrArg DmaState.dmacon (schedulerAdvance_dma _), ?_⟩
    exact congrArg SlotInputs.vstrt (schedulerAdvance_inputs (schedulerDispatch (schedulerPrepare ctx))).1
  refine (hprepare.trans ?_).trans hadvance
  unfold schedulerDispatch
  rw [hrestore]
  by_cases hcopper : slotOwner (schedulerPrepare ctx) = .copper
  · rw [hcopper]
    show GateSame _ (rigelCopperServiceStepProgram (schedulerPrepare ctx)).agnus
    rcases copperService_write (schedulerPrepare ctx) with ⟨-, c, hc⟩ | ⟨reg, value, c, c', hw, -, hc⟩
    · rw [hc]
      exact ⟨rfl, rfl⟩
    · have hreg : isGateReg reg = false := by
        rw [← hrestore] at hw
        exact copperWrite_of_clock hcopper hmove hw
      rw [hc]
      have hwrite := agnusAfterWrite_gate hreg (copperWriting (schedulerPrepare ctx) c).agnus value
      rw [← customRegsWrite16_agnus] at hwrite
      exact ⟨hwrite.dmacon, hwrite.vstrt⟩
  · exact ⟨congrArg DmaState.dmacon (dispatchSlot_dma hcopper _ _),
      congrArg SlotInputs.vstrt (dispatchSlot_inputs hcopper _ _).1⟩

theorem FetchSteady.gate {ctx : RigelContext} {e : LineEvent} (h : FetchSteady ctx e) (hok : AgnusOk ctx.agnus) :
    GateSame ctx.agnus (lineEvent ctx e).agnus := by
  by_cases hc : e.IsClock
  · obtain rfl := LineEvent.eq_clock hc
    exact clock_gate hok (h.disk hc) (h.move hc)
  · rcases lineEvent_agnus hok h.undisturbed.1 hc with ⟨addr, value, hw, ha⟩ | ⟨-, hs⟩
    · rw [ha]
      exact agnusAfterWrite_gate (h.writes addr value hw) _ _
    · rw [hs]
      exact ⟨rfl, rfl⟩

/-! ## The fetches of the line -/

/-- The inputs of a table built now. -/
def liveInputs (a : RigelAgnus) : SlotInputs := { slotInputs a.scheduler with dmacon := a.dma.dmacon }

theorem liveInputs_same {a a' : RigelAgnus} (hs : fetchSetup a'.scheduler = fetchSetup a.scheduler)
    (hg : GateSame a a') : liveInputs a' = liveInputs a := by
  unfold liveInputs slotInputs
  simp only [fetchSetup, FetchSetup.mk.injEq] at hs
  obtain ⟨hdepth, hhires, hstrt, hstop⟩ := hs
  rw [hdepth, hhires, hstrt, hstop, hg.dmacon, hg.vstrt]

/-- DMACON has no part in the places of the words. -/
theorem fetchSlot_live (a : RigelAgnus) : fetchSlot (liveInputs a) = fetchSlot (slotInputs a.scheduler) := rfl

/-- The refresh slots have no part in the fetch. -/
theorem buildSlotTables_refresh (s : SlotInputs) (vpos : UInt16) (refresh refresh' : RefreshDmaState) (i : Nat) :
    ((buildSlotTables s vpos refresh).owner i = .bitplane ↔ (buildSlotTables s vpos refresh').owner i = .bitplane) ∧
      ((buildSlotTables s vpos refresh).owner i = .bitplane →
        (buildSlotTables s vpos refresh).index i = (buildSlotTables s vpos refresh').index i) := by
  by_cases hgate : fetchGate s vpos = true
  · have hslots := buildSlotTables_bitplane_iff refresh hgate i
    refine ⟨hslots.trans (buildSlotTables_bitplane_iff refresh' hgate i).symm, fun hb => ?_⟩
    obtain ⟨hin, word, hword, plane, hplane, rfl⟩ := hslots.mp hb
    apply UInt16.toNat_inj.mp
    rw [(buildSlotTables_scheduled refresh hgate hword hplane hin).2,
      (buildSlotTables_scheduled refresh' hgate hword hplane hin).2]
  · have hclosed := buildSlotTables_gateClosed refresh hgate i
    exact ⟨iff_of_false hclosed (buildSlotTables_gateClosed refresh' hgate i), fun hb => absurd hb hclosed⟩

/-- The address of a word of a plane: from the pointer at the start of the line. -/
def wordAddr (c₀ : RigelContext) (plane word : Nat) : UInt32 :=
  ((c₀.agnus.bplpt.bplpt plane &&& 0x001FFFFE) + UInt32.ofNat word * 2) &&& 0x001FFFFE

/-- The fetch of slot `k`, by the table at the start of the line. -/
def slotFetch (c₀ : RigelContext) (k : Nat) : Option BitplaneFetch :=
  let n := ((freshTables c₀.agnus).index k).toNat
  let depth := c₀.agnus.scheduler.depth.toNat
  if (freshTables c₀.agnus).owner k = .bitplane then some ⟨n % depth, n / depth, wordAddr c₀ (n % depth) (n / depth)⟩
  else none

/-- The line's base, before its first fetch and after it. -/
theorem LineSoFar.base {c₀ ctx : RigelContext} {es : List LineEvent} (h : LineSoFar c₀ es ctx) {p : Nat}
    (hp : p < bitplaneCount) :
    (bitplaneLatchLine ctx.agnus).bitplaneLineBase p = c₀.agnus.bplpt.bplpt p &&& 0x001FFFFE := by
  unfold bitplaneLatchLine
  by_cases hs : OnceAlong lineEvent ServesBitplane c₀ es
  · obtain ⟨-, -, -, hbase⟩ := h.record.latched hs
    have hvalid : ctx.agnus.scheduler.bitplaneLineBaseValid = true := (h.record.latched hs).1
    rw [if_pos hvalid]
    exact hbase p hp
  · have hvalid : ctx.agnus.scheduler.bitplaneLineBaseValid = false := (h.record.fresh hs).1
    rw [hvalid, if_neg Bool.false_ne_true]
    simp only [hp, if_true]
    rw [h.bplpt]

/-- **A clock of the line fetches what the line's table says of its slot.** -/
theorem LineSoFar.clockFetch {c₀ ctx : RigelContext} {es : List LineEvent} (h : LineSoFar c₀ es ctx)
    (hok : AgnusOk ctx.agnus) (hdepth : DepthOk c₀.agnus.scheduler) (hgate : GateSame c₀.agnus ctx.agnus)
    (hvpos : ctx.agnus.beam.vpos = c₀.agnus.beam.vpos) (hdisk : diskWantsSlot ctx = false) :
    clockFetch ctx = slotFetch c₀ ctx.agnus.beam.hpos.toNat := by
  have hdepthNow : ctx.agnus.scheduler.depth = c₀.agnus.scheduler.depth := congrArg FetchSetup.depth h.setup
  have htables : freshTables ctx.agnus = buildSlotTables (liveInputs c₀.agnus) c₀.agnus.beam.vpos ctx.agnus.refresh := by
    rw [← liveInputs_same h.setup hgate, ← hvpos]
    rfl
  obtain ⟨hsame, hindex⟩ := buildSlotTables_refresh (liveInputs c₀.agnus) c₀.agnus.beam.vpos ctx.agnus.refresh
    c₀.agnus.refresh ctx.agnus.beam.hpos.toNat
  have hstart : buildSlotTables (liveInputs c₀.agnus) c₀.agnus.beam.vpos c₀.agnus.refresh = freshTables c₀.agnus := rfl
  rw [← htables, hstart] at hsame hindex
  have hentry : liveEntry ctx = (freshTables ctx.agnus).owner ctx.agnus.beam.hpos.toNat := by
    rw [liveEntry, hposSlot hok]
  have howner : dispatchedOwner ctx = .bitplane ↔ liveEntry ctx = .bitplane := by
    rw [dispatchedBitplane_iff hok, bitplaneServed, hdisk]
    simp
  unfold Rigel.clockFetch slotFetch
  simp only
  by_cases hb : liveEntry ctx = .bitplane
  · have hdepthOk : DepthOk ctx.agnus.scheduler := by
      unfold DepthOk
      rw [hdepthNow]
      exact hdepth
    obtain ⟨hd, hword⟩ := slotWord_lt hok hdepthOk hb
    have hwords : lineWords ctx.agnus.scheduler ≤ 64 := bitplaneWords_le _
    have hready := (schedulerPrepare_fetch ctx).trans (schedulerRestoreDsken_fetch (schedulerPrepare ctx))
    have hsofar := h.same hready fun i _ => congrFun (slotReady ctx).customRegs i
    have hdepthReady : (schedulerRestoreDsken (schedulerPrepare ctx)).agnus.scheduler.depth = ctx.agnus.scheduler.depth :=
      congrArg FetchSetup.depth hready.setup
    have hb' : (freshTables ctx.agnus).owner ctx.agnus.beam.hpos.toNat = .bitplane := hentry.symm.trans hb
    rw [if_pos (howner.mpr hb), if_pos (hsame.mp hb'), ← hdepthNow]
    unfold bitplaneSlotFetch
    rw [bitplaneLogical_live hok hdepthOk hb, hdepthReady]
    unfold slotWord at hword
    have hplane : ((freshTables ctx.agnus).index ctx.agnus.beam.hpos.toNat).toNat % ctx.agnus.scheduler.depth.toNat <
        bitplaneCount := Nat.lt_of_lt_of_le (Nat.mod_lt _ hd.1) hd.2
    rw [if_pos ⟨hd.1, hd.2, Nat.lt_of_lt_of_le hword hwords⟩, hsofar.base hplane, hindex hb']
    rfl
  · rw [if_neg (mt howner.mp hb), if_neg]
    rw [← hsame, ← hentry]
    exact hb

/-- The gate stays as it was through any steady run. -/
theorem AgnusOk.steady {c₀ : RigelContext} (hok : AgnusOk c₀.agnus) (es : List LineEvent)
    (hrun : AlongRun lineEvent FetchSteady c₀ es) : GateSame c₀.agnus (es.foldl lineEvent c₀).agnus := by
  refine (hrun.invariant (fun s => AgnusOk s.agnus ∧ GateSame c₀.agnus s.agnus) ?_ es c₀ ⟨hok, rfl, rfl⟩).2
  exact fun s e hs he => ⟨lineEvent_ok hs.1 e, hs.2.trans (he.gate hs.1)⟩

/-- **The fetches of a line so far** are those of the slots that the beam has passed. -/
theorem LineBegins.fetches {c₀ : RigelContext} (h : LineBegins c₀) (es : List LineEvent)
    (hrun : AlongRun lineEvent FetchSteady c₀ es) (hclocks : clocksIn es ≤ 227) :
    lineFetches c₀ es = (List.range (clocksIn es)).filterMap (slotFetch c₀) := by
  induction es using List.reverseRecOn with
  | nil => rfl
  | append_singleton es e ih =>
    have hcount := clocksIn_concat es e
    have hbefore := ih hrun.init (by omega)
    unfold lineFetches at hbefore ⊢
    rw [collectAlong_concat, hbefore, hcount]
    by_cases hc : e.IsClock
    · rw [if_pos hc] at hcount ⊢
      obtain ⟨hok, ⟨hpos, hvpos⟩, hsofar⟩ := h.run es (hrun.init.imp fun _ _ he => he.undisturbed) (by omega)
      rw [if_pos hc, hsofar.clockFetch hok h.depth (h.ok.steady es hrun.init) hvpos (hrun.last.disk hc), hpos,
        List.range_succ, List.filterMap_append]
      rfl
    · rw [if_neg hc, if_neg hc]
      exact List.append_nil _

theorem filterMap_range_single {β : Type*} {f : Nat → Option β} {k : Nat} {x : β} (h : f k = some x)
    (hother : ∀ j, j ≠ k → f j = none) : ∀ {n : Nat}, k < n → (List.range n).filterMap f = [x]
  | 0, hk => absurd hk (Nat.not_lt_zero k)
  | n + 1, hk => by
    rw [List.range_succ, List.filterMap_append]
    rcases Nat.lt_succ_iff_lt_or_eq.mp hk with hlt | rfl
    · have hn : f n = none := hother n (Nat.ne_of_gt hlt)
      rw [filterMap_range_single h hother hlt]
      simp [hn]
    · have hnone : (List.range k).filterMap f = [] := by
        rw [List.filterMap_eq_nil_iff]
        exact fun j hj => hother j (Nat.ne_of_lt (List.mem_range.mp hj))
      rw [hnone]
      simp [h]

/-- The fetches of one word of a plane. -/
def fetchesOf (fetches : List BitplaneFetch) (plane word : Nat) : List BitplaneFetch :=
  fetches.filter fun f => f.plane = plane ∧ f.word = word

/-- **Every word that the line has room for is fetched once**, at the pointer of its plane. -/
theorem LineBegins.fetchedOnce {c₀ : RigelContext} (h : LineBegins c₀)
    (hgate : fetchGate (liveInputs c₀.agnus) c₀.agnus.beam.vpos = true) {es : List LineEvent}
    (hrun : AlongRun lineEvent FetchSteady c₀ es) (hclocks : clocksIn es = 227) {word plane : Nat}
    (hword : word < lineWords c₀.agnus.scheduler) (hplane : plane < c₀.agnus.scheduler.depth.toNat)
    (hin : fetchSlot (slotInputs c₀.agnus.scheduler) word plane ≤ 226) :
    fetchesOf (lineFetches c₀ es) plane word = [⟨plane, word, wordAddr c₀ plane word⟩] := by
  have hdepth : (liveInputs c₀.agnus).depth &&& 0x7 = c₀.agnus.scheduler.depth := h.depth
  have hslots := fun i => buildSlotTables_bitplane_iff c₀.agnus.refresh hgate i
  rw [hdepth] at hslots
  have hnumber : ∀ {word' plane' : Nat}, word' < lineWords c₀.agnus.scheduler → plane' < c₀.agnus.scheduler.depth.toNat →
      fetchSlot (liveInputs c₀.agnus) word' plane' < agnusSlotsPerLine →
      slotFetch c₀ (fetchSlot (liveInputs c₀.agnus) word' plane') = some ⟨plane', word', wordAddr c₀ plane' word'⟩ := by
    intro word' plane' hword' hplane' hin'
    rw [← h.depth] at hplane'
    obtain ⟨howner, hindex⟩ := buildSlotTables_scheduled c₀.agnus.refresh hgate hword' hplane' hin'
    rw [hdepth] at hindex
    rw [h.depth] at hplane'
    obtain ⟨-, hdiv, hmod⟩ := wordNumber hword' hplane'
    unfold slotFetch freshTables
    unfold liveInputs at howner hindex ⊢
    simp only
    rw [if_pos howner, hindex, hdiv, hmod]
  rw [h.fetches es hrun (Nat.le_of_eq hclocks), hclocks, fetchesOf, List.filter_filterMap]
  refine filterMap_range_single (k := fetchSlot (liveInputs c₀.agnus) word plane) ?_ ?_ (Nat.lt_succ_of_le hin)
  · rw [hnumber hword hplane (Nat.lt_succ_of_le hin)]
    simp [Option.filter]
  · intro j hj
    by_cases hb : (freshTables c₀.agnus).owner j = .bitplane
    · obtain ⟨hin', word', hword', plane', hplane', rfl⟩ := (hslots j).mp hb
      rw [hnumber hword' hplane' hin']
      refine Option.filter_eq_none_iff.mpr fun f hf => ?_
      obtain rfl := Option.mem_some_iff.mp hf
      simp only [decide_eq_true_eq, not_and]
      rintro rfl rfl
      exact hj rfl
    · unfold slotFetch
      rw [if_neg hb]
      rfl

/-- **The bitplane fetch schedule.** After DDFSTRT and DDFSTOP have been set, the table of a line whose gate is open
schedules every word that the line has room for in its own slot, and no slot twice. Over such a line, from its first clock
to its last, each of those words is fetched once. -/
theorem bitplaneFetch_schedule (s : SlotScheduler) (ddfstrt ddfstop vpos : UInt16) (refresh : RefreshDmaState)
    (c₀ : RigelContext) (es : List LineEvent) :
    (fetchGate (slotInputs (agnusSlotSchedulerSetDdf s ddfstrt ddfstop)) vpos = true →
      FetchScheduled (agnusSlotSchedulerRebuild (agnusSlotSchedulerSetDdf s ddfstrt ddfstop) vpos refresh)) ∧
    (BusReachable c₀ → c₀.agnus.beam.hpos = 0 → fetchGate (liveInputs c₀.agnus) c₀.agnus.beam.vpos = true →
      AlongRun lineEvent FetchSteady c₀ (es ++ [.bus .clock]) → clocksIn es = 226 →
      ∀ word < lineWords c₀.agnus.scheduler, ∀ plane < c₀.agnus.scheduler.depth.toNat,
        fetchSlot (slotInputs c₀.agnus.scheduler) word plane ≤ 226 →
        fetchesOf (lineFetches c₀ (es ++ [.bus .clock])) plane word = [⟨plane, word, wordAddr c₀ plane word⟩]) := by
  refine ⟨fun hgate => rebuild_scheduled _ refresh hgate, ?_⟩
  intro hreachable hpos hgate hrun hclocks word hword plane hplane hin
  have hline : clocksIn (es ++ [.bus .clock]) = 227 := by
    rw [clocksIn_concat, hclocks]
    rfl
  exact (hreachable.lineBegins hpos).fetchedOnce hgate hrun hline hword hplane hin

/-- A line without a disk and without a copper is steady. -/
theorem DiskOff.steady {ctx : RigelContext} (h : DiskOff ctx) (n : Nat) :
    AlongRun lineEvent FetchSteady ctx (List.replicate n (.bus .clock)) := by
  refine alongRun_replicate DiskOff (fun _ h => h.clock) (fun s h => ?_) n ctx h
  refine ⟨calm_undisturbed h.calm, fun _ => h.wants, fun _ addr value hw => ?_, fun addr value hw => ?_⟩
  · rw [h.calm.write] at hw
    cases hw
  · cases hw

/-- Six planes set up for `$38` to `$D0`, and the twentieth word of line 26 in one. -/
theorem bitplaneFetch_schedule_line26 :
    FetchScheduled (agnusSlotSchedulerRebuild (agnusSlotSchedulerSetDdf
        { palMachine.agnus.scheduler with dmacon := 0x0300, depth := 6 } 0x38 0xD0) 26 refreshDmaReset) ∧
      fetchesOf (lineFetches (line26 planeSetup 0x8300) (List.replicate 226 (.bus .clock) ++ [.bus .clock])) 0 19 =
        [⟨0, 19, wordAddr (line26 planeSetup 0x8300) 0 19⟩] := by
  obtain ⟨hoff, hin⟩ := planeSetup_line26
  have hat := line26_at planeSetup 0x8300 planeSetup_waiting
  have hinputs : liveInputs (line26 planeSetup 0x8300).agnus = ⟨0x0300, 0x38, 0xD0, 1, false, 26⟩ := hin
  obtain ⟨hdepth, hwords⟩ := hat.plane (by decide +kernel)
  have hslot : fetchSlot (slotInputs (line26 planeSetup 0x8300).agnus.scheduler) 19 0 ≤ 226 := by
    rw [← fetchSlot_live, hinputs]
    decide
  have hsteady := hoff.steady (226 + (0 + 1))
  rw [replicate_split] at hsteady
  obtain ⟨htable, hline⟩ := bitplaneFetch_schedule { palMachine.agnus.scheduler with dmacon := 0x0300, depth := 6 } 0x38
    0xD0 26 refreshDmaReset (line26 planeSetup 0x8300) (List.replicate 226 (.bus .clock))
  have hreachable := line26_reachable planeSetup 0x8300
  refine ⟨htable (by decide +kernel), hline hreachable hat.hpos ?_ hsteady (clocksIn_replicate 226) 19 ?_ 0 ?_ hslot⟩
  · rw [hinputs, hat.vpos]
    decide
  · rw [hwords]
    decide
  · rw [hdepth]
    decide

end Rigel
