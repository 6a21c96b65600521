import Rigel.FetchSchedule

/-!
# RefreshSlots — the three refresh slots of a line

A rebuild gives the refresh its slots first and lays the bitplane fetch over them last. A fetch that starts at DDFSTRT 0
or 4 reaches them. Here is which of them it takes, for a table and for every clock of a run: an active disk transfer,
blitter and copper leave a refresh slot alone, the fetch does not.
-/

namespace Rigel

/-- The positions of the refresh slots. -/
def refreshPositions : List Nat := [0x01, 0x03, 0x05]

theorem refreshPositions_lt : ∀ i ∈ refreshPositions, i < 6 := by decide

theorem refreshPositions_owned : ∀ i ∈ refreshPositions, refreshDmaOwnsSlot refreshDmaReset (UInt16.ofNat i) = true := by
  decide

/-! ## The fetch over the refresh -/

/-- The fetch of the line has a word in slot `i` of its first unit. -/
def FetchTakes (s : SlotInputs) (vpos : UInt16) (i : Nat) : Prop :=
  fetchGate s vpos = true ∧ DepthShown s.depth ∧
    if s.hires then s.ddfstrt.toNat ≤ i ∧ i < s.ddfstrt.toNat + bitplaneWordsPerPlane s * (s.depth &&& 0x7).toNat
    else ∃ plane < (s.depth &&& 0x7).toNat, i = s.ddfstrt.toNat + loresPlaneOrder plane

instance (s : SlotInputs) (vpos : UInt16) (i : Nat) : Decidable (FetchTakes s vpos i) := by
  unfold FetchTakes
  infer_instance

variable {s : SlotInputs} {vpos : UInt16} {refresh : RefreshDmaState} {i : Nat}

theorem buildSlotTables_takes (refresh : RefreshDmaState) (hi : i < 8) :
    (buildSlotTables s vpos refresh).owner i = .bitplane ↔ FetchTakes s vpos i := by
  by_cases hgate : fetchGate s vpos = true
  · rw [buildSlotTables_bitplane_iff refresh hgate, FetchTakes]
    have hin : i < agnusSlotsPerLine := Nat.lt_trans hi (by decide)
    unfold fetchSlot
    constructor
    · rintro ⟨-, word, hword, plane, hplane, he⟩
      refine ⟨hgate, bitplaneDepth_of_words (Nat.ne_of_gt (Nat.lt_of_le_of_lt word.zero_le hword)), ?_⟩
      cases hhires : s.hires with
      | true =>
        rw [hhires, if_pos rfl] at he
        obtain ⟨hlt, -, -⟩ := wordNumber hword hplane
        rw [if_pos rfl]
        omega
      | false =>
        rw [hhires, if_neg Bool.false_ne_true] at he
        rw [if_neg Bool.false_ne_true]
        exact ⟨plane, hplane, by omega⟩
    · rintro ⟨-, hdepth, hplace⟩
      refine ⟨hin, ?_⟩
      cases hhires : s.hires with
      | true =>
        rw [hhires, if_pos rfl] at hplace
        refine ⟨(i - s.ddfstrt.toNat) / (s.depth &&& 0x7).toNat, ?_, (i - s.ddfstrt.toNat) % (s.depth &&& 0x7).toNat,
          Nat.mod_lt _ hdepth.1, ?_⟩
        · rw [Nat.div_lt_iff_lt_mul hdepth.1]
          omega
        · rw [if_pos rfl, Nat.add_assoc, Nat.mul_comm, Nat.div_add_mod]
          omega
      | false =>
        rw [hhires, if_neg Bool.false_ne_true] at hplace
        obtain ⟨plane, hplane, he⟩ := hplace
        refine ⟨0, bitplaneWords_pos hdepth, plane, hplane, ?_⟩
        rw [if_neg Bool.false_ne_true]
        omega
  · exact iff_of_false (buildSlotTables_gateClosed refresh hgate i) fun h => hgate h.1

/-- Fills of other slots leave this one. -/
theorem fillWhen_kept {b : Bool} {fills : List (Nat × SlotOwner)} {t : SlotTables} {o : SlotOwner} (ht : t.owner i = o)
    (hf : ∀ f ∈ fills, f.1 ≠ i) : (fillWhen b fills t).owner i = o := by
  refine fillWhen_all (P := fun j o' => j = i → o' = o) ?_ (fun _ f hmem hj => absurd hj (hf f hmem)) i rfl
  rintro j rfl
  exact ht

theorem spriteFills_above : ∀ f ∈ spriteFills, 0x15 ≤ f.1 := by
  intro f hf
  simp only [spriteFills, List.mem_flatMap, List.mem_cons, List.not_mem_nil, or_false] at hf
  obtain ⟨sp, -, rfl | rfl⟩ := hf
  · exact Nat.le_add_right _ _
  · exact Nat.le_trans (by decide) (Nat.le_add_right 0x17 _)

/-- Disk, audio and sprites have slots of their own. -/
theorem slotUnderlay_refresh (hr : refresh.slotHpos = refreshDmaReset.slotHpos) (hi : i ∈ refreshPositions) :
    (slotUnderlay s refresh).owner i = .refresh := by
  have hlt := refreshPositions_lt i hi
  have hone : ∀ {h : Nat} {o : SlotOwner}, 6 ≤ h → ∀ f ∈ [(h, o)], f.1 ≠ i := by
    intro h o hh f hf
    rw [List.mem_singleton.1 hf]
    exact Nat.ne_of_gt (Nat.lt_of_lt_of_le hlt hh)
  have howns : i < agnusSlotsPerLine ∧ refreshDmaOwnsSlot refresh (UInt16.ofNat i) = true := by
    refine ⟨Nat.lt_trans hlt (by decide), ?_⟩
    unfold refreshDmaOwnsSlot
    rw [hr]
    exact refreshPositions_owned i hi
  refine fillWhen_kept ?_ fun f hf => ?_
  · refine fillWhen_kept ?_ (hone (by decide))
    refine fillWhen_kept ?_ (hone (by decide))
    refine fillWhen_kept ?_ (hone (by decide))
    refine fillWhen_kept ?_ (hone (by decide))
    refine fillWhen_kept (if_pos howns) fun f hf => ?_
    simp only [List.mem_cons, List.not_mem_nil, or_false] at hf
    rcases hf with rfl | rfl
    · exact Nat.ne_of_gt (Nat.lt_of_lt_of_le hlt (by decide))
    · exact Nat.ne_of_gt (Nat.lt_of_lt_of_le hlt (by decide))
  · have habove := spriteFills_above f hf
    omega

/-- **A refresh slot is the refresh's unless the fetch takes it.** -/
theorem refreshSlot_iff (hr : refresh.slotHpos = refreshDmaReset.slotHpos) (hi : i ∈ refreshPositions) :
    (buildSlotTables s vpos refresh).owner i = .refresh ↔ ¬ FetchTakes s vpos i := by
  have hlt : i < 8 := Nat.lt_trans (refreshPositions_lt i hi) (by decide)
  rw [← buildSlotTables_takes refresh hlt]
  constructor
  · intro h hb
    cases h.symm.trans hb
  · intro hb
    have hfill : (bitplaneFill s vpos (slotUnderlay s refresh)).owner i = .refresh ∨
        (bitplaneFill s vpos (slotUnderlay s refresh)).owner i = .bitplane :=
      bitplaneFill_all (P := fun j o => j = i → o = .refresh ∨ o = .bitplane) vpos (fun _ _ _ => .inr rfl)
        (fun j hj => .inl (hj ▸ slotUnderlay_refresh hr hi)) i rfl
    rcases hfill with h | h
    · rw [buildSlotTables_owner, h]
      rfl
    · exact absurd ((buildSlotTables_bitplane s vpos refresh i).mpr h) hb

/-! ## The three slots of a line -/

/-- The fetch is off, or it starts behind the refresh, or it is a lores fetch of few enough planes to pass between. -/
def RefreshSpared (s : SlotInputs) (vpos : UInt16) : Prop :=
  ¬ fetchGate s vpos = true ∨ ¬ DepthShown s.depth ∨ 8 ≤ s.ddfstrt.toNat ∨
    (s.hires = false ∧
      (s.ddfstrt = 0 ∧ (s.depth &&& 0x7).toNat ≤ 1 ∨ s.ddfstrt = 4 ∧ (s.depth &&& 0x7).toNat ≤ 3))

theorem bitplaneWords_hires (hhires : s.hires = true) (hdepth : DepthShown s.depth) : 2 ≤ bitplaneWordsPerPlane s := by
  have hpos := bitplaneWords_pos hdepth
  unfold bitplaneWordsPerPlane at hpos ⊢
  simp only [hhires, if_true] at hpos ⊢
  split at hpos
  · exact absurd hpos (Nat.lt_irrefl 0)
  · rename_i hshown
    rw [if_neg hshown]
    have hmin : ∀ n, 2 ≤ min (n + 2) deniseMaxPlaneWords := fun n => Nat.le_min.mpr ⟨Nat.le_add_left 2 n, by decide⟩
    split
    · decide
    · split
      · exact hmin _
      · exact hmin _

/-- Where the planes of the first lores unit stand. -/
theorem loresUnit_refresh : ∀ depth < 7,
    ((∀ i ∈ refreshPositions, ¬ ∃ plane < depth, i = 0 + loresPlaneOrder plane) ↔ depth ≤ 1) ∧
      ((∀ i ∈ refreshPositions, ¬ ∃ plane < depth, i = 4 + loresPlaneOrder plane) ↔ depth ≤ 3) := by
  decide

/-- **The fetch takes no refresh slot** under these conditions and no others, DDFSTRT being a multiple of four. -/
theorem refreshSpared_iff (hfour : s.ddfstrt.toNat % 4 = 0) :
    (∀ i ∈ refreshPositions, ¬ FetchTakes s vpos i) ↔ RefreshSpared s vpos := by
  unfold FetchTakes RefreshSpared
  by_cases hgate : fetchGate s vpos = true
  · by_cases hdepth : DepthShown s.depth
    · simp only [hgate, hdepth, not_true_eq_false, true_and, false_or]
      by_cases hfar : 8 ≤ s.ddfstrt.toNat
      · refine iff_of_true (fun i hi => ?_) (.inl hfar)
        have hlt := refreshPositions_lt i hi
        split
        · omega
        · rintro ⟨plane, -, he⟩
          omega
      · have hstart : s.ddfstrt.toNat = 0 ∨ s.ddfstrt.toNat = 4 := by omega
        have hzero : s.ddfstrt = 0 ↔ s.ddfstrt.toNat = 0 := UInt16.toNat_inj.symm
        have hfourth : s.ddfstrt = 4 ↔ s.ddfstrt.toNat = 4 := UInt16.toNat_inj.symm
        rw [hzero, hfourth, or_iff_right hfar]
        cases hhires : s.hires with
        | true =>
          have hwords := bitplaneWords_hires hhires hdepth
          have hmany : 2 * 1 ≤ bitplaneWordsPerPlane s * (s.depth &&& 0x7).toNat := Nat.mul_le_mul hwords hdepth.1
          refine iff_of_false (fun h => ?_) fun h => Bool.noConfusion h.1
          simp only [if_true] at h
          rcases hstart with h0 | h4
          · exact h 1 (by decide) (by omega)
          · exact h 5 (by decide) (by omega)
        | false =>
          obtain ⟨hunit0, hunit4⟩ := loresUnit_refresh _ (Nat.lt_succ_of_le hdepth.2)
          simp only [Bool.false_eq_true, if_false, true_and]
          rcases hstart with h0 | h4
          · rw [h0, hunit0]
            omega
          · rw [h4, hunit4]
            omega
    · exact iff_of_true (fun i _ h => hdepth h.2.1) (.inr (.inl hdepth))
  · exact iff_of_true (fun i _ h => hgate h.1) (.inl hgate)

/-- The setter leaves a multiple of four. -/
theorem setDdf_four (s : SlotScheduler) (ddfstrt ddfstop : UInt16) :
    (slotInputs (agnusSlotSchedulerSetDdf s ddfstrt ddfstop)).ddfstrt.toNat % 4 = 0 := by
  have hmask : (ddfstrt.toNat &&& 0xFC) % 2 ^ 2 = 0 := by
    rw [Nat.and_mod_two_pow]
    exact Nat.and_zero _
  exact hmask

/-! ## Every clock of a run -/

/-- Agnus never moves its refresh slots. -/
def RefreshKept (a : RigelAgnus) : Prop := a.refresh.slotHpos = refreshDmaReset.slotHpos

theorem RefreshKept.write {a a' : RigelAgnus} (h : RefreshKept a) (hw : AgnusWrite a a') : RefreshKept a' := by
  cases hw with
  | bplcon0 value => exact h
  | _ => exact h

theorem RefreshKept.slot {a a' : RigelAgnus} (h : RefreshKept a) (hs : SlotEffect a a') : RefreshKept a' := by
  cases hs with
  | copper hc =>
    cases hc with
    | move pc reg value =>
      have hbefore : RefreshKept { a with copper := { a.copper with fetchPending := false } } := h
      have hafter := hbefore.write (agnusAfterWrite_cases _ reg value)
      exact hafter
    | _ => exact h
  | _ => exact h

theorem schedulerAdvance_refresh (ctx : RigelContext) : (schedulerAdvance ctx).agnus.refresh = ctx.agnus.refresh := by
  unfold schedulerAdvance schedulerAtVertb schedulerAtLineStart
  split
  · split <;> rfl
  · split <;> rfl

theorem RefreshKept.clock {ctx : RigelContext} (h : RefreshKept ctx.agnus) :
    RefreshKept (agnusSlotSchedulerStep ctx).agnus := by
  have hready : RefreshKept (schedulerRestoreDsken (schedulerPrepare ctx)).agnus := by
    unfold schedulerRestoreDsken
    split
    · exact h
    · exact h
  have hslot : RefreshKept (schedulerDispatch (schedulerPrepare ctx)).agnus := hready.slot (dispatchSlot_cases _ _ _)
  unfold RefreshKept agnusSlotSchedulerStep
  rw [schedulerAdvance_refresh]
  exact hslot

theorem refreshKept_invariant : AgnusInvariant RefreshKept where
  reset _ := rfl
  write h hw := h.write hw
  latch h := h
  sync h := h
  clock h := h.clock
  cycleExact _ h := h

/-- **A clock at a refresh slot grants it to the refresh unless the fetch takes it**: no transfer of the disk, blitter or
copper does. -/
theorem refreshGranted_iff {ctx : RigelContext} (hok : AgnusOk ctx.agnus) (hkept : RefreshKept ctx.agnus)
    (hi : ctx.agnus.beam.hpos.toNat ∈ refreshPositions) :
    dispatchedOwner ctx = .refresh ↔
      ¬ FetchTakes (liveInputs ctx.agnus) ctx.agnus.beam.vpos ctx.agnus.beam.hpos.toNat := by
  have hslot := @refreshSlot_iff (liveInputs ctx.agnus) ctx.agnus.beam.vpos ctx.agnus.refresh _ hkept hi
  rw [← hslot, dispatchedOwner_iff hok SlotOwner.noConfusion SlotOwner.noConfusion SlotOwner.noConfusion]
  have hentry : liveEntry ctx =
      (buildSlotTables (liveInputs ctx.agnus) ctx.agnus.beam.vpos ctx.agnus.refresh).owner ctx.agnus.beam.hpos.toNat := by
    rw [liveEntry, hposSlot hok]
    rfl
  rw [← hentry, slotEntry]
  cases hd : diskWantsSlot ctx with
  | true =>
    simp only [diskWantsSlot, Bool.and_eq_true, bne_iff_ne] at hd
    exact iff_of_false SlotOwner.noConfusion hd.1.1.1
  | false => exact Iff.rfl

/-- The clock at a refresh slot grants it to the refresh. -/
def RefreshGranted (ctx : RigelContext) (e : LineEvent) : Prop :=
  e.IsClock → ctx.agnus.beam.hpos.toNat ∈ refreshPositions → dispatchedOwner ctx = .refresh

/-- The fetch of this line takes no refresh slot that a clock stands at. -/
def RefreshUntaken (ctx : RigelContext) (e : LineEvent) : Prop :=
  e.IsClock → ctx.agnus.beam.hpos.toNat ∈ refreshPositions →
    ¬ FetchTakes (liveInputs ctx.agnus) ctx.agnus.beam.vpos ctx.agnus.beam.hpos.toNat

/-- **Refresh slots.** A rebuild after a write to DDFSTRT or DDFSTOP leaves all three to the refresh exactly when the fetch
passes them by; and in every run each clock at one of them grants it to the refresh exactly when at each the fetch of the
line leaves it free. -/
theorem refreshSlots_iff (s : SlotScheduler) (ddfstrt ddfstop vpos : UInt16) (refresh : RefreshDmaState)
    (ctx : RigelContext) (es : List LineEvent) :
    (refresh.slotHpos = refreshDmaReset.slotHpos →
      ((∀ i ∈ refreshPositions,
          (agnusSlotSchedulerRebuild (agnusSlotSchedulerSetDdf s ddfstrt ddfstop) vpos refresh).table i = .refresh) ↔
        RefreshSpared (slotInputs (agnusSlotSchedulerSetDdf s ddfstrt ddfstop)) vpos)) ∧
    (BusReachable ctx → (AlongRun lineEvent RefreshGranted ctx es ↔ AlongRun lineEvent RefreshUntaken ctx es)) := by
  constructor
  · intro hr
    rw [← refreshSpared_iff (setDdf_four s ddfstrt ddfstop)]
    exact forall₂_congr fun i hi => refreshSlot_iff hr hi
  · intro h
    refine alongRun_iff_of (fun s => AgnusOk s.agnus ∧ RefreshKept s.agnus) (fun s e hs _ => ?_) (fun s e hs _ _ => ?_)
      es ctx ⟨h.agnusOk, refreshKept_invariant.busReachable h⟩ (alongRun_true es ctx)
    · exact forall₂_congr fun _ hi => refreshGranted_iff hs.1 hs.2 hi
    · exact ⟨lineEvent_ok hs.1 e, refreshKept_invariant.lineEvent hs.2 e⟩

instance (ctx : RigelContext) (e : LineEvent) : Decidable (RefreshUntaken ctx e) := by
  unfold RefreshUntaken
  infer_instance

/-- Six planes from `$38` on, and the first clocks of a machine without DMA. -/
theorem refreshSlots_spared :
    (∀ i ∈ refreshPositions, (agnusSlotSchedulerRebuild (agnusSlotSchedulerSetDdf
        { palMachine.agnus.scheduler with dmacon := 0x0300, depth := 6 } 0x38 0xD0) 26 refreshDmaReset).table i = .refresh) ∧
      AlongRun lineEvent RefreshGranted palMachine (List.replicate 6 (.bus .clock)) := by
  obtain ⟨htable, hrun⟩ := refreshSlots_iff { palMachine.agnus.scheduler with dmacon := 0x0300, depth := 6 } 0x38 0xD0 26
    refreshDmaReset palMachine (List.replicate 6 (.bus .clock))
  exact ⟨(htable rfl).mpr (.inr (.inr (.inl (by decide +kernel)))),
    (hrun (.ofHost palMachine_reachable)).mpr (by decide +kernel)⟩

/-- Two lores planes from the first slot on. -/
def firstSlotSetup : List HostCall := [.customWrite 0x100 0x2200, .customWrite 0x092 0x0000, .customWrite 0x094 0x00D0]

/-- The fourth clock of line 26 of that display. -/
def refreshLost : RigelContext := agnusSlotSchedulerStepUntil (line26 firstSlotSetup 0x8300) 3

theorem firstSlotSetup_waiting : Waiting (firstSlotSetup.foldl hostCall palMachine) := setup_waiting (by decide +kernel)

theorem refreshLost_at :
    DiskOff refreshLost ∧ refreshLost.agnus.beam.hpos.toNat = 3 ∧ refreshLost.agnus.beam.vpos = 26 ∧
      liveInputs refreshLost.agnus = ⟨0x0300, 0, 0xD0, 2, false, 26⟩ := by
  have hat := line26_at firstSlotSetup 0x8300 firstSlotSetup_waiting
  have hoff := line26_diskOff firstSlotSetup_waiting (by decide +kernel)
  obtain ⟨hlater, hsame, -⟩ := hoff.clocks 3
  have hbegins := (line26_reachable firstSlotSetup 0x8300).lineBegins hat.hpos
  have hundisturbed := (hoff.steady 3).imp fun _ _ he => he.undisturbed
  obtain ⟨-, ⟨hhpos, hvpos⟩, -⟩ := hbegins.run _ hundisturbed (by rw [clocksIn_replicate]; decide)
  rw [lineEvent_clocks, clocksIn_replicate] at hhpos
  rw [lineEvent_clocks, hat.vpos] at hvpos
  have hinputs := hat.tableInputs hsame
  have hin : slotInputs (firstSlotSetup.foldl hostCall palMachine).agnus.scheduler = ⟨0, 0, 0xD0, 2, false, 26⟩ := by
    decide +kernel
  rw [hin] at hinputs
  exact ⟨hlater, hhpos, hvpos, hinputs⟩

/-- The second of the three slots goes to the second plane. -/
theorem refreshSlots_lost :
    BusReachable refreshLost ∧ refreshLost.agnus.beam.hpos.toNat = 3 ∧ dispatchedOwner refreshLost = .bitplane ∧
      ¬ RefreshGranted refreshLost (.bus .clock) := by
  obtain ⟨hoff, hhpos, hvpos, hinputs⟩ := refreshLost_at
  have hentry : liveEntry refreshLost = .bitplane := by
    have htakes : FetchTakes (liveInputs refreshLost.agnus) refreshLost.agnus.beam.vpos 3 := by
      rw [hinputs, hvpos]
      decide
    rw [liveEntry, hposSlot hoff.ok, hhpos]
    exact (buildSlotTables_takes _ (by decide)).mpr htakes
  have howner : dispatchedOwner refreshLost = .bitplane := by
    rw [dispatchedBitplane_iff hoff.ok, bitplaneServed, hentry, hoff.wants]
    rfl
  refine ⟨(line26_reachable firstSlotSetup 0x8300).clocks 3, hhpos, howner, fun h => ?_⟩
  have hpositions : refreshLost.agnus.beam.hpos.toNat ∈ refreshPositions := by
    rw [hhpos]
    decide
  cases howner.symm.trans (h trivial hpositions)

end Rigel
