import Rigel.Clock
import Rigel.Invariant

/-!
# DeadlineProgress — when a deadline lies in the future

A deadline is the time plus the least of seven estimates, so one estimate of zero is enough to stall a host that runs
its CPU until the deadline. Four of the seven are never zero in a reachable state; the other three are zero exactly
when the event they wait for is already there.
-/

namespace Rigel

/-! ## The minimum -/

theorem minDeadline_pos (m d : UInt32) : 0 < minDeadline m d ↔ 0 < m ∧ 0 < d := by
  unfold minDeadline
  split
  · rename_i h
    exact ⟨fun hd => ⟨UInt32.lt_trans hd h, hd⟩, fun hd => hd.2⟩
  · rename_i h
    exact ⟨fun hm => ⟨hm, UInt32.lt_of_lt_of_le hm (UInt32.not_lt.mp h)⟩, fun hm => hm.1⟩

theorem minDeadline_le (m d : UInt32) : minDeadline m d ≤ m ∧ minDeadline m d ≤ d := by
  unfold minDeadline
  split
  · rename_i h
    exact ⟨UInt32.le_of_lt h, UInt32.le_refl d⟩
  · rename_i h
    exact ⟨UInt32.le_refl m, UInt32.not_lt.mp h⟩

theorem foldl_minDeadline_pos : ∀ (l : List UInt32) (m : UInt32),
    0 < l.foldl minDeadline m ↔ 0 < m ∧ ∀ d ∈ l, 0 < d
  | [], m => by simp
  | d :: l, m => by
    rw [List.foldl_cons, foldl_minDeadline_pos l, minDeadline_pos, and_assoc, List.forall_mem_cons]

theorem foldl_minDeadline_le : ∀ (l : List UInt32) (m : UInt32),
    l.foldl minDeadline m ≤ m ∧ ∀ d ∈ l, l.foldl minDeadline m ≤ d
  | [], m => by simp
  | d :: l, m => by
    obtain ⟨hm, hl⟩ := foldl_minDeadline_le l (minDeadline m d)
    obtain ⟨h1, h2⟩ := minDeadline_le m d
    rw [List.foldl_cons]
    refine ⟨UInt32.le_trans hm h1, ?_⟩
    intro e he
    rcases List.mem_cons.mp he with rfl | he
    · exact UInt32.le_trans hm h2
    · exact hl e he

/-! ## The estimates that are never zero -/

theorem lineEndDeadline_eq {b : BeamState} (h : BeamOk b) : (lineEndDeadline b).toNat = 227 - b.hpos.toNat := by
  have hpos : b.hpos.toNat < 227 := UInt16.lt_iff_toNat_lt.mp h.hpos
  have hend : beamCyclesUntilLineEnd b = 227 - b.hpos := by
    simp [beamCyclesUntilLineEnd, beamLineHmax, h.lineClocks, h.lol]
  have hnat : (227 - b.hpos).toNat = 227 - b.hpos.toNat :=
    UInt16.toNat_sub_of_le _ _ (UInt16.le_iff_toNat_le.mpr (by simpa using Nat.le_of_lt hpos))
  have hne : (227 : UInt16) - b.hpos ≠ 0 := by
    intro e
    rw [e] at hnat
    simp only [UInt16.reduceToNat] at hnat
    omega
  rw [lineEndDeadline, hend, if_neg hne, UInt16.toNat_toUInt32, hnat]

theorem audioChannelNext_pos (ch : AudioChannel) : 0 < audioChannelNext ch := by
  unfold audioChannelNext
  repeat' split
  · rename_i h
    rw [UInt32.lt_iff_toNat_lt, UInt16.toNat_toUInt32]
    have : ch.audper.toNat ≠ 0 := fun e => h (UInt16.toNat_inj.mp e)
    simp only [UInt32.reduceToNat]
    omega
  · decide
  · rename_i h
    rw [UInt32.lt_iff_toNat_lt, UInt16.toNat_toUInt32]
    have : ch.periodCounter.toNat ≠ 0 := fun e => h (UInt16.toNat_inj.mp e)
    simp only [UInt32.reduceToNat]
    omega

theorem audioCyclesToNextEvent_pos (a : AudioState) : 0 < audioCyclesToNextEvent a := by
  have hfold : ∀ (l : List Nat) (m : UInt32), 0 < m → 0 < l.foldl
      (fun m i => if audioChannelPending a i ∧ audioChannelNext (a.ch i) < m then audioChannelNext (a.ch i) else m) m := by
    intro l
    induction l with
    | nil => exact fun m h => h
    | cons i l ih =>
      intro m h
      rw [List.foldl_cons]
      apply ih
      split
      · exact audioChannelNext_pos _
      · exact h
  exact hfold _ _ (by decide)

theorem diskCyclesToNextEvent_pos (d : DiskState) : 0 < diskCyclesToNextEvent d := by
  unfold diskCyclesToNextEvent
  split
  · rename_i h
    exact h.2.1
  · decide

theorem slotSearch_bounds {p : SlotOwner → Bool} {table : Nat → SlotOwner} :
    ∀ (n h k : Nat), slotSearch p table n h = some k → h ≤ k ∧ k < h + n
  | 0, _, _, hs => by cases hs
  | n + 1, h, k, hs => by
    unfold slotSearch at hs
    split at hs
    · cases hs
      omega
    · obtain ⟨h1, h2⟩ := slotSearch_bounds n (h + 1) k hs
      omega

theorem cyclesToSlot_pos (p : SlotOwner → Bool) {s : SlotScheduler} (h : s.hpos < 227) :
    0 < cyclesToSlot p s 227 := by
  have hpos : s.hpos.toNat < 227 := UInt16.lt_iff_toNat_lt.mp h
  have hstart : (s.hpos + 1).toNat = s.hpos.toNat + 1 := by
    rw [UInt16.toNat_add]
    exact Nat.mod_eq_of_lt (by simp only [UInt16.reduceToNat]; omega)
  unfold cyclesToSlot
  simp only [hstart]
  split
  · rename_i k hk
    obtain ⟨h1, h2⟩ := slotSearch_bounds _ _ _ hk
    simp only [UInt16.reduceToNat] at h2
    have hk32 : (UInt32.ofNat k).toNat = k := by
      rw [UInt32.toNat_ofNat']
      exact Nat.mod_eq_of_lt (by omega)
    rw [UInt32.lt_iff_toNat_lt, UInt32.toNat_sub_of_le _ _ (by
      rw [UInt32.le_iff_toNat_le, hk32, UInt16.toNat_toUInt32]; omega), hk32, UInt16.toNat_toUInt32]
    simp only [UInt32.reduceToNat]
    omega
  · rw [UInt32.lt_iff_toNat_lt, UInt32.toNat_sub_of_le _ _ (by
      rw [UInt32.le_iff_toNat_le, UInt16.toNat_toUInt32]; simp; omega), UInt16.toNat_toUInt32]
    simp
    omega

theorem slotDeadline_pos {a : RigelAgnus} (h : AgnusOk a) :
    0 < agnusSlotSchedulerNextEvent a.scheduler a.beam.lineClocks := by
  unfold agnusSlotSchedulerNextEvent
  split
  · decide
  · rw [h.beam.lineClocks]
    exact cyclesToSlot_pos _ (h.follow ▸ h.beam.hpos)

/-! ## The estimates that wait for one event -/

theorem clockIndex_toNat {v h : UInt16} (hv : v.toNat ≤ 312) (hh : h.toNat ≤ 254) :
    (v.toUInt32 * (227 : UInt16).toUInt32 + h.toUInt32).toNat = v.toNat * 227 + h.toNat := by
  rw [UInt32.toNat_add, UInt32.toNat_mul, UInt16.toNat_toUInt32, UInt16.toNat_toUInt32, UInt16.toNat_toUInt32]
  simp only [UInt16.reduceToNat]
  omega

theorem agnusCyclesToVertb_pos {b : BeamState} (h : BeamOk b) :
    0 < agnusCyclesToVertb b ↔ agnusIsVertbPosition b.hpos b.vpos = false := by
  cases hv : agnusIsVertbPosition b.hpos b.vpos with
  | true =>
    unfold agnusCyclesToVertb
    simp [hv]
  | false =>
    refine ⟨fun _ => rfl, fun _ => ?_⟩
    rw [UInt32.lt_iff_toNat_lt, h.cyclesToVertb hv]
    exact Nat.succ_pos _

/-- The beam word of the full mask: the line's low byte, and the clock without its lowest bit. -/
theorem copperBeamWord_toNat (vpos hpos : UInt16) :
    (copperBeamWord vpos hpos 0xFF 0xFE).toNat = 256 * (vpos.toNat % 256) + (hpos &&& 0xFE &&& 0xFE).toNat := by
  have hv : (vpos &&& 0xFF).toNat = vpos.toNat % 256 := by
    rw [UInt16.toNat_and]
    exact Nat.and_two_pow_sub_one_eq_mod vpos.toNat 8
  have hlow : (hpos &&& 0xFE &&& 0xFE).toNat < 256 := by
    rw [UInt16.toNat_and]
    exact Nat.lt_of_le_of_lt Nat.and_le_right (by decide)
  have hhigh : ((vpos &&& 0xFF) <<< (8 : UInt16)).toNat = (vpos.toNat % 256) <<< 8 := by
    rw [UInt16.toNat_shiftLeft, hv]
    have hlt : vpos.toNat % 256 < 256 := Nat.mod_lt _ (by decide)
    simp only [UInt16.reduceToNat, Nat.shiftLeft_eq, Nat.reduceMod]
    omega
  unfold copperBeamWord
  rw [UInt16.toNat_or, hhigh, ← Nat.shiftLeft_add_eq_or_of_lt hlow, Nat.shiftLeft_eq, Nat.mul_comm]

theorem copperBeamWord_bounds (vpos hpos : UInt16) :
    256 * (vpos.toNat % 256) ≤ (copperBeamWord vpos hpos 0xFF 0xFE).toNat ∧
      (copperBeamWord vpos hpos 0xFF 0xFE).toNat < 256 * (vpos.toNat % 256) + 256 := by
  have hlow : (hpos &&& 0xFE &&& 0xFE).toNat < 256 := by
    rw [UInt16.toNat_and]
    exact Nat.lt_of_le_of_lt Nat.and_le_right (by decide)
  have hword := copperBeamWord_toNat vpos hpos
  omega

theorem copperWaitReached_of_line {c : CopperState} {beam : BeamState} (hv : c.waitVpmask = 0xFF)
    (hh : c.waitHpmask = 0xFE) (hlt : c.waitVpos.toNat % 256 < beam.vpos.toNat % 256) :
    copperWaitReached c beam = true := by
  have h1 := copperBeamWord_bounds beam.vpos beam.hpos
  have h2 := copperBeamWord_bounds c.waitVpos c.waitHpos
  simp only [copperWaitReached, copperBeamCmp, hv, hh, ge_iff_le, decide_eq_true_eq, UInt16.le_iff_toNat_le]
  omega

/-- A distance of zero over the frame's end would put the position whole frames behind the beam. -/
theorem wrapDistance_pos {frame v h wv wh : Nat} (hf : frame = 262 * 227 ∨ frame = 312 * 227)
    (hle : wv * 227 + wh ≤ v * 227 + h) (hh : h < 227) (hv : v ≤ 312) (hwh : wh ≤ 254)
    (hline : ¬ wv % 256 < v % 256) :
    0 < ((2 ^ 32 - (v * 227 + h) + frame) % 2 ^ 32 + (wv * 227 + wh)) % 2 ^ 32 := by
  by_cases hin : v * 227 + h ≤ frame
  · have h1 : (2 ^ 32 - (v * 227 + h) + frame) % 2 ^ 32 = frame - (v * 227 + h) := by omega
    rw [h1, Nat.mod_eq_of_lt (by omega)]
    omega
  · have h1 : (2 ^ 32 - (v * 227 + h) + frame) % 2 ^ 32 = 2 ^ 32 - (v * 227 + h) + frame := by omega
    rw [h1]
    by_cases hz : wv * 227 + wh + frame = v * 227 + h
    · exact absurd (by omega : wv % 256 < v % 256) hline
    · omega

theorem copperWaitDeadline_pos {a : RigelAgnus} (h : AgnusOk a) :
    0 < rigelCopperDomainCyclesToWait a.copper a.beam ↔
      ¬ (a.copper.waiting = true ∧ copperWaitReached a.copper a.beam = true) := by
  unfold rigelCopperDomainCyclesToWait
  by_cases hw : a.copper.waiting = true
  · by_cases hr : copperWaitReached a.copper a.beam = true
    · simp [hw, hr]
    · simp only [hw, hr, Bool.not_true, Bool.false_eq_true, if_false, and_false, not_false_eq_true, iff_true]
      have hpos : a.beam.hpos.toNat < 227 := UInt16.lt_iff_toNat_lt.mp h.beam.hpos
      have hvpos : a.beam.vpos.toNat ≤ 312 := UInt16.le_iff_toNat_le.mp h.beam.vpos
      have hwv : a.copper.waitVpos.toNat ≤ 255 := UInt16.le_iff_toNat_le.mp h.waitVpos
      have hwh : a.copper.waitHpos.toNat ≤ 254 := UInt16.le_iff_toNat_le.mp h.waitHpos
      rw [h.beam.lineClocks]
      split
      · rename_i hmask
        have hline : ¬ a.copper.waitVpos.toNat % 256 < a.beam.vpos.toNat % 256 :=
          fun hlt => hr (copperWaitReached_of_line hmask.1 hmask.2 hlt)
        rw [UInt32.lt_iff_toNat_lt]
        split
        · rename_i hgt
          have hgt' := UInt32.lt_iff_toNat_lt.mp hgt
          rw [UInt32.toNat_sub_of_le _ _ (UInt32.le_of_lt hgt)]
          simp only [UInt32.reduceToNat]
          omega
        · rename_i hle
          rw [gt_iff_lt, UInt32.not_lt, UInt32.le_iff_toNat_le] at hle
          have hcur := clockIndex_toNat hvpos (Nat.le_trans (Nat.le_of_lt hpos) (by decide : 227 ≤ 254))
          have htgt := clockIndex_toNat (Nat.le_trans hwv (by decide : 255 ≤ 312)) hwh
          have hframe : (a.beam.frameLines.toUInt32 * (227 : UInt16).toUInt32).toNat = 262 * 227 ∨
              (a.beam.frameLines.toUInt32 * (227 : UInt16).toUInt32).toNat = 312 * 227 := by
            rcases h.beam.frameLines with hf | hf
            · exact Or.inl (by rw [hf]; rfl)
            · exact Or.inr (by rw [hf]; rfl)
          rw [hcur, htgt] at hle
          rw [UInt32.toNat_add, UInt32.toNat_sub, hcur, htgt]
          exact wrapDistance_pos hframe hle hpos hvpos hwh hline
      · rw [UInt32.lt_iff_toNat_lt, UInt32.toNat_sub_of_le]
        · simp only [UInt16.toNat_toUInt32, UInt16.reduceToNat, UInt32.reduceToNat]
          omega
        · rw [UInt32.le_iff_toNat_le]
          simp only [UInt16.toNat_toUInt32, UInt16.reduceToNat]
          omega
  · rw [if_pos (by simp [hw])]
    exact ⟨fun _ hand => hw hand.1, fun _ => by decide⟩

/-! ## The deadline -/

/-- No estimate is due already: the beam is not on the VERTB position, the copper does not wait for a position that it
has reached, and a busy blitter has slots left on its count. -/
structure NothingDue (ctx : RigelContext) : Prop where
  vertb : agnusIsVertbPosition ctx.agnus.beam.hpos ctx.agnus.beam.vpos = false
  copper : ¬ (ctx.agnus.copper.waiting = true ∧ copperWaitReached ctx.agnus.copper ctx.agnus.beam = true)
  blitter : ¬ (blitterIsBusy ctx.agnus.blitter = true ∧ ctx.agnus.blitter.cyclesRemaining = 0)

theorem blitterDeadline_pos (b : BlitterState) :
    0 < (if blitterIsBusy b then b.cyclesRemaining else agnusDeadlineUnknown) ↔
      ¬ (blitterIsBusy b = true ∧ b.cyclesRemaining = 0) := by
  by_cases hb : blitterIsBusy b = true
  · simp only [hb, if_true, true_and]
    exact ⟨fun h e => absurd (e ▸ h) (by decide), fun h => UInt32.pos_iff_ne_zero.mpr h⟩
  · rw [if_neg hb]
    exact ⟨fun _ hand => hb hand.1, fun _ => by decide⟩

/-- **The least estimate is positive exactly when nothing is due**, with the bus-slot estimate or without it. -/
theorem deadlinesMin_pos_iff {ctx : RigelContext} (h : AgnusOk ctx.agnus) (slots : Bool) :
    0 < agnusDeadlinesMin (contextDeadlines ctx slots) ↔ NothingDue ctx := by
  have hline : 0 < lineEndDeadline ctx.agnus.beam := by
    have hpos : ctx.agnus.beam.hpos.toNat < 227 := UInt16.lt_iff_toNat_lt.mp h.beam.hpos
    rw [UInt32.lt_iff_toNat_lt, lineEndDeadline_eq h.beam]
    simp only [UInt32.reduceToNat]
    omega
  have hslot : 0 < (contextDeadlines ctx slots).slot := by
    cases slots with
    | true => exact slotDeadline_pos h
    | false => show 0 < agnusDeadlineUnknown; decide
  unfold agnusDeadlinesMin
  rw [foldl_minDeadline_pos]
  simp only [List.forall_mem_cons, List.not_mem_nil, false_imp_iff, implies_true, and_true]
  constructor
  · rintro ⟨-, hb, -, hv, hc, -⟩
    exact ⟨(agnusCyclesToVertb_pos h.beam).mp hv, (copperWaitDeadline_pos h).mp hc, (blitterDeadline_pos _).mp hb⟩
  · intro hn
    exact ⟨by decide, (blitterDeadline_pos _).mpr hn.blitter, hline, (agnusCyclesToVertb_pos h.beam).mpr hn.vertb,
      (copperWaitDeadline_pos h).mpr hn.copper, audioCyclesToNextEvent_pos _, diskCyclesToNextEvent_pos _, hslot⟩

/-- No deadline is more than a line away. -/
theorem deadlinesMin_le_line {ctx : RigelContext} (h : AgnusOk ctx.agnus) (slots : Bool) :
    (agnusDeadlinesMin (contextDeadlines ctx slots)).toNat ≤ 227 := by
  have hle : agnusDeadlinesMin (contextDeadlines ctx slots) ≤ lineEndDeadline ctx.agnus.beam :=
    (foldl_minDeadline_le _ _).2 _ (by simp [contextDeadlines])
  have hnat := UInt32.le_iff_toNat_le.mp hle
  rw [lineEndDeadline_eq h.beam] at hnat
  omega

theorem rigelGetDeadline_toNat {ctx : RigelContext} (h : AgnusOk ctx.agnus) (htime : ctx.cycles.toNat + 227 < 2 ^ 64)
    (slots : Bool) :
    (rigelGetDeadline ctx slots).toNat =
      ctx.cycles.toNat + (agnusDeadlinesMin (contextDeadlines ctx slots)).toNat := by
  have hle := deadlinesMin_le_line h slots
  rw [rigelGetDeadline, UInt64.toNat_add, UInt32.toNat_toUInt64]
  exact Nat.mod_eq_of_lt (by omega)

theorem nothingDue_of_deadline {ctx : RigelContext} (h : AgnusOk ctx.agnus) {slots : Bool}
    (hlt : rigelGetTime ctx < rigelGetDeadline ctx slots) : NothingDue ctx := by
  apply (deadlinesMin_pos_iff h slots).mp
  apply UInt32.pos_iff_ne_zero.mpr
  intro e
  rw [rigelGetDeadline, e] at hlt
  simp [rigelGetTime] at hlt

theorem deadline_of_nothingDue {ctx : RigelContext} (h : AgnusOk ctx.agnus) (hn : NothingDue ctx)
    (htime : ctx.cycles.toNat + 227 < 2 ^ 64) (slots : Bool) :
    rigelGetTime ctx < rigelGetDeadline ctx slots ∧
      rigelGetTime (rigelStepUntil ctx (rigelGetDeadline ctx slots)).1 = rigelGetDeadline ctx slots := by
  have hpos := UInt32.lt_iff_toNat_lt.mp ((deadlinesMin_pos_iff h slots).mpr hn)
  have hle := deadlinesMin_le_line h slots
  have hd := rigelGetDeadline_toNat h htime slots
  simp only [UInt32.reduceToNat] at hpos
  have hlt : ctx.cycles < rigelGetDeadline ctx slots := by
    rw [UInt64.lt_iff_toNat_lt]
    omega
  refine ⟨hlt, ?_⟩
  have hsub : (rigelGetDeadline ctx slots - ctx.cycles).toNat < 2 ^ 32 := by
    rw [UInt64.toNat_sub_of_le _ _ (UInt64.le_of_lt hlt)]
    omega
  have hreach := (stepUntil_reaches_iff ctx (rigelGetDeadline ctx slots)).mpr (Or.inr hsub)
  rw [rigelGetTime, rigelGetTime, max_eq_left (UInt64.le_iff_toNat_le.mp (UInt64.le_of_lt hlt))] at hreach
  exact UInt64.toNat_inj.mp hreach

/-- **Deadline progress.** In a reachable state with nothing due (and the time more than a line away from `2^64`) both
deadlines lie in the future and the host's step reaches them; and a deadline lies in the future only if nothing is
due. -/
theorem deadline_progress_iff {ctx : RigelContext} (h : Reachable ctx) :
    (NothingDue ctx → ctx.cycles.toNat + 227 < 2 ^ 64 →
      (rigelGetTime ctx < rigelGetNextDeadline ctx ∧ rigelGetTime ctx < rigelGetNextObservableDeadline ctx) ∧
      rigelGetTime (rigelStepUntil ctx (rigelGetNextDeadline ctx)).1 = rigelGetNextDeadline ctx ∧
      rigelGetTime (rigelStepUntil ctx (rigelGetNextObservableDeadline ctx)).1 = rigelGetNextObservableDeadline ctx) ∧
    (rigelGetTime ctx < rigelGetNextDeadline ctx ∧ rigelGetTime ctx < rigelGetNextObservableDeadline ctx →
      NothingDue ctx) := by
  have hok := h.agnusOk
  constructor
  · intro hn htime
    obtain ⟨h1, h2⟩ := deadline_of_nothingDue hok hn htime true
    obtain ⟨h3, h4⟩ := deadline_of_nothingDue hok hn htime false
    exact ⟨⟨h1, h3⟩, h2, h4⟩
  · rintro ⟨h1, -⟩
    exact nothingDue_of_deadline hok h1

/-- A created machine has a deadline ahead of it and reaches it. -/
theorem deadline_progress_created :
    rigelGetTime palMachine < rigelGetNextDeadline palMachine ∧
      rigelGetTime (rigelStepUntil palMachine (rigelGetNextDeadline palMachine)).1 =
        rigelGetNextDeadline palMachine := by
  obtain ⟨⟨h1, -⟩, h2, -⟩ := (deadline_progress_iff palMachine_reachable).1
    ⟨by decide +kernel, by decide +kernel, by decide +kernel⟩ (by decide +kernel)
  exact ⟨h1, h2⟩

/-- One clock later the beam is on the VERTB position: both deadlines are the time itself, and the host's step to the
deadline does not move it. -/
theorem deadline_stalls_at_vertb :
    Reachable (hostCall palMachine (.step 1)) ∧
      rigelGetNextDeadline (hostCall palMachine (.step 1)) = rigelGetTime (hostCall palMachine (.step 1)) ∧
      rigelGetNextObservableDeadline (hostCall palMachine (.step 1)) = rigelGetTime (hostCall palMachine (.step 1)) ∧
      rigelGetTime (rigelStepUntil (hostCall palMachine (.step 1))
        (rigelGetNextDeadline (hostCall palMachine (.step 1)))).1 = rigelGetTime (hostCall palMachine (.step 1)) := by
  exact ⟨palMachine_reachable.call _, by decide +kernel, by decide +kernel, by decide +kernel⟩

end Rigel
