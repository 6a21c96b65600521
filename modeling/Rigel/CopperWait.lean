import Rigel.CopperExec
import Rigel.Bits
import Rigel.Reach

/-!
# CopperWait — the clock on which a WAIT lets the copper go

`copper_wait_arm` takes eight mask bits from IR2[15:8], and IR2[15] is the blitter-finished-disable bit as well. The
instruction compares the line's bit 7 always, so a WAIT for the blitter, which has BFD clear, leaves that bit out of the
comparison. A run here is any sequence of colour clocks as the domain step sees them: the beam, DMACON and the blitter.
-/

namespace Rigel

/-! ## The first element with a property -/

section First

variable {α : Type*}

/-- `x`, after `pre`, is the first to satisfy `p`. -/
def FirstAt (p : α → Prop) (pre : List α) (x : α) : Prop := p x ∧ ∀ y ∈ pre, ¬ p y

theorem firstAt_nil (p : α → Prop) (x : α) : FirstAt p [] x ↔ p x :=
  ⟨fun h => h.1, fun h => ⟨h, fun _ hy => absurd hy List.not_mem_nil⟩⟩

theorem firstAt_cons (p : α → Prop) (a : α) (pre : List α) (x : α) :
    FirstAt p (a :: pre) x ↔ ¬ p a ∧ FirstAt p pre x := by
  unfold FirstAt
  rw [List.forall_mem_cons]
  exact ⟨fun ⟨hx, ha, hpre⟩ => ⟨ha, hx, hpre⟩, fun ⟨ha, hx, hpre⟩ => ⟨hx, ha, hpre⟩⟩

/-- Two properties have the same first element along a list exactly when they agree on every element before which the
second has not held. -/
theorem firstAt_agree_iff (p q : α → Prop) (xs : List α) :
    (∀ pre x post, xs = pre ++ x :: post → (FirstAt p pre x ↔ FirstAt q pre x)) ↔
      ∀ pre x post, xs = pre ++ x :: post → (∀ y ∈ pre, ¬ q y) → (p x ↔ q x) := by
  induction xs with
  | nil =>
    have hno : ∀ (pre : List α) (x : α) (post : List α), ¬ [] = pre ++ x :: post := by simp
    exact ⟨fun _ pre x post h => absurd h (hno pre x post), fun _ pre x post h => absurd h (hno pre x post)⟩
  | cons a xs ih =>
    constructor
    · intro h pre x post hs hq
      have ha : p a ↔ q a := by simpa [firstAt_nil] using h [] a xs rfl
      cases pre with
      | nil =>
        cases hs
        exact ha
      | cons b pre =>
        obtain ⟨rfl, htail⟩ := List.cons.inj hs
        rw [List.forall_mem_cons] at hq
        refine ih.mp (fun pre' x' post' hs' => ?_) pre x post htail hq.2
        have hstep := h (a :: pre') x' post' (by rw [hs']; rfl)
        rw [firstAt_cons, firstAt_cons] at hstep
        simpa [hq.1, ha] using hstep
    · intro h pre x post hs
      have ha : p a ↔ q a := h [] a xs rfl (fun _ hy => absurd hy List.not_mem_nil)
      cases pre with
      | nil =>
        cases hs
        rw [firstAt_nil, firstAt_nil]
        exact ha
      | cons b pre =>
        obtain ⟨rfl, htail⟩ := List.cons.inj hs
        rw [firstAt_cons, firstAt_cons, ha]
        by_cases hb : q a
        · simp [hb]
        · have hrest := ih.mpr (fun pre' x' post' hs' hq' => h (a :: pre') x' post' (by rw [hs']; rfl)
            (List.forall_mem_cons.mpr ⟨hb, hq'⟩)) pre x post htail
          simp [hb, hrest]

end First

/-! ## A waiting copper over colour clocks -/

/-- What one colour clock shows the copper. -/
structure CopperCck where
  beam : BeamState
  dma : DmaState
  blitterBusy : Bool

def copperCck (c : CopperState) (x : CopperCck) : CopperState :=
  rigelCopperDomainStep c x.beam x.dma x.blitterBusy

def copperRun (c : CopperState) (xs : List CopperCck) : CopperState := xs.foldl copperCck c

/-- The copper waits through `pre` and no longer after the clock `x`. -/
def LeavesWait (c : CopperState) (pre : List CopperCck) (x : CopperCck) : Prop :=
  (copperRun c pre).waiting = true ∧ (copperRun c (pre ++ [x])).waiting = false

/-- IR2's blitter-finished-disable bit. -/
def waitBfd (ir2 : UInt16) : Bool := ir2 &&& 0x8000 != 0

/-- The line mask below bit 7, IR2[14:8]. -/
def waitLineMask (ir2 : UInt16) : UInt16 := (ir2 >>> 8) &&& 0x7F

/-- The WAIT (`ir1`, `ir2`) with the line compared under `vpmask`. -/
def waitHolds (ir1 ir2 vpmask : UInt16) (x : CopperCck) : Bool :=
  (waitBfd ir2 || !x.blitterBusy) &&
    copperBeamCmp x.beam.vpos x.beam.hpos ((ir1 >>> 8) &&& 0xFF) (ir1 &&& 0xFE) vpmask (ir2 &&& 0xFE)

/-- The instruction: bit 7 of the line is always compared, the bits below it under IR2[14:8]. -/
def waitHoldsTop (ir1 ir2 : UInt16) (x : CopperCck) : Prop :=
  waitHolds ir1 ir2 (waitLineMask ir2 ||| 0x80) x = true

/-- The armed comparison: all eight bits under IR2[15:8]. -/
def waitHoldsArmed (ir1 ir2 : UInt16) (x : CopperCck) : Prop :=
  waitHolds ir1 ir2 ((ir2 >>> 8) &&& 0xFF) x = true

structure WaitArmed (ir1 ir2 : UInt16) (c : CopperState) : Prop where
  waiting : c.waiting = true
  vpos : c.waitVpos = (ir1 >>> 8) &&& 0xFF
  hpos : c.waitHpos = ir1 &&& 0xFE
  vpmask : c.waitVpmask = (ir2 >>> 8) &&& 0xFF
  hpmask : c.waitHpmask = ir2 &&& 0xFE
  blitter : c.waitBlitter = !waitBfd ir2

theorem waitArmed_arm (c : CopperState) (ir1 ir2 : UInt16) : WaitArmed ir1 ir2 (copperWaitArm c ir1 ir2) := by
  refine ⟨rfl, rfl, rfl, rfl, rfl, ?_⟩
  show (ir2 &&& 0x8000 == 0) = !(ir2 &&& 0x8000 != 0)
  rw [bne, Bool.not_not]

variable {ir1 ir2 : UInt16} {c : CopperState}

/-- **The release of an armed WAIT** is its armed comparison. -/
theorem WaitArmed.releases (h : WaitArmed ir1 ir2 c) {x : CopperCck} (hon : dmaconCopenOn x.dma.dmacon = true) :
    copperReleases c x.beam x.dma x.blitterBusy = true ↔ waitHoldsArmed ir1 ir2 x := by
  unfold copperReleases copperWaitReached waitHoldsArmed waitHolds
  rw [h.waiting, h.vpos, h.hpos, h.vpmask, h.hpmask, h.blitter, hon, Bool.true_and, Bool.true_and, Bool.not_and,
    Bool.not_not]

theorem WaitArmed.cck (h : WaitArmed ir1 ir2 c) {x : CopperCck} (hon : dmaconCopenOn x.dma.dmacon = true)
    (hno : ¬ waitHoldsArmed ir1 ir2 x) : WaitArmed ir1 ir2 (copperCck c x) := by
  have hrel : copperReleases c x.beam x.dma x.blitterBusy = false := by
    rw [← Bool.not_eq_true, h.releases hon]
    exact hno
  unfold copperCck rigelCopperDomainStep
  rw [hrel]
  exact ⟨(Bool.and_true _).trans h.waiting, h.vpos, h.hpos, h.vpmask, h.hpmask, (Bool.and_true _).trans h.blitter⟩

theorem WaitArmed.leaves (h : WaitArmed ir1 ir2 c) {x : CopperCck} (hon : dmaconCopenOn x.dma.dmacon = true)
    (hx : waitHoldsArmed ir1 ir2 x) : (copperCck c x).waiting = false := by
  unfold copperCck rigelCopperDomainStep
  rw [(h.releases hon).mpr hx]
  exact Bool.and_false _

theorem copperRun_idle (xs : List CopperCck) : ∀ {c : CopperState}, c.waiting = false → (copperRun c xs).waiting = false := by
  induction xs with
  | nil => exact fun hc => hc
  | cons x xs ih =>
    intro c hc
    refine ih (c := copperCck c x) ?_
    unfold copperCck rigelCopperDomainStep
    rw [hc]
    rfl

/-- A WAIT is over after a run exactly when its armed comparison held on some clock of it. -/
theorem WaitArmed.run_iff (xs : List CopperCck) : ∀ {c : CopperState}, WaitArmed ir1 ir2 c →
    (∀ x ∈ xs, dmaconCopenOn x.dma.dmacon = true) →
      ((copperRun c xs).waiting = true ↔ ∀ x ∈ xs, ¬ waitHoldsArmed ir1 ir2 x) := by
  induction xs with
  | nil => exact fun h _ => ⟨fun _ _ hx => absurd hx List.not_mem_nil, fun _ => h.waiting⟩
  | cons x xs ih =>
    intro c h hon
    rw [List.forall_mem_cons] at hon ⊢
    show (copperRun (copperCck c x) xs).waiting = true ↔ _
    by_cases hx : waitHoldsArmed ir1 ir2 x
    · rw [copperRun_idle xs (h.leaves hon.1 hx)]
      exact ⟨fun hw => Bool.noConfusion hw, fun hno => absurd hx hno.1⟩
    · rw [ih (h.cck hon.1 hx) hon.2]
      exact ⟨fun hno => ⟨hx, hno⟩, fun hno => hno.2⟩

theorem WaitArmed.leavesWait_iff (h : WaitArmed ir1 ir2 c) {pre : List CopperCck} {x : CopperCck}
    (hon : ∀ y ∈ pre ++ [x], dmaconCopenOn y.dma.dmacon = true) :
    LeavesWait c pre x ↔ FirstAt (waitHoldsArmed ir1 ir2) pre x := by
  have hpre : ∀ y ∈ pre, dmaconCopenOn y.dma.dmacon = true := fun y hy => hon y (List.mem_append_left _ hy)
  unfold LeavesWait
  rw [← Bool.not_eq_true, WaitArmed.run_iff pre h hpre, WaitArmed.run_iff (pre ++ [x]) h hon]
  simp only [List.forall_mem_append, List.forall_mem_singleton, not_and, not_not]
  exact ⟨fun ⟨hno, hx⟩ => ⟨hx hno, hno⟩, fun ⟨hx, hno⟩ => ⟨hno, fun _ => hx⟩⟩

/-! ## The machine's clocks -/

/-- The next clock of the machine, as the copper sees it. -/
def busCck (ctx : RigelContext) : CopperCck := ⟨ctx.agnus.beam, ctx.agnus.dma, blitterIsBusy ctx.agnus.blitter⟩

theorem schedulerPrepare_cck (ctx : RigelContext) :
    (schedulerPrepare ctx).agnus.copper = copperCck ctx.agnus.copper (busCck ctx) := rfl

/-- Armed by its own slot, so without a pending fetch. -/
structure WaitPending (ir1 ir2 : UInt16) (c : CopperState) : Prop extends WaitArmed ir1 ir2 c where
  fetchPending : c.fetchPending = false

/-- A fetched WAIT arms the copper. -/
theorem copperExecute_wait {ctx : RigelContext} (hfetch : ctx.agnus.copper.fetchPending = false)
    (hinstr : copperDecode ir1 ir2 = .wait ir1 ir2) : WaitPending ir1 ir2 (copperExecute ctx ir1 ir2).agnus.copper := by
  unfold copperDecode at hinstr
  by_cases hmove : ir1 &&& 0x0001 = 0
  · rw [if_neg (not_not_intro hmove)] at hinstr
    cases hinstr
  by_cases hskip : ir2 &&& 0x0001 = 0
  · unfold copperExecute
    simp only
    rw [if_pos hmove, if_neg (not_not_intro hskip)]
    exact ⟨waitArmed_arm _ _ _, hfetch⟩
  · rw [if_pos hmove, if_pos hskip] at hinstr
    cases hinstr

/-- The event neither restarts the copper nor, as a clock, meets the armed comparison. -/
def KeepsWaiting (ir1 ir2 : UInt16) (ctx : RigelContext) : BusEvent → Prop
  | .clock =>
    dmaconCopenOn ctx.agnus.dma.dmacon = true ∧ ¬ waitHoldsArmed ir1 ir2 (busCck ctx) ∧
      vertbRestarts (schedulerDispatch (schedulerPrepare ctx)) = false
  | .write addr _ => addr ≠ 0x088 ∧ addr ≠ 0x08A
  | _ => True

theorem WaitPending.cck (h : WaitPending ir1 ir2 c) {x : CopperCck} (hon : dmaconCopenOn x.dma.dmacon = true)
    (hno : ¬ waitHoldsArmed ir1 ir2 x) : WaitPending ir1 ir2 (copperCck c x) := by
  refine ⟨h.toWaitArmed.cck hon hno, ?_⟩
  have hrel : copperReleases c x.beam x.dma x.blitterBusy = false := by
    rw [← Bool.not_eq_true, h.releases hon]
    exact hno
  unfold copperCck rigelCopperDomainStep
  rw [hrel]
  exact (Bool.or_false _).trans h.fetchPending

/-- No slot moves a copper that has nothing to fetch. -/
theorem schedulerDispatch_waiting {ctx : RigelContext} (h : ctx.agnus.copper.fetchPending = false) :
    (schedulerDispatch ctx).agnus.copper = ctx.agnus.copper := by
  unfold schedulerDispatch
  by_cases hslot : slotOwner ctx = .copper
  · have hidle : copperServiceFetch (schedulerRestoreDsken ctx).agnus.copper = none := by
      rw [schedulerRestoreDsken_copper, copperServiceFetch, h]
      simp
    rw [hslot]
    show (rigelCopperServiceStepProgram (schedulerRestoreDsken ctx)).agnus.copper = _
    rw [copperService_idle hidle, schedulerRestoreDsken_copper]
  · rw [dispatchSlot_copper hslot, schedulerRestoreDsken_copper]

theorem WaitPending.write {a : RigelAgnus} (h : WaitPending ir1 ir2 a.copper) {addr : UInt32} (h1 : addr ≠ 0x088)
    (h2 : addr ≠ 0x08A) (value : UInt16) : WaitPending ir1 ir2 (agnusAfterWrite a addr value).copper := by
  rw [agnusAfterWrite_copper]
  unfold copperWriteReg
  split
  all_goals first
    | contradiction
    | exact ⟨⟨h.waiting, h.vpos, h.hpos, h.vpmask, h.hpmask, h.blitter⟩, h.fetchPending⟩

theorem WaitPending.relatch (h : WaitPending ir1 ir2 c) (latched : Bool) {c' : CopperState}
    (hc : c' = { c with eventLatched := latched }) : WaitPending ir1 ir2 c' := by
  subst hc
  exact ⟨⟨h.waiting, h.vpos, h.hpos, h.vpmask, h.hpmask, h.blitter⟩, h.fetchPending⟩

theorem WaitPending.event (ctx : RigelContext) (e : BusEvent) (h : WaitPending ir1 ir2 ctx.agnus.copper)
    (he : KeepsWaiting ir1 ir2 ctx e) : WaitPending ir1 ir2 (busEvent ctx e).agnus.copper := by
  cases e with
  | clock =>
    have hprep : WaitPending ir1 ir2 (schedulerPrepare ctx).agnus.copper := h.cck (x := busCck ctx) he.1 he.2.1
    show WaitPending ir1 ir2 (schedulerAdvance (schedulerDispatch (schedulerPrepare ctx))).agnus.copper
    rw [schedulerAdvance_copper, he.2.2, schedulerDispatch_waiting hprep.fetchPending]
    exact hprep
  | write addr value =>
    rw [busEvent, customRegsWrite16_agnus]
    exact h.write he.1 he.2 value
  | stepBegin cycles =>
    refine h.relatch false ?_
    unfold busEvent stepPrologue
    simp only
    split <;> rfl
  | stepEnd before cycles =>
    show WaitPending ir1 ir2 (chipsetSettle before ctx cycles).agnus.copper
    rw [(chipsetSettle_frame before ctx cycles).1]
    exact h

/-- **The machine releases an armed WAIT on the clock of its armed comparison**, after any run without a restart in which
the comparison has not held on a clock. -/
theorem busRun_wait (ctx : RigelContext) (es : List BusEvent) (h : WaitPending ir1 ir2 ctx.agnus.copper)
    (hrun : AlongRun busEvent (KeepsWaiting ir1 ir2) ctx es)
    (hon : dmaconCopenOn (es.foldl busEvent ctx).agnus.dma.dmacon = true) :
    (es.foldl busEvent ctx).agnus.copper.waiting = true ∧
      ((schedulerPrepare (es.foldl busEvent ctx)).agnus.copper.waiting = false ↔
        waitHoldsArmed ir1 ir2 (busCck (es.foldl busEvent ctx))) := by
  have hend : WaitPending ir1 ir2 (es.foldl busEvent ctx).agnus.copper :=
    AlongRun.invariant (fun c : RigelContext => WaitPending ir1 ir2 c.agnus.copper) WaitPending.event es ctx h hrun
  refine ⟨hend.waiting, fun hrel => ?_, hend.leaves (x := busCck (es.foldl busEvent ctx)) hon⟩
  by_contra hno
  have hkeep := (hend.cck (x := busCck (es.foldl busEvent ctx)) hon hno).waiting
  rw [← schedulerPrepare_cck, hrel] at hkeep
  exact Bool.noConfusion hkeep

/-! ## Bit 7 of the line -/

/-- The comparison word of a mask of at most eight bits: the line above the clock. -/
theorem copperBeamWord_mask {m : UInt16} (hm : m ≤ 0xFF) (vpos hpos hm' : UInt16) :
    (copperBeamWord vpos hpos m hm').toNat = 256 * (vpos &&& m).toNat + (hpos &&& hm' &&& 0xFE).toNat := by
  have hlow : (hpos &&& hm' &&& 0xFE).toNat < 2 ^ 8 := by
    rw [UInt16.toNat_and]
    exact Nat.lt_of_le_of_lt Nat.and_le_right (by decide)
  have hline : (vpos &&& m).toNat < 256 := by
    rw [UInt16.toNat_and]
    exact Nat.lt_of_le_of_lt Nat.and_le_right (Nat.lt_succ_of_le (UInt16.le_iff_toNat_le.mp hm))
  have hhigh : ((vpos &&& m) <<< (8 : UInt16)).toNat = (vpos &&& m).toNat <<< 8 := by
    have height : (8 : UInt16).toNat % 16 = 8 := rfl
    rw [UInt16.toNat_shiftLeft, height, Nat.shiftLeft_eq]
    exact Nat.mod_eq_of_lt (by omega)
  unfold copperBeamWord
  rw [UInt16.toNat_or, hhigh, ← Nat.shiftLeft_add_eq_or_of_lt hlow, Nat.shiftLeft_eq, Nat.mul_comm]

/-- The line under a mask with bit 7 added is the line under the mask and its bit 7. -/
theorem and_topMask (v ir2 : UInt16) :
    (v &&& (waitLineMask ir2 ||| 0x80)).toNat = 128 * (v.toNat.testBit 7).toNat + (v &&& waitLineMask ir2).toNat := by
  have hlow : (v &&& waitLineMask ir2).toNat < 2 ^ 7 := by
    unfold waitLineMask
    rw [UInt16.toNat_and, UInt16.toNat_and]
    exact Nat.lt_of_le_of_lt Nat.and_le_right (Nat.lt_of_le_of_lt Nat.and_le_right (by decide))
  have htop : v.toNat &&& 2 ^ 7 = 2 ^ 7 * (v.toNat.testBit 7).toNat := by
    rw [Nat.and_two_pow, Nat.mul_comm]
  have hpow : 128 = 2 ^ 7 := rfl
  rw [hpow, Nat.two_pow_add_eq_or_of_lt hlow, ← htop, UInt16.toNat_and, UInt16.toNat_or,
    Nat.and_or_distrib_left, Nat.or_comm, UInt16.toNat_and v]
  rfl

/-- Bit 7 of the beam's line is that of the WAIT's, or the lower bits compare as bit 7 does. -/
def TopBitDecides (ir1 ir2 : UInt16) (beam : BeamState) : Prop :=
  beam.vpos.toNat.testBit 7 = ir1.toNat.testBit 15 ∨
    copperBeamCmp beam.vpos beam.hpos ((ir1 >>> 8) &&& 0xFF) (ir1 &&& 0xFE) (waitLineMask ir2) (ir2 &&& 0xFE) =
      beam.vpos.toNat.testBit 7

theorem waitLine_bit (ir1 : UInt16) : ((ir1 >>> 8) &&& 0xFF).toNat.testBit 7 = ir1.toNat.testBit 15 := by
  rw [UInt16.toNat_and, Nat.testBit_and, uint16_testBit_shiftRight ir1 (k := 8) rfl (by decide)]
  exact Bool.and_true _

/-- A top bit on both sides of a comparison is seen unless it is the same bit or tells what the rest tells. -/
theorem compareTop_iff (b w : Bool) {vb hb vw hw : Nat} (hbeam : 256 * vb + hb < 256 * 128)
    (hwait : 256 * vw + hw < 256 * 128) :
    (decide (256 * vw + hw ≤ 256 * vb + hb) =
        decide (256 * (128 * w.toNat + vw) + hw ≤ 256 * (128 * b.toNat + vb) + hb)) ↔
      b = w ∨ decide (256 * vw + hw ≤ 256 * vb + hb) = b := by
  cases b with
  | false =>
    cases w with
    | false => simp
    | true =>
      have hnot : ¬ 256 * (128 * true.toNat + vw) + hw ≤ 256 * (128 * false.toNat + vb) + hb := by
        simp only [Bool.toNat_true, Bool.toNat_false]
        omega
      simp only [hnot, decide_false, Bool.false_eq_true, false_or]
  | true =>
    cases w with
    | true =>
      have hboth : 256 * (128 * true.toNat + vw) + hw ≤ 256 * (128 * true.toNat + vb) + hb ↔
          256 * vw + hw ≤ 256 * vb + hb := by
        simp only [Bool.toNat_true]
        omega
      simp only [hboth, true_or]
    | false =>
      have hyes : 256 * (128 * false.toNat + vw) + hw ≤ 256 * (128 * true.toNat + vb) + hb := by
        simp only [Bool.toNat_true, Bool.toNat_false]
        omega
      simp only [hyes, decide_true, Bool.true_eq_false, false_or]

/-- **Comparing bit 7 or not**: the two comparisons agree where bit 7 decides nothing that the rest does not. -/
theorem copperBeamCmp_top_iff (ir1 ir2 : UInt16) (beam : BeamState) :
    (copperBeamCmp beam.vpos beam.hpos ((ir1 >>> 8) &&& 0xFF) (ir1 &&& 0xFE) (waitLineMask ir2) (ir2 &&& 0xFE) =
      copperBeamCmp beam.vpos beam.hpos ((ir1 >>> 8) &&& 0xFF) (ir1 &&& 0xFE) (waitLineMask ir2 ||| 0x80)
        (ir2 &&& 0xFE)) ↔ TopBitDecides ir1 ir2 beam := by
  have hm : waitLineMask ir2 ≤ 0x7F := and_le_right_uint16 _ _
  have hmask : waitLineMask ir2 ≤ 0xFF := UInt16.le_trans hm (by decide)
  have hmaskTop : waitLineMask ir2 ||| 0x80 ≤ 0xFF := by
    rw [UInt16.le_iff_toNat_le, UInt16.toNat_or]
    exact Nat.lt_succ_iff.mp (Nat.or_lt_two_pow (n := 8)
      (Nat.lt_of_le_of_lt (UInt16.le_iff_toNat_le.mp hm) (by decide)) (by decide))
  unfold TopBitDecides copperBeamCmp
  rw [← waitLine_bit ir1]
  simp only [ge_iff_le, UInt16.le_iff_toNat_le, copperBeamWord_mask hmask, copperBeamWord_mask hmaskTop, and_topMask]
  have hlow : ∀ v h : UInt16, 256 * (v &&& waitLineMask ir2).toNat + (h &&& (ir2 &&& 0xFE) &&& 0xFE).toNat <
      256 * 128 := by
    intro v h
    have h1 : (v &&& waitLineMask ir2).toNat ≤ 0x7F :=
      UInt16.le_iff_toNat_le.mp (UInt16.le_trans (and_le_right_uint16 _ _) hm)
    have h2 : (h &&& (ir2 &&& 0xFE) &&& 0xFE).toNat ≤ 0xFE := UInt16.le_iff_toNat_le.mp (and_le_right_uint16 _ _)
    omega
  exact compareTop_iff _ _ (hlow beam.vpos beam.hpos) (hlow ((ir1 >>> 8) &&& 0xFF) (ir1 &&& 0xFE))

/-! ## The two comparisons on one clock -/

theorem waitBfd_eq (ir2 : UInt16) : waitBfd ir2 = ir2.toNat.testBit 15 := by
  have hand : (ir2 &&& 0x8000).toNat = (ir2.toNat.testBit 15).toNat * 2 ^ 15 := by
    rw [UInt16.toNat_and]
    exact Nat.and_two_pow ir2.toNat 15
  unfold waitBfd
  rw [Bool.eq_iff_iff, bne_iff_ne, ne_eq, ← UInt16.toNat_inj, hand]
  cases ir2.toNat.testBit 15 <;> simp

theorem waitVpmask_eq (ir2 : UInt16) :
    ((ir2 >>> 8) &&& 0xFF : UInt16) =
      if waitBfd ir2 = true then waitLineMask ir2 ||| 0x80 else waitLineMask ir2 := by
  have hsplit : ((ir2 >>> 8) &&& 0xFF : UInt16) = waitLineMask ir2 ||| ((ir2 >>> 8) &&& 0x80 : UInt16) := by
    unfold waitLineMask
    refine uint16_ext fun i _ => ?_
    rw [UInt16.toNat_or, UInt16.toNat_and, UInt16.toNat_and, UInt16.toNat_and, ← Nat.and_or_distrib_left]
    rfl
  have htop : ((ir2 >>> 8) &&& 0x80 : UInt16) = if waitBfd ir2 = true then 0x80 else 0 := by
    have hpow : (0x80 : UInt16).toNat = 2 ^ 7 := rfl
    rw [waitBfd_eq, ← UInt16.toNat_inj, UInt16.toNat_and, hpow, Nat.and_two_pow,
      uint16_testBit_shiftRight ir2 (k := 8) rfl (by decide)]
    cases ir2.toNat.testBit 15 <;> rfl
  rw [hsplit, htop]
  split
  · rfl
  · exact UInt16.or_zero

/-- Bit 7 of the line makes no difference to the WAIT on this clock: BFD is set and compares it, the blitter holds the
copper whatever the beam, or the other bits decide. -/
def WaitTopUnseen (ir1 ir2 : UInt16) (x : CopperCck) : Prop :=
  waitBfd ir2 = true ∨ x.blitterBusy = true ∨ TopBitDecides ir1 ir2 x.beam

theorem waitHolds_agree_iff (ir1 ir2 : UInt16) (x : CopperCck) :
    (waitHoldsArmed ir1 ir2 x ↔ waitHoldsTop ir1 ir2 x) ↔ WaitTopUnseen ir1 ir2 x := by
  unfold waitHoldsArmed waitHoldsTop WaitTopUnseen waitHolds
  rw [waitVpmask_eq ir2, ← copperBeamCmp_top_iff ir1 ir2 x.beam]
  cases hbfd : waitBfd ir2 with
  | true => simp
  | false =>
    cases hbusy : x.blitterBusy with
    | true => simp
    | false =>
      simp only [Bool.not_false, Bool.or_true, Bool.true_and, Bool.false_eq_true, false_or, if_false]
      exact Bool.eq_iff_iff.symm

/-! ## The release, and its twin -/

/-- The copper leaves the WAIT on the first clock of the run on which the instruction's comparison holds. -/
def WaitReleasesFirst (c : CopperState) (ir1 ir2 : UInt16) (xs : List CopperCck) : Prop :=
  ∀ pre x post, xs = pre ++ x :: post →
    (LeavesWait (copperWaitArm c ir1 ir2) pre x ↔ FirstAt (waitHoldsTop ir1 ir2) pre x)

/-- The WAIT without BFD and the WAIT with it let go on the same clock of the run. -/
def WaitTwinsTogether (c c' : CopperState) (ir1 ir2 : UInt16) (xs : List CopperCck) : Prop :=
  ∀ pre x post, xs = pre ++ x :: post →
    (LeavesWait (copperWaitArm c ir1 (ir2 &&& 0x7FFF)) pre x ↔ LeavesWait (copperWaitArm c' ir1 (ir2 ||| 0x8000)) pre x)

/-- On every clock of the run up to the release, the condition holds. -/
def UntilRelease (ir1 ir2 : UInt16) (cond : CopperCck → Prop) (xs : List CopperCck) : Prop :=
  ∀ pre x post, xs = pre ++ x :: post → (∀ y ∈ pre, ¬ waitHoldsTop ir1 ir2 y) → cond x

theorem prefix_on {α : Type*} {p : α → Prop} {xs pre post : List α} {x : α} (hon : ∀ y ∈ xs, p y)
    (hs : xs = pre ++ x :: post) : ∀ y ∈ pre ++ [x], p y := by
  intro y hy
  refine hon y ?_
  rw [hs, List.append_cons]
  exact List.mem_append_left _ hy

theorem waitReleasesFirst_iff (c : CopperState) (ir1 ir2 : UInt16) {xs : List CopperCck}
    (hon : ∀ x ∈ xs, dmaconCopenOn x.dma.dmacon = true) :
    WaitReleasesFirst c ir1 ir2 xs ↔ UntilRelease ir1 ir2 (WaitTopUnseen ir1 ir2) xs := by
  have hfirst : WaitReleasesFirst c ir1 ir2 xs ↔ ∀ pre x post, xs = pre ++ x :: post →
      (FirstAt (waitHoldsArmed ir1 ir2) pre x ↔ FirstAt (waitHoldsTop ir1 ir2) pre x) := by
    refine forall₄_congr fun pre x post hs => ?_
    rw [(waitArmed_arm c ir1 ir2).leavesWait_iff (prefix_on hon hs)]
  rw [hfirst, firstAt_agree_iff]
  refine forall₄_congr fun pre x post _ => ?_
  rw [waitHolds_agree_iff]

theorem waitBfd_clear (ir2 : UInt16) : waitBfd (ir2 &&& 0x7FFF) = false := by
  rw [waitBfd_eq, UInt16.toNat_and, Nat.testBit_and]
  exact Bool.and_false _

theorem waitBfd_set (ir2 : UInt16) : waitBfd (ir2 ||| 0x8000) = true := by
  rw [waitBfd_eq, UInt16.toNat_or, Nat.testBit_or]
  exact Bool.or_true _

/-- The masks below BFD do not depend on it. -/
theorem waitMasks_clear (ir2 : UInt16) :
    waitLineMask (ir2 &&& 0x7FFF) = waitLineMask ir2 ∧ ir2 &&& 0x7FFF &&& 0xFE = ir2 &&& 0xFE := by
  constructor
  · refine uint16_ext fun i hi => ?_
    unfold waitLineMask
    rw [UInt16.toNat_and, UInt16.toNat_and, Nat.testBit_and, Nat.testBit_and,
      uint16_testBit_shiftRight _ (k := 8) rfl (by decide), uint16_testBit_shiftRight _ (k := 8) rfl (by decide),
      UInt16.toNat_and, Nat.testBit_and, Bool.and_assoc]
    congr 1
    revert i
    decide
  · rw [UInt16.and_assoc]
    rfl

theorem waitMasks_set (ir2 : UInt16) :
    waitLineMask (ir2 ||| 0x8000) = waitLineMask ir2 ∧ (ir2 ||| 0x8000) &&& 0xFE = ir2 &&& 0xFE := by
  constructor
  · refine uint16_ext fun i hi => ?_
    unfold waitLineMask
    rw [UInt16.toNat_and, UInt16.toNat_and, Nat.testBit_and, Nat.testBit_and,
      uint16_testBit_shiftRight _ (k := 8) rfl (by decide), uint16_testBit_shiftRight _ (k := 8) rfl (by decide),
      UInt16.toNat_or, Nat.testBit_or, Bool.and_or_distrib_right]
    have hno : ((0x8000 : UInt16).toNat.testBit (8 + i) && (0x7F : UInt16).toNat.testBit i) = false := by
      revert i
      decide
    rw [hno, Bool.or_false]
  · exact or_and_of_disjoint ir2 (by decide)

theorem waitHoldsTop_idle {x : CopperCck} (hidle : x.blitterBusy = false) {w w' : UInt16}
    (hmasks : waitLineMask w = waitLineMask w' ∧ w &&& 0xFE = w' &&& 0xFE) (ir1 : UInt16) :
    waitHoldsTop ir1 w x ↔ waitHoldsTop ir1 w' x := by
  unfold waitHoldsTop waitHolds
  rw [hidle, hmasks.1, hmasks.2, Bool.not_false, Bool.or_true, Bool.or_true]

theorem waitHoldsArmed_set (ir1 ir2 : UInt16) (x : CopperCck) :
    waitHoldsArmed ir1 (ir2 ||| 0x8000) x ↔ waitHoldsTop ir1 (ir2 ||| 0x8000) x :=
  (waitHolds_agree_iff ir1 (ir2 ||| 0x8000) x).mpr (.inl (waitBfd_set ir2))

theorem waitTwins_agree_iff {x : CopperCck} (hidle : x.blitterBusy = false) (ir1 ir2 : UInt16) :
    (waitHoldsArmed ir1 (ir2 &&& 0x7FFF) x ↔ waitHoldsArmed ir1 (ir2 ||| 0x8000) x) ↔
      TopBitDecides ir1 ir2 x.beam := by
  have hclear := waitHoldsTop_idle hidle (waitMasks_clear ir2) ir1
  have hset := waitHoldsTop_idle hidle (waitMasks_set ir2) ir1
  rw [waitHoldsArmed_set, hset, ← hclear, waitHolds_agree_iff]
  unfold WaitTopUnseen TopBitDecides
  rw [waitBfd_clear, hidle, (waitMasks_clear ir2).1, (waitMasks_clear ir2).2]
  simp only [Bool.false_eq_true, false_or]

theorem waitTwinsTogether_iff (c c' : CopperState) (ir1 ir2 : UInt16) {xs : List CopperCck}
    (hon : ∀ x ∈ xs, dmaconCopenOn x.dma.dmacon = true) (hidle : ∀ x ∈ xs, x.blitterBusy = false) :
    WaitTwinsTogether c c' ir1 ir2 xs ↔ UntilRelease ir1 ir2 (fun x => TopBitDecides ir1 ir2 x.beam) xs := by
  have hfirst : WaitTwinsTogether c c' ir1 ir2 xs ↔ ∀ pre x post, xs = pre ++ x :: post →
      (FirstAt (waitHoldsArmed ir1 (ir2 &&& 0x7FFF)) pre x ↔ FirstAt (waitHoldsArmed ir1 (ir2 ||| 0x8000)) pre x) := by
    refine forall₄_congr fun pre x post hs => ?_
    rw [(waitArmed_arm c ir1 _).leavesWait_iff (prefix_on hon hs),
      (waitArmed_arm c' ir1 _).leavesWait_iff (prefix_on hon hs)]
  rw [hfirst, firstAt_agree_iff]
  refine forall₄_congr fun pre x post hs => ?_
  have hidles := prefix_on hidle hs
  have hq : ∀ y ∈ pre, (¬ waitHoldsArmed ir1 (ir2 ||| 0x8000) y ↔ ¬ waitHoldsTop ir1 ir2 y) := by
    intro y hy
    rw [waitHoldsArmed_set, waitHoldsTop_idle (hidles y (List.mem_append_left _ hy)) (waitMasks_set ir2)]
  rw [forall₂_congr hq, waitTwins_agree_iff (hidles x (List.mem_append_right _ List.mem_cons_self))]

/-- **When a WAIT lets the copper go**: on the first clock of the instruction's comparison, in every run with copper DMA
on in which bit 7 of the line is not missed before the release; with the blitter idle, this is also when BFD makes no
difference to the clock. -/
theorem copperWait_release_iff (c c' : CopperState) (ir1 ir2 : UInt16) (xs : List CopperCck)
    (hon : ∀ x ∈ xs, dmaconCopenOn x.dma.dmacon = true) :
    (WaitReleasesFirst c ir1 ir2 xs ↔ UntilRelease ir1 ir2 (WaitTopUnseen ir1 ir2) xs) ∧
      ((∀ x ∈ xs, x.blitterBusy = false) →
        (WaitTwinsTogether c c' ir1 ir2 xs ↔ UntilRelease ir1 ir2 (fun x => TopBitDecides ir1 ir2 x.beam) xs)) :=
  ⟨waitReleasesFirst_iff c ir1 ir2 hon, waitTwinsTogether_iff c c' ir1 ir2 hon⟩

/-- The top of a PAL frame with copper DMA switched on and the blitter idle. -/
def copperOnCck : CopperCck := busCck (customRegsWrite16 palMachine 0x096 0x8280)

theorem copperOnCck_on : ∀ x ∈ [copperOnCck], dmaconCopenOn x.dma.dmacon = true := by
  rw [List.forall_mem_singleton]
  decide +kernel

/-- The same bus with the beam somewhere else. -/
def copperOnAt (vpos hpos : UInt16) : CopperCck :=
  { copperOnCck with beam := { copperOnCck.beam with vpos := vpos, hpos := hpos } }

/-- The last two clocks of line $7F and the first two of line $80. -/
def acrossLine128 : List CopperCck :=
  [copperOnAt 0x7F 225, copperOnAt 0x7F 226, copperOnAt 0x80 0, copperOnAt 0x80 1]

/-- WAIT for line $80 with BFD set: the copper waits through line $7F and goes on at the first clock of line $80. -/
theorem copperWait_release_bfd :
    WaitReleasesFirst copperReset 0x8001 0xFFFE acrossLine128 ∧
      LeavesWait (copperWaitArm copperReset 0x8001 0xFFFE) [copperOnAt 0x7F 225, copperOnAt 0x7F 226]
        (copperOnAt 0x80 0) := by
  have hon : ∀ x ∈ acrossLine128, dmaconCopenOn x.dma.dmacon = true := by
    unfold acrossLine128
    simp only [List.forall_mem_cons]
    exact ⟨by decide +kernel, by decide +kernel, by decide +kernel, by decide +kernel, fun _ h => absurd h List.not_mem_nil⟩
  have hfirst : WaitReleasesFirst copperReset 0x8001 0xFFFE acrossLine128 :=
    (copperWait_release_iff copperReset copperReset 0x8001 0xFFFE _ hon).1.mpr (fun _ _ _ _ _ => .inl (by decide))
  refine ⟨hfirst, (hfirst _ _ [copperOnAt 0x80 1] rfl).mpr ⟨?_, ?_⟩⟩
  · unfold waitHoldsTop
    decide +kernel
  · unfold waitHoldsTop
    simp only [List.forall_mem_cons]
    exact ⟨by decide +kernel, by decide +kernel, fun _ h => absurd h List.not_mem_nil⟩

/-- WAIT for line $80 and the blitter: with the blitter idle the copper goes on at once, on line 0, and its twin with
BFD set does not. -/
theorem copperWait_release_early :
    ¬ WaitReleasesFirst copperReset 0x8001 0x7FFE [copperOnCck] ∧
      ¬ WaitTwinsTogether copperReset copperReset 0x8001 0x7FFE [copperOnCck] := by
  have hidle : ∀ x ∈ [copperOnCck], x.blitterBusy = false := by
    rw [List.forall_mem_singleton]
    decide +kernel
  have hseen : ¬ TopBitDecides 0x8001 0x7FFE copperOnCck.beam := by
    unfold TopBitDecides
    decide +kernel
  have hfirst : ∀ cond : CopperCck → Prop, UntilRelease 0x8001 0x7FFE cond [copperOnCck] → cond copperOnCck :=
    fun cond h => h [] copperOnCck [] rfl (fun _ hy => absurd hy List.not_mem_nil)
  constructor
  · rw [waitReleasesFirst_iff _ _ _ copperOnCck_on]
    intro h
    rcases hfirst _ h with hbfd | hbusy | htop
    · exact absurd hbfd (by decide)
    · exact Bool.noConfusion ((hidle _ List.mem_cons_self).symm.trans hbusy)
    · exact hseen htop
  · rw [waitTwinsTogether_iff _ _ _ _ copperOnCck_on hidle]
    exact fun h => hseen (hfirst _ h)

end Rigel
