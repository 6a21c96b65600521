import Rigel.DisplayRun
import Rigel.SlotCoherence
import Rigel.TableShape

/-!
# WindowLines — the lines that are fetched and the lines that are shown

Agnus fetches bitplanes from the line that DIWSTRT's high byte names down to the end of the frame. Denise shows the lines
of its display window, which has a stop, and a start that DIWHIGH extends. `bitplaneLine_iff` says which lines of a table
have a bitplane slot, `WindowFollows` what the two chips have decoded from the registers in any reachable state.
-/

namespace Rigel

/-! ## The lines with a bitplane slot -/

/-- The clock of a line's first bitplane slot after DDFSTRT: at once in hires, and in lores the earliest of the planes'
places in their unit of eight. -/
def firstFetch (s : SlotInputs) : Nat :=
  if s.hires then 0 else if s.depth &&& 0x7 = 1 then 7 else if s.depth &&& 0x7 < 4 then 3 else 1

/-- The first slot lies inside the line. -/
def fetchFits (s : SlotInputs) : Bool := decide (s.ddfstrt.toNat + firstFetch s < agnusSlotsPerLine)

/-- The line has a bitplane slot. -/
def HasBitplaneSlot (t : SlotTables) : Prop := ∃ h < agnusSlotsPerLine, t.owner h = .bitplane

/-- A depth that is displayed. -/
def DepthShown (depth : UInt16) : Prop := 1 ≤ (depth &&& 0x7).toNat ∧ (depth &&& 0x7).toNat ≤ 6

instance (depth : UInt16) : Decidable (DepthShown depth) := inferInstanceAs (Decidable (_ ∧ _))

theorem bitplaneWords_pos {s : SlotInputs} (h : DepthShown s.depth) : 0 < bitplaneWordsPerPlane s := by
  have hdepth : ¬ (s.depth &&& 0x7 = 0 ∨ s.depth &&& 0x7 > 6) := by
    rintro (h0 | h6)
    · have h1 := h.1
      rw [h0] at h1
      contradiction
    · exact absurd (UInt16.lt_iff_toNat_lt.mp h6) (Nat.not_lt.mpr h.2)
  unfold bitplaneWordsPerPlane
  simp only
  rw [if_neg hdepth]
  have hmin : ∀ n, 0 < min (n + 1) deniseMaxPlaneWords := fun n => Nat.lt_min.mpr ⟨Nat.succ_pos n, by decide⟩
  repeat' split
  all_goals first
    | decide
    | exact hmin _

/-- The earliest plane of a unit. -/
theorem loresPlaneOrder_first : ∀ depth < 7, 1 ≤ depth →
    (∀ plane < depth, (if depth = 1 then 7 else if depth < 4 then 3 else 1) ≤ loresPlaneOrder plane) ∧
      ∃ plane < depth, loresPlaneOrder plane = if depth = 1 then 7 else if depth < 4 then 3 else 1 := by
  decide

theorem firstFetch_lores {s : SlotInputs} (h : s.hires = false) :
    firstFetch s = if (s.depth &&& 0x7).toNat = 1 then 7 else if (s.depth &&& 0x7).toNat < 4 then 3 else 1 := by
  have hone : s.depth &&& 0x7 = 1 ↔ (s.depth &&& 0x7).toNat = 1 := UInt16.toNat_inj.symm
  have hfour : s.depth &&& 0x7 < 4 ↔ (s.depth &&& 0x7).toNat < 4 := UInt16.lt_iff_toNat_lt
  simp only [firstFetch, h, hone, hfour, Bool.false_eq_true, if_false]

/-- The first slot of a line, in its first word, and no slot before it. -/
theorem firstFetch_slot {s : SlotInputs} (hdepth : DepthShown s.depth) :
    (∀ word, ∀ plane < (s.depth &&& 0x7).toNat, s.ddfstrt.toNat + firstFetch s ≤ fetchSlot s word plane) ∧
      ∃ plane < (s.depth &&& 0x7).toNat, fetchSlot s 0 plane = s.ddfstrt.toNat + firstFetch s := by
  cases hhires : s.hires with
  | true =>
    simp only [fetchSlot, firstFetch, hhires, if_true]
    exact ⟨fun word plane _ => by omega, 0, hdepth.1, by omega⟩
  | false =>
    obtain ⟨hmin, plane, hplane, hfirst⟩ := loresPlaneOrder_first _ (Nat.lt_succ_of_le hdepth.2) hdepth.1
    rw [← firstFetch_lores hhires] at hmin hfirst
    simp only [fetchSlot, hhires, Bool.false_eq_true, if_false]
    refine ⟨fun word p hp => ?_, plane, hplane, ?_⟩
    · have hle := hmin p hp
      omega
    · rw [hfirst]
      omega

/-- **Which lines are fetched.** A line of a displayed depth has a bitplane slot when the gate is open and the first slot
lies inside the line. -/
theorem bitplaneLine_iff {s : SlotInputs} (hdepth : DepthShown s.depth) (vpos : UInt16) (refresh : RefreshDmaState) :
    HasBitplaneSlot (buildSlotTables s vpos refresh) ↔ fetchGate s vpos = true ∧ fetchFits s = true := by
  obtain ⟨hmin, plane, hplane, hfirst⟩ := firstFetch_slot hdepth
  rw [fetchFits, decide_eq_true_eq]
  constructor
  · rintro ⟨i, hin, hb⟩
    by_cases hgate : fetchGate s vpos = true
    · obtain ⟨-, word, -, p, hp, rfl⟩ := (buildSlotTables_bitplane_iff refresh hgate i).mp hb
      exact ⟨hgate, Nat.lt_of_le_of_lt (hmin word p hp) hin⟩
    · exact absurd hb (buildSlotTables_gateClosed refresh hgate i)
  · rintro ⟨hgate, hin⟩
    rw [← hfirst] at hin
    exact ⟨_, hin, (buildSlotTables_bitplane_iff refresh hgate _).mpr
      ⟨hin, 0, bitplaneWords_pos hdepth, plane, hplane, rfl⟩⟩

/-! ## What the two chips have decoded -/

/-- The registers describe a window that Denise takes over. -/
structure DiwAccepted (d : RigelDenise) : Prop where
  depth : ¬ (d.regs.bplcon0 ≠ 0 ∧ (d.regs.bplcon0 >>> 12) &&& 0x7 = 0)
  start : d.regs.diwstrt ≠ 0xFFFF
  raster : (diwEdges d.chipRev d.regs).vstrt < deniseMaxLines

/-- Agnus has DIWSTRT's high byte, or the line it starts with as long as DIWSTRT has not been written, and the depth of
BPLCON0; Denise has the window of its registers if it takes that over. -/
structure WindowFollows (a : RigelAgnus) (d : RigelDenise) : Prop where
  vstrt : a.scheduler.vstrt = (d.regs.diwstrt >>> 8) &&& 0x00FF ∨
    (a.scheduler.vstrt = agnusVblLineEnd + 1 ∧ d.regs.diwstrt = 0)
  depth : a.scheduler.depth = (d.regs.bplcon0 >>> 12) &&& 0x7
  window : DiwAccepted d → d.video = diwVideo d.regs.bplcon0 (diwEdges d.chipRev d.regs)

/-- A window that is taken over is the one that its registers describe. -/
theorem displayWindowUpdate_accepted {d : RigelDenise} (h : DiwAccepted (rigelDeniseDisplayWindowUpdate d)) :
    (rigelDeniseDisplayWindowUpdate d).video = diwVideo d.regs.bplcon0 (diwEdges d.chipRev d.regs) := by
  obtain ⟨hregs, hrev⟩ := displayWindowUpdate_frame d
  have hd := h.depth
  have hs := h.start
  have hr := h.raster
  rw [hregs] at hd hs
  rw [hregs, hrev] at hr
  unfold rigelDeniseDisplayWindowUpdate
  simp only
  rw [if_neg fun hc => hd ⟨hc.1, hc.2.1⟩, if_neg fun hc => hs hc.1, if_neg (UInt16.not_le.mpr hr)]

theorem agnusAfterMmio_display (a : RigelAgnus) (addr : UInt32) (value : UInt16) :
    (agnusAfterMmio a addr value).scheduler.vstrt = a.scheduler.vstrt ∧
      (agnusAfterMmio a addr value).scheduler.depth = a.scheduler.depth := by
  unfold agnusAfterMmio agnusWritePointers rigelAgnusSetVideoStd
  repeat' split
  all_goals exact ⟨rfl, rfl⟩

theorem setVstrt_eq (s : SlotScheduler) (diwstrt : UInt16) :
    (agnusSlotSchedulerSetVstrt s diwstrt).vstrt = (diwstrt >>> 8) &&& 0x00FF ∧
      (agnusSlotSchedulerSetVstrt s diwstrt).depth = s.depth := by
  unfold agnusSlotSchedulerSetVstrt
  split
  · exact ⟨rfl, rfl⟩
  · rename_i h
    exact ⟨Decidable.not_not.mp h, rfl⟩

theorem setDepth_eq (s : SlotScheduler) (depth : UInt16) :
    (agnusSlotSchedulerSetDepth s depth).vstrt = s.vstrt ∧ (agnusSlotSchedulerSetDepth s depth).depth = depth &&& 0x7 := by
  unfold agnusSlotSchedulerSetDepth
  split
  · exact ⟨rfl, rfl⟩
  · rename_i h
    exact ⟨rfl, Decidable.not_not.mp h⟩

theorem followBplcon0_eq (a : RigelAgnus) (value : UInt16) :
    (agnusFollowBplcon0 a value).scheduler.vstrt = a.scheduler.vstrt ∧
      (agnusFollowBplcon0 a value).scheduler.depth = (value >>> 12) &&& 0x7 := by
  have hidem : ((value >>> (12 : UInt16)) &&& (0x7 : UInt16)) &&& (0x7 : UInt16) =
      (value >>> (12 : UInt16)) &&& (0x7 : UInt16) := by
    rw [UInt16.and_assoc]
    rfl
  have hires : (agnusSlotSchedulerSetHires a.scheduler (value &&& 0x8000 != 0)).vstrt = a.scheduler.vstrt := by
    unfold agnusSlotSchedulerSetHires
    split <;> rfl
  obtain ⟨hv, hd⟩ := setDepth_eq (agnusSlotSchedulerSetHires a.scheduler (value &&& 0x8000 != 0))
    ((value >>> (12 : UInt16)) &&& (0x7 : UInt16))
  exact ⟨hv.trans hires, hd.trans hidem⟩

/-- What a Denise register that is none of the window's leaves. -/
structure DiwSame (d d' : RigelDenise) : Prop where
  chipRev : d'.chipRev = d.chipRev
  bplcon0 : d'.regs.bplcon0 = d.regs.bplcon0
  diwstrt : d'.regs.diwstrt = d.regs.diwstrt
  diwstop : d'.regs.diwstop = d.regs.diwstop
  diwhigh : d'.regs.diwhigh = d.regs.diwhigh
  video : d'.video = d.video

theorem DiwSame.edges {d d' : RigelDenise} (h : DiwSame d d') :
    diwEdges d'.chipRev d'.regs = diwEdges d.chipRev d.regs := by
  unfold diwEdges ocsDiw diwNarrow diwDecodeOcs diwDecodeEcs
  simp only [h.chipRev, h.diwstrt, h.diwstop, h.diwhigh]

theorem WindowFollows.same {a a' : RigelAgnus} {d d' : RigelDenise} (h : WindowFollows a d)
    (hv : a'.scheduler.vstrt = a.scheduler.vstrt) (hdepth : a'.scheduler.depth = a.scheduler.depth) (hs : DiwSame d d') :
    WindowFollows a' d' := by
  refine ⟨?_, ?_, fun hacc => ?_⟩
  · rw [hv, hs.diwstrt]
    exact h.vstrt
  · rw [hdepth, hs.bplcon0]
    exact h.depth
  · rw [hs.video, hs.bplcon0, hs.edges]
    have hd := hacc.depth
    have hst := hacc.start
    have hr := hacc.raster
    rw [hs.bplcon0] at hd
    rw [hs.diwstrt] at hst
    rw [hs.edges] at hr
    exact h.window ⟨hd, hst, hr⟩

/-- A register of the window: Denise decodes all of them anew. -/
theorem WindowFollows.update {a : RigelAgnus} {d : RigelDenise}
    (hv : a.scheduler.vstrt = (d.regs.diwstrt >>> 8) &&& 0x00FF ∨
      (a.scheduler.vstrt = agnusVblLineEnd + 1 ∧ d.regs.diwstrt = 0))
    (hdepth : a.scheduler.depth = (d.regs.bplcon0 >>> 12) &&& 0x7) :
    WindowFollows a (rigelDeniseDisplayWindowUpdate d) := by
  obtain ⟨hregs, hrev⟩ := displayWindowUpdate_frame d
  refine ⟨?_, ?_, fun hacc => ?_⟩
  · rw [hregs]
    exact hv
  · rw [hregs]
    exact hdepth
  · rw [displayWindowUpdate_accepted hacc, hregs, hrev]

/-- The redraw flag is none of the window's. -/
theorem WindowFollows.redraw {a : RigelAgnus} {d : RigelDenise} (h : WindowFollows a d) (flag : Bool) :
    WindowFollows a { d with output := { d.output with pendingFullRedraw := flag } } :=
  h.same rfl rfl ⟨rfl, rfl, rfl, rfl, rfl, rfl⟩

theorem deniseControlWrite_same (d : RigelDenise) {addr : UInt32} (value : UInt16) (h0 : addr ≠ 0x100)
    (h1 : addr ≠ 0x08E) (h2 : addr ≠ 0x090) (h3 : addr ≠ 0x1E4) : DiwSame d (rigelDeniseControlWrite d addr value) := by
  unfold rigelDeniseControlWrite
  split
  · exact ⟨rfl, rfl, rfl, rfl, rfl, rfl⟩
  · exact absurd rfl h0
  · exact ⟨rfl, rfl, rfl, rfl, rfl, rfl⟩
  · exact ⟨rfl, rfl, rfl, rfl, rfl, rfl⟩
  · split <;> exact ⟨rfl, rfl, rfl, rfl, rfl, rfl⟩
  · exact absurd rfl h1
  · exact absurd rfl h2
  · exact absurd rfl h3
  · exact ⟨rfl, rfl, rfl, rfl, rfl, rfl⟩

/-- **A Denise register.** The four of the window reach both chips at once. -/
theorem WindowFollows.deniseWrite {a : RigelAgnus} {d : RigelDenise} (h : WindowFollows a d) (addr : UInt32)
    (value : UInt16) : WindowFollows (agnusFollowDenise a addr value) (rigelDeniseRegistersWrite d addr value) := by
  by_cases h0 : addr = 0x100
  · subst h0
    obtain ⟨hv, hd⟩ := followBplcon0_eq a value
    refine WindowFollows.redraw (WindowFollows.update (d := { d with regs := { d.regs with bplcon0 := value } }) ?_ ?_) _
    · show (agnusFollowBplcon0 a value).scheduler.vstrt = _ ∨ (agnusFollowBplcon0 a value).scheduler.vstrt = _ ∧ _
      rw [hv]
      exact h.vstrt
    · exact hd
  by_cases h1 : addr = 0x08E
  · subst h1
    obtain ⟨hv, hd⟩ := setVstrt_eq a.scheduler value
    refine WindowFollows.redraw (WindowFollows.update (d := { d with regs := { d.regs with diwstrt := value } }) ?_ ?_) _
    · exact Or.inl hv
    · exact hd.trans h.depth
  by_cases h2 : addr = 0x090
  · subst h2
    refine WindowFollows.redraw (WindowFollows.update (d := { d with regs := { d.regs with diwstop := value } }) ?_ ?_) _
    · exact h.vstrt
    · exact h.depth
  have hagnus : agnusFollowDenise a addr value = a := by
    unfold agnusFollowDenise
    split
    · exact absurd rfl h0
    · exact absurd rfl h1
    · exact absurd rfl h2
    · rfl
  rw [hagnus]
  by_cases h3 : addr = 0x1E4
  · subst h3
    refine WindowFollows.redraw (d := rigelDeniseControlWrite d 0x1E4 value) ?_ _
    show WindowFollows a (if d.chipRev = .ecs then
      rigelDeniseDisplayWindowUpdate { d with regs := { d.regs with diwhigh := value } } else d)
    split
    · exact WindowFollows.update (d := { d with regs := { d.regs with diwhigh := value } }) h.vstrt h.depth
    · exact h
  unfold rigelDeniseRegistersWrite
  split
  · exact h.same rfl rfl ⟨rfl, rfl, rfl, rfl, rfl, rfl⟩
  split
  · exact h.same rfl rfl ⟨rfl, rfl, rfl, rfl, rfl, rfl⟩
  · exact WindowFollows.redraw (h.same rfl rfl (deniseControlWrite_same d value h0 h1 h2 h3)) _

theorem deniseAfterMmio_same (a : RigelAgnus) (d : RigelDenise) (addr : UInt32) (value : UInt16) :
    DiwSame d (deniseAfterMmio a d addr value) := by
  rw [deniseAfterMmio_eq]
  exact ⟨rfl, rfl, rfl, rfl, rfl, rfl⟩

theorem windowFollows_invariant : DisplayInvariant WindowFollows where
  reset ctx := by
    have hstart : (rigelReset ctx).agnus.scheduler.vstrt = agnusVblLineEnd + 1 := rfl
    have hdepth : (rigelReset ctx).agnus.scheduler.depth = ((0 : UInt16) >>> 12) &&& 0x7 := rfl
    exact WindowFollows.update
      (d := { (rigelChipsetReset ctx).denise with chipRev := chipRevOf ctx.ram.chipsetModel }) (Or.inr ⟨hstart, rfl⟩) hdepth
  write {a d} addr value h := by
    unfold agnusAfterWrite deniseAfterWrite
    cases rigelCustomDomainForReg addr with
    | agnus =>
      obtain ⟨hv, hdepth⟩ := agnusAfterMmio_display a addr value
      exact h.same hv hdepth (deniseAfterMmio_same a d addr value)
    | denise => exact h.deniseWrite addr value
    | paula => exact h
    | unknown => exact h
  still {a a' d d'} h hs := by
    refine h.same hs.vstrt hs.depth ⟨hs.chipRev, ?_, ?_, ?_, ?_, hs.video⟩
    all_goals rw [hs.regs]

theorem Reachable.windowFollows {ctx : RigelContext} (h : Reachable ctx) : WindowFollows ctx.agnus ctx.denise :=
  windowFollows_invariant.reachable h

theorem WindowFollows.vstrt_lt {a : RigelAgnus} {d : RigelDenise} (h : WindowFollows a d) :
    a.scheduler.vstrt.toNat < 256 := by
  rcases h.vstrt with hv | ⟨hv, -⟩
  · rw [hv, UInt16.toNat_and]
    exact Nat.lt_of_le_of_lt Nat.and_le_right (by decide)
  · rw [hv]
    decide

/-! ## The two windows -/

/-- The table of a line, with the registers as they are now. -/
def lineTables (a : RigelAgnus) (vpos : UInt16) : SlotTables :=
  buildSlotTables { slotInputs a.scheduler with dmacon := a.dma.dmacon } vpos a.refresh

/-- A line of the frame outside vertical blank is fetched iff Denise shows it. -/
def WindowsAgree (ctx : RigelContext) : Prop :=
  ∀ vpos < beamFrameVmax ctx.agnus.beam, agnusInVblZone vpos = false →
    (HasBitplaneSlot (lineTables ctx.agnus vpos) ↔
      ctx.denise.video.visibleYStart ≤ vpos ∧ vpos < ctx.denise.video.visibleYStop)

/-- What the lines that are fetched and those that are shown agree on: both begin on one line below vertical blank, and
Denise's window has no stop inside the frame; or nothing is fetched for want of room behind DDFSTRT, and the window has no
line. -/
def WindowToBottom (ctx : RigelContext) : Prop :=
  let lines := (beamFrameVmax ctx.agnus.beam).toNat
  let first := max 26 ctx.denise.video.visibleYStart.toNat
  if fetchFits (slotInputs ctx.agnus.scheduler) then
    first = max 26 ctx.agnus.scheduler.vstrt.toNat ∧ lines ≤ ctx.denise.video.visibleYStop.toNat
  else min ctx.denise.video.visibleYStop.toNat lines ≤ first

instance (ctx : RigelContext) : Decidable (WindowToBottom ctx) :=
  inferInstanceAs (Decidable (if fetchFits (slotInputs ctx.agnus.scheduler) then _ = _ ∧ _ ≤ _ else _ ≤ _))

theorem frameVmax_ge {b : BeamState} (h : BeamOk b) : 262 ≤ (beamFrameVmax b).toNat := by
  unfold beamFrameVmax
  rcases h.frameLines with hf | hf <;> rw [hf] <;> split <;> decide

/-- The lines outside vertical blank on which two half-open windows agree, the first of them without an end. -/
theorem halfOpen_agree_iff {lines a b c : Nat} (ha : a < lines) (ha' : 26 < lines) :
    (∀ v < lines, 25 < v → (a ≤ v ↔ b ≤ v ∧ v < c)) ↔ max 26 b = max 26 a ∧ lines ≤ c := by
  constructor
  · intro h
    have hstart := h (max 26 a) (by omega) (by omega)
    have hlast := h (lines - 1) (by omega) (by omega)
    refine ⟨?_, by omega⟩
    by_contra hne
    have hshown := h (max 26 b) (by omega) (by omega)
    omega
  · rintro ⟨hstart, hstop⟩ v hv hv'
    omega

theorem noLine_iff {lines b c : Nat} : (∀ v < lines, 25 < v → ¬ (b ≤ v ∧ v < c)) ↔ min c lines ≤ max 26 b := by
  constructor
  · intro h
    by_contra hlt
    exact h (max 26 b) (by omega) (by omega) (by omega)
  · intro h v hv hv' hshown
    omega

theorem windowsAgree_iff_bottom {ctx : RigelContext} (hbeam : BeamOk ctx.agnus.beam)
    (hstart : ctx.agnus.scheduler.vstrt.toNat < 256) (hbpl : dmaconBplenOn ctx.agnus.dma.dmacon = true)
    (hdepth : DepthShown ctx.agnus.scheduler.depth) : WindowsAgree ctx ↔ WindowToBottom ctx := by
  have hlines := frameVmax_ge hbeam
  have hslots : ∀ vpos : UInt16, agnusInVblZone vpos = false → (HasBitplaneSlot (lineTables ctx.agnus vpos) ↔
      ctx.agnus.scheduler.vstrt.toNat ≤ vpos.toNat ∧ fetchFits (slotInputs ctx.agnus.scheduler) = true) := by
    intro vpos hvbl
    unfold lineTables
    rw [bitplaneLine_iff (s := { slotInputs ctx.agnus.scheduler with dmacon := ctx.agnus.dma.dmacon }) hdepth]
    refine and_congr ?_ Iff.rfl
    simp only [fetchGate, hvbl, hbpl, Bool.not_false, Bool.true_and, Bool.and_true, decide_eq_true_eq, slotInputs, ge_iff_le,
      UInt16.le_iff_toNat_le]
  have hzone : ∀ vpos : UInt16, agnusInVblZone vpos = false ↔ 25 < vpos.toNat := by
    intro vpos
    unfold agnusInVblZone agnusVblLineEnd
    exact decide_eq_false_iff_not.trans (UInt16.not_le.trans UInt16.lt_iff_toNat_lt)
  have hnat : WindowsAgree ctx ↔ ∀ v < (beamFrameVmax ctx.agnus.beam).toNat, 25 < v →
      ((ctx.agnus.scheduler.vstrt.toNat ≤ v ∧ fetchFits (slotInputs ctx.agnus.scheduler) = true) ↔
        ctx.denise.video.visibleYStart.toNat ≤ v ∧ v < ctx.denise.video.visibleYStop.toNat) := by
    constructor
    · intro h v hv hvbl
      have hsize := (beamFrameVmax ctx.agnus.beam).toNat_lt
      have hto : (UInt16.ofNat v).toNat = v := UInt16.toNat_ofNat_of_lt' (Nat.lt_trans hv hsize)
      have hblank := (hzone (UInt16.ofNat v)).mpr (hto.symm ▸ hvbl)
      have hv' := h (UInt16.ofNat v) (UInt16.lt_iff_toNat_lt.mpr (hto.symm ▸ hv)) hblank
      rw [hslots _ hblank, UInt16.le_iff_toNat_le, UInt16.lt_iff_toNat_lt, hto] at hv'
      exact hv'
    · intro h vpos hv hvbl
      rw [hslots _ hvbl, UInt16.le_iff_toNat_le, UInt16.lt_iff_toNat_lt]
      exact h _ (UInt16.lt_iff_toNat_lt.mp hv) ((hzone vpos).mp hvbl)
  rw [hnat]
  unfold WindowToBottom
  cases hfits : fetchFits (slotInputs ctx.agnus.scheduler) with
  | true =>
    simp only [and_true, if_true]
    exact halfOpen_agree_iff (by omega) (by omega)
  | false =>
    simp only [Bool.false_eq_true, and_false, false_iff, if_false]
    exact noLine_iff

/-- The start line that Denise decodes: DIWSTRT's eight bits, and above them what DIWHIGH adds. -/
theorem diwEdges_vstrt (rev : AgnusChipRev) (r : DeniseRegisterFile) :
    ∃ ext : UInt16, (diwEdges rev r).vstrt = ((r.diwstrt >>> (8 : UInt16)) &&& (0x00FF : UInt16)) ||| (ext <<< (8 : UInt16)) ∧
      ext ≤ 7 := by
  unfold diwEdges
  split
  · refine ⟨0, ?_, by decide⟩
    have htall : ∀ e : DiwEdges, (diwTall e).vstrt = e.vstrt := by
      intro e
      unfold diwTall
      split <;> rfl
    rw [htall, UInt16.zero_shiftLeft, UInt16.or_zero]
    rfl
  · refine ⟨(r.diwhigh &&& (0x00FF : UInt16)) &&& (0x7 : UInt16), ?_, UInt16.le_iff_toNat_le.mpr ?_⟩
    · unfold diwNarrow
      simp only
      split <;> rfl
    · rw [UInt16.toNat_and]
      exact Nat.and_le_right

/-- Below line 256 the extension is empty. -/
theorem diwStart_eq_iff {hi ext : UInt16} (hhi : hi.toNat < 256) (hext : ext ≤ 7) :
    (hi ||| (ext <<< (8 : UInt16))).toNat = hi.toNat + ext.toNat * 256 := by
  have hle := UInt16.le_iff_toNat_le.mp hext
  have h7 : (7 : UInt16).toNat = 7 := rfl
  have hshift : (ext <<< (8 : UInt16)).toNat = ext.toNat <<< 8 := by
    have height : (8 : UInt16).toNat % 16 = 8 := rfl
    rw [UInt16.toNat_shiftLeft, height, Nat.shiftLeft_eq]
    omega
  rw [UInt16.toNat_or, hshift, Nat.or_comm, ← Nat.shiftLeft_add_eq_or_of_lt hhi, Nat.shiftLeft_eq]
  omega

/-- The same condition on the registers of an accepted window. -/
theorem windowToBottom_accepted {ctx : RigelContext} (hfollows : WindowFollows ctx.agnus ctx.denise)
    (hfits : fetchFits (slotInputs ctx.agnus.scheduler) = true)
    (hacc : DiwAccepted ctx.denise) :
    WindowToBottom ctx ↔ (diwEdges ctx.denise.chipRev ctx.denise.regs).vstrt < 256 ∧
      beamFrameVmax ctx.agnus.beam ≤ (diwEdges ctx.denise.chipRev ctx.denise.regs).vstop ∧
      beamFrameVmax ctx.agnus.beam ≤ deniseMaxLines := by
  obtain ⟨ext, hedge, hext⟩ := diwEdges_vstrt ctx.denise.chipRev ctx.denise.regs
  have hhi : ((ctx.denise.regs.diwstrt >>> (8 : UInt16)) &&& (0x00FF : UInt16)).toNat < 256 := by
    rw [UInt16.toNat_and]
    exact Nat.lt_of_le_of_lt Nat.and_le_right (by decide)
  have hadd := diwStart_eq_iff hhi hext
  rw [← hedge] at hadd
  have hzero : ctx.denise.regs.diwstrt = 0 →
      ((ctx.denise.regs.diwstrt >>> (8 : UInt16)) &&& (0x00FF : UInt16)).toNat = 0 := by
    intro h0
    rw [h0]
    rfl
  have hstart : max 26 (diwEdges ctx.denise.chipRev ctx.denise.regs).vstrt.toNat = max 26 ctx.agnus.scheduler.vstrt.toNat ↔
      (diwEdges ctx.denise.chipRev ctx.denise.regs).vstrt.toNat < 256 := by
    rcases hfollows.vstrt with hv | ⟨hv, h0⟩
    · rw [hv]
      omega
    · have h26 : ctx.agnus.scheduler.vstrt.toNat = 26 := by
        rw [hv]
        rfl
      have hhi0 := hzero h0
      omega
  have hstop : (diwVideo ctx.denise.regs.bplcon0 (diwEdges ctx.denise.chipRev ctx.denise.regs)).visibleYStop.toNat =
      min (diwEdges ctx.denise.chipRev ctx.denise.regs).vstop.toNat deniseMaxLines.toNat := by
    simp only [diwVideo]
    split
    · rename_i hlt
      exact (Nat.min_eq_right (Nat.le_of_lt (UInt16.lt_iff_toNat_lt.mp hlt))).symm
    · rename_i hle
      exact (Nat.min_eq_left (UInt16.le_iff_toNat_le.mp (UInt16.not_lt.mp hle))).symm
  unfold WindowToBottom
  simp only [hfits, if_true]
  rw [hfollows.window hacc, hstop, UInt16.lt_iff_toNat_lt, UInt16.le_iff_toNat_le, UInt16.le_iff_toNat_le]
  exact and_congr hstart Nat.le_min

/-- **The two windows.** In every reachable state with bitplane DMA and a displayed depth, Agnus fetches on exactly the
lines that Denise shows when the window runs to the bottom of the frame. If Denise has taken over what the window's
registers say now, that is: the start line has no extension bits, and the stop line lies at or behind the frame's last. -/
theorem windows_agree_iff {ctx : RigelContext} (h : Reachable ctx) (hbpl : dmaconBplenOn ctx.agnus.dma.dmacon = true)
    (hdepth : DepthShown ctx.agnus.scheduler.depth) :
    (WindowsAgree ctx ↔ WindowToBottom ctx) ∧
      (DiwAccepted ctx.denise → fetchFits (slotInputs ctx.agnus.scheduler) = true →
        (WindowsAgree ctx ↔ (diwEdges ctx.denise.chipRev ctx.denise.regs).vstrt < 256 ∧
          beamFrameVmax ctx.agnus.beam ≤ (diwEdges ctx.denise.chipRev ctx.denise.regs).vstop ∧
          beamFrameVmax ctx.agnus.beam ≤ deniseMaxLines)) := by
  have hfollows := h.windowFollows
  have hagree := windowsAgree_iff_bottom h.agnusOk.beam hfollows.vstrt_lt hbpl hdepth
  exact ⟨hagree, fun hacc hfits => hagree.trans (windowToBottom_accepted hfollows hfits hacc)⟩

/-- A machine with one bitplane, its data fetch and the window given. -/
def windowMachine (diwstrt diwstop : UInt16) : RigelContext :=
  [HostCall.customWrite 0x092 0x0038, .customWrite 0x094 0x00D0, .customWrite 0x100 0x1200, .customWrite 0x08E diwstrt,
    .customWrite 0x090 diwstop, .customWrite 0x096 0x8300].foldl hostCall palMachine

theorem windowMachine_reachable (diwstrt diwstop : UInt16) : Reachable (windowMachine diwstrt diwstop) :=
  palMachine_reachable.calls _

/-- A window from line 64 to line 312, the end of a PAL frame. -/
theorem windows_agree_full :
    WindowsAgree (windowMachine 0x4081 0x38C1) ∧ DiwAccepted (windowMachine 0x4081 0x38C1).denise := by
  have hfull := windows_agree_iff (windowMachine_reachable 0x4081 0x38C1) (by decide +kernel) (by decide +kernel)
  have hacc : DiwAccepted (windowMachine 0x4081 0x38C1).denise := ⟨by decide +kernel, by decide +kernel, by decide +kernel⟩
  exact ⟨(hfull.2 hacc (by decide +kernel)).mpr (by decide +kernel), hacc⟩

/-- The window from line 44 to line 300: Agnus still fetches on lines 300 to 311. -/
theorem windows_differ_below_stop :
    Reachable (windowMachine 0x2C81 0x2CC1) ∧ dmaconBplenOn (windowMachine 0x2C81 0x2CC1).agnus.dma.dmacon = true ∧
      DepthShown (windowMachine 0x2C81 0x2CC1).agnus.scheduler.depth ∧ ¬ WindowsAgree (windowMachine 0x2C81 0x2CC1) := by
  have hbpl : dmaconBplenOn (windowMachine 0x2C81 0x2CC1).agnus.dma.dmacon = true := by decide +kernel
  have hdepth : DepthShown (windowMachine 0x2C81 0x2CC1).agnus.scheduler.depth := by decide +kernel
  have hslots : HasBitplaneSlot (lineTables (windowMachine 0x2C81 0x2CC1).agnus 300) :=
    (bitplaneLine_iff (by decide +kernel) _ _).mpr ⟨by decide +kernel, by decide +kernel⟩
  refine ⟨windowMachine_reachable _ _, hbpl, hdepth, fun h => ?_⟩
  have hshown := (h 300 (by decide +kernel) (by decide)).mp hslots
  exact absurd hshown (by decide +kernel)

end Rigel
