import Rigel.TearFree
import Rigel.WindowLines

/-!
# WindowValid — the display window over runs of register writes

DIWSTRT, DIWSTOP, DIWHIGH and BPLCON0 are written in any order and Denise is reset now and then. The window has a width
and lies above the bottom of the raster all the time. It is the right way up as long as no ECS window is taken over that
starts 256 lines or more below its stop: the wrap of the stop is made once, by 256 lines, and the start has more bits.
-/

namespace Rigel

/-- A register that the window is decoded from. -/
inductive DiwReg where
  | strt
  | stop
  | high
  | bplcon0
  deriving DecidableEq

def DiwReg.addr : DiwReg → UInt32
  | .strt => 0x08E
  | .stop => 0x090
  | .high => 0x1E4
  | .bplcon0 => 0x100

/-- A register write, the reset of Denise, or that of the machine, which sets the chip's revision after it. -/
inductive DiwOp where
  | write (r : DiwReg) (value : UInt16)
  | reset
  | resetAs (rev : AgnusChipRev)

def diwStep (d : RigelDenise) : DiwOp → RigelDenise
  | .write r value => rigelDeniseRegistersWrite d r.addr value
  | .reset => rigelDeniseReset d
  | .resetAs rev => rigelDeniseSetChipRev (rigelDeniseReset d) rev

/-- The register file once the write is latched; only ECS has DIWHIGH. -/
def diwLatch (d : RigelDenise) (r : DiwReg) (value : UInt16) : RigelDenise :=
  match r with
  | .strt => { d with regs := { d.regs with diwstrt := value } }
  | .stop => { d with regs := { d.regs with diwstop := value } }
  | .high => if d.chipRev = .ecs then { d with regs := { d.regs with diwhigh := value } } else d
  | .bplcon0 => { d with regs := { d.regs with bplcon0 := value } }

/-- The write is to a register that the chip has. -/
def diwDecodes (d : RigelDenise) (r : DiwReg) : Bool := r != .high || d.chipRev == .ecs

theorem diwStep_video (d : RigelDenise) (r : DiwReg) (value : UInt16) :
    (diwStep d (.write r value)).video =
      if diwDecodes d r then (rigelDeniseDisplayWindowUpdate (diwLatch d r value)).video else d.video := by
  cases r with
  | strt => rfl
  | stop => rfl
  | bplcon0 => rfl
  | high =>
    by_cases hecs : d.chipRev = .ecs
    · simp only [diwStep, diwLatch, diwDecodes, hecs, BEq.rfl, Bool.or_true, if_true]
      show (rigelDeniseControlWrite d 0x1E4 value).video = _
      simp only [rigelDeniseControlWrite, hecs, if_true]
    · have hdec : diwDecodes d .high = false := by
        simp only [diwDecodes, bne_self_eq_false, Bool.false_or]
        exact beq_false_of_ne hecs
      rw [hdec, if_neg Bool.false_ne_true]
      show (rigelDeniseControlWrite d 0x1E4 value).video = _
      simp only [rigelDeniseControlWrite, if_neg hecs]

/-! ## Windows -/

/-- What holds of every window that Denise takes over: it has a width, which its edges give, begins inside the scanline
buffer and ends above the bottom of the raster. -/
structure WindowBounds (v : DeniseVideoState) : Prop where
  xOrder : v.visibleXStart < v.visibleXStop
  width : v.width = v.visibleXStop - v.visibleXStart
  xStart : v.visibleXStart.toNat < deniseMaxScanlinePixels
  yStop : v.visibleYStop ≤ deniseMaxLines

/-- **A valid window**: both pairs of edges in order, the sizes between them, and no line below the raster. -/
structure WindowValid (v : DeniseVideoState) : Prop where
  yOrder : v.visibleYStart < v.visibleYStop
  yStop : v.visibleYStop ≤ deniseMaxLines
  height : v.height = v.visibleYStop - v.visibleYStart
  xOrder : v.visibleXStart < v.visibleXStop
  width : v.width = v.visibleXStop - v.visibleXStart

theorem windowReset_bounds : WindowBounds rigelDeniseDisplayWindowReset := ⟨by decide, rfl, by decide, by decide⟩

theorem windowReset_valid : WindowValid rigelDeniseDisplayWindowReset := ⟨by decide, by decide, rfl, by decide, rfl⟩

/-- The start has nine bits in either decoding. -/
theorem diwDecode_hstrt (r : DeniseRegisterFile) :
    (diwDecodeOcs r).hstrt.toNat < 512 ∧ (diwDecodeEcs r).hstrt.toNat < 512 := by
  constructor
  · show (r.diwstrt &&& 0x00FF).toNat < 512
    rw [UInt16.toNat_and]
    exact Nat.lt_of_le_of_lt Nat.and_le_right (by decide)
  · have hbit : ((((r.diwhigh &&& (0x00FF : UInt16)) >>> 5) &&& (0x1 : UInt16))).toNat ≤ 1 := by
      rw [UInt16.toNat_and]
      exact Nat.and_le_right
    have hlow : (r.diwstrt &&& (0x00FF : UInt16)).toNat < 2 ^ 8 := by
      rw [UInt16.toNat_and]
      exact Nat.lt_of_le_of_lt Nat.and_le_right (by decide)
    show ((r.diwstrt &&& (0x00FF : UInt16)) |||
      ((((r.diwhigh &&& (0x00FF : UInt16)) >>> 5) &&& (0x1 : UInt16)) <<< 8)).toNat < 512
    rw [UInt16.toNat_or, UInt16.toNat_shiftLeft]
    generalize (((r.diwhigh &&& (0x00FF : UInt16)) >>> 5) &&& (0x1 : UInt16)).toNat = bit at hbit
    refine @Nat.or_lt_two_pow _ _ 9 (Nat.lt_trans hlow (by decide)) ?_
    simp only [UInt16.reduceToNat, Nat.reduceMod, Nat.shiftLeft_eq, Nat.reducePow]
    omega

theorem diwTall_hstrt (e : DiwEdges) : (diwTall e).hstrt = e.hstrt := by
  unfold diwTall
  split <;> rfl

theorem diwEdges_hstrt (rev : AgnusChipRev) (r : DeniseRegisterFile) : (diwEdges rev r).hstrt.toNat < 512 := by
  obtain ⟨hocs, hecs⟩ := diwDecode_hstrt r
  unfold diwEdges
  split
  · rw [diwTall_hstrt]
    exact hocs
  · unfold diwNarrow
    split
    · exact hocs
    · exact hecs

/-- The horizontal half of the window, and the clamp of its stop. -/
theorem diwVideo_bounds {e : DiwEdges} (hstrt : e.hstrt.toNat < 512) (hstop : e.hstop.toNat < 1024) (bplcon0 : UInt16) :
    WindowBounds (diwVideo bplcon0 e) := by
  generalize hs : (if bplcon0 &&& 0x8000 ≠ 0 then (2 : UInt16) else 1) = hscale
  generalize hw : (if e.hstop > e.hstrt then e.hstop - e.hstrt else 320) = hwidth
  have hscaled : 1 ≤ hscale.toNat ∧ hscale.toNat ≤ 2 := by
    rw [← hs]
    split <;> decide
  have hwide : 0 < hwidth.toNat ∧ hwidth.toNat < 1024 := by
    rw [← hw]
    split
    · rename_i hlt
      rw [UInt16.toNat_sub_of_le _ _ (UInt16.le_of_lt hlt)]
      have hnat := UInt16.lt_iff_toNat_lt.mp hlt
      omega
    · decide
  have hstart : (e.hstrt * hscale).toNat = e.hstrt.toNat * hscale.toNat := by
    rw [UInt16.toNat_mul]
    exact Nat.mod_eq_of_lt (Nat.lt_of_le_of_lt (Nat.mul_le_mul (Nat.le_of_lt hstrt) hscaled.2) (by decide))
  have hspan : (hwidth * hscale).toNat = hwidth.toNat * hscale.toNat := by
    rw [UInt16.toNat_mul]
    exact Nat.mod_eq_of_lt (Nat.lt_of_le_of_lt (Nat.mul_le_mul (Nat.le_of_lt hwide.2) hscaled.2) (by decide))
  have hstart2 : e.hstrt.toNat * hscale.toNat ≤ 511 * 2 := Nat.mul_le_mul (by omega) hscaled.2
  have hspan2 : hwidth.toNat * hscale.toNat ≤ 1023 * 2 := Nat.mul_le_mul (by omega) hscaled.2
  have hspan1 : 0 < hwidth.toNat * hscale.toNat := Nat.mul_pos hwide.1 hscaled.1
  have hstops : (e.hstrt * hscale + hwidth * hscale).toNat = e.hstrt.toNat * hscale.toNat + hwidth.toNat * hscale.toNat := by
    rw [UInt16.toNat_add, hstart, hspan]
    omega
  unfold diwVideo
  simp only
  rw [hs, hw]
  constructor
  · simp only
    rw [UInt16.lt_iff_toNat_lt, hstops, hstart]
    omega
  · simp only
    rw [UInt16.add_comm, UInt16.add_sub_cancel]
  · simp only
    rw [hstart]
    exact Nat.lt_of_le_of_lt hstart2 (by decide)
  · simp only
    split
    · exact UInt16.le_refl _
    · rename_i hle
      exact UInt16.not_lt.mp hle

/-! ## The right way up -/

/-- The OCS edges have eight bits, the ECS stop eleven. -/
theorem diwDecode_vertical (r : DeniseRegisterFile) :
    (diwDecodeOcs r).vstrt.toNat < 256 ∧ (diwDecodeOcs r).vstop.toNat < 256 ∧ (diwDecodeEcs r).vstop.toNat < 2048 := by
  refine ⟨and_uint16_lt _ (by decide), and_uint16_lt _ (by decide), ?_⟩
  have hlow : ((r.diwstop >>> (8 : UInt16)) &&& (0x00FF : UInt16)).toNat < 256 := and_uint16_lt _ (by decide)
  have hext : (((r.diwhigh >>> (8 : UInt16)) &&& (0x00FF : UInt16)) &&& (0x7 : UInt16)).toNat < 8 :=
    and_uint16_lt _ (by decide)
  show (((r.diwstop >>> (8 : UInt16)) &&& (0x00FF : UInt16)) |||
    ((((r.diwhigh >>> (8 : UInt16)) &&& (0x00FF : UInt16)) &&& (0x7 : UInt16)) <<< (8 : UInt16))).toNat < 2048
  rw [diwStart_eq_iff hlow (UInt16.le_iff_toNat_le.mpr (Nat.le_of_lt_succ hext))]
  omega

/-- A stop that is not behind the start gets 256 lines more. -/
theorem wrap_order {start stop : UInt16} (h : stop.toNat < 2048) :
    start < (if stop ≤ start then stop + 256 else stop) ↔ ¬ stop.toNat + 256 ≤ start.toNat := by
  rw [UInt16.lt_iff_toNat_lt]
  split
  · have h256 : (256 : UInt16).toNat = 256 := rfl
    rw [UInt16.toNat_add, h256, Nat.mod_eq_of_lt (by omega), Nat.not_le]
  · rename_i hnot
    rw [UInt16.le_iff_toNat_le] at hnot
    omega

theorem diwTall_order {e : DiwEdges} (h : e.vstrt < e.vstop) : (diwTall e).vstrt < (diwTall e).vstop := by
  unfold diwTall
  split
  · rename_i hshort
    have hnat := UInt16.lt_iff_toNat_lt.mp hshort.2
    rw [UInt16.lt_iff_toNat_lt, UInt16.toNat_add]
    simp only [UInt16.reduceToNat] at hnat ⊢
    omega
  · exact h

/-- The registers are decoded the ECS way, to a start 256 lines or more below the stop. -/
def StopFarAbove (rev : AgnusChipRev) (r : DeniseRegisterFile) : Prop :=
  ocsDiw rev r = false ∧ (diwDecodeEcs r).vstop.toNat + 256 ≤ (diwDecodeEcs r).vstrt.toNat

instance (rev : AgnusChipRev) (r : DeniseRegisterFile) : Decidable (StopFarAbove rev r) :=
  inferInstanceAs (Decidable (_ ∧ _))

/-- **The decoded stop is behind the start**, unless it was 256 lines or more before it. -/
theorem diwEdges_order (rev : AgnusChipRev) (r : DeniseRegisterFile) :
    (diwEdges rev r).vstrt < (diwEdges rev r).vstop ↔ ¬ StopFarAbove rev r := by
  obtain ⟨hstrt, hstop, hecs⟩ := diwDecode_vertical r
  unfold diwEdges StopFarAbove
  cases hocs : ocsDiw rev r with
  | true =>
    rw [if_pos rfl]
    have hlow : ¬ (diwDecodeOcs r).vstop.toNat + 256 ≤ (diwDecodeOcs r).vstrt.toNat := by omega
    exact iff_of_true (diwTall_order ((wrap_order (Nat.lt_trans hstop (by decide))).mpr hlow)) fun h => Bool.noConfusion h.1
  | false =>
    have hnarrow : ∀ e, (diwNarrow r e).vstrt = e.vstrt ∧ (diwNarrow r e).vstop = e.vstop := by
      intro e
      unfold diwNarrow
      split <;> exact ⟨rfl, rfl⟩
    rw [if_neg Bool.false_ne_true, (hnarrow _).1, (hnarrow _).2]
    simp only [true_and]
    exact wrap_order hecs

theorem diwVideo_valid {e : DiwEdges} {bplcon0 : UInt16} (hb : WindowBounds (diwVideo bplcon0 e)) (hraster : e.vstrt < deniseMaxLines) :
    WindowValid (diwVideo bplcon0 e) ↔ e.vstrt < e.vstop := by
  generalize hc : (if e.vstop > deniseMaxLines then deniseMaxLines else e.vstop) = clamped
  have horder : e.vstrt < clamped ↔ e.vstrt < e.vstop := by
    rw [← hc]
    split
    · rename_i hlow
      exact iff_of_true hraster (UInt16.lt_trans hraster hlow)
    · exact Iff.rfl
  constructor
  · intro h
    have hy := h.yOrder
    unfold diwVideo at hy
    simp only at hy
    rw [hc] at hy
    exact horder.mp hy
  · intro h
    refine ⟨?_, hb.yStop, ?_, hb.xOrder, hb.width⟩
    · unfold diwVideo
      simp only
      rw [hc]
      exact horder.mpr h
    · unfold diwVideo
      simp only
      rw [hc, if_pos (horder.mpr h)]

/-! ## Updates -/

/-- The registers describe a window that Denise takes over and that starts 256 lines or more below its stop. -/
structure DiwUpsideDown (d : RigelDenise) : Prop where
  accepted : DiwAccepted d
  far : StopFarAbove d.chipRev d.regs

theorem displayWindowUpdate_bounds {d : RigelDenise} (h : WindowBounds d.video) :
    WindowBounds (rigelDeniseDisplayWindowUpdate d).video := by
  unfold rigelDeniseDisplayWindowUpdate
  simp only
  repeat' split
  all_goals first
    | exact h
    | exact diwVideo_bounds (diwEdges_hstrt _ _) (diwEdges_hstop _ _) _

/-- A valid window has a width and a height. -/
theorem WindowValid.sized {v : DeniseVideoState} (h : WindowValid v) : (v.width != 0 && v.height != 0) = true := by
  have hpos : ∀ {a b c : UInt16}, c = b - a → a < b → (c != 0) = true := by
    intro a b c hc hlt
    have hnat := UInt16.toNat_sub_of_le _ _ (UInt16.le_of_lt hlt)
    have hlt' := UInt16.lt_iff_toNat_lt.mp hlt
    rw [hc, bne_iff_ne]
    intro h0
    rw [h0, UInt16.toNat_zero] at hnat
    omega
  rw [hpos h.width h.xOrder, hpos h.height h.yOrder]
  rfl

/-- **A valid window stays valid exactly if the registers do not put its start 256 lines or more below its stop.** -/
theorem displayWindowUpdate_valid {d : RigelDenise} (h : WindowValid d.video) :
    WindowValid (rigelDeniseDisplayWindowUpdate d).video ↔ ¬ DiwUpsideDown d := by
  unfold rigelDeniseDisplayWindowUpdate
  simp only
  rw [h.sized]
  simp only [and_true]
  split
  · rename_i hblank
    exact iff_of_true h fun hu => hu.accepted.depth hblank
  · rename_i hdepth
    split
    · rename_i hstrt
      exact iff_of_true h fun hu => hu.accepted.start hstrt
    · rename_i hstrt
      split
      · rename_i hlow
        exact iff_of_true h fun hu => UInt16.not_le.mpr hu.accepted.raster hlow
      · rename_i hraster
        have hacc : DiwAccepted d := ⟨hdepth, hstrt, UInt16.not_le.mp hraster⟩
        rw [diwVideo_valid (diwVideo_bounds (diwEdges_hstrt _ _) (diwEdges_hstop _ _) _) hacc.raster, diwEdges_order]
        exact not_congr ⟨fun hfar => ⟨hacc, hfar⟩, DiwUpsideDown.far⟩

/-! ## Runs -/

/-- The write has an ECS window taken over that starts 256 lines or more below its stop. -/
def turnsUpsideDown (d : RigelDenise) : DiwOp → Prop
  | .write r value => diwDecodes d r = true ∧ DiwUpsideDown (diwLatch d r value)
  | .reset => False
  | .resetAs _ => False

theorem diwLatch_video (d : RigelDenise) (r : DiwReg) (value : UInt16) : (diwLatch d r value).video = d.video := by
  cases r with
  | strt => rfl
  | stop => rfl
  | bplcon0 => rfl
  | high =>
    unfold diwLatch
    simp only
    split <;> rfl

/-- **The window has a width and lies above the raster's bottom** in any reachable machine. -/
theorem windowBounds_invariant : DisplayInvariant fun _ d => WindowBounds d.video where
  reset ctx := displayWindowUpdate_bounds (d := { (rigelChipsetReset ctx).denise with
    chipRev := chipRevOf ctx.ram.chipsetModel }) windowReset_bounds
  write {a d} addr value h := by
    unfold deniseAfterWrite
    cases rigelCustomDomainForReg addr with
    | agnus =>
      rw [deniseAfterMmio_eq]
      exact h
    | denise =>
      simp only [rigelDeniseRegistersWrite]
      split
      · exact h
      split
      · exact h
      · unfold rigelDeniseControlWrite
        repeat' split
        all_goals first
          | exact h
          | exact displayWindowUpdate_bounds h
    | paula => exact h
    | unknown => exact h
  still {a a' d d'} h hs := by
    rw [hs.video]
    exact h

theorem diwStep_valid {d : RigelDenise} (h : WindowValid d.video) (op : DiwOp) :
    WindowValid (diwStep d op).video ↔ ¬ turnsUpsideDown d op := by
  cases op with
  | reset => exact iff_of_true windowReset_valid id
  | resetAs rev =>
    have hocs : ¬ DiwUpsideDown { rigelDeniseReset d with chipRev := rev } := by
      intro hu
      have hdiw := hu.far.1
      unfold ocsDiw at hdiw
      have hhigh : ({ rigelDeniseReset d with chipRev := rev } : RigelDenise).regs.diwhigh = 0 := rfl
      rw [hhigh, bne_self_eq_false, Bool.and_false] at hdiw
      exact Bool.noConfusion hdiw
    exact iff_of_true
      ((displayWindowUpdate_valid (d := { rigelDeniseReset d with chipRev := rev }) windowReset_valid).mpr hocs) id
  | write r value =>
    rw [diwStep_video, turnsUpsideDown]
    split
    · rename_i hdec
      have hlatch : WindowValid (diwLatch d r value).video := (diwLatch_video d r value).symm ▸ h
      rw [displayWindowUpdate_valid hlatch, hdec]
      simp only [true_and]
    · rename_i hdec
      exact iff_of_true h fun hu => hdec hu.1

/-- **The window is valid in every state of a run exactly if no write of the run turns it upside down.** The run begins at a
reset of any Denise. -/
theorem windowValid_run_iff (d : RigelDenise) (ops : List DiwOp) :
    (∀ pre, pre <+: ops → WindowValid (pre.foldl diwStep (rigelDeniseReset d)).video) ↔
      AlongRun diwStep (fun d op => ¬ turnsUpsideDown d op) (rigelDeniseReset d) ops := by
  have hrun : AlongRun diwStep (fun d op => WindowValid (diwStep d op).video) (rigelDeniseReset d) ops ↔
      AlongRun diwStep (fun d op => ¬ turnsUpsideDown d op) (rigelDeniseReset d) ops :=
    alongRun_iff (fun _ op (hd : WindowValid _) => diwStep_valid hd op)
      (fun _ op hd hq => (diwStep_valid hd op).mpr hq) ops _ windowReset_valid
  have hall : (∀ pre, pre <+: ops → WindowValid (pre.foldl diwStep (rigelDeniseReset d)).video) ↔ _ ∧ _ :=
    forall_prefix_iff (P := fun d => WindowValid d.video) ops (rigelDeniseReset d)
  rw [hall, hrun]
  exact and_iff_right windowReset_valid

/-- An ECS Denise, and two writes after its reset: DIWSTRT begins the window at line 44, then DIWHIGH at line 300, while
DIWSTOP is still clear. -/
def upsideDownRun : RigelDenise :=
  [DiwOp.write .strt 0x2C81, .write .high 0x0001].foldl diwStep
    (rigelDeniseReset { RigelDenise.cleared with chipRev := .ecs })

/-- The window then starts at line 300 and stops at line 256. -/
theorem upsideDownRun_invalid : ¬ WindowValid upsideDownRun.video := fun h => absurd h.yOrder (by decide +kernel)

end Rigel
