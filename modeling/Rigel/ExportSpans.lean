import Rigel.WindowValid

/-!
# ExportSpans — the pixels that leave Denise

A line of the window goes to the host's own picture when the beam leaves it, and from the frame buffer the host reads a
line or the whole frame. The three paths work out the same columns, each on its own: a left margin of 32 pixels before the
window, and a stop at the end of the buffer. The copy clamps its width to the buffer's and not its stop.
-/

namespace Rigel

inductive RigelPixelFormat where
  | rgba8888
  | rgb565
  deriving DecidableEq

def RigelPixelFormat.bytes : RigelPixelFormat → Nat
  | .rgba8888 => 4
  | .rgb565 => 2

/-- The host's picture: rows of `pitch` bytes. -/
structure RigelFramebufferTarget where
  hasPixels : Bool
  width : UInt32
  height : UInt32
  pitch : UInt32
  format : RigelPixelFormat
  littleEndian : Bool

/-- `rigel_denise_framebuffer_set_target`: the target it takes over, if any. -/
def rigelDeniseFramebufferSetTarget (t : RigelFramebufferTarget) : Option RigelFramebufferTarget :=
  if !t.hasPixels ∨ t.width = 0 ∨ t.height = 0 ∨ t.pitch = 0 then none
  else if t.pitch.toNat < t.width.toNat * t.format.bytes then none
  else some t

/-! ## The three paths -/

/-- A copy into the target: `width` pixels of the scanline from `x0` on, to the byte `dst` of the target, which is to begin
its row `row`. -/
structure LineCopy where
  row : UInt32
  dst : UInt32
  x0 : UInt16
  width : UInt32
  deriving DecidableEq

/-- `copy_visible_line_to_target` for the line that the beam leaves. -/
def copyVisibleLineToTarget (v : DeniseVideoState) (rasterY : UInt16) (t : RigelFramebufferTarget) : Option LineCopy :=
  if rasterY < v.visibleYStart ∨ rasterY ≥ v.visibleYStop then none
  else
    let row := (rasterY - v.visibleYStart).toUInt32
    if row ≥ t.height then none
    else
      let x0 := if v.visibleXStart > v.visibleXStop then 0 else v.visibleXStart
      let x0 := if x0 > 32 then x0 - 32 else 0
      let width := if v.visibleXStop > x0 then (v.visibleXStop - x0).toUInt32 else 0
      let width := if width > 1024 then 1024 else width
      let width := if width > t.width then t.width else width
      some { row := row, dst := row * t.pitch, x0 := x0, width := width }

/-- `rigel_denise_frame_x_bounds`. -/
def rigelDeniseFrameXBounds (v : DeniseVideoState) : UInt16 × UInt16 :=
  let stop := if v.visibleXStop > 1024 then 1024 else v.visibleXStop
  let start := if v.visibleXStart > stop then 0 else v.visibleXStart
  (if start > 32 then start - 32 else 0, stop)

/-- `rigel_get_scanline`: the first column of the line and how many of them. -/
def rigelGetScanline (v : DeniseVideoState) (y : UInt16) : Option (UInt16 × UInt16) :=
  if y ≥ deniseMaxLines then none
  else
    let (x0, x1) := rigelDeniseFrameXBounds v
    some (x0, x1 - x0)

/-- The picture that `rigel_get_frame` returns, with the place of its first pixel in the frame buffer, row and column; a
picture without pixels has no place. -/
structure RigelFrame where
  width : UInt32
  height : UInt32
  pitch : UInt32
  pixels : Option (UInt16 × UInt16)
  deriving DecidableEq

/-- The rows that `rigel_get_frame` shows: a low window from the top down to line 256 at least, any other from line 44 at
the latest down to line 244 at least. -/
def rigelFrameYBounds (v : DeniseVideoState) : UInt16 × UInt16 :=
  let y0 := v.visibleYStart
  let y1 := v.visibleYStop
  if y1 - y0 < 64 ∧ y0 < 64 then (y0, if y1 < 256 then 256 else y1)
  else (if y0 > 64 then 44 else y0, if y1 < 244 then 244 else y1)

def rigelGetFrame (v : DeniseVideoState) (format : RigelPixelFormat) : RigelFrame :=
  let (x0, x1) := rigelDeniseFrameXBounds v
  let (y0, y1) := rigelFrameYBounds v
  if y0 ≥ deniseMaxLines ∨ y1 ≤ y0 ∨ x1 ≤ x0 then ⟨0, 0, 0, none⟩
  else
    { width := (x1 - x0).toUInt32
      height := (y1 - y0).toUInt32
      pitch := UInt32.ofNat (deniseMaxScanlinePixels * format.bytes)
      pixels := if y0 < deniseMaxLines then some (y0, x0) else some (0, 0) }

/-! ## Spans inside the buffers -/

/-- **A copy that stays inside its buffers**: it reads inside the scanline, writes no more pixels than the target's row has,
from the beginning of a row of the target to its end at most, and exports the columns of `rigel_get_scanline`, as many as
the row has. -/
structure CopyInside (v : DeniseVideoState) (t : RigelFramebufferTarget) (c : LineCopy) : Prop where
  source : c.x0.toNat + c.width.toNat ≤ deniseMaxScanlinePixels
  pixels : c.width ≤ t.width
  row : c.row < t.height
  dst : c.dst.toNat = c.row.toNat * t.pitch.toNat
  bytes : c.width.toNat * t.format.bytes ≤ t.pitch.toNat
  span : ∀ y x0 width, rigelGetScanline v y = some (x0, width) → c.x0 = x0 ∧ c.width.toNat = min width.toNat t.width.toNat

/-- A picture inside the frame buffer. -/
def FrameInside (f : RigelFrame) : Prop :=
  match f.pixels with
  | none => f.width = 0 ∧ f.height = 0
  | some (y0, x0) =>
    y0.toNat + f.height.toNat ≤ deniseMaxLines.toNat ∧ x0.toNat + f.width.toNat ≤ deniseMaxScanlinePixels

/-- The column that the export begins with. -/
def exportLeft (v : DeniseVideoState) : Nat := v.visibleXStart.toNat - 32

/-- The columns of a window inside its bounds. -/
theorem frameXBounds_eq {v : DeniseVideoState} (h : WindowBounds v) :
    (rigelDeniseFrameXBounds v).1.toNat = exportLeft v ∧
      (rigelDeniseFrameXBounds v).2.toNat = min v.visibleXStop.toNat deniseMaxScanlinePixels := by
  have hx := UInt16.lt_iff_toNat_lt.mp h.xOrder
  have hstart := h.xStart
  have h1024 : (1024 : UInt16).toNat = 1024 := rfl
  have h32 : (32 : UInt16).toNat = 32 := rfl
  generalize hs : (if v.visibleXStop > 1024 then (1024 : UInt16) else v.visibleXStop) = stop
  have hstop : stop.toNat = min v.visibleXStop.toNat deniseMaxScanlinePixels := by
    rw [← hs]
    unfold deniseMaxScanlinePixels
    split
    · rename_i hgt
      have hnat := UInt16.lt_iff_toNat_lt.mp hgt
      omega
    · rename_i hle
      have hnat := UInt16.le_iff_toNat_le.mp (UInt16.not_lt.mp hle)
      omega
  unfold deniseMaxScanlinePixels at hstart hstop
  have hkeep : ¬ v.visibleXStart > stop := by
    intro hgt
    have hnat := UInt16.lt_iff_toNat_lt.mp hgt
    omega
  unfold rigelDeniseFrameXBounds exportLeft deniseMaxScanlinePixels
  simp only
  rw [hs, if_neg hkeep]
  refine ⟨?_, hstop⟩
  split
  · rename_i hgt
    rw [UInt16.toNat_sub_of_le _ _ (UInt16.le_of_lt hgt), h32]
  · rename_i hle
    have hnat := UInt16.le_iff_toNat_le.mp (UInt16.not_lt.mp hle)
    rw [UInt16.toNat_zero]
    omega

theorem frameYBounds_stop {v : DeniseVideoState} (h : WindowBounds v) : (rigelFrameYBounds v).2.toNat ≤ deniseMaxLines.toNat := by
  have hstop := UInt16.le_iff_toNat_le.mp h.yStop
  have h256 : (256 : UInt16).toNat ≤ deniseMaxLines.toNat := by decide
  have h244 : (244 : UInt16).toNat ≤ deniseMaxLines.toNat := by decide
  unfold rigelFrameYBounds
  simp only
  repeat' split
  all_goals first
    | exact hstop
    | exact h256
    | exact h244

/-- **The frame lies inside the frame buffer.** -/
theorem getFrame_inside {v : DeniseVideoState} (h : WindowBounds v) (format : RigelPixelFormat) :
    FrameInside (rigelGetFrame v format) := by
  have hstop := frameYBounds_stop h
  obtain ⟨-, hx1⟩ := frameXBounds_eq h
  unfold rigelGetFrame
  generalize rigelDeniseFrameXBounds v = xs at hx1
  generalize rigelFrameYBounds v = ys at hstop
  obtain ⟨x0, x1⟩ := xs
  obtain ⟨y0, y1⟩ := ys
  simp only at hx1 hstop ⊢
  split
  · exact ⟨rfl, rfl⟩
  · rename_i hguard
    obtain ⟨hy, hyx⟩ := not_or.mp hguard
    obtain ⟨hy1, hx⟩ := not_or.mp hyx
    have hylt := UInt16.lt_iff_toNat_lt.mp (UInt16.not_le.mp hy1)
    have hxlt := UInt16.lt_iff_toNat_lt.mp (UInt16.not_le.mp hx)
    rw [if_pos (UInt16.not_le.mp hy)]
    refine ⟨?_, ?_⟩
    · rw [UInt16.toNat_toUInt32, UInt16.toNat_sub_of_le _ _ (UInt16.le_of_lt (UInt16.not_le.mp hy1))]
      omega
    · rw [UInt16.toNat_toUInt32, UInt16.toNat_sub_of_le _ _ (UInt16.le_of_lt (UInt16.not_le.mp hx))]
      omega

/-! ## The copy -/

/-- The line is inside the window, and inside the rows of the target. -/
def LineGoesOut (v : DeniseVideoState) (rasterY : UInt16) (t : RigelFramebufferTarget) : Prop :=
  v.visibleYStart ≤ rasterY ∧ rasterY < v.visibleYStop ∧ rasterY.toNat - v.visibleYStart.toNat < t.height.toNat

/-- The window ends inside the scanline, or the export begins with its first pixel, or the target's row ends before the
scanline does. -/
def SpanFits (v : DeniseVideoState) (t : RigelFramebufferTarget) : Prop :=
  v.visibleXStop.toNat ≤ deniseMaxScanlinePixels ∨ exportLeft v = 0 ∨
    exportLeft v + t.width.toNat ≤ deniseMaxScanlinePixels

/-- The bytes before the row can be counted in 32 bits. -/
def RowFits (v : DeniseVideoState) (rasterY : UInt16) (t : RigelFramebufferTarget) : Prop :=
  (rasterY.toNat - v.visibleYStart.toNat) * t.pitch.toNat < 2 ^ 32

instance (v : DeniseVideoState) (rasterY : UInt16) (t : RigelFramebufferTarget) : Decidable (LineGoesOut v rasterY t) :=
  inferInstanceAs (Decidable (_ ∧ _ ∧ _))

instance (v : DeniseVideoState) (t : RigelFramebufferTarget) : Decidable (SpanFits v t) :=
  inferInstanceAs (Decidable (_ ∨ _ ∨ _))

instance (v : DeniseVideoState) (rasterY : UInt16) (t : RigelFramebufferTarget) : Decidable (RowFits v rasterY t) :=
  inferInstanceAs (Decidable (_ < _))

/-- What a copy reads and where it writes, in natural numbers. -/
structure CopyIs (v : DeniseVideoState) (rasterY : UInt16) (t : RigelFramebufferTarget) (c : LineCopy) : Prop where
  x0 : c.x0.toNat = exportLeft v
  width : c.width.toNat = min (min (v.visibleXStop.toNat - exportLeft v) deniseMaxScanlinePixels) t.width.toNat
  row : c.row.toNat = rasterY.toNat - v.visibleYStart.toNat
  dst : c.dst.toNat = (rasterY.toNat - v.visibleYStart.toNat) * t.pitch.toNat % 2 ^ 32

/-- The rows of a target that is taken over have room for their pixels. -/
theorem setTarget_pitch {host t : RigelFramebufferTarget} (h : rigelDeniseFramebufferSetTarget host = some t) :
    t.width.toNat * t.format.bytes ≤ t.pitch.toNat := by
  unfold rigelDeniseFramebufferSetTarget at h
  split at h
  · contradiction
  split at h
  · contradiction
  · rename_i hpitch
    cases h
    exact Nat.not_lt.mp hpitch

/-- A width that is clamped to the buffer's size, not to what is left of it behind `left`. -/
theorem clampedWidth_fits_iff {left stop size room : Nat} (hstop : left < stop) :
    left + min (min (stop - left) size) room ≤ size ↔
      stop ≤ size ∨ left = 0 ∨ left + room ≤ size := by
  simp only [Nat.min_def]
  repeat' split
  all_goals omega

theorem clampedWidth_eq {left stop size room : Nat} (h : stop ≤ size ∨ left = 0 ∨ left + room ≤ size) :
    min (min (stop - left) size) room = min (min stop size - left) room := by
  simp only [Nat.min_def]
  repeat' split
  all_goals omega

theorem uint32_clamp (w m : UInt32) : (if w > m then m else w).toNat = min w.toNat m.toNat := by
  split
  · rename_i h
    have hnat := UInt32.lt_iff_toNat_lt.mp h
    omega
  · rename_i h
    have hnat := UInt32.le_iff_toNat_le.mp (UInt32.not_lt.mp h)
    omega

theorem copyVisibleLine_some {v : DeniseVideoState} (h : WindowBounds v) {rasterY : UInt16} {t : RigelFramebufferTarget}
    (hout : LineGoesOut v rasterY t) : ∃ c, copyVisibleLineToTarget v rasterY t = some c ∧ CopyIs v rasterY t c := by
  obtain ⟨hstart, hstop, hrow⟩ := hout
  have hx := UInt16.lt_iff_toNat_lt.mp h.xOrder
  have hxstart := h.xStart
  have h32 : (32 : UInt16).toNat = 32 := rfl
  have hrowNat : (rasterY - v.visibleYStart).toUInt32.toNat = rasterY.toNat - v.visibleYStart.toNat := by
    rw [UInt16.toNat_toUInt32, UInt16.toNat_sub_of_le _ _ hstart]
  have hrows : ¬ (rasterY - v.visibleYStart).toUInt32 ≥ t.height := by
    rw [ge_iff_le, UInt32.le_iff_toNat_le, hrowNat]
    omega
  have hkeep : ¬ v.visibleXStart > v.visibleXStop := fun hgt => by
    have hnat := UInt16.lt_iff_toNat_lt.mp hgt
    omega
  generalize hl : (if v.visibleXStart > 32 then v.visibleXStart - 32 else (0 : UInt16)) = left
  have hleft : left.toNat = exportLeft v := by
    rw [← hl]
    unfold exportLeft
    split
    · rename_i hgt
      rw [UInt16.toNat_sub_of_le _ _ (UInt16.le_of_lt hgt), h32]
    · rename_i hle
      have hnat := UInt16.le_iff_toNat_le.mp (UInt16.not_lt.mp hle)
      rw [UInt16.toNat_zero]
      omega
  have hbehind : v.visibleXStop > left := by
    rw [gt_iff_lt, UInt16.lt_iff_toNat_lt, hleft]
    unfold exportLeft
    omega
  unfold copyVisibleLineToTarget
  simp only
  rw [if_neg (by simp only [not_or, UInt16.not_lt, ge_iff_le, UInt16.not_le]; exact ⟨hstart, hstop⟩), if_neg hrows,
    if_neg hkeep, hl, if_pos hbehind]
  refine ⟨_, rfl, hleft, ?_, hrowNat, ?_⟩
  · rw [uint32_clamp, uint32_clamp, UInt16.toNat_toUInt32, UInt16.toNat_sub_of_le _ _ (UInt16.le_of_lt hbehind), hleft]
    rfl
  · simp only
    rw [UInt32.toNat_mul, hrowNat]

theorem copyVisibleLine_none {v : DeniseVideoState} {rasterY : UInt16} {t : RigelFramebufferTarget}
    (hout : ¬ LineGoesOut v rasterY t) : copyVisibleLineToTarget v rasterY t = none := by
  unfold copyVisibleLineToTarget
  simp only
  split
  · rfl
  · rename_i hin
    obtain ⟨hstart, hstop⟩ := not_or.mp hin
    have hle := UInt16.not_lt.mp hstart
    rw [if_pos]
    rw [ge_iff_le, UInt32.le_iff_toNat_le, UInt16.toNat_toUInt32, UInt16.toNat_sub_of_le _ _ hle]
    exact Nat.not_lt.mp fun hrow => hout ⟨hle, UInt16.not_le.mp hstop, hrow⟩

/-- **A copy stays inside its buffers exactly if its span fits and its row can be addressed.** -/
theorem copyInside_iff {v : DeniseVideoState} (h : WindowBounds v) {rasterY : UInt16} {t : RigelFramebufferTarget}
    (hpitch : t.width.toNat * t.format.bytes ≤ t.pitch.toNat)
    (hrow : rasterY.toNat - v.visibleYStart.toNat < t.height.toNat) {c : LineCopy} (hc : CopyIs v rasterY t c) :
    CopyInside v t c ↔ SpanFits v t ∧ RowFits v rasterY t := by
  have hleft : exportLeft v < v.visibleXStop.toNat := by
    have hx := UInt16.lt_iff_toNat_lt.mp h.xOrder
    unfold exportLeft
    omega
  have hstart : exportLeft v < deniseMaxScanlinePixels := by
    have hx := h.xStart
    unfold exportLeft
    omega
  have hx0 := hc.x0
  have hwidth := hc.width
  have hfits : c.x0.toNat + c.width.toNat ≤ deniseMaxScanlinePixels ↔ SpanFits v t := by
    rw [hx0, hwidth]
    exact clampedWidth_fits_iff hleft
  unfold RowFits
  constructor
  · intro hin
    have hdst := hin.dst
    refine ⟨hfits.mp hin.source, ?_⟩
    rw [hc.dst, hc.row] at hdst
    rw [← hdst]
    exact Nat.mod_lt _ (by decide)
  · rintro ⟨hspan, haddr⟩
    have hpixels : c.width.toNat ≤ t.width.toNat := by
      rw [hwidth]
      exact Nat.min_le_right _ _
    refine ⟨hfits.mpr hspan, UInt32.le_iff_toNat_le.mpr hpixels, ?_, ?_, ?_, ?_⟩
    · rw [UInt32.lt_iff_toNat_lt, hc.row]
      exact hrow
    · rw [hc.dst, hc.row, Nat.mod_eq_of_lt haddr]
    · exact Nat.le_trans (Nat.mul_le_mul_right _ hpixels) hpitch
    · intro y x0 width hline
      obtain ⟨hx0', hx1⟩ := frameXBounds_eq h
      unfold rigelGetScanline at hline
      generalize rigelDeniseFrameXBounds v = xs at hline hx0' hx1
      obtain ⟨a, b⟩ := xs
      simp only at hline hx0' hx1
      split at hline
      · contradiction
      · obtain ⟨rfl, rfl⟩ := Prod.mk.inj (Option.some.inj hline)
        have hab : a ≤ b := by
          rw [UInt16.le_iff_toNat_le, hx0', hx1]
          exact Nat.le_min.mpr ⟨Nat.le_of_lt hleft, Nat.le_of_lt hstart⟩
        refine ⟨UInt16.toNat_inj.mp (hx0.trans hx0'.symm), ?_⟩
        rw [UInt16.toNat_sub_of_le _ _ hab, hx0', hx1, hwidth]
        exact clampedWidth_eq hspan

/-- **The exported spans stay in the buffers exactly if a line that goes out has a span that fits and a row that can be
addressed.** The frame's picture always lies inside the frame buffer. -/
theorem exportSpans_iff {ctx : RigelContext} (hctx : Reachable ctx) {host t : RigelFramebufferTarget}
    (ht : rigelDeniseFramebufferSetTarget host = some t) (rasterY : UInt16) (format : RigelPixelFormat) :
    ((∀ c, copyVisibleLineToTarget ctx.denise.video rasterY t = some c → CopyInside ctx.denise.video t c) ∧
        FrameInside (rigelGetFrame ctx.denise.video format)) ↔
      (LineGoesOut ctx.denise.video rasterY t →
        SpanFits ctx.denise.video t ∧ RowFits ctx.denise.video rasterY t) := by
  have hb : WindowBounds ctx.denise.video := windowBounds_invariant.reachable hctx
  rw [and_iff_left (getFrame_inside hb format)]
  by_cases hout : LineGoesOut ctx.denise.video rasterY t
  · obtain ⟨c, hsome, hc⟩ := copyVisibleLine_some hb hout
    have hiff := copyInside_iff hb (setTarget_pitch ht) hout.2.2 hc
    constructor
    · exact fun h _ => hiff.mp (h c hsome)
    · intro h c' hc'
      obtain rfl := Option.some.inj (hsome.symm.trans hc')
      exact hiff.mpr (h hout)
  · rw [copyVisibleLine_none hout]
    exact iff_of_true (fun c hc => by cases hc) fun h => absurd h hout

/-- A picture of 640 by 256 pixels of four bytes. -/
def wideTarget : RigelFramebufferTarget where
  hasPixels := true
  width := 640
  height := 256
  pitch := 2560
  format := .rgba8888
  littleEndian := true

theorem wideTarget_accepted : rigelDeniseFramebufferSetTarget wideTarget = some wideTarget := rfl

/-- A PAL machine as created keeps its spans: its window is 256 pixels wide. -/
theorem palMachine_spans :
    (∀ c, copyVisibleLineToTarget palMachine.denise.video 100 wideTarget = some c →
        CopyInside palMachine.denise.video wideTarget c) ∧
      FrameInside (rigelGetFrame palMachine.denise.video .rgba8888) :=
  (exportSpans_iff palMachine_reachable wideTarget_accepted 100 .rgba8888).mpr fun _ => by decide +kernel

/-- An ECS machine in hires whose window starts late: DIWHIGH's start and stop bits H8 make it columns 385 and 272, the
stop is wrapped to 528, and both are doubled. -/
def lateWindowMachine : RigelContext :=
  [HostCall.customWrite 0x100 0x9000, .customWrite 0x08E 0x2C81, .customWrite 0x1E4 0x2020, .customWrite 0x090 0x2C10].foldl
    hostCall (rigelCreate ⟨.pal, false, false, true, true⟩ ⟨.ecs, 0x80000, true, true, fun _ => 0⟩)

/-- The copy of its line 100 reads 318 pixels from column 738 on, 32 more than there are. -/
theorem lateWindowMachine_overrun :
    Reachable lateWindowMachine ∧ rigelDeniseFramebufferSetTarget wideTarget = some wideTarget ∧
      ∃ c, copyVisibleLineToTarget lateWindowMachine.denise.video 100 wideTarget = some c ∧
        ¬ CopyInside lateWindowMachine.denise.video wideTarget c :=
  ⟨(Reachable.create _ _).calls _, wideTarget_accepted, ⟨56, 143360, 738, 318⟩, by decide +kernel, fun h => absurd h.source (by decide)⟩

end Rigel
