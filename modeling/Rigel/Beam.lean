import Mathlib.Logic.Function.Iterate

/-!
# Beam — the raster counters

`chipset/agnus/beam.c`, `timing/vblank.[ch]` and `timing/raster.c`: the position of the electron beam in colour
clocks (CCKs) and lines, its wrap at the end of a line and of a frame, the long-frame and long-line latches, and
the vertical-blank zone. Everything else in the chipset is timed by this counter.
-/

namespace Rigel

/-- `beam_state_t`. The interlace fields keep the source's `u8`: `lof` and `lol` lengthen the current frame or
line by one, the two toggles flip them at each boundary. -/
structure BeamState where
  hpos : UInt16
  vpos : UInt16
  lineClocks : UInt16
  frameLines : UInt16
  visibleYStart : UInt16
  visibleYStop : UInt16
  lof : UInt8
  lofToggle : UInt8
  lol : UInt8
  lolToggle : UInt8
  frameCount : UInt64
  deriving Repr, DecidableEq

def beamDefaultLineClocks : UInt16 := 227
def beamDefaultFrameLines : UInt16 := 262
def beamDefaultVisibleYStart : UInt16 := 26
def beamDefaultVisibleYStop : UInt16 := 255

def beamLineHmax (b : BeamState) : UInt16 :=
  b.lineClocks + (if b.lol ≠ 0 then 1 else 0)

def beamFrameVmax (b : BeamState) : UInt16 :=
  b.frameLines + (if b.lof ≠ 0 then 1 else 0)

def beamAdvanceLine (b : BeamState) : BeamState :=
  let wrap := b.vpos + 1 ≥ beamFrameVmax b
  { b with
    hpos := 0
    vpos := if wrap then 0 else b.vpos + 1
    -- the frame wrap clears `lol` once more when it does not toggle: the same value
    lol := if b.lolToggle ≠ 0 then b.lol ^^^ 1 else 0
    frameCount := if wrap then b.frameCount + 1 else b.frameCount
    lof := if wrap then (if b.lofToggle ≠ 0 then b.lof ^^^ 1 else 0) else b.lof }

def beamReset : BeamState where
  hpos := 0
  vpos := 0
  lineClocks := beamDefaultLineClocks
  frameLines := beamDefaultFrameLines
  visibleYStart := beamDefaultVisibleYStart
  visibleYStop := beamDefaultVisibleYStop
  lof := 0
  lofToggle := 0
  lol := 0
  lolToggle := 0
  frameCount := 0

/-- One pass of the `while (clocks > 0)` body of `beam_step`: the beam and the clocks left. -/
def beamStepPass (b : BeamState) (clocks : UInt16) : BeamState × UInt16 :=
  let hmax := beamLineHmax b
  let remaining := hmax - b.hpos
  if remaining = 0 then (beamAdvanceLine b, clocks)
  else if clocks < remaining then ({ b with hpos := b.hpos + clocks }, 0)
  else
    let b' := { b with hpos := b.hpos + remaining }
    (if b'.hpos ≥ hmax then beamAdvanceLine b' else b', clocks - remaining)

def beamStepLoop : Nat → BeamState → UInt16 → BeamState × UInt16
  | 0, b, clocks => (b, clocks)
  | fuel + 1, b, clocks =>
    if clocks = 0 then (b, clocks)
    else beamStepLoop fuel (beamStepPass b clocks).1 (beamStepPass b clocks).2

/-- `beam_step`. A pass that consumes no clock only wraps the line, so three passes a clock are enough. -/
def beamStep (b : BeamState) (clocks : UInt16) : BeamState :=
  let b := if b.lineClocks = 0 ∨ b.frameLines = 0 then beamReset else b
  (beamStepLoop (3 * (clocks.toNat + 1)) b clocks).1

def agnusVblLineEnd : UInt16 := 25
def agnusVertbVpos : UInt16 := 0
def agnusVertbHpos : UInt16 := 1

def agnusInVblZone (vpos : UInt16) : Bool := vpos ≤ agnusVblLineEnd

def agnusIsVertbPosition (hpos vpos : UInt16) : Bool := vpos == agnusVertbVpos && hpos == agnusVertbHpos

def agnusCyclesToVertb (b : BeamState) : UInt32 :=
  if agnusIsVertbPosition b.hpos b.vpos then 0
  else
    let cycles := b.lineClocks.toUInt32 - b.hpos.toUInt32
    let linesToWrap := if b.vpos < b.frameLines then b.frameLines.toUInt32 - b.vpos.toUInt32 - 1 else 0
    cycles + linesToWrap * b.lineClocks.toUInt32 + agnusVertbHpos.toUInt32

def beamInVblank (b : BeamState) : Bool := agnusInVblZone b.vpos

def beamCyclesUntilLineEnd (b : BeamState) : UInt16 :=
  if b.lineClocks = 0 then 0 else beamLineHmax b - b.hpos

/-! ## One colour clock -/

theorem beamStepLoop_zero_clocks (fuel : Nat) (b : BeamState) : beamStepLoop fuel b 0 = (b, 0) := by
  cases fuel <;> simp [beamStepLoop]

/-- **One colour clock.** From a position inside the line, `beam_step(1)` moves one clock right, or wraps the line
when that clock was its last. -/
theorem beamStep_one_of_lt {b : BeamState} (hf : b.frameLines ≠ 0) (hl : b.lol = 0) (hh : b.hpos < b.lineClocks) :
    beamStep b 1 =
      if b.hpos + 1 = b.lineClocks then beamAdvanceLine b else { b with hpos := b.hpos + 1 } := by
  have hlc : b.lineClocks ≠ 0 := by grind
  have hmax : beamLineHmax b = b.lineClocks := by simp [beamLineHmax, hl]
  have hrem : b.lineClocks - b.hpos ≠ 0 := by grind
  have hone : (1 : UInt16) < b.lineClocks - b.hpos ↔ b.hpos + 1 ≠ b.lineClocks := by
    have hlt := b.lineClocks.toNat_lt
    have hle : b.hpos ≤ b.lineClocks := by grind
    rw [UInt16.lt_iff_toNat_lt] at hh
    rw [UInt16.lt_iff_toNat_lt, UInt16.toNat_sub_of_le _ _ hle, ne_eq, ← UInt16.toNat_inj, UInt16.toNat_add]
    simp only [UInt16.reduceToNat]
    omega
  unfold beamStep
  simp only [hlc, hf, or_self, if_false]
  rw [show 3 * (UInt16.toNat 1 + 1) = 5 + 1 from rfl, beamStepLoop, if_neg (by decide)]
  unfold beamStepPass
  simp only [hmax, hrem, if_false]
  by_cases hw : b.hpos + 1 = b.lineClocks
  · have hno : ¬ (1 : UInt16) < b.lineClocks - b.hpos := fun h => hone.mp h hw
    have hc : 1 - (b.lineClocks - b.hpos) = 0 := by grind
    have hge : b.hpos + (b.lineClocks - b.hpos) ≥ b.lineClocks := by grind
    simp only [hno, hw, hc, hge, if_false, if_true, beamStepLoop_zero_clocks]
    rfl
  · simp only [hone.mpr hw, hw, if_true, if_false, beamStepLoop_zero_clocks]

-- the loop is never unfolded outside this module
attribute [irreducible] beamStep

end Rigel
