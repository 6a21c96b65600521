import Rigel.Blitter

/-!
# BlitterRef — the one-shot reference backend

`blitter_ref.c`: the copy loop with its shifters, masks, fill and delayed D write, and the line loop that draws
all its pixels in one call. `executeCopyMode` runs on a copy's first DMA slot; `executeLineMode` is what the
resumable line drawer of `BlitterDma` is measured against.
-/

namespace Rigel

def chipRead16 (mem : ChipRam) (addr : UInt32) : UInt16 := chipRamRead16 mem (addr &&& blitterChipAddrMask)

def chipWrite16 (mem : ChipRam) (addr : UInt32) (value : UInt16) : ChipRam :=
  chipRamWrite16 mem (addr &&& blitterChipAddrMask) value

def blitterLogic (minterm : UInt8) (a b c : UInt16) : UInt16 :=
  let na := ~~~a
  let nb := ~~~b
  let nc := ~~~c
  (if minterm &&& 0x80 ≠ 0 then a &&& b &&& c else 0) |||
  (if minterm &&& 0x40 ≠ 0 then a &&& b &&& nc else 0) |||
  (if minterm &&& 0x20 ≠ 0 then a &&& nb &&& c else 0) |||
  (if minterm &&& 0x10 ≠ 0 then a &&& nb &&& nc else 0) |||
  (if minterm &&& 0x08 ≠ 0 then na &&& b &&& c else 0) |||
  (if minterm &&& 0x04 ≠ 0 then na &&& b &&& nc else 0) |||
  (if minterm &&& 0x02 ≠ 0 then na &&& nb &&& c else 0) |||
  (if minterm &&& 0x01 ≠ 0 then na &&& nb &&& nc else 0)

/-- A signed modulo as the `u32` that C adds to a pointer. -/
def modOffset (m : Int16) : UInt32 := m.toInt32.toUInt32

/-! ## Copy mode -/

def shiftAscending (previous current : UInt16) (shift : UInt8) : UInt16 :=
  if shift = 0 then current
  else (previous <<< (16 - shift.toUInt16)) ||| (current >>> shift.toUInt16)

def shiftDescending (previous current : UInt16) (shift : UInt8) : UInt16 :=
  if shift = 0 then current
  else (previous >>> (16 - shift.toUInt16)) ||| (current <<< shift.toUInt16)

def blitterApplyShift (descending : Bool) (previous current : UInt16) (shift : UInt8) : UInt16 :=
  if descending then shiftDescending previous current shift else shiftAscending previous current shift

/-- One bit of `blitter_fill_word`: the word so far and the carry. -/
def blitterFillBit (d : UInt16) (inclusive : Bool) (acc : UInt16 × Bool) (i : Nat) : UInt16 × Bool :=
  let bit := (d >>> UInt16.ofNat i) &&& 1 != 0
  let mark := acc.1 ||| (1 <<< UInt16.ofNat i)
  if inclusive then
    let c := if bit then !acc.2 else acc.2
    (if c then mark else acc.1, c)
  else (if acc.2 ^^ bit then mark else acc.1, if bit then !acc.2 else acc.2)

def blitterFillWord (d : UInt16) (carry inclusive descending : Bool) : UInt16 × Bool :=
  (if descending then List.range 16 else (List.range 16).reverse).foldl (blitterFillBit d inclusive) (0, carry)

def blitterApplyAMasks (cmd : BlitCommand) (value : UInt16) (wordIndex : UInt32) : UInt16 :=
  let value := if wordIndex = 0 then value &&& cmd.afwm else value
  if wordIndex + 1 = cmd.widthWords.toUInt32 then value &&& cmd.alwm else value

def blitterApplyFill (cmd : BlitCommand) (value : UInt16) (fillCarry : Bool) : UInt16 × Bool :=
  match cmd.fillMode with
  | .inclusive => blitterFillWord value fillCarry true cmd.descending
  | .exclusive => blitterFillWord value fillCarry false cmd.descending
  | .none => (value, fillCarry)

/-- `blitter_fetch_word`: the word, the advanced pointer and the last observed word. -/
def blitterFetchWord (mem : ChipRam) (enabled : Bool) (ptr increment : UInt32) (latched lastObserved : UInt16) :
    UInt16 × UInt32 × UInt16 :=
  if enabled then (chipRead16 mem ptr, ptr + increment, chipRead16 mem ptr) else (latched, ptr, lastObserved)

/-- `BlitterCopyState` with the loop's delayed D write (`pending_*`). -/
structure BlitterCopyState where
  apt : UInt32
  bpt : UInt32
  cpt : UInt32
  dpt : UInt32
  previousA : UInt16
  previousB : UInt16
  bhold : UInt16
  lastAdat : UInt16
  lastBdat : UInt16
  lastCdat : UInt16
  lastDdat : UInt16
  fillCarry : Bool
  zero : Bool
  pendingDpt : UInt32
  pendingDdat : UInt16
  pendingD : Bool

def blitterCopyStateInit (cmd : BlitCommand) : BlitterCopyState where
  apt := cmd.apt
  bpt := cmd.bpt
  cpt := cmd.cpt
  dpt := cmd.dpt
  previousA := 0
  previousB := 0
  bhold := cmd.bhold
  lastAdat := cmd.adat
  lastBdat := cmd.bdat
  lastCdat := cmd.cdat
  lastDdat := 0
  fillCarry := cmd.fillCarryIn
  zero := true
  pendingDpt := 0
  pendingDdat := 0
  pendingD := false

def blitterCopyAdvanceLine (s : BlitterCopyState) (cmd : BlitCommand) : BlitterCopyState :=
  if cmd.descending then
    { s with
      apt := s.apt - modOffset cmd.amod
      bpt := s.bpt - modOffset cmd.bmod
      cpt := s.cpt - modOffset cmd.cmod
      dpt := s.dpt - modOffset cmd.dmod }
  else
    { s with
      apt := s.apt + modOffset cmd.amod
      bpt := s.bpt + modOffset cmd.bmod
      cpt := s.cpt + modOffset cmd.cmod
      dpt := s.dpt + modOffset cmd.dmod }

/-- The flush of a delayed D write. -/
def copyFlushD (s : BlitterCopyState) (mem : ChipRam) : ChipRam :=
  if s.pendingD then chipWrite16 mem s.pendingDpt s.pendingDdat else mem

/-- The body of the `x` loop. -/
def copyWordStep (cmd : BlitCommand) (x : UInt32) (s : BlitterCopyState) (mem : ChipRam) :
    BlitterCopyState × ChipRam :=
  let increment : UInt32 := if cmd.descending then 0 - 2 else 2
  let fetchA := blitterFetchWord mem cmd.useA s.apt increment cmd.adat s.lastAdat
  let adat := blitterApplyAMasks cmd fetchA.1 x
  let fetchB := blitterFetchWord mem cmd.useB s.bpt increment cmd.bdat s.lastBdat
  let fetchC := blitterFetchWord mem cmd.useC s.cpt increment cmd.cdat s.lastCdat
  let a := blitterApplyShift cmd.descending s.previousA adat cmd.ashift
  let bhold := if cmd.useB then blitterApplyShift cmd.descending s.previousB fetchB.1 cmd.bshift else s.bhold
  let fill := blitterApplyFill cmd (blitterLogic cmd.minterm a bhold fetchC.1) s.fillCarry
  let d := fill.1
  ({ s with
      apt := fetchA.2.1
      bpt := fetchB.2.1
      cpt := fetchC.2.1
      dpt := if cmd.useD then s.dpt + increment else s.dpt
      previousA := adat
      previousB := if cmd.useB then fetchB.1 else s.previousB
      bhold := bhold
      lastAdat := fetchA.2.2
      lastBdat := fetchB.2.2
      lastCdat := fetchC.2.2
      lastDdat := d
      fillCarry := fill.2
      zero := if d ≠ 0 then false else s.zero
      pendingDpt := if cmd.useD then s.dpt else s.pendingDpt
      pendingDdat := if cmd.useD then d else s.pendingDdat
      pendingD := cmd.useD },
    copyFlushD s mem)

/-- The `x` loop with `todo` words left, the last of them word `width - 1`. -/
def copyLineLoop (cmd : BlitCommand) : Nat → UInt32 → BlitterCopyState → ChipRam → BlitterCopyState × ChipRam
  | 0, _, s, mem => (s, mem)
  | todo + 1, x, s, mem =>
    copyLineLoop cmd todo (x + 1) (copyWordStep cmd x s mem).1 (copyWordStep cmd x s mem).2

def copyRowLoop (cmd : BlitCommand) : Nat → BlitterCopyState → ChipRam → BlitterCopyState × ChipRam
  | 0, s, mem => (s, mem)
  | todo + 1, s, mem =>
    let row := copyLineLoop cmd cmd.widthWords.toNat 0 { s with fillCarry := cmd.fillCarryIn } mem
    copyRowLoop cmd todo (blitterCopyAdvanceLine row.1 cmd) row.2

def blitterCopyPublishResult (s : BlitterCopyState) : BlitterResult where
  finalApt := s.apt
  finalBpt := s.bpt
  finalCpt := s.cpt
  finalDpt := s.dpt
  finalAdat := s.lastAdat
  finalBdat := s.lastBdat
  finalCdat := s.lastCdat
  finalDdat := s.lastDdat
  finalBhold := s.bhold
  zero := s.zero

def executeCopyMode (cmd : BlitCommand) (mem : ChipRam) : BlitterResult × ChipRam :=
  let out := copyRowLoop cmd cmd.heightLines.toNat (blitterCopyStateInit cmd) mem
  (blitterCopyPublishResult out.1, copyFlushD out.1 out.2)

/-! ## Line mode, in one call -/

/-- The locals of `execute_line_mode` that its loop carries. -/
structure RefLineVars where
  error : Int16
  xShift : UInt8
  oneDotCount : UInt8
  pattern : UInt16
  cpt : UInt32
  zero : Bool
  sign : Bool
  lastCdat : UInt16
  finalDdat : UInt16

/-- The step along the minor axis, taken when the error was not negative. -/
def refLineMinor (cmd : BlitCommand) (v : RefLineVars) : RefLineVars :=
  if cmd.lineOctant &&& 0x04 ≠ 0 then
    if cmd.lineOctant &&& 0x02 ≠ 0 then
      { v with cpt := (v.cpt - modOffset cmd.cmod) &&& blitterChipAddrMask, oneDotCount := 0 }
    else { v with cpt := (v.cpt + modOffset cmd.cmod) &&& blitterChipAddrMask, oneDotCount := 0 }
  else if cmd.lineOctant &&& 0x02 ≠ 0 then
    if v.xShift = 0 then { v with xShift := 15, cpt := (v.cpt - 2) &&& blitterChipAddrMask }
    else { v with xShift := v.xShift - 1 }
  else if v.xShift + 1 = 16 then { v with xShift := 0, cpt := (v.cpt + 2) &&& blitterChipAddrMask }
  else { v with xShift := v.xShift + 1 }

/-- The step along the major axis, taken on every pixel. -/
def refLineMajor (cmd : BlitCommand) (v : RefLineVars) : RefLineVars :=
  if cmd.lineOctant &&& 0x04 ≠ 0 then
    if cmd.lineOctant &&& 0x01 ≠ 0 then
      if v.xShift = 0 then { v with xShift := 15, cpt := (v.cpt - 2) &&& blitterChipAddrMask }
      else { v with xShift := v.xShift - 1 }
    else if v.xShift + 1 = 16 then { v with xShift := 0, cpt := (v.cpt + 2) &&& blitterChipAddrMask }
    else { v with xShift := v.xShift + 1 }
  else if cmd.lineOctant &&& 0x01 ≠ 0 then
    { v with cpt := (v.cpt - modOffset cmd.cmod) &&& blitterChipAddrMask, oneDotCount := 0 }
  else { v with cpt := (v.cpt + modOffset cmd.cmod) &&& blitterChipAddrMask, oneDotCount := 0 }

/-- The data half of the loop body, with the error update that follows it. -/
def refLinePlot (cmd : BlitCommand) (v : RefLineVars) (cval dval : UInt16) : RefLineVars :=
  { v with
    lastCdat := cval
    zero := if dval ≠ 0 then false else v.zero
    finalDdat := dval
    oneDotCount := v.oneDotCount + 1
    error := if cmd.useA then (if v.sign then v.error + cmd.bmod else v.error + cmd.amod) else v.error }

/-- The end of the loop body: the new sign and the rotated pattern. -/
def refLineTurn (v : RefLineVars) : RefLineVars :=
  { v with sign := v.error < 0, pattern := (v.pattern <<< 1) ||| (v.pattern >>> 15) }

/-- The body of the pixel loop. -/
def refLinePixel (cmd : BlitCommand) (v : RefLineVars) (mem : ChipRam) : RefLineVars × ChipRam :=
  let cval := if cmd.useC then chipRead16 mem v.cpt else cmd.cdat
  let ahold := (cmd.adat &&& cmd.afwm) >>> v.xShift.toUInt16
  let bhold : UInt16 := if v.pattern &&& 1 ≠ 0 then 0xFFFF else 0x0000
  let dval := blitterLogic cmd.minterm ahold bhold cval
  let writePixel := !cmd.lineSingleDot || v.oneDotCount == 0
  let v1 := refLinePlot cmd v cval dval
  (refLineTurn (refLineMajor cmd (if v.sign then v1 else refLineMinor cmd v1)),
    if cmd.useC && writePixel then chipWrite16 mem v.cpt dval else mem)

def refLineLoop (cmd : BlitCommand) : Nat → RefLineVars → ChipRam → RefLineVars × ChipRam
  | 0, v, mem => (v, mem)
  | todo + 1, v, mem => refLineLoop cmd todo (refLinePixel cmd v mem).1 (refLinePixel cmd v mem).2

def refLineStart (cmd : BlitCommand) : RefLineVars where
  error := (cmd.apt &&& 0xFFFF).toUInt16.toInt16
  xShift := cmd.lineStartBit &&& 0x0F
  oneDotCount := 0
  pattern :=
    if cmd.bshift ≠ 0 then (cmd.bdat >>> cmd.bshift.toUInt16) ||| (cmd.bdat <<< (16 - cmd.bshift.toUInt16))
    else cmd.bdat
  cpt := cmd.cpt &&& blitterChipAddrMask
  zero := true
  sign := cmd.lineInitialSign
  lastCdat := cmd.cdat
  finalDdat := 0

def executeLineMode (cmd : BlitCommand) (mem : ChipRam) : BlitterResult × ChipRam :=
  if cmd.heightLines = 0 then
    ({ finalApt := cmd.apt
       finalBpt := cmd.bpt
       finalCpt := cmd.cpt
       finalDpt := cmd.dpt
       finalAdat := cmd.adat
       finalBdat := cmd.bdat
       finalCdat := cmd.cdat
       finalDdat := 0
       finalBhold := cmd.bhold
       zero := true }, mem)
  else
    let out := refLineLoop cmd cmd.heightLines.toNat (refLineStart cmd) mem
    let v := out.1
    ({ finalApt := (cmd.apt &&& 0xFFFF0000) ||| v.error.toUInt16.toUInt32
       finalBpt := cmd.bpt
       finalCpt := v.cpt
       finalDpt := v.cpt
       finalAdat := cmd.adat
       finalBdat := cmd.bdat
       finalCdat := v.lastCdat
       finalDdat := v.finalDdat
       finalBhold := cmd.bhold
       zero := v.zero }, out.2)

/-- `blitter_execute_reference`: `none` where the source returns `false`. -/
def blitterExecuteReference (b : BlitterState) (mem : ChipRam) : Option (BlitterState × ChipRam) :=
  if !b.commandValid then none
  else match b.cmd.mode with
    | .copy => some ({ b with result := (executeCopyMode b.cmd mem).1 }, (executeCopyMode b.cmd mem).2)
    | .line => some ({ b with result := (executeLineMode b.cmd mem).1 }, (executeLineMode b.cmd mem).2)

end Rigel
