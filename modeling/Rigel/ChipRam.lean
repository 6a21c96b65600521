import Mathlib.Logic.Function.Basic

/-!
# ChipRam — the chip memory behind the host's callbacks

`core/rigel_context.c`. The chipset never owns memory: it reads and writes 16-bit words through two host
callbacks, after the address has been aligned and folded into the visible size. Here the host's side is a word
store, and a callback that the host left out is a flag.
-/

namespace Rigel

inductive ChipsetModel where
  | ocs
  | ecs
  deriving Repr, DecidableEq

/-- Chip memory as `rigel_context_chip_ram` hands it to the DMA channels. `chipRamSize` and `chipsetModel` are the
configuration fields that the address fold reads; `words` is the host's store, indexed by even byte addresses. -/
structure ChipRam where
  chipsetModel : ChipsetModel
  chipRamSize : UInt32
  hasRead16 : Bool
  hasWrite16 : Bool
  words : UInt32 → UInt16

def chipRamVisibleSize (m : ChipRam) : UInt32 :=
  let modelLimit : UInt32 := match m.chipsetModel with
    | .ecs => 0x00100000
    | .ocs => 0x00080000
  if m.chipRamSize ≠ 0 ∧ m.chipRamSize < modelLimit then m.chipRamSize else modelLimit

/-- The address fold: `addr & ~1`, then the visible size's mirror. -/
def chipRamMapAddr (m : ChipRam) (addr : UInt32) : UInt32 :=
  let addr := addr &&& ~~~1
  if chipRamVisibleSize m > 0 then addr &&& (chipRamVisibleSize m - 1) else addr

def chipRamRead16 (m : ChipRam) (addr : UInt32) : UInt16 :=
  if m.hasRead16 then m.words (chipRamMapAddr m addr) else 0

def chipRamWrite16 (m : ChipRam) (addr : UInt32) (value : UInt16) : ChipRam :=
  if m.hasWrite16 then { m with words := Function.update m.words (chipRamMapAddr m addr) value } else m

end Rigel
