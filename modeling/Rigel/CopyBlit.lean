import Rigel.ChipAddress
import Rigel.LineBlit
import Rigel.WriteLog

/-!
# CopyBlit — what a copy blit computes, and where its pointers end

The copy loop of `blitter_ref.c` interleaves four pointers, two shifters, the masks and a D write that lags one word
behind. Numbered in processing order, its words are an ordinary two-pass transfer (`copyD`): every word is a function
of the initial memory, and the writes follow in order. `CopyAt` is what the loops keep, word by word and row by row.
The pointers come with it, and with them what a disabled channel's modulo does to its register.
-/

namespace Rigel

/-! ## The channels -/

inductive BlitChannel where
  | a
  | b
  | c
  | d
  deriving Repr, DecidableEq

def BlitCommand.use (cmd : BlitCommand) : BlitChannel → Bool
  | .a => cmd.useA
  | .b => cmd.useB
  | .c => cmd.useC
  | .d => cmd.useD

def BlitCommand.ptr (cmd : BlitCommand) : BlitChannel → UInt32
  | .a => cmd.apt
  | .b => cmd.bpt
  | .c => cmd.cpt
  | .d => cmd.dpt

def BlitCommand.mod (cmd : BlitCommand) : BlitChannel → Int16
  | .a => cmd.amod
  | .b => cmd.bmod
  | .c => cmd.cmod
  | .d => cmd.dmod

/-- The register that a source channel without DMA supplies. D has none. -/
def BlitCommand.dat (cmd : BlitCommand) : BlitChannel → UInt16
  | .a => cmd.adat
  | .b => cmd.bdat
  | .c => cmd.cdat
  | .d => 0

def BlitterCopyState.ptr (s : BlitterCopyState) : BlitChannel → UInt32
  | .a => s.apt
  | .b => s.bpt
  | .c => s.cpt
  | .d => s.dpt

def BlitterRegs.ptr (r : BlitterRegs) : BlitChannel → UInt32
  | .a => r.bltapt
  | .b => r.bltbpt
  | .c => r.bltcpt
  | .d => r.bltdpt

/-! ## The loops, from the front -/

/-- The loops' state before row `y`. -/
def copyRowAt (cmd : BlitCommand) (mem : ChipRam) (y : Nat) : BlitterCopyState × ChipRam :=
  copyRowLoop cmd y (blitterCopyStateInit cmd) mem

/-- The loops' state before word `x` of row `y`. -/
def copyWordAt (cmd : BlitCommand) (mem : ChipRam) (y x : Nat) : BlitterCopyState × ChipRam :=
  copyLineLoop cmd x 0 { (copyRowAt cmd mem y).1 with fillCarry := cmd.fillCarryIn } (copyRowAt cmd mem y).2

theorem copyLineLoop_succ (cmd : BlitCommand) : ∀ (n : Nat) (x : UInt32) (s : BlitterCopyState) (mem : ChipRam),
    copyLineLoop cmd (n + 1) x s mem =
      copyWordStep cmd (x + UInt32.ofNat n) (copyLineLoop cmd n x s mem).1 (copyLineLoop cmd n x s mem).2
  | 0, x, s, mem => by
    rw [show x + UInt32.ofNat 0 = x from UInt32.add_zero x]
    rfl
  | n + 1, x, s, mem => by
    have h : x + 1 + UInt32.ofNat n = x + UInt32.ofNat (n + 1) := by
      rw [UInt32.ofNat_add, UInt32.add_assoc, UInt32.add_comm 1]
      rfl
    rw [copyLineLoop, copyLineLoop_succ cmd n, h]
    rfl

theorem copyRowLoop_succ (cmd : BlitCommand) : ∀ (n : Nat) (s : BlitterCopyState) (mem : ChipRam),
    copyRowLoop cmd (n + 1) s mem =
      (blitterCopyAdvanceLine (copyLineLoop cmd cmd.widthWords.toNat 0
          { (copyRowLoop cmd n s mem).1 with fillCarry := cmd.fillCarryIn } (copyRowLoop cmd n s mem).2).1 cmd,
        (copyLineLoop cmd cmd.widthWords.toNat 0
          { (copyRowLoop cmd n s mem).1 with fillCarry := cmd.fillCarryIn } (copyRowLoop cmd n s mem).2).2)
  | 0, _, _ => rfl
  | n + 1, s, mem => by
    rw [copyRowLoop, copyRowLoop_succ cmd n]
    rfl

theorem copyWordAt_succ (cmd : BlitCommand) (mem : ChipRam) (y x : Nat) :
    copyWordAt cmd mem y (x + 1) =
      copyWordStep cmd (UInt32.ofNat x) (copyWordAt cmd mem y x).1 (copyWordAt cmd mem y x).2 := by
  unfold copyWordAt
  rw [copyLineLoop_succ, UInt32.zero_add]

theorem copyRowAt_succ (cmd : BlitCommand) (mem : ChipRam) (y : Nat) :
    copyRowAt cmd mem (y + 1) =
      (blitterCopyAdvanceLine (copyWordAt cmd mem y cmd.widthWords.toNat).1 cmd,
        (copyWordAt cmd mem y cmd.widthWords.toNat).2) :=
  copyRowLoop_succ cmd y (blitterCopyStateInit cmd) mem

/-- What a word keeps and a row end keeps, every row starts with. -/
theorem copyRow_induction {cmd : BlitCommand} {mem : ChipRam}
    {P : Nat → Nat → BlitterCopyState → ChipRam → Prop} (init : P 0 0 (blitterCopyStateInit cmd) mem)
    (carry : ∀ y s m, P y 0 s m → P y 0 { s with fillCarry := cmd.fillCarryIn } m)
    (word : ∀ y x s m, x < cmd.widthWords.toNat → P y x s m →
      P y (x + 1) (copyWordStep cmd (UInt32.ofNat x) s m).1 (copyWordStep cmd (UInt32.ofNat x) s m).2)
    (line : ∀ y s m, P y cmd.widthWords.toNat s m → P (y + 1) 0 (blitterCopyAdvanceLine s cmd) m) :
    ∀ y, P y 0 (copyRowAt cmd mem y).1 (copyRowAt cmd mem y).2 ∧
      ∀ x ≤ cmd.widthWords.toNat, P y x (copyWordAt cmd mem y x).1 (copyWordAt cmd mem y x).2 := by
  have words : ∀ y, P y 0 (copyRowAt cmd mem y).1 (copyRowAt cmd mem y).2 →
      ∀ x ≤ cmd.widthWords.toNat, P y x (copyWordAt cmd mem y x).1 (copyWordAt cmd mem y x).2 := by
    intro y hy x
    induction x with
    | zero => exact fun _ => carry y _ _ hy
    | succ x ih =>
      intro hx
      rw [copyWordAt_succ]
      exact word y x _ _ hx (ih (Nat.le_of_succ_le hx))
  intro y
  induction y with
  | zero => exact ⟨init, words 0 init⟩
  | succ y ih =>
    have hrow : P (y + 1) 0 (copyRowAt cmd mem (y + 1)).1 (copyRowAt cmd mem (y + 1)).2 := by
      rw [copyRowAt_succ]
      exact line y _ _ (ih.2 _ le_rfl)
    exact ⟨hrow, words (y + 1) hrow⟩

/-! ## The pointers -/

/-- What a word adds to a channel's pointer, before the direction. -/
def copyStride (cmd : BlitCommand) (X : BlitChannel) : UInt32 := if cmd.use X then 2 else 0

/-- The pointer of channel `X` before word `x` of row `y`. -/
def copyPtr (cmd : BlitCommand) (X : BlitChannel) (y x : Nat) : UInt32 :=
  let offset := UInt32.ofNat y * (copyStride cmd X * cmd.widthWords.toUInt32 + modOffset (cmd.mod X)) +
    copyStride cmd X * UInt32.ofNat x
  if cmd.descending then cmd.ptr X - offset else cmd.ptr X + offset

theorem blitterFetchWord_ptr (mem : ChipRam) (enabled : Bool) (ptr increment : UInt32) (latched last : UInt16) :
    (blitterFetchWord mem enabled ptr increment latched last).2.1 = if enabled then ptr + increment else ptr := by
  unfold blitterFetchWord
  split <;> rfl

theorem copyWordStep_ptr (cmd : BlitCommand) (x : UInt32) (s : BlitterCopyState) (mem : ChipRam) (X : BlitChannel) :
    (copyWordStep cmd x s mem).1.ptr X =
      if cmd.descending then s.ptr X - copyStride cmd X else s.ptr X + copyStride cmd X := by
  have hmove : ∀ (u : Bool) (p : UInt32), (if u then p + (if cmd.descending then 0 - 2 else 2) else p) =
      if cmd.descending then p - (if u then 2 else 0) else p + (if u then 2 else 0) := by
    intro u p
    cases u <;> cases cmd.descending
    · exact (UInt32.add_zero p).symm
    · exact (UInt32.sub_zero p).symm
    · rfl
    · simp only [if_true]
      grind
  cases X with
  | a => exact (blitterFetchWord_ptr ..).trans (hmove cmd.useA s.apt)
  | b => exact (blitterFetchWord_ptr ..).trans (hmove cmd.useB s.bpt)
  | c => exact (blitterFetchWord_ptr ..).trans (hmove cmd.useC s.cpt)
  | d => exact hmove cmd.useD s.dpt

theorem blitterCopyAdvanceLine_ptr (s : BlitterCopyState) (cmd : BlitCommand) (X : BlitChannel) :
    (blitterCopyAdvanceLine s cmd).ptr X =
      if cmd.descending then s.ptr X - modOffset (cmd.mod X) else s.ptr X + modOffset (cmd.mod X) := by
  unfold blitterCopyAdvanceLine
  cases X <;> split <;> rfl

theorem copyPtr_zero (cmd : BlitCommand) (X : BlitChannel) : copyPtr cmd X 0 0 = cmd.ptr X := by
  simp [copyPtr]

theorem copyPtr_word (cmd : BlitCommand) (X : BlitChannel) (y x : Nat) :
    copyPtr cmd X y (x + 1) =
      if cmd.descending then copyPtr cmd X y x - copyStride cmd X else copyPtr cmd X y x + copyStride cmd X := by
  simp only [copyPtr, UInt32.ofNat_add]
  split <;> grind

theorem copyPtr_line (cmd : BlitCommand) (X : BlitChannel) (y : Nat) :
    copyPtr cmd X (y + 1) 0 =
      if cmd.descending then copyPtr cmd X y cmd.widthWords.toNat - modOffset (cmd.mod X)
      else copyPtr cmd X y cmd.widthWords.toNat + modOffset (cmd.mod X) := by
  have hw : UInt32.ofNat cmd.widthWords.toNat = cmd.widthWords.toUInt32 := by simp
  simp only [copyPtr, UInt32.ofNat_add, hw]
  split <;> grind

/-- The loops move every pointer along `copyPtr`, whatever the memory holds. -/
theorem copy_ptrs (cmd : BlitCommand) (mem : ChipRam) (y : Nat) :
    (∀ X, (copyRowAt cmd mem y).1.ptr X = copyPtr cmd X y 0) ∧
      ∀ x ≤ cmd.widthWords.toNat, ∀ X, (copyWordAt cmd mem y x).1.ptr X = copyPtr cmd X y x := by
  refine copyRow_induction (P := fun y x s _ => ∀ X, s.ptr X = copyPtr cmd X y x) ?_ ?_ ?_ ?_ y
  · intro X
    rw [copyPtr_zero]
    cases X <;> rfl
  · intro y s m h X
    rw [← h X]
    cases X <;> rfl
  · intro y x s m _ h X
    rw [copyWordStep_ptr, copyPtr_word, h X]
  · intro y s m h X
    rw [blitterCopyAdvanceLine_ptr, copyPtr_line, h X]

/-! ## The published pointers -/

theorem chipAddr_toUInt32 (w : UInt16) : chipAddr w.toUInt32 = (w.toNat : ZMod (2 ^ 21)) := by
  rw [← chipAddr_ofNat]
  congr 1
  simp

/-- `h * (2w + XMOD)` for an enabled channel; a disabled one still adds its modulo at the end of every row. -/
def copyTravel (cmd : BlitCommand) (X : BlitChannel) : ZMod (2 ^ 21) :=
  cmd.heightLines.toNat * ((if cmd.use X then 2 * (cmd.widthWords.toNat : ZMod (2 ^ 21)) else 0) + (cmd.mod X).toInt)

theorem chipAddr_copyStride (cmd : BlitCommand) (X : BlitChannel) :
    chipAddr (copyStride cmd X) = if cmd.use X then 2 else 0 := by
  unfold copyStride
  split
  · exact chipAddr_two
  · exact chipAddr_ofNat 0

theorem chipAddr_copyPtr_end (cmd : BlitCommand) (X : BlitChannel) :
    chipAddr (copyPtr cmd X cmd.heightLines.toNat 0) =
      if cmd.descending then chipAddr (cmd.ptr X) - copyTravel cmd X else chipAddr (cmd.ptr X) + copyTravel cmd X := by
  have htravel : chipAddr (UInt32.ofNat cmd.heightLines.toNat *
      (copyStride cmd X * cmd.widthWords.toUInt32 + modOffset (cmd.mod X)) + copyStride cmd X * UInt32.ofNat 0) =
        copyTravel cmd X := by
    rw [chipAddr_add, chipAddr_mul, chipAddr_mul, chipAddr_add, chipAddr_mul, chipAddr_ofNat, chipAddr_ofNat,
      chipAddr_modOffset, chipAddr_toUInt32, chipAddr_copyStride, Nat.cast_zero, mul_zero, add_zero, ite_mul, zero_mul]
    rfl
  unfold copyPtr
  dsimp only
  rw [apply_ite chipAddr, chipAddr_sub, chipAddr_add (cmd.ptr X), htravel]

/-- Where a copy command says that channel `X` ends: past its `h` rows of `w` words when it is on, and where it
started when it is off. -/
def lawfulPtr (cmd : BlitCommand) (X : BlitChannel) : ZMod (2 ^ 21) :=
  let rows : ZMod (2 ^ 21) := cmd.heightLines.toNat * (2 * (cmd.widthWords.toNat : ZMod (2 ^ 21)) + (cmd.mod X).toInt)
  if cmd.use X then (if cmd.descending then chipAddr (cmd.ptr X) - rows else chipAddr (cmd.ptr X) + rows)
  else chipAddr (cmd.ptr X)

/-- The reference backend runs, and the pointers it publishes are the lawful ones. -/
def PointerLaw (b : BlitterState) (mem : ChipRam) : Prop :=
  ∃ out, blitterExecuteReference b mem = some out ∧
    ∀ X, chipAddr ((blitterPublishResult out.1).regs.ptr X) = lawfulPtr b.cmd X

theorem executeCopyMode_ptr (b : BlitterState) (mem : ChipRam) (X : BlitChannel) :
    chipAddr ((blitterPublishResult { b with result := (executeCopyMode b.cmd mem).1 }).regs.ptr X) =
      if b.cmd.descending then chipAddr (b.cmd.ptr X) - copyTravel b.cmd X
      else chipAddr (b.cmd.ptr X) + copyTravel b.cmd X := by
  rw [← chipAddr_copyPtr_end, ← (copy_ptrs b.cmd mem b.cmd.heightLines.toNat).1 X]
  cases X <;> rfl

theorem blitterExecuteReference_copy {b : BlitterState} (hmode : b.cmd.mode = .copy) (hvalid : b.commandValid = true)
    (mem : ChipRam) :
    blitterExecuteReference b mem =
      some ({ b with result := (executeCopyMode b.cmd mem).1 }, (executeCopyMode b.cmd mem).2) := by
  simp only [blitterExecuteReference, hvalid, hmode, Bool.not_true, Bool.false_eq_true, if_false]

theorem lawful_of_use {cmd : BlitCommand} {X : BlitChannel} (hu : cmd.use X = true) :
    (if cmd.descending then chipAddr (cmd.ptr X) - copyTravel cmd X else chipAddr (cmd.ptr X) + copyTravel cmd X) =
      lawfulPtr cmd X := by
  simp only [lawfulPtr, copyTravel, hu, if_true]

theorem lawful_iff_of_not_use {cmd : BlitCommand} {X : BlitChannel} (hu : cmd.use X = false) :
    (if cmd.descending then chipAddr (cmd.ptr X) - copyTravel cmd X else chipAddr (cmd.ptr X) + copyTravel cmd X) =
      lawfulPtr cmd X ↔ (2 ^ 21 : Int) ∣ cmd.heightLines.toNat * (cmd.mod X).toInt := by
  have htravel : copyTravel cmd X = ((cmd.heightLines.toNat * (cmd.mod X).toInt : Int) : ZMod (2 ^ 21)) := by
    simp only [copyTravel, hu, Bool.false_eq_true, if_false, zero_add]
    push_cast
    rfl
  have hzero : copyTravel cmd X = 0 ↔ (2 ^ 21 : Int) ∣ cmd.heightLines.toNat * (cmd.mod X).toInt := by
    rw [htravel, ZMod.intCast_zmod_eq_zero_iff_dvd]
    norm_cast
  rw [← hzero]
  simp only [lawfulPtr, hu, Bool.false_eq_true, if_false]
  split
  · exact sub_eq_self
  · exact add_eq_left

/-- **The pointer law of a copy, and when it fails.** The row advance adds all four modulos, whether or not their
channels are on. The published pointers are the lawful ones exactly when no disabled channel has moved: its modulo,
times the height, is a multiple of the chip range. -/
theorem pointerLaw_iff (b : BlitterState) (mem : ChipRam) (hmode : b.cmd.mode = .copy) (hvalid : b.commandValid = true) :
    PointerLaw b mem ↔
      ∀ X, b.cmd.use X = false → (2 ^ 21 : Int) ∣ b.cmd.heightLines.toNat * (b.cmd.mod X).toInt := by
  unfold PointerLaw
  rw [blitterExecuteReference_copy hmode hvalid]
  simp only [Option.some.injEq, exists_eq_left', executeCopyMode_ptr]
  refine forall_congr' fun X => ?_
  cases hu : b.cmd.use X
  · rw [lawful_iff_of_not_use hu]
    simp only [forall_const]
  · simp only [Bool.true_eq_false, false_imp_iff, iff_true]
    exact lawful_of_use hu

/-- A one-word clear with BLTAMOD = 2: D alone is on. -/
def clearWithModulo : BlitterState :=
  blitterWriteReg16 (blitterWriteReg16 (blitterWriteReg16 blitterInit 0x040 0x0100) 0x064 0x0002) 0x058 0x0041

theorem pointerLaw_iff_clear :
    PointerLaw clearWithModulo blankRam ↔ ∀ X, clearWithModulo.cmd.use X = false →
      (2 ^ 21 : Int) ∣ clearWithModulo.cmd.heightLines.toNat * (clearWithModulo.cmd.mod X).toInt :=
  pointerLaw_iff clearWithModulo blankRam rfl rfl

/-- BLTAPT has moved by two, with A off. -/
theorem pointerLaw_clear : ¬ PointerLaw clearWithModulo blankRam := by
  rintro ⟨out, hout, hlaw⟩
  obtain rfl := Option.some.inj hout
  exact absurd (hlaw .a) (by decide +kernel)

end Rigel
