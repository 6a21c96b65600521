import Rigel.BusSame
import Rigel.Invariant

/-!
# BeamTrace — the beam over the clocks of a step

The copper may rewrite the geometry in any clock, but never the position: whatever a slot does, the beam ends the clock
one position to the right, at the start of the next line, or at the top of the next frame (`clock_beam`). Everything
that is counted over a run of clocks, lines, frames and entries into the vertical-blank zone, is a sum along this trace.
-/

namespace Rigel

/-- The counters of the beam are equal; its geometry may differ. -/
def SamePosition (b b' : BeamState) : Prop := b'.hpos = b.hpos ∧ b'.vpos = b.vpos ∧ b'.frameCount = b.frameCount

theorem agnusWrite_position {a a' : RigelAgnus} (h : AgnusWrite a a') : SamePosition a.beam a'.beam := by
  cases h <;> exact ⟨rfl, rfl, rfl⟩

theorem copperEffect_position {a a' : RigelAgnus} (h : CopperEffect a a') : SamePosition a.beam a'.beam := by
  cases h with
  | move pc reg value =>
    have hw := agnusWrite_position
      (agnusAfterWrite_cases { a with copper := { a.copper with fetchPending := false } } reg value)
    exact hw
  | _ => exact ⟨rfl, rfl, rfl⟩

theorem slotEffect_position {a a' : RigelAgnus} (h : SlotEffect a a') : SamePosition a.beam a'.beam := by
  cases h with
  | copper hc => exact copperEffect_position hc
  | _ => exact ⟨rfl, rfl, rfl⟩

theorem schedulerDispatch_position (ctx : RigelContext) :
    SamePosition ctx.agnus.beam (schedulerDispatch (schedulerPrepare ctx)).agnus.beam := by
  have hd := slotEffect_position (dispatchSlot_cases (slotOwner (schedulerPrepare ctx))
    (schedulerRestoreDsken (schedulerPrepare ctx)) (schedulerPrepare ctx).agnus.scheduler.hpos)
  rw [(slotReady ctx).beam] at hd
  exact hd

theorem schedulerAdvance_beam (ctx : RigelContext) : (schedulerAdvance ctx).agnus.beam = beamStep ctx.agnus.beam 1 := by
  unfold schedulerAdvance schedulerAtVertb schedulerAtLineStart
  split
  · split <;> rfl
  · split <;> rfl

/-- The VERTB position is the second of its line. -/
theorem not_vertb_of_hpos {hpos vpos : UInt16} (h : 1 < hpos.toNat) : agnusIsVertbPosition hpos vpos = false := by
  rw [agnusIsVertbPosition, Bool.and_eq_false_iff]
  right
  rw [beq_eq_false_iff_ne]
  rintro rfl
  exact absurd h (by decide)

/-- What a clock does to the position. -/
inductive BeamClock (b b' : BeamState) : Prop
  | right (hpos : b'.hpos.toNat = b.hpos.toNat + 1) (vpos : b'.vpos = b.vpos) (frame : b'.frameCount = b.frameCount)
  | line (last : b.hpos.toNat = 226) (hpos : b'.hpos = 0) (vpos : b'.vpos.toNat = b.vpos.toNat + 1)
      (frame : b'.frameCount = b.frameCount)
  | frame (last : b.hpos.toNat = 226) (hpos : b'.hpos = 0) (vpos : b'.vpos = 0) (lines : 262 ≤ b.vpos.toNat + 1)
      (frame : b'.frameCount = b.frameCount + 1)

theorem BeamOk.clock {b : BeamState} (h : BeamOk b) : BeamClock b (beamStep b 1) := by
  have hpos : b.hpos.toNat < 227 := UInt16.lt_iff_toNat_lt.mp h.hpos
  have hvpos : b.vpos.toNat ≤ 312 := UInt16.le_iff_toNat_le.mp h.vpos
  have hh : (b.hpos + 1).toNat = b.hpos.toNat + 1 := by
    rw [UInt16.toNat_add]
    exact Nat.mod_eq_of_lt (by simp only [UInt16.reduceToNat]; omega)
  have hv : (b.vpos + 1).toNat = b.vpos.toNat + 1 := by
    rw [UInt16.toNat_add]
    exact Nat.mod_eq_of_lt (by simp only [UInt16.reduceToNat]; omega)
  rw [h.beamStep_one]
  by_cases hw : b.hpos + 1 = 227
  · have hlast : b.hpos.toNat = 226 := by
      rw [hw] at hh
      simp only [UInt16.reduceToNat] at hh
      omega
    rw [if_pos hw]
    by_cases hf : b.vpos + 1 ≥ beamFrameVmax b
    · refine .frame hlast rfl (by simp [beamAdvanceLine, hf]) ?_ (by simp [beamAdvanceLine, hf])
      have hmax : 262 ≤ (beamFrameVmax b).toNat := by
        unfold beamFrameVmax
        rcases h.frameLines with e | e <;> rw [e] <;> split <;> decide
      have := UInt16.le_iff_toNat_le.mp hf
      omega
    · exact .line hlast rfl (by simp [beamAdvanceLine, hf, hv]) (by simp [beamAdvanceLine, hf])
  · rw [if_neg hw]
    exact .right hh rfl rfl

/-- **One clock of the machine moves the beam by one position.** -/
theorem clock_beam {ctx : RigelContext} (h : AgnusOk ctx.agnus) :
    BeamClock ctx.agnus.beam (agnusSlotSchedulerStep ctx).agnus.beam := by
  obtain ⟨hh, hv, hf⟩ := schedulerDispatch_position ctx
  have hok := schedulerDispatch_ok _ (schedulerPrepare_ok ctx h)
  unfold agnusSlotSchedulerStep
  rw [schedulerAdvance_beam]
  cases hok.beam.clock with
  | right h1 h2 h3 => exact .right (by rw [h1, hh]) (by rw [h2, hv]) (by rw [h3, hf])
  | line h1 h2 h3 h4 => exact .line (by rw [← hh, h1]) h2 (by rw [h3, hv]) (by rw [h4, hf])
  | frame h1 h2 h3 h4 h5 => exact .frame (by rw [← hh, h1]) h2 h3 (by rw [← hv]; exact h4) (by rw [h5, hf])

/-! ## The trace -/

/-- The beam after `i` clocks. -/
def beamAt (ctx : RigelContext) (i : Nat) : BeamState := (agnusSlotSchedulerStepUntil ctx i).agnus.beam

theorem agnusSlotSchedulerStepUntil_succ (ctx : RigelContext) (n : Nat) :
    agnusSlotSchedulerStepUntil ctx (n + 1) = agnusSlotSchedulerStep (agnusSlotSchedulerStepUntil ctx n) :=
  Function.iterate_succ_apply' _ _ _

theorem agnusSlotSchedulerStepUntil_add (ctx : RigelContext) (a b : Nat) :
    agnusSlotSchedulerStepUntil ctx (a + b) = agnusSlotSchedulerStepUntil (agnusSlotSchedulerStepUntil ctx a) b := by
  unfold agnusSlotSchedulerStepUntil
  rw [Nat.add_comm a b, Function.iterate_add_apply]

theorem beamAt_clock {ctx : RigelContext} (h : AgnusOk ctx.agnus) (i : Nat) :
    BeamClock (beamAt ctx i) (beamAt ctx (i + 1)) := by
  unfold beamAt
  rw [agnusSlotSchedulerStepUntil_succ]
  exact clock_beam (agnusSlotSchedulerStepUntil_ok ctx h i)

/-- Contexts that are the same to the bus have the same trace. -/
theorem SameBus.beamAt {x y : RigelContext} (h : SameBus x y) (i : Nat) : beamAt y i = beamAt x i := by
  unfold Rigel.beamAt
  rw [(SameBus.clocks i h).agnus]
  rfl

/-! ## What a clock counts for -/

def inVblank (b : BeamState) : Nat := if beamInVblank b then 1 else 0
def entersVblank (b b' : BeamState) : Nat := if !beamInVblank b && beamInVblank b' then 1 else 0
def leavesVblank (b b' : BeamState) : Nat := if beamInVblank b && !beamInVblank b' then 1 else 0
def completesLine (_ b' : BeamState) : Nat := if b'.hpos = 0 then 1 else 0
def completesFrame (_ b' : BeamState) : Nat := if b'.hpos = 0 ∧ b'.vpos = 0 then 1 else 0

/-- The lines of the frame that this clock completes. -/
def completedLines (b b' : BeamState) : Nat := if b'.hpos = 0 ∧ b'.vpos = 0 then b.vpos.toNat + 1 else 0

/-- Entries into the vertical-blank zone over `n` clocks. -/
def vblankEntries (ctx : RigelContext) (n : Nat) : Nat := traceSum entersVblank (beamAt ctx) n
def vblankExits (ctx : RigelContext) (n : Nat) : Nat := traceSum leavesVblank (beamAt ctx) n

/-- Scanlines completed over `n` clocks. -/
def linesCompleted (ctx : RigelContext) (n : Nat) : Nat := traceSum completesLine (beamAt ctx) n
def framesCompleted (ctx : RigelContext) (n : Nat) : Nat := traceSum completesFrame (beamAt ctx) n

/-- The lines of all frames completed over `n` clocks. -/
def linesOfFrames (ctx : RigelContext) (n : Nat) : Nat := traceSum completedLines (beamAt ctx) n

theorem vblank_balance (ctx : RigelContext) (n : Nat) :
    vblankEntries ctx n + inVblank (beamAt ctx 0) = vblankExits ctx n + inVblank (beamAt ctx n) := by
  refine traceSum_telescope (fun i => ?_) n
  unfold entersVblank leavesVblank inVblank
  cases beamInVblank (beamAt ctx i) <;> cases beamInVblank (beamAt ctx (i + 1)) <;> rfl

/-- What a clock counts for, in its three cases. -/
theorem BeamClock.counts {b b' : BeamState} (h : BeamClock b b') :
    (completesLine b b' = 0 ∧ completesFrame b b' = 0 ∧ completedLines b b' = 0 ∧
      b'.hpos.toNat = b.hpos.toNat + 1 ∧ b'.vpos.toNat = b.vpos.toNat ∧ b'.frameCount = b.frameCount) ∨
    (completesLine b b' = 1 ∧ completesFrame b b' = 0 ∧ completedLines b b' = 0 ∧
      b.hpos.toNat = 226 ∧ b'.hpos.toNat = 0 ∧ b'.vpos.toNat = b.vpos.toNat + 1 ∧ b'.frameCount = b.frameCount) ∨
    (completesLine b b' = 1 ∧ completesFrame b b' = 1 ∧ completedLines b b' = b.vpos.toNat + 1 ∧
      b.hpos.toNat = 226 ∧ b'.hpos.toNat = 0 ∧ b'.vpos.toNat = 0 ∧ 262 ≤ b.vpos.toNat + 1 ∧
      b'.frameCount = b.frameCount + 1) := by
  unfold completesLine completesFrame completedLines
  cases h with
  | right hh hv hf =>
    have hne : b'.hpos ≠ 0 := by
      intro e
      rw [e] at hh
      simp at hh
    refine Or.inl ⟨if_neg hne, if_neg (fun e => hne e.1), if_neg (fun e => hne e.1), hh, ?_, hf⟩
    rw [hv]
  | line hl hh hv hf =>
    have hne : b'.vpos ≠ 0 := by
      intro e
      rw [e] at hv
      simp at hv
    refine Or.inr (Or.inl ⟨if_pos hh, if_neg (fun e => hne e.2), if_neg (fun e => hne e.2), hl, ?_, hv, hf⟩)
    rw [hh]
    rfl
  | frame hl hh hv hg hf =>
    refine Or.inr (Or.inr ⟨if_pos hh, if_pos ⟨hh, hv⟩, if_pos ⟨hh, hv⟩, hl, ?_, ?_, hg, hf⟩)
    · rw [hh]
      rfl
    · rw [hv]
      rfl

section
variable {ctx : RigelContext} (h : AgnusOk ctx.agnus)
include h

theorem clocks_balance (n : Nat) :
    n + (beamAt ctx 0).hpos.toNat = 227 * linesCompleted ctx n + (beamAt ctx n).hpos.toNat := by
  have htel := traceSum_telescope (f := fun _ _ => 1) (g := fun b b' => 227 * completesLine b b')
    (p := fun b : BeamState => b.hpos.toNat) (t := beamAt ctx)
    (fun i => by
      rcases (beamAt_clock h i).counts with ⟨e, -, -, hh, -⟩ | ⟨e, -, -, hl, hh, -⟩ | ⟨e, -, -, hl, hh, -⟩ <;> omega) n
  rw [traceSum_const, Nat.one_mul, traceSum_mul] at htel
  exact htel

theorem lines_balance (n : Nat) :
    linesCompleted ctx n + (beamAt ctx 0).vpos.toNat = linesOfFrames ctx n + (beamAt ctx n).vpos.toNat := by
  refine traceSum_telescope (p := fun b : BeamState => b.vpos.toNat) (fun i => ?_) n
  rcases (beamAt_clock h i).counts with ⟨e, -, e', -, hv, -⟩ | ⟨e, -, e', -, -, hv, -⟩ | ⟨e, -, e', -, -, hv, -⟩ <;>
    omega

theorem frames_balance (n : Nat) :
    (beamAt ctx n).frameCount = (beamAt ctx 0).frameCount + UInt64.ofNat (framesCompleted ctx n) := by
  induction n with
  | zero => exact (UInt64.add_zero _).symm
  | succ n ih =>
    unfold framesCompleted at ih ⊢
    rw [traceSum]
    rcases (beamAt_clock h n).counts with ⟨-, e, -, -, -, hf⟩ | ⟨-, e, -, -, -, -, hf⟩ | ⟨-, e, -, -, -, -, -, hf⟩
    · rw [e, hf, ih, Nat.add_zero]
    · rw [e, hf, ih, Nat.add_zero]
    · rw [e, hf, ih, UInt64.ofNat_add, UInt64.add_assoc]
      rfl

/-- A completed frame has at least the 262 lines of NTSC. -/
theorem linesOfFrames_ge (n : Nat) : 262 * framesCompleted ctx n ≤ linesOfFrames ctx n := by
  have hle := traceSum_le (f := fun b b' => 262 * completesFrame b b') (g := completedLines) (t := beamAt ctx)
    (fun i => by
      rcases (beamAt_clock h i).counts with ⟨-, e, e', -⟩ | ⟨-, e, e', -⟩ | ⟨-, e, e', -, -, -, hl, -⟩ <;> omega) n
  rw [traceSum_mul] at hle
  exact hle

theorem linesOfFrames_le (n : Nat) : linesOfFrames ctx n ≤ 313 * framesCompleted ctx n := by
  have hle := traceSum_le (f := completedLines) (g := fun b b' => 313 * completesFrame b b') (t := beamAt ctx)
    (fun i => by
      have hv : (beamAt ctx i).vpos.toNat ≤ 312 :=
        UInt16.le_iff_toNat_le.mp (agnusSlotSchedulerStepUntil_ok ctx h i).beam.vpos
      rcases (beamAt_clock h i).counts with ⟨-, e, e', -⟩ | ⟨-, e, e', -⟩ | ⟨-, e, e', -⟩ <;> omega) n
  rw [traceSum_mul] at hle
  exact hle

theorem framesCompleted_le (n : Nat) : framesCompleted ctx n ≤ linesCompleted ctx n :=
  traceSum_le (fun i => by
    rcases (beamAt_clock h i).counts with ⟨e, e', -⟩ | ⟨e, e', -⟩ | ⟨e, e', -⟩ <;> omega) n

theorem frameCount_ne_iff {n : Nat} (hn : n < 2 ^ 32) :
    (beamAt ctx n).frameCount ≠ (beamAt ctx 0).frameCount ↔ 0 < framesCompleted ctx n := by
  have hclocks := clocks_balance h n
  have hle := framesCompleted_le h n
  have hh0 : (beamAt ctx 0).hpos.toNat < 227 := UInt16.lt_iff_toNat_lt.mp h.beam.hpos
  have hsmall : framesCompleted ctx n < 2 ^ 64 := by omega
  rw [frames_balance h n]
  constructor
  · intro hne
    apply Nat.pos_of_ne_zero
    intro e
    rw [e] at hne
    exact hne (UInt64.add_zero _)
  · intro hpos e
    have hnat := congrArg UInt64.toNat (UInt64.add_eq_left.mp e)
    rw [UInt64.toNat_ofNat', Nat.mod_eq_of_lt hsmall] at hnat
    simp only [UInt64.reduceToNat] at hnat
    omega

theorem position_ne_iff {n : Nat} (hn : n < 2 ^ 32) :
    ((beamAt ctx n).vpos ≠ (beamAt ctx 0).vpos ∨ (beamAt ctx n).frameCount ≠ (beamAt ctx 0).frameCount) ↔
      0 < linesCompleted ctx n := by
  have hlines := lines_balance h n
  have hle := framesCompleted_le h n
  have hlen := linesOfFrames_le h n
  rw [frameCount_ne_iff h hn]
  constructor
  · rintro (hv | hf)
    · have hne : (beamAt ctx n).vpos.toNat ≠ (beamAt ctx 0).vpos.toNat := fun e => hv (UInt16.toNat_inj.mp e)
      omega
    · omega
  · intro hpos
    by_cases hf : 0 < framesCompleted ctx n
    · exact Or.inr hf
    · refine Or.inl fun e => ?_
      rw [e] at hlines
      omega

end

/-! ## Counts over two consecutive runs -/

/-- **The trace does not depend on how its clocks are cut into steps.** -/
theorem traceSum_split (f : BeamState → BeamState → Nat) {ctx ctx' : RigelContext} {a : Nat}
    (h : SameBus (agnusSlotSchedulerStepUntil ctx a) ctx') (b : Nat) :
    traceSum f (beamAt ctx) (a + b) = traceSum f (beamAt ctx) a + traceSum f (beamAt ctx') b := by
  have hshift : beamAt ctx' = fun i => beamAt ctx (a + i) := by
    funext i
    rw [h.beamAt i]
    unfold beamAt
    rw [agnusSlotSchedulerStepUntil_add]
  rw [traceSum_add, hshift]

end Rigel
