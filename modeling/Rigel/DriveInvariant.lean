import Rigel.Disk
import Rigel.Run

/-!
# DriveInvariant — the flags of a floppy drive over its runs

A drive's flags are updated by four operations that each touch some of them. Along any run the head stays on the disk,
TRK0 follows it, and a change stays shown until a step pulse finds a medium. Only the ready line can fall out of step: an
insert changes the medium under a running motor and leaves the line as the motor's last start set it.
-/

namespace Rigel

inductive DriveOp where
  | insert (adf : Option (Nat → UInt8)) (adfSize : UInt32)
  | eject
  | reset
  | step (sig : FloppySignals)

def driveOp (d : FloppyDrive) : DriveOp → FloppyDrive
  | .insert adf adfSize => floppyInsert d adf adfSize
  | .eject => floppyEject d
  | .reset => floppyReset d
  | .step sig => floppyStep d sig

/-- A drive after `floppy_init`, on its cable or not. -/
def driveStart (connected : Bool) : FloppyDrive := { floppyInit with connected := connected }

/-! ## The invariant -/

/-- What holds of a drive at any time. -/
structure DriveGood (d : FloppyDrive) : Prop where
  cylinder : d.cylinder ≤ 79
  track0 : d.track0 = true ↔ d.cylinder = 0
  ready : d.ready = true ↔ d.motor = true ∧ floppyHasMedia d = true
  changed : floppyHasMedia d = false → d.diskChanged = true

/-- A drive that is not on its cable does not turn. -/
structure DriveInv (d : FloppyDrive) : Prop extends DriveGood d where
  stopped : d.connected = false → d.motor = false

theorem floppyHasMedia_insert (d : FloppyDrive) (adf : Option (Nat → UInt8)) (adfSize : UInt32) :
    floppyHasMedia (floppyInsert d adf adfSize) = (adf.isSome && adfSize > 0) := by
  unfold floppyHasMedia floppyInsert
  cases adf.isSome <;> simp

/-- An insert keeps the ready line right if the motor is off, or if there is a medium after it just when there was one. -/
def InsertFits (d : FloppyDrive) : DriveOp → Prop
  | .insert adf adfSize => d.motor = false ∨ floppyHasMedia d = (adf.isSome && adfSize > 0)
  | _ => True

/-- A drive that does not turn is not ready. -/
theorem ready_stopped (media : Bool) : false = true ↔ false = true ∧ media = true := by
  simp

theorem driveInv_start (connected : Bool) : DriveInv (driveStart connected) := by
  refine ⟨⟨Nat.zero_le _, ?_, ?_, fun _ => rfl⟩, fun _ => rfl⟩
  · exact iff_of_true rfl rfl
  · exact ready_stopped _

theorem DriveInv.insert {d : FloppyDrive} (h : DriveInv d) (adf : Option (Nat → UInt8)) (adfSize : UInt32) :
    DriveGood (floppyInsert d adf adfSize) ↔ InsertFits d (.insert adf adfSize) := by
  have hmedia := floppyHasMedia_insert d adf adfSize
  have hready : ((floppyInsert d adf adfSize).ready = true ↔
      (floppyInsert d adf adfSize).motor = true ∧ floppyHasMedia (floppyInsert d adf adfSize) = true) ↔
      InsertFits d (.insert adf adfSize) := by
    show (d.ready = true ↔ d.motor = true ∧ floppyHasMedia (floppyInsert d adf adfSize) = true) ↔
      d.motor = false ∨ floppyHasMedia d = (adf.isSome && adfSize > 0)
    rw [h.ready, hmedia]
    cases d.motor with
    | false => simp
    | true =>
      cases floppyHasMedia d <;> cases (adf.isSome && decide (adfSize > 0)) <;> simp
  exact ⟨fun hgood => hready.mp hgood.ready, fun hfits => ⟨h.cylinder, h.track0, hready.mpr hfits, fun _ => rfl⟩⟩

theorem driveInv_eject {d : FloppyDrive} (h : DriveInv d) : DriveInv (floppyEject d) := by
  refine ⟨⟨h.cylinder, h.track0, ?_, fun _ => rfl⟩, fun _ => rfl⟩
  exact ready_stopped _

theorem driveInv_reset (d : FloppyDrive) : DriveInv (floppyReset d) := by
  have hstart := driveInv_start d.connected
  unfold floppyReset
  simp only
  split
  · exact ⟨(hstart.insert d.adf d.adfSize).mpr (.inl rfl), fun _ => rfl⟩
  · exact hstart

/-! ## A step -/

/-- The three ways of `floppy_step`: no cable, not selected, selected. -/
theorem floppyStep_cases (d : FloppyDrive) (sig : FloppySignals) :
    (d.connected = false ∧ floppyStep d sig = { d with selected := false, motor := false, ready := false }) ∨
    (d.connected = true ∧ sig.selected = false ∧ ∃ n, floppyStep d sig = { d with idCount := n, selected := false }) ∨
    (d.connected = true ∧ sig.selected = true ∧ floppyStep d sig = floppyTrack0
      (floppyHead { floppyMotor { d with selected := true } sig.motor with side := sig.side } sig.step sig.direction)) := by
  unfold floppyStep
  by_cases hconn : d.connected = true
  · rw [if_neg (by simp [hconn])]
    by_cases hsel : sig.selected = true
    · rw [if_neg (by simp [hsel])]
      exact .inr (.inr ⟨hconn, hsel, rfl⟩)
    · rw [if_pos (by simpa using hsel)]
      exact .inr (.inl ⟨hconn, eq_false_of_ne_true hsel, _, rfl⟩)
  · rw [if_pos (by simpa using hconn)]
    exact .inl ⟨eq_false_of_ne_true hconn, rfl⟩

/-- The motor leaves the rest of the drive alone. -/
theorem floppyMotor_frame (d : FloppyDrive) (on : Bool) :
    floppyHasMedia (floppyMotor d on) = floppyHasMedia d ∧ (floppyMotor d on).cylinder = d.cylinder ∧
      (floppyMotor d on).diskChanged = d.diskChanged ∧ (floppyMotor d on).stepLatch = d.stepLatch ∧
      (floppyMotor d on).connected = d.connected := by
  unfold floppyMotor
  repeat' split
  all_goals exact ⟨rfl, rfl, rfl, rfl, rfl⟩

theorem floppyMotor_ready {d : FloppyDrive} (h : d.ready = true ↔ d.motor = true ∧ floppyHasMedia d = true) (on : Bool) :
    (floppyMotor d on).ready = true ↔ (floppyMotor d on).motor = true ∧ floppyHasMedia (floppyMotor d on) = true := by
  unfold floppyMotor
  split
  · show floppyHasMedia d = true ↔ true = true ∧ floppyHasMedia d = true
    simp
  split
  · exact ready_stopped _
  · exact h

/-- The head moves by a cylinder at most, stays on the disk, and leaves motor, ready line and medium alone. -/
theorem floppyHead_moves (d : FloppyDrive) (step direction : Bool) :
    ((floppyHead d step direction).cylinder ≤ d.cylinder + 1 ∧ d.cylinder ≤ (floppyHead d step direction).cylinder + 1) ∧
      (d.cylinder ≤ 79 → (floppyHead d step direction).cylinder ≤ 79) ∧
      (floppyHead d step direction).ready = d.ready ∧ (floppyHead d step direction).motor = d.motor ∧
      floppyHasMedia (floppyHead d step direction) = floppyHasMedia d ∧
      (floppyHead d step direction).connected = d.connected := by
  unfold floppyHead floppyAdfCylinders
  split
  · refine ⟨?_, ?_, rfl, rfl, rfl, rfl⟩
    · simp only
      repeat' split
      all_goals omega
    · simp only
      repeat' split
      all_goals omega
  · split <;> exact ⟨⟨Nat.le_succ _, Nat.le_succ _⟩, fun h => h, rfl, rfl, rfl, rfl⟩

/-- The change is looked at by a pulse only. -/
theorem floppyHead_changed (d : FloppyDrive) (step direction : Bool) : (floppyHead d step direction).diskChanged =
    if step = true ∧ d.stepLatch = true then !floppyHasMedia d else d.diskChanged := by
  unfold floppyHead
  split
  · rfl
  · split <;> rfl

theorem floppyHead_rests {d : FloppyDrive} {step : Bool} {direction : Bool} (h : step = false ∨ d.stepLatch = false) :
    (floppyHead d step direction).cylinder = d.cylinder := by
  unfold floppyHead
  split
  next hpulse => obtain hs | hl := h <;> simp_all
  next => split <;> rfl

theorem floppyHead_latch (d : FloppyDrive) (direction : Bool) : (floppyHead d true direction).stepLatch = false := by
  unfold floppyHead
  by_cases hl : d.stepLatch = true
  · rw [if_pos ⟨rfl, hl⟩]
  · rw [if_neg fun hpulse => hl hpulse.2]
    exact eq_false_of_ne_true hl

/-- A step pulse reaches a drive that is selected and has let go of the one before. -/
def DrivePulse (d : FloppyDrive) : DriveOp → Prop
  | .step sig => d.connected = true ∧ sig.selected = true ∧ sig.step = true ∧ d.stepLatch = true
  | _ => False

theorem floppyStep_changed {d : FloppyDrive} {sig : FloppySignals} (h : ¬ DrivePulse d (.step sig)) :
    (floppyStep d sig).diskChanged = d.diskChanged := by
  obtain ⟨-, hstep⟩ | ⟨-, -, n, hstep⟩ | ⟨hconn, hsel, hstep⟩ := floppyStep_cases d sig
  · rw [hstep]
  · rw [hstep]
  · obtain ⟨-, -, hchanged, hlatch, -⟩ := floppyMotor_frame { d with selected := true } sig.motor
    have hnot : ¬ (sig.step = true ∧ (floppyMotor { d with selected := true } sig.motor).stepLatch = true) := by
      rintro ⟨hs, hl⟩
      exact h ⟨hconn, hsel, hs, hlatch.symm.trans hl⟩
    rw [hstep]
    show (floppyHead _ _ _).diskChanged = _
    rw [floppyHead_changed, if_neg hnot]
    exact hchanged

/-- A pulse takes note of the medium. -/
theorem floppyStep_pulse {d : FloppyDrive} {sig : FloppySignals} (h : DrivePulse d (.step sig)) :
    (floppyStep d sig).diskChanged = !floppyHasMedia d := by
  obtain ⟨hconn, hsel, hs, hlatch⟩ := h
  obtain ⟨hoff, -⟩ | ⟨-, hnot, -⟩ | ⟨-, -, hstep⟩ := floppyStep_cases d sig
  · rw [hconn] at hoff
    exact Bool.noConfusion hoff
  · rw [hsel] at hnot
    exact Bool.noConfusion hnot
  · obtain ⟨hmedia, -, -, hlatch', -⟩ := floppyMotor_frame { d with selected := true } sig.motor
    have hhead := floppyHead_changed { floppyMotor { d with selected := true } sig.motor with side := sig.side } sig.step
      sig.direction
    rw [if_pos ⟨hs, hlatch'.trans hlatch⟩] at hhead
    rw [hstep]
    exact hhead.trans (congrArg (!·) hmedia)

/-- The head is within a cylinder of where it was. -/
def HeadWithin (d d' : FloppyDrive) : Prop := d'.cylinder ≤ d.cylinder + 1 ∧ d.cylinder ≤ d'.cylinder + 1

theorem HeadWithin.of_eq {d d' : FloppyDrive} (h : d'.cylinder = d.cylinder) : HeadWithin d d' :=
  ⟨h ▸ Nat.le_succ _, h ▸ Nat.le_succ _⟩

theorem floppyStep_moves (d : FloppyDrive) (sig : FloppySignals) : HeadWithin d (floppyStep d sig) := by
  obtain ⟨-, hstep⟩ | ⟨-, -, n, hstep⟩ | ⟨-, -, hstep⟩ := floppyStep_cases d sig
  · rw [hstep]
    exact .of_eq rfl
  · rw [hstep]
    exact .of_eq rfl
  · obtain ⟨-, hcyl, -⟩ := floppyMotor_frame { d with selected := true } sig.motor
    generalize floppyMotor { d with selected := true } sig.motor = turned at hcyl hstep
    obtain ⟨hup, hdown⟩ := (floppyHead_moves { turned with side := sig.side } sig.step sig.direction).1
    rw [hstep]
    exact ⟨hcyl ▸ hup, hcyl ▸ hdown⟩

/-- With the step line high, or low since the pulse before, the head stays where it is. -/
theorem floppyStep_rests {d : FloppyDrive} {sig : FloppySignals} (h : sig.step = false ∨ d.stepLatch = false) :
    (floppyStep d sig).cylinder = d.cylinder := by
  obtain ⟨-, hstep⟩ | ⟨-, -, n, hstep⟩ | ⟨-, -, hstep⟩ := floppyStep_cases d sig
  · rw [hstep]
  · rw [hstep]
  · obtain ⟨-, hcyl, -, hlatch, -⟩ := floppyMotor_frame { d with selected := true } sig.motor
    generalize floppyMotor { d with selected := true } sig.motor = turned at hcyl hlatch hstep
    have hlatch' : sig.step = false ∨ turned.stepLatch = false := h.imp_right fun hl => hlatch.trans hl
    rw [hstep]
    exact (floppyHead_rests (d := { turned with side := sig.side }) hlatch').trans hcyl

/-- Under a low step line a selected drive has taken its pulse; another drive is left as it was. -/
theorem floppyStep_latch {d : FloppyDrive} {sig : FloppySignals} (h : sig.step = true) :
    (floppyStep d sig).stepLatch = false ∨
      (floppyStep d sig).stepLatch = d.stepLatch ∧ (floppyStep d sig).cylinder = d.cylinder := by
  obtain ⟨-, hstep⟩ | ⟨-, -, n, hstep⟩ | ⟨-, -, hstep⟩ := floppyStep_cases d sig
  · rw [hstep]
    exact .inr ⟨rfl, rfl⟩
  · rw [hstep]
    exact .inr ⟨rfl, rfl⟩
  · rw [hstep, h]
    exact .inl (floppyHead_latch _ sig.direction)

/-- **A step line held low is one pulse**: however often the drive looks at it, the head moves by a cylinder at most. -/
theorem floppyHeld_within : ∀ (sigs : List FloppySignals) (d : FloppyDrive), (∀ sig ∈ sigs, sig.step = true) →
    HeadWithin d (sigs.foldl floppyStep d) ∧ (d.stepLatch = false → (sigs.foldl floppyStep d).cylinder = d.cylinder)
  | [], d, _ => ⟨.of_eq rfl, fun _ => rfl⟩
  | sig :: sigs, d, h => by
    have hlow : sig.step = true := h sig List.mem_cons_self
    obtain ⟨hwithin, hstill⟩ := floppyHeld_within sigs (floppyStep d sig) fun s hs => h s (List.mem_cons_of_mem sig hs)
    rw [List.foldl_cons]
    obtain htaken | ⟨hlatch, hcyl⟩ := floppyStep_latch (d := d) hlow
    · have hrest := hstill htaken
      obtain ⟨hup, hdown⟩ := floppyStep_moves d sig
      exact ⟨⟨hrest ▸ hup, hrest ▸ hdown⟩, fun hl => hrest.trans (floppyStep_rests (.inr hl))⟩
    · obtain ⟨hup, hdown⟩ := hwithin
      exact ⟨⟨hcyl ▸ hup, hcyl ▸ hdown⟩, fun hl => (hstill (hlatch.trans hl)).trans hcyl⟩

theorem DriveInv.step {d : FloppyDrive} (h : DriveInv d) (sig : FloppySignals) : DriveInv (floppyStep d sig) := by
  obtain ⟨hconn, hstep⟩ | ⟨-, -, n, hstep⟩ | ⟨hconn, -, hstep⟩ := floppyStep_cases d sig
  · have hbefore : floppyHasMedia d = false := by simp [floppyHasMedia, hconn]
    rw [hstep]
    refine ⟨⟨h.cylinder, h.track0, ?_, fun _ => h.changed hbefore⟩, fun _ => rfl⟩
    exact ready_stopped _
  · rw [hstep]
    exact ⟨⟨h.cylinder, h.track0, h.ready, h.changed⟩, h.stopped⟩
  · have hready := floppyMotor_ready (d := { d with selected := true }) h.ready sig.motor
    obtain ⟨hmedia, hcyl, hchanged, -, hcable⟩ := floppyMotor_frame { d with selected := true } sig.motor
    generalize floppyMotor { d with selected := true } sig.motor = turned at hready hmedia hcyl hchanged hcable hstep
    obtain ⟨-, hbound, hready', hmotor', hmedia', hcable'⟩ :=
      floppyHead_moves { turned with side := sig.side } sig.step sig.direction
    have hchanged' := floppyHead_changed { turned with side := sig.side } sig.step sig.direction
    generalize floppyHead { turned with side := sig.side } sig.step sig.direction = moved at *
    rw [hstep]
    refine ⟨⟨hbound (hcyl ▸ h.cylinder), beq_iff_eq, ?_, fun hnone => ?_⟩, fun hc => ?_⟩
    · show moved.ready = true ↔ moved.motor = true ∧ floppyHasMedia moved = true
      rw [hready', hmotor', hmedia']
      exact hready
    · have hnone' : floppyHasMedia { turned with side := sig.side } = false := hmedia'.symm.trans hnone
      show moved.diskChanged = true
      rw [hchanged', hnone']
      split
      · rfl
      · exact hchanged.trans (h.changed (hmedia.symm.trans hnone'))
    · exact absurd (hcable'.symm.trans hc) (by simp [hcable, hconn])

/-! ## Runs -/

/-- **A run of a drive is good**: every state on the way is, a change that an insert shows stays until a pulse and no longer,
the head stays in place under a high step line, and one pulse moves it by a cylinder at most, however long the line stays
low. -/
structure DriveRunGood (connected : Bool) (ops : List DriveOp) : Prop where
  good : ∀ pre, pre <+: ops → DriveGood (pre.foldl driveOp (driveStart connected))
  pending : ∀ pre adf adfSize mid, pre ++ .insert adf adfSize :: mid <+: ops →
    AlongRun driveOp (fun d op => ¬ DrivePulse d op)
      (floppyInsert (pre.foldl driveOp (driveStart connected)) adf adfSize) mid →
    ((pre ++ .insert adf adfSize :: mid).foldl driveOp (driveStart connected)).diskChanged = true
  noted : ∀ pre sig, pre ++ [.step sig] <+: ops → DrivePulse (pre.foldl driveOp (driveStart connected)) (.step sig) →
    floppyHasMedia (pre.foldl driveOp (driveStart connected)) = true →
    ((pre ++ [.step sig]).foldl driveOp (driveStart connected)).diskChanged = false
  still : ∀ pre sig, pre ++ [.step sig] <+: ops → sig.step = false →
    ((pre ++ [.step sig]).foldl driveOp (driveStart connected)).cylinder =
      (pre.foldl driveOp (driveStart connected)).cylinder
  pulse : ∀ pre (sigs : List FloppySignals), pre ++ sigs.map .step <+: ops → (∀ sig ∈ sigs, sig.step = true) →
    HeadWithin (pre.foldl driveOp (driveStart connected)) ((pre ++ sigs.map .step).foldl driveOp (driveStart connected))

/-- Every insert of the run keeps the ready line right. -/
def InsertsFit (connected : Bool) (ops : List DriveOp) : Prop := AlongRun driveOp InsertFits (driveStart connected) ops

/-- A pulse apart, no operation clears a change. -/
theorem driveOp_changed {d : FloppyDrive} (h : d.diskChanged = true) {op : DriveOp} (hp : ¬ DrivePulse d op) :
    (driveOp d op).diskChanged = true := by
  cases op with
  | insert adf adfSize => rfl
  | eject => rfl
  | reset =>
    show (floppyReset d).diskChanged = true
    unfold floppyReset
    simp only
    split <;> rfl
  | step sig =>
    show (floppyStep d sig).diskChanged = true
    rw [floppyStep_changed hp, h]

/-- **Only an insert can break the invariant**, and it does so by the ready line. -/
theorem driveOp_good {d : FloppyDrive} (h : DriveInv d) (op : DriveOp) : DriveGood (driveOp d op) ↔ InsertFits d op := by
  cases op with
  | insert adf adfSize => exact h.insert adf adfSize
  | eject => exact iff_of_true (driveInv_eject h).toDriveGood trivial
  | reset => exact iff_of_true (driveInv_reset d).toDriveGood trivial
  | step sig => exact iff_of_true (h.step sig).toDriveGood trivial

theorem DriveInv.op {d : FloppyDrive} (h : DriveInv d) {op : DriveOp} (hfits : InsertFits d op) :
    DriveInv (driveOp d op) := by
  cases op with
  | insert adf adfSize => exact ⟨(h.insert adf adfSize).mpr hfits, fun hc => Bool.noConfusion hc⟩
  | eject => exact driveInv_eject h
  | reset => exact driveInv_reset d
  | step sig => exact h.step sig

/-- The inserts of a run decide about its states. -/
theorem driveGood_run_iff (connected : Bool) (ops : List DriveOp) :
    (∀ pre, pre <+: ops → DriveGood (pre.foldl driveOp (driveStart connected))) ↔ InsertsFit connected ops := by
  have hstart := driveInv_start connected
  have hfit : AlongRun driveOp (fun d op => DriveGood (driveOp d op)) (driveStart connected) ops ↔
      InsertsFit connected ops :=
    alongRun_iff (fun _ op h => driveOp_good h op) (fun _ _ h hfits => h.op hfits) ops _ hstart
  rw [forall_prefix_iff, hfit]
  exact and_iff_right hstart.toDriveGood

theorem driveRun_changed : ∀ (mid : List DriveOp) (d : FloppyDrive), d.diskChanged = true →
    AlongRun driveOp (fun d op => ¬ DrivePulse d op) d mid → (mid.foldl driveOp d).diskChanged = true
  | [], _, h, _ => h
  | op :: mid, d, h, hrun => driveRun_changed mid (driveOp d op) (driveOp_changed h hrun.1) hrun.2

/-- **The drive keeps its invariant over a run exactly if every insert fits**: it comes with the motor off, or it leaves a
medium in the drive just when there was one. -/
theorem driveRunGood_iff (connected : Bool) (ops : List DriveOp) :
    DriveRunGood connected ops ↔ InsertsFit connected ops := by
  rw [← driveGood_run_iff]
  refine ⟨fun h => h.good, fun hgood => ⟨hgood, ?_, ?_, ?_, ?_⟩⟩
  · intro pre adf adfSize mid _ hmid
    rw [List.foldl_append]
    exact driveRun_changed mid _ rfl hmid
  · intro pre sig _ hpulse hmedia
    rw [List.foldl_append]
    have hnoted := floppyStep_pulse hpulse
    rwa [hmedia] at hnoted
  · intro pre sig _ hhigh
    rw [List.foldl_append]
    exact floppyStep_rests (.inl hhigh)
  · intro pre sigs _ hlow
    rw [List.foldl_append, List.foldl_map]
    exact (floppyHeld_within sigs _ hlow).1

/-- The motor of an empty drive is turned on, and a disk is put in. -/
def spunEmpty : List DriveOp :=
  [.step { selected := true, motor := true, step := false, direction := false, side := false },
    .insert (some fun _ => 0) 901120]

/-- The disk goes into a drive that turns, and it is never ready. -/
theorem driveRunGood_spunEmpty : ¬ DriveRunGood true spunEmpty := by
  intro h
  have hgood := h.good spunEmpty (List.prefix_refl spunEmpty)
  have hready := hgood.ready.mpr ⟨rfl, by decide⟩
  exact Bool.noConfusion hready

end Rigel
