import Rigel.AgnusEffects
import Rigel.Bits
import Rigel.BusRun

/-!
# DriveRouting — the two decodings of the drive select lines

A write to CIA-B's port B and an insert or eject each decode the select lines to find the drive for the disk DMA and the
status to show at CIA-A. The first looks at connected drives only, the second at the lines alone. A connected drive
always has something to show: either a disk change or a write-protected disk.
-/

namespace Rigel

/-! ## The two routings -/

/-- The routing half of `cia_b_prb_update_floppy`: the selected drives that are connected. -/
def routeConnected (ctx : RigelContext) : RigelContext :=
  routeDrive ctx fun i => prbSelects (ciaPortBValue ctx.ciaB) i && (ctx.floppy i).connected

/-- Both routings choose the same drive for the disk DMA and show the same lines at CIA-A. -/
def RoutingAgrees (ctx : RigelContext) : Prop :=
  (rigelSyncFloppyCiaLines ctx).paula.disk.drive = (routeConnected ctx).paula.disk.drive ∧
    (rigelSyncFloppyCiaLines ctx).ciaA.extPra = (routeConnected ctx).ciaA.extPra

/-- The drive that the select lines name first is connected, and no drive is alone on the bus for want of another that is
selected and not there. -/
def SelectsConnected (ctx : RigelContext) : Prop :=
  (ctx.floppy (selectedDrive (prbSelects (ciaPortBValue ctx.ciaB))).1).connected = true ∧
    ((selectedDrive fun i => prbSelects (ciaPortBValue ctx.ciaB) i && (ctx.floppy i).connected).2 = 1 →
      (selectedDrive (prbSelects (ciaPortBValue ctx.ciaB))).2 = 1)

instance (ctx : RigelContext) : Decidable (SelectsConnected ctx) := inferInstanceAs (Decidable (_ ∧ _))

/-! ## The drives of a reachable machine -/

/-- A medium is write-protected, and a change stays shown until there is one. -/
structure DriveOk (d : FloppyDrive) : Prop where
  media : floppyHasMedia d = true → d.writeProtected = true
  settled : d.diskChanged = false → floppyHasMedia d = true

theorem driveOk_changed {d : FloppyDrive} (hw : d.writeProtected = true) (hc : d.diskChanged = true) : DriveOk d :=
  ⟨fun _ => hw, fun h => absurd (hc.symm.trans h) (by decide)⟩

theorem driveOk_insert (d : FloppyDrive) (adf : Option (Nat → UInt8)) (size : UInt32) : DriveOk (floppyInsert d adf size) :=
  driveOk_changed rfl rfl

theorem driveOk_eject (d : FloppyDrive) : DriveOk (floppyEject d) := by
  refine ⟨fun hm => ?_, fun h => absurd h (by simp [floppyEject])⟩
  simp [floppyHasMedia, floppyEject] at hm

theorem driveOk_reset (i : Nat) (d : FloppyDrive) : DriveOk (floppyChipsetReset i d) := by
  have hreset : (floppyReset d).writeProtected = true ∧ (floppyReset d).diskChanged = true := by
    unfold floppyReset
    simp only
    split <;> exact ⟨rfl, rfl⟩
  unfold floppyChipsetReset floppySetConnected
  split <;> exact driveOk_changed hreset.1 hreset.2

/-- A step pulse acknowledges a change only with a medium, and nothing else in it touches the two. -/
theorem DriveOk.step {d : FloppyDrive} (h : DriveOk d) (sig : FloppySignals) : DriveOk (floppyStep d sig) := by
  have hmotor : ∀ (d' : FloppyDrive) (on : Bool), floppyHasMedia (floppyMotor d' on) = floppyHasMedia d' ∧
      (floppyMotor d' on).writeProtected = d'.writeProtected ∧ (floppyMotor d' on).diskChanged = d'.diskChanged := by
    intro d' on
    unfold floppyMotor
    repeat' split
    all_goals exact ⟨rfl, rfl, rfl⟩
  unfold floppyStep
  split
  · exact ⟨h.media, h.settled⟩
  split
  · exact ⟨h.media, h.settled⟩
  obtain ⟨hm, hw, hc⟩ := hmotor { d with selected := true } sig.motor
  generalize floppyMotor { d with selected := true } sig.motor = turned at hm hw hc
  have hside : DriveOk { turned with side := sig.side } := by
    refine ⟨fun hmedia => ?_, fun hchanged => ?_⟩
    · exact hw.trans (h.media (hm.symm.trans hmedia))
    · exact hm.trans (h.settled (hc.symm.trans hchanged))
  unfold floppyTrack0 floppyHead
  split
  · refine ⟨hside.media, fun hchanged => ?_⟩
    simpa [floppyHasMedia] using hchanged
  · split
    · exact ⟨hside.media, hside.settled⟩
    · exact ⟨hside.media, hside.settled⟩

theorem floppyStep_connected (d : FloppyDrive) (sig : FloppySignals) : (floppyStep d sig).connected = d.connected := by
  unfold floppyStep floppyTrack0 floppyHead floppyMotor
  repeat' split
  all_goals rfl

/-- DF0 is there, and every drive is as a drive can be. -/
structure DrivesOk (floppy : Nat → FloppyDrive) : Prop where
  df0 : (floppy 0).connected = true
  drive : ∀ i < floppyDriveCount, DriveOk (floppy i)

theorem DrivesOk.update {floppy : Nat → FloppyDrive} (h : DrivesOk floppy) (i : Nat) {d : FloppyDrive} (hd : DriveOk d)
    (hc : (floppy i).connected = true → d.connected = true) : DrivesOk (Function.update floppy i d) := by
  refine ⟨?_, fun j hj => ?_⟩
  · by_cases h0 : 0 = i
    · subst h0
      rw [Function.update_self]
      exact hc h.df0
    · rw [Function.update_of_ne h0]
      exact h.df0
  · by_cases hji : j = i
    · subst hji
      rw [Function.update_self]
      exact hd
    · rw [Function.update_of_ne hji]
      exact h.drive j hj

theorem DrivesOk.stepAll {floppy : Nat → FloppyDrive} (h : DrivesOk floppy) (prb : UInt8) :
    DrivesOk (floppyStepAll floppy prb) := by
  refine ⟨?_, fun i hi => ?_⟩
  · exact (floppyStep_connected _ _).trans h.df0
  · unfold floppyStepAll
    rw [if_pos hi]
    exact (h.drive i hi).step _

theorem drivesOk_reset (ctx : RigelContext) : DrivesOk (rigelReset ctx).floppy := by
  refine ⟨?_, fun i hi => ?_⟩
  · show (floppyChipsetReset 0 (ctx.floppy 0)).connected = true
    simp [floppyChipsetReset, floppySetConnected]
  · show DriveOk (if i < floppyDriveCount then floppyChipsetReset i (ctx.floppy i) else ctx.floppy i)
    rw [if_pos hi]
    exact driveOk_reset i _

theorem chipsetEclock_floppy (ctx : RigelContext) (cycles : UInt32) : (chipsetEclock ctx cycles).floppy = ctx.floppy := by
  unfold chipsetEclock
  simp only
  split <;> rfl

/-- Settling after the beam moves no drive. -/
theorem rigelStepRun_floppy (ctx : RigelContext) (cycles : UInt64) : (rigelStep ctx cycles).1.floppy = ctx.floppy := by
  have hsettle : ∀ (before : BeamState) (c : RigelContext) (n : UInt32), (chipsetSettle before c n).floppy = c.floppy := by
    intro before c n
    have heclock := chipsetEclock_floppy (chipsetTodB before (chipsetTodA before (rigelPaulaStep c n))) n
    have hpaula := (sameOutside_paulaStep c n).floppy
    exact heclock.trans hpaula
  show (chipsetSettle ctx.agnus.beam (chipsetRun (clearEventLatch ctx) cycles.toUInt32) cycles.toUInt32).floppy = _
  rw [hsettle]
  exact (chipsetRun_outside _ _).floppy

/-- **The drives of every call of the host.** -/
theorem DrivesOk.hostCall {ctx : RigelContext} (h : DrivesOk ctx.floppy) (c : HostCall) :
    DrivesOk (hostCall ctx c).floppy := by
  cases c with
  | reset => exact drivesOk_reset ctx
  | step cycles =>
    show DrivesOk (rigelStep ctx cycles).1.floppy
    rw [rigelStepRun_floppy]
    exact h
  | stepUntil target =>
    simp only [Rigel.hostCall, rigelStepUntil]
    split
    · exact h
    · rw [rigelStepRun_floppy]
      exact h
  | customRead addr =>
    simp only [Rigel.hostCall, customRegsRead16, paulaReadReg]
    repeat' split
    all_goals exact h
  | customWrite addr value =>
    show DrivesOk (customRegsWrite16 ctx addr value).floppy
    rw [(sameOutside_customWrite ctx addr value).floppy]
    exact h
  | ciaRead id reg => cases id <;> exact h
  | ciaWrite id reg value =>
    cases id with
    | portA => exact h
    | portB =>
      simp only [Rigel.hostCall, rigelCiaWrite]
      split
      · exact h.stepAll _
      · exact h
  | setFire port pressed =>
    simp only [Rigel.hostCall, rigelInputSetFire]
    split <;> exact h
  | floppyInsert drive data size =>
    simp only [Rigel.hostCall, rigelFloppyInsert]
    split
    · exact h
    · exact h.update drive (driveOk_insert _ data size) fun _ => rfl
  | floppyEject drive =>
    simp only [Rigel.hostCall, rigelFloppyEject]
    split
    · exact h
    · exact h.update drive (driveOk_eject _) fun hc => hc
  | serialReceive byte =>
    simp only [Rigel.hostCall, rigelSerialReceiveByte]
    rw [(sameOutside_raise _ _).floppy]
    exact h
  | _ => exact h

theorem Reachable.drivesOk {ctx : RigelContext} (h : Reachable ctx) : DrivesOk ctx.floppy := by
  induction h with
  | create config ram => exact drivesOk_reset _
  | call _ c ih => exact ih.hostCall c

/-! ## The status lines -/

/-- A line of the status register, pulled low or left alone. -/
def pullLine (low : Bool) (mask v : UInt8) : UInt8 := if low then v &&& ~~~mask else v

theorem pullLine_keeps {v m : UInt8} (h : v &&& m = 0) (low : Bool) (mask : UInt8) : pullLine low mask v &&& m = 0 := by
  unfold pullLine
  split
  · rw [UInt8.and_assoc, UInt8.and_comm _ m, ← UInt8.and_assoc, h, UInt8.zero_and]
  · exact h

theorem pullLine_low (mask v : UInt8) : pullLine true mask v &&& mask = 0 := by
  unfold pullLine
  rw [if_pos rfl, UInt8.and_assoc, UInt8.not_and_self, UInt8.and_zero]

theorem driveStatusLines_one (pra : UInt8) (motorOn : Bool) (d : FloppyDrive) :
    driveStatusLines pra motorOn 1 d =
      pullLine (if !motorOn && d.idCount ≥ 0 && d.idCount < 32 then !floppyGetIdbit d else floppyGetReady d) 0x20
        (pullLine (floppyGetTrack0 d) 0x10
          (pullLine (!floppyGetWpro d) 0x08 (pullLine (!floppyGetDskchg d) 0x04 (pra ||| 0x3C)))) := rfl

/-- A connected drive pulls a line: it shows a change, or it has a medium, which is write-protected. -/
theorem driveStatusLines_active (pra : UInt8) (motorOn : Bool) {d : FloppyDrive} (h : DriveOk d)
    (hc : d.connected = true) : driveStatusLines pra motorOn 1 d ≠ pra ||| 0x3C := by
  have hhigh : ∀ m : UInt8, 0x3C &&& m ≠ 0 → (pra ||| 0x3C) &&& m ≠ 0 := by
    intro m hm h0
    apply hm
    rw [uint8_or_and_distrib, UInt8.or_eq_zero_iff] at h0
    exact h0.2
  intro he
  by_cases hchanged : d.diskChanged = true
  · have hchng : floppyGetDskchg d = false := by simp [floppyGetDskchg, hc, hchanged]
    refine hhigh 0x04 (by decide) ?_
    rw [← he, driveStatusLines_one, hchng]
    exact pullLine_keeps (pullLine_keeps (pullLine_keeps (pullLine_low _ _) _ _) _ _) _ _
  · rw [Bool.not_eq_true] at hchanged
    have hmedia := h.settled hchanged
    have hwpro : floppyGetWpro d = false := by simp [floppyGetWpro, hc, hmedia, h.media hmedia]
    refine hhigh 0x08 (by decide) ?_
    rw [← he, driveStatusLines_one, hwpro]
    exact pullLine_keeps (pullLine_keeps (pullLine_low _ _) _ _) _ _

theorem driveStatusLines_off (pra : UInt8) (motorOn : Bool) {count : Nat} (h : count ≠ 1) (d : FloppyDrive) :
    driveStatusLines pra motorOn count d = pra ||| 0x3C := if_neg h

/-! ## Agreement -/

theorem selectedDrive_lt (sel : Nat → Bool) : (selectedDrive sel).1 < floppyDriveCount := by
  unfold selectedDrive
  simp only
  cases hf : (List.range floppyDriveCount).find? sel with
  | none => decide
  | some i => exact List.mem_range.mp (List.mem_of_find?_eq_some hf)

theorem selectedDrive_four (sel : Nat → Bool) :
    selectedDrive sel =
      (((if sel 0 then some 0 else if sel 1 then some 1 else if sel 2 then some 2 else if sel 3 then some 3 else none) :
        Option Nat).getD 0, (sel 0).toNat + (sel 1).toNat + (sel 2).toNat + (sel 3).toNat) := by
  unfold selectedDrive
  simp only [floppyDriveCount, List.range, List.range.loop, List.find?, List.filter]
  cases sel 0 <;> cases sel 1 <;> cases sel 2 <;> cases sel 3 <;> rfl

/-- Looking at the connected drives only names the same drive exactly when the one named is connected, and never finds
one drive where there was none. -/
theorem selectedDrive_connected (sel con : Nat → Bool) (h0 : con 0 = true) :
    ((selectedDrive sel).1 = (selectedDrive fun i => sel i && con i).1 ↔ con (selectedDrive sel).1 = true) ∧
      (con (selectedDrive sel).1 = true → (selectedDrive sel).2 = 1 → (selectedDrive fun i => sel i && con i).2 = 1) := by
  rw [selectedDrive_four, selectedDrive_four]
  simp only [h0, Bool.and_true]
  cases sel 0 <;> cases sel 1 <;> cases sel 2 <;> cases sel 3 <;> cases h1 : con 1 <;> cases h2 : con 2 <;>
    cases h3 : con 3 <;> simp [h0, h1, h2, h3]

/-- **When inserting and ejecting route like a write to port B.** Exactly when the drive that the select lines name first
is connected and is not the only connected one among several that are selected. -/
theorem routing_agrees_iff {ctx : RigelContext} (h : Reachable ctx) : RoutingAgrees ctx ↔ SelectsConnected ctx := by
  have hdrives := h.drivesOk
  unfold RoutingAgrees SelectsConnected rigelSyncFloppyCiaLines routeConnected routeDrive ciaSetExternalPra
  simp only
  generalize hsel : prbSelects (ciaPortBValue ctx.ciaB) = sel
  obtain ⟨hsame, hone⟩ := selectedDrive_connected sel (fun i => (ctx.floppy i).connected) hdrives.df0
  have hlt := selectedDrive_lt sel
  generalize (selectedDrive fun i => sel i && (ctx.floppy i).connected) = live at hsame hone ⊢
  generalize selectedDrive sel = all at hsame hone hlt ⊢
  rw [hsame]
  refine and_congr_right fun hc => ?_
  have hdrive := hsame.mpr hc
  rw [← hdrive]
  have hok := driveStatusLines_active (ciaPortAValue ctx.ciaA) (ciaPortBValue ctx.ciaB &&& 0x80 == 0)
    (hdrives.drive _ hlt) hc
  by_cases hall : all.2 = 1
  · rw [hall, hone hc hall]
    simp
  · rw [driveStatusLines_off _ _ hall]
    by_cases hlive : live.2 = 1
    · rw [hlive]
      refine iff_of_false (fun he => hok he.symm) (fun himp => hall (himp rfl))
    · rw [driveStatusLines_off _ _ hlive]
      exact iff_of_true rfl (fun hl => absurd hl hlive)

/-- A machine with a disk in DF0, which the CPU has selected with its motor on. -/
def df0Selected : RigelContext :=
  ([.floppyInsert 0 (some fun _ => 0) 901120, .ciaWrite .portB 0x3 0xFF, .ciaWrite .portB 0x1 0x77] : List HostCall).foldl
    hostCall palMachine

theorem routing_agrees_df0 :
    selectedDrive (prbSelects (ciaPortBValue df0Selected.ciaB)) = (0, 1) ∧ RoutingAgrees df0Selected :=
  ⟨by decide +kernel, (routing_agrees_iff (palMachine_reachable.calls _)).mpr (by decide +kernel)⟩

/-- DF1, which is not connected, is selected, and a disk is ejected: the disk DMA goes to DF1 and not to DF0. -/
theorem routing_differs :
    Reachable ([HostCall.ciaWrite .portB 0x3 0xFF, .ciaWrite .portB 0x1 0xEF].foldl hostCall palMachine) ∧
      ¬ RoutingAgrees ([HostCall.ciaWrite .portB 0x3 0xFF, .ciaWrite .portB 0x1 0xEF].foldl hostCall palMachine) := by
  refine ⟨palMachine_reachable.calls _, fun h => ?_⟩
  have hdrive := h.1
  exact absurd hdrive (by decide +kernel)

end Rigel
