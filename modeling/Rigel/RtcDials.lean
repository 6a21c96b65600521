import Rigel.RtcBus

/-!
# RtcDials — a clock's field in two registers

Each field of the time has a low and a high digit in two registers, the high one next to the low one. While a time is set
digit by digit, a field is for a moment made up of the digits of two values. What is said here of a field is what the setting
depends on: what the chip makes of such a pair, and that a digit that was lost does not come back with the other.
-/

namespace Rigel

inductive RtcField where
  | sec
  | min
  | hour
  | mday
  | mon
  | year
  deriving DecidableEq

def Tm.get (t : Tm) : RtcField → Int
  | .sec => t.sec
  | .min => t.min
  | .hour => t.hour
  | .mday => t.mday
  | .mon => t.mon
  | .year => t.year

theorem sameMoment_iff {t t' : Tm} : SameMoment t t' ↔ ∀ f, t.get f = t'.get f := by
  constructor
  · rintro ⟨hsec, hmin, hhour, hmday, hmon, hyear⟩ f
    cases f with
    | sec => exact hsec
    | min => exact hmin
    | hour => exact hhour
    | mday => exact hmday
    | mon => exact hmon
    | year => exact hyear
  · intro h
    exact ⟨h .sec, h .min, h .hour, h .mday, h .mon, h .year⟩

theorem SameMoment.symm {t t' : Tm} (h : SameMoment t t') : SameMoment t' t :=
  sameMoment_iff.mpr fun f => (sameMoment_iff.mp h f).symm

theorem SameMoment.trans {t t' t'' : Tm} (h : SameMoment t t') (h' : SameMoment t' t'') : SameMoment t t'' :=
  sameMoment_iff.mpr fun f => (sameMoment_iff.mp h f).trans (sameMoment_iff.mp h' f)

/-- Which chip, and how it shows the hour. -/
structure RtcMode where
  ricoh : Bool
  is24h : Bool

def rtcMode (rtc : RigelRtc) : RtcMode where
  ricoh := rtc.model = .ricoh
  is24h := if rtc.model = .ricoh then rtcIs24hRicoh rtc else rtcIs24hOki rtc

/-- The register of a field's low digit. -/
def RtcMode.lowReg (m : RtcMode) : RtcField → Nat
  | .sec => 0x0
  | .min => 0x2
  | .hour => 0x4
  | .mday => if m.ricoh then 0x7 else 0x6
  | .mon => if m.ricoh then 0x9 else 0x8
  | .year => if m.ricoh then 0xB else 0xA

/-- What the low register shows. -/
def RtcMode.low (m : RtcMode) (f : RtcField) (v : Int) : UInt8 :=
  match f with
  | .hour => (rtcHourToRegs (if m.ricoh then 0x2 else 0x4) m.is24h v).1
  | .mon => rtcBcdLo (v + 1)
  | .year => rtcBcdLo (v.tmod 100)
  | _ => rtcBcdLo v

/-- What the high register shows. -/
def RtcMode.high (m : RtcMode) (f : RtcField) (v : Int) : UInt8 :=
  match f with
  | .hour => (rtcHourToRegs (if m.ricoh then 0x2 else 0x4) m.is24h v).2
  | .mon => if m.ricoh then rtcPackMonHi (if m.is24h then 1 else 0) (rtcBcdHi (v + 1)) &&& 0x03 else rtcBcdHi (v + 1)
  | .year => rtcBcdHi (v.tmod 100)
  | _ => rtcBcdHi v

/-- The value that two registers are read as. -/
def RtcMode.value (m : RtcMode) (f : RtcField) (lo hi : UInt8) : Int :=
  match f with
  | .hour => rtcRegsToHour (if m.ricoh then 0x1 else 0x3) (if m.ricoh then 0x2 else 0x4) m.is24h (lo, hi)
  | .mon => if m.ricoh then (rtcNibble lo).toNat + 10 * (rtcMonHi hi).toNat - 1 else rtcFromBcd lo hi - 1
  | .year => rtcWindowYear (rtcFromBcd lo hi)
  | _ => rtcFromBcd lo hi

/-- What the field may hold. -/
def RtcField.InRange (f : RtcField) (v : Int) : Prop :=
  match f with
  | .sec | .min => 0 ≤ v ∧ v < 60
  | .hour => 0 ≤ v ∧ v < 24
  | .mday => 1 ≤ v ∧ v < 32
  | .mon => 0 ≤ v ∧ v < 12
  | .year => 70 ≤ v ∧ v < 170

/-- The chip gives back the value. -/
def RtcMode.Steady (m : RtcMode) (f : RtcField) (v : Int) : Prop := m.value f (m.low f v) (m.high f v) = v

/-! ## The registers are the dials' -/

theorem rtcPackMonHi_mode (flags monHi : UInt8) :
    rtcPackMonHi flags monHi = rtcPackMonHi (if flags &&& 0x1 != 0 then 1 else 0) monHi := by
  have hflag : flags &&& 0x1 = (if flags &&& 0x1 != 0 then (1 : UInt8) else 0) &&& 0x1 :=
    uint8_forall (P := fun flags => flags &&& 0x1 = (if flags &&& 0x1 != 0 then (1 : UInt8) else 0) &&& 0x1)
      (by decide +kernel) flags
  unfold rtcPackMonHi
  rw [← hflag]

/-- **The registers that a time fills.** -/
theorem rtcTimeToRegs_dials {rtc : RigelRtc} (h : rtc.model ≠ .none) (t : Tm) (f : RtcField) :
    (rtcTimeToRegs rtc t).reg 0 ((rtcMode rtc).lowReg f) = (rtcMode rtc).low f (t.get f) ∧
      (rtcTimeToRegs rtc t).reg 0 ((rtcMode rtc).lowReg f + 1) = (rtcMode rtc).high f (t.get f) := by
  obtain ⟨model, reg⟩ := rtc
  cases model with
  | none => exact absurd rfl h
  | oki => cases f <;> exact ⟨rfl, rfl⟩
  | ricoh =>
    have hpack := rtcPackMonHi_mode (reg 0 0xA) (rtcBcdHi (t.mon + 1))
    have hclock : ∀ n, (rtcTimeToRegs ⟨.ricoh, reg⟩ t).reg 0 n = _ := rtcTrimAlarm_clock _
    rw [hclock, hclock]
    cases f with
    | mon => exact ⟨rfl, congrArg (· &&& 0x03) hpack⟩
    | sec | min | hour | mday | year => exact ⟨rfl, rfl⟩

/-- **The time that the registers are read as.** -/
theorem rtcRegsToTime_dials {rtc : RigelRtc} (h : rtc.model ≠ .none) : ∃ t, rtcRegsToTime rtc = some t ∧
    ∀ f, t.get f = (rtcMode rtc).value f (rtc.reg 0 ((rtcMode rtc).lowReg f)) (rtc.reg 0 ((rtcMode rtc).lowReg f + 1)) := by
  obtain ⟨model, reg⟩ := rtc
  cases model with
  | none => exact absurd rfl h
  | oki => exact ⟨_, rfl, fun f => by cases f <;> rfl⟩
  | ricoh => exact ⟨_, rfl, fun f => by cases f <;> rfl⟩

/-! ## One field -/

/-- What a field's two digits do when they are of two values, `w` the one that is being set. -/
structure DialLaws (m : RtcMode) (f : RtcField) : Prop where
  /-- `w`'s low digit beside `v`'s high one: if the low digit is kept, so is the high one. -/
  lowKept : ∀ v w, f.InRange v → f.InRange w → m.Steady f v → f.InRange (m.value f (m.low f w) (m.high f v)) →
    m.low f (m.value f (m.low f w) (m.high f v)) = m.low f w →
    m.high f (m.value f (m.low f w) (m.high f v)) = m.high f v
  lowSteady : ∀ v w, f.InRange v → f.InRange w → m.Steady f v → f.InRange (m.value f (m.low f w) (m.high f v)) →
    m.Steady f (m.value f (m.low f w) (m.high f v))
  highSteady : ∀ v w, f.InRange v → f.InRange w → m.Steady f v → f.InRange (m.value f (m.low f v) (m.high f w)) →
    m.Steady f (m.value f (m.low f v) (m.high f w))
  /-- Under `w`'s high digit only `w`'s low digit makes `w`. -/
  lowLost : ∀ v w, f.InRange v → f.InRange w → m.Steady f v → m.value f (m.low f v) (m.high f w) = w →
    m.low f v = m.low f w
  /-- The digits tell the values apart. -/
  apart : ∀ v w, f.InRange v → f.InRange w → m.low f v = m.low f w → m.high f v = m.high f w → v = w

/-- The digits of two numbers, mixed. -/
theorem rtcFromBcd_mixed {v w : Int} (hv : 0 ≤ v ∧ v < 100) (hw : 0 ≤ w ∧ w < 100) :
    rtcFromBcd (rtcBcdLo v) (rtcBcdHi w) = v % 10 + 10 * (w / 10) := by
  obtain ⟨hlo, -⟩ := rtcBcd_digits hv.1 hv.2
  obtain ⟨-, hhi⟩ := rtcBcd_digits hw.1 hw.2
  unfold rtcFromBcd
  rw [hlo, hhi]

theorem rtcBcdLo_congr {v w : Int} (hv : 0 ≤ v) (hw : 0 ≤ w) (h : v % 10 = w % 10) : rtcBcdLo v = rtcBcdLo w := by
  unfold rtcBcdLo
  rw [Int.tmod_eq_emod_of_nonneg hv, Int.tmod_eq_emod_of_nonneg hw, h]

theorem rtcBcdHi_congr {v w : Int} (hv : 0 ≤ v) (hw : 0 ≤ w) (h : v / 10 = w / 10) : rtcBcdHi v = rtcBcdHi w := by
  unfold rtcBcdHi
  rw [Int.tdiv_eq_ediv_of_nonneg hv, Int.tdiv_eq_ediv_of_nonneg hw, h]

/-- **The laws of a field of plain decimal digits**, where `enc` is the number that is shown. -/
theorem dialLaws_decimal {m : RtcMode} {f : RtcField} (enc dec : Int → Int) (hlow : ∀ v, m.low f v = rtcBcdLo (enc v))
    (hhigh : ∀ v, m.high f v = rtcBcdHi (enc v)) (hvalue : ∀ lo hi, m.value f lo hi = dec (rtcFromBcd lo hi))
    (henc : ∀ v, f.InRange v → (0 ≤ enc v ∧ enc v < 100) ∧ dec (enc v) = v)
    (hdec : ∀ z, 0 ≤ z → z < 100 → f.InRange (dec z) → enc (dec z) = z) : DialLaws m f := by
  have hmixed : ∀ v w, f.InRange v → f.InRange w →
      m.value f (m.low f v) (m.high f w) = dec (enc v % 10 + 10 * (enc w / 10)) := by
    intro v w hv hw
    rw [hvalue, hlow, hhigh, rtcFromBcd_mixed (henc v hv).1 (henc w hw).1]
  have hsteady : ∀ g, f.InRange g → m.Steady f g := by
    intro g hg
    have hwhole : enc g % 10 + 10 * (enc g / 10) = enc g := by omega
    exact (hmixed g g hg hg).trans (by rw [hwhole, (henc g hg).2])
  have hback : ∀ v w, f.InRange v → f.InRange w → f.InRange (dec (enc v % 10 + 10 * (enc w / 10))) →
      enc (dec (enc v % 10 + 10 * (enc w / 10))) = enc v % 10 + 10 * (enc w / 10) := by
    intro v w hv hw hg
    have hv' := (henc v hv).1
    have hw' := (henc w hw).1
    exact hdec _ (by omega) (by omega) hg
  refine ⟨fun v w hv hw _ hg _ => ?_, fun v w _ _ _ hg => hsteady _ hg, fun v w _ _ _ hg => hsteady _ hg,
    fun v w hv hw _ hmade => ?_, fun v w hv hw hlo hhi => ?_⟩
  · rw [hmixed w v hw hv] at hg ⊢
    have hv' := (henc v hv).1
    have hw' := (henc w hw).1
    rw [hhigh, hhigh, hback w v hw hv hg]
    exact rtcBcdHi_congr (by omega) hv'.1 (by omega)
  · rw [hmixed v w hv hw] at hmade
    have hv' := (henc v hv).1
    have hw' := (henc w hw).1
    have henc' := hback v w hv hw (hmade.symm ▸ hw)
    rw [hmade] at henc'
    rw [hlow, hlow]
    exact rtcBcdLo_congr hv'.1 hw'.1 (by omega)
  · have hv' := (henc v hv).1
    have hw' := (henc w hw).1
    rw [hlow, hlow] at hlo
    rw [hhigh, hhigh] at hhi
    have hlo' := congrArg (fun b : UInt8 => ((rtcNibble b).toNat : Int)) hlo
    have hhi' := congrArg (fun b : UInt8 => ((rtcNibble b).toNat : Int)) hhi
    simp only [(rtcBcd_digits hv'.1 hv'.2).1, (rtcBcd_digits hw'.1 hw'.2).1] at hlo'
    simp only [(rtcBcd_digits hv'.1 hv'.2).2, (rtcBcd_digits hw'.1 hw'.2).2] at hhi'
    have hsame : enc v = enc w := by omega
    rw [← (henc v hv).2, ← (henc w hw).2, hsame]

instance (f : RtcField) (v : Int) : Decidable (f.InRange v) := by
  cases f <;> exact inferInstanceAs (Decidable (_ ∧ _))

instance (m : RtcMode) (f : RtcField) (v : Int) : Decidable (m.Steady f v) := inferInstanceAs (Decidable (_ = _))

/-- The laws for one pair of values. -/
def DialCheck (m : RtcMode) (f : RtcField) (v w : Int) : Prop :=
  let mixed := m.value f (m.low f w) (m.high f v)
  let other := m.value f (m.low f v) (m.high f w)
  (m.Steady f v → (f.InRange mixed → (m.low f mixed = m.low f w → m.high f mixed = m.high f v) ∧ m.Steady f mixed) ∧
    (f.InRange other → m.Steady f other) ∧ (other = w → m.low f v = m.low f w)) ∧
  (m.low f v = m.low f w → m.high f v = m.high f w → v = w)

instance (m : RtcMode) (f : RtcField) (v w : Int) : Decidable (DialCheck m f v w) :=
  inferInstanceAs (Decidable ((_ → (_ → (_ → _) ∧ _) ∧ (_ → _) ∧ (_ → _)) ∧ (_ → _ → _)))

/-- A field of few values, by its cases. -/
theorem dialLaws_checked {m : RtcMode} {f : RtcField} (bound : Nat) (hrange : ∀ v, f.InRange v → 0 ≤ v ∧ v < bound)
    (hcheck : ∀ v < bound, ∀ w < bound, DialCheck m f (v : Nat) (w : Nat)) : DialLaws m f := by
  have hall : ∀ v w, f.InRange v → f.InRange w → DialCheck m f v w := fun v w hv hw =>
    int_forall_lt (P := fun v => DialCheck m f v w) bound
      (fun n hn => int_forall_lt (P := fun w => DialCheck m f (n : Nat) w) bound (hcheck n hn) (hrange w hw).1 (hrange w hw).2)
      (hrange v hv).1 (hrange v hv).2
  exact
    { lowKept := fun v w hv hw hs hg => (((hall v w hv hw).1 hs).1 hg).1
      lowSteady := fun v w hv hw hs hg => (((hall v w hv hw).1 hs).1 hg).2
      highSteady := fun v w hv hw hs => ((hall v w hv hw).1 hs).2.1
      lowLost := fun v w hv hw hs => ((hall v w hv hw).1 hs).2.2
      apart := fun v w hv hw => (hall v w hv hw).2 }

/-- **The laws hold** of every field of both chips, in both modes. -/
theorem dialLaws (m : RtcMode) (f : RtcField) : DialLaws m f := by
  obtain ⟨ricoh, is24h⟩ := m
  have hplain : ∀ v : Int, 0 ≤ v ∧ v < 100 → (0 ≤ v ∧ v < 100) ∧ v = v := fun v hv => ⟨hv, rfl⟩
  cases f with
  | sec =>
    exact dialLaws_decimal id id (fun _ => rfl) (fun _ => rfl) (fun _ _ => rfl)
      (fun v hv => hplain v (by simp only [RtcField.InRange] at hv; omega)) fun _ _ _ _ => rfl
  | min =>
    exact dialLaws_decimal id id (fun _ => rfl) (fun _ => rfl) (fun _ _ => rfl)
      (fun v hv => hplain v (by simp only [RtcField.InRange] at hv; omega)) fun _ _ _ _ => rfl
  | mday =>
    exact dialLaws_decimal id id (fun _ => rfl) (fun _ => rfl) (fun _ _ => rfl)
      (fun v hv => hplain v (by simp only [RtcField.InRange] at hv; omega)) fun _ _ _ _ => rfl
  | year =>
    refine dialLaws_decimal (fun v => v.tmod 100) rtcWindowYear (fun _ => rfl) (fun _ => rfl) (fun _ _ => rfl)
      (fun v hv => ?_) fun z h0 h100 _ => ?_
    · simp only [RtcField.InRange] at hv
      have hmod : v.tmod 100 = v % 100 := Int.tmod_eq_emod_of_nonneg (by omega)
      unfold rtcWindowYear
      simp only [hmod]
      split <;> omega
    · unfold rtcWindowYear
      have hmod : (z + if z < 70 then 100 else 0).tmod 100 = (z + if z < 70 then 100 else 0) % 100 :=
        Int.tmod_eq_emod_of_nonneg (by split <;> omega)
      simp only [hmod]
      split <;> omega
  | hour =>
    refine dialLaws_checked 24 (fun v hv => hv) ?_
    cases ricoh <;> cases is24h <;> decide +kernel
  | mon =>
    cases ricoh with
    | true =>
      refine dialLaws_checked 12 (fun v hv => hv) ?_
      cases is24h <;> decide +kernel
    | false =>
      refine dialLaws_decimal (fun v => v + 1) (fun z => z - 1) (fun _ => rfl) (fun _ => rfl) (fun _ _ => rfl)
        (fun v hv => ?_) fun z _ _ _ => by omega
      simp only [RtcField.InRange] at hv
      omega

theorem rtcBcd_nibble {v : Int} (h0 : 0 ≤ v) (hv : v < 100) :
    rtcNibble (rtcBcdLo v) = rtcBcdLo v ∧ rtcNibble (rtcBcdHi v) = rtcBcdHi v :=
  int_forall_lt (P := fun v => rtcNibble (rtcBcdLo v) = rtcBcdLo v ∧ rtcNibble (rtcBcdHi v) = rtcBcdHi v) 100
    (by decide +kernel) h0 hv

theorem dial_nibble (m : RtcMode) (f : RtcField) {v : Int} (h : f.InRange v) :
    rtcNibble (m.low f v) = m.low f v ∧ rtcNibble (m.high f v) = m.high f v := by
  obtain ⟨ricoh, is24h⟩ := m
  cases f with
  | sec | min => exact rtcBcd_nibble h.1 (by have := h.2; omega)
  | mday => exact rtcBcd_nibble (by have := h.1; omega) (by have := h.2; omega)
  | year =>
    have h70 := h.1
    have hmod : v.tmod 100 = v % 100 := Int.tmod_eq_emod_of_nonneg (by omega)
    exact rtcBcd_nibble (v := v.tmod 100) (by omega) (by omega)
  | hour =>
    refine int_forall_lt (P := fun v => rtcNibble (RtcMode.low ⟨ricoh, is24h⟩ .hour v) = RtcMode.low ⟨ricoh, is24h⟩ .hour v ∧
      rtcNibble (RtcMode.high ⟨ricoh, is24h⟩ .hour v) = RtcMode.high ⟨ricoh, is24h⟩ .hour v) 24 ?_ h.1 h.2
    cases ricoh <;> cases is24h <;> decide +kernel
  | mon =>
    refine int_forall_lt (P := fun v => rtcNibble (RtcMode.low ⟨ricoh, is24h⟩ .mon v) = RtcMode.low ⟨ricoh, is24h⟩ .mon v ∧
      rtcNibble (RtcMode.high ⟨ricoh, is24h⟩ .mon v) = RtcMode.high ⟨ricoh, is24h⟩ .mon v) 12 ?_ h.1 h.2
    cases ricoh <;> cases is24h <;> decide +kernel

theorem steady_of_inRange (m : RtcMode) {f : RtcField} (hf : f ≠ .hour) {v : Int} (h : f.InRange v) : m.Steady f v := by
  obtain ⟨ricoh, is24h⟩ := m
  cases f with
  | sec | min => exact rtcFromBcd_digits h.1 (by have := h.2; omega)
  | mday => exact rtcFromBcd_digits (by have := h.1; omega) (by have := h.2; omega)
  | year => exact rtcYear_window h.1 h.2
  | hour => exact absurd rfl hf
  | mon =>
    refine int_forall_lt (P := fun v => RtcMode.Steady ⟨ricoh, is24h⟩ .mon v) 12 ?_ h.1 h.2
    cases ricoh <;> cases is24h <;> decide +kernel

/-- The hour that the chip gives back for one is steady. -/
theorem shownHour_steady (m : RtcMode) {v : Int} (h : RtcField.hour.InRange v) :
    RtcField.hour.InRange (m.value .hour (m.low .hour v) (m.high .hour v)) ∧
      m.Steady .hour (m.value .hour (m.low .hour v) (m.high .hour v)) := by
  obtain ⟨ricoh, is24h⟩ := m
  refine int_forall_lt (P := fun v => RtcField.hour.InRange
      (RtcMode.value ⟨ricoh, is24h⟩ .hour (RtcMode.low ⟨ricoh, is24h⟩ .hour v) (RtcMode.high ⟨ricoh, is24h⟩ .hour v)) ∧
    RtcMode.Steady ⟨ricoh, is24h⟩ .hour
      (RtcMode.value ⟨ricoh, is24h⟩ .hour (RtcMode.low ⟨ricoh, is24h⟩ .hour v) (RtcMode.high ⟨ricoh, is24h⟩ .hour v)))
    24 ?_ h.1 h.2
  cases ricoh <;> cases is24h <;> decide +kernel

/-- The year that the chip gives back has the same place between leap years. -/
theorem shownYear_mod (m : RtcMode) (year : Int) :
    m.value .year (m.low .year year) (m.high .year year) % 4 = year % 4 := by
  have hforward : ∀ n < 100, rtcWindowYear (rtcFromBcd (rtcBcdLo (n : Nat)) (rtcBcdHi (n : Nat))) % 4 = (n : Nat) % 4 := by
    decide +kernel
  have hback : ∀ n < 100, rtcWindowYear (rtcFromBcd (rtcBcdLo (-(n : Nat))) (rtcBcdHi (-(n : Nat)))) % 4 = (-(n : Nat)) % 4 := by
    decide +kernel
  show rtcWindowYear (rtcFromBcd (rtcBcdLo (year.tmod 100)) (rtcBcdHi (year.tmod 100))) % 4 = year % 4
  have hlt : (year.natAbs % 100) < 100 := Nat.mod_lt _ (by decide)
  rcases Int.natAbs_eq year with hyear | hyear
  · have hmod : year.tmod 100 = ((year.natAbs % 100 : Nat) : Int) := by
      conv => lhs; rw [hyear]
      rfl
    rw [hmod, hforward _ hlt]
    omega
  · have hmod : year.tmod 100 = -((year.natAbs % 100 : Nat) : Int) := by
      conv => lhs; rw [hyear, Int.neg_tmod]
      rfl
    rw [hmod, hback _ hlt]
    omega

end Rigel
