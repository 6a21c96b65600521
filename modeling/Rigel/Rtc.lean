import Rigel.Bits

/-!
# Rtc — the calendar in the clock chip's registers

The clock has four banks of sixteen registers, one decimal digit in each. The two chips keep the time of day in the same
registers and the date in different ones, and mark an afternoon by a bit beside the hour's tens. A time that is written to
the registers is read back as it was, but for the evening hours of a Ricoh chip in 24-hour mode.
-/

namespace Rigel

inductive RtcModel where
  | none
  | oki
  | ricoh
  deriving DecidableEq

/-- A calendar time, months from 0 and years from 1900. -/
structure Tm where
  sec : Int
  min : Int
  hour : Int
  mday : Int
  mon : Int
  year : Int
  wday : Int
  yday : Int

/-- The registers by bank and number. -/
abbrev RtcRegs := Nat → Nat → UInt8

structure RigelRtc where
  model : RtcModel
  reg : RtcRegs

def rtcNibble (v : UInt8) : UInt8 := v &&& 0x0F

def rtcBcdLo (v : Int) : UInt8 := UInt8.ofInt (v.tmod 10)

def rtcBcdHi (v : Int) : UInt8 := UInt8.ofInt (v.tdiv 10)

def rtcFromBcd (lo hi : UInt8) : Int := (rtcNibble lo).toNat + 10 * (rtcNibble hi).toNat

def rtcPut (reg : RtcRegs) (bank nr : Nat) (v : UInt8) : RtcRegs :=
  fun b n => if b = bank ∧ n = nr then v else reg b n

/-! ## The time of day -/

/-- The hour as the chip shows it, and whether it is past noon. -/
def rtcShownHour (is24h : Bool) (hour : Int) : Int × Bool :=
  if is24h then (hour, false)
  else if hour = 0 then (12, false)
  else if hour = 12 then (hour, true)
  else if hour > 12 then (hour - 12, true)
  else (hour, false)

/-- The registers of the hour, with the chip's afternoon flag among the tens. -/
def rtcHourToRegs (pmBit : UInt8) (is24h : Bool) (hour : Int) : UInt8 × UInt8 :=
  let (shown, pm) := rtcShownHour is24h hour
  (rtcBcdLo shown, if !is24h && pm then rtcBcdHi shown ||| pmBit else rtcBcdHi shown)

def rtcRegsToHour (tensMask pmBit : UInt8) (is24h : Bool) (regs : UInt8 × UInt8) : Int :=
  let hour := rtcFromBcd regs.1 (regs.2 &&& tensMask)
  let pm := regs.2 &&& pmBit != 0
  if is24h then hour
  else if hour = 12 then (if pm then 12 else 0)
  else if pm then hour + 12
  else hour

/-- Seconds, minutes and hour go to the same registers on both chips. -/
def rtcPutClock (reg : RtcRegs) (t : Tm) (hour : UInt8 × UInt8) : RtcRegs :=
  let reg := rtcPut reg 0 0x0 (rtcBcdLo t.sec)
  let reg := rtcPut reg 0 0x1 (rtcBcdHi t.sec)
  let reg := rtcPut reg 0 0x2 (rtcBcdLo t.min)
  let reg := rtcPut reg 0 0x3 (rtcBcdHi t.min)
  let reg := rtcPut reg 0 0x4 hour.1
  rtcPut reg 0 0x5 hour.2

/-- Years 00..69 are of the century after the one that 70..99 are of. -/
def rtcWindowYear (year : Int) : Int := year + if year < 70 then 100 else 0

/-! ## The two chips -/

def rtcIs24hOki (rtc : RigelRtc) : Bool := rtc.reg 0 0xF &&& 0x4 != 0

def rtcIs24hRicoh (rtc : RigelRtc) : Bool := rtc.reg 0 0xA &&& 0x1 != 0

def rtcTimeToRegsOki (rtc : RigelRtc) (t : Tm) : RigelRtc :=
  let reg := rtcPutClock rtc.reg t (rtcHourToRegs 0x4 (rtcIs24hOki rtc) t.hour)
  let reg := rtcPut reg 0 0x6 (rtcBcdLo t.mday)
  let reg := rtcPut reg 0 0x7 (rtcBcdHi t.mday)
  let reg := rtcPut reg 0 0x8 (rtcBcdLo (t.mon + 1))
  let reg := rtcPut reg 0 0x9 (rtcBcdHi (t.mon + 1))
  let reg := rtcPut reg 0 0xA (rtcBcdLo (t.year.tmod 100))
  let reg := rtcPut reg 0 0xB (rtcBcdHi (t.year.tmod 100))
  { rtc with reg := rtcPut reg 0 0xC (UInt8.ofInt t.wday &&& 0x0F) }

/-- The bits that the Ricoh chip has in its alarm bank. -/
def ricohAlarmBits : List UInt8 := [0x0, 0x0, 0xF, 0x7, 0xF, 0x3, 0x7, 0xF, 0x3, 0x0, 0x1, 0x3, 0x0]

def rtcTrimAlarm (reg : RtcRegs) : RtcRegs :=
  ricohAlarmBits.zipIdx.foldl (fun reg m => rtcPut reg 1 m.2 (reg 1 m.2 &&& m.1)) reg

/-- The month's tens share a register with the 24-hour flag. -/
def rtcPackMonHi (flags monHi : UInt8) : UInt8 := (flags &&& 0x1) ||| (monHi <<< (1 : UInt8))

def rtcTimeToRegsRicoh (rtc : RigelRtc) (t : Tm) : RigelRtc :=
  let reg := rtcPutClock rtc.reg t (rtcHourToRegs 0x2 (rtcIs24hRicoh rtc) t.hour)
  let reg := rtcPut reg 0 0x6 (UInt8.ofInt (t.yday.tdiv 7) &&& 0x0F)
  let reg := rtcPut reg 0 0x7 (rtcBcdLo t.mday)
  let reg := rtcPut reg 0 0x8 (rtcBcdHi t.mday)
  let reg := rtcPut reg 0 0x9 (rtcBcdLo (t.mon + 1))
  let reg := rtcPut reg 0 0xA (rtcPackMonHi (reg 0 0xA) (rtcBcdHi (t.mon + 1)))
  let reg := rtcPut reg 0 0xB (rtcBcdLo (t.year.tmod 100))
  let reg := rtcPut reg 0 0xC (rtcBcdHi (t.year.tmod 100))
  let reg := rtcPut reg 0 0xA (reg 0 0xA &&& 0x03)
  { rtc with reg := rtcTrimAlarm reg }

def rtcRegsToTimeOki (rtc : RigelRtc) : Tm where
  sec := rtcFromBcd (rtc.reg 0 0x0) (rtc.reg 0 0x1)
  min := rtcFromBcd (rtc.reg 0 0x2) (rtc.reg 0 0x3)
  hour := rtcRegsToHour 0x3 0x4 (rtcIs24hOki rtc) (rtc.reg 0 0x4, rtc.reg 0 0x5)
  mday := rtcFromBcd (rtc.reg 0 0x6) (rtc.reg 0 0x7)
  mon := rtcFromBcd (rtc.reg 0 0x8) (rtc.reg 0 0x9) - 1
  year := rtcWindowYear (rtcFromBcd (rtc.reg 0 0xA) (rtc.reg 0 0xB))
  wday := 0
  yday := 0

def rtcMonHi (flags : UInt8) : UInt8 := (flags >>> 1) &&& 0x1

def rtcRegsToTimeRicoh (rtc : RigelRtc) : Tm where
  sec := rtcFromBcd (rtc.reg 0 0x0) (rtc.reg 0 0x1)
  min := rtcFromBcd (rtc.reg 0 0x2) (rtc.reg 0 0x3)
  hour := rtcRegsToHour 0x1 0x2 (rtcIs24hRicoh rtc) (rtc.reg 0 0x4, rtc.reg 0 0x5)
  mday := rtcFromBcd (rtc.reg 0 0x7) (rtc.reg 0 0x8)
  mon := (rtcNibble (rtc.reg 0 0x9)).toNat + 10 * (rtcMonHi (rtc.reg 0 0xA)).toNat - 1
  year := rtcWindowYear (rtcFromBcd (rtc.reg 0 0xB) (rtc.reg 0 0xC))
  wday := 0
  yday := 0

/-- The registers for the calendar time that the host gives; without a chip there are none. -/
def rtcTimeToRegs (rtc : RigelRtc) (t : Tm) : RigelRtc :=
  match rtc.model with
  | .none => rtc
  | .oki => rtcTimeToRegsOki rtc t
  | .ricoh => rtcTimeToRegsRicoh rtc t

/-- The calendar time that goes to the host. -/
def rtcRegsToTime (rtc : RigelRtc) : Option Tm :=
  match rtc.model with
  | .none => Option.none
  | .oki => some (rtcRegsToTimeOki rtc)
  | .ricoh => some (rtcRegsToTimeRicoh rtc)

/-! ## Digits -/

/-- A number of a range, by its cases. -/
theorem int_forall_lt {P : Int → Prop} (bound : Nat) (h : ∀ n < bound, P (n : Nat)) {v : Int} (h0 : 0 ≤ v) (hv : v < bound) :
    P v := by
  obtain ⟨n, rfl⟩ := Int.eq_ofNat_of_zero_le h0
  exact h n (Int.ofNat_lt.mp hv)

theorem rtcFromBcd_digits {v : Int} (h0 : 0 ≤ v) (hv : v < 100) : rtcFromBcd (rtcBcdLo v) (rtcBcdHi v) = v :=
  int_forall_lt (P := fun v => rtcFromBcd (rtcBcdLo v) (rtcBcdHi v) = v) 100 (by decide +kernel) h0 hv

/-- The month's tens fit into the bit beside the 24-hour flag. -/
theorem rtcMonth_ricoh (flags : UInt8) {mon : Int} (h0 : 0 ≤ mon) (hmon : mon < 12) :
    ((rtcNibble (rtcBcdLo (mon + 1))).toNat +
      10 * (rtcMonHi (rtcPackMonHi flags (rtcBcdHi (mon + 1)) &&& 0x03)).toNat - 1 : Int) = mon :=
  int_forall_lt (P := fun mon => ((rtcNibble (rtcBcdLo (mon + 1))).toNat +
      10 * (rtcMonHi (rtcPackMonHi flags (rtcBcdHi (mon + 1)) &&& 0x03)).toNat - 1 : Int) = mon) 12
    (uint8_forall (P := fun flags => ∀ n < 12, ((rtcNibble (rtcBcdLo ((n : Nat) + 1))).toNat +
      10 * (rtcMonHi (rtcPackMonHi flags (rtcBcdHi ((n : Nat) + 1)) &&& 0x03)).toNat - 1 : Int) = (n : Nat))
      (by decide +kernel) flags) h0 hmon

theorem rtcYear_window {year : Int} (h70 : 70 ≤ year) (hyear : year < 170) :
    rtcWindowYear (rtcFromBcd (rtcBcdLo (year.tmod 100)) (rtcBcdHi (year.tmod 100))) = year :=
  int_forall_lt (P := fun year => 70 ≤ year →
      rtcWindowYear (rtcFromBcd (rtcBcdLo (year.tmod 100)) (rtcBcdHi (year.tmod 100))) = year) 170
    (by decide +kernel) (by omega) hyear h70

theorem rtcHour_oki (is24h : Bool) {hour : Int} (h0 : 0 ≤ hour) (hhour : hour < 24) :
    rtcRegsToHour 0x3 0x4 is24h (rtcHourToRegs 0x4 is24h hour) = hour :=
  int_forall_lt (P := fun hour => rtcRegsToHour 0x3 0x4 is24h (rtcHourToRegs 0x4 is24h hour) = hour) 24
    (by cases is24h <;> decide +kernel) h0 hhour

/-- The Ricoh chip's hour has one bit of tens, and from 20 on the day has a second one. -/
theorem rtcHour_ricoh (is24h : Bool) {hour : Int} (h0 : 0 ≤ hour) (hhour : hour < 24) :
    rtcRegsToHour 0x1 0x2 is24h (rtcHourToRegs 0x2 is24h hour) = if is24h = true ∧ 20 ≤ hour then hour - 20 else hour :=
  int_forall_lt (P := fun hour => rtcRegsToHour 0x1 0x2 is24h (rtcHourToRegs 0x2 is24h hour) =
    if is24h = true ∧ 20 ≤ hour then hour - 20 else hour) 24 (by cases is24h <;> decide +kernel) h0 hhour

/-! ## The round trip -/

/-- A time from 1970 to 2069. -/
structure CalendarTime (t : Tm) : Prop where
  sec : 0 ≤ t.sec ∧ t.sec ≤ 60
  min : 0 ≤ t.min ∧ t.min ≤ 59
  hour : 0 ≤ t.hour ∧ t.hour ≤ 23
  mday : 1 ≤ t.mday ∧ t.mday ≤ 31
  mon : 0 ≤ t.mon ∧ t.mon ≤ 11
  year : 70 ≤ t.year ∧ t.year ≤ 169

/-- Two times that agree in all but the day of the week and of the year, which the chips do not give back. -/
structure SameMoment (t t' : Tm) : Prop where
  sec : t.sec = t'.sec
  min : t.min = t'.min
  hour : t.hour = t'.hour
  mday : t.mday = t'.mday
  mon : t.mon = t'.mon
  year : t.year = t'.year

/-- **The time that is written to the registers is read from them.** -/
def RtcRoundTrip (rtc : RigelRtc) (t : Tm) : Prop :=
  ∃ t', rtcRegsToTime (rtcTimeToRegs rtc t) = some t' ∧ SameMoment t' t

theorem rtcPut_get (reg : RtcRegs) (bank nr : Nat) (v : UInt8) (b n : Nat) :
    rtcPut reg bank nr v b n = if b = bank ∧ n = nr then v else reg b n := rfl

/-- The clock's own bank is not the alarm's. -/
theorem rtcTrimAlarm_clock (reg : RtcRegs) (n : Nat) : rtcTrimAlarm reg 0 n = reg 0 n := by
  unfold rtcTrimAlarm
  generalize ricohAlarmBits.zipIdx = bits
  induction bits generalizing reg with
  | nil => rfl
  | cons m bits ih =>
    rw [List.foldl_cons, ih, rtcPut_get]
    exact if_neg fun h => absurd h.1 (by decide)

theorem sameMoment_oki (rtc : RigelRtc) {t : Tm} (h : CalendarTime t) :
    SameMoment (rtcRegsToTimeOki (rtcTimeToRegsOki rtc t)) t where
  sec := rtcFromBcd_digits h.sec.1 (by have := h.sec.2; omega)
  min := rtcFromBcd_digits h.min.1 (by have := h.min.2; omega)
  hour := rtcHour_oki (rtcIs24hOki rtc) h.hour.1 (by have := h.hour.2; omega)
  mday := rtcFromBcd_digits (by have := h.mday.1; omega) (by have := h.mday.2; omega)
  mon := by
    have hmon := h.mon
    have hdigits := rtcFromBcd_digits (v := t.mon + 1) (by omega) (by omega)
    show rtcFromBcd (rtcBcdLo (t.mon + 1)) (rtcBcdHi (t.mon + 1)) - 1 = t.mon
    omega
  year := rtcYear_window h.year.1 (by have := h.year.2; omega)

/-- The alarm bank has no part in the time. -/
theorem rtcRegsToTimeRicoh_trim (rtc : RigelRtc) (reg : RtcRegs) :
    rtcRegsToTimeRicoh { rtc with reg := rtcTrimAlarm reg } = rtcRegsToTimeRicoh { rtc with reg := reg } := by
  simp only [rtcRegsToTimeRicoh, rtcIs24hRicoh, rtcTrimAlarm_clock]

/-- The 24-hour flag stays beside the month's tens. -/
theorem rtcPackMonHi_flag (flags : UInt8) {mon : Int} (h0 : 0 ≤ mon) (hmon : mon < 12) :
    (rtcPackMonHi flags (rtcBcdHi (mon + 1)) &&& 0x03) &&& 0x1 = flags &&& 0x1 :=
  int_forall_lt (P := fun mon => (rtcPackMonHi flags (rtcBcdHi (mon + 1)) &&& 0x03) &&& 0x1 = flags &&& 0x1) 12
    (uint8_forall (P := fun flags => ∀ n < 12,
      (rtcPackMonHi flags (rtcBcdHi ((n : Nat) + 1)) &&& 0x03) &&& 0x1 = flags &&& 0x1) (by decide +kernel) flags) h0 hmon

/-- The Ricoh chip gives back all but the hour, and of the hour what its one bit of tens holds. -/
theorem sameMoment_ricoh (rtc : RigelRtc) {t : Tm} (h : CalendarTime t) :
    (rtcRegsToTimeRicoh (rtcTimeToRegsRicoh rtc t)).hour =
        (if rtcIs24hRicoh rtc = true ∧ 20 ≤ t.hour then t.hour - 20 else t.hour) ∧
      SameMoment { rtcRegsToTimeRicoh (rtcTimeToRegsRicoh rtc t) with hour := t.hour } t := by
  unfold rtcTimeToRegsRicoh
  rw [rtcRegsToTimeRicoh_trim]
  constructor
  · have hflag := rtcPackMonHi_flag (rtc.reg 0 0xA) h.mon.1 (by have := h.mon.2; omega)
    have hhour := rtcHour_ricoh (rtcIs24hRicoh rtc) h.hour.1 (by have := h.hour.2; omega)
    refine Eq.trans ?_ hhour
    show rtcRegsToHour 0x1 0x2
      ((rtcPackMonHi (rtc.reg 0 0xA) (rtcBcdHi (t.mon + 1)) &&& 0x03) &&& 0x1 != 0) _ = _
    rw [hflag]
    rfl
  · exact
      { sec := rtcFromBcd_digits h.sec.1 (by have := h.sec.2; omega)
        min := rtcFromBcd_digits h.min.1 (by have := h.min.2; omega)
        hour := rfl
        mday := rtcFromBcd_digits (by have := h.mday.1; omega) (by have := h.mday.2; omega)
        mon := rtcMonth_ricoh (rtc.reg 0 0xA) h.mon.1 (by have := h.mon.2; omega)
        year := rtcYear_window h.year.1 (by have := h.year.2; omega) }

/-- **A time comes back from the registers exactly if it is not an evening hour, from 20 on, of a Ricoh chip in 24-hour
mode.** -/
theorem rtcRoundTrip_iff (rtc : RigelRtc) (t : Tm) (hmodel : rtc.model ≠ .none) (ht : CalendarTime t) :
    RtcRoundTrip rtc t ↔ ¬ (rtc.model = .ricoh ∧ rtcIs24hRicoh rtc = true ∧ 20 ≤ t.hour) := by
  unfold RtcRoundTrip
  obtain ⟨model, reg⟩ := rtc
  cases model with
  | none => exact absurd rfl hmodel
  | oki =>
    refine iff_of_true ⟨_, rfl, sameMoment_oki _ ht⟩ ?_
    rintro ⟨hricoh, -⟩
    exact RtcModel.noConfusion hricoh
  | ricoh =>
    obtain ⟨hhour, hrest⟩ := sameMoment_ricoh { model := .ricoh, reg := reg } ht
    constructor
    · rintro ⟨t', hread, hsame⟩ ⟨-, hlate⟩
      have heq := (Option.some.inj hread).symm ▸ hsame.hour
      rw [if_pos hlate] at hhour
      have := hhour.symm.trans heq
      omega
    · intro hnot
      rw [if_neg fun hlate => hnot ⟨rfl, hlate⟩] at hhour
      exact ⟨_, rfl, hrest.sec, hrest.min, hhour, hrest.mday, hrest.mon, hrest.year⟩

/-- Eight in the evening of the first day of 1992. -/
def eightPm : Tm where
  sec := 0
  min := 0
  hour := 20
  mday := 1
  mon := 0
  year := 92
  wday := 3
  yday := 0

theorem eightPm_calendar : CalendarTime eightPm :=
  ⟨by decide, by decide, by decide, by decide, by decide, by decide⟩

/-- A chip in 24-hour mode; the two models have the flag in different registers. -/
def rtc24h : RtcModel → RigelRtc
  | .ricoh => { model := .ricoh, reg := rtcPut (fun _ _ => 0) 0 0xA 0x1 }
  | model => { model := model, reg := rtcPut (fun _ _ => 0) 0 0xF 0x4 }

theorem rtcRoundTrip_oki : RtcRoundTrip (rtc24h .oki) eightPm :=
  (rtcRoundTrip_iff (rtc24h .oki) eightPm (by decide) eightPm_calendar).mpr fun h => RtcModel.noConfusion h.1

/-- Eight in the evening is midnight on a Ricoh chip. -/
theorem rtcRoundTrip_ricoh : ¬ RtcRoundTrip (rtc24h .ricoh) eightPm := by
  rintro ⟨t', hread, hsame⟩
  have hhour : (rtcRegsToTimeRicoh (rtcTimeToRegsRicoh (rtc24h .ricoh) eightPm)).hour = 20 := by
    cases hread
    exact hsame.hour
  exact absurd hhour (by decide +kernel)

end Rigel
