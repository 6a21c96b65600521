import Rigel.RtcSetting

/-!
# RtcHosts — hosts in universal time

Two hosts whose clock counts the seconds from 1970 on and whose calendar has no zone: one rejects the dates that do not
exist, the other carries them over as `mktime` does. From the last day of January neither of them comes to the last day of
February.
-/

namespace Rigel

/-- The day of the first of January 1970. -/
def epochDay : Int := 719528

/-- The date and the time of day. -/
def utcTm (v : Int) : Tm :=
  let date := Date.ofDay (v / 86400 + epochDay)
  { sec := v % 86400 % 60
    min := v % 86400 / 60 % 60
    hour := v % 86400 / 3600
    mday := date.day + 1
    mon := date.month
    year := date.year - 1900
    wday := (v / 86400 + 4) % 7
    yday := date.yearDay }

def utcTime (t : Tm) : Int := 86400 * (t.date.dayNumber - epochDay) + 3600 * t.hour + 60 * t.min + t.sec

/-- The months carried over to the years, and all else to the days and seconds. -/
def utcNormalised (t : Tm) : Int :=
  let month : Date := ⟨t.year + t.mon / 12 + 1900, (t.mon % 12).toNat, 0⟩
  86400 * (month.dayNumber + (t.mday - 1) - epochDay) + 3600 * t.hour + 60 * t.min + t.sec

def utcHost (now : Int) : RtcHost where
  now := now
  toCalendar := fun v => some (utcTm v)
  fromCalendar := fun t => if DateExists t then some (utcTime t) else none

def mktimeHost (now : Int) : RtcHost where
  now := now
  toCalendar := fun v => some (utcTm v)
  fromCalendar := fun t => some (utcNormalised t)

theorem utcTm_date (v : Int) : (utcTm v).date = Date.ofDay (v / 86400 + epochDay) := by
  unfold utcTm Tm.date
  simp only
  generalize Date.ofDay (v / 86400 + epochDay) = date
  obtain ⟨year, month, day⟩ := date
  simp only [Date.mk.injEq]
  omega

theorem utcTm_exists (v : Int) : DateExists (utcTm v) := by
  have hvalid := (Date.dayNumber_ofDay (v / 86400 + epochDay)).1
  rw [← utcTm_date] at hvalid
  refine ⟨?_, ?_, ?_, ?_, ?_, hvalid⟩ <;> simp only [utcTm] <;> omega

/-- **Every time is that of its date.** -/
theorem utcTime_utcTm (v : Int) : utcTime (utcTm v) = v := by
  have hday := (Date.dayNumber_ofDay (v / 86400 + epochDay)).2
  unfold utcTime
  rw [utcTm_date, hday]
  simp only [utcTm]
  omega

/-- **Every date is that of its time.** -/
theorem utcTm_utcTime {t : Tm} (h : DateExists t) : SameMoment (utcTm (utcTime t)) t := by
  have hsec := h.sec
  have hmin := h.min
  have hhour := h.hour
  have hmday := h.mday
  have hmon := h.mon
  have hdiv : utcTime t / 86400 + epochDay = t.date.dayNumber := by
    unfold utcTime
    omega
  have hmod : utcTime t % 86400 = 3600 * t.hour + 60 * t.min + t.sec := by
    unfold utcTime
    omega
  unfold utcTm
  rw [hdiv, hmod, Date.ofDay_dayNumber h.date]
  unfold Tm.date
  constructor <;> simp only <;> omega

theorem utcHost_calendar (now : Int) : HostCalendar (utcHost now) where
  dates := by
    rintro v t h
    cases h
    exact utcTm_exists v
  back := fun t ht _ _ => ⟨utcTime t, utcTm (utcTime t), if_pos ht, rfl, utcTm_utcTime ht⟩
  once := by
    rintro v v' t t' h h' hsame
    cases h
    cases h'
    have hget := sameMoment_iff.mp hsame
    have htime : utcTime (utcTm v) = utcTime (utcTm v') := by
      unfold utcTime Tm.date
      rw [hsame.sec, hsame.min, hsame.hour, hsame.mday, hsame.mon, hsame.year]
    rw [← utcTime_utcTm v, htime, utcTime_utcTm]

theorem utcHost_rejects (now : Int) : RejectsDates (utcHost now) := fun _ h => if_neg h

/-- The two hosts have one calendar. -/
theorem mktimeHost_calendar (now : Int) : SameCalendar (utcHost now) (mktimeHost now) where
  now := rfl
  toCalendar := rfl
  fromCalendar := by
    intro t ht
    have hmon := ht.mon
    have hmday := ht.mday
    have hrange : 0 ≤ t.mon ∧ t.mon < 12 := ht.inRange (f := .mon) (by decide)
    have hdiv : t.mon / 12 = 0 := by omega
    have hmod : t.mon % 12 = t.mon := by omega
    have hnormal : utcNormalised t = utcTime t := by
      unfold utcNormalised utcTime Tm.date Date.dayNumber Date.yearDay
      simp only [hdiv, hmod, Int.add_zero]
      omega
    unfold mktimeHost utcHost
    simp only [if_pos ht, hnormal]

theorem mktimeHost_normalises (now : Int) : NormalisesDates (mktimeHost now) where
  sec := by
    intro t
    simp only [mktimeHost, utcNormalised, Option.some.injEq]
    omega
  min := by
    intro t
    simp only [mktimeHost, utcNormalised, Option.some.injEq]
    omega
  hour := by
    intro t
    simp only [mktimeHost, utcNormalised, Option.some.injEq]
    omega
  mday := by
    intro t h0 h12
    have hdiv : t.mon / 12 = 0 := by omega
    have hmod : t.mon % 12 = t.mon := by omega
    have hnext := Date.dayNumber_nextMonth (t.year + 1900) (by omega : t.mon.toNat < 12)
    simp only [mktimeHost, utcNormalised, Option.some.injEq, hdiv, hmod, Int.add_zero]
    by_cases h11 : t.mon = 11
    · have hdiv' : (t.mon + 1) / 12 = 1 := by omega
      have hmod' : ((t.mon + 1) % 12).toNat = 0 := by omega
      have hyear : t.year + 1 + 1900 = t.year + 1900 + 1 := by omega
      rw [if_pos (by omega)] at hnext
      rw [hdiv', hmod', hyear, ← hnext]
      omega
    · have hdiv' : (t.mon + 1) / 12 = 0 := by omega
      have hmod' : ((t.mon + 1) % 12).toNat = t.mon.toNat + 1 := by omega
      rw [if_neg (by omega)] at hnext
      rw [hdiv', hmod', Int.add_zero, ← hnext]
      omega
  mon := by
    intro t
    have hdiv : (t.mon + 12) / 12 = t.mon / 12 + 1 := by omega
    have hmod : (t.mon + 12) % 12 = t.mon % 12 := by omega
    have hyear : t.year + (t.mon / 12 + 1) = t.year + 1 + t.mon / 12 := by omega
    simp only [mktimeHost, utcNormalised, hdiv, hmod, hyear]

/-- An OKI clock in 24-hour mode whose register D is clear. -/
def okiClock : RtcClock := ⟨⟨.oki, rtcPut (fun _ _ => 0) 0 0xF 0x4⟩, 0⟩

/-- From the tenth of March to the fifteenth every image is of a date, and both hosts come to the fifteenth. -/
theorem okiClock_march :
    rtcGetTime (utcHost 984225600) (rtcSetDigits (utcHost 984225600) okiClock (utcTm 984657600)) = 984657600 ∧
      rtcGetTime (mktimeHost 984225600) (rtcSetDigits (mktimeHost 984225600) okiClock (utcTm 984657600)) = 984657600 := by
  have hnow : (utcHost 984225600).toCalendar (rtcGetTime (utcHost 984225600) okiClock) = some (utcTm 984225600) := rfl
  have hthen : (utcHost 984225600).toCalendar 984657600 = some (utcTm 984657600) := rfl
  have hset := (rtcSetDigits_iff (utcHost_calendar 984225600) (by decide) (by decide) hnow hthen (by decide +kernel)
    (by decide +kernel)).mpr (by decide +kernel)
  exact ⟨hset _ ⟨rfl, rfl, fun _ _ => rfl⟩ (.inl (utcHost_rejects 984225600)),
    hset _ (mktimeHost_calendar 984225600) (.inr (mktimeHost_normalises 984225600))⟩

/-- From the last day of January to the last of February a digit is lost: the eight beside the three is not of a day. -/
theorem okiClock_february :
    rtcGetTime (utcHost 980942400) (rtcSetDigits (utcHost 980942400) okiClock (utcTm 983361600)) ≠ 983361600 ∧
      rtcGetTime (mktimeHost 980942400) (rtcSetDigits (mktimeHost 980942400) okiClock (utcTm 983361600)) ≠ 983361600 := by
  decide +kernel

end Rigel
