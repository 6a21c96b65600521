import Rigel.Gregorian
import Rigel.RtcDials

/-!
# RtcSetting — setting the clock digit by digit

Every digit that is written makes the chip read its registers as a time, have the host convert it, and fill the registers
from it again. Between the first digit and the last the registers hold a mixture of two times. Where each mixture is of a date
that exists, and is shown as it stands, the digits collect; where one is not, a digit is lost, and it is not written again.
-/

namespace Rigel

/-! ## Dates and hosts -/

def Tm.date (t : Tm) : Date := ⟨t.year + 1900, t.mon.toNat, (t.mday - 1).toNat⟩

/-- The calendar has this time. -/
structure DateExists (t : Tm) : Prop where
  sec : 0 ≤ t.sec ∧ t.sec < 60
  min : 0 ≤ t.min ∧ t.min < 60
  hour : 0 ≤ t.hour ∧ t.hour < 24
  mday : 1 ≤ t.mday
  mon : 0 ≤ t.mon
  date : t.date.Valid

theorem dateExists_iff {t : Tm} : DateExists t ↔ (0 ≤ t.sec ∧ t.sec < 60) ∧ (0 ≤ t.min ∧ t.min < 60) ∧
    (0 ≤ t.hour ∧ t.hour < 24) ∧ 1 ≤ t.mday ∧ 0 ≤ t.mon ∧ t.date.Valid :=
  ⟨fun h => ⟨h.sec, h.min, h.hour, h.mday, h.mon, h.date⟩, fun ⟨h1, h2, h3, h4, h5, h6⟩ => ⟨h1, h2, h3, h4, h5, h6⟩⟩

instance (t : Tm) : Decidable (DateExists t) := decidable_of_iff _ dateExists_iff.symm

theorem DateExists.congr {t t' : Tm} (h : DateExists t) (hsame : SameMoment t' t) : DateExists t' := by
  obtain ⟨sec, min, hour, mday, mon, year, wday, yday⟩ := t
  obtain ⟨sec', min', hour', mday', mon', year', wday', yday'⟩ := t'
  obtain ⟨hsec, hmin, hhour, hmday, hmon, hyear⟩ := hsame
  cases hsec
  cases hmin
  cases hhour
  cases hmday
  cases hmon
  cases hyear
  exact ⟨h.sec, h.min, h.hour, h.mday, h.mon, h.date⟩

/-- A host whose conversions are of one calendar: every time it has is of a date that exists, a date of the chip's hundred
years is converted to the time that it is the date of, and no two times have one date. -/
structure HostCalendar (host : RtcHost) : Prop where
  dates : ∀ v t, host.toCalendar v = some t → DateExists t
  back : ∀ t, DateExists t → 70 ≤ t.year → t.year < 170 →
    ∃ v t', host.fromCalendar t = some v ∧ host.toCalendar v = some t' ∧ SameMoment t' t
  once : ∀ v v' t t', host.toCalendar v = some t → host.toCalendar v' = some t' → SameMoment t t' → v = v'

/-- Two hosts that agree but for the dates that do not exist. -/
structure SameCalendar (host host' : RtcHost) : Prop where
  now : host'.now = host.now
  toCalendar : host'.toCalendar = host.toCalendar
  fromCalendar : ∀ t, DateExists t → host'.fromCalendar t = host.fromCalendar t

/-- The host has no time for a date that does not exist. -/
def RejectsDates (host : RtcHost) : Prop := ∀ t, ¬ DateExists t → host.fromCalendar t = none

/-- The host carries what is too much of one field over to the next. -/
structure NormalisesDates (host : RtcHost) : Prop where
  sec : ∀ t : Tm, host.fromCalendar { t with sec := t.sec + 60 } = host.fromCalendar { t with min := t.min + 1 }
  min : ∀ t : Tm, host.fromCalendar { t with min := t.min + 60 } = host.fromCalendar { t with hour := t.hour + 1 }
  hour : ∀ t : Tm, host.fromCalendar { t with hour := t.hour + 24 } = host.fromCalendar { t with mday := t.mday + 1 }
  mday : ∀ t : Tm, 0 ≤ t.mon → t.mon < 12 →
    host.fromCalendar { t with mday := t.mday + monthDays (t.year + 1900) t.mon.toNat } =
      host.fromCalendar { t with mon := t.mon + 1 }
  mon : ∀ t : Tm, host.fromCalendar { t with mon := t.mon + 12 } = host.fromCalendar { t with year := t.year + 1 }

/-! ## Setting the clock -/

/-- The digits of `t` go to the registers of the clock, one after another. -/
def rtcSetDigits (host : RtcHost) (c : RtcClock) (t : Tm) : RtcClock :=
  (List.range 13).foldl (fun c' nr => rtcWriteReg host c' nr ((rtcTimeToRegs c.rtc t).reg 0 nr)) c

/-- What the chip makes of the time that it shows. -/
def shownTime (rtc : RigelRtc) (t : Tm) : Tm := (rtcRegsToTime (rtcTimeToRegs rtc t)).getD t

/-- The registers below `k` are of the target, the others of the current time. -/
def settingImage (rtc : RigelRtc) (cur target : Tm) (k : Nat) : RigelRtc :=
  { rtc with
    reg := fun b n =>
      if b = 0 ∧ n < k then (rtcTimeToRegs rtc target).reg 0 n else (rtcTimeToRegs rtc (shownTime rtc cur)).reg b n }

/-- The registers are those of a date that exists, as the chip shows it. -/
def ImageOfDate (rtc : RigelRtc) : Prop :=
  ∃ t, rtcRegsToTime rtc = some t ∧ DateExists t ∧ ∀ f, ∀ i < 2,
    (rtcTimeToRegs rtc t).reg 0 ((rtcMode rtc).lowReg f + i) = rtc.reg 0 ((rtcMode rtc).lowReg f + i)

instance (rtc : RigelRtc) : Decidable (ImageOfDate rtc) :=
  match h : rtcRegsToTime rtc with
  | none => .isFalse fun ⟨_, ht, _⟩ => by cases h.symm.trans ht
  | some t =>
    decidable_of_iff
      (DateExists t ∧ ∀ f ∈ [RtcField.sec, .min, .hour, .mday, .mon, .year], ∀ i < 2,
        (rtcTimeToRegs rtc t).reg 0 ((rtcMode rtc).lowReg f + i) = rtc.reg 0 ((rtcMode rtc).lowReg f + i))
      ⟨fun ⟨hdate, hall⟩ => ⟨t, h, hdate, fun f => hall f (by cases f <;> decide)⟩,
        fun ⟨t', ht', hdate, hall⟩ => by
          cases h.symm.trans ht'
          exact ⟨hdate, fun f _ => hall f⟩⟩

/-! ## Times that the chip gives back -/

theorem DateExists.inRange {t : Tm} (h : DateExists t) {f : RtcField} (hf : f ≠ .year) : f.InRange (t.get f) := by
  have hlengths : ∀ (leap : Bool) (n : Nat), ((monthLengths leap)[n]?).getD 0 ≤ 31 := by
    intro leap n
    match n with
    | 0 | 1 | 2 | 3 | 4 | 5 | 6 | 7 | 8 | 9 | 10 | 11 => cases leap <;> decide
    | n + 12 => exact Nat.zero_le _
  have hmonths : ∀ (leap : Bool) (n : Nat), 12 ≤ n → ((monthLengths leap)[n]?).getD 0 = 0 := by
    intro leap n hn
    rw [List.getElem?_eq_none (by simpa [monthLengths] using hn), Option.getD_none]
  have hvalid : (t.mday - 1).toNat < ((monthLengths (isLeapYear (t.year + 1900)))[t.mon.toNat]?).getD 0 := h.date
  have hmon : t.mon.toNat < 12 := by
    refine Nat.lt_of_not_le fun h12 => ?_
    rw [hmonths _ _ h12] at hvalid
    omega
  have hday := Nat.lt_of_lt_of_le hvalid (hlengths _ _)
  have hmday := h.mday
  have hmon0 := h.mon
  cases f with
  | sec => exact h.sec
  | min => exact h.min
  | hour => exact h.hour
  | mday => exact ⟨hmday, by simp only [Tm.get]; omega⟩
  | mon => exact ⟨hmon0, by simp only [Tm.get]; omega⟩
  | year => exact absurd rfl hf

/-- A date of the hundred years that the chip gives back as it was. -/
structure Fits (m : RtcMode) (t : Tm) : Prop where
  date : DateExists t
  inRange : ∀ f : RtcField, f.InRange (t.get f)
  steady : ∀ f : RtcField, m.Steady f (t.get f)

theorem Fits.congr {m : RtcMode} {t t' : Tm} (h : Fits m t) (hsame : SameMoment t' t) : Fits m t' := by
  have hget := sameMoment_iff.mp hsame
  exact ⟨h.date.congr hsame, fun f => by rw [hget f]; exact h.inRange f, fun f => by rw [hget f]; exact h.steady f⟩

/-- Whatever is in its registers, the chip reads a year from 1970 to 2069. -/
theorem rtcYear_inRange (m : RtcMode) (lo hi : UInt8) : RtcField.year.InRange (m.value .year lo hi) := by
  have hnibble : ∀ v : UInt8, (rtcNibble v).toNat < 16 := fun v =>
    uint8_forall (P := fun v => (rtcNibble v).toNat < 16) (by decide +kernel) v
  have hlo := hnibble lo
  have hhi := hnibble hi
  have hread : 0 ≤ rtcFromBcd lo hi ∧ rtcFromBcd lo hi < 170 := by
    unfold rtcFromBcd
    omega
  simp only [RtcMode.value, RtcField.InRange, rtcWindowYear]
  split <;> omega

/-! ## One digit -/

theorem rtcMode_filled (rtc : RigelRtc) (t : Tm) :
    rtcMode (rtcTimeToRegs rtc t) = rtcMode rtc ∧ (rtcTimeToRegs rtc t).model = rtc.model := by
  obtain ⟨model, reg⟩ := rtc
  cases model with
  | none => exact ⟨rfl, rfl⟩
  | oki => exact ⟨rfl, rfl⟩
  | ricoh =>
    have hpack : ∀ flags monHi : UInt8, (rtcPackMonHi flags monHi &&& 0x03) &&& 0x1 = flags &&& 0x1 := by
      intro flags monHi
      have hbit : ∀ i < 8, (1 : UInt8).toNat.testBit i = decide (i = 0) ∧ (3 : UInt8).toNat.testBit i = decide (i < 2) := by
        decide
      have hshift : (1 : UInt8).toNat % 8 = 1 := rfl
      refine uint8_ext fun i hi => ?_
      unfold rtcPackMonHi
      simp only [UInt8.toNat_and, UInt8.toNat_or, UInt8.toNat_shiftLeft, Nat.testBit_and, Nat.testBit_or, Nat.testBit_mod_two_pow,
        Nat.testBit_shiftLeft, hshift, (hbit i hi).1, (hbit i hi).2]
      by_cases h0 : i = 0
      · subst h0
        simp
      · simp [h0]
    have hreg : (rtcTimeToRegs ⟨.ricoh, reg⟩ t).reg 0 0xA = _ := rtcTrimAlarm_clock _ 0xA
    refine ⟨?_, rfl⟩
    have hflag : rtcIs24hRicoh (rtcTimeToRegs ⟨.ricoh, reg⟩ t) = rtcIs24hRicoh ⟨.ricoh, reg⟩ := by
      unfold rtcIs24hRicoh
      rw [hreg]
      exact congrArg (· != 0) (hpack _ _)
    unfold rtcMode
    simp only [rtcTimeToRegs, rtcTimeToRegsRicoh] at hflag ⊢
    simp only [if_true, hflag]

/-- One register with another chip's digit in it. -/
def withDigit (x y : RigelRtc) (nr : Nat) : RigelRtc := { x with reg := rtcPut x.reg 0 nr (rtcNibble (y.reg 0 nr)) }

/-- A digit of a chip in the same mode leaves the mode. -/
theorem rtcMode_withDigit {x y : RigelRtc} (hmode : rtcMode y = rtcMode x) {nr : Nat} (hnr : nr < 13) :
    rtcMode (withDigit x y nr) = rtcMode x := by
  obtain ⟨model, reg⟩ := x
  have hflag := congrArg RtcMode.is24h hmode
  have hricoh := congrArg RtcMode.ricoh hmode
  have hnibble : ∀ v : UInt8, rtcNibble v &&& 0x1 = v &&& 0x1 := fun v =>
    uint8_forall (P := fun v => rtcNibble v &&& 0x1 = v &&& 0x1) (by decide +kernel) v
  unfold rtcMode withDigit at *
  simp only [rtcIs24hRicoh, rtcIs24hOki, rtcPut_get, true_and] at *
  by_cases hmodel : model = .ricoh
  · have hy : y.model = .ricoh := by simpa [hmodel] using hricoh
    simp only [hmodel, hy, if_true, RtcMode.mk.injEq, true_and] at hflag ⊢
    by_cases hA : 0xA = nr
    · subst hA
      rw [if_pos rfl, hnibble]
      exact hflag
    · rw [if_neg hA]
  · have hF : ¬ 0xF = nr := by omega
    simp only [hmodel, if_false, if_neg hF]

/-- A field whose digits are `t`'s, but for register `nr`, which has the target's. -/
def mixedField (m : RtcMode) (target t : Tm) (nr : Nat) (f : RtcField) : Int :=
  m.value f (if m.lowReg f = nr then m.low f (target.get f) else m.low f (t.get f))
    (if m.lowReg f + 1 = nr then m.high f (target.get f) else m.high f (t.get f))

/-- **A written time** is made up, field by field, of the digits of the two. -/
theorem withDigit_get {x y : RigelRtc} (hx : x.model ≠ .none) (hy : y.model ≠ .none) (hmode : rtcMode y = rtcMode x)
    {target : Tm} (hfits : ∀ f : RtcField, f.InRange (target.get f)) (t : Tm) {nr : Nat} (hnr : nr < 13) :
    ∃ r, rtcRegsToTime (withDigit (rtcTimeToRegs x t) (rtcTimeToRegs y target) nr) = some r ∧
      ∀ f, r.get f = mixedField (rtcMode x) target t nr f := by
  obtain ⟨hmodet, hmodelt⟩ := rtcMode_filled x t
  obtain ⟨hmodew, -⟩ := rtcMode_filled y target
  have hmode' : rtcMode (withDigit (rtcTimeToRegs x t) (rtcTimeToRegs y target) nr) = rtcMode x :=
    (rtcMode_withDigit (hmodew.trans (hmode.trans hmodet.symm)) hnr).trans hmodet
  have hnone : (withDigit (rtcTimeToRegs x t) (rtcTimeToRegs y target) nr).model ≠ .none := by
    unfold withDigit
    rw [hmodelt]
    exact hx
  obtain ⟨r, hr, hget⟩ := rtcRegsToTime_dials hnone
  refine ⟨r, hr, fun f => ?_⟩
  obtain ⟨htlow, hthigh⟩ := rtcTimeToRegs_dials hx t f
  obtain ⟨hwlow, hwhigh⟩ := rtcTimeToRegs_dials hy target f
  obtain ⟨hnlow, hnhigh⟩ := dial_nibble (rtcMode x) f (hfits f)
  rw [hmode] at hwlow hwhigh
  rw [hget f, hmode']
  unfold withDigit mixedField
  simp only [rtcPut_get, true_and]
  congr 1
  · by_cases h : (rtcMode x).lowReg f = nr
    · rw [if_pos h, if_pos h, ← h, hwlow, hnlow]
    · rw [if_neg h, if_neg h, htlow]
  · by_cases h : (rtcMode x).lowReg f + 1 = nr
    · rw [if_pos h, if_pos h, ← h, hwhigh, hnhigh]
    · rw [if_neg h, if_neg h, hthigh]

/-- The time that the chip reads when the registers show `t` and register `nr` gets the target's digit. -/
def writtenDate (rtc : RigelRtc) (target t : Tm) (nr : Nat) : Option Tm :=
  rtcRegsToTime (withDigit (rtcTimeToRegs rtc t) (rtcTimeToRegs rtc target) nr)

section
variable {rtc : RigelRtc} (hmodel : rtc.model ≠ .none) {target : Tm} (hfits : ∀ f : RtcField, f.InRange (target.get f))
include hmodel hfits

theorem writtenDate_get (t : Tm) {nr : Nat} (hnr : nr < 13) : ∃ r, writtenDate rtc target t nr = some r ∧
    ∀ f, r.get f = mixedField (rtcMode rtc) target t nr f := withDigit_get hmodel hmodel rfl hfits t hnr

/-! ## A host that rejects what does not exist -/

/-- One digit, where a time that does not exist is passed over. -/
def strictStep (rtc : RigelRtc) (target t : Tm) (nr : Nat) : Tm :=
  match writtenDate rtc target t nr with
  | none => t
  | some r => if DateExists r then r else t

omit hmodel hfits in
theorem strictStep_some {t r : Tm} {nr : Nat} (h : writtenDate rtc target t nr = some r) :
    strictStep rtc target t nr = if DateExists r then r else t := by
  unfold strictStep
  rw [h]

omit hmodel hfits in
/-- No two digits share a register. -/
theorem lowReg_apart (m : RtcMode) (f f' : RtcField) :
    (m.lowReg f = m.lowReg f' → f = f') ∧ m.lowReg f ≠ m.lowReg f' + 1 ∧ m.lowReg f + 1 < 13 := by
  obtain ⟨ricoh, is24h⟩ := m
  cases ricoh <;> cases f <;> cases f' <;> simp [RtcMode.lowReg]

theorem writtenDate_other {t : Tm} (h : Fits (rtcMode rtc) t) {nr : Nat} (hnr : nr < 13) {r : Tm}
    (hr : writtenDate rtc target t nr = some r) {f : RtcField} (hlow : (rtcMode rtc).lowReg f ≠ nr)
    (hhigh : (rtcMode rtc).lowReg f + 1 ≠ nr) : r.get f = t.get f := by
  obtain ⟨r', hr', hget⟩ := writtenDate_get hmodel hfits t hnr
  cases hr.symm.trans hr'
  rw [hget f, mixedField, if_neg hlow, if_neg hhigh]
  exact h.steady f

theorem strictStep_other {t : Tm} (h : Fits (rtcMode rtc) t) {nr : Nat} (hnr : nr < 13) {f : RtcField}
    (hlow : (rtcMode rtc).lowReg f ≠ nr) (hhigh : (rtcMode rtc).lowReg f + 1 ≠ nr) :
    (strictStep rtc target t nr).get f = t.get f := by
  obtain ⟨r, hr, -⟩ := writtenDate_get hmodel hfits t hnr
  rw [strictStep_some hr]
  split
  · exact writtenDate_other hmodel hfits h hnr hr hlow hhigh
  · rfl

/-- **A step keeps what the chip gives back.** -/
theorem strictStep_fits {t : Tm} (h : Fits (rtcMode rtc) t) {nr : Nat} (hnr : nr < 13) :
    Fits (rtcMode rtc) (strictStep rtc target t nr) := by
  obtain ⟨r, hr, hget⟩ := writtenDate_get hmodel hfits t hnr
  rw [strictStep_some hr]
  by_cases hdate : DateExists r
  · rw [if_pos hdate]
    have hyear : RtcField.year.InRange (r.get .year) := by
      rw [hget .year, mixedField]
      exact rtcYear_inRange _ _ _
    have hrange : ∀ f : RtcField, f.InRange (r.get f) := by
      intro f
      by_cases hf : f = .year
      · subst hf
        exact hyear
      · exact hdate.inRange hf
    refine ⟨hdate, hrange, fun f => ?_⟩
    have hf := hget f
    have hin := hrange f
    by_cases hlow : (rtcMode rtc).lowReg f = nr
    · have hhigh : (rtcMode rtc).lowReg f + 1 ≠ nr := by omega
      rw [mixedField, if_pos hlow, if_neg hhigh] at hf
      rw [hf] at hin ⊢
      exact (dialLaws _ f).lowSteady _ _ (h.inRange f) (hfits f) (h.steady f) hin
    · by_cases hhigh : (rtcMode rtc).lowReg f + 1 = nr
      · rw [mixedField, if_neg hlow, if_pos hhigh] at hf
        rw [hf] at hin ⊢
        exact (dialLaws _ f).highSteady _ _ (h.inRange f) (hfits f) (h.steady f) hin
      · rw [writtenDate_other hmodel hfits h hnr hr hlow hhigh]
        exact h.steady f
  · rw [if_neg hdate]
    exact h

/-- A field whose digits are both written keeps its value to the end. -/
theorem strictRun_other {f : RtcField} : ∀ (nrs : List Nat) (t : Tm), Fits (rtcMode rtc) t →
    (∀ nr ∈ nrs, nr < 13 ∧ (rtcMode rtc).lowReg f ≠ nr ∧ (rtcMode rtc).lowReg f + 1 ≠ nr) →
    (nrs.foldl (strictStep rtc target) t).get f = t.get f
  | [], _, _, _ => rfl
  | nr :: nrs, t, h, hall => by
    obtain ⟨hnr, hlow, hhigh⟩ := hall nr List.mem_cons_self
    rw [List.foldl_cons, strictRun_other nrs _ (strictStep_fits hmodel hfits h hnr)
      fun nr' hnr' => hall nr' (List.mem_cons_of_mem _ hnr')]
    exact strictStep_other hmodel hfits h hnr hlow hhigh

/-! ## Digits that collect -/

/-- The digits of `t` below register `k` are the target's and the others those of `base`. -/
def ShowsDigits (m : RtcMode) (target base : Tm) (k : Nat) (t : Tm) : Prop := ∀ f : RtcField,
  m.low f (t.get f) = (if m.lowReg f < k then m.low f (target.get f) else m.low f (base.get f)) ∧
    m.high f (t.get f) = (if m.lowReg f + 1 < k then m.high f (target.get f) else m.high f (base.get f))

omit hfits in
/-- The digits of the image. -/
theorem settingImage_digits (cur : Tm) {k : Nat} (hk : k ≤ 13) :
    rtcMode (settingImage rtc cur target k) = rtcMode rtc ∧ ∀ f,
      (settingImage rtc cur target k).reg 0 ((rtcMode rtc).lowReg f) =
        (if (rtcMode rtc).lowReg f < k then (rtcMode rtc).low f (target.get f)
          else (rtcMode rtc).low f ((shownTime rtc cur).get f)) ∧
      (settingImage rtc cur target k).reg 0 ((rtcMode rtc).lowReg f + 1) =
        (if (rtcMode rtc).lowReg f + 1 < k then (rtcMode rtc).high f (target.get f)
          else (rtcMode rtc).high f ((shownTime rtc cur).get f)) := by
  constructor
  · have hcur := congrArg RtcMode.is24h (rtcMode_filled rtc (shownTime rtc cur)).1
    have htarget := congrArg RtcMode.is24h (rtcMode_filled rtc target).1
    have hcurModel := (rtcMode_filled rtc (shownTime rtc cur)).2
    have htargetModel := (rtcMode_filled rtc target).2
    unfold rtcMode settingImage rtcIs24hRicoh rtcIs24hOki at *
    simp only [hcurModel, htargetModel, true_and] at *
    by_cases hricoh : rtc.model = .ricoh
    · simp only [hricoh, if_true, RtcMode.mk.injEq, true_and] at hcur htarget ⊢
      split
      · exact htarget
      · exact hcur
    · have hF : ¬ 0xF < k := by omega
      simp only [hricoh, if_false, hF, RtcMode.mk.injEq, true_and] at hcur ⊢
      exact hcur
  · intro f
    obtain ⟨htlow, hthigh⟩ := rtcTimeToRegs_dials hmodel target f
    obtain ⟨hclow, hchigh⟩ := rtcTimeToRegs_dials hmodel (shownTime rtc cur) f
    unfold settingImage
    simp only [true_and, htlow, hthigh, hclow, hchigh]

/-- **The image of the next digit** is of a date exactly if the digit can be written and the others stay. -/
theorem imageOfDate_iff (cur : Tm) {t : Tm} {k : Nat} (hk : k < 13)
    (hshows : ShowsDigits (rtcMode rtc) target (shownTime rtc cur) k t) :
    ImageOfDate (settingImage rtc cur target (k + 1)) ↔ ∃ r, writtenDate rtc target t k = some r ∧ DateExists r ∧
      ShowsDigits (rtcMode rtc) target (shownTime rtc cur) (k + 1) r := by
  obtain ⟨hmode, hdigits⟩ := settingImage_digits hmodel cur hk
  obtain ⟨r, hr, hrget⟩ := writtenDate_get hmodel hfits t hk
  obtain ⟨r', hr', hrget'⟩ := @rtcRegsToTime_dials (settingImage rtc cur target (k + 1)) hmodel
  have hsame : SameMoment r' r := by
    refine sameMoment_iff.mpr fun f => ?_
    obtain ⟨hlow, hhigh⟩ := hshows f
    have hlt : ∀ n : Nat, (n < k + 1) = (n = k ∨ n < k) := fun n => propext (by omega)
    rw [hrget' f, hrget f, mixedField, hmode, (hdigits f).1, (hdigits f).2, hlow, hhigh]
    simp only [hlt]
    congr 1
    · by_cases h : (rtcMode rtc).lowReg f = k <;> simp [h]
    · by_cases h : (rtcMode rtc).lowReg f + 1 = k <;> simp [h]
  have hshown : ∀ f, (rtcTimeToRegs (settingImage rtc cur target (k + 1)) r').reg 0 ((rtcMode rtc).lowReg f) =
        (rtcMode rtc).low f (r.get f) ∧
      (rtcTimeToRegs (settingImage rtc cur target (k + 1)) r').reg 0 ((rtcMode rtc).lowReg f + 1) =
        (rtcMode rtc).high f (r.get f) := by
    intro f
    have hfilled := @rtcTimeToRegs_dials (settingImage rtc cur target (k + 1)) hmodel r' f
    rw [hmode, sameMoment_iff.mp hsame f] at hfilled
    exact hfilled
  unfold ImageOfDate
  rw [hmode]
  constructor
  · rintro ⟨t', ht', hdate, hall⟩
    cases hr'.symm.trans ht'
    exact ⟨r, hr, hdate.congr hsame.symm, fun f => ⟨((hshown f).1.symm.trans (hall f 0 (by decide))).trans (hdigits f).1,
      ((hshown f).2.symm.trans (hall f 1 (by decide))).trans (hdigits f).2⟩⟩
  · rintro ⟨r'', hr'', hdate, hall⟩
    cases hr.symm.trans hr''
    refine ⟨r', hr', hdate.congr hsame, fun f i hi => ?_⟩
    have hi' : i = 0 ∨ i = 1 := by omega
    rcases hi' with rfl | rfl
    · exact ((hshown f).1.trans (hall f).1).trans (hdigits f).1.symm
    · exact ((hshown f).2.trans (hall f).2).trans (hdigits f).2.symm

/-! ## Digits that are lost -/

/-- **A low digit that is lost** is not made good by the high one, nor by anything after it. -/
theorem lowDigit_lost {t : Tm} (h : Fits (rtcMode rtc) t) {f : RtcField}
    (hlost : (rtcMode rtc).low f (t.get f) ≠ (rtcMode rtc).low f (target.get f)) {nrs : List Nat}
    (hrest : ∀ nr ∈ nrs, nr < 13 ∧ (rtcMode rtc).lowReg f + 1 < nr) :
    ((((rtcMode rtc).lowReg f + 1) :: nrs).foldl (strictStep rtc target) t).get f ≠ target.get f := by
  have hnr : (rtcMode rtc).lowReg f + 1 < 13 := (lowReg_apart (rtcMode rtc) f f).2.2
  have hlow : (rtcMode rtc).lowReg f ≠ (rtcMode rtc).lowReg f + 1 := (lowReg_apart (rtcMode rtc) f f).2.1
  rw [List.foldl_cons, strictRun_other hmodel hfits nrs _ (strictStep_fits hmodel hfits h hnr) fun nr hmem => by
    obtain ⟨hnr, hgt⟩ := hrest nr hmem
    exact ⟨hnr, by omega, by omega⟩]
  obtain ⟨r, hr, hget⟩ := writtenDate_get hmodel hfits t hnr
  have hf := hget f
  rw [mixedField, if_neg hlow, if_pos rfl] at hf
  rw [strictStep_some hr]
  split
  · intro hmade
    exact hlost ((dialLaws _ f).lowLost _ _ (h.inRange f) (hfits f) (h.steady f) (hf.symm.trans hmade))
  · intro hmade
    exact hlost (by rw [hmade])

/-- The digits that are shown once more of them are written: those that are not written stay as they are. -/
theorem showsDigits_next (cur : Tm) {t r : Tm} (h : Fits (rtcMode rtc) t) {k : Nat} (hk : k < 13)
    (hshows : ShowsDigits (rtcMode rtc) target (shownTime rtc cur) k t) (hr : writtenDate rtc target t k = some r)
    (hlowk : ∀ f, (rtcMode rtc).lowReg f = k → (rtcMode rtc).low f (r.get f) = (rtcMode rtc).low f (target.get f) ∧
      (rtcMode rtc).high f (r.get f) = (rtcMode rtc).high f (t.get f))
    (hhighk : ∀ f, (rtcMode rtc).lowReg f + 1 = k → r.get f = target.get f) :
    ShowsDigits (rtcMode rtc) target (shownTime rtc cur) (k + 1) r := by
  intro f
  obtain ⟨hlow, hhigh⟩ := hshows f
  have hlt : ∀ n : Nat, (n < k + 1) = (n = k ∨ n < k) := fun n => propext (by omega)
  simp only [hlt]
  by_cases hfl : (rtcMode rtc).lowReg f = k
  · have hfh : ¬ ((rtcMode rtc).lowReg f + 1 = k ∨ (rtcMode rtc).lowReg f + 1 < k) := by omega
    have hfh' : ¬ (rtcMode rtc).lowReg f + 1 < k := by omega
    rw [if_neg hfh'] at hhigh
    rw [if_pos (Or.inl hfl), if_neg hfh, (hlowk f hfl).1, (hlowk f hfl).2, hhigh]
    exact ⟨rfl, rfl⟩
  · by_cases hfh : (rtcMode rtc).lowReg f + 1 = k
    · have hfl' : (rtcMode rtc).lowReg f < k := by omega
      rw [if_pos (Or.inr hfl'), if_pos (Or.inl hfh), hhighk f hfh]
      exact ⟨rfl, rfl⟩
    · rw [writtenDate_other hmodel hfits h hk hr hfl hfh]
      simp only [hfl, hfh, false_or]
      exact ⟨hlow, hhigh⟩

omit hmodel hfits in
/-- A written time that is what it was is of a date. -/
theorem writtenDate_unchanged {t r : Tm} (h : Fits (rtcMode rtc) t) (hall : ∀ f, r.get f = t.get f) : DateExists r :=
  h.date.congr (sameMoment_iff.mpr hall)

/-- **A low digit is not written** if its image is not of a date. -/
theorem lowStep_wrong (cur : Tm) {t : Tm} (h : Fits (rtcMode rtc) t) (f : RtcField) (hk : (rtcMode rtc).lowReg f < 13)
    (hshows : ShowsDigits (rtcMode rtc) target (shownTime rtc cur) ((rtcMode rtc).lowReg f) t)
    (himage : ¬ ImageOfDate (settingImage rtc cur target ((rtcMode rtc).lowReg f + 1))) :
    (rtcMode rtc).low f ((strictStep rtc target t ((rtcMode rtc).lowReg f)).get f) ≠ (rtcMode rtc).low f (target.get f) := by
  rw [imageOfDate_iff hmodel hfits cur hk hshows] at himage
  obtain ⟨r, hr, hget⟩ := writtenDate_get hmodel hfits t hk
  have hothers : ∀ f', f' ≠ f → r.get f' = t.get f' := fun f' hne =>
    writtenDate_other hmodel hfits h hk hr (fun heq => hne ((lowReg_apart _ f' f).1 heq)) fun heq =>
      (lowReg_apart _ f f').2.1 heq.symm
  have hhigh : ¬ (rtcMode rtc).lowReg f + 1 = (rtcMode rtc).lowReg f := by omega
  have hf := hget f
  rw [mixedField, if_pos rfl, if_neg hhigh] at hf
  rw [strictStep_some hr]
  by_cases hdate : DateExists r
  · rw [if_pos hdate]
    intro hkept
    refine himage ⟨r, hr, hdate, showsDigits_next hmodel hfits cur h hk hshows hr (fun f' heq => ?_) fun f' heq =>
      absurd heq.symm (lowReg_apart _ f f').2.1⟩
    obtain rfl := (lowReg_apart _ f' f).1 heq
    have hfit := strictStep_fits hmodel hfits h hk
    rw [strictStep_some hr, if_pos hdate] at hfit
    have hin := hfit.inRange f'
    refine ⟨hkept, ?_⟩
    rw [hf] at hkept hin ⊢
    exact (dialLaws _ f').lowKept _ _ (h.inRange f') (hfits f') (h.steady f') hin hkept
  · rw [if_neg hdate]
    intro hsame
    refine hdate (writtenDate_unchanged h fun f' => ?_)
    by_cases hne : f' = f
    · subst hne
      rw [hf, ← hsame]
      exact h.steady f'
    · exact hothers f' hne

/-- **A high digit is not written** if its image is not of a date. -/
theorem highStep_wrong (cur : Tm) {t : Tm} (h : Fits (rtcMode rtc) t) (f : RtcField) (hk : (rtcMode rtc).lowReg f + 1 < 13)
    (hnolow : ∀ f', (rtcMode rtc).lowReg f' ≠ (rtcMode rtc).lowReg f + 1)
    (hshows : ShowsDigits (rtcMode rtc) target (shownTime rtc cur) ((rtcMode rtc).lowReg f + 1) t)
    (himage : ¬ ImageOfDate (settingImage rtc cur target ((rtcMode rtc).lowReg f + 1 + 1))) :
    (strictStep rtc target t ((rtcMode rtc).lowReg f + 1)).get f ≠ target.get f := by
  rw [imageOfDate_iff hmodel hfits cur hk hshows] at himage
  obtain ⟨r, hr, hget⟩ := writtenDate_get hmodel hfits t hk
  have hinj : ∀ f', (rtcMode rtc).lowReg f' + 1 = (rtcMode rtc).lowReg f + 1 → f' = f := fun f' heq =>
    (lowReg_apart _ f' f).1 (Nat.succ.inj heq)
  have hothers : ∀ f', f' ≠ f → r.get f' = t.get f' := fun f' hne =>
    writtenDate_other hmodel hfits h hk hr (hnolow f') fun heq => hne (hinj f' heq)
  have hlow : ¬ (rtcMode rtc).lowReg f = (rtcMode rtc).lowReg f + 1 := by omega
  have hf := hget f
  rw [mixedField, if_neg hlow, if_pos rfl] at hf
  rw [strictStep_some hr]
  by_cases hdate : DateExists r
  · rw [if_pos hdate]
    intro hmade
    exact himage ⟨r, hr, hdate, showsDigits_next hmodel hfits cur h hk hshows hr
      (fun f' heq => absurd heq (hnolow f')) fun f' heq => by rw [hinj f' heq, hmade]⟩
  · rw [if_neg hdate]
    intro hsame
    refine hdate (writtenDate_unchanged h fun f' => ?_)
    by_cases hne : f' = f
    · subst hne
      rw [hf, ← hsame]
      exact h.steady f'
    · exact hothers f' hne

theorem noStep_date (cur : Tm) {t : Tm} (h : Fits (rtcMode rtc) t) {k : Nat} (hk : k < 13)
    (hnolow : ∀ f, (rtcMode rtc).lowReg f ≠ k) (hnohigh : ∀ f, (rtcMode rtc).lowReg f + 1 ≠ k)
    (hshows : ShowsDigits (rtcMode rtc) target (shownTime rtc cur) k t) :
    ImageOfDate (settingImage rtc cur target (k + 1)) := by
  obtain ⟨r, hr, -⟩ := writtenDate_get hmodel hfits t hk
  have hall : ∀ f, r.get f = t.get f := fun f => writtenDate_other hmodel hfits h hk hr (hnolow f) (hnohigh f)
  exact (imageOfDate_iff hmodel hfits cur hk hshows).mpr ⟨r, hr, writtenDate_unchanged h hall,
    showsDigits_next hmodel hfits cur h hk hshows hr (fun f heq => absurd heq (hnolow f)) fun f heq => absurd heq (hnohigh f)⟩

/-- **An image that is not of a date loses a digit.** -/
theorem digit_lost (cur : Tm) {t : Tm} (h : Fits (rtcMode rtc) t) {k : Nat} (hk : k < 13)
    (hshows : ShowsDigits (rtcMode rtc) target (shownTime rtc cur) k t)
    (himage : ¬ ImageOfDate (settingImage rtc cur target (k + 1))) :
    ¬ SameMoment ((List.range' k (13 - k)).foldl (strictStep rtc target) t) target := by
  have hrange : 13 - k = (13 - (k + 1)) + 1 := by omega
  rw [hrange, List.range'_succ]
  intro hend
  have hfit := strictStep_fits hmodel hfits h hk
  by_cases hlowk : ∃ f, (rtcMode rtc).lowReg f = k
  · obtain ⟨f, rfl⟩ := hlowk
    have hlost := lowStep_wrong hmodel hfits cur h f hk hshows himage
    have hnext : (rtcMode rtc).lowReg f + 1 < 13 := (lowReg_apart _ f f).2.2
    have hrest : 13 - ((rtcMode rtc).lowReg f + 1) = (13 - ((rtcMode rtc).lowReg f + 1 + 1)) + 1 := by omega
    rw [List.foldl_cons, hrest, List.range'_succ] at hend
    refine lowDigit_lost hmodel hfits hfit hlost (fun nr hmem => ?_) (sameMoment_iff.mp hend f)
    rw [List.mem_range'_1] at hmem
    omega
  · have hnolow : ∀ f, (rtcMode rtc).lowReg f ≠ k := fun f heq => hlowk ⟨f, heq⟩
    by_cases hhighk : ∃ f, (rtcMode rtc).lowReg f + 1 = k
    · obtain ⟨f, rfl⟩ := hhighk
      have hwrong := highStep_wrong hmodel hfits cur h f hk hnolow hshows himage
      refine hwrong ?_
      have hkeeps := strictRun_other hmodel hfits (f := f)
        (List.range' ((rtcMode rtc).lowReg f + 1 + 1) (13 - ((rtcMode rtc).lowReg f + 1 + 1))) _ hfit fun nr hmem => by
          rw [List.mem_range'_1] at hmem
          omega
      rw [← hkeeps]
      exact sameMoment_iff.mp hend f
    · exact himage (noStep_date hmodel hfits cur h hk hnolow (fun f heq => hhighk ⟨f, heq⟩) hshows)

/-- The strict run over the registers below `k`. -/
def strictRun (rtc : RigelRtc) (cur target : Tm) (k : Nat) : Tm :=
  (List.range k).foldl (strictStep rtc target) (shownTime rtc cur)

omit hmodel hfits in
theorem strictRun_succ (cur : Tm) (k : Nat) :
    strictRun rtc cur target (k + 1) = strictStep rtc target (strictRun rtc cur target k) k := by
  unfold strictRun
  rw [List.range_succ, List.foldl_append]
  rfl

theorem strictRun_fits {cur : Tm} (hbase : Fits (rtcMode rtc) (shownTime rtc cur)) :
    ∀ k ≤ 13, Fits (rtcMode rtc) (strictRun rtc cur target k)
  | 0, _ => hbase
  | k + 1, hk => by
    rw [strictRun_succ]
    exact strictStep_fits hmodel hfits (strictRun_fits hbase k (Nat.le_of_succ_le hk)) hk

/-- **While the images are of dates, the digits collect.** -/
theorem strictRun_collects {cur : Tm} : ∀ k ≤ 13, (∀ j < k, ImageOfDate (settingImage rtc cur target (j + 1))) →
    ShowsDigits (rtcMode rtc) target (shownTime rtc cur) k (strictRun rtc cur target k)
  | 0, _, _ => fun f => by simp [strictRun]
  | k + 1, hk, himages => by
    have hshows := strictRun_collects k (Nat.le_of_succ_le hk) fun j hj => himages j (Nat.lt_succ_of_lt hj)
    obtain ⟨r, hr, hdate, hnext⟩ := (imageOfDate_iff hmodel hfits cur hk hshows).mp (himages k (Nat.lt_succ_self k))
    rw [strictRun_succ, strictStep_some hr, if_pos hdate]
    exact hnext

/-- **The strict run ends at the target** exactly if every image on the way is of a date. -/
theorem strictRun_iff {cur : Tm} (hbase : Fits (rtcMode rtc) (shownTime rtc cur)) :
    SameMoment (strictRun rtc cur target 13) target ↔ ∀ k < 13, ImageOfDate (settingImage rtc cur target (k + 1)) := by
  constructor
  · intro hend k
    induction k using Nat.strong_induction_on with
    | h k ih =>
      intro hk
      by_contra himage
      refine digit_lost hmodel hfits cur (strictRun_fits hmodel hfits hbase k (by omega)) hk
        (strictRun_collects hmodel hfits k (by omega) fun j hj => ih j hj (by omega)) himage ?_
      have hsplit : List.range 13 = List.range k ++ List.range' k (13 - k) := by
        have happend := List.range'_append_1 (s := 0) (m := k) (n := 13 - k)
        rw [Nat.zero_add, Nat.add_sub_cancel' (by omega : k ≤ 13)] at happend
        rw [List.range_eq_range', List.range_eq_range', happend]
      unfold strictRun at hend ⊢
      rw [hsplit, List.foldl_append] at hend
      exact hend
  · intro himages
    have hshows := strictRun_collects hmodel hfits 13 (Nat.le_refl _) himages
    have hend := strictRun_fits hmodel hfits hbase 13 (Nat.le_refl _)
    refine sameMoment_iff.mpr fun f => (dialLaws (rtcMode rtc) f).apart _ _ (hend.inRange f) (hfits f) ?_ ?_
    · have hlt : (rtcMode rtc).lowReg f < 13 := by
        have := (lowReg_apart (rtcMode rtc) f f).2.2
        omega
      rw [(hshows f).1, if_pos hlt]
    · rw [(hshows f).2, if_pos (lowReg_apart (rtcMode rtc) f f).2.2]

/-- While the images are of dates, the strict run passes over nothing. -/
theorem strictRun_dates {cur : Tm} (himages : ∀ k < 13, ImageOfDate (settingImage rtc cur target (k + 1))) {k : Nat}
    (hk : k < 13) : ∃ r, writtenDate rtc target (strictRun rtc cur target k) k = some r ∧ DateExists r := by
  have hbefore : ∀ j < k, ImageOfDate (settingImage rtc cur target (j + 1)) := fun j hj => himages j (by omega)
  have hshows := strictRun_collects hmodel hfits k (by omega) hbefore
  obtain ⟨r, hr, hdate, -⟩ := (imageOfDate_iff hmodel hfits cur hk hshows).mp (himages k hk)
  exact ⟨r, hr, hdate⟩

omit hfits in
theorem shownTime_get (cur : Tm) (f : RtcField) : (shownTime rtc cur).get f =
    (rtcMode rtc).value f ((rtcMode rtc).low f (cur.get f)) ((rtcMode rtc).high f (cur.get f)) := by
  obtain ⟨hmode, hfilled⟩ := rtcMode_filled rtc cur
  have hmodel' : (rtcTimeToRegs rtc cur).model ≠ .none := by
    rw [hfilled]
    exact hmodel
  obtain ⟨r, hr, hget⟩ := rtcRegsToTime_dials hmodel'
  obtain ⟨hlow, hhigh⟩ := rtcTimeToRegs_dials hmodel cur f
  unfold shownTime
  rw [hr, Option.getD_some, hget f, hmode, hlow, hhigh]

omit hfits in
/-- The chip gives back a date of the hundred years for whatever time it shows. -/
theorem shownTime_fits {cur : Tm} (hcur : DateExists cur) :
    Fits (rtcMode rtc) (shownTime rtc cur) ∧ (shownTime rtc cur).sec = cur.sec := by
  have hfield := shownTime_get hmodel cur
  generalize shownTime rtc cur = r at hfield
  have hkept : ∀ f, f ≠ .hour → f ≠ .year → r.get f = cur.get f := fun f hhour hyear =>
    (hfield f).trans (steady_of_inRange _ hhour (hcur.inRange hyear))
  have hhour := shownHour_steady (rtcMode rtc) (hcur.inRange (f := .hour) (by decide))
  rw [← hfield .hour] at hhour
  have hyear : RtcField.year.InRange (r.get .year) := by
    rw [hfield .year]
    exact rtcYear_inRange _ _ _
  have hmod := shownYear_mod (rtcMode rtc) (cur.get .year)
  rw [← hfield .year] at hmod
  have hsec : r.sec = cur.sec := hkept .sec (by decide) (by decide)
  have hmin : r.min = cur.min := hkept .min (by decide) (by decide)
  have hmday : r.mday = cur.mday := hkept .mday (by decide) (by decide)
  have hmon : r.mon = cur.mon := hkept .mon (by decide) (by decide)
  -- the two years have the same place between leap years, so that a day that was there still is
  have hleap : isLeapYear (cur.year + 1900) = true → isLeapYear (r.year + 1900) = true := by
    simp only [RtcField.InRange, Tm.get] at hyear hmod
    unfold isLeapYear
    simp only [Bool.and_eq_true, Bool.or_eq_true, beq_iff_eq, bne_iff_ne]
    omega
  have hdate : DateExists r := by
    refine ⟨hsec ▸ hcur.sec, hmin ▸ hcur.min, hhour.1, hmday ▸ hcur.mday, hmon ▸ hcur.mon, ?_⟩
    have hvalid := hcur.date
    unfold Tm.date Date.Valid at hvalid ⊢
    simp only [hmday, hmon] at hvalid ⊢
    exact Nat.lt_of_lt_of_le hvalid (monthDays_mono hleap _)
  refine ⟨⟨hdate, fun f => ?_, fun f => ?_⟩, hsec⟩
  · by_cases hf : f = .year
    · subst hf
      exact hyear
    · exact hdate.inRange hf
  · by_cases hf : f = .hour
    · subst hf
      exact hhour.2
    · by_cases hfy : f = .year
      · subst hfy
        exact steady_of_inRange _ hf hyear
      · exact steady_of_inRange _ hf (hdate.inRange hfy)

end

/-! ## The chip follows -/

/-- The chip is in the mode of `rtc`, with the clock's bank selected. -/
structure SetsLike (rtc : RigelRtc) (c : RtcClock) : Prop where
  model : c.rtc.model = rtc.model
  mode : rtcMode c.rtc = rtcMode rtc
  bank : rtcBankInternal c.rtc = 0

/-- The chip's time is of the date `t`. -/
def TimeIs (host : RtcHost) (c : RtcClock) (t : Tm) : Prop :=
  ∃ t', host.toCalendar (rtcGetTime host c) = some t' ∧ SameMoment t' t

section
variable {host : RtcHost} (hcal : HostCalendar host) {rtc : RigelRtc} (hmodel : rtc.model ≠ .none) {target : Tm}
  (hfits : ∀ f : RtcField, f.InRange (target.get f))
include hcal hmodel hfits

/-- **One digit on the chip**, from a time whose digits make the same date with it as `t`'s. -/
theorem rtcWriteReg_follows {c : RtcClock} (hc : SetsLike rtc c) {t₀ t r : Tm} {nr : Nat} (hnr : nr < 13)
    (htime : host.toCalendar (rtcGetTime host c) = some t₀) (hr : writtenDate rtc target t nr = some r)
    (hdigits : ∀ f, mixedField (rtcMode rtc) target t₀ nr f = r.get f)
    (hstay : DateExists r ∨ (RejectsDates host ∧ SameMoment t₀ t)) :
    SetsLike rtc (rtcWriteReg host c nr ((rtcTimeToRegs rtc target).reg 0 nr)) ∧
      TimeIs host (rtcWriteReg host c nr ((rtcTimeToRegs rtc target).reg 0 nr)) (strictStep rtc target t nr) := by
  have hnone : c.rtc.model ≠ .none := by
    rw [hc.model]
    exact hmodel
  have hspecial : rtcIsSpecial nr = false := by
    unfold rtcIsSpecial
    simp only [Bool.or_eq_false_iff, beq_eq_false_iff_ne]
    omega
  have hupdate : rtcUpdate host c = { c with rtc := rtcTimeToRegs c.rtc t₀ } := by
    unfold rtcUpdate
    rw [htime]
  have hwrite : rtcWriteReg host c nr ((rtcTimeToRegs rtc target).reg 0 nr) =
      rtcRegsToClock host { c with rtc := withDigit (rtcTimeToRegs c.rtc t₀) (rtcTimeToRegs rtc target) nr } := by
    have hbank : rtcBankInternal (rtcTimeToRegs c.rtc t₀) = 0 := by
      have hkept := rtcUpdate_bank host c
      rw [hupdate] at hkept
      exact hkept.trans hc.bank
    unfold rtcWriteReg
    simp only [if_neg hnone, hspecial, Bool.false_eq_true, if_false, hupdate, hbank, if_true]
    rfl
  obtain ⟨hmodet, hmodelt⟩ := rtcMode_filled c.rtc t₀
  obtain ⟨hmodew, -⟩ := rtcMode_filled rtc target
  obtain ⟨r₁, hr₁, hget₁⟩ := withDigit_get hnone hmodel hc.mode.symm hfits t₀ hnr
  have hsame : SameMoment r₁ r := sameMoment_iff.mpr fun f => by rw [hget₁ f, hc.mode, hdigits f]
  have hyear : RtcField.year.InRange (r₁.get .year) := by
    rw [hget₁ .year, mixedField]
    exact rtcYear_inRange _ _ _
  have hlike : SetsLike rtc (rtcWriteReg host c nr ((rtcTimeToRegs rtc target).reg 0 nr)) := by
    refine ⟨?_, ?_, ?_⟩
    · rw [hwrite, rtcRegsToClock_rtc]
      exact hmodelt.trans hc.model
    · rw [hwrite, rtcRegsToClock_rtc]
      exact (rtcMode_withDigit (hmodew.trans (hc.mode.symm.trans hmodet.symm)) hnr).trans (hmodet.trans hc.mode)
    · have hbank := congrArg Prod.snd (rtcStep_bank c (host, .write nr ((rtcTimeToRegs rtc target).reg 0 nr)))
      have hD : ¬ (c.rtc.model ≠ .none ∧ nr = 0xD) := by omega
      unfold bankStep at hbank
      simp only [if_neg hD] at hbank
      exact hbank.trans hc.bank
  refine ⟨hlike, ?_⟩
  have hnone' : (withDigit (rtcTimeToRegs c.rtc t₀) (rtcTimeToRegs rtc target) nr).model ≠ .none := by
    unfold withDigit
    rw [hmodelt]
    exact hnone
  unfold TimeIs
  rw [hwrite, strictStep_some hr]
  unfold rtcRegsToClock
  simp only [hr₁]
  by_cases hdate : DateExists r
  · obtain ⟨v, t', hv, ht', hback⟩ := hcal.back r₁ (hdate.congr hsame) hyear.1 hyear.2
    rw [if_pos hdate, hv]
    refine ⟨t', ?_, hback.trans hsame⟩
    unfold rtcSetTime rtcGetTime
    simp only [if_neg hnone']
    rw [← ht']
    congr 1
    omega
  · obtain hexists | ⟨hrejects, hkept⟩ := hstay
    · exact absurd hexists hdate
    · rw [if_neg hdate, hrejects r₁ fun h => hdate (h.congr hsame.symm)]
      refine ⟨t₀, ?_, hkept⟩
      rw [← htime]
      unfold rtcGetTime
      simp only [if_neg hnone', if_neg hnone]

/-- **The chip follows the strict run**, with any host while the images are of dates, and with a host that rejects the others
in any case. -/
theorem rtcSetDigits_follows {c : RtcClock} (hc : SetsLike rtc c) {cur : Tm}
    (htime : host.toCalendar (rtcGetTime host c) = some cur)
    (hhost : RejectsDates host ∨ ∀ k < 13, ImageOfDate (settingImage rtc cur target (k + 1))) : ∀ k < 13,
    let c' := (List.range (k + 1)).foldl (fun c' nr => rtcWriteReg host c' nr ((rtcTimeToRegs rtc target).reg 0 nr)) c
    SetsLike rtc c' ∧ TimeIs host c' (strictRun rtc cur target (k + 1))
  | 0, hk => by
    -- the current time need not be one that the chip gives back, but its seconds are
    have hcur := hcal.dates _ _ htime
    obtain ⟨hbase, hsec⟩ := shownTime_fits hmodel hcur
    obtain ⟨r, hr, hget⟩ := writtenDate_get hmodel hfits (shownTime rtc cur) hk
    have hfirst : ∀ f : RtcField, f ≠ .sec → (rtcMode rtc).lowReg f ≠ 0 := fun f hf h0 =>
      hf ((lowReg_apart (rtcMode rtc) f .sec).1 h0)
    have hdigits : ∀ f, mixedField (rtcMode rtc) target cur 0 f = r.get f := by
      intro f
      rw [hget f]
      by_cases hf : f = .sec
      · subst hf
        have hsec' : cur.get .sec = (shownTime rtc cur).get .sec := hsec.symm
        rw [mixedField, mixedField, hsec']
      · rw [mixedField, mixedField, if_neg (hfirst f hf), if_neg (Nat.succ_ne_zero _), if_neg (hfirst f hf),
          if_neg (Nat.succ_ne_zero _), ← shownTime_get hmodel]
        exact (hbase.steady f).symm
    have hdate : DateExists r := by
      have hsecr : r.sec = target.sec % 10 + 10 * ((shownTime rtc cur).sec / 10) := by
        have htsec : 0 ≤ target.sec ∧ target.sec < 60 := hfits .sec
        have hbsec : 0 ≤ (shownTime rtc cur).sec ∧ (shownTime rtc cur).sec < 60 := hbase.inRange .sec
        exact (hget .sec).trans (rtcFromBcd_mixed (v := target.sec) (w := (shownTime rtc cur).sec) (by omega) (by omega))
      have hbsec : 0 ≤ (shownTime rtc cur).sec ∧ (shownTime rtc cur).sec < 60 := hbase.inRange .sec
      have hbdate := hbase.date
      have hmade : DateExists { shownTime rtc cur with sec := r.sec } :=
        ⟨by simp only; omega, hbdate.min, hbdate.hour, hbdate.mday, hbdate.mon, hbdate.date⟩
      refine hmade.congr (sameMoment_iff.mpr fun f => ?_)
      by_cases hf : f = .sec
      · subst hf
        rfl
      · rw [writtenDate_other hmodel hfits hbase hk hr (hfirst f hf) (Nat.succ_ne_zero _)]
        cases f with
        | sec => exact absurd rfl hf
        | min | hour | mday | mon | year => rfl
    rw [strictRun_succ]
    exact rtcWriteReg_follows hcal hmodel hfits hc hk htime hr hdigits (Or.inl hdate)
  | k + 1, hk => by
    obtain ⟨hlike, t', ht', hsame⟩ := rtcSetDigits_follows hc htime hhost k (Nat.lt_of_succ_lt hk)
    have hstep : ∃ r, writtenDate rtc target (strictRun rtc cur target (k + 1)) (k + 1) = some r ∧
        (DateExists r ∨ (RejectsDates host ∧ SameMoment t' (strictRun rtc cur target (k + 1)))) := by
      obtain hrejects | himages := hhost
      · obtain ⟨r, hr, -⟩ := writtenDate_get hmodel hfits (strictRun rtc cur target (k + 1)) hk
        exact ⟨r, hr, Or.inr ⟨hrejects, hsame⟩⟩
      · obtain ⟨r, hr, hdate⟩ := strictRun_dates hmodel hfits himages hk
        exact ⟨r, hr, Or.inl hdate⟩
    obtain ⟨r, hr, hstay⟩ := hstep
    obtain ⟨r', hr', hget⟩ := writtenDate_get hmodel hfits (strictRun rtc cur target (k + 1)) hk
    cases hr.symm.trans hr'
    rw [strictRun_succ, List.range_succ, List.foldl_append]
    refine rtcWriteReg_follows hcal hmodel hfits hlike hk ht' hr (fun f => ?_) hstay
    rw [hget f, mixedField, mixedField, sameMoment_iff.mp hsame f]

end

/-- **When setting the clock digit by digit works.** With every host that has the calendar, whether it rejects or normalises
the dates that do not exist, the clock is at the target in the end exactly if every image on the way, the target's digits in
the registers up to one and the current time's in the others, is of a date that exists, as the chip shows it. -/
theorem rtcSetDigits_iff {host : RtcHost} (hcal : HostCalendar host) {c : RtcClock} (hmodel : c.rtc.model ≠ .none)
    (hbank : rtcBankInternal c.rtc = 0) {cur : Tm} (hcur : host.toCalendar (rtcGetTime host c) = some cur) {value : Int}
    {target : Tm} (htarget : host.toCalendar value = some target) (h70 : 70 ≤ target.year) (h170 : target.year < 170) :
    (∀ host', SameCalendar host host' → RejectsDates host' ∨ NormalisesDates host' →
        rtcGetTime host' (rtcSetDigits host' c target) = value) ↔
      ∀ k < 13, ImageOfDate (settingImage c.rtc cur target (k + 1)) := by
  have hdate := hcal.dates _ _ htarget
  have hfits : ∀ f : RtcField, f.InRange (target.get f) := by
    intro f
    by_cases hf : f = .year
    · subst hf
      exact ⟨h70, h170⟩
    · exact hdate.inRange hf
  obtain ⟨hbase, -⟩ := shownTime_fits hmodel (hcal.dates _ _ hcur)
  have hlike : SetsLike c.rtc c := ⟨rfl, rfl, hbank⟩
  have hcal' : ∀ host', SameCalendar host host' → HostCalendar host' ∧
      host'.toCalendar (rtcGetTime host' c) = some cur ∧ host'.toCalendar value = some target := by
    intro host' hsame
    have htime : rtcGetTime host' c = rtcGetTime host c := by
      unfold rtcGetTime
      rw [hsame.now]
    refine ⟨⟨?_, fun t ht h h' => ?_, ?_⟩, ?_, ?_⟩
    · rw [hsame.toCalendar]
      exact hcal.dates
    · rw [hsame.toCalendar, hsame.fromCalendar t ht]
      exact hcal.back t ht h h'
    · rw [hsame.toCalendar]
      exact hcal.once
    · rw [hsame.toCalendar, htime]
      exact hcur
    · rw [hsame.toCalendar]
      exact htarget
  -- the clock is at the target if its date is the target's
  have hends : ∀ host', SameCalendar host host' →
      (RejectsDates host' ∨ ∀ k < 13, ImageOfDate (settingImage c.rtc cur target (k + 1))) →
      (rtcGetTime host' (rtcSetDigits host' c target) = value ↔
        ∀ k < 13, ImageOfDate (settingImage c.rtc cur target (k + 1))) := by
    intro host' hsame hhost
    obtain ⟨hlaws, hcur', htarget'⟩ := hcal' host' hsame
    obtain ⟨-, t', ht', hrun⟩ := rtcSetDigits_follows hlaws hmodel hfits hlike hcur' hhost 12 (by decide)
    rw [← strictRun_iff hmodel hfits hbase]
    constructor
    · intro hend
      have hsame' : some t' = some target := by
        rw [← ht', ← htarget', ← hend]
        rfl
      cases hsame'
      exact hrun.symm
    · intro hend
      exact hlaws.once _ _ _ _ ht' htarget' (hrun.trans hend)
  constructor
  · intro hall
    have hstrict : SameCalendar host
        { host with fromCalendar := fun t => if DateExists t then host.fromCalendar t else none } :=
      ⟨rfl, rfl, fun t ht => if_pos ht⟩
    have hrejects : RejectsDates { host with fromCalendar := fun t => if DateExists t then host.fromCalendar t else none } :=
      fun t ht => if_neg ht
    exact (hends _ hstrict (Or.inl hrejects)).mp (hall _ hstrict (Or.inl hrejects))
  · intro himages host' hsame _
    exact (hends host' hsame (Or.inr himages)).mpr himages

end Rigel
