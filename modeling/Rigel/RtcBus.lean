import Rigel.Rtc
import Rigel.Run

/-!
# RtcBus — the clock chip on the bus

The chip keeps no time of its own: it has an offset to the host's clock, and its registers are filled from the host's
calendar before every access. Register D selects the bank that an access goes to. That is so on the Ricoh chip; the OKI chip
has no banks, and what is read from it is the time only while the two bits happen to be clear, which at power-on they are
not.
-/

namespace Rigel

/-! ## The host and the chip -/

/-- The host's clock and its calendar, either of which may have no answer. -/
structure RtcHost where
  now : Int
  toCalendar : Int → Option Tm
  fromCalendar : Tm → Option Int

structure RtcClock where
  rtc : RigelRtc
  timeOffset : Int

def rtcGetTime (host : RtcHost) (c : RtcClock) : Int :=
  if c.rtc.model = .none then host.now else host.now + c.timeOffset

def rtcSetTime (host : RtcHost) (c : RtcClock) (t : Int) : RtcClock := { c with timeOffset := t - host.now }

/-- `rtc_update`: the registers from the host's calendar. -/
def rtcUpdate (host : RtcHost) (c : RtcClock) : RtcClock :=
  match host.toCalendar (rtcGetTime host c) with
  | none => c
  | some t => { c with rtc := rtcTimeToRegs c.rtc t }

/-- The host's clock from the registers. A time that the host rejects leaves it as it was. -/
def rtcRegsToClock (host : RtcHost) (c : RtcClock) : RtcClock :=
  match rtcRegsToTime c.rtc with
  | none => c
  | some t =>
    match host.fromCalendar t with
    | none => c
    | some value => rtcSetTime host c value

def rtcBankInternal (rtc : RigelRtc) : Nat := (rtc.reg 0 0xD &&& 0x03).toNat

/-- The registers D, E and F, which are in all banks. -/
def rtcIsSpecial (nr : Nat) : Bool := nr == 0xD || nr == 0xE || nr == 0xF

def rtcReadReg (host : RtcHost) (c : RtcClock) (nr : Nat) : UInt8 × RtcClock :=
  if c.rtc.model = .none then (0x0, c)
  else
    let c := rtcUpdate host c
    if rtcIsSpecial nr then (rtcNibble (c.rtc.reg 0 nr), c)
    else (rtcNibble (c.rtc.reg (rtcBankInternal c.rtc) nr), c)

def RtcClock.put (c : RtcClock) (bank nr : Nat) (v : UInt8) : RtcClock :=
  { c with rtc := { c.rtc with reg := rtcPut c.rtc.reg bank nr v } }

/-- `rtc_write_reg`: only bank 0 is the clock. -/
def rtcWriteReg (host : RtcHost) (c : RtcClock) (nr : Nat) (value : UInt8) : RtcClock :=
  if c.rtc.model = .none then c
  else if rtcIsSpecial nr then c.put 0 nr (rtcNibble value)
  else
    let c := rtcUpdate host c
    let bank := rtcBankInternal c.rtc
    let c := c.put bank nr (rtcNibble value)
    if bank = 0 then rtcRegsToClock host c else c

/-! ## Power-on -/

def rtcModelDefaults : RtcModel → RtcRegs
  | .none => fun _ _ => 0
  | .oki => rtcPut (rtcPut (rtcPut (fun _ _ => 0) 0 0xD 0x1) 0 0xE 0x0) 0 0xF 0x4
  | .ricoh => rtcPut (rtcPut (rtcPut (fun _ _ => 0) 0 0xD 0x8) 0 0xE 0x0) 0 0xF 0x0

def rtcInit (host : RtcHost) (model : RtcModel) : RtcClock :=
  rtcUpdate host ⟨⟨model, rtcModelDefaults model⟩, 0⟩

def rtcReset (host : RtcHost) (c : RtcClock) : RtcClock :=
  rtcUpdate host ⟨⟨c.rtc.model, rtcModelDefaults c.rtc.model⟩, c.timeOffset⟩

def rtcSetModel (host : RtcHost) (c : RtcClock) (model : RtcModel) : RtcClock :=
  rtcUpdate host { c with rtc := ⟨model, rtcModelDefaults model⟩ }

/-! ## Runs -/

/-- What reaches the chip. -/
inductive RtcOp where
  | read (nr : Nat)
  | write (nr : Nat) (value : UInt8)
  | setTime (t : Int)
  | update
  | reset
  | setModel (model : RtcModel)

/-- One access, and the host as it is at the time. -/
def rtcStep (c : RtcClock) (e : RtcHost × RtcOp) : RtcClock :=
  match e.2 with
  | .read nr => (rtcReadReg e.1 c nr).2
  | .write nr value => rtcWriteReg e.1 c nr value
  | .setTime t => rtcSetTime e.1 c t
  | .update => rtcUpdate e.1 c
  | .reset => rtcReset e.1 c
  | .setModel model => rtcSetModel e.1 c model

def rtcRun (model : RtcModel) (host : RtcHost) (run : List (RtcHost × RtcOp)) : RtcClock :=
  run.foldl rtcStep (rtcInit host model)

/-- The model and the two bits of register D, as the accesses alone have them. -/
def bankStep (s : RtcModel × Nat) (e : RtcHost × RtcOp) : RtcModel × Nat :=
  let defaultBank (model : RtcModel) : Nat := if model = .oki then 1 else 0
  match e.2 with
  | .write nr value => (s.1, if s.1 ≠ .none ∧ nr = 0xD then (value &&& 0x03).toNat else s.2)
  | .reset => (s.1, defaultBank s.1)
  | .setModel model => (model, defaultBank model)
  | _ => s

/-- The bank that a run leaves selected. The OKI chip begins with bank 1. -/
def selectedBank (model : RtcModel) (run : List (RtcHost × RtcOp)) : RtcModel × Nat :=
  run.foldl bankStep (model, if model = .oki then 1 else 0)

/-! ## What is left alone -/

theorem rtcUpdate_model (host : RtcHost) (c : RtcClock) : (rtcUpdate host c).rtc.model = c.rtc.model := by
  obtain ⟨⟨model, reg⟩, offset⟩ := c
  unfold rtcUpdate
  split
  · rfl
  · cases model <;> rfl

/-- Filling the registers leaves D, E and F. -/
theorem rtcTimeToRegs_special (rtc : RigelRtc) (t : Tm) {nr : Nat} (h : rtcIsSpecial nr = true) :
    (rtcTimeToRegs rtc t).reg 0 nr = rtc.reg 0 nr := by
  have hnr : nr = 0xD ∨ nr = 0xE ∨ nr = 0xF := by
    simpa [rtcIsSpecial, or_assoc] using h
  obtain ⟨model, reg⟩ := rtc
  cases model with
  | none => rfl
  | oki => rcases hnr with rfl | rfl | rfl <;> rfl
  | ricoh => rcases hnr with rfl | rfl | rfl <;> rfl

theorem rtcUpdate_special (host : RtcHost) (c : RtcClock) {nr : Nat} (h : rtcIsSpecial nr = true) :
    (rtcUpdate host c).rtc.reg 0 nr = c.rtc.reg 0 nr := by
  unfold rtcUpdate
  split
  · rfl
  · exact rtcTimeToRegs_special c.rtc _ h

theorem rtcUpdate_bank (host : RtcHost) (c : RtcClock) : rtcBankInternal (rtcUpdate host c).rtc = rtcBankInternal c.rtc := by
  unfold rtcBankInternal
  rw [rtcUpdate_special host c rfl]

theorem rtcRegsToClock_rtc (host : RtcHost) (c : RtcClock) : (rtcRegsToClock host c).rtc = c.rtc := by
  unfold rtcRegsToClock rtcSetTime
  split
  · rfl
  · split <;> rfl

theorem rtcDefaults_bank (model : RtcModel) (host : RtcHost) (offset : Int) :
    rtcBankInternal (rtcUpdate host ⟨⟨model, rtcModelDefaults model⟩, offset⟩).rtc = if model = .oki then 1 else 0 := by
  rw [rtcUpdate_bank]
  have hdefaults : ∀ model, (rtcModelDefaults model 0 0xD &&& 0x03).toNat = if model = .oki then 1 else 0
    | .none => rfl
    | .oki => rfl
    | .ricoh => rfl
  exact hdefaults model

theorem rtcNibble_bank (v : UInt8) : (rtcNibble v &&& 0x03).toNat = (v &&& 0x03).toNat :=
  uint8_forall (P := fun v => (rtcNibble v &&& 0x03).toNat = (v &&& 0x03).toNat) (by decide +kernel) v

/-- **An access changes the model and the bank as `bankStep` has it.** -/
theorem rtcStep_bank (c : RtcClock) (e : RtcHost × RtcOp) :
    ((rtcStep c e).rtc.model, rtcBankInternal (rtcStep c e).rtc) =
      bankStep (c.rtc.model, rtcBankInternal c.rtc) e := by
  obtain ⟨host, op⟩ := e
  cases op with
  | read nr =>
    unfold rtcStep bankStep rtcReadReg
    simp only
    split
    · rfl
    · split <;> rw [rtcUpdate_model, rtcUpdate_bank]
  | write nr value =>
    unfold rtcStep bankStep rtcWriteReg
    simp only
    by_cases hnone : c.rtc.model = .none
    · simp [hnone]
    · rw [if_neg hnone]
      by_cases hD : nr = 0xD
      · subst hD
        simp only [hnone, ne_eq, not_false_eq_true, true_and, if_true]
        exact Prod.ext rfl (rtcNibble_bank value)
      · have hkeep : ¬ (c.rtc.model ≠ .none ∧ nr = 0xD) := fun h => hD h.2
        rw [if_neg hkeep]
        split
        · refine Prod.ext rfl ?_
          unfold RtcClock.put rtcBankInternal
          simp only [rtcPut_get]
          rw [if_neg fun h => hD h.2.symm]
        · have hput : ∀ b v, rtcBankInternal ((rtcUpdate host c).put b nr v).rtc = rtcBankInternal c.rtc := by
            intro b v
            rw [← rtcUpdate_bank host c]
            unfold RtcClock.put rtcBankInternal
            simp only [rtcPut_get]
            rw [if_neg fun h => hD h.2.symm]
          split
          · rw [rtcRegsToClock_rtc, hput]
            exact Prod.ext (rtcUpdate_model host c) rfl
          · rw [hput]
            exact Prod.ext (rtcUpdate_model host c) rfl
  | setTime t => rfl
  | update => exact Prod.ext (rtcUpdate_model host c) (rtcUpdate_bank host c)
  | reset => exact Prod.ext (rtcUpdate_model host _) (rtcDefaults_bank c.rtc.model host c.timeOffset)
  | setModel model => exact Prod.ext (rtcUpdate_model host _) (rtcDefaults_bank model host c.timeOffset)

theorem rtcRun_bank (model : RtcModel) (host : RtcHost) (run : List (RtcHost × RtcOp)) :
    ((rtcRun model host run).rtc.model, rtcBankInternal (rtcRun model host run).rtc) = selectedBank model run := by
  unfold rtcRun selectedBank
  have hinit : ((rtcInit host model).rtc.model, rtcBankInternal (rtcInit host model).rtc) =
      (model, if model = .oki then 1 else 0) := Prod.ext (rtcUpdate_model host _) (rtcDefaults_bank model host 0)
  rw [← hinit]
  generalize rtcInit host model = c
  induction run generalizing c with
  | nil => rfl
  | cons e run ih =>
    rw [List.foldl_cons, List.foldl_cons, ih, rtcStep_bank]

/-! ## What the OKI chip reads -/

/-- The hour as a clock of 24 or of 12 hours shows it. -/
def clockHour (is24h : Bool) (hour : Int) : Int := if is24h then hour else (hour + 11) % 12 + 1

/-- The digit that belongs into register `nr` of the OKI chip, with the afternoon flag at the tens of the hour. -/
def okiDigit (is24h : Bool) (t : Tm) : Nat → Int
  | 0x0 => t.sec % 10
  | 0x1 => t.sec / 10
  | 0x2 => t.min % 10
  | 0x3 => t.min / 10
  | 0x4 => clockHour is24h t.hour % 10
  | 0x5 => clockHour is24h t.hour / 10 + if is24h = false ∧ 12 ≤ t.hour then 4 else 0
  | 0x6 => t.mday % 10
  | 0x7 => t.mday / 10
  | 0x8 => (t.mon + 1) % 10
  | 0x9 => (t.mon + 1) / 10
  | 0xA => (t.year + 1900) % 10
  | 0xB => (t.year + 1900) / 10 % 10
  | _ => t.wday

/-- A calendar time of any year. -/
structure TmInRange (t : Tm) : Prop where
  sec : 0 ≤ t.sec ∧ t.sec ≤ 60
  min : 0 ≤ t.min ∧ t.min ≤ 59
  hour : 0 ≤ t.hour ∧ t.hour ≤ 23
  mday : 1 ≤ t.mday ∧ t.mday ≤ 31
  mon : 0 ≤ t.mon ∧ t.mon ≤ 11
  wday : 0 ≤ t.wday ∧ t.wday ≤ 6

/-- The registers 0 to 12 read as the digits of `t`. -/
def OkiReads (host : RtcHost) (c : RtcClock) (t : Tm) : Prop :=
  ∀ nr < 13, ((rtcReadReg host c nr).1.toNat : Int) = okiDigit (rtcIs24hOki c.rtc) t nr

theorem rtcBcd_digits {v : Int} (h0 : 0 ≤ v) (hv : v < 100) :
    ((rtcNibble (rtcBcdLo v)).toNat : Int) = v % 10 ∧ ((rtcNibble (rtcBcdHi v)).toNat : Int) = v / 10 :=
  int_forall_lt (P := fun v => ((rtcNibble (rtcBcdLo v)).toNat : Int) = v % 10 ∧
    ((rtcNibble (rtcBcdHi v)).toNat : Int) = v / 10) 100 (by decide +kernel) h0 hv

theorem rtcHour_digits (is24h : Bool) {hour : Int} (h0 : 0 ≤ hour) (hhour : hour < 24) :
    ((rtcNibble (rtcHourToRegs 0x4 is24h hour).1).toNat : Int) = clockHour is24h hour % 10 ∧
      ((rtcNibble (rtcHourToRegs 0x4 is24h hour).2).toNat : Int) =
        clockHour is24h hour / 10 + if is24h = false ∧ 12 ≤ hour then 4 else 0 :=
  int_forall_lt (P := fun hour => ((rtcNibble (rtcHourToRegs 0x4 is24h hour).1).toNat : Int) = clockHour is24h hour % 10 ∧
      ((rtcNibble (rtcHourToRegs 0x4 is24h hour).2).toNat : Int) =
        clockHour is24h hour / 10 + if is24h = false ∧ 12 ≤ hour then 4 else 0) 24
    (by cases is24h <;> decide +kernel) h0 hhour

/-- C's remainder of a year before 1900 is negative, and its digits are not those of the year. -/
theorem rtcYear_digits (year : Int) :
    (((rtcNibble (rtcBcdLo (year.tmod 100))).toNat : Int) = (year + 1900) % 10 ∧
      ((rtcNibble (rtcBcdHi (year.tmod 100))).toNat : Int) = (year + 1900) / 10 % 10) ↔ 0 ≤ year ∨ year % 100 = 0 := by
  by_cases h0 : 0 ≤ year
  · have hmod : year.tmod 100 = year % 100 := Int.tmod_eq_emod_of_nonneg h0
    obtain ⟨hlo, hhi⟩ := rtcBcd_digits (v := year % 100) (by omega) (by omega)
    rw [hmod, hlo, hhi]
    omega
  · have hback : ∀ n < 100, ((((rtcNibble (rtcBcdLo (-(n : Nat)))).toNat : Int) = (-(n : Nat)) % 10 ∧
        ((rtcNibble (rtcBcdHi (-(n : Nat)))).toNat : Int) = (-(n : Nat)) / 10 % 10) ↔ n = 0) := by decide +kernel
    obtain ⟨n, hn⟩ : ∃ n : Nat, year = -(n : Int) := ⟨year.natAbs, by omega⟩
    have hmod : year.tmod 100 = -((n % 100 : Nat) : Int) := by
      rw [hn, Int.neg_tmod]
      rfl
    have hlo : (year + 1900) % 10 = -((n % 100 : Nat) : Int) % 10 := by omega
    have hhi : (year + 1900) / 10 % 10 = -((n % 100 : Nat) : Int) / 10 % 10 := by omega
    rw [hmod, hlo, hhi, hback (n % 100) (Nat.mod_lt _ (by decide))]
    omega

theorem rtcWday_digit {wday : Int} (h0 : 0 ≤ wday) (hwday : wday < 7) :
    ((rtcNibble (UInt8.ofInt wday &&& 0x0F)).toNat : Int) = wday :=
  int_forall_lt (P := fun wday => ((rtcNibble (UInt8.ofInt wday &&& 0x0F)).toNat : Int) = wday) 7 (by decide +kernel) h0 hwday

/-- What bank 0 holds once the registers are filled. -/
theorem okiReads_bank0 (rtc : RigelRtc) {t : Tm} (h : TmInRange t) :
    (∀ nr < 13, ((rtcNibble ((rtcTimeToRegsOki rtc t).reg 0 nr)).toNat : Int) = okiDigit (rtcIs24hOki rtc) t nr) ↔
      0 ≤ t.year ∨ t.year % 100 = 0 := by
  rw [← rtcYear_digits]
  constructor
  · intro hall
    exact ⟨hall 0xA (by decide), hall 0xB (by decide)⟩
  · rintro ⟨hyearLo, hyearHi⟩
    obtain ⟨hsecLo, hsecHi⟩ := rtcBcd_digits h.sec.1 (by have := h.sec.2; omega)
    obtain ⟨hminLo, hminHi⟩ := rtcBcd_digits h.min.1 (by have := h.min.2; omega)
    obtain ⟨hhourLo, hhourHi⟩ := rtcHour_digits (rtcIs24hOki rtc) h.hour.1 (by have := h.hour.2; omega)
    obtain ⟨hdayLo, hdayHi⟩ := rtcBcd_digits (v := t.mday) (by have := h.mday.1; omega) (by have := h.mday.2; omega)
    obtain ⟨hmonLo, hmonHi⟩ := rtcBcd_digits (v := t.mon + 1) (by have := h.mon.1; omega) (by have := h.mon.2; omega)
    have hwday := rtcWday_digit h.wday.1 (by have := h.wday.2; omega)
    intro nr hnr
    match nr, hnr with
    | 0x0, _ => exact hsecLo
    | 0x1, _ => exact hsecHi
    | 0x2, _ => exact hminLo
    | 0x3, _ => exact hminHi
    | 0x4, _ => exact hhourLo
    | 0x5, _ => exact hhourHi
    | 0x6, _ => exact hdayLo
    | 0x7, _ => exact hdayHi
    | 0x8, _ => exact hmonLo
    | 0x9, _ => exact hmonHi
    | 0xA, _ => exact hyearLo
    | 0xB, _ => exact hyearHi
    | 0xC, _ => exact hwday

theorem rtcTimeToRegsOki_banks (rtc : RigelRtc) (t : Tm) {bank : Nat} (h : bank ≠ 0) (nr : Nat) :
    (rtcTimeToRegsOki rtc t).reg bank nr = rtc.reg bank nr := by
  unfold rtcTimeToRegsOki rtcPutClock
  simp only [rtcPut_get, h, false_and, if_false]

/-- **What the OKI chip reads after a run.** The registers are the digits of the time exactly if register D's two bits are
clear and the year is not before 1900, centuries apart, or else the bank that the two bits select holds these digits by
chance. At power-on they select bank 1. -/
theorem okiReads_iff (start : RtcModel) (host₀ : RtcHost) (run : List (RtcHost × RtcOp)) (host : RtcHost) {t : Tm}
    (hmodel : (selectedBank start run).1 = .oki)
    (ht : host.toCalendar (rtcGetTime host (rtcRun start host₀ run)) = some t) (hrange : TmInRange t) :
    OkiReads host (rtcRun start host₀ run) t ↔
      ((selectedBank start run).2 = 0 ∧ (0 ≤ t.year ∨ t.year % 100 = 0)) ∨
        ((selectedBank start run).2 ≠ 0 ∧ ∀ nr < 13,
          ((rtcNibble ((rtcRun start host₀ run).rtc.reg (selectedBank start run).2 nr)).toNat : Int) =
            okiDigit (rtcIs24hOki (rtcRun start host₀ run).rtc) t nr) := by
  have hbank := rtcRun_bank start host₀ run
  rw [← hbank] at hmodel ⊢
  generalize rtcRun start host₀ run = c at ht hmodel
  have hoki : c.rtc.model = .oki := hmodel
  have hread : ∀ nr < 13, (rtcReadReg host c nr).1 =
      rtcNibble ((rtcTimeToRegsOki c.rtc t).reg (rtcBankInternal c.rtc) nr) := by
    intro nr hnr
    have hspecial : rtcIsSpecial nr = false := by
      unfold rtcIsSpecial
      simp only [Bool.or_eq_false_iff, beq_eq_false_iff_ne]
      omega
    have hnone : ¬ c.rtc.model = .none := fun h => RtcModel.noConfusion (hoki.symm.trans h)
    have hregs : rtcTimeToRegs c.rtc t = rtcTimeToRegsOki c.rtc t := by
      unfold rtcTimeToRegs
      rw [hoki]
    unfold rtcReadReg
    rw [if_neg hnone, hspecial, if_neg Bool.false_ne_true, rtcUpdate_bank]
    unfold rtcUpdate
    rw [ht, ← hregs]
  have hreads : OkiReads host c t ↔ ∀ nr < 13,
      ((rtcNibble ((rtcTimeToRegsOki c.rtc t).reg (rtcBankInternal c.rtc) nr)).toNat : Int) =
        okiDigit (rtcIs24hOki c.rtc) t nr :=
    forall₂_congr fun nr hnr => by rw [hread nr hnr]
  rw [hreads]
  by_cases h0 : rtcBankInternal c.rtc = 0
  · rw [h0, okiReads_bank0 c.rtc hrange]
    simp
  · simp only [h0, rtcTimeToRegsOki_banks c.rtc t h0, false_and, false_or, ne_eq, not_false_eq_true, true_and]

/-- A host at a time that its calendar knows, and no other. -/
def fixedHost (now : Int) (t : Tm) : RtcHost where
  now := now
  toCalendar := fun v => if v = now then some t else none
  fromCalendar := fun _ => none

/-- With register D cleared the chip reads the time. -/
theorem okiReads_cleared :
    OkiReads (fixedHost 694296000 eightPm)
      (rtcRun .oki (fixedHost 694296000 eightPm) [(fixedHost 694296000 eightPm, .write 0xD 0)]) eightPm :=
  (okiReads_iff .oki _ [(_, .write 0xD 0)] _ (by decide) rfl
    ⟨by decide, by decide, by decide, by decide, by decide, by decide⟩).mpr (Or.inl ⟨by decide, by decide⟩)

/-- At power-on it does not. -/
theorem okiReads_powerOn :
    ¬ OkiReads (fixedHost 694296000 eightPm) (rtcRun .oki (fixedHost 694296000 eightPm) []) eightPm := fun h =>
  absurd (h 0x6 (by decide)) (by decide)

end Rigel
