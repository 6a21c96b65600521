import Mathlib.Algebra.Ring.Nat

/-!
# Gregorian — days and dates

Days are counted from the first of January of the year 0 and dates are of the Gregorian calendar, carried back to all years.
A year is a block of days in the cycle of 400 years, and a month one in its year; a date is found by locating the day in the
blocks one after another.
-/

namespace Rigel

/-! ## Consecutive blocks -/

/-- The block that position `d` is in, and the place there. -/
def locate : List Nat → Nat → Option (Nat × Nat)
  | [], _ => none
  | n :: ns, d => if d < n then some (0, d) else (locate ns (d - n)).map fun p => (p.1 + 1, p.2)

theorem locate_isSome : ∀ {ns : List Nat} {d : Nat}, d < ns.sum → ∃ p, locate ns d = some p
  | [], _, h => absurd h (Nat.not_lt_zero _)
  | n :: ns, d, h => by
    unfold locate
    split
    · exact ⟨_, rfl⟩
    · rename_i hle
      rw [List.sum_cons] at h
      have hrest : d - n < ns.sum := by omega
      obtain ⟨p, hp⟩ := locate_isSome hrest
      rw [hp]
      exact ⟨_, rfl⟩

/-- **A position is located** exactly in the block that begins at the sum of those before it. -/
theorem locate_iff : ∀ {ns : List Nat} {d i r : Nat},
    locate ns d = some (i, r) ↔ ∃ n, ns[i]? = some n ∧ r < n ∧ d = (ns.take i).sum + r
  | [], d, i, r => by simp [locate]
  | n :: ns, d, i, r => by
    unfold locate
    by_cases hd : d < n
    · rw [if_pos hd]
      constructor
      · intro h
        cases h
        exact ⟨n, rfl, hd, by simp⟩
      · rintro ⟨n', hn', hr, hsum⟩
        cases i with
        | zero => simpa using hsum
        | succ i =>
          rw [List.take_succ_cons, List.sum_cons] at hsum
          omega
    · rw [if_neg hd]
      constructor
      · intro h
        obtain ⟨⟨i', r'⟩, hrest, heq⟩ := Option.map_eq_some_iff.mp h
        cases heq
        obtain ⟨n', hn', hr, hsum⟩ := locate_iff.mp hrest
        refine ⟨n', hn', hr, ?_⟩
        rw [List.take_succ_cons, List.sum_cons, Nat.add_assoc, ← hsum]
        omega
      · rintro ⟨n', hn', hr, hsum⟩
        cases i with
        | zero =>
          cases hn'
          simp only [List.take_zero, List.sum_nil, Nat.zero_add] at hsum
          omega
        | succ i =>
          rw [List.take_succ_cons, List.sum_cons] at hsum
          have hrest : locate ns (d - n) = some (i, r) := locate_iff.mpr ⟨n', hn', hr, by omega⟩
          rw [hrest]
          rfl

theorem locate_inside {ns : List Nat} {d : Nat} (h : d < ns.sum) :
    ∃ i r n, locate ns d = some (i, r) ∧ ns[i]? = some n ∧ r < n ∧ d = (ns.take i).sum + r := by
  obtain ⟨⟨i, r⟩, hp⟩ := locate_isSome h
  obtain ⟨n, hn, hr, hd⟩ := locate_iff.mp hp
  exact ⟨i, r, n, hp, hn, hr, hd⟩

theorem take_sum_add_lt : ∀ {ns : List Nat} {i n r : Nat}, ns[i]? = some n → r < n → (ns.take i).sum + r < ns.sum
  | [], _, _, _, h, _ => by simp at h
  | m :: ns, i, n, r, h, hr => by
    cases i with
    | zero =>
      cases h
      rw [List.take_zero, List.sum_nil, List.sum_cons]
      omega
    | succ i =>
      rw [List.getElem?_cons_succ] at h
      have ih := take_sum_add_lt h hr
      rw [List.take_succ_cons, List.sum_cons, List.sum_cons]
      omega

/-! ## The calendar -/

def isLeapYear (year : Int) : Bool := year % 4 == 0 && (year % 100 != 0 || year % 400 == 0)

def monthLengths (leap : Bool) : List Nat := [31, if leap then 29 else 28, 31, 30, 31, 30, 31, 31, 30, 31, 30, 31]

def yearLength (leap : Bool) : Nat := if leap then 366 else 365

/-- The years of the cycle. -/
def cycleLengths : List Nat := (List.range 400).map fun year : Nat => yearLength (isLeapYear year)

/-- A date, month and day from 0. -/
structure Date where
  year : Int
  month : Nat
  day : Nat
  deriving DecidableEq

/-- The days of a month, none in a month that does not exist. -/
def monthDays (year : Int) (month : Nat) : Nat := ((monthLengths (isLeapYear year))[month]?).getD 0

/-- A month of a leap year has no fewer days. -/
theorem monthDays_mono {year year' : Int} (h : isLeapYear year = true → isLeapYear year' = true) (month : Nat) :
    monthDays year month ≤ monthDays year' month := by
  have hall : ∀ month, ((monthLengths false)[month]?).getD 0 ≤ ((monthLengths true)[month]?).getD 0
    | 0 | 1 | 2 | 3 | 4 | 5 | 6 | 7 | 8 | 9 | 10 | 11 => by decide
    | _ + 12 => Nat.zero_le _
  unfold monthDays
  cases hyear : isLeapYear year with
  | true => exact Nat.le_of_eq (congrArg (fun leap => ((monthLengths leap)[month]?).getD 0) (h hyear).symm)
  | false =>
    cases isLeapYear year' with
    | true => exact hall month
    | false => exact Nat.le_refl _

/-- The date exists. -/
def Date.Valid (date : Date) : Prop := date.day < monthDays date.year date.month

instance (date : Date) : Decidable date.Valid := inferInstanceAs (Decidable (_ < _))

/-- The day of the year, from 0. -/
def Date.yearDay (date : Date) : Nat := ((monthLengths (isLeapYear date.year)).take date.month).sum + date.day

/-- The number of the day. -/
def Date.dayNumber (date : Date) : Int :=
  146097 * (date.year / 400) + ((cycleLengths.take (date.year % 400).toNat).sum + date.yearDay : Nat)

/-- The date of a day. -/
def Date.ofDay (n : Int) : Date :=
  let inCycle := (locate cycleLengths (n % 146097).toNat).getD (0, 0)
  let year := 400 * (n / 146097) + inCycle.1
  let inYear := (locate (monthLengths (isLeapYear year)) inCycle.2).getD (0, 0)
  ⟨year, inYear.1, inYear.2⟩

theorem cycleLengths_sum : cycleLengths.sum = 146097 := by decide +kernel

theorem monthLengths_sum (leap : Bool) : (monthLengths leap).sum = yearLength leap := by
  cases leap <;> rfl

theorem isLeapYear_cycle (year : Int) : isLeapYear (year % 400).toNat = isLeapYear year := by
  have h4 : ((year % 400).toNat : Int) % 4 = year % 4 := by omega
  have h100 : ((year % 400).toNat : Int) % 100 = year % 100 := by omega
  have h400 : ((year % 400).toNat : Int) % 400 = year % 400 := by omega
  unfold isLeapYear
  rw [h4, h100, h400]

theorem cycleLengths_get {year : Nat} (h : year < 400) : cycleLengths[year]? = some (yearLength (isLeapYear year)) := by
  unfold cycleLengths
  rw [List.getElem?_map, List.getElem?_range h]
  rfl

theorem Date.valid_iff {date : Date} :
    date.Valid ↔ ∃ n, (monthLengths (isLeapYear date.year))[date.month]? = some n ∧ date.day < n := by
  unfold Date.Valid monthDays
  cases (monthLengths (isLeapYear date.year))[date.month]? <;> simp

theorem Date.yearDay_lt {date : Date} (h : date.Valid) : date.yearDay < yearLength (isLeapYear date.year) := by
  obtain ⟨n, hn, hday⟩ := Date.valid_iff.mp h
  rw [← monthLengths_sum]
  exact take_sum_add_lt hn hday

/-- **The date of a date's day is that date.** -/
theorem Date.ofDay_dayNumber {date : Date} (h : date.Valid) : Date.ofDay date.dayNumber = date := by
  have hlt := Date.yearDay_lt h
  have hget := cycleLengths_get (by omega : (date.year % 400).toNat < 400)
  rw [isLeapYear_cycle] at hget
  have hcycle := take_sum_add_lt hget hlt
  rw [cycleLengths_sum] at hcycle
  have hmod : (date.dayNumber % 146097).toNat = (cycleLengths.take (date.year % 400).toNat).sum + date.yearDay := by
    unfold Date.dayNumber
    omega
  have hdiv : date.dayNumber / 146097 = date.year / 400 := by
    unfold Date.dayNumber
    omega
  have hyear : locate cycleLengths (date.dayNumber % 146097).toNat = some ((date.year % 400).toNat, date.yearDay) :=
    locate_iff.mpr ⟨_, hget, hlt, hmod⟩
  have hsame : 400 * (date.year / 400) + ((date.year % 400).toNat : Int) = date.year := by omega
  obtain ⟨n, hn, hday⟩ := Date.valid_iff.mp h
  have hmonth : locate (monthLengths (isLeapYear date.year)) date.yearDay = some (date.month, date.day) :=
    locate_iff.mpr ⟨n, hn, hday, rfl⟩
  unfold Date.ofDay
  rw [hyear, hdiv]
  simp only [Option.getD_some, hsame, hmonth]

/-- **The day of a day's date is that day**, and the date exists. -/
theorem Date.dayNumber_ofDay (n : Int) : (Date.ofDay n).Valid ∧ (Date.ofDay n).dayNumber = n := by
  have hin : (n % 146097).toNat < cycleLengths.sum := by
    rw [cycleLengths_sum]
    omega
  obtain ⟨i, r, len, hyear, hlen, hr, hsum⟩ := locate_inside hin
  have hi : i < 400 := by
    obtain ⟨hlt, -⟩ := List.getElem?_eq_some_iff.mp hlen
    unfold cycleLengths at hlt
    rwa [List.length_map, List.length_range] at hlt
  have hdiv : (400 * (n / 146097) + (i : Int)) / 400 = n / 146097 := by omega
  have hmod : ((400 * (n / 146097) + (i : Int)) % 400).toNat = i := by omega
  have hleap : isLeapYear (400 * (n / 146097) + (i : Int)) = isLeapYear i := by
    rw [← isLeapYear_cycle, hmod]
  rw [cycleLengths_get hi] at hlen
  cases hlen
  rw [← monthLengths_sum] at hr
  obtain ⟨month, day, mlen, hmonth, hmlen, hday, hrest⟩ := locate_inside hr
  have hdate : Date.ofDay n = ⟨400 * (n / 146097) + (i : Int), month, day⟩ := by
    unfold Date.ofDay
    rw [hyear]
    simp only [Option.getD_some, hleap, hmonth]
  rw [hdate]
  refine ⟨Date.valid_iff.mpr ⟨mlen, by rw [hleap]; exact hmlen, hday⟩, ?_⟩
  unfold Date.dayNumber Date.yearDay
  simp only [hdiv, hmod, hleap]
  omega

/-- **Day after day, month after month**: the first of a month and its days lead to the first of the next. -/
theorem Date.dayNumber_nextMonth (year : Int) {month : Nat} (h : month < 12) :
    Date.dayNumber ⟨year, month, 0⟩ + monthDays year month =
      Date.dayNumber (if month = 11 then ⟨year + 1, 0, 0⟩ else ⟨year, month + 1, 0⟩) := by
  have hwithin : ∀ leap, ∀ month < 11, ((monthLengths leap).take month).sum + ((monthLengths leap)[month]?).getD 0 =
      ((monthLengths leap).take (month + 1)).sum := by decide
  have hlast : ∀ leap, ((monthLengths leap).take 11).sum + ((monthLengths leap)[11]?).getD 0 = yearLength leap := by decide
  by_cases h11 : month = 11
  · subst h11
    have hget := cycleLengths_get (by omega : (year % 400).toNat < 400)
    rw [isLeapYear_cycle] at hget
    have htake : (cycleLengths.take ((year % 400).toNat + 1)).sum =
        (cycleLengths.take (year % 400).toNat).sum + yearLength (isLeapYear year) := by
      rw [List.take_add_one, hget, List.sum_append, Option.toList_some, List.sum_singleton]
    have hyear := hlast (isLeapYear year)
    rw [if_pos rfl]
    unfold Date.dayNumber Date.yearDay monthDays
    simp only [List.take_zero, List.sum_nil, Nat.add_zero]
    by_cases hend : year % 400 = 399
    · have hnext : (year + 1) % 400 = 0 ∧ (year + 1) / 400 = year / 400 + 1 := by omega
      have hall : cycleLengths.take ((year % 400).toNat + 1) = cycleLengths := by
        have hlen : cycleLengths.length = 400 := by
          unfold cycleLengths
          rw [List.length_map, List.length_range]
        have h400 : (year % 400).toNat + 1 = 400 := by omega
        exact List.take_of_length_le (Nat.le_of_eq (hlen.trans h400.symm))
      rw [hall, cycleLengths_sum] at htake
      rw [hnext.1, hnext.2, Int.toNat_zero, List.take_zero, List.sum_nil]
      omega
    · have hnext : ((year + 1) % 400).toNat = (year % 400).toNat + 1 ∧ (year + 1) / 400 = year / 400 := by omega
      rw [hnext.1, hnext.2, htake]
      omega
  · have hmonth := hwithin (isLeapYear year) month (by omega)
    rw [if_neg h11]
    unfold Date.dayNumber Date.yearDay monthDays
    simp only [Nat.add_zero, ← hmonth]
    omega

end Rigel
