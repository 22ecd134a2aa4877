import BekenSdk.Rtc.Calendar
import Mathlib.Tactic.SplitIfs
import Mathlib.Tactic.IntervalCases

/-! What a broken-down time denotes, and that gmtime_r_at gives the one of its second. -/

set_option autoImplicit false

namespace BekenSdk.Rtc
open Base.Gregorian

/-- The calendar year. -/
def Tm.fullYear (t : Tm) : Int := t.year + 1900

/-- The day of the year, from 0. -/
def Tm.dayOfYear (t : Tm) : Int := monthStart t.fullYear t.mon.toNat + t.mday - 1

/-- Days since 1 January 1970. -/
def Tm.dayNumber (t : Tm) : Int := daysFrom 1970 (t.year - 70).toNat + t.dayOfYear

/-- The second of 1 January of the year, and the offsets the other fields stand for. -/
def Tm.seconds (t : Tm) : Int := ((t.dayNumber * 24 + t.hour) * 60 + t.min) * 60 + t.sec

structure Tm.Canonical (t : Tm) : Prop where
  sec : 0 ≤ t.sec ∧ t.sec < 60
  min : 0 ≤ t.min ∧ t.min < 60
  hour : 0 ≤ t.hour ∧ t.hour < 24
  mon : 0 ≤ t.mon ∧ t.mon < 12
  mday : 1 ≤ t.mday ∧ t.mday ≤ monthDays t.fullYear t.mon.toNat
  year : 70 ≤ t.year

/-- The date and time of a second since 1970; the epoch's first day was a Thursday. -/
structure Tm.Denotes (t : Tm) (time : Int) : Prop where
  canonical : t.Canonical
  seconds : t.seconds = time
  wday : t.wday = (4 + t.dayNumber) % 7
  yday : t.yday = t.dayOfYear

/-! ## Leap years -/

theorem isleap_iff (year : Int) : isleap year = true ↔ Leap year := by
  simp only [isleap, Leap, decide_eq_true_eq, ne_eq, ← Int.dvd_iff_tmod_eq_zero, ← Int.dvd_iff_emod_eq_zero]

theorem asInt_small (value : Int) (nonneg : 0 ≤ value) (small : value < 2147483648) : asInt value = value := by
  unfold asInt
  rw [Int.bmod_eq_of_le] <;> omega

/-- Century years from 2100 on that are not leap, among the first years from 1970 on. -/
def skipped (years : Int) : Int :=
  if years ≥ 131 then
    let centuries := (years - 131) / 100
    centuries / 4 * 3 + 1 + if centuries % 4 = 3 then 2 else centuries % 4
  else 0

theorem skipped_succ (years : Int) (later : 0 ≤ years) :
    skipped (years + 1) = skipped years + if (1970 + years) % 100 = 0 ∧ (1970 + years) % 400 ≠ 0 then 1 else 0 := by
  simp only [skipped]
  by_cases past : 131 ≤ years
  · rw [if_pos (show years + 1 ≥ 131 by omega), if_pos (show years ≥ 131 from past)]
    by_cases century : (1970 + years) % 100 = 0
    · have next : (years + 1 - 131) / 100 = (years - 131) / 100 + 1 := by omega
      have leap : (1970 + years) % 400 = 0 ↔ (years - 131) / 100 % 4 = 2 := by omega
      rw [next]
      generalize (years - 131) / 100 = centuries at leap
      simp only [century, ne_eq, leap, true_and]
      split_ifs <;> omega
    · have same : (years + 1 - 131) / 100 = (years - 131) / 100 := by omega
      simp only [century, false_and, if_false, same, Int.add_zero]
  · by_cases last : years = 130
    · subst last
      decide
    · rw [if_neg (by omega), if_neg (by omega), if_neg (by omega)]
      rfl

theorem daysFrom_closed (years : Nat) :
    daysFrom 1970 years = years * 365 + ((years : Int) + 1) / 4 - skipped years := by
  induction years with
  | zero => rfl
  | succ years ih =>
    have correction := skipped_succ years (by omega)
    push_cast
    rw [daysFrom, ih, correction]
    simp only [yearDays, Leap]
    split_ifs <;> omega

/-- The closed form of mktime_at counts the days of the years. -/
theorem daysSince_eq (years : Nat) : daysSince years = daysFrom 1970 years := by
  rw [daysFrom_closed]
  have quarter : ((years : Int) + 1).tdiv 4 = ((years : Int) + 1) / 4 := Int.tdiv_eq_ediv_of_nonneg (by omega)
  by_cases past : (years : Int) ≥ 131
  · have hundred : ((years : Int) - 131).tdiv 100 = ((years : Int) - 131) / 100 := Int.tdiv_eq_ediv_of_nonneg (by omega)
    simp only [daysSince, skipped, past, if_true, quarter, hundred, Int.shiftRight_eq_div_pow]
    split_ifs <;> omega
  · simp only [daysSince, skipped, past, if_false, quarter]
    omega

/-! ## The loops -/

/-- The years whose numbers an int can hold. -/
def yearLimit : Nat := 2147481678

theorem year_below (years : Nat) (work : Int) (nonneg : 0 ≤ work)
    (fits : daysFrom 1970 years + work < daysFrom 1970 yearLimit) : (1970 : Int) + years < 2147483648 := by
  have below : years < yearLimit := by
    apply (daysFrom_strictMono 1970).lt_iff_lt.1
    omega
  unfold yearLimit at below
  omega

theorem yearLoop_spec (years : Nat) (work : Int) (nonneg : 0 ≤ work)
    (fits : daysFrom 1970 years + work < daysFrom 1970 yearLimit) :
    ∃ (passed : Nat) (left : Int), yearLoop (1970 + years) work = (1970 + (passed : Int), left) ∧
      (1970 : Int) + passed < 2147483648 ∧
      daysFrom 1970 passed + left = daysFrom 1970 years + work ∧ 0 ≤ left ∧ left < yearDays (1970 + passed) := by
  induction size : work.toNat using Nat.strong_induction_on generalizing years work with
  | _ size ih =>
    subst size
    have below := year_below years work nonneg fits
    have length : (if isleap (asInt (1970 + years)) = true then (366 : Int) else 365) = yearDays (1970 + years) := by
      rw [asInt_small _ (by omega) (by omega)]
      simp only [yearDays, isleap_iff]
    have positive := yearDays_pos (1970 + years)
    rw [yearLoop]
    simp only [length]
    by_cases more : work ≥ yearDays (1970 + years)
    · have next : (1970 : Int) + years + 1 = 1970 + (years + 1 : Nat) := by push_cast; omega
      have sum : daysFrom 1970 (years + 1) + (work - yearDays (1970 + years)) = daysFrom 1970 years + work := by
        rw [daysFrom]
        omega
      rw [if_pos more, next, ← sum]
      rw [← sum] at fits
      exact ih _ (by omega) (years + 1) _ (by omega) fits rfl
    · rw [if_neg more]
      exact ⟨years, work, rfl, below, rfl, nonneg, by omega⟩

theorem monthLoop_spec (work : Int) (nonneg : 0 ≤ work) (last : Nat) (above : last < 11 → work < spmAt (last + 1)) :
    monthLoop work last ≤ last ∧ spmAt (monthLoop work last) ≤ work ∧
      (monthLoop work last < 11 → work < spmAt (monthLoop work last + 1)) := by
  induction last with
  | zero => exact ⟨le_rfl, nonneg, above⟩
  | succ last ih =>
    rw [monthLoop]
    by_cases later : spmAt (last + 1) > work
    · rw [if_pos later]
      obtain ⟨most, start, stop⟩ := ih (fun _ => later)
      exact ⟨by omega, start, stop⟩
    · rw [if_neg later]
      exact ⟨le_rfl, by push_cast; omega, above⟩

/-! ## The date of a day -/

/-- A month starts where `__spm` says, a day later after the February of a leap year. -/
theorem monthStart_eq (year : Int) (month : Nat) (inside : month < 12) :
    monthStart year month = spmAt month + if Leap year ∧ 1 < month then 1 else 0 := by
  by_cases leap : Leap year
  · interval_cases month <;> simp [monthStart, monthDays, spmAt, spm, leap]
  · interval_cases month <;> simp [monthStart, monthDays, spmAt, spm, leap]

/-- The days of a month, read off `__spm`. -/
theorem monthDays_eq (year : Int) (month : Nat) (inside : month < 12) :
    monthDays year month = spmAt (month + 1) - spmAt month + if Leap year ∧ month = 1 then 1 else 0 := by
  by_cases leap : Leap year
  · interval_cases month <;> simp [monthDays, spmAt, spm, leap]
  · interval_cases month <;> simp [monthDays, spmAt, spm, leap]

/-- The entries of `__spm` around a day of a year that is not leap tell whether it is past January and February. -/
theorem past_february (month : Nat) (inside : month < 12) (work : Int) (start : spmAt month ≤ work)
    (stop : work < spmAt (month + 1)) : (0 < month ↔ 30 < work) ∧ (1 < month ↔ 58 < work) := by
  interval_cases month <;> simp [spmAt, spm] at start stop <;> omega

theorem monthLoop_inside (work : Int) (nonneg : 0 ≤ work) (inside : work < 365) :
    monthLoop work 11 < 12 ∧ spmAt (monthLoop work 11) ≤ work ∧ work < spmAt (monthLoop work 11 + 1) ∧
      (0 < monthLoop work 11 ↔ 30 < work) ∧ (1 < monthLoop work 11 ↔ 58 < work) := by
  obtain ⟨bound, start, stop⟩ := monthLoop_spec work nonneg 11 (by omega)
  generalize monthLoop work 11 = mon at bound start stop
  have close : work < spmAt (mon + 1) := by
    by_cases last : mon = 11
    · subst last
      exact inside
    · exact stop (by omega)
  exact ⟨by omega, start, close, past_february mon (by omega) work start close⟩

theorem dateOfDay_spec (year left : Int) (least : 0 ≤ year) (most : year < 2147483648) (nonneg : 0 ≤ left)
    (inside : left < yearDays year) :
    (dateOfDay year left).1 < 12 ∧ 1 ≤ (dateOfDay year left).2 ∧
      (dateOfDay year left).2 ≤ monthDays year (dateOfDay year left).1 ∧
      monthStart year (dateOfDay year left).1 + (dateOfDay year left).2 - 1 = left := by
  simp only [dateOfDay, asInt_small year least most, decide_eq_true_eq, isleap_iff]
  by_cases leap : Leap year
  · simp only [yearDays, leap, if_true, true_and] at inside ⊢
    by_cases late : left > 58
    · simp only [late, if_true, true_and]
      -- 29 February is looked up as the day before it
      obtain ⟨known, start, stop, first, past⟩ := monthLoop_inside (left - 1) (by omega) (by omega)
      generalize monthLoop (left - 1) 11 = mon at known start stop first past
      rw [monthStart_eq year mon known, monthDays_eq year mon known]
      simp only [leap, true_and]
      split_ifs <;> omega
    · simp only [late, if_false, false_and]
      obtain ⟨known, start, stop, first, past⟩ := monthLoop_inside left nonneg (by omega)
      generalize monthLoop left 11 = mon at known start stop first past
      rw [monthStart_eq year mon known, monthDays_eq year mon known]
      simp only [leap, true_and]
      split_ifs <;> omega
  · simp only [yearDays, leap, if_false, false_and] at inside ⊢
    obtain ⟨known, start, stop, first, past⟩ := monthLoop_inside left nonneg inside
    generalize monthLoop left 11 = mon at known start stop first past
    rw [monthStart_eq year mon known, monthDays_eq year mon known]
    simp only [leap, false_and, if_false]
    omega

/-- The parts of gmtime_r_at, put together. -/
theorem gmtime_eq (time : Int) (nonneg : 0 ≤ time) (fits : time < 86400 * daysFrom 1970 yearLimit) :
    ∃ (passed : Nat) (left : Int), daysFrom 1970 passed + left = time / 86400 ∧ 0 ≤ left ∧
      left < yearDays (1970 + passed) ∧ (1970 : Int) + passed < 2147483648 ∧
      gmtimeAt time =
        { sec := time % 86400 % 60
          min := time % 86400 / 60 % 60
          hour := time % 86400 / 60 / 60
          mday := (dateOfDay (1970 + passed) left).2
          mon := (dateOfDay (1970 + passed) left).1
          year := 70 + passed
          wday := (4 + time / 86400) % 7
          yday := left } := by
  have none : daysFrom 1970 0 = 0 := rfl
  obtain ⟨passed, left, loop, below, sum, least, most⟩ :=
    yearLoop_spec 0 (time / 86400) (by omega) (by rw [none]; omega)
  refine ⟨passed, left, by rw [sum, none]; omega, least, most, below, ?_⟩
  have day : time.tmod 86400 = time % 86400 := Int.tmod_eq_emod_of_nonneg nonneg
  have days : time.tdiv 86400 = time / 86400 := Int.tdiv_eq_ediv_of_nonneg nonneg
  have minutes : (time % 86400).tdiv 60 = time % 86400 / 60 := Int.tdiv_eq_ediv_of_nonneg (by omega)
  have seconds : (time % 86400).tmod 60 = time % 86400 % 60 := Int.tmod_eq_emod_of_nonneg (by omega)
  have minute : (time % 86400 / 60).tmod 60 = time % 86400 / 60 % 60 := Int.tmod_eq_emod_of_nonneg (by omega)
  have hour : (time % 86400 / 60).tdiv 60 = time % 86400 / 60 / 60 := Int.tdiv_eq_ediv_of_nonneg (by omega)
  have week : (4 + time / 86400).tmod 7 = (4 + time / 86400) % 7 := Int.tmod_eq_emod_of_nonneg (by omega)
  have year : asInt (1970 + passed - 1900) = 70 + passed := by
    rw [asInt_small _ (by omega) (by omega)]
    omega
  rw [Nat.cast_zero, Int.add_zero] at loop
  rw [gmtimeAt, day, days, minutes, seconds, minute, hour, week, loop]
  simp only [year]

theorem gmtime_denotes (time : Int) (nonneg : 0 ≤ time) (fits : time < 86400 * daysFrom 1970 yearLimit) :
    (gmtimeAt time).Denotes time := by
  obtain ⟨passed, left, sum, least, most, below, known⟩ := gmtime_eq time nonneg fits
  obtain ⟨month, first, last, position⟩ := dateOfDay_spec (1970 + passed) left (by omega) (by omega) least most
  generalize dateOfDay (1970 + passed) left = date at known month first last position
  have full : (70 : Int) + passed + 1900 = 1970 + passed := by omega
  have years : ((70 : Int) + passed - 70).toNat = passed := by omega
  have fullYear : (gmtimeAt time).fullYear = 1970 + passed := by
    rw [Tm.fullYear, known]
    exact full
  have mon : (gmtimeAt time).mon.toNat = date.1 := by
    rw [known]
    exact Int.toNat_natCast date.1
  have dayOfYear : (gmtimeAt time).dayOfYear = left := by
    rw [Tm.dayOfYear, fullYear, mon, known]
    exact position
  have dayNumber : (gmtimeAt time).dayNumber = time / 86400 := by
    rw [Tm.dayNumber, dayOfYear, known]
    simp only [years, sum]
  constructor
  · constructor
    · rw [known]
      simp only
      omega
    · rw [known]
      simp only
      omega
    · rw [known]
      simp only
      omega
    · rw [known]
      simp only
      omega
    · rw [fullYear, mon, known]
      exact ⟨first, last⟩
    · rw [known]
      simp only
      omega
  · rw [Tm.seconds, dayNumber, known]
    simp only
    omega
  · rw [dayNumber, known]
  · rw [dayOfYear, known]

end BekenSdk.Rtc
