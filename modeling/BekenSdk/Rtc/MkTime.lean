import BekenSdk.Rtc.GmTime

/-! mktime_at: a broken-down time whose fields need no month to be carried is turned into its second, and one
that sends the days round the loop over the months is not.
-/

set_option autoImplicit false

namespace BekenSdk.Rtc
open Base.Gregorian

/-! ## The loop over the months -/

/-- Days before the month and in it, as the last sum of mktime_at takes them. -/
def Tm.days (t : Tm) : Int := spmAt t.mon + t.mday + if isleap t.fullYear ∧ t.mon > 1 then 1 else 0

theorem Tm.days_sub (t : Tm) :
    t.days - 1 = spmAt t.mon + t.mday - 1 + if isleap (t.year + 1900) ∧ t.mon > 1 then 1 else 0 := by
  unfold Tm.days Tm.fullYear
  omega

/-- What the rounds from January on have added to the days when a month is reached: `__spm` holds days before a month
where the loop takes it for the days of one. -/
def drift (mon : Int) : Int := [0, 31, 28, 0, -60, -149, -270, -420, -601, -814, -1056, -1330].getD mon.toNat 0

/-- The time of day and the months stay; what happened to the days depends on where the loop went. -/
structure Tm.Moved (t final : Tm) : Prop where
  clock : final.sec = t.sec ∧ final.min = t.min ∧ final.hour = t.hour
  mon : 0 ≤ final.mon ∧ final.mon ≤ 11
  /-- April is reached with more days than it has. -/
  april : final.mon = 3 → 32 ≤ final.mday
  days : final.year = t.year ∧ t.mon < final.mon ∧ final.days - drift final.mon = t.days - drift t.mon ∨
    t.year < final.year ∧ final.days - drift final.mon ≤ t.days - drift t.mon - 1998

theorem dayRound_moved (t next : Tm) (inside : 0 ≤ t.mon ∧ t.mon ≤ 11) (more : t.mday > spmAt (1 + t.mon))
    (done : dayRound t = some next) : t.Moved next := by
  have known := dayRound_eq t next done
  subst known
  obtain ⟨sec, min, hour, mday, mon, year, wday, yday⟩ := t
  obtain ⟨least, most⟩ := inside
  simp only at least most more
  cases leaps : isleap (year + 1900) <;> interval_cases mon <;>
    simp [spmAt, spm] at more <;>
    constructor <;> simp [leapDay, Tm.days, Tm.fullYear, leaps, spmAt, spm, drift] <;> omega

theorem Tm.Moved.trans (t next final : Tm) (first : t.Moved next) (rest : next.Moved final) : t.Moved final := by
  obtain ⟨firstSec, firstMin, firstHour⟩ := first.clock
  obtain ⟨restSec, restMin, restHour⟩ := rest.clock
  refine ⟨⟨by omega, by omega, by omega⟩, rest.mon, rest.april, ?_⟩
  cases first.days <;> cases rest.days <;> omega

theorem dayLoop_moved (t final : Tm) (done : dayLoop t = some final) :
    final = t ∧ t.mday ≤ spmAt (1 + t.mon) ∨ t.mday > spmAt (1 + t.mon) ∧ t.Moved final := by
  fun_induction dayLoop t with
  | case1 t inside more known => cases done
  | case2 t inside more next known ih =>
    have step := dayRound_moved t next inside more known
    obtain ⟨rfl, -⟩ | ⟨-, rest⟩ := ih done
    · exact .inr ⟨more, step⟩
    · exact .inr ⟨more, step.trans t next final rest⟩
  | case3 t inside less =>
    cases done
    exact .inl ⟨rfl, by omega⟩
  | case4 t outside => cases done

/-- Once round the loop, the days are wrong, or right in an April of more than 31 days. -/
theorem Tm.Moved.wrong (t final : Tm) (moved : t.Moved final) (inside : 0 ≤ t.mon ∧ t.mon ≤ 11)
    (same : final.days = t.days) :
    final.mon = 3 ∧ 32 ≤ final.mday := by
  have entries : ∀ first last : Fin 12, -1330 ≤ drift first ∧ drift last ≤ 31 ∧
      (first < last → drift first = drift last → (last : Nat) = 3) := by decide
  obtain ⟨firstMonth, first⟩ := Int.eq_ofNat_of_zero_le inside.1
  obtain ⟨lastMonth, last⟩ := Int.eq_ofNat_of_zero_le moved.mon.1
  have lastInside := moved.mon.2
  obtain ⟨least, most, equal⟩ := entries ⟨firstMonth, by omega⟩ ⟨lastMonth, by omega⟩
  simp only [Fin.mk_lt_mk] at least most equal
  have days := moved.days
  rw [first, last] at days
  have april : lastMonth = 3 := by
    cases days with
    | inl here => exact equal (by omega) (by omega)
    | inr later => omega
  have lastMon : final.mon = 3 := by omega
  exact ⟨lastMon, moved.april lastMon⟩

/-! ## Carrying -/

/-- What a field above its limit gives to the next one, and what it keeps. -/
def excess (low limit : Int) : Int := if low > limit then low / limit else 0

def kept (low limit : Int) : Int := if low > limit then low % limit else low

def Tm.carriedMin (t : Tm) : Int := t.min + excess t.sec 60

def Tm.carriedHour (t : Tm) : Int := t.hour + excess t.carriedMin 60

def Tm.carriedMday (t : Tm) : Int := t.mday + excess t.carriedHour 24

/-- The fields before the loop over the months. -/
def Tm.carried (t : Tm) : Tm :=
  { t with sec := kept t.sec 60, min := kept t.carriedMin 60, hour := kept t.carriedHour 24, mday := t.carriedMday }

/-- An int's value, not negative. -/
def IsField (value : Int) : Prop := 0 ≤ value ∧ value ≤ 2147483647

/-- A struct tm_at from year 1970 on, with a month, and other fields that are not negative. -/
structure Tm.Valid (t : Tm) : Prop where
  sec : IsField t.sec
  min : IsField t.min
  hour : IsField t.hour
  mday : IsField t.mday
  mon : 0 ≤ t.mon ∧ t.mon ≤ 11
  year : 70 ≤ t.year ∧ t.year ≤ 2147483647

theorem excess_nonneg (low limit : Int) (nonneg : 0 ≤ low) (positive : 0 < limit) : 0 ≤ excess low limit := by
  unfold excess
  split
  · exact Int.ediv_nonneg nonneg (by omega)
  · omega

theorem carry_some (low limit high : Int) (nonneg : 0 ≤ low) (pair : Int × Int)
    (done : carry low limit high = some pair) :
    pair = (kept low limit, high + excess low limit) := by
  by_cases above : low > limit
  · simp only [carry, above, if_true, Option.map_eq_some_iff] at done
    obtain ⟨sum, known, rfl⟩ := done
    rw [checked_some _ _ known]
    simp only [excess, kept, above, if_true, Int.tdiv_eq_ediv_of_nonneg nonneg, Int.tmod_eq_emod_of_nonneg nonneg]
  · simp only [carry, above, if_false] at done
    simp only [excess, kept, above, if_false, Int.add_zero]
    exact (Option.some.inj done).symm

theorem carry_fits (low limit high : Int) (nonneg : 0 ≤ low) (fits : IsField (high + excess low limit)) :
    carry low limit high = some (kept low limit, high + excess low limit) := by
  unfold IsField at fits
  by_cases above : low > limit
  · simp only [carry, excess, kept, above, if_true, Int.tdiv_eq_ediv_of_nonneg nonneg,
      Int.tmod_eq_emod_of_nonneg nonneg] at fits ⊢
    rw [checked, if_pos (by omega)]
    rfl
  · simp [carry, excess, kept, above]

/-- Carrying moves no second. -/
theorem Tm.carried_seconds (t : Tm) : t.carried.seconds = t.seconds := by
  simp only [Tm.seconds, Tm.dayNumber, Tm.dayOfYear, Tm.fullYear, Tm.carried, Tm.carriedMday]
  have sec : t.sec = 60 * excess t.sec 60 + kept t.sec 60 := by
    unfold excess kept
    split <;> omega
  have min : t.carriedMin = 60 * excess t.carriedMin 60 + kept t.carriedMin 60 := by
    unfold excess kept
    split <;> omega
  have hour : t.carriedHour = 24 * excess t.carriedHour 24 + kept t.carriedHour 24 := by
    unfold excess kept
    split <;> omega
  have minSum : t.carriedMin = t.min + excess t.sec 60 := rfl
  have hourSum : t.carriedHour = t.hour + excess t.carriedMin 60 := rfl
  omega

/-- The end of mktime_at: the second of the days the loop left, and the two fields stored. -/
def Tm.finished (t : Tm) (years : Int) : Int × Tm :=
  let day := daysSince years + (t.days - 1)
  (((day * 24 + t.hour) * 60 + t.min) * 60 + t.sec, { t with wday := (day + 4).tmod 7, yday := t.days - 1 })

theorem Tm.Valid.carried_nonneg (t : Tm) (valid : t.Valid) :
    0 ≤ t.carriedMin ∧ 0 ≤ t.carriedHour ∧ 0 ≤ t.carriedMday := by
  have first := excess_nonneg t.sec 60 valid.sec.1 (by omega)
  have min : 0 ≤ t.carriedMin := Int.add_nonneg valid.min.1 first
  have hour : 0 ≤ t.carriedHour := Int.add_nonneg valid.hour.1 (excess_nonneg _ 60 min (by omega))
  exact ⟨min, hour, Int.add_nonneg valid.mday.1 (excess_nonneg _ 24 hour (by omega))⟩

theorem mktime_some (t : Tm) (valid : t.Valid) (result : Int × Tm) (done : mktimeAt t = some result) :
    ∃ final, dayLoop t.carried = some final ∧ t.year + 1900 ≤ 2147483647 ∧ result = final.finished (t.year - 70) := by
  obtain ⟨minNonneg, hourNonneg, -⟩ := valid.carried_nonneg t
  simp only [mktimeAt, Option.bind_eq_bind, Option.bind_eq_some_iff, Prod.exists] at done
  obtain ⟨years, yearsKnown, sec, min, secKnown, min', hour, minKnown, hour', mday, hourKnown, mon, year, monKnown,
    final,
    loop, rest⟩ := done
  cases carry_some _ _ _ valid.sec.1 _ secKnown
  cases carry_some _ _ _ minNonneg _ minKnown
  cases carry_some _ _ _ hourNonneg _ hourKnown
  have month : kept t.mon 12 = t.mon ∧ t.year + excess t.mon 12 = t.year := by
    have inside := valid.mon
    rw [kept, excess, if_neg (by omega), if_neg (by omega)]
    exact ⟨rfl, by omega⟩
  cases carry_some _ _ _ valid.mon.1 _ monKnown
  rw [month.1, month.2] at loop
  refine ⟨final, loop, ?_⟩
  have later : t.year ≤ final.year := by
    rcases dayLoop_moved _ final loop with ⟨rfl, -⟩ | ⟨-, moved⟩
    · exact le_rfl
    · cases moved.days with
      | inl here => exact here.1.ge
      | inr passed => exact passed.1.le
  have since := valid.year.1
  rw [if_neg (by omega)] at rest
  simp only [Option.bind_eq_some_iff, Option.map_eq_some_iff] at rest
  obtain ⟨leap, ⟨fullYear, yearKnown, rfl⟩, rest⟩ := rest
  have range := checked_le _ _ yearKnown
  cases checked_some _ _ yearKnown
  cases checked_some _ _ yearsKnown
  refine ⟨by omega, ?_⟩
  rw [← Option.some.inj rest]
  simp only [Tm.finished, Tm.days_sub]

/-- The fields a time has to have for its month not to be left: no field at its limit, and a day of the month. -/
structure Tm.Fits (t : Tm) : Prop where
  year : t.fullYear ≤ 2147483647
  sec : t.sec ≠ 60
  min : t.carriedMin ≠ 60
  hour : t.carriedHour ≠ 24
  mday : 1 ≤ t.carriedMday ∧ t.carriedMday ≤ monthDays t.fullYear t.mon.toNat

/-- The second of 1 January and the offsets is returned, and the fields are left as those of that second. -/
def Tm.Normalises (t : Tm) : Prop := ∃ final, mktimeAt t = some (t.seconds, final) ∧ final.Denotes t.seconds

theorem Tm.days_eq (t : Tm) (inside : 0 ≤ t.mon ∧ t.mon ≤ 11) : t.days - 1 = t.dayOfYear := by
  have start := monthStart_eq t.fullYear t.mon.toNat (by omega)
  have month : ((t.mon.toNat : Nat) : Int) = t.mon := Int.toNat_of_nonneg inside.1
  have later : 1 < t.mon.toNat ↔ t.mon > 1 := by omega
  rw [month] at start
  simp only [Tm.days, Tm.dayOfYear, start, isleap_iff, later]
  split <;> omega

theorem month_within (t : Tm) (inside : 0 ≤ t.mon ∧ t.mon ≤ 11) (some : t.mday ≤ monthDays t.fullYear t.mon.toNat) :
    t.mday ≤ spmAt (1 + t.mon) := by
  have month : ((t.mon.toNat : Nat) : Int) = t.mon := Int.toNat_of_nonneg inside.1
  have days := monthDays_eq t.fullYear t.mon.toNat (by omega)
  have entries := spmAt_step t.mon inside
  rw [month, Int.add_comm t.mon 1] at days
  split at days <;> omega

theorem dayLoop_within (t : Tm) (inside : 0 ≤ t.mon ∧ t.mon ≤ 11) (within : t.mday ≤ spmAt (1 + t.mon)) :
    dayLoop t = some t := by
  rw [dayLoop, dif_pos inside, dif_neg (by omega)]

theorem monthDays_le (year : Int) (month : Nat) : monthDays year month ≤ 31 := by
  unfold monthDays
  split <;> (try split) <;> omega

theorem Tm.Fits.carried_fields (t : Tm) (valid : t.Valid) (fits : t.Fits) :
    IsField t.carriedMin ∧ IsField t.carriedHour ∧ IsField t.carriedMday := by
  obtain ⟨minNonneg, hourNonneg, mdayNonneg⟩ := valid.carried_nonneg t
  have month := monthDays_le t.fullYear t.mon.toNat
  have few := fits.mday.2
  have hour : t.carriedHour ≤ 24 * 32 := by
    have sum : t.carriedMday = t.mday + excess t.carriedHour 24 := rfl
    have nonneg := valid.mday.1
    unfold excess at sum
    split at sum <;> omega
  have min : t.carriedMin ≤ 60 * 769 := by
    have sum : t.carriedHour = t.hour + excess t.carriedMin 60 := rfl
    have nonneg := valid.hour.1
    unfold excess at sum
    split at sum <;> omega
  exact ⟨⟨minNonneg, by omega⟩, ⟨hourNonneg, by omega⟩, ⟨mdayNonneg, by omega⟩⟩

theorem mktime_fits (t : Tm) (valid : t.Valid) (fits : t.Fits) :
    mktimeAt t = some (t.carried.finished (t.year - 70)) := by
  obtain ⟨min, hour, mday⟩ := fits.carried_fields t valid
  have since := valid.year
  have year := fits.year
  unfold Tm.fullYear at year
  have years : checked (t.year - 70) = some (t.year - 70) := by rw [checked, if_pos (by omega)]
  have fullYear : checked (t.year + 1900) = some (t.year + 1900) := by rw [checked, if_pos (by omega)]
  have month : carry t.mon 12 t.year = some (t.mon, t.year) := by
    have inside := valid.mon
    rw [carry, if_neg (by omega)]
  have loop : dayLoop t.carried = some t.carried :=
    dayLoop_within t.carried valid.mon (month_within t.carried valid.mon fits.mday.2)
  have secondCarry : carry t.sec 60 t.min = some (kept t.sec 60, t.carriedMin) := carry_fits _ _ _ valid.sec.1 min
  have minuteCarry : carry t.carriedMin 60 t.hour = some (kept t.carriedMin 60, t.carriedHour) :=
    carry_fits _ _ _ min.1 hour
  have hourCarry : carry t.carriedHour 24 t.mday = some (kept t.carriedHour 24, t.carriedMday) :=
    carry_fits _ _ _ hour.1 mday
  simp only [Tm.carried] at loop
  simp only [mktimeAt, years, secondCarry, minuteCarry, hourCarry, month, loop, fullYear, Option.bind_eq_bind,
    Option.bind_some,
    Option.map_some]
  rw [if_neg (by omega)]
  simp only [Tm.finished, Tm.days_sub, Tm.carried]
  rfl

theorem Tm.dayNumber_eq (t : Tm) (since : 70 ≤ t.year) (inside : 0 ≤ t.mon ∧ t.mon ≤ 11) :
    t.dayNumber = daysSince (t.year - 70) + (t.days - 1) := by
  obtain ⟨years, known⟩ := Int.eq_ofNat_of_zero_le (show 0 ≤ t.year - 70 by omega)
  rw [Tm.dayNumber, t.days_eq inside, known, daysSince_eq, Int.toNat_natCast]

theorem Tm.Canonical.dayNumber_nonneg (t : Tm) (canonical : t.Canonical) : 0 ≤ t.dayNumber := by
  have years : daysFrom 1970 0 ≤ daysFrom 1970 (t.year - 70).toNat := (daysFrom_strictMono 1970).monotone (by omega)
  have none : daysFrom 1970 0 = 0 := rfl
  have inside := canonical.mon
  have entries := spmAt_step t.mon ⟨inside.1, by omega⟩
  have days := t.days_eq ⟨inside.1, by omega⟩
  have first := canonical.mday.1
  have more : 0 ≤ t.days - 1 := by
    unfold Tm.days
    split <;> omega
  rw [Tm.dayNumber, ← days]
  omega

/-- A time in canonical form is finished as what it denotes. -/
theorem Tm.finished_denotes (t : Tm) (canonical : t.Canonical) :
    (t.finished (t.year - 70)).1 = t.seconds ∧ (t.finished (t.year - 70)).2.Denotes t.seconds := by
  have inside := canonical.mon
  have dayNumber := t.dayNumber_eq canonical.year ⟨inside.1, by omega⟩
  have since := canonical.dayNumber_nonneg t
  refine ⟨?_, ?_⟩
  · rw [Tm.finished, Tm.seconds, dayNumber]
  · constructor
    · exact ⟨canonical.sec, canonical.min, canonical.hour, canonical.mon, canonical.mday, canonical.year⟩
    · rfl
    · show (daysSince (t.year - 70) + (t.days - 1) + 4).tmod 7 = (4 + t.dayNumber) % 7
      rw [← dayNumber, Int.tmod_eq_emod_of_nonneg (by omega), Int.add_comm]
    · exact t.days_eq ⟨inside.1, by omega⟩

/-- Fields that are in canonical form after carrying were not at their limits. -/
theorem kept_lt (low limit : Int) (positive : 0 < limit) (nonneg : 0 ≤ low) :
    0 ≤ kept low limit ∧ (kept low limit < limit ↔ low ≠ limit) := by
  unfold kept
  split
  · have least := Int.emod_nonneg low (show limit ≠ 0 by omega)
    have most := Int.emod_lt_of_pos low positive
    omega
  · omega

theorem Tm.carried_canonical_iff (t : Tm) (valid : t.Valid) (year : t.fullYear ≤ 2147483647) :
    t.carried.Canonical ↔ t.Fits := by
  obtain ⟨minNonneg, hourNonneg, -⟩ := valid.carried_nonneg t
  have sec := kept_lt t.sec 60 (by omega) valid.sec.1
  have min := kept_lt t.carriedMin 60 (by omega) minNonneg
  have hour := kept_lt t.carriedHour 24 (by omega) hourNonneg
  have inside := valid.mon
  constructor
  · intro canonical
    exact ⟨year, sec.2.1 canonical.sec.2, min.2.1 canonical.min.2, hour.2.1 canonical.hour.2, canonical.mday⟩
  · intro fits
    exact ⟨⟨sec.1, sec.2.2 fits.sec⟩, ⟨min.1, min.2.2 fits.min⟩, ⟨hour.1, hour.2.2 fits.hour⟩,
      ⟨inside.1, show t.mon < 12 by omega⟩, fits.mday, valid.year.1⟩

/-- A time that went round the loop is not given its second, or not left in canonical form. -/
theorem Tm.Moved.fails (t final : Tm) (since : 70 ≤ t.year) (inside : 0 ≤ t.mon ∧ t.mon ≤ 11) (moved : t.Moved final)
    (right : (final.finished (t.year - 70)).1 = t.seconds) : ¬ final.Canonical := by
  intro canonical
  have dayNumber := t.dayNumber_eq since inside
  obtain ⟨sec, min, hour⟩ := moved.clock
  have same : final.days = t.days := by
    simp only [Tm.finished, Tm.seconds, dayNumber, sec, min, hour] at right
    omega
  obtain ⟨april, late⟩ := moved.wrong t final inside same
  have most := canonical.mday.2
  rw [april] at most
  have thirty : monthDays final.fullYear (3 : Int).toNat = 30 := rfl
  omega

theorem mktime_exact (t : Tm) (valid : t.Valid) : t.Normalises ↔ t.Fits := by
  constructor
  · rintro ⟨final, done, denotes⟩
    obtain ⟨left, loop, year, result⟩ := mktime_some t valid _ done
    obtain ⟨value, same⟩ := Prod.ext_iff.1 result
    simp only at value same
    rw [same] at denotes
    have canonical : left.Canonical :=
      ⟨denotes.canonical.sec, denotes.canonical.min, denotes.canonical.hour, denotes.canonical.mon,
        denotes.canonical.mday,
        denotes.canonical.year⟩
    rcases dayLoop_moved _ left loop with ⟨rfl, -⟩ | ⟨-, moved⟩
    · exact (t.carried_canonical_iff valid year).1 canonical
    · have right : (left.finished (t.carried.year - 70)).1 = t.carried.seconds := by
        rw [t.carried_seconds, value]
        rfl
      exact (moved.fails t.carried left valid.year.1 valid.mon right canonical).elim
  · intro fits
    have canonical := (t.carried_canonical_iff valid fits.year).2 fits
    obtain ⟨value, denotes⟩ := t.carried.finished_denotes canonical
    rw [Tm.carried_seconds] at value denotes
    refine ⟨_, ?_, denotes⟩
    rw [mktime_fits t valid fits, ← value]
    rfl

/-! ## Both ways -/

theorem Tm.Canonical.carried_eq (t : Tm) (canonical : t.Canonical) : t.carried = t := by
  have sec := canonical.sec
  have min := canonical.min
  have hour := canonical.hour
  have carriedMin : t.carriedMin = t.min := by
    rw [Tm.carriedMin, excess, if_neg (by omega), Int.add_zero]
  have carriedHour : t.carriedHour = t.hour := by
    rw [Tm.carriedHour, carriedMin, excess, if_neg (by omega), Int.add_zero]
  have carriedMday : t.carriedMday = t.mday := by
    rw [Tm.carriedMday, carriedHour, excess, if_neg (by omega), Int.add_zero]
  simp only [Tm.carried, carriedMin, carriedHour, carriedMday, kept]
  rw [if_neg (by omega), if_neg (by omega), if_neg (by omega)]

/-- mktime_at undoes what denotes a second: the second is returned and no field changes. -/
theorem Tm.Denotes.mktime (t : Tm) (time : Int) (denotes : t.Denotes time) (year : t.fullYear ≤ 2147483647) :
    mktimeAt t = some (time, t) := by
  have canonical := denotes.canonical
  have same := canonical.carried_eq t
  have valid : t.Valid := by
    obtain ⟨⟨sec, sec'⟩, ⟨min, min'⟩, ⟨hour, hour'⟩, ⟨mon, mon'⟩, ⟨mday, mday'⟩, since⟩ := canonical
    have month := monthDays_le t.fullYear t.mon.toNat
    unfold Tm.fullYear at year
    exact ⟨⟨sec, by omega⟩, ⟨min, by omega⟩, ⟨hour, by omega⟩, ⟨by omega, by omega⟩, ⟨mon, by omega⟩, ⟨since, by omega⟩⟩
  have fits := (t.carried_canonical_iff valid year).1 (by rwa [same])
  obtain ⟨value, finished⟩ := t.finished_denotes canonical
  have wday : (t.finished (t.year - 70)).2.wday = t.wday := finished.wday.trans denotes.wday.symm
  have yday : (t.finished (t.year - 70)).2.yday = t.yday := finished.yday.trans denotes.yday.symm
  have fields : (t.finished (t.year - 70)).2 = t :=
    calc (t.finished (t.year - 70)).2
        = { t with wday := (t.finished (t.year - 70)).2.wday, yday := (t.finished (t.year - 70)).2.yday } := rfl
      _ = t := by rw [wday, yday]
  rw [mktime_fits t valid fits, same]
  exact congrArg some (Prod.ext (value.trans denotes.seconds) fields)

theorem gmtime_year (time : Int) (nonneg : 0 ≤ time) (fits : time < 86400 * daysFrom 1970 yearLimit) :
    (gmtimeAt time).fullYear ≤ 2147483647 := by
  obtain ⟨passed, left, -, -, -, below, known⟩ := gmtime_eq time nonneg fits
  rw [Tm.fullYear, known]
  simp only
  omega

/-- gmtime_r_at gives the date and time of every second whose year an int can hold, and mktime_at its second again;
other times are normalised exactly if no field is at its limit and the day is one of the month's. -/
theorem calendar_exact (time : Int) (nonneg : 0 ≤ time) (inYears : time < 86400 * daysFrom 1970 yearLimit) (t : Tm)
    (valid : t.Valid) :
    (gmtimeAt time).Denotes time ∧ mktimeAt (gmtimeAt time) = some (time, gmtimeAt time) ∧ (t.Normalises ↔ t.Fits) := by
  have denotes := gmtime_denotes time nonneg inYears
  exact ⟨denotes, denotes.mktime _ time (gmtime_year time nonneg inYears), mktime_exact t valid⟩

theorem epoch_in_years : (0 : Int) < 86400 * daysFrom 1970 yearLimit := by
  have later : daysFrom 1970 0 < daysFrom 1970 yearLimit := daysFrom_strictMono 1970 (by unfold yearLimit; omega)
  have none : daysFrom 1970 0 = 0 := rfl
  omega

/-- 32 January 1970, midnight. -/
def januaryEnd : Tm := { sec := 0, min := 0, hour := 0, mday := 32, mon := 0, year := 70, wday := 0, yday := 0 }

theorem januaryEnd_valid : januaryEnd.Valid :=
  ⟨⟨by decide, by decide⟩, ⟨by decide, by decide⟩, ⟨by decide, by decide⟩, ⟨by decide, by decide⟩,
    ⟨by decide, by decide⟩, ⟨by decide, by decide⟩⟩

theorem calendar_exact_sample :
    (gmtimeAt 0).Denotes 0 ∧ mktimeAt (gmtimeAt 0) = some (0, gmtimeAt 0) ∧ (januaryEnd.Normalises ↔ januaryEnd.Fits) :=
  calendar_exact 0 (by decide) epoch_in_years januaryEnd januaryEnd_valid

/-- It is taken for 32 February. -/
theorem january_not_left : ¬ januaryEnd.Normalises := by
  rw [mktime_exact januaryEnd januaryEnd_valid]
  intro fits
  have days : januaryEnd.carriedMday ≤ monthDays januaryEnd.fullYear januaryEnd.mon.toNat := fits.mday.2
  revert days
  decide

end BekenSdk.Rtc
