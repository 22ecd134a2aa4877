import BekenSdk.Base.Gregorian

/-! Broken-down times (rtc_time.c). Values are unbounded integers; what an int cannot hold is undefined where it is a
sum, and so is an entry outside `__spm`.
-/

set_option autoImplicit false

namespace BekenSdk.Rtc

/-- Days before each month of a year that is not leap, and its days. -/
def spm : List Int := [0, 31, 59, 90, 120, 151, 181, 212, 243, 273, 304, 334, 365]

def spmAt (i : Int) : Int := spm.getD i.toNat 0

/-- A sum of ints. -/
def checked (sum : Int) : Option Int := if -2147483648 ≤ sum ∧ sum ≤ 2147483647 then some sum else none

/-- A long long converted to int. -/
def asInt (value : Int) : Int := value.bmod 4294967296

/-- The fields of struct tm_at that are computed. -/
structure Tm where
  sec : Int
  min : Int
  hour : Int
  mday : Int
  mon : Int
  /-- Counted from 1900. -/
  year : Int
  wday : Int
  yday : Int
  deriving DecidableEq

def isleap (year : Int) : Bool := year.tmod 4 = 0 ∧ (year.tmod 100 ≠ 0 ∨ year.tmod 400 = 0)

/-! ## gmtime_r_at -/

/-- The loop over the years from `i` on: the year, and the days left in it. -/
def yearLoop (i work : Int) : Int × Int :=
  let k := if isleap (asInt i) then 366 else 365
  if work ≥ k then yearLoop (i + 1) (work - k) else (i, work)
termination_by work.toNat
decreasing_by
  have positive : (0 : Int) < k := by
    unfold k
    split <;> decide
  omega

/-- The loop over the months from the last one down. -/
def monthLoop (work : Int) : Nat → Nat
  | 0 => 0
  | i + 1 => if spmAt (i + 1) > work then monthLoop work i else i + 1

/-- The month and its day, of a day of the year. -/
def dateOfDay (year work : Int) : Nat × Int :=
  let late : Bool := isleap (asInt year) ∧ work > 58
  let mday := if late ∧ work = 59 then 2 else 1
  let work := if late then work - 1 else work
  let mon := monthLoop work 11
  (mon, mday + (work - spmAt mon))

def gmtimeAt (time : Int) : Tm :=
  let work := time.tmod 86400
  let sec := work.tmod 60
  let work := work.tdiv 60
  let min := work.tmod 60
  let hour := work.tdiv 60
  let work := time.tdiv 86400
  let wday := (4 + work).tmod 7
  let (i, work) := yearLoop 1970 work
  let (mon, mday) := dateOfDay i work
  { sec, min, hour, mday, mon, year := asInt (i - 1900), wday, yday := work }

/-! ## mktime_at -/

/-- What a field has above its limit goes to the next one. -/
def carry (low limit high : Int) : Option (Int × Int) :=
  if low > limit then (checked (high + low.tdiv limit)).map fun high => (low.tmod limit, high) else some (low, high)

/-- Whether the February of a leap year is at hand; the year is looked at only in February. -/
def leapsNow (t : Tm) : Option Bool :=
  if t.mon = 1 then (checked (t.year + 1900)).map isleap else some false

/-- One round of the loop over the months. -/
def dayRound (t : Tm) : Option Tm := do
  let leap ← leapsNow t
  let mday := (if leap then t.mday - 1 else t.mday) - spmAt t.mon
  if t.mon + 1 > 11 then
    let year ← checked (t.year + 1)
    some { t with mday, mon := 0, year }
  else some { t with mday, mon := t.mon + 1 }

/-- The day a leap year's February has more. -/
def leapDay (t : Tm) : Int := if t.mon = 1 ∧ isleap (t.year + 1900) then 1 else 0

theorem checked_some (sum value : Int) (kept : checked sum = some value) : value = sum := by
  unfold checked at kept
  split at kept
  · exact (Option.some.inj kept).symm
  · cases kept

theorem checked_le (sum value : Int) (kept : checked sum = some value) : sum ≤ 2147483647 := by
  unfold checked at kept
  split at kept
  · omega
  · cases kept

theorem dayRound_eq (t next : Tm) (done : dayRound t = some next) :
    next =
      if t.mon + 1 > 11 then { t with mday := t.mday - leapDay t - spmAt t.mon, mon := 0, year := t.year + 1 }
      else { t with mday := t.mday - leapDay t - spmAt t.mon, mon := t.mon + 1 } := by
  simp only [dayRound, Option.bind_eq_bind, Option.bind_eq_some_iff] at done
  obtain ⟨leap, february, done⟩ := done
  have day : (if leap then t.mday - 1 else t.mday) = t.mday - leapDay t := by
    by_cases second : t.mon = 1
    · rw [leapsNow, if_pos second, Option.map_eq_some_iff] at february
      obtain ⟨year, kept, rfl⟩ := february
      rw [checked_some _ _ kept]
      by_cases leaps : isleap (t.year + 1900) = true <;> simp [leapDay, second, leaps]
    · rw [leapsNow, if_neg second] at february
      cases february
      simp [leapDay, second]
  rw [day] at done
  by_cases last : t.mon + 1 > 11
  · simp only [last, if_true, Option.bind_eq_some_iff] at done ⊢
    obtain ⟨year, kept, done⟩ := done
    rw [checked_some _ _ kept] at done
    exact (Option.some.inj done).symm
  · simp only [last, if_false] at done ⊢
    exact (Option.some.inj done).symm

/-- Bounds the rounds: January takes no days off. -/
def roundsLeft (t : Tm) : Nat := (2 * t.mday + if t.mon = 0 then 1 else 0).toNat

/-- A month of the year has an entry, and the next one ends at least 28 days later. -/
theorem spmAt_step (mon : Int) (inside : 0 ≤ mon ∧ mon ≤ 11) :
    spmAt mon + 28 ≤ spmAt (1 + mon) ∧ 0 ≤ spmAt mon ∧ (mon ≠ 0 → 31 ≤ spmAt mon) := by
  have entries : ∀ i : Fin 12, spmAt i + 28 ≤ spmAt (1 + i) ∧ 0 ≤ spmAt i ∧ ((i : Int) ≠ 0 → 31 ≤ spmAt i) := by decide
  obtain ⟨month, rfl⟩ := Int.eq_ofNat_of_zero_le inside.1
  exact entries ⟨month, by omega⟩

def dayLoop (t : Tm) : Option Tm :=
  if inside : 0 ≤ t.mon ∧ t.mon ≤ 11 then
    if more : t.mday > spmAt (1 + t.mon) then
      match known : dayRound t with
      | none => none
      | some next => dayLoop next
    else some t
  else none
termination_by roundsLeft t
decreasing_by
  have entries := spmAt_step t.mon inside
  have leaps : 0 ≤ leapDay t := by
    unfold leapDay
    split <;> decide
  rw [dayRound_eq t next known]
  unfold roundsLeft
  split
  · simp only [if_true]
    split <;> omega
  · simp only
    split <;> split <;> omega

/-- Days since 1970 before a year. -/
def daysSince (years : Int) : Int :=
  let day := years * 365 + (years + 1).tdiv 4
  if years ≥ 131 then
    let centuries := (years - 131).tdiv 100
    let day := day - (centuries >>> (2 : Nat) * 3 + 1)
    let odd := centuries % 4
    day - if odd = 3 then odd - 1 else odd
  else day

def mktimeAt (t : Tm) : Option (Int × Tm) := do
  let years ← checked (t.year - 70)
  let (sec, min) ← carry t.sec 60 t.min
  let (min, hour) ← carry min 60 t.hour
  let (hour, mday) ← carry hour 24 t.mday
  let (mon, year) ← carry t.mon 12 t.year
  let t ← dayLoop { t with sec, min, hour, mday, mon, year }
  if t.year < 70 then return (-1, t)
  let leap ← (checked (t.year + 1900)).map isleap
  let yday := spmAt t.mon + t.mday - 1 + if leap ∧ t.mon > 1 then 1 else 0
  let day := daysSince years + yday
  return (((day * 24 + t.hour) * 60 + t.min) * 60 + t.sec, { t with wday := (day + 4).tmod 7, yday })

end BekenSdk.Rtc
