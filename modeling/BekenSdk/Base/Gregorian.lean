import Mathlib.Order.ConditionallyCompleteLattice.Basic
import Mathlib.Data.Int.ConditionallyCompleteOrder

/-! The proleptic Gregorian calendar: lengths of years and months, and days counted from the start of an epoch's year.
Months are counted from 0.
-/

set_option autoImplicit false

namespace BekenSdk.Base.Gregorian

def Leap (year : Int) : Prop := year % 4 = 0 ∧ (year % 100 ≠ 0 ∨ year % 400 = 0)

instance (year : Int) : Decidable (Leap year) := inferInstanceAs (Decidable (_ ∧ _))

def yearDays (year : Int) : Int := if Leap year then 366 else 365

def monthDays (year : Int) : Nat → Int
  | 1 => if Leap year then 29 else 28
  | 3 | 5 | 8 | 10 => 30
  | _ => 31

/-- Days of the first so many years of an epoch. -/
def daysFrom (epoch : Int) : Nat → Int
  | 0 => 0
  | years + 1 => daysFrom epoch years + yearDays (epoch + years)

/-- Days of a year before a month. -/
def monthStart (year : Int) : Nat → Int
  | 0 => 0
  | month + 1 => monthStart year month + monthDays year month

section Years
variable (epoch : Int)

theorem yearDays_pos (year : Int) : 0 < yearDays year := by
  unfold yearDays
  split <;> decide

theorem daysFrom_strictMono : StrictMono (daysFrom epoch) :=
  strictMono_nat_of_lt_succ fun years => by
    have positive := yearDays_pos (epoch + years)
    simp only [daysFrom]
    omega

end Years

end BekenSdk.Base.Gregorian
