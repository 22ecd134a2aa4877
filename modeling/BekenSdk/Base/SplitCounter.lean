import Mathlib.Order.Monotone.Basic

/-! Counters that are read through two fields: the low one holds the count below
the radix, the high one the carries. A reader sees the fields at different
instants.
-/

set_option autoImplicit false

namespace BekenSdk.Base

/-- What a counter holds at every instant. It never runs back and fits its two fields. -/
structure SplitCounter (radix span : Nat) where
  value : Nat → Nat
  monotone : Monotone value
  bounded : ∀ instant, value instant < radix * span

namespace SplitCounter
variable {radix span : Nat} (counter : SplitCounter radix span)

def low (instant : Nat) : Nat := counter.value instant % radix

def high (instant : Nat) : Nat := counter.value instant / radix

theorem recombined (instant : Nat) : radix * counter.high instant + counter.low instant = counter.value instant :=
  Nat.div_add_mod _ _

theorem high_lt (instant : Nat) : counter.high instant < span :=
  Nat.div_lt_of_lt_mul (counter.bounded instant)

theorem high_mono : Monotone counter.high :=
  fun _ _ ordered => Nat.div_le_div_right (counter.monotone ordered)

/-- A high field that is the same before and after was the same in between. -/
theorem high_between {early middle late : Nat} (before : early ≤ middle) (after : middle ≤ late)
    (same : counter.high early = counter.high late) : counter.high middle = counter.high early := by
  apply Nat.le_antisymm
  · rw [same]
    exact counter.high_mono after
  · exact counter.high_mono before

/-- A low field that is read between two equal reads of the high field belongs to it. -/
theorem enclosed {early middle late : Nat} (before : early ≤ middle) (after : middle ≤ late)
    (same : counter.high early = counter.high late) :
    radix * counter.high early + counter.low middle = counter.value middle := by
  rw [← counter.high_between before after same]
  exact counter.recombined middle

end SplitCounter

end BekenSdk.Base
