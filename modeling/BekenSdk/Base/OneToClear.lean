import Mathlib.Data.BitVec
import Mathlib.Tactic.Common

/-! Registers with status bits that hardware sets and a written one clears. The
other bits take over what is written.
-/

set_option autoImplicit false

namespace BekenSdk.Base.OneToClear
variable {w : Nat} (status old value : BitVec w)

/-- What the register holds after a write. -/
def written : BitVec w := (value &&& ~~~status) ||| (old &&& ~~~value &&& status)

/-- What it holds after hardware events. -/
def raised (events : BitVec w) : BitVec w := old ||| (events &&& status)

variable {status old value} {events : BitVec w} {k : Nat}

theorem getLsbD_written (inside : k < w) : (written status old value).getLsbD k =
    if status.getLsbD k then old.getLsbD k && !value.getLsbD k else value.getLsbD k := by
  rw [written, BitVec.getLsbD_or, BitVec.getLsbD_and, BitVec.getLsbD_and, BitVec.getLsbD_and, BitVec.getLsbD_not,
    BitVec.getLsbD_not]
  cases status.getLsbD k <;> simp [inside]

theorem getLsbD_raised : (raised status old events).getLsbD k =
    (old.getLsbD k || (events.getLsbD k && status.getLsbD k)) := by
  rw [raised, BitVec.getLsbD_or, BitVec.getLsbD_and]

/-- A status bit that is written as zero stays, and one that is written as one is clear. -/
theorem getLsbD_written_status (inside : k < w) (bit : status.getLsbD k = true) :
    (written status old value).getLsbD k = (old.getLsbD k && !value.getLsbD k) := by
  rw [getLsbD_written inside, if_pos bit]

theorem getLsbD_written_other (inside : k < w) (bit : status.getLsbD k = false) :
    (written status old value).getLsbD k = value.getLsbD k := by
  rw [getLsbD_written inside, if_neg (by rw [bit]; decide)]

theorem getLsbD_raised_status (bit : status.getLsbD k = true) :
    (raised status old events).getLsbD k = (old.getLsbD k || events.getLsbD k) := by
  rw [getLsbD_raised, bit, Bool.and_true]

theorem getLsbD_raised_other (bit : status.getLsbD k = false) :
    (raised status old events).getLsbD k = old.getLsbD k := by
  rw [getLsbD_raised, bit, Bool.and_false, Bool.or_false]

/-! ## Bits of masks -/

theorem getLsbD_bit {m : Nat} (inside : k < w) : (1#w <<< m).getLsbD k = decide (k = m) := by
  rw [← BitVec.twoPow_eq, BitVec.getLsbD_twoPow]
  by_cases same : k = m
  · subst same
    simp [inside]
  · simp [same, Ne.symm same]

theorem and_bit_ne_zero (inside : k < w) : value &&& (1#w <<< k) ≠ 0#w ↔ value.getLsbD k = true := by
  constructor
  · intro up
    apply Classical.byContradiction
    intro down
    apply up
    apply BitVec.eq_of_getLsbD_eq
    intro i below
    rw [BitVec.getLsbD_and, getLsbD_bit below, BitVec.getLsbD_zero]
    by_cases same : i = k
    · subst same
      rw [eq_false_of_ne_true down, Bool.false_and]
    · rw [decide_eq_false same, Bool.and_false]
  · intro up zero
    have bit := congrArg (fun word => BitVec.getLsbD word k) zero
    rw [BitVec.getLsbD_and, getLsbD_bit inside, up, BitVec.getLsbD_zero, decide_eq_true rfl] at bit
    cases bit

/-- A field of ones. -/
theorem getLsbD_field {m n : Nat} (inside : k < w) :
    (BitVec.ofNat w (2 ^ n - 1) <<< m).getLsbD k = decide (m ≤ k ∧ k < m + n) := by
  rw [BitVec.getLsbD_shiftLeft, BitVec.getLsbD_ofNat, Nat.testBit_two_pow_sub_one]
  by_cases low : k < m
  · have outside : ¬(m ≤ k ∧ k < m + n) := by omega
    rw [decide_eq_true low, decide_eq_false outside]
    simp
  · have below : k - m < w := by omega
    have shifted : k - m < n ↔ k < m + n := by omega
    simp [inside, low, below, shifted, Nat.not_lt.mp low]

end BekenSdk.Base.OneToClear
