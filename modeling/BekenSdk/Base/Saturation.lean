import Mathlib.Algebra.Order.Group.Nat
import Mathlib.Tactic.Common

/-! Quotients of products that are cut to a word, against the quotient of the whole product with the largest word as
its bound.
-/

set_option autoImplicit false

namespace BekenSdk.Base

/-- A number, or the largest one below `2 ^ width`. -/
def saturated (width n : Nat) : Nat := min n (2 ^ width - 1)

variable {width product divisor : Nat}

theorem saturated_mono {m n : Nat} (le : m ≤ n) : saturated width m ≤ saturated width n :=
  min_le_min_right _ le

theorem saturated_of_lt {n : Nat} (small : n < 2 ^ width) : saturated width n = n :=
  min_eq_left (Nat.le_sub_one_of_lt small)

/-- A product that is cut loses more than one divisor from its quotient. -/
theorem wrapped_div_lt (positive : 0 < divisor) (small : divisor < 2 ^ width) (cut : 2 ^ width ≤ product) :
    product % 2 ^ width / divisor < product / divisor := by
  have rest : product % 2 ^ width + divisor ≤ product := by
    have whole := Nat.div_add_mod product (2 ^ width)
    have once : 2 ^ width ≤ 2 ^ width * (product / 2 ^ width) :=
      Nat.le_mul_of_pos_right _ (Nat.div_pos cut (Nat.two_pow_pos width))
    omega
  calc product % 2 ^ width / divisor < product % 2 ^ width / divisor + 1 := Nat.lt_succ_self _
    _ = (product % 2 ^ width + divisor) / divisor := (Nat.add_div_right _ positive).symm
    _ ≤ product / divisor := Nat.div_le_div_right rest

/-- What is left of an even product is not the largest word. -/
theorem wrapped_lt (wide : 0 < width) (even : 2 ∣ product) : product % 2 ^ width < 2 ^ width - 1 := by
  have below := Nat.mod_lt product (Nat.two_pow_pos width)
  have halves : 2 ∣ 2 ^ width := Nat.pow_dvd_pow 2 wide
  have rest : 2 ∣ product % 2 ^ width := (Nat.dvd_mod_iff halves).mpr even
  omega

/-- The quotient of the cut product is the bounded one exactly when nothing was cut. -/
theorem wrapped_div_iff (wide : 0 < width) (even : 2 ∣ product) (positive : 0 < divisor)
    (small : divisor < 2 ^ width) :
    product % 2 ^ width / divisor = saturated width (product / divisor) ↔ product < 2 ^ width := by
  constructor
  · intro right
    by_contra cut
    have less := wrapped_div_lt positive small (Nat.not_lt.mp cut)
    have under : product % 2 ^ width / divisor < 2 ^ width - 1 :=
      Nat.lt_of_le_of_lt (Nat.div_le_self _ _) (wrapped_lt wide even)
    exact absurd right (Nat.ne_of_lt (lt_min less under))
  · intro fits
    rw [Nat.mod_eq_of_lt fits, saturated_of_lt (Nat.lt_of_le_of_lt (Nat.div_le_self _ _) fits)]

end BekenSdk.Base
