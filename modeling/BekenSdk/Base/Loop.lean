import Mathlib.Data.Nat.Find
import Mathlib.Logic.Function.Iterate
import Mathlib.Tactic.Common

/-! Loops that need not come to an end. `loop` runs the body while the test
holds, for as many rounds as it is given; the loop of the program returns when
some number of rounds is enough. What it returns is the first state in which the
test fails.
-/

set_option autoImplicit false

namespace BekenSdk.Base

section
variable {S : Type} (test : S → Prop) [DecidablePred test] (body : S → S)

def loop : Nat → S → Option S
  | 0, s => if test s then none else some s
  | fuel + 1, s => if test s then loop fuel (body s) else some s

/-- The state after the rounds, all of which the loop goes through. -/
def Rounds (s : S) (rounds : Nat) : Prop := ∀ j, j < rounds → test (body^[j] s)

variable {test body} {s final : S}

theorem loop_rounds {fuel : Nat} (returned : loop test body fuel s = some final) :
    ∃ rounds, Rounds test body s rounds ∧ ¬test (body^[rounds] s) ∧ final = body^[rounds] s := by
  have stop : ∀ {s : S}, ¬test s → final = s →
      ∃ rounds, Rounds test body s rounds ∧ ¬test (body^[rounds] s) ∧ final = body^[rounds] s :=
    fun ended same => ⟨0, fun j early => absurd early (Nat.not_lt_zero j), ended, same⟩
  induction fuel generalizing s with
  | zero =>
    rw [loop] at returned
    split at returned
    · cases returned
    next ended => exact stop ended (Option.some.inj returned).symm
  | succ fuel ih =>
    rw [loop] at returned
    split at returned
    next on =>
      obtain ⟨rounds, through, ended, same⟩ := ih returned
      refine ⟨rounds + 1, fun j early => ?_, ended, same⟩
      cases j with
      | zero => exact on
      | succ j => exact through j (Nat.lt_of_succ_lt_succ early)
    next ended => exact stop ended (Option.some.inj returned).symm

theorem loop_of_rounds {rounds : Nat} (through : Rounds test body s rounds) (ended : ¬test (body^[rounds] s)) :
    loop test body rounds s = some (body^[rounds] s) := by
  induction rounds generalizing s with
  | zero => exact if_neg ended
  | succ rounds ih =>
    have on : test s := through 0 (Nat.succ_pos _)
    rw [loop, if_pos on]
    exact ih (fun j early => through (j + 1) (Nat.succ_lt_succ early)) ended

/-- The program's loop returns a state when the rounds lead to it. -/
theorem returns_iff : (∃ fuel, loop test body fuel s = some final) ↔
    ∃ rounds, Rounds test body s rounds ∧ ¬test (body^[rounds] s) ∧ final = body^[rounds] s := by
  constructor
  · rintro ⟨fuel, returned⟩
    exact loop_rounds returned
  · rintro ⟨rounds, through, ended, rfl⟩
    exact ⟨rounds, loop_of_rounds through ended⟩

omit [DecidablePred test] in
/-- No two exits. -/
theorem rounds_unique {m n : Nat} (first : Rounds test body s m) (ended : ¬test (body^[m] s))
    (second : Rounds test body s n) (done : ¬test (body^[n] s)) : m = n := by
  apply Nat.le_antisymm
  · exact Nat.le_of_not_lt fun later => done (first n later)
  · exact Nat.le_of_not_lt fun later => ended (second m later)

theorem returned_unique {m n : Nat} {other : S} (first : loop test body m s = some final)
    (second : loop test body n s = some other) : final = other := by
  obtain ⟨rounds, through, ended, rfl⟩ := loop_rounds first
  obtain ⟨_, through', ended', rfl⟩ := loop_rounds second
  rw [rounds_unique through ended through' ended']

omit [DecidablePred test] in
/-- A measure that is bounded while the loop is on, and grows again and again, ends it. -/
theorem exists_exit (measure : S → Nat) (bound : Nat) (bounded : ∀ t, test t → measure t < bound)
    (grows : ∀ k, (∀ j, test (body^[j] s)) → ∃ later, measure (body^[k] s) < measure (body^[later] s)) :
    ∃ k, ¬test (body^[k] s) := by
  by_contra forever
  have on : ∀ j, test (body^[j] s) := fun j => not_not.mp fun ended => forever ⟨j, ended⟩
  have reached : ∀ m, ∃ k, m ≤ measure (body^[k] s) := by
    intro m
    induction m with
    | zero => exact ⟨0, Nat.zero_le _⟩
    | succ m ih =>
      obtain ⟨k, far⟩ := ih
      obtain ⟨later, farther⟩ := grows k on
      exact ⟨later, Nat.succ_le_of_lt (Nat.lt_of_le_of_lt far farther)⟩
  obtain ⟨k, far⟩ := reached bound
  exact absurd (bounded _ (on k)) (Nat.not_lt.mpr far)

end

end BekenSdk.Base
