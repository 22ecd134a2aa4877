import Mathlib.Order.Lattice
import Mathlib.Data.List.Basic

/-! Sorting in place by exchanges: the element at each position goes along the ones behind it and takes the place of the
next one that belongs before it.
-/

set_option autoImplicit false

namespace BekenSdk.Base
variable {α β : Type} [LinearOrder β] (key : α → β)

/-- What is left at the position, and what is behind it then. -/
def exchangeAlong (elem : α) : List α → α × List α
  | [] => (elem, [])
  | next :: rest =>
    if key elem < key next then
      ((exchangeAlong next rest).1, elem :: (exchangeAlong next rest).2)
    else
      ((exchangeAlong elem rest).1, next :: (exchangeAlong elem rest).2)

def exchangeRounds : Nat → List α → List α
  | rounds + 1, elem :: rest => (exchangeAlong key elem rest).1 :: exchangeRounds rounds (exchangeAlong key elem rest).2
  | _, elems => elems

/-- The largest key comes first. -/
def exchangeSort (elems : List α) : List α := exchangeRounds key elems.length elems

theorem exchangeAlong_perm (elem : α) (rest : List α) :
    ((exchangeAlong key elem rest).1 :: (exchangeAlong key elem rest).2).Perm (elem :: rest) := by
  induction rest generalizing elem with
  | nil => exact List.Perm.refl _
  | cons next rest ih =>
    unfold exchangeAlong
    split
    · exact (List.Perm.swap _ _ _).trans ((ih next).cons elem)
    · exact (List.Perm.swap _ _ _).trans (((ih elem).cons next).trans (List.Perm.swap _ _ _))

theorem exchangeAlong_length (elem : α) (rest : List α) : (exchangeAlong key elem rest).2.length = rest.length :=
  Nat.succ.inj (exchangeAlong_perm key elem rest).length_eq

/-- What is left is no smaller than the element nor than any behind it. -/
theorem exchangeAlong_max (elem : α) (rest : List α) :
    ∀ other ∈ elem :: rest, key other ≤ key (exchangeAlong key elem rest).1 := by
  induction rest generalizing elem with
  | nil => exact fun other member => List.mem_singleton.1 member ▸ le_refl _
  | cons next rest ih =>
    unfold exchangeAlong
    split
    case isTrue smaller =>
      exact List.forall_mem_cons.2 ⟨smaller.le.trans (ih next next List.mem_cons_self), ih next⟩
    case isFalse least =>
      have most := List.forall_mem_cons.1 (ih elem)
      exact List.forall_mem_cons.2 ⟨most.1, List.forall_mem_cons.2 ⟨(not_lt.1 least).trans most.1, most.2⟩⟩

theorem exchangeRounds_perm (rounds : Nat) (elems : List α) : (exchangeRounds key rounds elems).Perm elems := by
  induction rounds generalizing elems with
  | zero => cases elems <;> exact List.Perm.refl _
  | succ rounds ih =>
    cases elems with
    | nil => exact List.Perm.refl _
    | cons elem rest => exact ((ih _).cons _).trans (exchangeAlong_perm key elem rest)

theorem exchangeRounds_sorted (rounds : Nat) (elems : List α) (all : elems.length ≤ rounds) :
    (exchangeRounds key rounds elems).Pairwise fun first later => key later ≤ key first := by
  induction rounds generalizing elems with
  | zero =>
    rw [List.length_eq_zero_iff.1 (Nat.le_zero.1 all)]
    exact List.Pairwise.nil
  | succ rounds ih =>
    cases elems with
    | nil => exact List.Pairwise.nil
    | cons elem rest =>
      refine List.Pairwise.cons ?_ (ih _ (exchangeAlong_length key elem rest ▸ Nat.le_of_succ_le_succ all))
      intro later member
      have behind := (exchangeRounds_perm key rounds _).mem_iff.1 member
      have listed := (exchangeAlong_perm key elem rest).mem_iff.1 (List.mem_cons_of_mem _ behind)
      exact exchangeAlong_max key elem rest later listed

theorem exchangeSort_perm (elems : List α) : (exchangeSort key elems).Perm elems := exchangeRounds_perm key _ elems

theorem exchangeSort_sorted (elems : List α) :
    (exchangeSort key elems).Pairwise fun first later => key later ≤ key first :=
  exchangeRounds_sorted key _ elems (Nat.le_refl _)

end BekenSdk.Base
