import Mathlib.Data.List.Sort

/-! Insertion sort as it is done in place on a doubly linked list: each element in turn is
moved back behind the nearest one that may stand before it.
-/

set_option autoImplicit false

namespace BekenSdk.Base
variable {α : Type} (r : α → α → Prop) [DecidableRel r]

/-- What is sorted so far is kept nearest first, the way it is scanned. -/
def backwardSort (elems : List α) : List α :=
  (elems.foldl (fun done elem => done.orderedInsert (fun i j => r j i) elem) []).reverse

theorem backwardSort_eq (elems : List α) :
    backwardSort r elems = (elems.reverse.insertionSort fun i j => r j i).reverse := by
  rw [backwardSort, List.insertionSort, List.foldr_reverse]

theorem backwardSort_perm (elems : List α) : (backwardSort r elems).Perm elems := by
  rw [backwardSort_eq]
  have sorted := List.perm_insertionSort (fun i j => r j i) elems.reverse
  exact (List.reverse_perm _).trans (sorted.trans (List.reverse_perm _))

theorem backwardSort_sorted [total : Std.Total r] [IsTrans α r] (elems : List α) :
    (backwardSort r elems).Pairwise r := by
  have flipped : Std.Total fun i j => r j i := ⟨fun i j => total.total j i⟩
  have chained : IsTrans α fun i j => r j i := ⟨fun i j k first second => IsTrans.trans k j i second first⟩
  rw [backwardSort_eq, List.pairwise_reverse]
  exact List.pairwise_insertionSort _ _

/-- The sort is stable: what is in order stays as it is. -/
theorem backwardSort_of_sorted {elems : List α} (sorted : elems.Pairwise r) : backwardSort r elems = elems := by
  rw [backwardSort_eq, List.Pairwise.insertionSort_eq (List.pairwise_reverse.mpr sorted), List.reverse_reverse]

end BekenSdk.Base
