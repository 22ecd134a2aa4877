import Mathlib.Data.List.Basic
import Mathlib.Tactic.Common

/-! Tables of slots. A used slot binds a key to a value, a free one binds nothing.
While no two slots bind the same key the table is a finite map: filling a free
slot adds a binding, freeing a slot removes its own one, and free slots at the
end change nothing.
-/

set_option autoImplicit false

namespace BekenSdk.Base.SlotTable
variable {K V : Type} [DecidableEq K] {slots : List (Option (K × V))} {key other : K} {value : V} {i : Nat}

/-- What a slot binds to the key. -/
def bound (key : K) : Option (K × V) → Option V
  | some (k, value) => if k = key then some value else none
  | none => none

def lookup (slots : List (Option (K × V))) (key : K) : Option V := slots.findSome? (bound key)

/-- Two slots that bind one key are the same slot. -/
def Distinct (slots : List (Option (K × V))) : Prop :=
  ∀ ⦃i j : Nat⦄ ⦃key : K⦄ ⦃v w : V⦄, slots[i]? = some (some (key, v)) → slots[j]? = some (some (key, w)) → i = j

theorem bound_eq_some {slot : Option (K × V)} : bound key slot = some value ↔ slot = some (key, value) := by
  match slot with
  | none => simp [bound]
  | some (k, v) =>
    simp only [bound, Option.some.injEq, Prod.mk.injEq]
    split <;> simp_all

theorem lookup_eq_some (found : lookup slots key = some value) : ∃ i : Nat, slots[i]? = some (some (key, value)) := by
  obtain ⟨slot, member, binds⟩ := List.exists_of_findSome?_eq_some found
  rw [bound_eq_some] at binds
  rw [binds] at member
  exact List.mem_iff_getElem?.mp member

theorem lookup_eq_none : lookup slots key = none ↔ ∀ (i : Nat) (v : V), slots[i]? ≠ some (some (key, v)) := by
  rw [lookup, List.findSome?_eq_none_iff]
  constructor
  · intro free i v slot
    have binds := free _ (List.mem_of_getElem? slot)
    rw [bound_eq_some.mpr rfl] at binds
    cases binds
  · intro absent slot member
    cases binds : bound key slot with
    | none => rfl
    | some v =>
      rw [bound_eq_some.mp binds] at member
      obtain ⟨i, slot⟩ := List.mem_iff_getElem?.mp member
      exact absurd slot (absent i v)

theorem lookup_of_slot (distinct : Distinct slots) (slot : slots[i]? = some (some (key, value))) :
    lookup slots key = some value := by
  cases found : lookup slots key with
  | none => exact absurd slot (lookup_eq_none.mp found i value)
  | some v =>
    obtain ⟨j, there⟩ := lookup_eq_some found
    rw [distinct slot there, there] at slot
    rw [(Prod.mk.inj (Option.some.inj (Option.some.inj slot))).2]

theorem lookup_iff (distinct : Distinct slots) :
    lookup slots key = some value ↔ ∃ i : Nat, slots[i]? = some (some (key, value)) :=
  ⟨lookup_eq_some, fun ⟨_, slot⟩ => lookup_of_slot distinct slot⟩

/-! ## What the operations do to the map -/

/-- Tables with the same bindings are the same map. -/
theorem lookup_congr {others : List (Option (K × V))} (distinct : Distinct slots) (apart : Distinct others)
    (same : ∀ v, (∃ i : Nat, slots[i]? = some (some (key, v))) ↔ ∃ i : Nat, others[i]? = some (some (key, v))) :
    lookup slots key = lookup others key := by
  apply Option.ext
  intro v
  rw [lookup_iff distinct, lookup_iff apart, same v]

omit [DecidableEq K] in
theorem getElem?_fill {slot : Option (K × V)} {j : Nat} (used : i < slots.length) :
    (slots.set i slot)[j]? = if i = j then some slot else slots[j]? := by
  rw [List.getElem?_set, if_pos used]

theorem Distinct.fill (distinct : Distinct slots) (inside : i < slots.length)
    (fresh : lookup slots key = none) : Distinct (slots.set i (some (key, value))) := by
  intro j k other v w first second
  rw [getElem?_fill inside] at first second
  split at first <;> split at second
  · omega
  · cases first
    exact absurd second (lookup_eq_none.mp fresh k w)
  · cases second
    exact absurd first (lookup_eq_none.mp fresh j v)
  · exact distinct first second

theorem lookup_fill (distinct : Distinct slots) (free : slots[i]? = some none) (fresh : lookup slots key = none) :
    lookup (slots.set i (some (key, value))) other = if other = key then some value else lookup slots other := by
  have inside : i < slots.length := (List.getElem?_eq_some_iff.mp free).1
  have kept := @Distinct.fill _ _ _ _ _ value _ distinct inside fresh
  split
  next same =>
    apply lookup_of_slot kept (i := i)
    rw [getElem?_fill inside, if_pos rfl, same]
  next different =>
    apply lookup_congr kept distinct
    intro v
    constructor
    · rintro ⟨j, slot⟩
      rw [getElem?_fill inside] at slot
      split at slot
      · cases slot
        exact absurd rfl different
      · exact ⟨j, slot⟩
    · rintro ⟨j, slot⟩
      refine ⟨j, ?_⟩
      rw [getElem?_fill inside, if_neg, slot]
      rintro rfl
      rw [free] at slot
      cases slot

omit [DecidableEq K] in
theorem Distinct.clear (distinct : Distinct slots) (inside : i < slots.length) : Distinct (slots.set i none) := by
  intro j k other v w first second
  rw [getElem?_fill inside] at first second
  split at first
  · cases first
  · split at second
    · cases second
    · exact distinct first second

theorem lookup_clear (distinct : Distinct slots) (slot : slots[i]? = some (some (key, value))) :
    lookup (slots.set i none) other = if other = key then none else lookup slots other := by
  have inside : i < slots.length := (List.getElem?_eq_some_iff.mp slot).1
  split
  next same =>
    subst same
    refine lookup_eq_none.mpr fun j v there => ?_
    rw [getElem?_fill inside] at there
    split at there
    · cases there
    next elsewhere => exact elsewhere (distinct slot there)
  next different =>
    apply lookup_congr (distinct.clear inside) distinct
    intro v
    constructor
    · rintro ⟨j, there⟩
      rw [getElem?_fill inside] at there
      split at there
      · cases there
      · exact ⟨j, there⟩
    · rintro ⟨j, there⟩
      refine ⟨j, ?_⟩
      rw [getElem?_fill inside, if_neg, there]
      rintro rfl
      rw [slot] at there
      cases there
      exact different rfl

omit [DecidableEq K] in
theorem slot_of_grown {count : Nat} {v : V} :
    (slots ++ List.replicate count none)[i]? = some (some (key, v)) ↔ slots[i]? = some (some (key, v)) := by
  rw [List.getElem?_append]
  split
  · rfl
  next outside =>
    rw [List.getElem?_eq_none (by omega : slots.length ≤ i), List.getElem?_replicate]
    split <;> simp

omit [DecidableEq K] in
theorem Distinct.grow {count : Nat} (distinct : Distinct slots) : Distinct (slots ++ List.replicate count none) := by
  intro j k other v w first second
  exact distinct (slot_of_grown.mp first) (slot_of_grown.mp second)

theorem lookup_grow (slots : List (Option (K × V))) (count : Nat) :
    lookup (slots ++ List.replicate count none) key = lookup slots key := by
  rw [lookup, List.findSome?_append, List.findSome?_replicate]
  simp [bound, lookup]

end BekenSdk.Base.SlotTable
