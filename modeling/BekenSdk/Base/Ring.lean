import Mathlib.Data.List.Rotate
import Mathlib.Data.Nat.ModEq
import Mathlib.Logic.Function.Basic

/-! Slots in a circle. `around` lists them once round from a position on, so
that a program that steps along the circle is read as one that works at the
front of a list.
-/

set_option autoImplicit false

namespace BekenSdk.Base

section
variable {α : Type} (slots : Nat → α) (size : Nat)

def around (pos : Nat) : List α := (List.range size).map fun i => slots ((pos + i) % size)

variable {slots size} {pos i k : Nat} {v : α}

@[simp] theorem around_length : (around slots size pos).length = size := by
  rw [around, List.length_map, List.length_range]

theorem around_getElem (inside : i < (around slots size pos).length) :
    (around slots size pos)[i] = slots ((pos + i) % size) := by
  simp only [around, List.getElem_map, List.getElem_range]

theorem around_getElem? (inside : i < size) : (around slots size pos)[i]? = some (slots ((pos + i) % size)) := by
  rw [List.getElem?_eq_getElem (around_length.symm ▸ inside), around_getElem]

theorem around_head? (positive : 0 < size) (inside : pos < size) :
    (around slots size pos).head? = some (slots pos) := by
  rw [List.head?_eq_getElem?, around_getElem? positive, Nat.add_zero, Nat.mod_eq_of_lt inside]

theorem around_add : around slots size ((pos + k) % size) = (around slots size pos).rotate k := by
  apply List.ext_getElem
  · simp
  · intro i _ _
    rw [List.getElem_rotate, around_getElem, around_getElem]
    congr 1
    rw [around_length, Nat.mod_add_mod, Nat.add_mod_mod, Nat.add_assoc, Nat.add_comm k i]

/-- Two places of one round are two slots. -/
theorem place_inj {j : Nat} (first : i < size) (second : j < size) :
    (pos + i) % size = (pos + j) % size ↔ i = j := by
  constructor
  · intro same
    have step := Nat.ModEq.add_left_cancel' pos same
    rwa [Nat.ModEq, Nat.mod_eq_of_lt first, Nat.mod_eq_of_lt second] at step
  · rintro rfl
    rfl

theorem around_update (inside : i < size) :
    around (Function.update slots ((pos + i) % size) v) size pos = (around slots size pos).set i v := by
  apply List.ext_getElem
  · simp
  · intro j here _
    rw [around_length] at here
    rw [around_getElem, List.getElem_set, around_getElem]
    by_cases same : i = j
    · subst same
      rw [if_pos rfl, Function.update_self]
    · rw [if_neg same, Function.update_of_ne]
      exact fun clash => same ((place_inj here inside).mp clash).symm

/-- The front slot is given up and becomes the last one. -/
theorem around_advance (positive : 0 < size) (inside : pos < size) :
    around (Function.update slots pos v) size ((pos + 1) % size) = (around slots size pos).tail ++ [v] := by
  have front : around (Function.update slots pos v) size pos = (around slots size pos).set 0 v := by
    have moved := @around_update _ slots _ pos _ v positive
    rwa [Nat.add_zero, Nat.mod_eq_of_lt inside] at moved
  rw [around_add, front]
  cases listed : around slots size pos with
  | nil =>
    have none := congrArg List.length listed
    rw [around_length] at none
    exact absurd none positive.ne'
  | cons first rest => simp

/-- What the slots hold, and one slot more. -/
theorem filterMap_update_perm {β : Type} {slots : Nat → Option β} (inside : i < size) (b : β) :
    ((List.range size).filterMap (Function.update slots i (some b))).Perm
      (b :: (List.range size).filterMap (Function.update slots i none)) := by
  have once : (List.range size).Perm (i :: (List.range size).erase i) :=
    List.perm_cons_erase (List.mem_range.mpr inside)
  have others : ((List.range size).erase i).filterMap (Function.update slots i (some b)) =
      ((List.range size).erase i).filterMap (Function.update slots i none) := by
    apply List.filterMap_congr
    intro j member
    have different : j ≠ i := fun same => List.nodup_range.not_mem_erase (same ▸ member)
    rw [Function.update_of_ne different, Function.update_of_ne different]
  have full := once.filterMap (Function.update slots i (some b))
  have free := once.filterMap (Function.update slots i none)
  rw [List.filterMap_cons_some (Function.update_self ..), others] at full
  rw [List.filterMap_cons_none (Function.update_self ..)] at free
  exact full.trans (free.symm.cons b)

end

end BekenSdk.Base
