import Mathlib.Data.List.Nodup
import Mathlib.Logic.Function.Basic
import Mathlib.Tactic.Common

/-! Tables that mirror resources kept elsewhere. Every resource has a number of its
own, a kind and the owner it was made for; the table tells an owner the number and
the kind of its resource. Making a resource for an owner without one and deleting
one by its number keep the mirror.
-/

set_option autoImplicit false

namespace BekenSdk.Base

structure Resource (N K O : Type) where
  number : N
  kind : K
  owner : O
  deriving DecidableEq

/-- The table has exactly the resources, and their numbers differ. -/
structure Mirrors {N K O : Type} (table : O → Option (N × K)) (resources : List (Resource N K O)) : Prop where
  exact (owner : O) (number : N) (kind : K) : table owner = some (number, kind) ↔ ⟨number, kind, owner⟩ ∈ resources
  distinct : (resources.map Resource.number).Nodup

namespace Mirrors
variable {N K O : Type} {table : O → Option (N × K)} {resources : List (Resource N K O)} {owner : O} {number : N}
  {kind : K}

theorem empty : Mirrors (fun _ => none) ([] : List (Resource N K O)) where
  exact _ _ _ := ⟨nofun, nofun⟩
  distinct := List.nodup_nil

/-- An owner has nothing in the table when no resource is its own. -/
theorem none_iff (mirrors : Mirrors table resources) : table owner = none ↔ ∀ r ∈ resources, r.owner ≠ owner := by
  constructor
  · rintro free r member rfl
    have owned := (mirrors.exact r.owner r.number r.kind).mpr member
    rw [free] at owned
    cases owned
  · intro others
    cases found : table owner with
    | none => rfl
    | some entry => exact absurd rfl (others _ ((mirrors.exact owner entry.1 entry.2).mp found))

theorem eq_of_number (mirrors : Mirrors table resources) {r other : Resource N K O} (member : r ∈ resources)
    (there : other ∈ resources) (same : r.number = other.number) : r = other :=
  List.inj_on_of_nodup_map mirrors.distinct member there same

/-- The number that the table has for an owner is that of its own resource and of no other. -/
theorem number_iff (mirrors : Mirrors table resources) (found : table owner = some (number, kind))
    {r : Resource N K O} (member : r ∈ resources) : r.number = number ↔ r.owner = owner := by
  have own := (mirrors.exact owner number kind).mp found
  constructor
  · intro same
    rw [mirrors.eq_of_number member own same]
  · rintro rfl
    have again := (mirrors.exact r.owner r.number r.kind).mpr member
    rw [found] at again
    exact (congrArg Prod.fst (Option.some.inj again)).symm

theorem create [DecidableEq O] (mirrors : Mirrors table resources) (free : table owner = none)
    (fresh : ∀ r ∈ resources, r.number ≠ number) :
    Mirrors (Function.update table owner (some (number, kind))) (⟨number, kind, owner⟩ :: resources) where
  exact other m k := by
    by_cases same : other = owner
    · subst same
      rw [Function.update_self]
      constructor
      · intro equal
        obtain ⟨rfl, rfl⟩ := Prod.mk.inj (Option.some.inj equal)
        exact List.mem_cons_self
      · intro member
        cases List.mem_cons.mp member with
        | inl equal =>
          cases equal
          rfl
        | inr member => exact absurd rfl (mirrors.none_iff.mp free _ member)
    · rw [Function.update_of_ne same, mirrors.exact]
      constructor
      · exact List.mem_cons_of_mem _
      · intro member
        cases List.mem_cons.mp member with
        | inl equal =>
          cases equal
          exact absurd rfl same
        | inr member => exact member
  distinct := by
    refine List.nodup_cons.mpr ⟨fun member => ?_, mirrors.distinct⟩
    obtain ⟨r, there, same⟩ := List.mem_map.mp member
    exact fresh r there same

theorem delete [DecidableEq N] [DecidableEq O] (mirrors : Mirrors table resources)
    (found : table owner = some (number, kind)) :
    Mirrors (Function.update table owner none) (resources.filter fun r => r.number ≠ number) where
  exact other m k := by
    rw [List.mem_filter, decide_eq_true_eq]
    by_cases same : other = owner
    · subst same
      rw [Function.update_self]
      refine ⟨nofun, fun ⟨member, differs⟩ => absurd ?_ differs⟩
      exact (mirrors.number_iff found member).mpr rfl
    · rw [Function.update_of_ne same, mirrors.exact]
      refine ⟨fun member => ⟨member, fun equal => ?_⟩, And.left⟩
      exact same ((mirrors.number_iff found member).mp equal)
  distinct := mirrors.distinct.sublist (List.filter_sublist.map _)

/-- A resource that is made is one more of its kind. -/
theorem countP_create [DecidableEq K] (other : K) :
    (⟨number, kind, owner⟩ :: resources).countP (fun r => r.kind = other) =
      resources.countP (fun r => r.kind = other) + if kind = other then 1 else 0 := by
  rw [List.countP_cons]
  simp only [decide_eq_true_eq]

/-- A resource that is deleted is one less of its kind. -/
theorem countP_delete [DecidableEq N] [DecidableEq K] (mirrors : Mirrors table resources)
    (found : table owner = some (number, kind)) (other : K) :
    (resources.filter fun r => r.number ≠ number).countP (fun r => r.kind = other) +
        (if kind = other then 1 else 0) =
      resources.countP fun r => r.kind = other := by
  have own := (mirrors.exact owner number kind).mp found
  have distinct := mirrors.distinct
  have unique : ∀ r ∈ resources, r.number = number → r = ⟨number, kind, owner⟩ :=
    fun r member same => mirrors.eq_of_number member own same
  clear mirrors found
  induction resources with
  | nil => cases own
  | cons r rest ih =>
    obtain ⟨differs, distinct⟩ := List.nodup_cons.mp distinct
    by_cases same : r.number = number
    · obtain rfl := unique r List.mem_cons_self same
      have kept : rest.filter (fun r => r.number ≠ number) = rest := by
        refine List.filter_eq_self.mpr fun other member => decide_eq_true fun equal => differs ?_
        exact List.mem_map.mpr ⟨other, member, equal⟩
      rw [List.filter_cons_of_neg (by simp), kept, countP_create]
    · have there : ⟨number, kind, owner⟩ ∈ rest := by
        cases List.mem_cons.mp own with
        | inl equal =>
          subst equal
          exact absurd rfl same
        | inr member => exact member
      rw [List.filter_cons_of_pos (by simpa using same), List.countP_cons, List.countP_cons,
        ← ih there distinct fun r member => unique r (List.mem_cons_of_mem _ member)]
      exact Nat.add_right_comm _ _ _

end Mirrors

end BekenSdk.Base
