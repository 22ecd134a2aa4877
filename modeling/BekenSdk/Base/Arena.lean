import Mathlib.Data.List.Perm.Basic
import Mathlib.Data.List.Nodup
import Mathlib.Logic.Function.Basic

/-! Blocks of memory that are allocated and freed by hand. Nothing is unsafe
here: reading or freeing a block that is not live goes through, as it does on
the machine, and is written down. A program owns its memory when nothing was
written down and its references, with the freed blocks, list every block once.
-/

set_option autoImplicit false

namespace BekenSdk.Base

structure Arena (α : Type) where
  count : Nat
  content : Nat → α
  freed : List Nat
  misused : List Nat

namespace Arena
variable {α : Type}

/-- No block has been allocated; memory holds anything. -/
def empty (content : Nat → α) : Arena α := ⟨0, content, [], []⟩

def Live (arena : Arena α) (block : Nat) : Prop := block < arena.count ∧ block ∉ arena.freed

instance (arena : Arena α) (block : Nat) : Decidable (arena.Live block) := inferInstanceAs (Decidable (_ ∧ _))

def alloc (value : α) (arena : Arena α) : Arena α :=
  { arena with count := arena.count + 1, content := Function.update arena.content arena.count value }

/-- An access to a block. -/
def access (block : Nat) (arena : Arena α) : Arena α :=
  if arena.Live block then arena else { arena with misused := block :: arena.misused }

def free (block : Nat) (arena : Arena α) : Arena α :=
  { arena.access block with freed := block :: arena.freed }

@[simp] theorem access_content (block : Nat) (arena : Arena α) : (arena.access block).content = arena.content := by
  rw [access]
  split <;> rfl

@[simp] theorem access_count (block : Nat) (arena : Arena α) : (arena.access block).count = arena.count := by
  rw [access]
  split <;> rfl

@[simp] theorem access_freed (block : Nat) (arena : Arena α) : (arena.access block).freed = arena.freed := by
  rw [access]
  split <;> rfl

/-! ## Ownership -/

structure Owned (refs : List Nat) (arena : Arena α) : Prop where
  unmisused : arena.misused = []
  each : (refs ++ arena.freed).Perm (List.range arena.count)

namespace Owned
variable {refs : List Nat} {arena : Arena α} {block : Nat}

theorem empty (content : Nat → α) : Owned [] (Arena.empty content) := ⟨rfl, List.Perm.refl _⟩

/-- The order of the references does not matter. -/
theorem reorder {other : List Nat} (owned : Owned refs arena) (same : other.Perm refs) : Owned other arena :=
  ⟨owned.unmisused, (same.append_right _).trans owned.each⟩

theorem nodup (owned : Owned refs arena) : (refs ++ arena.freed).Nodup :=
  owned.each.nodup_iff.mpr List.nodup_range

/-- What is referenced is live, and the other way round. -/
theorem mem_iff (owned : Owned refs arena) : block ∈ refs ↔ arena.Live block := by
  have listed : block ∈ refs ++ arena.freed ↔ block < arena.count := by
    rw [owned.each.mem_iff, List.mem_range]
  have apart := List.disjoint_of_nodup_append owned.nodup
  constructor
  · intro member
    exact ⟨listed.mp (List.mem_append_left _ member), fun gone => apart member gone⟩
  · rintro ⟨known, kept⟩
    exact (List.mem_append.mp (listed.mpr known)).resolve_right kept

/-- A reference that goes without its block being freed is missed. -/
theorem exact (owned : Owned (block :: refs) arena) : ¬Owned refs arena := by
  intro other
  have more := owned.each.length_eq
  rw [← other.each.length_eq] at more
  simp at more

/-- Every block is referenced once or was freed once, and never both. -/
theorem count_add (owned : Owned refs arena) (known : block < arena.count) :
    refs.count block + arena.freed.count block = 1 := by
  rw [← List.count_append, owned.each.count_eq]
  exact List.count_eq_one_of_mem List.nodup_range (List.mem_range.mpr known)

theorem alloc (owned : Owned refs arena) (value : α) : Owned (arena.count :: refs) (arena.alloc value) := by
  refine ⟨owned.unmisused, ?_⟩
  have fresh : (arena.count :: refs ++ arena.freed).Perm (List.range arena.count ++ [arena.count]) :=
    (owned.each.cons _).trans (List.perm_append_singleton _ _).symm
  simpa only [Arena.alloc, List.range_succ] using fresh

/-- An owner reads its blocks without a trace. -/
theorem access_eq (owned : Owned refs arena) (member : block ∈ refs) : arena.access block = arena :=
  if_pos (owned.mem_iff.mp member)

theorem free (owned : Owned (block :: refs) arena) : Owned refs (arena.free block) := by
  have same := owned.access_eq List.mem_cons_self
  constructor
  · simpa only [Arena.free, same] using owned.unmisused
  · have moved : (refs ++ block :: arena.freed).Perm (block :: refs ++ arena.freed) := List.perm_middle
    simpa only [Arena.free, same] using moved.trans owned.each

end Owned

/-! ## References in several places -/

/-- The references of one place, among those of all places. -/
theorem flatMap_update_perm {K : Type} [DecidableEq K] {places : List K} {place : K} (nodup : places.Nodup)
    (member : place ∈ places) (refs : K → List Nat) :
    ∃ others, ∀ mine, (places.flatMap (Function.update refs place mine)).Perm (mine ++ others) := by
  refine ⟨(places.erase place).flatMap refs, fun mine => ?_⟩
  have front := (List.perm_cons_erase member).flatMap_right (Function.update refs place mine)
  have same : (places.erase place).flatMap (Function.update refs place mine) = (places.erase place).flatMap refs := by
    apply List.flatMap_congr
    intro other known
    have different : other ≠ place := fun clash => nodup.not_mem_erase (clash ▸ known)
    exact Function.update_of_ne different _ _
  rwa [List.flatMap_cons, Function.update_self, same] at front

/-- Before and after the references of one place change. -/
theorem flatMap_change_perm {K : Type} [DecidableEq K] {places : List K} {place : K} (nodup : places.Nodup)
    (member : place ∈ places) (refs : K → List Nat) (mine : List Nat) :
    ∃ others, (places.flatMap refs).Perm (refs place ++ others) ∧
      (places.flatMap (Function.update refs place mine)).Perm (mine ++ others) := by
  obtain ⟨others, changed⟩ := flatMap_update_perm nodup member refs
  refine ⟨others, ?_, changed mine⟩
  have before := changed (refs place)
  rwa [Function.update_eq_self] at before

end Arena

end BekenSdk.Base
