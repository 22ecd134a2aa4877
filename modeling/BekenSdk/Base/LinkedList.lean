import Mathlib.Data.List.Perm.Basic
import Mathlib.Data.List.Nodup
import Mathlib.Data.List.Pairwise
import Mathlib.Logic.Function.Basic

/-! Linked lists whose elements come in at the back once and are taken out
anywhere, while somebody may stand on an element and go on from it. What an
element that was taken out still holds as its next one is up to `keeps`: the
element that came after it, or nothing.
-/

set_option autoImplicit false

namespace BekenSdk.Base

/-- `left` is the next one in the header of an element that was taken out. -/
structure LinkedList where
  pushed : List Nat
  listed : List Nat
  removed : List Nat
  left : Nat → Option Nat

namespace LinkedList

def empty : LinkedList := ⟨[], [], [], fun _ => none⟩

/-- The element after the first `n`. -/
def following (n : Nat) : List Nat → Option Nat
  | [] => none
  | first :: rest => if first = n then rest.head? else following n rest

def pushBack (n : Nat) (l : LinkedList) : LinkedList :=
  { l with pushed := l.pushed ++ [n], listed := l.listed ++ [n] }

def pick (l : LinkedList) : Option Nat := l.listed.head?

def next (n : Nat) (l : LinkedList) : Option Nat := if n ∈ l.listed then following n l.listed else l.left n

def extract (keeps : List Nat → Nat → Option Nat) (n : Nat) (l : LinkedList) : LinkedList :=
  if n ∈ l.listed then
    { l with
      listed := l.listed.erase n
      removed := n :: l.removed
      left := Function.update l.left n (keeps l.listed n) }
  else
    l

/-- The elements that the search for one looks at. -/
def searched (n : Nat) (l : LinkedList) : List Nat := l.listed.take (l.listed.idxOf n + 1)

/-- The place of an element in the order in which they came. -/
def turn (l : LinkedList) (n : Nat) : Nat := l.pushed.idxOf n

/-- Where somebody who stands on the first element comes through elements that
were taken out, going past the ones that `passes` lets go. -/
inductive Ahead (l : LinkedList) (passes : Nat → Prop) : Nat → Nat → Prop where
  | here (n : Nat) : Ahead l passes n n
  | on {n q m : Nat} : passes n → n ∉ l.listed → l.left n = some q → Ahead l passes q m → Ahead l passes n m

/-- `q` comes after `p`, and before all that come after `p` and are listed. -/
def Successor (l : LinkedList) (p q : Nat) : Prop :=
  l.turn p < l.turn q ∧ ∀ k ∈ l.listed, l.turn p < l.turn k → l.turn q ≤ l.turn k

/-- Every element is listed or was removed once, and the order is that of arrival. -/
structure Sound (l : LinkedList) : Prop where
  nodup : l.pushed.Nodup
  each : (l.listed ++ l.removed).Perm l.pushed
  sorted : l.listed.Pairwise fun p q => l.turn p < l.turn q
  left : ∀ {p q : Nat}, p ∉ l.listed → l.left p = some q → p ∈ l.pushed ∧ q ∈ l.pushed ∧ l.Successor p q

theorem following_mem {n q : Nat} {listed : List Nat} (found : following n listed = some q) : q ∈ listed := by
  induction listed with
  | nil => cases found
  | cons first rest ih =>
    rw [following] at found
    split at found
    · exact List.mem_cons_of_mem _ (List.mem_of_mem_head? found)
    · exact List.mem_cons_of_mem _ (ih found)

/-- In a list in order, the next element is the next to come. -/
theorem following_successor {turn : Nat → Nat} {p q : Nat} {listed : List Nat}
    (sorted : listed.Pairwise fun p q => turn p < turn q) (found : following p listed = some q) :
    p ∈ listed ∧ turn p < turn q ∧ ∀ k ∈ listed, turn p < turn k → turn q ≤ turn k := by
  induction listed with
  | nil => cases found
  | cons first rest ih =>
    obtain ⟨least, ordered⟩ := List.pairwise_cons.mp sorted
    rw [following] at found
    split at found
    next same =>
      subst same
      have member := List.mem_of_mem_head? found
      refine ⟨List.mem_cons_self, least q member, fun k listed later => ?_⟩
      cases rest with
      | nil => cases found
      | cons second others =>
        obtain rfl := Option.some.inj found
        obtain ⟨next, -⟩ := List.pairwise_cons.mp ordered
        rcases List.mem_cons.mp listed with rfl | listed
        · exact absurd later (Nat.lt_irrefl _)
        · rcases List.mem_cons.mp listed with rfl | listed
          · exact Nat.le_refl _
          · exact Nat.le_of_lt (next k listed)
    · obtain ⟨member, later, between⟩ := ih ordered found
      refine ⟨List.mem_cons_of_mem _ member, later, fun k listed after => ?_⟩
      rcases List.mem_cons.mp listed with rfl | listed
      · exact absurd (Nat.lt_trans after (least p member)) (Nat.lt_irrefl _)
      · exact between k listed after

theorem Sound.empty : Sound LinkedList.empty :=
  ⟨List.nodup_nil, List.Perm.refl _, List.Pairwise.nil, fun _ none => nomatch none⟩

section
variable {l : LinkedList} {n p q k m : Nat} {keeps : List Nat → Nat → Option Nat} {passes : Nat → Prop}

theorem Ahead.eq_of_listed (ahead : l.Ahead passes p m) (member : p ∈ l.listed) : m = p := by
  cases ahead with
  | here => rfl
  | on _ gone _ _ => exact absurd member gone

namespace Sound

theorem listed_nodup (sound : l.Sound) : l.listed.Nodup :=
  sound.sorted.imp fun earlier same => Nat.ne_of_lt earlier (congrArg l.turn same)

theorem all_nodup (sound : l.Sound) : (l.listed ++ l.removed).Nodup := sound.each.nodup_iff.mpr sound.nodup

theorem removed_nodup (sound : l.Sound) : l.removed.Nodup := (List.nodup_append.mp sound.all_nodup).2.1

theorem apart (sound : l.Sound) (member : n ∈ l.listed) : n ∉ l.removed :=
  fun gone => List.disjoint_of_nodup_append sound.all_nodup member gone

theorem mem_pushed (sound : l.Sound) : n ∈ l.pushed ↔ n ∈ l.listed ∨ n ∈ l.removed := by
  rw [← sound.each.mem_iff, List.mem_append]

theorem turn_inj (known : p ∈ l.pushed) (same : l.turn p = l.turn q) : p = q :=
  (List.idxOf_inj known).mp same

/-! ## Walking -/

theorem next_successor (sound : l.Sound) (found : l.next p = some q) : q ∈ l.pushed ∧ l.Successor p q := by
  rw [next] at found
  split at found
  · exact ⟨sound.mem_pushed.mpr (.inl (following_mem found)), (following_successor sound.sorted found).2⟩
  next gone => exact (sound.left gone found).2

theorem pick_least (sound : l.Sound) (found : l.pick = some p) (member : k ∈ l.listed) : l.turn p ≤ l.turn k := by
  have sorted := sound.sorted
  rw [pick] at found
  cases shape : l.listed with
  | nil => rw [shape] at found; cases found
  | cons first rest =>
    rw [shape] at found member sorted
    obtain rfl := Option.some.inj found
    rcases List.mem_cons.mp member with rfl | later
    · exact Nat.le_refl _
    · exact Nat.le_of_lt ((List.pairwise_cons.mp sorted).1 k later)

/-- One step further, nothing is ahead that was not, apart from what is listed. -/
theorem ahead_next (found : l.next p = some q) (past : passes p) (ahead : l.Ahead passes q m) :
    l.Ahead passes p m ∨ m ∈ l.listed := by
  rw [next] at found
  split at found
  · have member := following_mem found
    exact Or.inr (ahead.eq_of_listed member ▸ member)
  next gone => exact Or.inl (.on past gone found ahead)

end Sound

/-! ## A new element -/

theorem turn_pushBack (known : k ∈ l.pushed) : (l.pushBack n).turn k = l.turn k :=
  List.idxOf_append_of_mem known

theorem turn_pushBack_self (fresh : n ∉ l.pushed) : (l.pushBack n).turn n = l.pushed.length := by
  rw [turn, pushBack, List.idxOf_append_of_notMem fresh, List.idxOf_cons_self, Nat.add_zero]

theorem turn_lt_pushBack (fresh : n ∉ l.pushed) (known : k ∈ l.pushed) :
    (l.pushBack n).turn k < (l.pushBack n).turn n := by
  rw [turn_pushBack known, turn_pushBack_self fresh]
  exact List.idxOf_lt_length_of_mem known

theorem Successor.pushBack (after : l.Successor p q) (sound : l.Sound) (fresh : n ∉ l.pushed) (known : p ∈ l.pushed)
    (target : q ∈ l.pushed) : (l.pushBack n).Successor p q := by
  refine ⟨?_, fun k member later => ?_⟩
  · rw [turn_pushBack known, turn_pushBack target]
    exact after.1
  · rcases List.mem_append.mp member with old | new
    · have before := sound.mem_pushed.mpr (.inl old)
      rw [turn_pushBack known, turn_pushBack before] at later
      rw [turn_pushBack target, turn_pushBack before]
      exact after.2 k old later
    · obtain rfl := List.mem_singleton.mp new
      exact Nat.le_of_lt (turn_lt_pushBack fresh target)

theorem Sound.pushBack (sound : l.Sound) (fresh : n ∉ l.pushed) : (l.pushBack n).Sound where
  nodup := List.nodup_append.mpr ⟨sound.nodup, List.nodup_singleton _, fun k known j new =>
    List.mem_singleton.mp new ▸ fun same => fresh (same ▸ known)⟩
  each := by
    have moved : (l.listed ++ [n] ++ l.removed).Perm ((l.listed ++ l.removed) ++ [n]) := by
      rw [List.append_assoc, List.append_assoc]
      exact (List.perm_append_comm).append_left _
    exact moved.trans (sound.each.append_right _)
  sorted := by
    refine List.pairwise_append.mpr ⟨?_, List.pairwise_singleton _ _, fun k member j new => ?_⟩
    · refine sound.sorted.imp_of_mem fun {p q} first second earlier => ?_
      rwa [turn_pushBack (sound.mem_pushed.mpr (.inl first)), turn_pushBack (sound.mem_pushed.mpr (.inl second))]
    · obtain rfl := List.mem_singleton.mp new
      exact turn_lt_pushBack fresh (sound.mem_pushed.mpr (.inl member))
  left := by
    intro p q gone next
    have out : p ∉ l.listed := fun member => gone (List.mem_append_left _ member)
    obtain ⟨known, target, after⟩ := sound.left out next
    exact ⟨List.mem_append_left _ known, List.mem_append_left _ target, after.pushBack sound fresh known target⟩

theorem Ahead.of_pushBack (ahead : (l.pushBack n).Ahead passes p m) : l.Ahead passes p m := by
  induction ahead with
  | here => exact .here _
  | on past gone next _ ih => exact .on past (fun member => gone (List.mem_append_left _ member)) next ih

/-! ## Taking an element out -/

@[simp] theorem pushed_extract : (l.extract keeps n).pushed = l.pushed := by
  rw [extract]
  split <;> rfl

@[simp] theorem turn_extract : (l.extract keeps n).turn = l.turn := by
  funext k
  rw [turn, turn, pushed_extract]

theorem mem_listed_extract (sound : l.Sound) : k ∈ (l.extract keeps n).listed ↔ k ≠ n ∧ k ∈ l.listed := by
  rw [extract]
  split
  · exact sound.listed_nodup.mem_erase_iff
  next gone => exact ⟨fun member => ⟨fun same => gone (same ▸ member), member⟩, And.right⟩

/-- The next one of an element out of the list was left by it on the way out. -/
theorem left_extract {sound : l.Sound} (keep : ∀ listed n q, keeps listed n = some q → following n listed = some q)
    (gone : p ∉ (l.extract keeps n).listed) (next : (l.extract keeps n).left p = some q) :
    (p = n ∧ n ∈ l.listed ∧ following n l.listed = some q) ∨ (p ∉ l.listed ∧ l.left p = some q) := by
  by_cases member : n ∈ l.listed
  · rw [extract, if_pos member] at next
    by_cases same : p = n
    · subst same
      simp only [Function.update_self] at next
      exact Or.inl ⟨rfl, member, keep _ _ _ next⟩
    · simp only [Function.update_of_ne same] at next
      exact Or.inr ⟨fun old => gone ((mem_listed_extract sound).mpr ⟨same, old⟩), next⟩
  · rw [extract, if_neg member] at gone next
    exact Or.inr ⟨gone, next⟩

theorem Sound.extract (sound : l.Sound)
    (keep : ∀ listed n q, keeps listed n = some q → following n listed = some q) :
    (l.extract keeps n).Sound := by
  constructor
  · rw [pushed_extract]
    exact sound.nodup
  · rw [pushed_extract]
    refine List.Perm.trans ?_ sound.each
    rw [LinkedList.extract]
    split
    next member =>
      exact List.perm_middle.trans ((List.perm_cons_erase member).symm.append_right _)
    · exact List.Perm.refl _
  · rw [turn_extract]
    refine List.Pairwise.sublist ?_ sound.sorted
    rw [LinkedList.extract]
    split
    · exact List.erase_sublist
    · exact List.Sublist.refl _
  · intro p q gone next
    have fewer : ∀ {p q : Nat}, l.Successor p q → (l.extract keeps n).Successor p q := by
      intro p q after
      rw [Successor, turn_extract]
      exact ⟨after.1, fun k member => after.2 k ((mem_listed_extract sound).mp member).2⟩
    rw [pushed_extract]
    rcases @left_extract l n p q keeps sound keep gone next with ⟨rfl, member, found⟩ | ⟨out, found⟩
    · have after := following_successor sound.sorted found
      exact ⟨sound.mem_pushed.mpr (.inl member), sound.mem_pushed.mpr (.inl (following_mem found)), fewer after.2⟩
    · obtain ⟨known, target, after⟩ := sound.left out found
      exact ⟨known, target, fewer after⟩

/-- Whoever stands on an element that is taken out comes to what is listed. -/
theorem Ahead.of_extract (ahead : (l.extract keeps n).Ahead passes p m) (sound : l.Sound)
    (keep : ∀ listed n q, keeps listed n = some q → following n listed = some q) :
    l.Ahead passes p m ∨ m ∈ (l.extract keeps n).listed := by
  induction ahead with
  | here => exact Or.inl (.here _)
  | @on p q m past gone next rest ih =>
    rcases @left_extract l n p q keeps sound keep gone next with ⟨rfl, member, found⟩ | ⟨out, found⟩
    · obtain ⟨-, later, -⟩ := following_successor sound.sorted found
      have other : q ≠ p := fun same => Nat.lt_irrefl _ (same ▸ later)
      have listed := (@mem_listed_extract l p q keeps sound).mpr ⟨other, following_mem found⟩
      exact Or.inr (rest.eq_of_listed listed ▸ listed)
    · exact ih.imp_left (.on past out found)

theorem mem_of_searched (member : k ∈ l.searched n) : k ∈ l.listed := List.mem_of_mem_take member

end

end LinkedList

end BekenSdk.Base
