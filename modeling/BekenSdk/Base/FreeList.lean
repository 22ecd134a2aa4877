import Mathlib.Data.List.Basic
import Mathlib.Algebra.Ring.Nat

/-! Free lists ordered by address. A freed extent is put between its neighbours and grows
together with those that touch it. How often an address is covered says what such changes
keep, without regard to order.
-/

set_option autoImplicit false

namespace BekenSdk.Base

structure Extent where
  start : Nat
  size : Nat
  deriving DecidableEq

def Extent.stop (e : Extent) : Nat := e.start + e.size

def Extent.Covers (e : Extent) (a : Nat) : Prop := e.start ≤ a ∧ a < e.stop

instance (e : Extent) (a : Nat) : Decidable (e.Covers a) := inferInstanceAs (Decidable (_ ∧ _))

/-- Neither reaches into the other. -/
def Extent.Apart (b c : Extent) : Prop := b.stop ≤ c.start ∨ c.stop ≤ b.start

theorem Extent.Apart.symm {b c : Extent} (apart : b.Apart c) : c.Apart b := Or.symm apart

/-- How many of the extents cover an address. -/
def cover (a : Nat) (extents : List Extent) : Nat := extents.countP (·.Covers a)

def totalSize (extents : List Extent) : Nat := (extents.map Extent.size).sum

/-- In order, and no two touch. -/
def Separated (extents : List Extent) : Prop := extents.Pairwise fun b c => b.stop < c.start

section
variable {a : Nat} {b c : Extent} {front rest : List Extent}

theorem cover_cons : cover a (b :: rest) = (if b.Covers a then 1 else 0) + cover a rest := by
  rw [cover, List.countP_cons, Nat.add_comm]
  congr 1
  by_cases covers : b.Covers a
  · rw [if_pos covers, if_pos (decide_eq_true covers)]
  · rw [if_neg covers, if_neg (by rwa [decide_eq_true_eq])]

theorem cover_append : cover a (front ++ rest) = cover a front + cover a rest := List.countP_append

theorem totalSize_cons : totalSize (b :: rest) = b.size + totalSize rest := rfl

theorem totalSize_append : totalSize (front ++ rest) = totalSize front + totalSize rest := by
  rw [totalSize, List.map_append, List.sum_append]
  rfl

/-- Two extents that touch cover what their union covers. -/
theorem covers_joined (touch : b.stop = c.start) :
    (if Extent.Covers ⟨b.start, b.size + c.size⟩ a then 1 else 0) =
      (if b.Covers a then 1 else 0) + if c.Covers a then 1 else 0 := by
  have both : Extent.Covers ⟨b.start, b.size + c.size⟩ a ↔ b.Covers a ∨ c.Covers a := by
    unfold Extent.Covers Extent.stop at *
    dsimp only
    omega
  by_cases first : b.Covers a
  · have apart : ¬c.Covers a := by
      unfold Extent.Covers Extent.stop at *
      omega
    rw [if_pos first, if_neg apart, if_pos (both.mpr (.inl first))]
  · by_cases second : c.Covers a
    · rw [if_neg first, if_pos second, if_pos (both.mpr (.inr second))]
    · rw [if_neg first, if_neg second, if_neg fun joined => (both.mp joined).elim first second]

theorem cover_pos (member : b ∈ rest) (covers : b.Covers a) : 0 < cover a rest :=
  List.countP_pos_iff.mpr ⟨b, member, decide_eq_true covers⟩

/-- Extents that never cover an address twice are apart. -/
theorem apart_of_cover (positive : 0 < b.size) (single : ∀ a, b.Covers a → cover a rest = 0) (member : c ∈ rest)
    (positive' : 0 < c.size) : b.Apart c := by
  by_contra meet
  unfold Extent.Apart Extent.stop at meet
  have there : b.Covers (max b.start c.start) := by
    unfold Extent.Covers Extent.stop
    omega
  have here : c.Covers (max b.start c.start) := by
    unfold Extent.Covers Extent.stop
    omega
  exact absurd (single _ there) (Nat.ne_of_gt (cover_pos member here))

/-- Extents that cover no address twice are apart from each other. -/
theorem pairwise_of_cover (positive : ∀ e ∈ rest, 0 < e.size) (single : ∀ a, cover a rest ≤ 1) :
    rest.Pairwise Extent.Apart := by
  induction rest with
  | nil => exact .nil
  | cons b rest ih =>
    obtain ⟨first, others⟩ := List.forall_mem_cons.mp positive
    refine List.pairwise_cons.mpr ⟨fun c member => ?_, ih others fun a => ?_⟩
    · apply apart_of_cover first _ member (others c member)
      intro a there
      have once := single a
      rw [cover_cons, if_pos there] at once
      omega
    · have once := single a
      rw [cover_cons] at once
      omega

end

/-! ## Freeing -/

/-- `b` before the others; it takes the next one in when they touch. -/
def attach (b : Extent) : List Extent → List Extent
  | [] => [b]
  | next :: rest => if b.stop = next.start then ⟨b.start, b.size + next.size⟩ :: rest else b :: next :: rest

/-- `b` right behind `it`. -/
def attachTo (it b : Extent) (rest : List Extent) : List Extent :=
  if it.stop = b.start then attach ⟨it.start, it.size + b.size⟩ rest else it :: attach b rest

/-- `b` somewhere behind `it`. -/
def coalesceAfter (b it : Extent) : List Extent → List Extent
  | [] => attachTo it b []
  | next :: rest => if next.start < b.start then it :: coalesceAfter b next rest else attachTo it b (next :: rest)

def coalesce (b : Extent) : List Extent → List Extent
  | [] => [b]
  | next :: rest => if next.start < b.start then coalesceAfter b next rest else attach b (next :: rest)

section
variable {a : Nat} {b it : Extent} {extents rest : List Extent}

theorem cover_attach : cover a (attach b rest) = (if b.Covers a then 1 else 0) + cover a rest := by
  cases rest with
  | nil => rw [attach, cover_cons]
  | cons next rest =>
    rw [attach]
    split
    next touch => rw [cover_cons, cover_cons, covers_joined touch, Nat.add_assoc]
    next => rw [cover_cons]

theorem cover_attachTo :
    cover a (attachTo it b rest) = (if b.Covers a then 1 else 0) + cover a (it :: rest) := by
  rw [attachTo]
  split
  next touch =>
    rw [cover_attach, covers_joined touch, cover_cons]
    omega
  next =>
    rw [cover_cons, cover_attach, cover_cons]
    omega

theorem cover_coalesceAfter :
    cover a (coalesceAfter b it rest) = (if b.Covers a then 1 else 0) + cover a (it :: rest) := by
  induction rest generalizing it with
  | nil => exact cover_attachTo
  | cons next rest ih =>
    rw [coalesceAfter]
    split
    · rw [cover_cons, ih, @cover_cons a it]
      omega
    · exact cover_attachTo

theorem cover_coalesce : cover a (coalesce b extents) = (if b.Covers a then 1 else 0) + cover a extents := by
  cases extents with
  | nil => rw [coalesce, cover_cons]
  | cons next rest =>
    rw [coalesce]
    split
    · exact cover_coalesceAfter
    · exact cover_attach

theorem totalSize_attach : totalSize (attach b rest) = b.size + totalSize rest := by
  cases rest with
  | nil => rfl
  | cons next rest =>
    rw [attach]
    split
    · rw [totalSize_cons, totalSize_cons, Nat.add_assoc]
    · rfl

theorem totalSize_attachTo : totalSize (attachTo it b rest) = b.size + totalSize (it :: rest) := by
  rw [attachTo]
  split
  · rw [totalSize_attach, totalSize_cons]
    exact (Nat.add_right_comm _ _ _).trans (Nat.add_comm _ _)
  · rw [totalSize_cons, totalSize_attach, totalSize_cons]
    exact Nat.add_left_comm _ _ _

theorem totalSize_coalesceAfter : totalSize (coalesceAfter b it rest) = b.size + totalSize (it :: rest) := by
  induction rest generalizing it with
  | nil => exact totalSize_attachTo
  | cons next rest ih =>
    rw [coalesceAfter]
    split
    · rw [totalSize_cons, ih, @totalSize_cons it]
      exact Nat.add_left_comm _ _ _
    · exact totalSize_attachTo

theorem totalSize_coalesce : totalSize (coalesce b extents) = b.size + totalSize extents := by
  cases extents with
  | nil => rfl
  | cons next rest =>
    rw [coalesce]
    split
    · exact totalSize_coalesceAfter
    · exact totalSize_attach

/-! What holds of all extents, if it is kept when two that touch are joined. -/

section
variable {good : Extent → Prop}
  (joined : ∀ c d : Extent, good c → good d → c.stop = d.start → good ⟨c.start, c.size + d.size⟩)
include joined

theorem forall_attach (goodB : good b) (all : ∀ e ∈ rest, good e) : ∀ e ∈ attach b rest, good e := by
  cases rest with
  | nil => exact List.forall_mem_singleton.mpr goodB
  | cons next rest =>
    obtain ⟨goodNext, allRest⟩ := List.forall_mem_cons.mp all
    rw [attach]
    split
    next touch => exact List.forall_mem_cons.mpr ⟨joined b next goodB goodNext touch, allRest⟩
    next => exact List.forall_mem_cons.mpr ⟨goodB, all⟩

theorem forall_attachTo (goodB : good b) (all : ∀ e ∈ it :: rest, good e) : ∀ e ∈ attachTo it b rest, good e := by
  obtain ⟨goodIt, allRest⟩ := List.forall_mem_cons.mp all
  rw [attachTo]
  split
  next touch => exact forall_attach joined (joined it b goodIt goodB touch) allRest
  next => exact List.forall_mem_cons.mpr ⟨goodIt, forall_attach joined goodB allRest⟩

theorem forall_coalesceAfter (goodB : good b) (all : ∀ e ∈ it :: rest, good e) :
    ∀ e ∈ coalesceAfter b it rest, good e := by
  induction rest generalizing it with
  | nil => exact forall_attachTo joined goodB all
  | cons next rest ih =>
    rw [coalesceAfter]
    split
    · obtain ⟨goodIt, allRest⟩ := List.forall_mem_cons.mp all
      exact List.forall_mem_cons.mpr ⟨goodIt, ih allRest⟩
    · exact forall_attachTo joined goodB all

theorem forall_coalesce (goodB : good b) (all : ∀ e ∈ extents, good e) : ∀ e ∈ coalesce b extents, good e := by
  cases extents with
  | nil => exact List.forall_mem_singleton.mpr goodB
  | cons next rest =>
    rw [coalesce]
    split
    · exact forall_coalesceAfter joined goodB all
    · exact forall_attach joined goodB all

end

/-- The start of two that are joined is that of the first. -/
theorem start_attach {bound : Nat} (less : bound < b.start) (all : ∀ e ∈ rest, bound < e.start) :
    ∀ e ∈ attach b rest, bound < e.start :=
  @forall_attach b rest (fun e => bound < e.start) (fun _ _ first _ _ => first) less all

theorem Separated.attach (separated : Separated rest) (before : ∀ e ∈ rest, b.stop ≤ e.start) :
    Separated (attach b rest) := by
  cases rest with
  | nil => exact List.pairwise_singleton _ _
  | cons next rest =>
    obtain ⟨nextFirst, separatedRest⟩ := List.pairwise_cons.mp separated
    rw [Base.attach]
    split
    next touch =>
      refine List.pairwise_cons.mpr ⟨fun e member => ?_, separatedRest⟩
      have later := nextFirst e member
      unfold Extent.stop at touch later ⊢
      dsimp only
      omega
    next gap =>
      have ahead : b.stop < next.start := Nat.lt_of_le_of_ne (before next List.mem_cons_self) gap
      refine List.pairwise_cons.mpr ⟨List.forall_mem_cons.mpr ⟨ahead, fun e member => ?_⟩, separated⟩
      have later := nextFirst e member
      unfold Extent.stop at later ahead ⊢
      omega

theorem Separated.attachTo (separated : Separated (it :: rest)) (behind : it.stop ≤ b.start)
    (before : ∀ e ∈ rest, b.stop ≤ e.start) : Separated (attachTo it b rest) := by
  obtain ⟨itFirst, separatedRest⟩ := List.pairwise_cons.mp separated
  have separatedRest : Separated rest := separatedRest
  rw [Base.attachTo]
  split
  next touch =>
    apply separatedRest.attach
    intro e member
    have later := before e member
    unfold Extent.stop at touch later ⊢
    dsimp only
    omega
  next gap =>
    have ahead : it.stop < b.start := Nat.lt_of_le_of_ne behind gap
    exact List.pairwise_cons.mpr ⟨start_attach ahead itFirst, separatedRest.attach before⟩

theorem Separated.coalesceAfter (separated : Separated (it :: rest)) (positive : 0 < b.size)
    (sizes : ∀ e ∈ it :: rest, 0 < e.size) (apart : ∀ e ∈ it :: rest, b.Apart e) (behind : it.start < b.start) :
    Separated (coalesceAfter b it rest) := by
  have itBehind : it.stop ≤ b.start := by
    have meets := apart it List.mem_cons_self
    unfold Extent.Apart Extent.stop at *
    omega
  induction rest generalizing it with
  | nil => exact separated.attachTo itBehind fun _ member => absurd member List.not_mem_nil
  | cons next rest ih =>
    obtain ⟨itFirst, separatedRest⟩ := List.pairwise_cons.mp separated
    obtain ⟨-, sizesRest⟩ := List.forall_mem_cons.mp sizes
    obtain ⟨-, apartRest⟩ := List.forall_mem_cons.mp apart
    have nextApart := apartRest next List.mem_cons_self
    have nextSize := sizesRest next List.mem_cons_self
    rw [Base.coalesceAfter]
    split
    next later =>
      have nextBehind : next.stop ≤ b.start := by
        unfold Extent.Apart Extent.stop at *
        omega
      refine List.pairwise_cons.mpr ⟨?_, ih separatedRest sizesRest apartRest later nextBehind⟩
      have ahead : it.stop < b.start := by
        have order := itFirst next List.mem_cons_self
        omega
      exact @forall_coalesceAfter b next rest (fun e => it.stop < e.start) (fun _ _ first _ _ => first) ahead itFirst
    next here =>
      apply separated.attachTo itBehind
      have nextAhead : b.stop ≤ next.start := by
        unfold Extent.Apart Extent.stop at *
        omega
      refine List.forall_mem_cons.mpr ⟨nextAhead, fun e member => ?_⟩
      have order := (List.pairwise_cons.mp separatedRest).1 e member
      unfold Extent.stop at order nextAhead ⊢
      omega

theorem Separated.coalesce (separated : Separated extents) (positive : 0 < b.size) (sizes : ∀ e ∈ extents, 0 < e.size)
    (apart : ∀ e ∈ extents, b.Apart e) : Separated (coalesce b extents) := by
  cases extents with
  | nil => exact List.pairwise_singleton _ _
  | cons next rest =>
    rw [Base.coalesce]
    split
    next later => exact separated.coalesceAfter positive sizes apart later
    next here =>
      have nextApart := apart next List.mem_cons_self
      have nextSize := sizes next List.mem_cons_self
      have nextAhead : b.stop ≤ next.start := by
        unfold Extent.Apart Extent.stop at *
        omega
      apply separated.attach
      refine List.forall_mem_cons.mpr ⟨nextAhead, fun e member => ?_⟩
      have order := (List.pairwise_cons.mp separated).1 e member
      unfold Extent.stop at order nextAhead ⊢
      omega

/-- Between extents that it does not touch it stays as it is. -/
theorem coalesce_between {front : List Extent} (before : ∀ e ∈ front, e.stop < b.start)
    (after : ∀ e ∈ rest, b.stop < e.start) :
    coalesce b (front ++ rest) = front ++ b :: rest := by
  have alone : attach b rest = b :: rest := by
    cases rest with
    | nil => rfl
    | cons next rest => rw [attach, if_neg (Nat.ne_of_lt (after next List.mem_cons_self))]
  have start {e : Extent} (less : e.stop < b.start) : e.start < b.start :=
    Nat.lt_of_le_of_lt (Nat.le_add_right _ _) less
  cases front with
  | nil =>
    rw [List.nil_append, List.nil_append]
    cases rest with
    | nil => rfl
    | cons next rest =>
      have less := after next List.mem_cons_self
      rw [coalesce, if_neg, alone]
      unfold Extent.stop at less
      omega
  | cons it front =>
    rw [List.cons_append, List.cons_append, coalesce, if_pos (start (before it List.mem_cons_self))]
    induction front generalizing it with
    | nil =>
      have gap := Nat.ne_of_lt (before it List.mem_cons_self)
      have here : attachTo it b rest = it :: b :: rest := by rw [attachTo, if_neg gap, alone]
      rw [List.nil_append, List.nil_append]
      cases rest with
      | nil => exact here
      | cons next rest =>
        have less := after next List.mem_cons_self
        rw [coalesceAfter, if_neg, here]
        unfold Extent.stop at less
        omega
    | cons next front ih =>
      obtain ⟨-, others⟩ := List.forall_mem_cons.mp before
      rw [List.cons_append, List.cons_append, coalesceAfter, if_pos (start (others next List.mem_cons_self)),
        ih next others]

/-! ## Taking -/

/-- The first extent that is large enough, with those before and those behind it. -/
def firstFit (wanted : Nat) : List Extent → Option (List Extent × Extent × List Extent)
  | [] => none
  | e :: rest =>
    if e.size < wanted then (firstFit wanted rest).map fun (before, b, after) => (e :: before, b, after)
    else some ([], e, rest)

theorem firstFit_some {wanted : Nat} {before after : List Extent}
    (found : firstFit wanted extents = some (before, b, after)) :
    extents = before ++ b :: after ∧ wanted ≤ b.size := by
  induction extents generalizing before with
  | nil => cases found
  | cons e others ih =>
    rw [firstFit] at found
    split at found
    · obtain ⟨⟨before', b', after'⟩, later, same⟩ := Option.map_eq_some_iff.mp found
      cases same
      obtain ⟨split, fits⟩ := ih later
      exact ⟨congrArg (e :: ·) split, fits⟩
    next large =>
      cases found
      exact ⟨rfl, Nat.not_lt.mp large⟩

/-- What is taken lies apart from the others. -/
theorem Separated.taken {before after : List Extent} (separated : Separated (before ++ b :: after)) :
    Separated (before ++ after) ∧ (∀ e ∈ before, e.stop < b.start) ∧ ∀ e ∈ after, b.stop < e.start := by
  obtain ⟨first, second, cross⟩ := List.pairwise_append.mp separated
  obtain ⟨behind, rest⟩ := List.pairwise_cons.mp second
  refine ⟨List.pairwise_append.mpr ⟨first, rest, fun e early f late => ?_⟩, fun e early => ?_, behind⟩
  · exact cross e early f (List.mem_cons_of_mem _ late)
  · exact cross e early b List.mem_cons_self

end

end BekenSdk.Base
