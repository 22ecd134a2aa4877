import BekenSdk.Base.Ring
import BekenSdk.RxReorder.Reorder
import Mathlib.Data.List.ReduceOption

/-! What the window is for: a list of places for the next sequence numbers, from
`start` on, each of which may hold a frame. It moves by one number at a time, and
a frame in the place that is given up is passed on. The circle of slots, its
position and its counter are one way to keep such a list.
-/

set_option autoImplicit false

namespace BekenSdk.RxReorder
open Base

structure Window (α : Type) where
  start : Nat
  slots : List (Option α)
  passed : List α

namespace Window
variable {α : Type}

def held (w : Window α) : List α := w.slots.reduceOption

/-- The front place is given up. -/
def shift (w : Window α) : Window α := { w with start := w.start + 1, slots := w.slots.tail ++ [none] }

def pass (a : α) (w : Window α) : Window α := { w with passed := a :: w.passed }

/-- The front place is given up; a frame in it is passed on. -/
def skip (w : Window α) : Window α :=
  match w.slots with
  | some a :: _ => (w.pass a).shift
  | _ => w.shift

/-- As many frames as there are at the front. -/
def forward : Nat → Window α → Window α
  | 0, w => w
  | rounds + 1, w =>
    match w.slots with
    | some _ :: _ => forward rounds w.skip
    | _ => w

def put (i : Nat) (a : α) (w : Window α) : Window α := { w with slots := w.slots.set i (some a) }

variable {w : Window α}

theorem skip_some {a : α} {rest : List (Option α)} (front : w.slots = some a :: rest) :
    w.skip = (w.pass a).shift := by
  rw [skip, front]

theorem skip_none (empty : ∀ a rest, w.slots ≠ some a :: rest) : w.skip = w.shift := by
  rw [skip]
  split
  next a rest front => exact absurd front (empty a rest)
  next => rfl

theorem shift_held (empty : ∀ a rest, w.slots ≠ some a :: rest) : w.shift.held = w.held := by
  cases listed : w.slots with
  | nil => simp [held, shift, listed]
  | cons front rest =>
    cases front with
    | none => simp [held, shift, listed, List.reduceOption_append]
    | some a => exact absurd listed (empty a rest)

theorem held_of_front {a : α} {rest : List (Option α)} (front : w.slots = some a :: rest) :
    w.held = a :: w.shift.held := by
  simp [held, shift, front, List.reduceOption_append]

theorem skip_held_length {a : α} {rest : List (Option α)} (front : w.slots = some a :: rest) :
    w.held.length = w.skip.held.length + 1 := by
  have same : (w.pass a).shift.held = w.shift.held := rfl
  rw [skip_some front, held_of_front front, same, List.length_cons]

@[simp] theorem skip_start : w.skip.start = w.start + 1 := by
  rw [skip]
  split <;> rfl

@[simp] theorem skip_slots : w.skip.slots = w.slots.tail ++ [none] := by
  rw [skip]
  split <;> rfl

/-- With a round for every frame the front place ends up empty. -/
theorem forward_front {rounds : Nat} (enough : w.held.length ≤ rounds) (a : α) (rest : List (Option α)) :
    (w.forward rounds).slots ≠ some a :: rest := by
  induction rounds generalizing w with
  | zero =>
    intro front
    have empty := List.length_eq_zero_iff.mp (Nat.le_zero.mp enough)
    rw [forward] at front
    rw [held_of_front front] at empty
    cases empty
  | succ rounds ih =>
    rw [forward]
    split
    next b others front =>
      apply ih
      have fewer := skip_held_length front
      omega
    next clear => exact fun front => clear _ _ front

end Window

/-! ## The circle of slots as a window -/

namespace Reorder

/-- The window as it is `i` places after the position. -/
def viewFrom (i : Nat) (s : Reorder) : Window Nat where
  start := s.start + i
  slots := around s.element rxReordWinSize ((s.rxStatusPos + i) % rxReordWinSize)
  passed := s.delivered

def view (s : Reorder) : Window Nat := s.viewFrom 0

/-- The slots that are not `NULL`. -/
def held (s : Reorder) : List Nat := (List.range rxReordWinSize).filterMap s.element

variable {s : Reorder} {i j : Nat}

theorem held_perm : (s.viewFrom i).held.Perm s.held := by
  have first : s.held = (around s.element rxReordWinSize 0).reduceOption := by
    rw [held, around, List.reduceOption, List.filterMap_map]
    apply List.filterMap_congr
    intro i inside
    simp [Nat.mod_eq_of_lt (List.mem_range.mp inside)]
  have turned := @around_add _ s.element rxReordWinSize 0 (s.rxStatusPos + i)
  rw [Nat.zero_add] at turned
  rw [first, Window.held, viewFrom, turned]
  exact (List.rotate_perm _ _).filterMap _

/-- A round of the loop, seen from the next place, passes what the front holds. -/
theorem flushSlot_view :
    (s.flushSlot ((s.rxStatusPos + i) % rxReordWinSize)).viewFrom (i + 1) = (s.viewFrom i).skip := by
  have inside : (s.rxStatusPos + i) % rxReordWinSize < rxReordWinSize := Nat.mod_lt _ (by decide)
  have front := @around_head? _ s.element rxReordWinSize _ (by decide) inside
  have moved := @around_advance _ s.element _ _ none (by decide) inside
  rw [Nat.mod_add_mod, Nat.add_assoc] at moved
  cases slot : s.element ((s.rxStatusPos + i) % rxReordWinSize) with
  | none =>
    rw [slot] at front
    have empty : ∀ a rest, (s.viewFrom i).slots ≠ some a :: rest := by
      intro a rest same
      have holds := front.symm.trans (congrArg List.head? same)
      cases holds
    have kept : Function.update s.element ((s.rxStatusPos + i) % rxReordWinSize) none = s.element := by
      rw [← slot, Function.update_eq_self]
    rw [kept] at moved
    rw [Window.skip_none empty, flushSlot, slot]
    simp only [viewFrom, Window.shift, moved, Nat.add_assoc]
  | some frame =>
    rw [slot] at front
    obtain ⟨rest, listed⟩ := List.head?_eq_some_iff.mp front
    have holds : (s.viewFrom i).slots = some frame :: rest := listed
    rw [Window.skip_some holds, flushSlot, slot]
    simp only [ethernetifInput, viewFrom, Window.shift, Window.pass, moved, Nat.add_assoc]

/-- The position and the number of the window, `k` places on. -/
def moved (k : UInt16) (s : Reorder) : Reorder :=
  { s with
    winStart := (s.winStart + k) &&& macSeqctrlNumMax
    rxStatusPos := Fin.ofNat rxReordWinSize (s.rxStatusPos + k.toNat)
    start := s.start + k.toNat }

theorem moved_view {k : UInt16} : (s.moved k).viewFrom i = s.viewFrom (k.toNat + i) := by
  simp [moved, viewFrom, Nat.add_assoc]

theorem flush_eq (k : UInt16) : s.rwmReorderFlush k = (s.flushRounds 0 k.toNat).moved k := rfl

theorem position_eq : (s.rxStatusPos + 0) % rxReordWinSize = s.rxStatusPos :=
  Nat.mod_eq_of_lt s.rxStatusPos.isLt

theorem update_of_empty (empty : s.element s.rxStatusPos = none) : s.rwmReorderUpdate = s.moved 1 := by
  have kept : Function.update s.element s.rxStatusPos none = s.element := by
    rw [← empty, Function.update_eq_self]
  rw [rwmReorderUpdate, kept]
  rfl

/-- A round of `rwm_reorder_fwd` is one of `rwm_reorder_flush` and a step on. -/
theorem fwdRounds_some {rounds frame : Nat} (slot : s.element s.rxStatusPos = some frame) :
    fwdRounds (rounds + 1) s = fwdRounds rounds ((s.flushSlot s.rxStatusPos).moved 1) := by
  rw [fwdRounds, flushSlot, slot]
  rfl

theorem front_of_slot {frame : Nat} (slot : s.element s.rxStatusPos = some frame) :
    ∃ rest, s.view.slots = some frame :: rest := by
  have front := @around_head? _ s.element _ _ (by decide) s.rxStatusPos.isLt
  rw [slot, ← position_eq] at front
  exact List.head?_eq_some_iff.mp front

theorem front_of_empty (slot : s.element s.rxStatusPos = none) : ∃ rest, s.view.slots = none :: rest := by
  have front := @around_head? _ s.element _ _ (by decide) s.rxStatusPos.isLt
  rw [slot, ← position_eq] at front
  exact List.head?_eq_some_iff.mp front

theorem flushSlot_view_front : ((s.flushSlot s.rxStatusPos).moved 1).view = s.view.skip := by
  have seen := flushSlot_view (s := s) (i := 0)
  rw [position_eq] at seen
  rw [view, moved_view]
  exact seen

theorem fwdRounds_view (rounds : Nat) : (fwdRounds rounds s).view = s.view.forward rounds := by
  induction rounds generalizing s with
  | zero => rfl
  | succ rounds ih =>
    cases slot : s.element s.rxStatusPos with
    | none =>
      obtain ⟨rest, front⟩ := front_of_empty slot
      rw [fwdRounds, slot, Window.forward, front]
    | some frame =>
      obtain ⟨rest, front⟩ := front_of_slot slot
      rw [fwdRounds_some slot, ih, flushSlot_view_front, Window.forward, front]

end Reorder

end BekenSdk.RxReorder
