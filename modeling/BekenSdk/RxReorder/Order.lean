import BekenSdk.RxReorder.Conservation
import Mathlib.Data.List.Chain

/-! The window delivers the frames in the order of their numbers, and waits for
a frame only as long as it does not have it, as long as it is never moved to a
number whose frame it holds already.
-/

set_option autoImplicit false

namespace BekenSdk.RxReorder
open Base

/-! ## Windows of numbers -/

namespace Window
variable {α β : Type}

def map (f : α → β) (w : Window α) : Window β where
  start := w.start
  slots := w.slots.map (Option.map f)
  passed := w.passed.map f

theorem map_held (f : α → β) (w : Window α) : (w.map f).held = w.held.map f :=
  List.reduceOption_map

theorem map_congr {f g : α → β} {w : Window α} (same : ∀ a ∈ w.held ++ w.passed, f a = g a) : w.map f = w.map g := by
  rw [map, map, mk.injEq]
  refine ⟨rfl, ?_, ?_⟩
  · apply List.map_congr_left
    intro slot member
    cases slot with
    | none => rfl
    | some a => exact congrArg some (same a (List.mem_append_left _ (List.reduceOption_mem_iff.mpr member)))
  · apply List.map_congr_left
    exact fun a member => same a (List.mem_append_right _ member)

theorem map_skip (f : α → β) (w : Window α) : (w.map f).skip = w.skip.map f := by
  cases listed : w.slots with
  | nil => simp [skip, map, listed, shift]
  | cons front rest =>
    cases front with
    | none => simp [skip, map, listed, shift]
    | some a => simp [skip, map, listed, shift, pass]

theorem map_skips (f : α → β) (k : Nat) (w : Window α) : skip^[k] (w.map f) = (skip^[k] w).map f := by
  induction k generalizing w with
  | zero => rfl
  | succ k ih => rw [Function.iterate_succ_apply, map_skip, ih, Function.iterate_succ_apply]

theorem map_forward (f : α → β) (rounds : Nat) (w : Window α) :
    (w.map f).forward rounds = (w.forward rounds).map f := by
  induction rounds generalizing w with
  | zero => rfl
  | succ rounds ih =>
    cases listed : w.slots with
    | nil => simp [forward, map, listed]
    | cons front rest =>
      cases front with
      | none => simp [forward, map, listed]
      | some a =>
        have front : (w.map f).slots = some (f a) :: rest.map (Option.map f) := by simp [map, listed]
        rw [forward, forward, front, listed, map_skip]
        exact ih w.skip

theorem skips_start (k : Nat) (w : Window α) : (skip^[k] w).start = w.start + k := by
  induction k generalizing w with
  | zero => rfl
  | succ k ih => rw [Function.iterate_succ_apply, ih, skip_start, Nat.add_assoc, Nat.add_comm 1]

theorem skips_length {w : Window α} (some : 0 < w.slots.length) (k : Nat) :
    (skip^[k] w).slots.length = w.slots.length := by
  induction k generalizing w with
  | zero => rfl
  | succ k ih =>
    have same : w.skip.slots.length = w.slots.length := by
      rw [skip_slots, List.length_append, List.length_tail, List.length_singleton]
      omega
    rw [Function.iterate_succ_apply, ih (same ▸ some), same]

/-- The places that were there, further to the front. -/
theorem skips_inside {w : Window α} {k i : Nat} (inside : k + i < w.slots.length) :
    (skip^[k] w).slots[i]? = w.slots[k + i]? := by
  induction k generalizing w with
  | zero => rw [Nat.zero_add, Function.iterate_zero_apply]
  | succ k ih =>
    have early : k + i < w.slots.tail.length := by
      rw [List.length_tail]
      omega
    rw [Function.iterate_succ_apply, ih, skip_slots, List.getElem?_append_left early, List.getElem?_tail,
      Nat.succ_add]
    rw [skip_slots, List.length_append]
    omega

/-- The places that are new are free. -/
theorem skips_beyond {w : Window α} {k i : Nat} (inside : i < w.slots.length) (beyond : w.slots.length ≤ k + i) :
    (skip^[k] w).slots[i]? = some none := by
  induction k generalizing w with
  | zero => omega
  | succ k ih =>
    have same : w.skip.slots.length = w.slots.length := skips_length (by omega) 1
    rw [Function.iterate_succ_apply]
    by_cases last : w.slots.length ≤ k + i
    · exact ih (same ▸ inside) (same ▸ last)
    · have place : k + i = w.slots.tail.length := by
        rw [List.length_tail]
        omega
      rw [skips_inside (by omega), skip_slots, place, List.getElem?_concat_length]

/-- The frames are in their places, the passed ones were in order, and the next
one is less than half the numbers away. `pending` is a number that is not in the
window yet. -/
structure Orderly (pending : List Nat) (w : Window Nat) : Prop where
  size : w.slots.length = rxReordWinSize
  placed : ∀ i n, w.slots[i]? = some (some n) → n = w.start + i
  ahead : ∀ n ∈ pending, w.start ≤ n ∧ n < w.start + 2047
  increasing : w.passed.Pairwise (· > ·)
  behind : ∀ n ∈ w.passed, n < w.start
  close : w.passed.IsChain fun later earlier => later < earlier + 2048
  reach : ∀ last ∈ w.passed.head?,
    (pending ++ w.held = [] ∧ w.start = last + 1) ∨ ∃ n ∈ pending ++ w.held, n < last + 2048

namespace Orderly
variable {w : Window Nat} {pending : List Nat} {n : Nat}

theorem held_iff : n ∈ w.held ↔ ∃ i : Nat, w.slots[i]? = some (some n) := by
  rw [held, List.reduceOption_mem_iff, List.mem_iff_getElem?]

theorem held_range (orderly : Orderly pending w) (member : n ∈ w.held) :
    w.start ≤ n ∧ n < w.start + rxReordWinSize := by
  obtain ⟨i, slot⟩ := held_iff.mp member
  have inside := (List.getElem?_eq_some_iff.mp slot).1
  rw [orderly.size] at inside
  have place := orderly.placed i n slot
  omega

theorem shift_slots {i : Nat} (slot : w.shift.slots[i]? = some (some n)) : w.slots[i + 1]? = some (some n) := by
  rw [shift, List.getElem?_append] at slot
  split at slot
  · rwa [List.getElem?_tail] at slot
  · rw [List.getElem?_singleton] at slot
    split at slot <;> cases slot

theorem shift_placed (orderly : Orderly pending w) (i n : Nat) (slot : w.shift.slots[i]? = some (some n)) :
    n = w.shift.start + i := by
  have place := orderly.placed _ _ (shift_slots slot)
  simp only [shift]
  omega

/-- The numbers to come are not before the window. -/
theorem start_le (orderly : Orderly pending w) (member : n ∈ pending ++ w.held) : w.start ≤ n := by
  rcases List.mem_append.mp member with waiting | held
  · exact (orderly.ahead n waiting).1
  · exact (orderly.held_range held).1

theorem skip_full {rest : List (Option Nat)} (orderly : Orderly pending w)
    (later : ∀ n ∈ pending, w.start < n) (front : w.slots = some n :: rest) : Orderly pending w.skip := by
  have first : n = w.start := orderly.placed 0 n (by rw [front]; rfl)
  have held : n ∈ w.held := held_iff.mpr ⟨0, by rw [front]; rfl⟩
  have size : w.shift.slots.length = rxReordWinSize := by
    simp [shift, ← orderly.size, front]
  rw [skip_some front]
  refine ⟨size, orderly.shift_placed, ?_, ?_, ?_, ?_, ?_⟩
  · intro m member
    have bounds := orderly.ahead m member
    have after := later m member
    simp only [shift, pass]
    omega
  · apply List.pairwise_cons.mpr
    exact ⟨fun m member => first ▸ orderly.behind m member, orderly.increasing⟩
  · intro m member
    simp only [shift, pass] at member ⊢
    cases member with
    | head => omega
    | tail _ earlier => exact Nat.lt_succ_of_lt (orderly.behind m earlier)
  · apply List.isChain_cons.mpr
    refine ⟨fun last latest => ?_, orderly.close⟩
    -- one of the numbers to come is near, and none of them is before this one
    rcases orderly.reach last latest with ⟨none, -⟩ | ⟨m, member, near⟩
    · exact absurd (none ▸ List.mem_append_right pending held) List.not_mem_nil
    · have behind := orderly.start_le member
      omega
  · intro last latest
    obtain rfl : n = last := Option.some.inj latest
    by_cases none : pending ++ w.shift.held = []
    · exact Or.inl ⟨none, congrArg (· + 1) first.symm⟩
    · obtain ⟨m, member⟩ := List.exists_mem_of_ne_nil _ none
      refine Or.inr ⟨m, member, ?_⟩
      rcases List.mem_append.mp member with waiting | held
      · have bound := (orderly.ahead m waiting).2
        omega
      · obtain ⟨i, slot⟩ := held_iff.mp held
        have inside : i < 6 := (List.getElem?_eq_some_iff.mp slot).1.trans_eq size
        have place : m = w.start + 1 + i := orderly.shift_placed i m slot
        omega

theorem skip_clear (orderly : Orderly pending w) (later : ∀ n ∈ pending, w.start < n)
    (more : pending ++ w.held ≠ []) (clear : ∀ n rest, w.slots ≠ some n :: rest) : Orderly pending w.skip := by
  have same := shift_held clear
  rw [skip_none clear]
  refine ⟨?_, orderly.shift_placed, ?_, orderly.increasing, ?_, orderly.close, ?_⟩
  · have size : w.slots.length = 6 := orderly.size
    simp only [shift, List.length_append, List.length_tail, List.length_singleton, size]
  · intro m member
    have bounds := orderly.ahead m member
    have after := later m member
    simp only [shift]
    omega
  · exact fun m member => Nat.lt_succ_of_lt (orderly.behind m member)
  · intro last latest
    rw [same]
    exact Or.inr ((orderly.reach last latest).resolve_left fun none => more none.1)

theorem skip (orderly : Orderly pending w) (later : ∀ n ∈ pending, w.start < n)
    (more : pending ++ w.held ≠ []) : Orderly pending w.skip := by
  by_cases front : ∃ n rest, w.slots = some n :: rest
  · obtain ⟨n, rest, front⟩ := front
    exact orderly.skip_full later front
  · exact orderly.skip_clear later more fun n rest same => front ⟨n, rest, same⟩

theorem fresh (size : w.slots.length = rxReordWinSize) (empty : w.held = []) (none : w.passed = []) :
    Orderly [] w := by
  refine ⟨size, ?_, ?_, ?_, ?_, ?_, ?_⟩
  · intro i n slot
    exact absurd (empty ▸ held_iff.mpr ⟨i, slot⟩) List.not_mem_nil
  · exact fun n member => absurd member List.not_mem_nil
  · rw [none]
    exact List.Pairwise.nil
  · exact fun n member => absurd (none ▸ member) List.not_mem_nil
  · rw [none]
    exact List.isChain_nil
  · intro last latest
    rw [none] at latest
    cases latest

/-- A number that has come is less than half the numbers ahead. -/
theorem await (orderly : Orderly [] w) (early : w.start ≤ n) (near : n < w.start + 2047) : Orderly [n] w := by
  refine { orderly with ahead := fun m member => ?_, reach := fun last latest => ?_ }
  · obtain rfl := List.mem_singleton.mp member
    exact ⟨early, near⟩
  · rcases orderly.reach last latest with ⟨-, next⟩ | ⟨m, member, close⟩
    · exact Or.inr ⟨n, List.mem_append_left _ List.mem_cons_self, by omega⟩
    · exact Or.inr ⟨m, List.mem_append_right _ member, close⟩

theorem held_put {i m : Nat} (free : w.slots[i]? = some none) :
    m ∈ (w.put i n).held ↔ m = n ∨ m ∈ w.held := by
  have inside := (List.getElem?_eq_some_iff.mp free).1
  simp only [held_iff, put, List.getElem?_set]
  constructor
  · rintro ⟨j, slot⟩
    by_cases same : i = j
    · rw [if_pos same, if_pos inside] at slot
      exact Or.inl (Option.some.inj (Option.some.inj slot)).symm
    · rw [if_neg same] at slot
      exact Or.inr ⟨j, slot⟩
  · rintro (rfl | ⟨j, slot⟩)
    · exact ⟨i, by rw [if_pos rfl, if_pos inside]⟩
    · refine ⟨j, ?_⟩
      have different : i ≠ j := by
        rintro rfl
        rw [free] at slot
        cases slot
      rw [if_neg different, slot]

theorem put (orderly : Orderly [n] w) {i : Nat} (place : n = w.start + i) (free : w.slots[i]? = some none) :
    Orderly [] (w.put i n) := by
  refine ⟨?_, ?_, ?_, orderly.increasing, orderly.behind, orderly.close, ?_⟩
  · rw [Window.put, List.length_set, orderly.size]
  · intro j m slot
    rw [Window.put, List.getElem?_set] at slot
    split at slot
    next same =>
      split at slot
      · obtain rfl := Option.some.inj (Option.some.inj slot)
        rw [← same]
        exact place
      · cases slot
    next => exact orderly.placed j m slot
  · exact fun m member => absurd member List.not_mem_nil
  · intro last latest
    rcases orderly.reach last latest with ⟨none, -⟩ | ⟨m, member, close⟩
    · cases none
    · refine Or.inr ⟨m, ?_, close⟩
      rw [List.nil_append, held_put free]
      exact List.mem_cons.mp member

/-- The awaited number goes through the front place. -/
theorem put_skip {α : Type} {w : Window α} {a : α} {rest : List (Option α)} (front : w.slots = none :: rest) :
    (w.put 0 a).skip = (w.pass a).shift := by
  simp [Window.put, Window.skip, front, pass, shift]

theorem inOrder {rest : List (Option Nat)} (orderly : Orderly [] w) (front : w.slots = none :: rest) :
    Orderly [] ((w.pass w.start).shift) := by
  have free : w.slots[0]? = some none := by rw [front]; rfl
  have stored := (orderly.await le_rfl (by omega)).put rfl free
  have held : w.start ∈ (w.put 0 w.start).held := (held_put free).mpr (Or.inl rfl)
  rw [← put_skip front]
  apply stored.skip
  · exact fun n member => absurd member List.not_mem_nil
  · exact List.ne_nil_of_mem held

theorem forward (orderly : Orderly [] w) (rounds : Nat) : Orderly [] (w.forward rounds) := by
  induction rounds generalizing w with
  | zero => exact orderly
  | succ rounds ih =>
    rw [Window.forward]
    split
    next n rest front =>
      apply ih
      exact orderly.skip_full (fun m member => absurd member List.not_mem_nil) front
    next => exact orderly

theorem skips (orderly : Orderly [n] w) {k : Nat} (far : w.start + k ≤ n) : Orderly [n] (Window.skip^[k] w) := by
  induction k generalizing w with
  | zero => exact orderly
  | succ k ih =>
    have next : Orderly [n] w.skip := by
      apply orderly.skip
      · intro m member
        obtain rfl := List.mem_singleton.mp member
        omega
      · exact List.cons_ne_nil _ _
    apply ih next
    rw [skip_start]
    omega

end Orderly

end Window

/-! ## The window of the program -/

namespace Reorder
variable {s : Reorder} {frame : Nat} {rxInfo : RxInfo}

def number (s : Reorder) (frame : Nat) : Nat := (s.memory.content frame).seq

/-- The window with the numbers of the frames in the place of the frames. -/
def numbers (s : Reorder) : Window Nat := s.view.map s.number

theorem number_congr {t : Reorder} (same : t.memory.content = s.memory.content) : t.number = s.number := by
  funext frame
  rw [number, number, same]

theorem flushSlot_content {index : Nat} : (s.flushSlot index).memory.content = s.memory.content := by
  rw [flushSlot]
  split
  · rfl
  · exact Arena.access_content _ _

theorem flushRounds_content {i left : Nat} : (s.flushRounds i left).memory.content = s.memory.content := by
  induction left generalizing s i with
  | zero => rfl
  | succ left ih =>
    rw [flushRounds]
    split
    · rfl
    · rw [ih, flushSlot_content]

theorem fwdRounds_content {rounds : Nat} : (fwdRounds rounds s).memory.content = s.memory.content := by
  induction rounds generalizing s with
  | zero => rfl
  | succ rounds ih =>
    cases slot : s.element s.rxStatusPos with
    | none => rw [fwdRounds, slot]
    | some frame =>
      rw [fwdRounds_some slot, ih]
      exact flushSlot_content

theorem free_of_held_nil {index : Nat} (none : s.held = []) (inside : index < rxReordWinSize) :
    s.element index = .none :=
  List.filterMap_eq_nil_iff.mp none index (List.mem_range.mpr inside)

theorem viewFrom_of_held_nil (none : s.held = []) (i left : Nat) :
    s.viewFrom (i + left) = Window.skip^[left] (s.viewFrom i) := by
  induction left generalizing i with
  | zero => rfl
  | succ left ih =>
    have step := flushSlot_view (s := s) (i := i)
    rw [flushSlot, free_of_held_nil none (Nat.mod_lt _ (by decide))] at step
    rw [Function.iterate_succ_apply, ← step, ← ih, Nat.add_assoc, Nat.add_comm 1]

theorem flushRounds_view (counted : s.Counted) (i left : Nat) :
    (s.flushRounds i left).viewFrom (i + left) = Window.skip^[left] (s.viewFrom i) := by
  induction left generalizing s i with
  | zero => rfl
  | succ left ih =>
    rw [flushRounds]
    split
    next zero =>
      -- the loop stops early, with nothing left to pass on
      rw [Counted, zero] at counted
      exact viewFrom_of_held_nil (List.length_eq_zero_iff.mp counted.symm) i (left + 1)
    next =>
      have inside : (s.rxStatusPos + i) % rxReordWinSize < rxReordWinSize := Nat.mod_lt _ (by decide)
      rw [Function.iterate_succ_apply, ← flushSlot_view, ← ih (counted.flushSlot inside), Nat.add_assoc, Nat.add_comm 1]

theorem flush_view (counted : s.Counted) (k : UInt16) : (s.rwmReorderFlush k).view = Window.skip^[k.toNat] s.view := by
  have seen := flushRounds_view counted 0 k.toNat
  rw [Nat.zero_add] at seen
  rw [flush_eq, view, moved_view]
  exact seen

theorem flush_numbers (counted : s.Counted) (k : UInt16) :
    (s.rwmReorderFlush k).numbers = Window.skip^[k.toNat] s.numbers := by
  have same : (s.rwmReorderFlush k).number = s.number := number_congr flushRounds_content
  rw [numbers, same, flush_view counted, ← Window.map_skips]
  rfl

theorem fwd_numbers : s.rwmReorderFwd.numbers = s.numbers.forward rxReordWinSize := by
  have same : s.rwmReorderFwd.number = s.number := number_congr fwdRounds_content
  rw [numbers, same, rwmReorderFwd, fwdRounds_view, ← Window.map_forward]
  rfl

theorem view_slot {i : Nat} (inside : i < rxReordWinSize) :
    s.view.slots[i]? = some (s.element ((s.rxStatusPos + i) % rxReordWinSize)) := by
  have listed : s.view.slots = around s.element rxReordWinSize s.rxStatusPos := by
    rw [view, viewFrom, position_eq]
  rw [listed, around_getElem? inside]

theorem numbers_slot {i : Nat} (inside : i < rxReordWinSize) :
    s.numbers.slots[i]? = some ((s.element ((s.rxStatusPos + i) % rxReordWinSize)).map s.number) := by
  rw [numbers, Window.map, List.getElem?_map, view_slot inside, Option.map_some]

theorem numbers_front (empty : s.element s.rxStatusPos = none) : ∃ rest, s.numbers.slots = none :: rest := by
  obtain ⟨rest, front⟩ := front_of_empty empty
  exact ⟨rest.map (Option.map s.number), by rw [numbers, Window.map, front]; rfl⟩

theorem slotOf_eq (pos : UInt16) : s.slotOf pos = (s.rxStatusPos + pos.toNat) % rxReordWinSize := by
  rw [slotOf, Nat.add_comm]

theorem store_numbers {pos : UInt16} (inside : pos.toNat < rxReordWinSize)
    (free : s.element (s.slotOf pos) = none) :
    (s.store frame pos).2.numbers = s.numbers.put pos.toNat (s.number frame) := by
  have stored := @around_update _ s.element _ s.rxStatusPos _ (some frame) inside
  rw [← slotOf_eq, ← position_eq] at stored
  rw [store, free]
  simp only [numbers, view, viewFrom, Window.map, Window.put, stored, List.map_set, Option.map_some]
  rfl

/-! ## The number of the window -/

/-- `win_start` is the low part of the number that the window waits for. -/
structure Tracks (s : Reorder) : Prop where
  low : s.winStart.toNat = s.start % 4096
  opened : s.isFirstPacket = false

theorem masked (n : UInt16) : (n &&& macSeqctrlNumMax).toNat = n.toNat % 4096 := by
  rw [UInt16.toNat_and]
  exact Nat.and_two_pow_sub_one_eq_mod n.toNat 12

theorem Tracks.moved (tracks : s.Tracks) (k : UInt16) : (s.moved k).Tracks := by
  refine ⟨?_, tracks.opened⟩
  have low := tracks.low
  simp only [Reorder.moved, masked, UInt16.toNat_add]
  omega

theorem Tracks.flushSlot {index : Nat} (tracks : s.Tracks) : (s.flushSlot index).Tracks := by
  rw [Reorder.flushSlot]
  split
  · exact tracks
  · exact ⟨tracks.low, tracks.opened⟩

theorem Tracks.flushRounds {i left : Nat} (tracks : s.Tracks) : (s.flushRounds i left).Tracks := by
  induction left generalizing s i with
  | zero => exact tracks
  | succ left ih =>
    rw [Reorder.flushRounds]
    split
    · exact tracks
    · exact ih tracks.flushSlot

theorem Tracks.fwdRounds {rounds : Nat} (tracks : s.Tracks) : (Reorder.fwdRounds rounds s).Tracks := by
  induction rounds generalizing s with
  | zero => exact tracks
  | succ rounds ih =>
    cases slot : s.element s.rxStatusPos with
    | none => rwa [Reorder.fwdRounds, slot]
    | some frame =>
      rw [fwdRounds_some slot]
      exact ih (tracks.flushSlot.moved 1)

/-- The sender's number is less than half the numbers away from the window's. -/
structure Near (rxInfo : RxInfo) (s : Reorder) : Prop where
  low : rxInfo.sn.toNat = rxInfo.seq % 4096
  ahead : rxInfo.seq < s.start + 2048
  behind : s.start ≤ rxInfo.seq + 2048

theorem Near.awaited_iff (near : Near rxInfo s) (tracks : s.Tracks) :
    rxInfo.sn = s.winStart ↔ rxInfo.seq = s.start := by
  have number := near.low
  have low := tracks.low
  have ahead := near.ahead
  have behind := near.behind
  rw [← UInt16.toNat_inj]
  omega

theorem Near.snPos_eq (near : Near rxInfo s) (tracks : s.Tracks) :
    (s.snPos rxInfo).toNat = if s.start ≤ rxInfo.seq then rxInfo.seq - s.start else 4096 + rxInfo.seq - s.start := by
  have number := near.low
  have low := tracks.low
  have ahead := near.ahead
  have behind := near.behind
  rw [snPos, masked, UInt16.toNat_sub]
  split <;> omega

/-! ## The events -/

/-- What the window keeps when it is never moved to a frame that it holds. -/
structure Waits (hand : List Nat) (s : Reorder) : Prop where
  counted : s.Counted
  owns : s.Owns hand
  front : s.element s.rxStatusPos = none
  orderly : s.numbers.Orderly []

theorem free_of_front {t : Reorder} (clear : ∀ frame rest, t.view.slots ≠ some frame :: rest) :
    t.element t.rxStatusPos = none := by
  by_contra occupied
  obtain ⟨frame, slot⟩ := Option.ne_none_iff_exists'.mp occupied
  obtain ⟨rest, front⟩ := front_of_slot slot
  exact clear frame rest front

theorem held_view : s.view.held.length = s.held.length := held_perm.length_eq

/-- After `rwm_reorder_fwd` the front slot is free. -/
theorem fwd_front : s.rwmReorderFwd.element s.rwmReorderFwd.rxStatusPos = none := by
  apply free_of_front
  rw [rwmReorderFwd, fwdRounds_view]
  apply Window.forward_front
  rw [held_view]
  exact held_length_le

theorem moved_one_numbers (empty : s.element s.rxStatusPos = none) : (s.moved 1).numbers = s.numbers.shift := by
  have seen := flushSlot_view_front (s := s)
  have clear : ∀ frame rest, s.view.slots ≠ some frame :: rest := by
    intro frame rest same
    obtain ⟨others, front⟩ := front_of_empty empty
    rw [front] at same
    cases same
  rw [flushSlot, empty, Window.skip_none clear] at seen
  have same : (s.moved 1).number = s.number := rfl
  rw [numbers, seen, same]
  simp [numbers, Window.map, Window.shift]

theorem inOrder_waits {now : UInt32} (waits : s.Waits [frame]) (awaited : s.number frame = s.start) :
    (s.inOrder frame now).2.Waits [] := by
  have conserved := @inOrder_conserved _ _ now waits.counted waits.owns waits.front
  refine ⟨conserved.counted, conserved.owned, fwd_front, ?_⟩
  obtain ⟨rest, front⟩ := numbers_front waits.front
  have delivered : ((s.ethernetifInput frame).stamp now).numbers = s.numbers.pass s.numbers.start := by
    have same : ((s.ethernetifInput frame).stamp now).number = s.number :=
      number_congr (Arena.access_content _ _)
    have start : s.numbers.start = s.number frame := awaited.symm
    rw [numbers, same, start]
    rfl
  have free : ((s.ethernetifInput frame).stamp now).element s.rxStatusPos = none := waits.front
  rw [inOrder, update_of_empty free, fwd_numbers, moved_one_numbers free, delivered]
  exact (waits.orderly.inOrder front).forward _

theorem giveUp_waits (waits : s.Waits []) (some : s.oooPktCnt ≠ 0) : s.giveUp.rwmReorderFwd.Waits [] := by
  have conserved := giveUp_conserved (s := s) ⟨waits.counted, waits.owns⟩
  have moved : s.giveUp.Counted := conserved.counted
  refine ⟨moved.fwdRounds, @Owns.fwdRounds _ [] _ conserved.owned, fwd_front, ?_⟩
  have more : s.numbers.held ≠ [] := by
    intro none
    have empty := congrArg List.length none
    rw [numbers, Window.map_held, List.length_map, held_view, ← waits.counted] at empty
    exact some (UInt8.toNat_inj.mp empty)
  obtain ⟨rest, front⟩ := numbers_front waits.front
  have clear : ∀ n others, s.numbers.slots ≠ .some n :: others := by
    intro n others same
    rw [front] at same
    cases same
  have up : s.giveUp = s.moved 1 := by
    rw [giveUp, waits.front]
    exact update_of_empty waits.front
  rw [fwd_numbers, up, moved_one_numbers waits.front, ← Window.skip_none clear]
  apply Window.Orderly.forward
  exact waits.orderly.skip (fun n member => absurd member List.not_mem_nil) more

theorem pbufFree_waits (waits : s.Waits [frame]) : (s.pbufFree frame).Waits [] := by
  have same : (s.pbufFree frame).number = s.number := number_congr (Arena.access_content _ _)
  have numbers : (s.pbufFree frame).numbers = s.numbers := by
    rw [Reorder.numbers, same]
    rfl
  exact ⟨waits.counted, waits.owns.free, waits.front, numbers ▸ waits.orderly⟩

/-- A frame for a place behind the front leaves the front as it is. -/
theorem store_front {pos : UInt16} (behind : 0 < pos.toNat) (inside : pos.toNat < rxReordWinSize) :
    (s.store frame pos).2.element (s.store frame pos).2.rxStatusPos = s.element s.rxStatusPos := by
  cases slot : s.element (s.slotOf pos) with
  | some old =>
    rw [store, slot]
    rfl
  | none =>
    have other : (s.rxStatusPos : Nat) ≠ s.slotOf pos := by
      rw [slotOf_eq]
      nth_rewrite 1 [← position_eq]
      rw [ne_eq, place_inj (by decide) inside]
      exact behind.ne
    rw [store, slot]
    exact Function.update_of_ne other _ _

/-- A frame for a free place behind the front goes there. -/
theorem store_waits {pos : UInt16} (counted : s.Counted) (owns : s.Owns [frame])
    (front : s.element s.rxStatusPos = none) (orderly : s.numbers.Orderly [s.number frame])
    (behind : 0 < pos.toNat) (inside : pos.toNat < rxReordWinSize) (place : s.number frame = s.start + pos.toNat)
    (free : s.element (s.slotOf pos) = none) : (s.store frame pos).2.Waits [] := by
  have conserved := @store_conserved _ _ pos counted owns
  refine ⟨conserved.counted, conserved.owned, ?_, ?_⟩
  · rw [store_front behind inside, front]
  · have slot : s.numbers.slots[pos.toNat]? = some none := by
      rw [numbers_slot inside, ← slotOf_eq, free]
      rfl
    rw [store_numbers inside free]
    exact orderly.put place slot

/-- A number in the window. -/
theorem inside_waits (waits : s.Waits [frame]) (tracks : s.Tracks) (near : Near rxInfo s)
    (number : s.number frame = rxInfo.seq) (late : rxInfo.sn ≠ s.winStart)
    (inside : (s.snPos rxInfo).toNat < rxReordWinSize) : (s.store frame (s.snPos rxInfo)).2.Waits [] := by
  have position := near.snPos_eq tracks
  have different := mt (near.awaited_iff tracks).mpr late
  have ahead := near.ahead
  have behind := near.behind
  have inside' : (s.snPos rxInfo).toNat < 6 := inside
  have early : s.start ≤ rxInfo.seq := by
    by_contra old
    rw [if_neg old] at position
    omega
  rw [if_pos early] at position
  cases slot : s.element (s.slotOf (s.snPos rxInfo)) with
  | some old =>
    have kept : (s.store frame (s.snPos rxInfo)).2 = s.pbufFree frame := by rw [store, slot]
    exact kept ▸ pbufFree_waits waits
  | none =>
    apply store_waits waits.counted waits.owns waits.front ?_ ?_ inside ?_ slot
    · apply waits.orderly.await
      · rw [number]
        exact early
      · rw [number, show s.numbers.start = s.start from rfl]
        omega
    · omega
    · omega

/-- The number is beyond the window, which moves so that it is the last one in. -/
def Moves (rxInfo : RxInfo) (s : Reorder) : Prop :=
  rxReordWinSize ≤ (s.snPos rxInfo).toNat ∧ s.snPos rxInfo < macSeqctrlNumMax >>> 1

instance : Decidable (s.Moves rxInfo) := inferInstanceAs (Decidable (_ ∧ _))

/-- By how much. -/
def skipped (rxInfo : RxInfo) (s : Reorder) : UInt16 := s.snPos rxInfo - UInt16.ofNat rxReordWinSize + 1

theorem skipped_eq (moves : s.Moves rxInfo) : (s.skipped rxInfo).toNat = (s.snPos rxInfo).toNat - 5 := by
  have far : 6 ≤ (s.snPos rxInfo).toNat := moves.1
  have bound := (s.snPos rxInfo).toNat_lt
  have six : (UInt16.ofNat rxReordWinSize).toNat = 6 := rfl
  have one : (1 : UInt16).toNat = 1 := rfl
  rw [skipped, UInt16.toNat_add, UInt16.toNat_sub, six, one]
  omega

theorem outOfOrder_moves (moves : s.Moves rxInfo) : s.outOfOrder frame rxInfo =
    (s.rwmReorderFlush (s.skipped rxInfo)).store frame ((s.rwmReorderFlush (s.skipped rxInfo)).snPos rxInfo) := by
  rw [outOfOrder, if_pos moves.1, if_pos moves.2]
  rfl

theorem Moves.lt (moves : s.Moves rxInfo) : (s.snPos rxInfo).toNat < 2047 := UInt16.lt_iff_toNat_lt.mp moves.2

variable {k : UInt16} {i : Nat}

theorem flush_tracks (tracks : s.Tracks) : (s.rwmReorderFlush k).Tracks := tracks.flushRounds.moved k

theorem free_iff (inside : i < rxReordWinSize) :
    s.element ((s.rxStatusPos + i) % rxReordWinSize) = none ↔ s.numbers.slots[i]? = some none := by
  rw [numbers_slot inside, Option.some_inj, Option.map_eq_none_iff]

theorem front_iff : s.element s.rxStatusPos = none ↔ s.numbers.slots[0]? = some none := by
  have first := free_iff (s := s) (i := 0) (by decide)
  rwa [position_eq] at first

theorem numbers_length : s.numbers.slots.length = rxReordWinSize := by
  rw [numbers, Window.map, List.length_map, view, viewFrom, around_length]

/-- What is in front when the window has moved. -/
theorem flush_front (counted : s.Counted) :
    (s.rwmReorderFlush k).element (s.rwmReorderFlush k).rxStatusPos = none ↔
      (k.toNat < rxReordWinSize → s.element ((s.rxStatusPos + k.toNat) % rxReordWinSize) = none) := by
  rw [front_iff, flush_numbers counted]
  by_cases inside : k.toNat < rxReordWinSize
  · have stays := Window.skips_inside (w := s.numbers) (k := k.toNat) (i := 0) (by rwa [numbers_length])
    rw [stays, Nat.add_zero, ← free_iff inside]
    exact ⟨fun free _ => free, fun free => free inside⟩
  · have gone := Window.skips_beyond (w := s.numbers) (k := k.toNat) (i := 0) (by rw [numbers_length]; decide)
      (by rw [numbers_length]; omega)
    exact ⟨fun _ absurd => (inside absurd).elim, fun _ => gone⟩

/-- The last place after a move is free, and it is the one for the frame. -/
theorem flush_last (counted : s.Counted) (some : 0 < k.toNat) :
    (s.rwmReorderFlush k).numbers.slots[5]? = .some none := by
  rw [flush_numbers counted]
  apply Window.skips_beyond
  · rw [numbers_length]
    decide
  · have six : s.numbers.slots.length = 6 := numbers_length
    omega

theorem Near.ahead_of_moves (near : Near rxInfo s) (tracks : s.Tracks) (moves : s.Moves rxInfo) :
    rxInfo.seq = s.start + (s.snPos rxInfo).toNat := by
  have position := near.snPos_eq tracks
  have bound := moves.lt
  have behind := near.behind
  by_cases early : s.start ≤ rxInfo.seq
  · rw [if_pos early] at position
    omega
  · rw [if_neg early] at position
    omega

theorem flush_start (counted : s.Counted) : (s.rwmReorderFlush k).start = s.start + k.toNat := by
  have start := congrArg Window.start (flush_numbers counted k)
  rwa [Window.skips_start] at start

/-- The number is the last one of the window that has moved. -/
theorem snPos_moved (counted : s.Counted) (tracks : s.Tracks) (near : Near rxInfo s) (moves : s.Moves rxInfo) :
    ((s.rwmReorderFlush (s.skipped rxInfo)).snPos rxInfo).toNat = 5 := by
  have seq := near.ahead_of_moves tracks moves
  have skipped := skipped_eq moves
  have far : 6 ≤ (s.snPos rxInfo).toNat := moves.1
  have start := flush_start (k := s.skipped rxInfo) counted
  have ahead := near.ahead
  have moved : Near rxInfo (s.rwmReorderFlush (s.skipped rxInfo)) := by
    refine ⟨near.low, ?_, ?_⟩ <;> omega
  rw [moved.snPos_eq (flush_tracks tracks), if_pos (by omega)]
  omega

/-- A number beyond the window. -/
theorem moves_waits (waits : s.Waits [frame]) (tracks : s.Tracks) (near : Near rxInfo s)
    (number : s.number frame = rxInfo.seq) (moves : s.Moves rxInfo)
    (clear : (s.skipped rxInfo).toNat < rxReordWinSize →
      s.element ((s.rxStatusPos + (s.skipped rxInfo).toNat) % rxReordWinSize) = none) :
    ((s.rwmReorderFlush (s.skipped rxInfo)).store frame
      ((s.rwmReorderFlush (s.skipped rxInfo)).snPos rxInfo)).2.Waits [] := by
  have seq := near.ahead_of_moves tracks moves
  have skipped := skipped_eq moves
  have far : 6 ≤ (s.snPos rxInfo).toNat := moves.1
  have start := flush_start (k := s.skipped rxInfo) waits.counted
  have five := snPos_moved waits.counted tracks near moves
  have same : (s.rwmReorderFlush (s.skipped rxInfo)).number frame = rxInfo.seq := by
    rw [← number]
    exact congrFun (number_congr flushRounds_content) frame
  apply store_waits
  · exact waits.counted.flushRounds
  · exact waits.owns.flushRounds
  · exact (flush_front waits.counted).mpr clear
  · rw [flush_numbers waits.counted, same]
    apply Window.Orderly.skips
    · have bound := moves.lt
      apply waits.orderly.await
      · rw [show s.numbers.start = s.start from rfl]
        omega
      · rw [show s.numbers.start = s.start from rfl]
        omega
    · rw [show s.numbers.start = s.start from rfl]
      omega
  · omega
  · rw [five]
    decide
  · omega
  · rw [slotOf_eq, five, free_iff (by decide)]
    exact flush_last waits.counted (by omega)

theorem outOfOrder_waits (waits : s.Waits [frame]) (tracks : s.Tracks) (near : Near rxInfo s)
    (number : s.number frame = rxInfo.seq) (late : rxInfo.sn ≠ s.winStart)
    (clear : s.Moves rxInfo → (s.skipped rxInfo).toNat < rxReordWinSize →
      s.element ((s.rxStatusPos + (s.skipped rxInfo).toNat) % rxReordWinSize) = none) :
    (s.outOfOrder frame rxInfo).2.Waits [] := by
  rw [outOfOrder]
  split
  next beyond =>
    split
    next ahead =>
      have moves : s.Moves rxInfo := ⟨beyond, ahead⟩
      exact moves_waits waits tracks near number moves (clear moves)
    next => exact pbufFree_waits waits
  next inside => exact inside_waits waits tracks near number late (Nat.lt_of_not_le inside)

/-! ### Frames that come first -/

theorem numbers_receive (owns : s.Owns []) : (s.receive rxInfo).numbers = s.numbers := by
  apply Window.map_congr
  intro frame member
  have known : frame ∈ s.held ++ s.delivered := by
    have moved := held_perm (s := s) (i := 0)
    exact (moved.append_right s.delivered).mem_iff.mp member
  have old : frame ≠ s.memory.count := (Nat.ne_of_lt ((Arena.Owned.mem_iff owns).mp known).1)
  have same : Function.update s.memory.content s.memory.count rxInfo frame = s.memory.content frame :=
    Function.update_of_ne old _ _
  exact congrArg RxInfo.seq same

theorem openWindow_tracks (low : s.winStart.toNat = s.start % 4096) (near : Near rxInfo (s.openWindow rxInfo)) :
    (s.openWindow rxInfo).Tracks := by
  have number := near.low
  cases first : s.isFirstPacket with
  | true =>
    rw [openWindow, if_pos first]
    exact ⟨number, rfl⟩
  | false =>
    rw [openWindow, first]
    exact ⟨low, first⟩

/-- What is kept from event to event. -/
structure Keeps (s : Reorder) : Prop where
  waits : s.Waits []
  low : s.winStart.toNat = s.start % 4096
  unopened : s.isFirstPacket = true → s.held = [] ∧ s.delivered = []

theorem boot_keeps (memory : Nat → RxInfo) : (Reorder.boot memory).Keeps := by
  have conserved := boot_conserved memory
  refine ⟨⟨conserved.counted, conserved.owned, rfl, ?_⟩, rfl, fun _ => ⟨rfl, rfl⟩⟩
  exact Window.Orderly.fresh rfl rfl rfl

theorem receive_waits (waits : s.Waits []) : (s.receive rxInfo).Waits [s.memory.count] :=
  ⟨waits.counted, waits.owns.receive rxInfo, waits.front, (numbers_receive waits.owns).symm ▸ waits.orderly⟩

theorem openWindow_waits {hand : List Nat} (waits : s.Waits hand)
    (unopened : s.isFirstPacket = true → s.held = [] ∧ s.delivered = []) : (s.openWindow rxInfo).Waits hand := by
  cases first : s.isFirstPacket with
  | false =>
    rw [openWindow, first]
    exact waits
  | true =>
    obtain ⟨none, nothing⟩ := unopened first
    have owns : (s.openWindow rxInfo).Owns hand := waits.owns.openWindow
    have counted : (s.openWindow rxInfo).Counted := waits.counted.openWindow
    have held : (s.openWindow rxInfo).held = [] := by
      rw [openWindow, if_pos first]
      exact none
    have passed : (s.openWindow rxInfo).delivered = [] := by
      rw [openWindow, if_pos first]
      exact nothing
    refine ⟨counted, owns, free_of_held_nil held (Fin.isLt _), ?_⟩
    apply Window.Orderly.fresh numbers_length
    · rw [numbers, Window.map_held, List.map_eq_nil_iff, ← List.length_eq_zero_iff, held_view, held]
      rfl
    · exact congrArg (List.map (s.openWindow rxInfo).number) passed

theorem store_tracks {pos : UInt16} (tracks : s.Tracks) : (s.store frame pos).2.Tracks := by
  rw [store]
  split
  · exact ⟨tracks.low, tracks.opened⟩
  · exact ⟨tracks.low, tracks.opened⟩

theorem outOfOrder_tracks (tracks : s.Tracks) : (s.outOfOrder frame rxInfo).2.Tracks := by
  rw [outOfOrder]
  split
  · split
    · exact store_tracks (flush_tracks tracks)
    · exact ⟨tracks.low, tracks.opened⟩
  · exact store_tracks tracks

theorem inOrder_tracks {now : UInt32} (tracks : s.Tracks) (front : s.element s.rxStatusPos = none) :
    (s.inOrder frame now).2.Tracks := by
  have free : ((s.ethernetifInput frame).stamp now).element s.rxStatusPos = none := front
  have same : ((s.ethernetifInput frame).stamp now).Tracks := ⟨tracks.low, tracks.opened⟩
  rw [inOrder, update_of_empty free]
  exact (same.moved 1).fwdRounds

end Reorder

/-! ## Runs -/

/-- A frame is near the window that it finds, or opens. -/
def NearWindow (s : Reorder) : Event → Prop
  | .frame rxInfo _ => Reorder.Near rxInfo (s.openWindow rxInfo)
  | .timeout _ => True

/-- A frame goes through the window. -/
def Windowed : Event → Prop
  | .frame rxInfo _ => rxInfo.Reordered
  | .timeout _ => True

/-- No frame moves the window to a number whose frame is there already. -/
def MovesClear (s : Reorder) : Event → Prop
  | .frame rxInfo _ => (s.openWindow rxInfo).Moves rxInfo →
    ((s.openWindow rxInfo).skipped rxInfo).toNat < rxReordWinSize →
      (s.openWindow rxInfo).element (((s.openWindow rxInfo).rxStatusPos +
        ((s.openWindow rxInfo).skipped rxInfo).toNat) % rxReordWinSize) = none
  | .timeout _ => True

/-- The frames went up in the order of their numbers, each less than half the
numbers after the one before, and the window waits for a frame that it does
not have. -/
structure Ordered (s : Reorder) : Prop where
  front : s.element s.rxStatusPos = none
  increasing : (s.delivered.map s.number).Pairwise (· > ·)
  close : (s.delivered.map s.number).IsChain fun later earlier => later < earlier + 2048

section
open Reorder
variable {s t : Reorder} {event : Event} {rxInfo : RxInfo} {now : UInt32}

theorem Reorder.Keeps.ordered (keeps : s.Keeps) : Ordered s :=
  ⟨keeps.waits.front, keeps.waits.orderly.increasing, keeps.waits.orderly.close⟩

/-- A frame for the window, from the moment that it finds the window open. -/
theorem upload_windowed (windowed : rxInfo.Reordered) :
    (s.receive rxInfo).rwmUploadData s.memory.count rxInfo now =
      if rxInfo.sn = ((s.openWindow rxInfo).receive rxInfo).winStart then
        ((s.openWindow rxInfo).receive rxInfo).inOrder s.memory.count now
      else ((s.openWindow rxInfo).receive rxInfo).outOfOrder s.memory.count rxInfo := by
  obtain ⟨plain, type⟩ := windowed
  rw [rwmUploadData, if_neg (by rw [plain]; decide), if_pos type, openWindow_receive]

theorem number_receive : (s.receive rxInfo).number s.memory.count = rxInfo.seq := by
  have same : Function.update s.memory.content s.memory.count rxInfo s.memory.count = rxInfo :=
    Function.update_self _ _ _
  exact congrArg RxInfo.seq same

theorem count_openWindow : (s.openWindow rxInfo).memory = s.memory := by
  rw [openWindow]
  split <;> rfl

/-- A frame that the window is for finds all that it needs. -/
theorem Reorder.Keeps.received (keeps : s.Keeps) (near : NearWindow s (.frame rxInfo now)) :
    ((s.openWindow rxInfo).receive rxInfo).Waits [s.memory.count] ∧
      ((s.openWindow rxInfo).receive rxInfo).Tracks ∧ Near rxInfo ((s.openWindow rxInfo).receive rxInfo) ∧
        ((s.openWindow rxInfo).receive rxInfo).number s.memory.count = rxInfo.seq := by
  have waits := @receive_waits _ rxInfo (@openWindow_waits _ rxInfo _ keeps.waits keeps.unopened)
  have tracks := openWindow_tracks keeps.low near
  have number := @number_receive (s.openWindow rxInfo) rxInfo
  rw [count_openWindow] at waits number
  exact ⟨waits, ⟨tracks.low, tracks.opened⟩, ⟨near.low, near.ahead, near.behind⟩, number⟩

theorem Reorder.Waits.keeps (waits : t.Waits []) (tracks : t.Tracks) : t.Keeps :=
  ⟨waits, tracks.low, fun first => absurd (tracks.opened.symm.trans first) Bool.false_ne_true⟩

theorem frame_keeps (keeps : s.Keeps) (near : NearWindow s (.frame rxInfo now)) (windowed : rxInfo.Reordered)
    (clear : MovesClear s (.frame rxInfo now)) :
    ((s.receive rxInfo).rwmUploadData s.memory.count rxInfo now).2.Keeps := by
  obtain ⟨waits, tracks, close, number⟩ := keeps.received near
  rw [upload_windowed windowed]
  split
  next awaited =>
    apply (inOrder_waits waits ?_).keeps (inOrder_tracks tracks waits.front)
    rw [number]
    exact (close.awaited_iff tracks).mp awaited
  next late =>
    apply Waits.keeps
    · exact outOfOrder_waits waits tracks close number late clear
    · exact outOfOrder_tracks tracks

theorem timeout_keeps (keeps : s.Keeps) : (s.rwmReordTimeoutCb now).Keeps := by
  have armed : s.rearm.Keeps := ⟨⟨keeps.waits.counted, keeps.waits.owns, keeps.waits.front, keeps.waits.orderly⟩,
    keeps.low, keeps.unopened⟩
  rw [rwmReordTimeoutCb]
  split
  · exact armed
  next some =>
    split
    · exact armed
    have waits := giveUp_waits (s := s.rearm) armed.waits some
    have opened : s.isFirstPacket = false := by
      -- before the first frame there is nothing to give up
      apply Bool.eq_false_iff.mpr
      intro first
      have counted := keeps.waits.counted
      rw [Counted, (keeps.unopened first).1] at counted
      exact some (UInt8.toNat_inj.mp counted)
    have tracks : s.rearm.Tracks := ⟨keeps.low, opened⟩
    have up : s.rearm.giveUp = s.rearm.moved 1 := by
      have empty : s.rearm.element s.rearm.rxStatusPos = none := keeps.waits.front
      rw [giveUp, empty]
      exact update_of_empty empty
    apply waits.keeps
    rw [up]
    exact (tracks.moved 1).fwdRounds

theorem step_keeps (keeps : s.Keeps) (allowed : NearWindow s event ∧ Windowed event) (clear : MovesClear s event)
    (taken : step event s = some t) : t.Keeps := by
  cases event with
  | frame rxInfo now =>
    obtain rfl := Option.some.inj taken
    exact frame_keeps keeps allowed.1 allowed.2 clear
  | timeout now =>
    rw [step] at taken
    split at taken
    · obtain rfl := Option.some.inj taken
      exact timeout_keeps keeps
    · cases taken

/-- A window that was moved to a frame that it holds stops there. -/
theorem step_stuck (keeps : s.Keeps) (allowed : NearWindow s event ∧ Windowed event) (onto : ¬MovesClear s event)
    (taken : step event s = some t) : ¬Ordered t := by
  cases event with
  | timeout now => exact absurd trivial onto
  | frame rxInfo now =>
    obtain rfl := Option.some.inj taken
    obtain ⟨waits, tracks, close, number⟩ := keeps.received allowed.1
    rw [MovesClear, Classical.not_imp] at onto
    obtain ⟨moves, onto⟩ := onto
    have moved : ((s.openWindow rxInfo).receive rxInfo).Moves rxInfo := moves
    have late : rxInfo.sn ≠ ((s.openWindow rxInfo).receive rxInfo).winStart := by
      intro awaited
      have seq := close.ahead_of_moves tracks moved
      have far : 6 ≤ (((s.openWindow rxInfo).receive rxInfo).snPos rxInfo).toNat := moved.1
      have same := (close.awaited_iff tracks).mp awaited
      omega
    have five := snPos_moved waits.counted tracks close moved
    have occupied := mt (flush_front waits.counted).mp onto
    rw [upload_windowed allowed.2, if_neg late, outOfOrder_moves moved]
    intro ordered
    have front := ordered.front
    rw [store_front (by rw [five]; decide) (by rw [five]; decide)] at front
    exact occupied front

/-- When the frames of a run go through the window and their numbers are never
half the numbers away from it, the run delivers in order and without holding a
frame back, in all its states, if and only if the window never moves to a number
whose frame is there. -/
theorem delivery_ordered_iff {memory : Nat → RxInfo} {moments : List (Moment Reorder Event)}
    (run : Run (Machine.Step step) (Reorder.boot memory) moments s)
    (near : ∀ moment ∈ moments, NearWindow moment.before moment.event)
    (windowed : ∀ moment ∈ moments, Windowed moment.event) :
    Machine.Always Ordered moments s ↔ ∀ moment ∈ moments, MovesClear moment.before moment.event :=
  Machine.always_iff_of_invariant run (boot_keeps memory) (fun _ keeps => keeps.ordered) step_keeps step_stuck
    fun moment member => ⟨near moment member, windowed moment member⟩

end

/-! ## Sample runs -/

instance (s : Reorder) (event : Event) : Decidable (MovesClear s event) :=
  match event with
  | .frame _ _ => inferInstanceAs (Decidable (_ → _ → _))
  | .timeout _ => inferInstanceAs (Decidable True)

instance (rxInfo : RxInfo) (s : Reorder) : Decidable (Reorder.Near rxInfo s) :=
  decidable_of_iff (rxInfo.sn.toNat = rxInfo.seq % 4096 ∧ rxInfo.seq < s.start + 2048 ∧ s.start ≤ rxInfo.seq + 2048)
    ⟨fun near => ⟨near.1, near.2.1, near.2.2⟩, fun near => ⟨near.low, near.ahead, near.behind⟩⟩

instance (s : Reorder) (event : Event) : Decidable (NearWindow s event) :=
  match event with
  | .frame _ _ => inferInstanceAs (Decidable (Reorder.Near _ _))
  | .timeout _ => inferInstanceAs (Decidable True)

instance (event : Event) : Decidable (Windowed event) :=
  match event with
  | .frame rxInfo _ => inferInstanceAs (Decidable rxInfo.Reordered)
  | .timeout _ => inferInstanceAs (Decidable True)

def Admissible (s : Reorder) (event : Event) : Prop := NearWindow s event ∧ Windowed event

instance (s : Reorder) (event : Event) : Decidable (Admissible s event) := inferInstanceAs (Decidable (_ ∧ _))

instance (s : Reorder) (event : Event) : Decidable (Admissible s event ∧ MovesClear s event) :=
  inferInstanceAs (Decidable (_ ∧ _))

/-- The numbers go past 4096, and the window moves. -/
def aroundTheWrap : List Event :=
  [arrives 4104, arrives 4101, .timeout 60000, arrives 4105, arrives 4095, arrives 4096, arrives 4094]

theorem wrap_ordered : ∃ moments s, Run (Machine.Step Reorder.step) silent moments s ∧
    s.delivered.map s.number = [4101, 4096, 4095, 4094] ∧ Machine.Always Ordered moments s := by
  have wrapped : (Machine.replay (Machine.guarded (fun s event => Admissible s event ∧ MovesClear s event)
      Reorder.step) silent aroundTheWrap).any
      (fun s => decide (s.delivered.map s.number = [4101, 4096, 4095, 4094])) = true := by
    decide
  obtain ⟨moments, s, run, -, ok, order⟩ := Machine.run_of_fine wrapped
  refine ⟨moments, s, run, of_decide_eq_true order, ?_⟩
  apply (delivery_ordered_iff run ?_ ?_).mpr
  · exact fun moment member => (ok moment member).2
  · exact fun moment member => (ok moment member).1.1
  · exact fun moment member => (ok moment member).1.2

/-- The frame 3 is held, and then the frame 8 moves the window to 3. -/
theorem held_frame_waits : ¬∀ moments s, Run (Machine.Step Reorder.step) silent moments s →
    (∀ moment ∈ moments, NearWindow moment.before moment.event) → (∀ moment ∈ moments, Windowed moment.event) →
      Machine.Always Ordered moments s := by
  intro claim
  have stuck : (Machine.replay (Machine.guarded Admissible Reorder.step) silent
      [arrives 8, arrives 3, arrives 0]).any (fun s => (s.element s.rxStatusPos).isSome) = true := by
    decide
  obtain ⟨moments, s, run, -, ok, occupied⟩ := Machine.run_of_fine stuck
  have ordered := claim moments s run (fun moment member => (ok moment member).1)
    (fun moment member => (ok moment member).2)
  rw [ordered.2.front] at occupied
  cases occupied

end BekenSdk.RxReorder
