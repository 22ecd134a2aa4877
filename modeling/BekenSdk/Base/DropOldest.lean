import Mathlib.Tactic.Common

/-! A queue with a bound: a new entry takes the place of the oldest one when it is full. What is no longer queued is
kept in order, so that it can be told which entries were taken out and which were dropped.
-/

set_option autoImplicit false

namespace BekenSdk.Base

inductive Fate where
  | taken
  | dropped
  deriving DecidableEq

structure DropOldest (α : Type) where
  gone : List (α × Fate)
  unread : List α

namespace DropOldest
variable {α : Type}

def empty : DropOldest α := ⟨[], []⟩

def arrive (capacity : Nat) (queue : DropOldest α) (a : α) : DropOldest α :=
  match queue.unread with
  | [] => { queue with unread := [a] }
  | oldest :: rest =>
    if queue.unread.length = capacity then ⟨queue.gone ++ [(oldest, .dropped)], rest ++ [a]⟩
    else { queue with unread := queue.unread ++ [a] }

def take (queue : DropOldest α) : Option (α × DropOldest α) :=
  match queue.unread with
  | [] => none
  | a :: rest => some (a, ⟨queue.gone ++ [(a, .taken)], rest⟩)

/-- All entries that have come, in order. -/
def received (queue : DropOldest α) : List α := queue.gone.map Prod.fst ++ queue.unread

/-- The entries that were taken out, in order. -/
def taken (queue : DropOldest α) : List α := (queue.gone.filter (·.2 = .taken)).map Prod.fst

variable {queue left : DropOldest α} {capacity : Nat} {a : α} {entries : List α}

theorem arrive_received : (queue.arrive capacity a).received = queue.received ++ [a] := by
  obtain ⟨gone, unread⟩ := queue
  cases unread with
  | nil => simp [arrive, received]
  | cons oldest rest =>
    unfold arrive
    dsimp only
    split <;> simp [received]

theorem arrive_taken : (queue.arrive capacity a).taken = queue.taken := by
  unfold arrive
  split
  · rfl
  split
  · simp [taken]
  · rfl

theorem arrive_full (positive : 0 < capacity) (full : queue.unread.length = capacity) :
    (queue.arrive capacity a).unread = queue.unread.tail ++ [a] := by
  unfold arrive
  split
  next queued =>
    rw [queued] at full
    exact absurd full (Nat.ne_of_lt positive)
  next queued => rw [if_pos full, queued, List.tail_cons]

theorem arrive_room (room : queue.unread.length ≠ capacity) :
    (queue.arrive capacity a).unread = queue.unread ++ [a] := by
  unfold arrive
  split
  next queued =>
    rw [queued]
    rfl
  · rw [if_neg room]

theorem arrive_bounded (positive : 0 < capacity) (bounded : queue.unread.length ≤ capacity) :
    (queue.arrive capacity a).unread.length ≤ capacity := by
  by_cases full : queue.unread.length = capacity
  · rw [arrive_full positive full, List.length_append, List.length_tail, full]
    exact Nat.le_of_eq (Nat.sub_add_cancel positive)
  · rw [arrive_room full, List.length_append]
    exact Nat.lt_of_le_of_ne bounded full

theorem take_received (some_entry : queue.take = some (a, left)) : left.received = queue.received := by
  unfold take at some_entry
  split at some_entry
  · cases some_entry
  next queued =>
    cases some_entry
    rw [received, received, queued, List.map_append, List.append_assoc]
    rfl

theorem take_taken (some_entry : queue.take = some (a, left)) : left.taken = queue.taken ++ [a] := by
  unfold take at some_entry
  split at some_entry
  · cases some_entry
  · cases some_entry
    simp [taken]

theorem take_unread (some_entry : queue.take = some (a, left)) : queue.unread = a :: left.unread := by
  unfold take at some_entry
  split at some_entry
  · cases some_entry
  next queued =>
    cases some_entry
    exact queued

/-! ## Several entries at once -/

def arriveAll (capacity : Nat) (queue : DropOldest α) (entries : List α) : DropOldest α :=
  entries.foldl (arrive capacity) queue

theorem arriveAll_received : (queue.arriveAll capacity entries).received = queue.received ++ entries := by
  induction entries generalizing queue with
  | nil => exact (List.append_nil _).symm
  | cons a rest ih =>
    rw [arriveAll, List.foldl_cons]
    exact ih.trans (by rw [arrive_received, List.append_assoc]; rfl)

theorem arriveAll_taken : (queue.arriveAll capacity entries).taken = queue.taken := by
  induction entries generalizing queue with
  | nil => rfl
  | cons a rest ih => exact ih.trans arrive_taken

theorem arriveAll_bounded (positive : 0 < capacity) (bounded : queue.unread.length ≤ capacity) :
    (queue.arriveAll capacity entries).unread.length ≤ capacity := by
  induction entries generalizing queue with
  | nil => exact bounded
  | cons a rest ih => exact ih (arrive_bounded positive bounded)

end DropOldest

end BekenSdk.Base
