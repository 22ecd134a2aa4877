import Mathlib.Data.Nat.ModEq
import Mathlib.Logic.Function.Basic
import Mathlib.Tactic.Common

/-! A ring buffer. The slots in use are the `waiting` ones behind the slot that was read last;
what holds of every entry in them is kept by sending, receiving and changing entries.
-/

set_option autoImplicit false

namespace BekenSdk.Base

structure RingBuffer (α : Type) where
  slots : Nat → α
  readFrom : Nat
  writeTo : Nat
  waiting : Nat

namespace RingBuffer
variable {α : Type}

/-- The slot behind, in a ring of that size. -/
def following (size i : Nat) : Nat := if i + 1 ≥ size then 0 else i + 1

def empty (size : Nat) (fill : α) : RingBuffer α := ⟨fun _ => fill, size - 1, 0, 0⟩

def send (size : Nat) (a : α) (r : RingBuffer α) : RingBuffer α where
  slots := Function.update r.slots r.writeTo a
  readFrom := r.readFrom
  writeTo := following size r.writeTo
  waiting := r.waiting + 1

def receive (size : Nat) (r : RingBuffer α) : Option (α × RingBuffer α) :=
  if r.waiting = 0 then none
  else some (r.slots (following size r.readFrom),
    { r with readFrom := following size r.readFrom, waiting := r.waiting - 1 })

def modify (i : Nat) (f : α → α) (r : RingBuffer α) : RingBuffer α :=
    { r with slots := Function.update r.slots i (f (r.slots i)) }

/-- The slot of an entry, counted from the next one to receive. -/
def place (size : Nat) (r : RingBuffer α) (i : Nat) : Nat := (r.readFrom + 1 + i) % size

structure Holding (size : Nat) (good : α → Prop) (r : RingBuffer α) : Prop where
  read : r.readFrom < size
  write : r.writeTo = r.place size r.waiting
  fits : r.waiting ≤ size
  all : ∀ i < r.waiting, good (r.slots (r.place size i))

section
variable {size i : Nat} {good : α → Prop} {a fill : α} {r s : RingBuffer α} {f : α → α}

theorem following_eq (inside : i < size) : following size i = (i + 1) % size := by
  unfold following
  split
  next last =>
    have same : i + 1 = size := by omega
    rw [same, Nat.mod_self]
  next more => exact (Nat.mod_eq_of_lt (Nat.not_le.mp more)).symm

theorem empty_holding (positive : 0 < size) : (empty size fill).Holding size good := by
  refine ⟨Nat.sub_lt positive Nat.one_pos, ?_, Nat.zero_le _,
    fun i none_waiting => absurd none_waiting (Nat.not_lt_zero i)⟩
  have last : size - 1 + 1 + 0 = size := by omega
  change 0 = (size - 1 + 1 + 0) % size
  rw [last, Nat.mod_self]

/-- Fewer than `size` entries are in different slots. -/
theorem place_ne {j : Nat} (inside : j < size) (before : i < j) : r.place size i ≠ r.place size j := by
  intro same
  have shift : i ≡ j [MOD size] := Nat.ModEq.add_left_cancel' (r.readFrom + 1) same
  have equal := Nat.ModEq.eq_of_lt_of_lt shift (Nat.lt_trans before inside) inside
  omega

theorem Holding.send (holding : r.Holding size good) (room : r.waiting < size) (ok : good a) :
    (r.send size a).Holding size good := by
  have inside : r.writeTo < size := by
    rw [holding.write]
    exact Nat.mod_lt _ (Nat.zero_lt_of_lt room)
  refine ⟨holding.read, ?_, room, fun i less => ?_⟩
  · change following size r.writeTo = (r.readFrom + 1 + (r.waiting + 1)) % size
    rw [following_eq inside, holding.write, place, Nat.mod_add_mod]
    rfl
  · change good (Function.update r.slots r.writeTo a (r.place size i))
    rw [holding.write]
    rcases Nat.lt_succ_iff_lt_or_eq.mp less with earlier | rfl
    · rw [Function.update_of_ne (place_ne room earlier)]
      exact holding.all i earlier
    · rw [Function.update_self]
      exact ok

theorem Holding.receive (holding : r.Holding size good) (received : r.receive size = some (a, s)) :
    good a ∧ s.Holding size good := by
  unfold RingBuffer.receive at received
  split at received
  · cases received
  next some_waiting =>
    obtain ⟨rfl, rfl⟩ := Prod.mk.inj (Option.some.inj received)
    have next := following_eq holding.read
    have shift (i : Nat) : (following size r.readFrom + 1 + i) % size = r.place size (i + 1) := by
      rw [next, Nat.add_assoc, Nat.mod_add_mod, place]
      congr 1
      omega
    refine ⟨?_, ?_, ?_, Nat.le_trans (Nat.sub_le _ _) holding.fits, fun i less => ?_⟩
    · rw [next]
      exact holding.all 0 (Nat.pos_of_ne_zero some_waiting)
    · change following size r.readFrom < size
      rw [next]
      exact Nat.mod_lt _ (Nat.zero_lt_of_lt holding.read)
    · change r.writeTo = (following size r.readFrom + 1 + (r.waiting - 1)) % size
      rw [shift, Nat.sub_add_cancel (Nat.pos_of_ne_zero some_waiting)]
      exact holding.write
    · change i < r.waiting - 1 at less
      change good (r.slots ((following size r.readFrom + 1 + i) % size))
      rw [shift]
      exact holding.all (i + 1) (by omega)

theorem Holding.modify (holding : r.Holding size good) (kept : ∀ a, good a → good (f a)) :
    (r.modify i f).Holding size good := by
  refine ⟨holding.read, holding.write, holding.fits, fun j less => ?_⟩
  change good (Function.update r.slots i (f (r.slots i)) (r.place size j))
  by_cases same : r.place size j = i
  · rw [same, Function.update_self]
    exact kept _ (same ▸ holding.all j less)
  · rw [Function.update_of_ne same]
    exact holding.all j less

theorem Holding.mono {weaker : α → Prop} (holding : r.Holding size good) (weaken : ∀ a, good a → weaker a) :
    r.Holding size weaker :=
  ⟨holding.read, holding.write, holding.fits, fun i less => weaken _ (holding.all i less)⟩

end

/-! ## A ring as a list -/

/-- The slot before, in a ring of that size. -/
def preceding (size i : Nat) : Nat := if i < 1 then size - 1 else i - 1

def sendFront (size : Nat) (a : α) (r : RingBuffer α) : RingBuffer α where
  slots := Function.update r.slots r.readFrom a
  readFrom := preceding size r.readFrom
  writeTo := r.writeTo
  waiting := r.waiting + 1

/-- The entries, in the order in which they are received. -/
def contents (size : Nat) (r : RingBuffer α) : List α := (List.range r.waiting).map fun i => r.slots (r.place size i)

section
variable {size i : Nat} {a : α} {r s : RingBuffer α}

@[simp] theorem contents_length : (r.contents size).length = r.waiting := by
  rw [contents, List.length_map, List.length_range]

theorem following_preceding (inside : i < size) : following size (preceding size i) = i := by
  unfold following preceding
  split <;> split <;> omega

/-- What comes behind is counted on from the slot that is received. -/
theorem following_place (inside : r.readFrom < size) :
    (following size r.readFrom + 1 + i) % size = r.place size (i + 1) := by
  rw [following_eq inside, Nat.add_assoc, Nat.mod_add_mod, place]
  congr 1
  omega

theorem contents_send (holding : r.Holding size fun _ => True) (room : r.waiting < size) :
    (r.send size a).contents size = r.contents size ++ [a] := by
  have last : Function.update r.slots r.writeTo a (r.place size r.waiting) = a := by
    rw [← holding.write, Function.update_self]
  change (List.range (r.waiting + 1)).map (fun i => Function.update r.slots r.writeTo a (r.place size i)) = _
  rw [List.range_succ, List.map_append, List.map_singleton, last]
  congr 1
  apply List.map_congr_left
  intro i member
  rw [holding.write, Function.update_of_ne (place_ne room (List.mem_range.mp member))]

theorem contents_receive (inside : r.readFrom < size) (received : r.receive size = some (a, s)) :
    r.contents size = a :: s.contents size := by
  unfold RingBuffer.receive at received
  split at received
  · cases received
  next some_waiting =>
    obtain ⟨rfl, rfl⟩ := Prod.mk.inj (Option.some.inj received)
    obtain ⟨n, more⟩ := Nat.exists_eq_succ_of_ne_zero some_waiting
    simp only [contents, more, List.range_succ_eq_map, List.map_cons, List.map_map, Nat.succ_sub_one]
    congr 1
    · rw [following_eq inside]
      rfl
    · apply List.map_congr_left
      intro i _
      simp only [Function.comp_apply, place, following_place inside]

theorem Holding.sendFront (holding : r.Holding size fun _ => True) (room : r.waiting < size) :
    (r.sendFront size a).Holding size fun _ => True := by
  have inside : preceding size r.readFrom < size := by
    have := holding.read
    unfold preceding
    split <;> omega
  refine ⟨inside, ?_, room, fun _ _ => trivial⟩
  have next := following_place (r := r.sendFront size a) (i := r.waiting) inside
  change _ = (r.sendFront size a).place size (r.waiting + 1)
  rw [← next]
  change r.writeTo = (following size (preceding size r.readFrom) + 1 + r.waiting) % size
  rw [following_preceding holding.read]
  exact holding.write

theorem contents_sendFront (holding : r.Holding size fun _ => True) (room : r.waiting < size) :
    (r.sendFront size a).contents size = a :: r.contents size := by
  have front := contents_receive (r := r.sendFront size a) (holding.sendFront room).read rfl
  have same : following size (preceding size r.readFrom) = r.readFrom := following_preceding holding.read
  rw [front]
  change Function.update r.slots r.readFrom a (following size (preceding size r.readFrom)) :: _ = _
  rw [same, Function.update_self]
  congr 1
  simp only [contents, place]
  change (List.range (r.waiting + 1 - 1)).map (fun i => Function.update r.slots r.readFrom a
    ((following size (preceding size r.readFrom) + 1 + i) % size)) = _
  rw [same, Nat.add_sub_cancel]
  apply List.map_congr_left
  intro i member
  have short := List.mem_range.mp member
  -- The slot that was read last is the last of the free ones.
  have own : r.readFrom = (r.readFrom + 1 + (size - 1)) % size := by
    have := holding.read
    rw [Nat.add_assoc, Nat.add_sub_cancel' (by omega), Nat.add_mod_right, Nat.mod_eq_of_lt this]
  have apart : r.place size i ≠ r.place size (size - 1) := place_ne (by omega) (by omega)
  rw [Function.update_of_ne]
  intro met
  exact apart (met.trans own)

end

end RingBuffer

end BekenSdk.Base
