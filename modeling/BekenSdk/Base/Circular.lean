import BekenSdk.Base.Bytes
import Mathlib.Data.Nat.ModEq

/-! Bytes in a circle of cells. `ringCells` goes on at the first cell behind the last one;
`readRing` reads there, and `storeRing` stores there in two copies. A position may stand at
the end for the beginning.
-/

set_option autoImplicit false

namespace BekenSdk.Base

def ringCells (size pos len : Nat) : List Nat := (List.range len).map fun i => (pos + i) % size

def readRing (cells : Cells) (size pos len : Nat) : List UInt8 := (ringCells size pos len).map cells

/-- One copy up to the end, and one of what is left from the beginning on. -/
def storeRing (cells : Cells) (size pos : Nat) (bytes : List UInt8) : Cells :=
  storeBytes (storeBytes cells pos (bytes.take (size - pos))) 0 (bytes.drop (size - pos))

variable {cells : Cells} {size pos len m n i : Nat} {bytes : List UInt8}

/-! ## Cells -/

@[simp] theorem ringCells_length : (ringCells size pos len).length = len := by
  rw [ringCells, List.length_map, List.length_range]

theorem ringCells_add : ringCells size pos (m + n) = ringCells size pos m ++ ringCells size (pos + m) n := by
  simp only [ringCells, List.range_add, List.map_append, List.map_map, Function.comp_def, Nat.add_assoc]

/-- Only the place in the circle matters. -/
theorem ringCells_modEq {other : Nat} (same : pos ≡ other [MOD size]) :
    ringCells size pos len = ringCells size other len := by
  unfold ringCells
  apply List.map_congr_left
  intro i _
  exact same.add_right i

theorem ringCells_take : (ringCells size pos len).take n = ringCells size pos (min n len) := by
  rw [ringCells, ringCells, ← List.map_take, List.take_range]

theorem ringCells_drop (inside : n ≤ len) : (ringCells size pos len).drop n = ringCells size (pos + n) (len - n) := by
  have split : ringCells size pos len = ringCells size pos n ++ ringCells size (pos + n) (len - n) := by
    rw [← ringCells_add, Nat.add_sub_cancel' inside]
  rw [split, List.drop_left' ringCells_length]

theorem ringCells_straight (inside : pos + len ≤ size) : ringCells size pos len = List.range' pos len := by
  rw [List.range'_eq_map_range, ringCells]
  apply List.map_congr_left
  intro i member
  have before := List.mem_range.1 member
  exact Nat.mod_eq_of_lt (by omega)

/-- Up to the end, and what is left from the beginning on. -/
theorem ringCells_wrapped (place : pos ≤ size) (beyond : size - pos ≤ len) (once : len ≤ size) :
    ringCells size pos len = List.range' pos (size - pos) ++ List.range' 0 (len - (size - pos)) := by
  have end_place : pos + (size - pos) ≡ 0 [MOD size] := by
    rw [Nat.add_sub_cancel' place]
    exact Nat.mod_self size
  have total : len = (size - pos) + (len - (size - pos)) := (Nat.add_sub_cancel' beyond).symm
  conv_lhs => rw [total]
  rw [ringCells_add, ringCells_modEq end_place, ringCells_straight (Nat.add_sub_cancel' place).le,
    ringCells_straight (by omega)]

/-- Cells in use and cells behind them are different as long as they go round once. -/
theorem ringCells_apart {start used c : Nat} (behind : start + used ≡ pos [MOD size]) (once : used + len ≤ size)
    (inside : c ∈ ringCells size start used) : c ∉ ringCells size pos len := by
  rw [← ringCells_modEq behind]
  simp only [ringCells, List.mem_map, List.mem_range] at inside ⊢
  obtain ⟨i, before, rfl⟩ := inside
  rintro ⟨j, short, same⟩
  rw [Nat.add_assoc] at same
  have equal := (Nat.ModEq.add_left_cancel' start same).eq_of_lt_of_lt (by omega) (by omega)
  omega

/-! ## Reading -/

theorem readBytes_eq_map : readBytes cells pos len = (List.range' pos len).map cells := by
  induction len generalizing pos with
  | zero => rfl
  | succ len ih => rw [readBytes, ih, List.range'_succ, List.map_cons]

@[simp] theorem readRing_length : (readRing cells size pos len).length = len := by
  rw [readRing, List.length_map, ringCells_length]

theorem readRing_one : readRing cells size pos 1 = [cells (pos % size)] := rfl

theorem readRing_add : readRing cells size pos (m + n) = readRing cells size pos m ++ readRing cells size (pos + m) n := by
  rw [readRing, ringCells_add, List.map_append]
  rfl

theorem readRing_modEq {other : Nat} (same : pos ≡ other [MOD size]) :
    readRing cells size pos len = readRing cells size other len := by
  rw [readRing, ringCells_modEq same, readRing]

theorem readRing_take : (readRing cells size pos len).take n = readRing cells size pos (min n len) := by
  rw [readRing, ← List.map_take, ringCells_take, readRing]

theorem readRing_drop (inside : n ≤ len) :
    (readRing cells size pos len).drop n = readRing cells size (pos + n) (len - n) := by
  rw [readRing, ← List.map_drop, ringCells_drop inside, readRing]

theorem readRing_straight (inside : pos + len ≤ size) : readRing cells size pos len = readBytes cells pos len := by
  rw [readRing, ringCells_straight inside, readBytes_eq_map]

theorem readRing_wrapped (place : pos ≤ size) (beyond : size - pos ≤ len) (once : len ≤ size) :
    readRing cells size pos len = readBytes cells pos (size - pos) ++ readBytes cells 0 (len - (size - pos)) := by
  rw [readRing, ringCells_wrapped place beyond once, List.map_append, readBytes_eq_map, readBytes_eq_map]

theorem readBytes_take : (readBytes cells pos len).take n = readBytes cells pos (min n len) := by
  rw [readBytes_eq_map, readBytes_eq_map, ← List.map_take]
  rcases Nat.le_total n len with short | long
  · rw [List.take_range'_of_length_ge short, Nat.min_eq_left short]
  · rw [List.take_range'_of_length_le long, Nat.min_eq_right long]

theorem readBytes_drop (inside : n ≤ len) :
    (readBytes cells pos len).drop n = readBytes cells (pos + n) (len - n) := by
  have split : readBytes cells pos len = readBytes cells pos n ++ readBytes cells (pos + n) (len - n) := by
    rw [← readBytes_add, Nat.add_sub_cancel' inside]
  rw [split, List.drop_left' (readBytes_length _ _ _)]

/-- Two copies out of the circle make one region. -/
theorem storeBytes_readRing {target : Cells} (place : pos ≤ size) (once : len ≤ size) :
    storeBytes (storeBytes target 0 (readBytes cells pos (min len (size - pos))))
        (min len (size - pos)) (readBytes cells 0 (len - min len (size - pos))) =
      storeBytes target 0 (readRing cells size pos len) := by
  have joined := (storeBytes_append target 0 (readBytes cells pos (min len (size - pos)))
    (readBytes cells 0 (len - min len (size - pos)))).symm
  rw [readBytes_length, Nat.zero_add] at joined
  rw [joined]
  congr 1
  rcases Nat.le_total len (size - pos) with short | long
  · rw [Nat.min_eq_left short, Nat.sub_self, readRing_straight (by omega)]
    exact List.append_nil _
  · rw [Nat.min_eq_right long, readRing_wrapped place long once]

/-! ## Storing -/

/-- Two copies into the circle. -/
theorem storeRing_readBytes {source : Cells} {first : Nat} :
    storeBytes (storeBytes cells pos (readBytes source first (min len (size - pos)))) 0
        (readBytes source (first + min len (size - pos)) (len - min len (size - pos))) =
      storeRing cells size pos (readBytes source first len) := by
  rw [storeRing, readBytes_take]
  rcases Nat.le_total len (size - pos) with short | long
  · rw [Nat.min_eq_left short, Nat.min_eq_right short, Nat.sub_self, List.drop_of_length_le]
    · rfl
    · rwa [readBytes_length]
  · rw [Nat.min_eq_right long, Nat.min_eq_left long, readBytes_drop long]

theorem storeRing_straight (inside : pos + bytes.length ≤ size) :
    storeRing cells size pos bytes = storeBytes cells pos bytes := by
  rw [storeRing, List.take_of_length_le (by omega), List.drop_of_length_le (by omega), storeBytes_nil]

/-- The cells of the bytes. -/
theorem storeRing_inside (place : pos ≤ size) (once : bytes.length ≤ size) (inside : i < bytes.length) :
    storeRing cells size pos bytes ((pos + i) % size) = bytes.getD i 0 := by
  unfold storeRing
  by_cases low : i < size - pos
  · rw [Nat.mod_eq_of_lt (by omega), storeBytes_outside (Or.inr _), storeBytes, if_pos]
    · simp only [Nat.add_sub_cancel_left, List.getD_eq_getElem?_getD, List.getElem?_take_of_lt low]
    · rw [List.length_take]
      omega
    · rw [List.length_drop]
      omega
  · have there : (pos + i) % size = i - (size - pos) := by
      have split : pos + i = i - (size - pos) + size := by omega
      rw [split, Nat.add_mod_right, Nat.mod_eq_of_lt (by omega)]
    rw [there, storeBytes, if_pos]
    · simp only [Nat.sub_zero, List.getD_eq_getElem?_getD, List.getElem?_drop]
      congr 2
      omega
    · rw [List.length_drop]
      omega

/-- The other cells. -/
theorem storeRing_outside (place : pos ≤ size) (behind : bytes.length ≤ i) (inside : i < size) :
    storeRing cells size pos bytes ((pos + i) % size) = cells ((pos + i) % size) := by
  have cell : (pos + i) % size = if i < size - pos then pos + i else i - (size - pos) := by
    split
    next low => exact Nat.mod_eq_of_lt (by omega)
    next high =>
      have split : pos + i = i - (size - pos) + size := by omega
      rw [split, Nat.add_mod_right, Nat.mod_eq_of_lt (by omega)]
  have first : bytes.take (size - pos) = bytes ∨ size - pos ≤ bytes.length := by
    rcases Nat.le_total bytes.length (size - pos) with short | long
    · exact .inl (List.take_of_length_le short)
    · exact .inr long
  rw [storeRing, storeBytes_outside, storeBytes_outside]
  · rw [List.length_take, cell]
    split <;> omega
  · rw [List.length_drop, cell]
    split <;> omega

/-- Nothing is stored behind the circle. -/
theorem storeRing_beyond (place : pos ≤ size) (once : bytes.length ≤ size) (beyond : size ≤ i) :
    storeRing cells size pos bytes i = cells i := by
  rw [storeRing, storeBytes_outside, storeBytes_outside]
  · rw [List.length_take]
    omega
  · rw [List.length_drop]
    omega

/-- The bytes come behind the ones in use. -/
theorem readRing_storeRing {start used : Nat} (place : pos ≤ size) (behind : start + used ≡ pos [MOD size])
    (room : used + bytes.length ≤ size) :
    readRing (storeRing cells size pos bytes) size start (used + bytes.length) =
      readRing cells size start used ++ bytes := by
  rw [readRing_add, readRing_modEq behind]
  congr 1
  · simp only [readRing, ringCells, List.map_map]
    apply List.map_congr_left
    intro i member
    have before := List.mem_range.1 member
    -- the cell of an entry in use, counted from the end of the used ones
    have cell : (start + i) % size = (pos + (size - used + i)) % size := by
      have total : start + used + (size - used + i) = start + i + size := by omega
      have step := behind.add_right (size - used + i)
      rw [total] at step
      rw [← step, Nat.add_mod_right]
    rw [Function.comp_apply, Function.comp_apply, cell]
    exact storeRing_outside place (by omega) (by omega)
  · apply List.ext_getElem
    · exact readRing_length
    · intro i here there
      simp only [readRing, ringCells, List.getElem_map, List.getElem_range]
      rw [storeRing_inside place (by omega) there, List.getD_eq_getElem _ _ there]

/-! ## Storing byte by byte -/

def storeEach (cells : Cells) (stores : List (Nat × UInt8)) : Cells :=
  stores.foldl (fun cells store => Function.update cells store.1 store.2) cells

theorem storeEach_append {first rest : List (Nat × UInt8)} :
    storeEach cells (first ++ rest) = storeEach (storeEach cells first) rest := List.foldl_append

theorem storeEach_outside {stores : List (Nat × UInt8)} (outside : ∀ store ∈ stores, store.1 ≠ i) :
    storeEach cells stores i = cells i := by
  induction stores generalizing cells with
  | nil => rfl
  | cons store rest ih =>
    have later := @ih (Function.update cells store.1 store.2) fun other member => outside other (List.mem_cons_of_mem _ member)
    exact later.trans (Function.update_of_ne (outside store List.mem_cons_self).symm _ _)

theorem storeEach_range' : storeEach cells ((List.range' pos bytes.length).zip bytes) = storeBytes cells pos bytes := by
  induction bytes generalizing cells pos with
  | nil => exact (storeBytes_nil cells pos).symm
  | cons byte rest ih =>
    have one : Function.update cells pos byte = storeBytes cells pos [byte] := by
      funext a
      by_cases here : a = pos
      · subst here
        simp [storeBytes]
      · rw [Function.update_of_ne here, storeBytes_outside]
        rw [List.length_singleton]
        omega
    have step := storeBytes_append cells pos [byte] rest
    rw [List.singleton_append, List.length_singleton] at step
    rw [step, ← one, ← ih, List.length_cons, List.range'_succ]
    rfl

theorem storeEach_ringCells (place : pos ≤ size) (once : bytes.length ≤ size) :
    storeEach cells ((ringCells size pos bytes.length).zip bytes) = storeRing cells size pos bytes := by
  rcases Nat.le_total (size - pos) bytes.length with long | short
  · have cut : (bytes.take (size - pos)).length = size - pos := by
      rw [List.length_take, Nat.min_eq_left long]
    have split : (ringCells size pos bytes.length).zip bytes =
        (List.range' pos (bytes.take (size - pos)).length).zip (bytes.take (size - pos)) ++
          (List.range' 0 (bytes.drop (size - pos)).length).zip (bytes.drop (size - pos)) := by
      rw [cut, List.length_drop, ← List.zip_append (by rw [List.length_range', cut]), List.take_append_drop,
        ringCells_wrapped place long once]
    rw [split, storeEach_append, storeEach_range', storeEach_range', storeRing]
  · rw [ringCells_straight (by omega), storeEach_range', storeRing_straight (by omega)]

end BekenSdk.Base
