import BekenSdk.Base.Circular

/-! What the ring buffers of the audio driver share: the sizes between the two pointers, and the
copies of a read and of a write. A copy is a place in the buffer and a length; the other side of
the copies is one piece of memory.
-/

set_option autoImplicit false

namespace BekenSdk.Audio
open Base

def rwpSafeInterval : UInt32 := 4

/-- The bytes that wait. -/
def fillSize (capacity wp rp : UInt32) : UInt32 := if wp ≥ rp then wp - rp else capacity - rp + wp

/-- The other bytes, the safety interval with them. -/
def roomSize (capacity wp rp : UInt32) : UInt32 := if wp ≥ rp then capacity - wp + rp else rp - wp

def freeSize (capacity wp rp : UInt32) : UInt32 :=
  if roomSize capacity wp rp > rwpSafeInterval then roomSize capacity wp rp - rwpSafeInterval else 0

/-- How many bytes a read gets, its copies, and the read pointer after it. -/
def readCopies (capacity wp rp required : UInt32) : UInt32 × List (UInt32 × UInt32) × UInt32 :=
  if wp ≥ rp then
    let read := if required > wp - rp then wp - rp else required
    (read, [(rp, read)], rp + read)
  else
    let remain := capacity - rp
    if required > remain then
      if required - remain > wp then (remain + wp, [(rp, remain), (0, wp)], wp)
      else (required, [(rp, remain), (0, required - remain)], required - remain)
    else (required, [(rp, required)], rp + required)

/-- The copies of a write that is accepted, and the write pointer after it. -/
def writeCopies (capacity wp rp writeBytes : UInt32) : Option (List (UInt32 × UInt32) × UInt32) :=
  if wp ≥ rp then
    if capacity - wp + rp ≥ writeBytes + rwpSafeInterval then
      let remain := capacity - wp
      if remain ≥ writeBytes then some ([(wp, writeBytes)], wp + writeBytes)
      else some ([(wp, remain), (0, writeBytes - remain)], writeBytes - remain)
    else none
  else if rp - wp ≥ writeBytes + rwpSafeInterval then some ([(wp, writeBytes)], wp + writeBytes)
  else none

/-- A write pointer at the end is moved to the beginning, unless the read pointer is there. -/
def wrapped (capacity rp wp : UInt32) : UInt32 := if wp ≥ capacity ∧ rp ≠ 0 then 0 else wp

/-- The cells of the copies, in order. -/
def cellsOf (copies : List (UInt32 × UInt32)) : List Nat :=
  copies.flatMap fun copy => List.range' copy.1.toNat copy.2.toNat

/-! ## Sizes -/

/-- The write pointer is inside the buffer, the read pointer inside or at its end. -/
structure Placed (capacity wp rp : UInt32) : Prop where
  write : wp.toNat < capacity.toNat
  read : rp.toNat ≤ capacity.toNat

section
variable {capacity wp rp required writeBytes : UInt32} {copies : List (UInt32 × UInt32)} {next : UInt32}

theorem ge_iff : wp ≥ rp ↔ rp.toNat ≤ wp.toNat := UInt32.le_iff_toNat_le

theorem gt_iff : wp > rp ↔ rp.toNat < wp.toNat := UInt32.lt_iff_toNat_lt

theorem sub_toNat (less : rp.toNat ≤ wp.toNat) : (wp - rp).toNat = wp.toNat - rp.toNat :=
  UInt32.toNat_sub_of_le _ _ (UInt32.le_iff_toNat_le.2 less)

theorem add_toNat (small : wp.toNat + rp.toNat < 4294967296) : (wp + rp).toNat = wp.toNat + rp.toNat := by
  rw [UInt32.toNat_add, Nat.mod_eq_of_lt small]

theorem withInterval_toNat (small : wp.toNat + 4 < 4294967296) : (wp + rwpSafeInterval).toNat = wp.toNat + 4 :=
  add_toNat small

theorem Placed.fill_eq (placed : Placed capacity wp rp) : (fillSize capacity wp rp).toNat =
    if rp.toNat ≤ wp.toNat then wp.toNat - rp.toNat else capacity.toNat - rp.toNat + wp.toNat := by
  have small := capacity.toNat_lt
  have write := placed.write
  have read := placed.read
  unfold fillSize
  by_cases ahead : rp.toNat ≤ wp.toNat
  · rw [if_pos (ge_iff.2 ahead), if_pos ahead, sub_toNat ahead]
  · rw [if_neg (mt ge_iff.1 ahead), if_neg ahead, add_toNat, sub_toNat read]
    rw [sub_toNat read]
    omega

theorem Placed.fill_lt (placed : Placed capacity wp rp) : (fillSize capacity wp rp).toNat < capacity.toNat := by
  have write := placed.write
  rw [placed.fill_eq]
  split <;> omega

/-- The write pointer is behind the bytes that wait. -/
theorem Placed.behind (placed : Placed capacity wp rp) :
    rp.toNat + (fillSize capacity wp rp).toNat ≡ wp.toNat [MOD capacity.toNat] := by
  have read := placed.read
  rw [placed.fill_eq]
  split
  next ahead => rw [Nat.add_sub_cancel' ahead]
  next wrapped =>
    have sum : rp.toNat + (capacity.toNat - rp.toNat + wp.toNat) = wp.toNat + capacity.toNat := by omega
    rw [sum]
    exact Nat.add_mod_right _ _

theorem Placed.fill_unique {fill : Nat} (placed : Placed capacity wp rp) (small : fill < capacity.toNat)
    (behind : rp.toNat + fill ≡ wp.toNat [MOD capacity.toNat]) : (fillSize capacity wp rp).toNat = fill :=
  Nat.ModEq.eq_of_lt_of_lt (Nat.ModEq.add_left_cancel' rp.toNat (placed.behind.trans behind.symm)) placed.fill_lt small

theorem Placed.room_eq (placed : Placed capacity wp rp) :
    (roomSize capacity wp rp).toNat = capacity.toNat - (fillSize capacity wp rp).toNat := by
  have small := capacity.toNat_lt
  have write := placed.write
  have read := placed.read
  rw [placed.fill_eq, roomSize]
  by_cases ahead : rp.toNat ≤ wp.toNat
  · rw [if_pos (ge_iff.2 ahead), if_pos ahead, add_toNat, sub_toNat write.le]
    · omega
    · rw [sub_toNat write.le]
      omega
  · rw [if_neg (mt ge_iff.1 ahead), if_neg ahead, sub_toNat (by omega)]
    omega

theorem Placed.free_eq (placed : Placed capacity wp rp) :
    (freeSize capacity wp rp).toNat = capacity.toNat - (fillSize capacity wp rp).toNat - 4 := by
  rw [← placed.room_eq, freeSize]
  split
  next more => exact sub_toNat (gt_iff.1 more).le
  next less =>
    have few := Nat.not_lt.1 (mt gt_iff.2 less)
    exact (Nat.sub_eq_zero_of_le few).symm

/-! ## Reads -/

/-- A read gets the oldest bytes, as many as are asked for or wait. -/
theorem Placed.read_spec (placed : Placed capacity wp rp) :
    (readCopies capacity wp rp required).1.toNat = min required.toNat (fillSize capacity wp rp).toNat ∧
      cellsOf (readCopies capacity wp rp required).2.1 =
        ringCells capacity.toNat rp.toNat (min required.toNat (fillSize capacity wp rp).toNat) ∧
      (readCopies capacity wp rp required).2.2.toNat ≤ capacity.toNat ∧
      (readCopies capacity wp rp required).2.2.toNat ≡
        rp.toNat + min required.toNat (fillSize capacity wp rp).toNat [MOD capacity.toNat] := by
  have small := capacity.toNat_lt
  have write := placed.write
  have read := placed.read
  rw [placed.fill_eq, readCopies]
  by_cases ahead : rp.toNat ≤ wp.toNat
  · rw [if_pos (ge_iff.2 ahead), if_pos ahead]
    have got : (if required > wp - rp then wp - rp else required).toNat =
        min required.toNat (wp.toNat - rp.toNat) := by
      split
      next more =>
        rw [gt_iff, sub_toNat ahead] at more
        rw [sub_toNat ahead, Nat.min_eq_right more.le]
      next less =>
        rw [gt_iff, sub_toNat ahead] at less
        exact (Nat.min_eq_left (Nat.not_lt.1 less)).symm
    have place : (rp + if required > wp - rp then wp - rp else required).toNat =
        rp.toNat + min required.toNat (wp.toNat - rp.toNat) := by
      rw [add_toNat] <;> rw [got]
      omega
    refine ⟨got, ?_, ?_, ?_⟩
    · rw [cellsOf, List.flatMap_singleton, got, ringCells_straight (by omega)]
    · rw [place]
      omega
    · rw [place]
  · rw [if_neg (mt ge_iff.1 ahead), if_neg ahead]
    have remain := @sub_toNat capacity rp read
    simp only
    split
    next beyond =>
      rw [gt_iff, remain] at beyond
      have rest : (required - (capacity - rp)).toNat = required.toNat - (capacity.toNat - rp.toNat) := by
        rw [sub_toNat] <;> rw [remain]
        exact beyond.le
      split
      next all =>
        rw [gt_iff, rest] at all
        have total : min required.toNat (capacity.toNat - rp.toNat + wp.toNat) =
          capacity.toNat - rp.toNat + wp.toNat := by omega
        refine ⟨?_, ?_, write.le, ?_⟩
        · rw [add_toNat, remain, total]
          rw [remain]
          omega
        · rw [total, ringCells_wrapped read (by omega) (by omega)]
          simp only [cellsOf, List.flatMap_cons, List.flatMap_nil, List.append_nil, remain, UInt32.toNat_zero,
            Nat.add_sub_cancel_left]
        · have sum : rp.toNat + (capacity.toNat - rp.toNat + wp.toNat) = wp.toNat + capacity.toNat := by omega
          rw [total, sum]
          exact (Nat.add_mod_right _ _).symm
      next some =>
        rw [gt_iff, rest] at some
        have total : min required.toNat (capacity.toNat - rp.toNat + wp.toNat) = required.toNat := by omega
        refine ⟨total.symm, ?_, ?_, ?_⟩
        · rw [total, ringCells_wrapped read (by omega) (by omega)]
          simp only [cellsOf, List.flatMap_cons, List.flatMap_nil, List.append_nil, remain, rest, UInt32.toNat_zero]
        · rw [rest]
          omega
        · have sum : rp.toNat + required.toNat = required.toNat - (capacity.toNat - rp.toNat) + capacity.toNat := by
            omega
          rw [total, rest, sum]
          exact (Nat.add_mod_right _ _).symm
    next straight =>
      rw [gt_iff, remain] at straight
      have total : min required.toNat (capacity.toNat - rp.toNat + wp.toNat) = required.toNat := by omega
      have place : (rp + required).toNat = rp.toNat + required.toNat := add_toNat (by omega)
      refine ⟨total.symm, ?_, ?_, ?_⟩
      · rw [total, ringCells_straight (by omega), cellsOf, List.flatMap_singleton]
      · rw [place]
        omega
      · rw [place, total]

/-- The read pointer moves on over the oldest bytes. -/
theorem Placed.moved {memory : Cells} {count : Nat} (placed : Placed capacity wp rp) (inside : next.toNat ≤ capacity.toNat)
    (behind : next.toNat ≡ rp.toNat + min count (fillSize capacity wp rp).toNat [MOD capacity.toNat]) :
    (fillSize capacity wp next).toNat = (fillSize capacity wp rp).toNat - count ∧
      readRing memory capacity.toNat next.toNat (fillSize capacity wp next).toNat =
        (readRing memory capacity.toNat rp.toNat (fillSize capacity wp rp).toNat).drop count := by
  have after : Placed capacity wp next := ⟨placed.write, inside⟩
  have less := placed.fill_lt
  have fill : (fillSize capacity wp next).toNat = (fillSize capacity wp rp).toNat - count := by
    apply after.fill_unique (by omega)
    have total : rp.toNat + min count (fillSize capacity wp rp).toNat + ((fillSize capacity wp rp).toNat - count) =
      rp.toNat + (fillSize capacity wp rp).toNat := by omega
    have step := behind.add_right ((fillSize capacity wp rp).toNat - count)
    rw [total] at step
    exact step.trans placed.behind
  refine ⟨fill, ?_⟩
  rw [fill, readRing_modEq behind]
  rcases Nat.le_total count (fillSize capacity wp rp).toNat with some_left | all
  · rw [readRing_drop some_left, Nat.min_eq_left some_left]
  · rw [Nat.sub_eq_zero_of_le all, List.drop_of_length_le (readRing_length.trans_le all)]
    rfl

/-! ## Writes -/

/-- There is nothing to write, or no room for it with the sum wrapped. -/
def Refused (capacity wp rp writeBytes : UInt32) : Prop :=
  writeBytes = 0 ∨ roomSize capacity wp rp < writeBytes + rwpSafeInterval

instance : Decidable (Refused capacity wp rp writeBytes) := by
  unfold Refused
  infer_instance

theorem writeCopies_eq_none :
    writeCopies capacity wp rp writeBytes = none ↔ roomSize capacity wp rp < writeBytes + rwpSafeInterval := by
  unfold writeCopies roomSize
  by_cases ahead : wp ≥ rp
  · simp only [if_pos ahead]
    split
    next fits =>
      simp only [UInt32.not_lt.2 fits, iff_false]
      split <;> exact Option.some_ne_none _
    next full => exact ⟨fun _ => UInt32.not_le.1 full, fun _ => rfl⟩
  · simp only [if_neg ahead]
    split
    next fits => simp [UInt32.not_lt.2 fits]
    next full => exact ⟨fun _ => UInt32.not_le.1 full, fun _ => rfl⟩

/-- A queue of that capacity takes all of an offer or nothing, and keeps the safety interval free. -/
def AllOrNothing (capacity used offered taken : Nat) : Prop :=
  taken = if offered ≤ capacity - used - 4 then offered else 0

/-- What is refused has no room. -/
theorem Placed.refused (placed : Placed capacity wp rp) {size count : UInt32}
    (refused : Refused capacity wp rp (size * count)) :
    AllOrNothing capacity.toNat (fillSize capacity wp rp).toNat (size.toNat * count.toNat) 0 := by
  have room := placed.room_eq
  have less := capacity.toNat_lt
  unfold AllOrNothing
  split
  next fits =>
    have whole : (size * count).toNat = size.toNat * count.toNat := by
      rw [UInt32.toNat_mul, Nat.mod_eq_of_lt (by omega)]
    rcases refused with zero | full
    · rw [← whole, zero]
      rfl
    · have small := UInt32.lt_iff_toNat_lt.1 full
      by_cases room_left : (size * count).toNat + 4 < 4294967296
      · rw [withInterval_toNat room_left] at small
        omega
      · omega
  · rfl

/-- What is not refused and does not wrap has room. -/
theorem accepted_whole {size count : UInt32} (accepted : ¬ Refused capacity wp rp (size * count))
    (short : size.toNat * count.toNat + 4 < 4294967296) :
    (size * count).toNat = size.toNat * count.toNat ∧ (size * count).toNat + 4 ≤ (roomSize capacity wp rp).toNat := by
  have whole : (size * count).toNat = size.toNat * count.toNat := by
    rw [UInt32.toNat_mul, Nat.mod_eq_of_lt (by omega)]
  have fits := Nat.not_lt.1 (mt UInt32.lt_iff_toNat_lt.2 (not_or.1 accepted).2)
  rw [withInterval_toNat (whole ▸ short)] at fits
  exact ⟨whole, fits⟩

/-- No queue takes any of a length that wraps with the interval. -/
theorem long_spoils {used : Nat} {size count : UInt32} (accepted : ¬ Refused capacity wp rp (size * count))
    (long : ¬ size.toNat * count.toNat + 4 < 4294967296) :
    ¬ AllOrNothing capacity.toNat used (size.toNat * count.toNat) (size * count).toNat := by
  have less := capacity.toNat_lt
  intro all
  rw [AllOrNothing, if_neg (by omega)] at all
  exact (not_or.1 accepted).1 (UInt32.toNat_inj.1 all)

/-- A write that fits is copied behind the bytes that wait. -/
theorem Placed.write_spec (placed : Placed capacity wp rp)
    (fits : writeBytes.toNat + 4 ≤ (roomSize capacity wp rp).toNat) :
    ∃ copies next, writeCopies capacity wp rp writeBytes = some (copies, next) ∧
      cellsOf copies = ringCells capacity.toNat wp.toNat writeBytes.toNat ∧
      next.toNat ≤ capacity.toNat ∧ (next = capacity → rp ≠ 0) ∧
      next.toNat ≡ wp.toNat + writeBytes.toNat [MOD capacity.toNat] := by
  have small := capacity.toNat_lt
  have write := placed.write
  have read := placed.read
  have needed : (writeBytes + rwpSafeInterval).toNat = writeBytes.toNat + 4 :=
    withInterval_toNat (Nat.lt_of_le_of_lt fits (roomSize capacity wp rp).toNat_lt)
  have enough : roomSize capacity wp rp ≥ writeBytes + rwpSafeInterval := by rwa [ge_iff, needed]
  rw [placed.room_eq, placed.fill_eq] at fits
  unfold roomSize at enough
  unfold writeCopies
  by_cases ahead : rp.toNat ≤ wp.toNat
  · rw [if_pos (ge_iff.2 ahead)] at enough ⊢
    rw [if_pos ahead] at fits
    have remain := @sub_toNat capacity wp write.le
    simp only [if_pos enough]
    split
    next straight =>
      rw [ge_iff, remain] at straight
      have place : (wp + writeBytes).toNat = wp.toNat + writeBytes.toNat := add_toNat (by omega)
      refine ⟨_, _, rfl, ?_, ?_, ?_, ?_⟩
      · rw [ringCells_straight (by omega), cellsOf, List.flatMap_singleton]
      · rw [place]
        omega
      · rintro full rfl
        have last := congrArg UInt32.toNat full
        rw [place] at last
        simp only [UInt32.toNat_zero] at fits
        omega
      · rw [place]
    next wrapped =>
      rw [ge_iff, remain] at wrapped
      have rest : (writeBytes - (capacity - wp)).toNat = writeBytes.toNat - (capacity.toNat - wp.toNat) := by
        rw [sub_toNat] <;> rw [remain]
        omega
      refine ⟨_, _, rfl, ?_, ?_, ?_, ?_⟩
      · rw [ringCells_wrapped write.le (by omega) (by omega)]
        simp only [cellsOf, List.flatMap_cons, List.flatMap_nil, List.append_nil, remain, rest, UInt32.toNat_zero]
      · rw [rest]
        omega
      · intro full
        have last := congrArg UInt32.toNat full
        rw [rest] at last
        omega
      · have sum : wp.toNat + writeBytes.toNat = writeBytes.toNat - (capacity.toNat - wp.toNat) + capacity.toNat := by
          omega
        rw [rest, sum]
        exact (Nat.add_mod_right _ _).symm
  · rw [if_neg (mt ge_iff.1 ahead)] at enough ⊢
    rw [if_neg ahead] at fits
    have place : (wp + writeBytes).toNat = wp.toNat + writeBytes.toNat := add_toNat (by omega)
    rw [if_pos enough]
    refine ⟨_, _, rfl, ?_, ?_, ?_, ?_⟩
    · rw [ringCells_straight (by omega), cellsOf, List.flatMap_singleton]
    · rw [place]
      omega
    · intro full
      have last := congrArg UInt32.toNat full
      rw [place] at last
      omega
    · rw [place]

theorem wrapped_spec (positive : 0 < capacity.toNat) (inside : wp.toNat ≤ capacity.toNat) (free : wp = capacity → rp ≠ 0) :
    (wrapped capacity rp wp).toNat < capacity.toNat ∧
      (wrapped capacity rp wp).toNat ≡ wp.toNat [MOD capacity.toNat] := by
  unfold wrapped
  split
  next last =>
    have same : wp.toNat = capacity.toNat := Nat.le_antisymm inside (ge_iff.1 last.1)
    refine ⟨positive, ?_⟩
    rw [same]
    exact (Nat.mod_self _).symm
  next before =>
    refine ⟨Nat.lt_of_not_le fun last => before ⟨ge_iff.2 last, ?_⟩, rfl⟩
    exact free (UInt32.toNat_inj.1 (Nat.le_antisymm inside last))

end

end BekenSdk.Audio
