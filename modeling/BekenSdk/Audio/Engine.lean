import BekenSdk.Audio.Copies

/-! The DMA engine at one end of a ring buffer. It goes round the buffer and stops at the pause
address. The program at the other end copies byte by byte, and the engine may go on before
every byte and after the last one.
-/

set_option autoImplicit false

namespace BekenSdk.Audio
open Base

/-- The cells that the engine passes in so many steps, and its place behind them. -/
@[simp] def passed (capacity pause : UInt32) : Nat → UInt32 → List Nat × UInt32
  | 0, place => ([], place)
  | steps + 1, place =>
    if place = pause then ([], place)
    else
      let rest := passed capacity pause steps (if place + 1 = capacity then 0 else place + 1)
      (place.toNat :: rest.1, rest.2)

/-- The program stores bytes one by one while the engine fetches: what it fetched, the memory, its place. -/
def copyIn (capacity pause : UInt32) : List (Nat × UInt8) → List Nat → Cells → UInt32 → List UInt8 × Cells × UInt32
  | [], moves, memory, place =>
    let last := passed capacity pause moves.sum place
    (last.1.map memory, memory, last.2)
  | store :: rest, moves, memory, place =>
    let first := passed capacity pause (moves.headD 0) place
    let later := copyIn capacity pause rest moves.tail (Function.update memory store.1 store.2) first.2
    (first.1.map memory ++ later.1, later.2)

/-- The engine stores bytes until it is stopped: what it stored, the memory, its place. -/
def deposit (capacity pause : UInt32) (bytes : List UInt8) (memory : Cells) (place : UInt32) :
    List UInt8 × Cells × UInt32 :=
  let last := passed capacity pause bytes.length place
  (bytes.take last.1.length, storeEach memory (last.1.zip bytes), last.2)

/-- The program reads cells one by one while the engine stores bytes: what it read, then as for `deposit`. -/
def copyOut (capacity pause : UInt32) : List Nat → List (List UInt8) → Cells → UInt32 →
    List UInt8 × List UInt8 × Cells × UInt32
  | [], arrivals, memory, place => ([], deposit capacity pause arrivals.flatten memory place)
  | cell :: rest, arrivals, memory, place =>
    let first := deposit capacity pause (arrivals.headD []) memory place
    let later := copyOut capacity pause rest arrivals.tail first.2.1 first.2.2
    (first.2.1 cell :: later.1, first.1 ++ later.2.1, later.2.2)

section
variable {capacity pause place : UInt32} {memory : Cells} {moves : List Nat} {stores : List (Nat × UInt8)}
  {bytes more : List UInt8} {cells : List Nat} {arrivals : List (List UInt8)} {steps m n : Nat}

/-! ## The engine alone -/

theorem passed_paused : passed capacity pause steps pause = ([], pause) := by
  cases steps with
  | zero => rfl
  | succ steps => rw [passed, if_pos rfl]

theorem passed_add : passed capacity pause (m + n) place =
    ((passed capacity pause m place).1 ++ (passed capacity pause n (passed capacity pause m place).2).1,
      (passed capacity pause n (passed capacity pause m place).2).2) := by
  induction m generalizing place with
  | zero => rw [Nat.zero_add]; rfl
  | succ m ih =>
    by_cases stopped : place = pause
    · subst stopped
      simp only [passed_paused, List.append_nil]
    · rw [Nat.succ_add, passed, passed, if_neg stopped, if_neg stopped]
      simp only [ih, List.cons_append]

theorem passed_length_le : (passed capacity pause steps place).1.length ≤ steps := by
  induction steps generalizing place with
  | zero => exact Nat.le_refl 0
  | succ steps ih =>
    unfold passed
    split
    · exact Nat.zero_le _
    · exact Nat.succ_le_succ ih

/-- It passes fewer cells only when it is stopped. -/
theorem passed_short (short : (passed capacity pause steps place).1.length < steps) :
    (passed capacity pause steps place).2 = pause := by
  induction steps generalizing place with
  | zero => exact absurd short (Nat.not_lt_zero _)
  | succ steps ih =>
    unfold passed at short ⊢
    split at short
    next stopped => rw [if_pos stopped, stopped]
    next runs =>
      rw [if_neg runs]
      exact ih (Nat.lt_of_succ_lt_succ short)

theorem passed_ne_nil (runs : place ≠ pause) (some_steps : steps ≠ 0) : (passed capacity pause steps place).1 ≠ [] := by
  cases steps with
  | zero => exact absurd rfl some_steps
  | succ steps =>
    rw [passed, if_neg runs]
    exact List.cons_ne_nil _ _

theorem Placed.passed_spec (placed : Placed capacity pause place) (inside : place.toNat < capacity.toNat) :
    (passed capacity pause steps place).1 =
        ringCells capacity.toNat place.toNat (min steps (fillSize capacity pause place).toNat) ∧
      (passed capacity pause steps place).2.toNat < capacity.toNat ∧
      (passed capacity pause steps place).2.toNat ≡
        place.toNat + min steps (fillSize capacity pause place).toNat [MOD capacity.toNat] := by
  induction steps generalizing place with
  | zero =>
    rw [Nat.zero_min]
    exact ⟨rfl, inside, rfl⟩
  | succ steps ih =>
    rw [passed]
    by_cases stopped : place = pause
    · subst stopped
      have empty : (fillSize capacity place place).toNat = 0 := placed.fill_unique (Nat.zero_lt_of_lt inside) rfl
      rw [if_pos rfl, empty, Nat.min_zero]
      exact ⟨rfl, inside, rfl⟩
    · rw [if_neg stopped]
      simp only
      have behind := placed.behind
      have less := placed.fill_lt
      have small := capacity.toNat_lt
      have sum : (place + 1).toNat = place.toNat + 1 := add_toNat (Nat.lt_of_le_of_lt inside small)
      have next_lt : (if place + 1 = capacity then 0 else place + 1).toNat < capacity.toNat := by
        split
        next => exact Nat.zero_lt_of_lt inside
        next before => exact Nat.lt_of_le_of_ne (sum.trans_le inside) fun same => before (UInt32.toNat_inj.1 same)
      have next_same : (if place + 1 = capacity then 0 else place + 1).toNat ≡ place.toNat + 1 [MOD capacity.toNat] := by
        split
        next last =>
          rw [← sum, last]
          exact (Nat.mod_self _).symm
        next => rw [sum]
      generalize (if place + 1 = capacity then 0 else place + 1) = next at next_lt next_same
      have after : Placed capacity pause next := ⟨placed.write, next_lt.le⟩
      have some_left : (fillSize capacity pause place).toNat ≠ 0 := by
        intro empty
        rw [empty] at behind
        exact stopped (UInt32.toNat_inj.1 (behind.eq_of_lt_of_lt inside placed.write))
      have fill : (fillSize capacity pause next).toNat = (fillSize capacity pause place).toNat - 1 := by
        apply after.fill_unique (by omega)
        have total : place.toNat + 1 + ((fillSize capacity pause place).toNat - 1) =
          place.toNat + (fillSize capacity pause place).toNat := by omega
        have step := next_same.add_right ((fillSize capacity pause place).toNat - 1)
        rw [total] at step
        exact step.trans behind
      obtain ⟨cells, last, same⟩ := ih after next_lt
      have count : min (steps + 1) (fillSize capacity pause place).toNat =
        1 + min steps ((fillSize capacity pause place).toNat - 1) := by omega
      rw [fill] at cells same
      rw [count]
      refine ⟨?_, last, ?_⟩
      · have one : ringCells capacity.toNat place.toNat 1 = [place.toNat] :=
          ringCells_straight (Nat.succ_le_of_lt inside)
        rw [cells, ringCells_add, ringCells_modEq next_same, one, List.singleton_append]
      · rw [← Nat.add_assoc]
        exact same.trans (next_same.add_right _)

/-! ## With the program -/

theorem copyIn_memory : (copyIn capacity pause stores moves memory place).2 =
    (storeEach memory stores, (passed capacity pause moves.sum place).2) := by
  induction stores generalizing moves memory place with
  | nil => rfl
  | cons store rest ih =>
    have total : moves.sum = moves.headD 0 + moves.tail.sum := by cases moves <;> simp
    rw [copyIn, total, passed_add]
    exact ih

theorem copyIn_length : (copyIn capacity pause stores moves memory place).1.length =
    (passed capacity pause moves.sum place).1.length := by
  induction stores generalizing moves memory place with
  | nil => exact List.length_map _
  | cons store rest ih =>
    have total : moves.sum = moves.headD 0 + moves.tail.sum := by cases moves <;> simp
    rw [copyIn, total, passed_add, List.length_append, List.length_append, ih, List.length_map]

/-- What the engine fetches is not touched by stores to other cells. -/
theorem copyIn_fetched (apart : ∀ store ∈ stores, store.1 ∉ (passed capacity pause moves.sum place).1) :
    (copyIn capacity pause stores moves memory place).1 = (passed capacity pause moves.sum place).1.map memory := by
  induction stores generalizing moves memory place with
  | nil => rfl
  | cons store rest ih =>
    have total : moves.sum = moves.headD 0 + moves.tail.sum := by cases moves <;> simp
    rw [total, passed_add] at apart ⊢
    simp only [copyIn, List.map_append]
    have later : ∀ other ∈ rest, other.1 ∉ (passed capacity pause moves.tail.sum
        (passed capacity pause (moves.headD 0) place).2).1 :=
      fun other member inside => apart other (List.mem_cons_of_mem _ member) (List.mem_append_right _ inside)
    rw [ih later]
    congr 1
    apply List.map_congr_left
    intro cell inside
    apply Function.update_of_ne
    rintro rfl
    exact apart store List.mem_cons_self (List.mem_append_right _ inside)

theorem zip_append_of_le (few : cells.length ≤ bytes.length) : cells.zip (bytes ++ more) = cells.zip bytes := by
  induction cells generalizing bytes with
  | nil => rfl
  | cons cell rest ih =>
    cases bytes with
    | nil => exact absurd few (Nat.not_succ_le_zero _)
    | cons byte bytes =>
      rw [List.cons_append, List.zip_cons_cons, List.zip_cons_cons, ih (Nat.le_of_succ_le_succ few)]

/-- Other cells are not stored to. -/
theorem deposit_outside {cell : Nat} (outside : cell ∉ (passed capacity pause bytes.length place).1) :
    (deposit capacity pause bytes memory place).2.1 cell = memory cell := by
  apply storeEach_outside
  rintro store member rfl
  exact outside (List.of_mem_zip member).1

theorem deposit_append : deposit capacity pause (bytes ++ more) memory place =
    ((deposit capacity pause bytes memory place).1 ++
        (deposit capacity pause more (deposit capacity pause bytes memory place).2.1
          (deposit capacity pause bytes memory place).2.2).1,
      (deposit capacity pause more (deposit capacity pause bytes memory place).2.1
        (deposit capacity pause bytes memory place).2.2).2) := by
  simp only [deposit, List.length_append, passed_add]
  rcases Nat.eq_or_lt_of_le (@passed_length_le capacity pause place bytes.length) with all | short
  · rw [List.zip_append all, storeEach_append, List.take_append, all, List.take_of_length_le (Nat.le_add_right _ _),
      Nat.add_sub_cancel_left, List.take_length]
  · -- the engine is stopped, and so for the rest
    rw [passed_short short, passed_paused]
    simp only [List.append_nil, List.length_nil, Nat.add_zero, List.take_zero, List.zip_nil_left]
    rw [zip_append_of_le short.le, List.take_append_of_le_length short.le]
    rfl

theorem copyOut_memory : (copyOut capacity pause cells arrivals memory place).2 =
    deposit capacity pause arrivals.flatten memory place := by
  induction cells generalizing arrivals memory place with
  | nil => rfl
  | cons cell rest ih =>
    have total : arrivals.flatten = arrivals.headD [] ++ arrivals.tail.flatten := by cases arrivals <;> rfl
    rw [total, deposit_append, copyOut]
    simp only [ih]

/-- What the program reads is not touched by the engine in other cells. -/
theorem copyOut_read (apart : ∀ cell ∈ cells, cell ∉ (passed capacity pause arrivals.flatten.length place).1) :
    (copyOut capacity pause cells arrivals memory place).1 = cells.map memory := by
  induction cells generalizing arrivals memory place with
  | nil => rfl
  | cons cell rest ih =>
    have total : arrivals.flatten.length = (arrivals.headD []).length + arrivals.tail.flatten.length := by
      cases arrivals <;> simp
    rw [total, passed_add] at apart
    have before : ∀ other ∈ cell :: rest, other ∉ (passed capacity pause (arrivals.headD []).length place).1 :=
      fun other member inside => apart other member (List.mem_append_left _ inside)
    have later : ∀ other ∈ rest, other ∉ (passed capacity pause arrivals.tail.flatten.length
        (deposit capacity pause (arrivals.headD []) memory place).2.2).1 :=
      fun other member inside => apart other (List.mem_cons_of_mem _ member) (List.mem_append_right _ inside)
    simp only [copyOut, List.map_cons]
    rw [ih later, deposit_outside (before cell List.mem_cons_self)]
    congr 1
    apply List.map_congr_left
    intro other member
    exact deposit_outside (before other (List.mem_cons_of_mem _ member))

end

end BekenSdk.Audio
