import BekenSdk.SpiFlash.Driver

/-! What an erase clears. The large units are chosen by a length that the loop itself changes, and without a look at where the
range lies in them.
-/

set_option autoImplicit false

namespace BekenSdk.SpiFlash
open Base

section
variable (duration : List UInt8 → Nat)

/-- `erase_size` and `erase_mode`. -/
def eraseChoice (leftSize : Int) (size : UInt32) : UInt32 × EraseMode :=
  if leftSize ≤ 4 * 1024 then (4 * 1024, .sector)
  else if size ≤ 32 * 1024 then (32 * 1024, .block32K)
  else (64 * 1024, .block64K)

/-- The new value of `size`. -/
def eraseStep (eraseSize addr : UInt32) : UInt32 :=
  if addr &&& (eraseSize - 1) ≠ 0 then eraseSize - (addr &&& (eraseSize - 1)) else eraseSize

theorem eraseChoice_cases (leftSize : Int) (size : UInt32) :
    leftSize ≤ 4096 ∧ (eraseChoice leftSize size).1.toNat = 4096 ∨
      4096 < leftSize ∧ size.toNat ≤ 32768 ∧ (eraseChoice leftSize size).1.toNat = 32768 ∨
      4096 < leftSize ∧ 32768 < size.toNat ∧ (eraseChoice leftSize size).1.toNat = 65536 := by
  unfold eraseChoice
  split
  case isTrue short => exact Or.inl ⟨short, rfl⟩
  case isFalse long =>
    have more : 4096 < leftSize := Int.not_le.1 long
    split
    case isTrue small => exact Or.inr (Or.inl ⟨more, UInt32.le_iff_toNat_le.1 small, rfl⟩)
    case isFalse large => exact Or.inr (Or.inr ⟨more, Nat.not_le.1 fun small => large (UInt32.le_iff_toNat_le.2 small), rfl⟩)

theorem eraseChoice_pow (leftSize : Int) (size : UInt32) : ∃ n, (eraseChoice leftSize size).1.toNat = 2 ^ n := by
  rcases eraseChoice_cases leftSize size with ⟨_, same⟩ | ⟨_, _, same⟩ | ⟨_, _, same⟩
  · exact ⟨12, same⟩
  · exact ⟨15, same⟩
  · exact ⟨16, same⟩

theorem eraseStep_toNat {eraseSize : UInt32} (addr : UInt32) {n : Nat} (power : eraseSize.toNat = 2 ^ n) :
    (eraseStep eraseSize addr).toNat = eraseSize.toNat - addr.toNat % eraseSize.toNat := by
  have positive : 0 < eraseSize.toNat := power ▸ Nat.two_pow_pos n
  have mask : (addr &&& (eraseSize - 1)).toNat = addr.toNat % eraseSize.toNat := by
    have one : (1 : UInt32) ≤ eraseSize := UInt32.le_iff_toNat_le.2 positive
    rw [UInt32.toNat_and, UInt32.toNat_sub_of_le _ _ one, power]
    exact Nat.and_two_pow_sub_one_eq_mod addr.toNat n
  have less := Nat.mod_lt addr.toNat positive
  unfold eraseStep
  split
  case isTrue =>
    rw [UInt32.toNat_sub_of_le, mask]
    rw [UInt32.le_iff_toNat_le, mask]
    exact less.le
  case isFalse aligned =>
    rw [ne_eq, not_not, ← UInt32.toNat_inj, mask] at aligned
    rw [aligned]
    rfl

theorem eraseStep_pos (leftSize : Int) (size addr : UInt32) : 0 < (eraseStep (eraseChoice leftSize size).1 addr).toNat := by
  obtain ⟨n, power⟩ := eraseChoice_pow leftSize size
  rw [eraseStep_toNat addr power]
  exact Nat.sub_pos_of_lt (Nat.mod_lt _ (power ▸ Nat.two_pow_pos n))

/-- The loop; `left_size` is an `int`. -/
def eraseLoop (leftSize : Int) (addr size : UInt32) (device : Device) : Device :=
  if more : 0 < leftSize then
    let choice := eraseChoice leftSize size
    let step := eraseStep choice.1 addr
    eraseLoop (leftSize - step.toNat) (addr + step) step (spiFlashEarse duration addr choice.2 device)
  else device
termination_by leftSize.toNat
decreasing_by
  have positive := eraseStep_pos leftSize size addr
  omega

def spiFlashErase (addr size : UInt32) (device : Device) : Device := eraseLoop duration size.toInt32.toInt addr size device

end

/-! ## Units -/

/-- The units that the loop erases. -/
def units (leftSize : Int) (addr size : UInt32) : List (Nat × Nat) :=
  if more : 0 < leftSize then
    let eraseSize := (eraseChoice leftSize size).1
    let step := eraseStep eraseSize addr
    (addr.toNat % deviceSize - addr.toNat % deviceSize % eraseSize.toNat, eraseSize.toNat) ::
      units (leftSize - step.toNat) (addr + step) step
  else []
termination_by leftSize.toNat
decreasing_by
  have positive := eraseStep_pos leftSize size addr
  omega

def InUnit (a : Nat) (unit : Nat × Nat) : Prop := unit.1 ≤ a ∧ a < unit.1 + unit.2

/-- The range is erased, and of the rest only what is in a sector with some of it. -/
structure Erased (before after : Device) (addr size : UInt32) : Prop where
  units : ∃ units, after.erased = before.erased ++ units ∧
    (∀ a, addr.toNat ≤ a → a < addr.toNat + size.toNat → ∃ unit ∈ units, InUnit a unit) ∧
      ∀ unit ∈ units, ∀ a, InUnit a unit → ∃ b, addr.toNat ≤ b ∧ b < addr.toNat + size.toNat ∧ a / 4096 = b / 4096
  inside : ∀ a, addr.toNat ≤ a → a < addr.toNat + size.toNat → after.cells a = 0xFF
  outside : ∀ a, (∀ b, addr.toNat ≤ b → b < addr.toNat + size.toNat → a / 4096 ≠ b / 4096) → after.cells a = before.cells a

/-- The length of the last part, if the range is cut by the blocks of 64 KiB. -/
def tail64K (len : Nat) : Nat := (len - 1) % 65536 + 1

/-- The range has addresses, and no block is taken for it that reaches into other sectors. -/
def Blocked (addr size : UInt32) : Prop :=
  size = 0 ∨ addr.toNat + size.toNat ≤ deviceSize ∧
    (size.toNat ≤ 4096 ∨
      size.toNat ≤ 32768 ∧ addr.toNat % 32768 < 4096 ∧ 28672 < addr.toNat % 32768 + size.toNat ∨
      32768 < size.toNat ∧ addr.toNat % 65536 < 4096 ∧
        (tail64K (addr.toNat % 65536 + size.toNat) ≤ 4096 ∨ 61440 < tail64K (addr.toNat % 65536 + size.toNat)))

instance (addr size : UInt32) : Decidable (Blocked addr size) :=
  inferInstanceAs (Decidable (_ ∨ _ ∧ (_ ∨ _ ∧ _ ∧ _ ∨ _ ∧ _ ∧ (_ ∨ _))))

section
variable {duration : List UInt8 → Nat}

theorem units_done {leftSize : Int} (ended : ¬0 < leftSize) (addr size : UInt32) : units leftSize addr size = [] := by
  rw [units, dif_neg ended]

theorem units_next {leftSize : Int} (more : 0 < leftSize) (addr size : UInt32) :
    units leftSize addr size =
      (addr.toNat % deviceSize - addr.toNat % deviceSize % (eraseChoice leftSize size).1.toNat,
        (eraseChoice leftSize size).1.toNat) ::
        units (leftSize - (eraseStep (eraseChoice leftSize size).1 addr).toNat) (addr + eraseStep (eraseChoice leftSize size).1 addr)
          (eraseStep (eraseChoice leftSize size).1 addr) := by
  rw [units, dif_pos more]

/-- An erase of the loop clears the unit of its size around the address. -/
theorem spiFlashEarse_eq (leftSize : Int) (size addr : UInt32) (device : Device) :
    ∃ busy, spiFlashEarse duration addr (eraseChoice leftSize size).2 device =
      { device.erase (eraseChoice leftSize size).1.toNat (addr.toNat % deviceSize) with writeEnabled := false, busy := busy } := by
  unfold eraseChoice
  rw [← commandAddr_addrBytes]
  split
  · exact ⟨_, sendEnabled_eq device _⟩
  · split
    · exact ⟨_, sendEnabled_eq device _⟩
    · exact ⟨_, sendEnabled_eq device _⟩

/-- What a list of units leaves. -/
structure Cleared (before after : Device) (list : List (Nat × Nat)) : Prop where
  erased : after.erased = before.erased ++ list
  inside : ∀ a, (∃ unit ∈ list, InUnit a unit) → after.cells a = 0xFF
  outside : ∀ a, (∀ unit ∈ list, ¬InUnit a unit) → after.cells a = before.cells a

theorem inUnit_iff {size : Nat} (positive : 0 < size) (addr a : Nat) :
    InUnit a (addr - addr % size, size) ↔ addr / size = a / size := by
  have first : addr - addr % size = size * (addr / size) := by
    have whole := Nat.div_add_mod addr size
    omega
  unfold InUnit
  dsimp only
  rw [first, eq_comm, Nat.div_eq_iff positive, Nat.mul_comm size]
  constructor
  · exact fun inside => ⟨inside.1, by omega⟩
  · exact fun inside => ⟨inside.1, by omega⟩

theorem Cleared.cons {before next after : Device} {size addr : Nat} {busy : Nat} {rest : List (Nat × Nat)} (positive : 0 < size)
    (step : next = { before.erase size addr with writeEnabled := false, busy := busy }) (later : Cleared next after rest) :
    Cleared before after ((addr - addr % size, size) :: rest) where
  erased := by
    rw [later.erased, step]
    exact List.append_assoc before.erased [_] rest
  inside a found := by
    by_cases again : ∃ unit ∈ rest, InUnit a unit
    · exact later.inside a again
    · rw [later.outside a fun unit member here => again ⟨unit, member, here⟩, step]
      obtain ⟨unit, member, here⟩ := found
      rcases List.mem_cons.1 member with rfl | old
      · exact eraseSector_inside size before.cells ((inUnit_iff positive addr a).1 here)
      · exact absurd ⟨unit, old, here⟩ again
  outside a none := by
    rw [later.outside a fun unit member => none unit (List.mem_cons_of_mem _ member), step]
    exact eraseSector_outside size before.cells fun same => none _ List.mem_cons_self ((inUnit_iff positive addr a).2 same)

theorem eraseLoop_cleared (leftSize : Int) (addr size : UInt32) (device : Device) :
    Cleared device (eraseLoop duration leftSize addr size device) (units leftSize addr size) := by
  induction h : leftSize.toNat using Nat.strongRecOn generalizing leftSize addr size device with
  | ind measure ih =>
    by_cases more : 0 < leftSize
    · obtain ⟨busy, step⟩ := @spiFlashEarse_eq duration leftSize size addr device
      obtain ⟨n, power⟩ := eraseChoice_pow leftSize size
      have positive := eraseStep_pos leftSize size addr
      rw [units_next more, eraseLoop, dif_pos more]
      exact Cleared.cons (power ▸ Nat.two_pow_pos n) step (ih _ (by omega) _ _ _ _ rfl)
    · rw [units_done more, eraseLoop, dif_neg more]
      exact ⟨(List.append_nil _).symm, fun a none => absurd none (by simp), fun _ _ => rfl⟩

/-! ## Which units -/

/-- No unit reaches past the last address. -/
theorem units_below {leftSize : Int} {addr size : UInt32} : ∀ unit ∈ units leftSize addr size, unit.1 + unit.2 ≤ deviceSize := by
  induction h : leftSize.toNat using Nat.strongRecOn generalizing leftSize addr size with
  | ind measure ih =>
    by_cases more : 0 < leftSize
    · have positive := eraseStep_pos leftSize size addr
      rw [units_next more]
      refine List.forall_mem_cons.2 ⟨?_, ih _ (by omega) rfl⟩
      unfold deviceSize
      rcases eraseChoice_cases leftSize size with ⟨_, same⟩ | ⟨_, _, same⟩ | ⟨_, _, same⟩ <;> rw [same] <;> omega
    · rw [units_done more]
      exact fun _ member => absurd member List.not_mem_nil

/-- The address of the next round. -/
theorem next_addr {leftSize : Int} {addr size : UInt32} (inside : addr.toNat < deviceSize) :
    (addr + eraseStep (eraseChoice leftSize size).1 addr).toNat =
      addr.toNat + (eraseStep (eraseChoice leftSize size).1 addr).toNat := by
  obtain ⟨n, power⟩ := eraseChoice_pow leftSize size
  have step := eraseStep_toNat addr power
  rw [UInt32.toNat_add]
  unfold deviceSize at inside
  rcases eraseChoice_cases leftSize size with ⟨_, same⟩ | ⟨_, _, same⟩ | ⟨_, _, same⟩ <;> rw [same] at step <;> omega

/-- In the device the range is covered. -/
theorem units_cover {leftSize : Int} {addr size : UInt32} (inside : addr.toNat + leftSize ≤ deviceSize) {a : Nat}
    (low : addr.toNat ≤ a) (high : (a : Int) < addr.toNat + leftSize) : ∃ unit ∈ units leftSize addr size, InUnit a unit := by
  induction h : leftSize.toNat using Nat.strongRecOn generalizing leftSize addr size with
  | ind measure ih =>
    have more : 0 < leftSize := by omega
    have positive := eraseStep_pos leftSize size addr
    obtain ⟨n, power⟩ := eraseChoice_pow leftSize size
    have step := eraseStep_toNat addr power
    rw [units_next more]
    by_cases here : a < addr.toNat + (eraseStep (eraseChoice leftSize size).1 addr).toNat
    · refine ⟨_, List.mem_cons_self, ?_⟩
      unfold InUnit deviceSize at *
      dsimp only
      rw [step] at here
      rcases eraseChoice_cases leftSize size with ⟨_, same⟩ | ⟨_, _, same⟩ | ⟨_, _, same⟩ <;> rw [same] at here ⊢ <;> omega
    · have next := @next_addr leftSize addr size (by omega)
      obtain ⟨unit, member, found⟩ := @ih _ (by omega) (leftSize - (eraseStep (eraseChoice leftSize size).1 addr).toNat)
        (addr + eraseStep (eraseChoice leftSize size).1 addr) (eraseStep (eraseChoice leftSize size).1 addr)
        (by rw [next]; push_cast; omega) (by rw [next]; omega) (by rw [next]; push_cast; omega) rfl
      exact ⟨unit, List.mem_cons_of_mem _ member, found⟩

/-- The unit does not go beyond the sectors from the one of `low` to the one before `high`. -/
def Confined (low high : Nat) (unit : Nat × Nat) : Prop :=
  low - low % 4096 ≤ unit.1 ∧ unit.1 + unit.2 ≤ (high + 4095) / 4096 * 4096

section
variable {low high : Nat}

/-- A range that is not longer than a sector takes sectors only. -/
theorem sectors_confined {leftSize : Int} {addr size : UInt32} (inside : high ≤ deviceSize) (behind : low ≤ addr.toNat)
    (ends : addr.toNat + leftSize = high) (short : leftSize ≤ 4096) :
    ∀ unit ∈ units leftSize addr size, Confined low high unit := by
  induction h : leftSize.toNat using Nat.strongRecOn generalizing leftSize addr size with
  | ind measure ih =>
    by_cases more : 0 < leftSize
    · have positive := eraseStep_pos leftSize size addr
      have next := @next_addr leftSize addr size (by omega)
      rw [units_next more]
      refine List.forall_mem_cons.2 ⟨?_, @ih _ (by omega) _ _ _ (by omega) (by rw [next]; push_cast; omega) (by omega) rfl⟩
      have same : (eraseChoice leftSize size).1.toNat = 4096 := by
        rcases eraseChoice_cases leftSize size with ⟨_, same⟩ | ⟨long, _⟩ | ⟨long, _⟩
        · exact same
        · omega
        · omega
      unfold Confined deviceSize at *
      dsimp only
      rw [same]
      omega
    · rw [units_done more]
      exact fun _ member => absurd member List.not_mem_nil

/-- From the start of a block of 64 KiB on, blocks are taken until no more than a sector is left. -/
theorem blocks_confined_iff {leftSize : Int} {addr size : UInt32} (inside : high ≤ deviceSize) (behind : low ≤ addr.toNat)
    (ends : addr.toNat + leftSize = high) (aligned : addr.toNat % 65536 = 0) (large : 32768 < size.toNat) (more : 0 < leftSize) :
    (∀ unit ∈ units leftSize addr size, Confined low high unit) ↔
      tail64K leftSize.toNat ≤ 4096 ∨ 61440 < tail64K leftSize.toNat := by
  induction h : leftSize.toNat using Nat.strongRecOn generalizing leftSize addr size with
  | ind measure ih =>
    by_cases short : leftSize ≤ 4096
    · refine iff_of_true (sectors_confined inside behind ends short) (Or.inl ?_)
      unfold tail64K
      omega
    · have next := @next_addr leftSize addr size (by omega)
      obtain ⟨n, power⟩ := eraseChoice_pow leftSize size
      have step := eraseStep_toNat addr power
      have same : (eraseChoice leftSize size).1.toNat = 65536 := by
        rcases eraseChoice_cases leftSize size with ⟨few, _⟩ | ⟨_, small, _⟩ | ⟨_, _, same⟩
        · omega
        · omega
        · exact same
      rw [same, aligned] at step
      rw [units_next more, List.forall_mem_cons]
      have first : Confined low high (addr.toNat % deviceSize - addr.toNat % deviceSize %
          (eraseChoice leftSize size).1.toNat, (eraseChoice leftSize size).1.toNat) ↔ 61440 < leftSize := by
        unfold Confined deviceSize at *
        dsimp only
        rw [same]
        omega
      rw [first]
      by_cases last' : leftSize ≤ 65536
      · rw [units_done (by omega)]
        unfold tail64K
        constructor
        · omega
        · exact fun either => ⟨by omega, fun _ member => absurd member List.not_mem_nil⟩
      · rw [@ih _ (by omega) _ _ _ (by omega) (by rw [next]; push_cast; omega) (by rw [next]; omega) (by omega) (by omega) rfl]
        unfold tail64K
        omega

end

/-! ## An erase -/

variable {addr size : UInt32}

/-- The loop starts with the whole length twice. -/
theorem units_confined_iff (positive : 0 < size.toNat) (inside : addr.toNat + size.toNat ≤ deviceSize) :
    (∀ unit ∈ units size.toNat addr size, Confined addr.toNat (addr.toNat + size.toNat) unit) ↔
      size.toNat ≤ 4096 ∨
        size.toNat ≤ 32768 ∧ addr.toNat % 32768 < 4096 ∧ 28672 < addr.toNat % 32768 + size.toNat ∨
        32768 < size.toNat ∧ addr.toNat % 65536 < 4096 ∧
          (tail64K (addr.toNat % 65536 + size.toNat) ≤ 4096 ∨ 61440 < tail64K (addr.toNat % 65536 + size.toNat)) := by
  have next := @next_addr size.toNat addr size (by omega)
  obtain ⟨n, power⟩ := eraseChoice_pow size.toNat size
  have step := eraseStep_toNat addr power
  rcases eraseChoice_cases size.toNat size with ⟨short, _⟩ | ⟨long, small, same⟩ | ⟨long, large, same⟩
  · exact iff_of_true (sectors_confined inside (Nat.le_refl _) (by push_cast; rfl) short) (Or.inl (by omega))
  · rw [same] at step
    rw [units_next (by omega), List.forall_mem_cons, same]
    have first : Confined addr.toNat (addr.toNat + size.toNat) (addr.toNat % deviceSize - addr.toNat % deviceSize % 32768, 32768) ↔
        addr.toNat % 32768 < 4096 ∧ 28672 < addr.toNat % 32768 + size.toNat := by
      unfold Confined deviceSize at *
      dsimp only
      omega
    rw [first]
    constructor
    · exact fun both => Or.inr (Or.inl ⟨small, both.1⟩)
    · intro either
      have block : addr.toNat % 32768 < 4096 ∧ 28672 < addr.toNat % 32768 + size.toNat := by omega
      exact ⟨block, sectors_confined inside (by omega) (by rw [next]; push_cast; omega) (by omega)⟩
  · rw [same] at step
    rw [units_next (by omega), List.forall_mem_cons, same]
    have first : Confined addr.toNat (addr.toNat + size.toNat) (addr.toNat % deviceSize - addr.toNat % deviceSize % 65536, 65536) ↔
        addr.toNat % 65536 < 4096 ∧ 61440 < addr.toNat % 65536 + size.toNat := by
      unfold Confined deviceSize at *
      dsimp only
      omega
    rw [first]
    by_cases block : addr.toNat % 65536 < 4096 ∧ 61440 < addr.toNat % 65536 + size.toNat
    · by_cases more : 0 < (size.toNat : Int) - (eraseStep (eraseChoice size.toNat size).1 addr).toNat
      · rw [blocks_confined_iff inside (by omega) (by rw [next]; push_cast; omega) (by omega) (by omega) more]
        unfold tail64K
        omega
      · rw [units_done more]
        have last' : tail64K (addr.toNat % 65536 + size.toNat) = addr.toNat % 65536 + size.toNat := by
          unfold tail64K
          omega
        rw [last']
        refine iff_of_true ⟨block, fun _ member => absurd member List.not_mem_nil⟩ (Or.inr (Or.inr ⟨large, block.1, Or.inr block.2⟩))
    · refine iff_of_false (fun both => block both.1) ?_
      unfold tail64K
      omega

/-- All units lie on sectors. -/
theorem units_sectors {leftSize : Int} {addr size : UInt32} : ∀ unit ∈ units leftSize addr size,
    unit.1 % 4096 = 0 ∧ unit.2 % 4096 = 0 ∧ 0 < unit.2 := by
  induction h : leftSize.toNat using Nat.strongRecOn generalizing leftSize addr size with
  | ind measure ih =>
    by_cases more : 0 < leftSize
    · have positive := eraseStep_pos leftSize size addr
      rw [units_next more]
      refine List.forall_mem_cons.2 ⟨?_, ih _ (by omega) rfl⟩
      dsimp only
      unfold deviceSize
      rcases eraseChoice_cases leftSize size with ⟨_, same⟩ | ⟨_, _, same⟩ | ⟨_, _, same⟩ <;> rw [same] <;> omega
    · rw [units_done more]
      exact fun _ member => absurd member List.not_mem_nil

/-- A unit on sectors is confined just if each of its sectors has some of the range. -/
theorem unit_confined_iff {low len : Nat} (positive : 0 < len) {unit : Nat × Nat}
    (sectors : unit.1 % 4096 = 0 ∧ unit.2 % 4096 = 0 ∧ 0 < unit.2) :
    Confined low (low + len) unit ↔ ∀ a, InUnit a unit → ∃ b, low ≤ b ∧ b < low + len ∧ a / 4096 = b / 4096 := by
  unfold Confined InUnit
  constructor
  · intro confined a inside
    by_cases first : a / 4096 = low / 4096
    · exact ⟨low, by omega, by omega, first⟩
    · exact ⟨a - a % 4096, by omega, by omega, by omega⟩
  · intro all
    obtain ⟨b, behind, before, same⟩ := all unit.1 ⟨by omega, by omega⟩
    obtain ⟨c, behindC, beforeC, sameC⟩ := all (unit.1 + unit.2 - 1) ⟨by omega, by omega⟩
    omega

theorem leftSize_eq (small : size.toNat < 2 ^ 31) : size.toInt32.toInt = size.toNat :=
  BitVec.toInt_eq_toNat_of_lt (by change 2 * size.toNat < 2 ^ 32; omega)

theorem erase_cleared (addr size : UInt32) (before : Device) :
    Cleared before (spiFlashErase duration addr size before) (units size.toInt32.toInt addr size) := eraseLoop_cleared _ _ _ _

theorem erased_of_blocked (before : Device) (blocked : Blocked addr size) :
    Erased before (spiFlashErase duration addr size before) addr size := by
  have cleared := @erase_cleared duration addr size before
  by_cases none : size = 0
  · subst none
    rw [units_done (by decide)] at cleared
    have empty : ∀ a, addr.toNat ≤ a → ¬a < addr.toNat + (0 : UInt32).toNat := fun a low => Nat.not_lt.2 low
    exact ⟨⟨[], cleared.erased, fun a low less => absurd less (empty a low), fun _ member => absurd member List.not_mem_nil⟩,
      fun a low less => absurd less (empty a low), fun a _ => cleared.outside a fun _ member => absurd member List.not_mem_nil⟩
  · have positive : 0 < size.toNat := Nat.pos_of_ne_zero fun zero => none (UInt32.toNat_inj.1 zero)
    obtain ⟨inside, aligned⟩ := blocked.resolve_left none
    have small : size.toNat < 2 ^ 31 := by
      unfold deviceSize at inside
      omega
    rw [leftSize_eq small] at cleared
    have covered : ∀ a, addr.toNat ≤ a → a < addr.toNat + size.toNat → ∃ unit ∈ units size.toNat addr size, InUnit a unit :=
      fun a low less => units_cover (by omega) low (by omega)
    have confined := (units_confined_iff positive inside).2 aligned
    have sectors : ∀ unit ∈ units size.toNat addr size, ∀ a, InUnit a unit →
        ∃ b, addr.toNat ≤ b ∧ b < addr.toNat + size.toNat ∧ a / 4096 = b / 4096 :=
      fun unit member => (unit_confined_iff positive (units_sectors unit member)).1 (confined unit member)
    refine ⟨⟨_, cleared.erased, covered, sectors⟩, fun a low less => cleared.inside a (covered a low less), ?_⟩
    intro a apart
    refine cleared.outside a fun unit member here => ?_
    obtain ⟨b, behind, less, same⟩ := sectors unit member a here
    exact apart b behind less same

theorem blocked_of_erased (before : Device) (erased : Erased before (spiFlashErase duration addr size before) addr size) :
    Blocked addr size := by
  by_cases none : size = 0
  · exact Or.inl none
  have positive : 0 < size.toNat := Nat.pos_of_ne_zero fun zero => none (UInt32.toNat_inj.1 zero)
  have cleared := @erase_cleared duration addr size before
  obtain ⟨list, added, covered, sectors⟩ := erased.units
  have same : list = units size.toInt32.toInt addr size :=
    List.append_cancel_left (added.symm.trans cleared.erased)
  subst same
  have inside : addr.toNat + size.toNat ≤ deviceSize := by
    obtain ⟨unit, member, here⟩ := covered (addr.toNat + size.toNat - 1) (by omega) (by omega)
    have below := units_below unit member
    have less := here.2
    omega
  have small : size.toNat < 2 ^ 31 := by
    unfold deviceSize at inside
    omega
  rw [leftSize_eq small] at sectors
  refine Or.inr ⟨inside, (units_confined_iff positive inside).1 fun unit member => ?_⟩
  exact (unit_confined_iff positive (units_sectors unit member)).2 (sectors unit member)

/-- The loop does what it should exactly if no block is taken that reaches into other sectors. -/
theorem erase_iff (addr size : UInt32) (before : Device) :
    Erased before (spiFlashErase duration addr size before) addr size ↔ Blocked addr size :=
  ⟨blocked_of_erased before, erased_of_blocked before⟩

end

def filledDevice : Device := ⟨fun _ => 0, false, 0, [], []⟩

/-- 5000 bytes from address 0: a block of 32 KiB is erased for them. -/
theorem block_not_erased : ¬Erased filledDevice (spiFlashErase (fun _ => 0) 0 5000 filledDevice) 0 5000 := by
  intro erased
  obtain ⟨list, added, _, sectors⟩ := erased.units
  have same := List.append_cancel_left (added.symm.trans (erase_cleared 0 5000 filledDevice).erased)
  subst same
  have block : (0, 32768) ∈ units (5000 : UInt32).toInt32.toInt 0 5000 := by
    rw [units_next (by decide)]
    exact List.mem_cons_self
  obtain ⟨b, _, less, sector⟩ := sectors _ block 8192 ⟨by decide, by decide⟩
  have short : b < 5000 := less
  omega

end BekenSdk.SpiFlash
