import Mathlib.Data.List.GetD
import Mathlib.Data.UInt
import Mathlib.Tactic.Common
import Mathlib.Logic.Function.Iterate

/-! Memory as a function from addresses to bytes. `readBytes` is what a region
contains and `Holds` says so byte by byte; `storeBytes` puts bytes there, and
`moveUp` copies a region a little further up, which does nothing new after enough
repetitions.
-/

set_option autoImplicit false

namespace BekenSdk.Base

abbrev Cells := Nat → UInt8

def readBytes (cells : Cells) : Nat → Nat → List UInt8
  | _, 0 => []
  | addr, len + 1 => cells addr :: readBytes cells (addr + 1) len

@[simp] theorem readBytes_length (cells : Cells) (addr len : Nat) :
    (readBytes cells addr len).length = len := by
  induction len generalizing addr with
  | zero => rfl
  | succ len ih => simp [readBytes, ih]

theorem readBytes_getElem? (cells : Cells) (addr : Nat) {k len : Nat} (inside : k < len) :
    (readBytes cells addr len)[k]? = some (cells (addr + k)) := by
  induction len generalizing addr k with
  | zero => exact absurd inside (Nat.not_lt_zero k)
  | succ len ih =>
    cases k with
    | zero => rfl
    | succ k =>
      rw [readBytes, List.getElem?_cons_succ, ih (addr + 1) (Nat.lt_of_succ_lt_succ inside), Nat.add_right_comm]
      rfl

theorem readBytes_getD (cells : Cells) (addr : Nat) {k len : Nat} (inside : k < len) (fill : UInt8) :
    (readBytes cells addr len).getD k fill = cells (addr + k) := by
  rw [List.getD_eq_getElem?_getD, readBytes_getElem? cells addr inside, Option.getD_some]

theorem readBytes_eq_range (cells : Cells) (addr len : Nat) :
    readBytes cells addr len = (List.range len).map fun k => cells (addr + k) := by
  apply List.ext_getElem?
  intro k
  by_cases inside : k < len
  · rw [readBytes_getElem? cells addr inside, List.getElem?_map, List.getElem?_range inside, Option.map_some]
  · rw [List.getElem?_eq_none (by rw [readBytes_length]; omega), List.getElem?_eq_none]
    rw [List.length_map, List.length_range]
    omega

/-! ## Regions and their contents -/

def Holds (cells : Cells) : Nat → List UInt8 → Prop
  | _, [] => True
  | addr, byte :: rest => cells addr = byte ∧ Holds cells (addr + 1) rest

theorem holds_append (cells : Cells) (addr : Nat) (first rest : List UInt8) :
    Holds cells addr (first ++ rest) ↔
      Holds cells addr first ∧ Holds cells (addr + first.length) rest := by
  induction first generalizing addr with
  | nil => simp [Holds]
  | cons byte first ih =>
    have shift : addr + 1 + first.length = addr + (first.length + 1) := by omega
    simp only [List.cons_append, Holds, ih, List.length_cons, shift, and_assoc]

theorem Holds.read {cells : Cells} {addr : Nat} {bytes : List UInt8}
    (held : Holds cells addr bytes) : readBytes cells addr bytes.length = bytes := by
  induction bytes generalizing addr with
  | nil => rfl
  | cons byte rest ih =>
    obtain ⟨first, tail⟩ := held
    simp only [List.length_cons, readBytes, first, ih tail]

theorem Holds.read_of_length {cells : Cells} {addr len : Nat} {bytes : List UInt8}
    (held : Holds cells addr bytes) (same : bytes.length = len) :
    readBytes cells addr len = bytes := same ▸ held.read

theorem holds_readBytes (cells : Cells) (addr len : Nat) :
    Holds cells addr (readBytes cells addr len) := by
  induction len generalizing addr with
  | zero => trivial
  | succ len ih => exact ⟨rfl, ih (addr + 1)⟩

theorem readBytes_add (cells : Cells) (addr m n : Nat) :
    readBytes cells addr (m + n) = readBytes cells addr m ++ readBytes cells (addr + m) n := by
  induction m generalizing addr with
  | zero => simp [readBytes]
  | succ m ih =>
    have shift : addr + 1 + m = addr + (m + 1) := by omega
    rw [Nat.succ_add, readBytes, readBytes, ih, shift, List.cons_append]

/-- What lies within a region. -/
theorem readBytes_window (cells : Cells) (addr : Nat) {i n len : Nat} (inside : i + n ≤ len) :
    ((readBytes cells addr len).drop i).take n = readBytes cells (addr + i) n := by
  have split : len = i + (n + (len - (i + n))) := by omega
  rw [split, readBytes_add, readBytes_add, List.drop_left' (readBytes_length _ _ _),
    List.take_left' (readBytes_length _ _ _)]

/-- A region is unaffected by a change that leaves each of its cells alone. -/
theorem Holds.congr {cells other : Cells} {addr : Nat} {bytes : List UInt8}
    (held : Holds cells addr bytes)
    (same : ∀ a, addr ≤ a → a < addr + bytes.length → other a = cells a) :
    Holds other addr bytes := by
  induction bytes generalizing addr with
  | nil => trivial
  | cons byte rest ih =>
    obtain ⟨first, tail⟩ := held
    refine ⟨?_, ih tail fun a low high => same a (by omega) ?_⟩
    · rw [same addr (Nat.le_refl _) (by simp), first]
    · simp only [List.length_cons]; omega

theorem readBytes_congr {cells other : Cells} {addr len : Nat}
    (same : ∀ a, addr ≤ a → a < addr + len → other a = cells a) :
    readBytes other addr len = readBytes cells addr len := by
  have held : Holds other addr (readBytes cells addr len) :=
    (holds_readBytes cells addr len).congr (by simpa using same)
  exact held.read_of_length (readBytes_length cells addr len)

/-- A memory laid out from a list holds the list. -/
theorem holds_getD (bytes : List UInt8) (fill : UInt8) : Holds (fun a => bytes.getD a fill) 0 bytes := by
  have from' : ∀ first rest, bytes = first ++ rest → Holds (fun a => bytes.getD a fill) first.length rest := by
    intro first rest
    induction rest generalizing first with
    | nil => exact fun _ => trivial
    | cons byte rest ih =>
      intro split
      refine ⟨by simp [split], ?_⟩
      have later := ih (first ++ [byte]) (by simp [split])
      rwa [List.length_append] at later
  exact from' [] bytes rfl

/-! ## Storing -/

/-- What `memcpy` leaves at `addr`. -/
def storeBytes (cells : Cells) (addr : Nat) (bytes : List UInt8) : Cells := fun a =>
  if addr ≤ a ∧ a < addr + bytes.length then bytes.getD (a - addr) 0 else cells a

theorem storeBytes_outside {cells : Cells} {addr a : Nat} {bytes : List UInt8}
    (outside : a < addr ∨ addr + bytes.length ≤ a) : storeBytes cells addr bytes a = cells a :=
  if_neg (by omega)

theorem storeBytes_nil (cells : Cells) (addr : Nat) : storeBytes cells addr [] = cells := by
  funext a
  apply storeBytes_outside
  rw [List.length_nil]
  omega

theorem storeBytes_append (cells : Cells) (addr : Nat) (first rest : List UInt8) :
    storeBytes cells addr (first ++ rest) = storeBytes (storeBytes cells addr first) (addr + first.length) rest := by
  funext a
  by_cases low : addr ≤ a ∧ a < addr + first.length
  · rw [@storeBytes_outside _ _ _ rest (Or.inl low.2), storeBytes, storeBytes, if_pos low,
      if_pos ⟨low.1, by rw [List.length_append]; omega⟩, List.getD_append _ _ _ _ (by omega)]
  · by_cases high : addr + first.length ≤ a ∧ a < addr + first.length + rest.length
    · have shift : a - addr - first.length = a - (addr + first.length) := by omega
      rw [storeBytes, storeBytes, if_pos high, if_pos ⟨by omega, by rw [List.length_append]; omega⟩,
        List.getD_append_right _ _ _ _ (by omega), shift]
    · rw [storeBytes, storeBytes, storeBytes, if_neg high, if_neg low, if_neg]
      rw [List.length_append]
      omega

theorem holds_storeBytes (cells : Cells) (addr : Nat) (bytes : List UInt8) :
    Holds (storeBytes cells addr bytes) addr bytes := by
  induction bytes generalizing cells addr with
  | nil => trivial
  | cons byte rest ih =>
    have split : storeBytes cells addr (byte :: rest) = storeBytes (storeBytes cells addr [byte]) (addr + 1) rest :=
      storeBytes_append cells addr [byte] rest
    rw [split]
    refine ⟨?_, ih _ _⟩
    rw [storeBytes_outside (Or.inl (Nat.lt_succ_self addr))]
    simp [storeBytes]

/-- A region grows by what is stored behind it. -/
theorem Holds.store {cells : Cells} {addr : Nat} {bytes : List UInt8} (held : Holds cells addr bytes)
    (more : List UInt8) : Holds (storeBytes cells (addr + bytes.length) more) addr (bytes ++ more) := by
  refine (holds_append _ _ _ _).mpr ⟨held.congr fun a _ high => ?_, holds_storeBytes _ _ _⟩
  exact storeBytes_outside (Or.inl high)

/-! ## Moving a region up -/

/-- The bytes from `base` on, `len` of them, copied `by` further up. -/
def moveUp (base len step : Nat) (cells : Cells) : Cells := fun a =>
  if base + step ≤ a ∧ a < base + step + len then cells (a - step) else cells a

theorem readBytes_moveUp (base step start : Nat) {len size : Nat} (inside : start + size ≤ len) (cells : Cells) :
    readBytes (moveUp base len step cells) (base + step + start) size = readBytes cells (base + start) size := by
  induction size generalizing start with
  | zero => rfl
  | succ size ih =>
    have here : moveUp base len step cells (base + step + start) = cells (base + start) := by
      have back : base + step + start - step = base + start := by omega
      rw [moveUp, if_pos (by omega), back]
    rw [readBytes, readBytes, here, Nat.add_assoc (base + step), Nat.add_assoc base start, ih _ (by omega)]

/-- Repeated moves bring a byte up from where a whole number of steps started. -/
theorem moveUp_iterate {base len step : Nat} (positive : 0 < step) (cells : Cells) (k a : Nat) :
    (moveUp base len step)^[k] cells a =
      if base + step ≤ a ∧ a < base + step + len then cells (a - step * min k ((a - base) / step)) else cells a := by
  induction k generalizing a with
  | zero => simp
  | succ k ih =>
    rw [Function.iterate_succ_apply', moveUp]
    split
    next inside =>
      rw [ih]
      have split : (a - base) / step = (a - step - base) / step + 1 := by
        have apart : a - base = a - step - base + step := by omega
        rw [apart, Nat.add_div_right _ positive]
      have back : a - step - step * min k ((a - step - base) / step) =
          a - step * min (k + 1) ((a - base) / step) := by
        rw [split, Nat.succ_min_succ, Nat.mul_succ]
        omega
      split
      · rw [back]
      next below =>
        -- One step down is below the region, so it was never written.
        have zero : (a - step - base) / step = 0 := Nat.div_eq_of_lt (by omega)
        rw [← back, zero, Nat.min_zero, Nat.mul_zero, Nat.sub_zero]
    next => rw [ih, if_neg (by assumption)]

/-- After the region has been passed over once nothing changes any more. -/
theorem moveUp_settles {base len step k : Nat} (positive : 0 < step) (enough : step + len ≤ step * (k + 1))
    (cells : Cells) :
    moveUp base len step ((moveUp base len step)^[k] cells) = (moveUp base len step)^[k] cells := by
  rw [← Function.iterate_succ_apply' (moveUp base len step)]
  funext a
  rw [moveUp_iterate positive, moveUp_iterate positive]
  split
  next inside =>
    have few : (a - base) / step < k + 1 := (Nat.div_lt_iff_lt_mul positive).mpr (by rw [Nat.mul_comm]; omega)
    rw [Nat.min_eq_right (by omega), Nat.min_eq_right (by omega)]
  next => rfl

end BekenSdk.Base
