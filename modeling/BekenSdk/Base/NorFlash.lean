import BekenSdk.Base.Bytes

/-! Byte-addressed NOR flash. Erasing sets every byte of a sector to 0xFF and
programming clears bits: a programmed byte is the conjunction of its old value
and the data. The laws below say which regions an erase or a program changes and
what they hold afterwards.
-/

set_option autoImplicit false

namespace BekenSdk.Base

def blank (len : Nat) : List UInt8 := List.replicate len 0xFF

@[simp] theorem blank_length (len : Nat) : (blank len).length = len := List.length_replicate

theorem blank_add (m n : Nat) : blank (m + n) = blank m ++ blank n := List.replicate_add ..

def programBytes (cells : Cells) (addr : Nat) (bytes : List UInt8) : Cells := fun a =>
  if addr ≤ a then cells a &&& bytes.getD (a - addr) 0xFF else cells a

/-- Erase the sector of the given size that contains the address. -/
def eraseSector (size : Nat) (cells : Cells) (addr : Nat) : Cells := fun a =>
  if addr / size = a / size then 0xFF else cells a

/-! ## Programming -/

theorem and_ff (byte : UInt8) : byte &&& 0xFF = byte := by
  apply UInt8.toNat_inj.mp
  have bound := byte.toNat_lt
  rw [UInt8.toNat_and]
  exact (Nat.and_two_pow_sub_one_eq_mod byte.toNat 8).trans (Nat.mod_eq_of_lt bound)

theorem ff_and (byte : UInt8) : 0xFF &&& byte = byte := by
  rw [UInt8.and_comm, and_ff]

theorem programBytes_before (cells : Cells) (addr : Nat) (bytes : List UInt8) {a : Nat}
    (before : a < addr) : programBytes cells addr bytes a = cells a := by
  simp [programBytes, Nat.not_le.mpr before]

theorem programBytes_after (cells : Cells) (addr : Nat) (bytes : List UInt8) {a : Nat}
    (after : addr + bytes.length ≤ a) : programBytes cells addr bytes a = cells a := by
  have beyond : bytes.getD (a - addr) 0xFF = 0xFF :=
    List.getD_eq_default _ _ (by omega)
  unfold programBytes
  split
  · rw [beyond, and_ff]
  · rfl

theorem programBytes_cons (cells : Cells) (addr : Nat) (byte : UInt8) (rest : List UInt8) :
    programBytes cells addr (byte :: rest) =
      programBytes (programBytes cells addr [byte]) (addr + 1) rest := by
  funext a
  rcases Nat.lt_trichotomy a addr with before | here | after
  · rw [programBytes_before _ _ _ before, programBytes_before _ _ _ (by omega),
      programBytes_before _ _ _ before]
  · subst here
    rw [programBytes_before _ _ _ (Nat.lt_succ_self a)]
    simp [programBytes]
  · have position : a - addr = (a - (addr + 1)) + 1 := by omega
    have inner : programBytes cells addr [byte] a = cells a :=
      programBytes_after cells addr [byte] (by simp; omega)
    simp only [programBytes, show addr ≤ a by omega, show addr + 1 ≤ a by omega, if_true] at inner ⊢
    rw [inner, position, List.getD_cons_succ]

theorem programBytes_nil (cells : Cells) (addr : Nat) : programBytes cells addr [] = cells := by
  funext a
  unfold programBytes
  split
  · exact and_ff _
  · rfl

theorem programBytes_append (cells : Cells) (addr : Nat) (first rest : List UInt8) :
    programBytes cells addr (first ++ rest) =
      programBytes (programBytes cells addr first) (addr + first.length) rest := by
  induction first generalizing cells addr with
  | nil => rw [programBytes_nil, List.nil_append, List.length_nil, Nat.add_zero]
  | cons byte first ih =>
    have start : addr + 1 + first.length = addr + (first.length + 1) := by omega
    rw [List.cons_append, programBytes_cons, ih, ← programBytes_cons, List.length_cons, start]

/-- Programming a region that holds data leaves the conjunction there. -/
theorem Holds.program_over {cells : Cells} {addr : Nat} {old : List UInt8}
    (held : Holds cells addr old) (data : List UInt8) (same : old.length = data.length) :
    Holds (programBytes cells addr data) addr (List.zipWith (· &&& ·) old data) := by
  induction old generalizing addr cells data with
  | nil => trivial
  | cons byte old ih =>
    cases data with
    | nil => trivial
    | cons first data =>
      obtain ⟨here, tail⟩ := held
      have later : Holds (programBytes cells addr [first]) (addr + 1) old :=
        tail.congr fun a low _ => programBytes_after _ _ _ (by simpa using low)
      rw [programBytes_cons]
      refine ⟨?_, ih later data (by simpa using same)⟩
      rw [programBytes_before _ _ _ (Nat.lt_succ_self addr)]
      simp [programBytes, here]

theorem zipWith_and_blank (data : List UInt8) :
    List.zipWith (· &&& ·) (blank data.length) data = data := by
  induction data with
  | nil => rfl
  | cons byte rest ih =>
    have step : blank (rest.length + 1) = 0xFF :: blank rest.length := rfl
    rw [List.length_cons, step, List.zipWith_cons_cons, ih, ff_and]

theorem zipWith_and_self (data : List UInt8) : List.zipWith (· &&& ·) data data = data := by
  induction data with
  | nil => rfl
  | cons byte rest ih => rw [List.zipWith_cons_cons, ih, UInt8.and_self]

theorem Holds.program_blank {cells : Cells} {addr : Nat} {data : List UInt8}
    (held : Holds cells addr (blank data.length)) : Holds (programBytes cells addr data) addr data := by
  have result := held.program_over data (by simp)
  rwa [zipWith_and_blank] at result

theorem Holds.program_frame {cells : Cells} {addr target : Nat} {bytes data : List UInt8}
    (held : Holds cells addr bytes)
    (apart : addr + bytes.length ≤ target ∨ target + data.length ≤ addr) :
    Holds (programBytes cells target data) addr bytes := by
  refine held.congr fun a low high => ?_
  rcases apart with left | right
  · exact programBytes_before _ _ _ (by omega)
  · exact programBytes_after _ _ _ (by omega)

/-- Appending to a region whose tail is erased. -/
theorem Holds.program_tail {cells : Cells} {addr room : Nat} {written : List UInt8}
    (held : Holds cells addr (written ++ blank room)) (data : List UInt8) (fits : data.length ≤ room) :
    Holds (programBytes cells (addr + written.length) data) addr
      ((written ++ data) ++ blank (room - data.length)) := by
  have split : blank room = blank data.length ++ blank (room - data.length) := by
    rw [← blank_add, Nat.add_sub_cancel' fits]
  rw [split, holds_append, holds_append, blank_length] at held
  obtain ⟨before, here, after⟩ := held
  rw [List.append_assoc, holds_append, holds_append]
  refine ⟨before.program_frame (Or.inl (Nat.le_refl _)), here.program_blank, ?_⟩
  exact after.program_frame (Or.inr (Nat.le_refl _))

/-! ## Erasing -/

theorem eraseSector_inside (size : Nat) (cells : Cells) {addr a : Nat}
    (same : addr / size = a / size) : eraseSector size cells addr a = 0xFF := by
  simp [eraseSector, same]

theorem eraseSector_outside (size : Nat) (cells : Cells) {addr a : Nat}
    (other : addr / size ≠ a / size) : eraseSector size cells addr a = cells a := by
  simp [eraseSector, other]

theorem eraseSector_aligned (size : Nat) (cells : Cells) (positive : 0 < size) (sector a : Nat) :
    eraseSector size cells (size * sector) a =
      if size * sector ≤ a ∧ a < size * sector + size then 0xFF else cells a := by
  have quotient : size * sector / size = a / size ↔
      size * sector ≤ a ∧ a < size * sector + size := by
    rw [Nat.mul_div_cancel_left _ positive, eq_comm, Nat.div_eq_iff positive]
    constructor
    · rintro ⟨low, high⟩
      constructor
      · rw [Nat.mul_comm]; exact low
      · rw [Nat.mul_comm]; omega
    · rintro ⟨low, high⟩
      rw [Nat.mul_comm] at low high
      constructor
      · exact low
      · omega
  unfold eraseSector
  simp only [quotient]

theorem holds_of_blank {cells : Cells} {addr len : Nat}
    (all : ∀ a, addr ≤ a → a < addr + len → cells a = 0xFF) : Holds cells addr (blank len) := by
  induction len generalizing addr with
  | zero => trivial
  | succ len ih =>
    exact ⟨all addr (Nat.le_refl _) (by omega), ih fun a low high => all a (by omega) (by omega)⟩

theorem Holds.blank_cell {cells : Cells} {addr len a : Nat} (held : Holds cells addr (blank len))
    (low : addr ≤ a) (high : a < addr + len) : cells a = 0xFF := by
  induction len generalizing addr with
  | zero => omega
  | succ len ih =>
    rcases Nat.eq_or_lt_of_le low with here | after
    · rw [← here]; exact held.1
    · exact ih held.2 after (by omega)

theorem holds_erase (size : Nat) (cells : Cells) (positive : 0 < size) (sector : Nat) :
    Holds (eraseSector size cells (size * sector)) (size * sector) (blank size) :=
  holds_of_blank fun a low high => by
    rw [eraseSector_aligned size cells positive, if_pos ⟨low, high⟩]

theorem Holds.erase_frame {cells : Cells} {size addr sector : Nat} {bytes : List UInt8}
    (held : Holds cells addr bytes) (positive : 0 < size)
    (apart : addr + bytes.length ≤ size * sector ∨ size * sector + size ≤ addr) :
    Holds (eraseSector size cells (size * sector)) addr bytes :=
  held.congr fun a low high => by
    rw [eraseSector_aligned size cells positive, if_neg (by omega)]

end BekenSdk.Base
