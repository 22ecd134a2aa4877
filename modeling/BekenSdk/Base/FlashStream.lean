import BekenSdk.Base.NorFlash

/-! Writing a stream to NOR flash piece by piece. A sector is erased when a piece starts with
it; other sectors have to take the pieces as they are.
-/

set_option autoImplicit false

namespace BekenSdk.Base

variable {size base : Nat} {cells : Cells} {pieces : List (List UInt8)}

/-! ## Cells that take what is programmed -/

theorem holds_iff {addr : Nat} {bytes : List UInt8} :
    Holds cells addr bytes ↔ ∀ k < bytes.length, cells (addr + k) = bytes.getD k 0 := by
  induction bytes generalizing addr with
  | nil => exact iff_of_true trivial fun _ low => absurd low (Nat.not_lt_zero _)
  | cons byte rest ih =>
    constructor
    · rintro ⟨first, tail⟩ k low
      cases k with
      | zero => exact first
      | succ k =>
        have later := ih.mp tail k (Nat.lt_of_succ_lt_succ low)
        rw [Nat.add_assoc, Nat.add_comm 1 k] at later
        exact later
    · intro all
      refine ⟨all 0 (Nat.zero_lt_succ _), ih.mpr fun k low => ?_⟩
      have later := all (k + 1) (Nat.succ_lt_succ low)
      rw [Nat.add_assoc, Nat.add_comm 1 k]
      exact later

/-- Programming the byte at this cell leaves the byte there. -/
def Takes (cell byte : UInt8) : Prop := cell &&& byte = byte

theorem takes_erased (byte : UInt8) : Takes 0xFF byte := ff_and byte

theorem holds_program {addr : Nat} {bytes : List UInt8}
    (takes : ∀ k < bytes.length, Takes (cells (addr + k)) (bytes.getD k 0)) :
    Holds (programBytes cells addr bytes) addr bytes := by
  apply holds_iff.mpr
  intro k low
  have default : bytes.getD k 0xFF = bytes.getD k 0 := by
    rw [List.getD_eq_getElem _ _ low, List.getD_eq_getElem _ _ low]
  rw [programBytes, if_pos (Nat.le_add_right addr k), Nat.add_sub_cancel_left, default]
  exact takes k low

/-! ## Pieces -/

/-- The cells when the sector that starts here, if one does, has been erased. -/
def erasedAt (size : Nat) (cells : Cells) (addr : Nat) : Cells :=
  if addr % size = 0 then eraseSector size cells addr else cells

def putPiece (size : Nat) (cells : Cells) (addr : Nat) (bytes : List UInt8) : Cells :=
  programBytes (erasedAt size cells addr) addr bytes

/-- Where the piece after the first so many goes. -/
def pieceStart (base : Nat) (pieces : List (List UInt8)) (i : Nat) : Nat := base + (pieces.take i).flatten.length

/-- Every cell either lies in a sector that a piece starts with or takes its byte. -/
def Clearable (size : Nat) (cells : Cells) (base : Nat) (pieces : List (List UInt8)) : Prop :=
  ∀ j < pieces.flatten.length,
    (∃ i < pieces.length, pieceStart base pieces i = (base + j) / size * size) ∨
      Takes (cells (base + j)) (pieces.flatten.getD j 0)

/-- The first so many pieces are there, and the others can follow. -/
structure Streamed (size : Nat) (cells : Cells) (base : Nat) (pieces : List (List UInt8)) (m : Nat) : Prop where
  holds : Holds cells base (pieces.take m).flatten
  ready : ∀ j < pieces.flatten.length, (pieces.take m).flatten.length ≤ j →
    (∃ i < pieces.length, m ≤ i ∧ pieceStart base pieces i = (base + j) / size * size) ∨
      Takes (cells (base + j)) (pieces.flatten.getD j 0)

theorem streamed_zero (clearable : Clearable size cells base pieces) : Streamed size cells base pieces 0 where
  holds := trivial
  ready j low _ := (clearable j low).imp_left fun ⟨i, inside, start⟩ => ⟨i, inside, Nat.zero_le i, start⟩

theorem flatten_take_succ {m : Nat} (more : m < pieces.length) :
    (pieces.take (m + 1)).flatten = (pieces.take m).flatten ++ pieces.getD m [] := by
  rw [List.take_add_one, List.getElem?_eq_getElem more, List.getD_eq_getElem _ _ more, Option.toList_some,
    List.flatten_append,
    List.flatten_singleton]

theorem pieceStart_succ {m : Nat} (more : m < pieces.length) :
    pieceStart base pieces (m + 1) = pieceStart base pieces m + (pieces.getD m []).length := by
  rw [pieceStart, flatten_take_succ more, List.length_append, pieceStart, Nat.add_assoc]

theorem pieceStart_mono {i j : Nat} (before : i ≤ j) : pieceStart base pieces i ≤ pieceStart base pieces j := by
  apply Nat.add_le_add_left
  have prefixed : (pieces.take i).flatten <+: (pieces.take j).flatten := by
    rw [← Nat.min_eq_left before, ← List.take_take]
    exact (List.take_prefix i (pieces.take j)).flatten
  exact prefixed.length_le

/-- The byte of a piece in the whole stream. -/
theorem getD_flatten {m k : Nat} (more : m < pieces.length) (low : k < (pieces.getD m []).length) :
    pieces.flatten.getD ((pieces.take m).flatten.length + k) 0 = (pieces.getD m []).getD k 0 := by
  have split : pieces.flatten = ((pieces.take m).flatten ++ pieces.getD m []) ++ (pieces.drop (m + 1)).flatten := by
    rw [← flatten_take_succ more, ← List.flatten_append, List.take_append_drop]
  rw [split, List.getD_append _ _ _ _ (by rw [List.length_append]; omega),
    List.getD_append_right _ _ _ _ (Nat.le_add_right _ _),
    Nat.add_sub_cancel_left]

theorem erasedAt_before {addr a : Nat} (before : a < addr) : erasedAt size cells addr a = cells a := by
  unfold erasedAt
  split
  next aligned =>
    apply eraseSector_outside
    intro same
    have whole : addr / size * size = addr := Nat.div_mul_cancel (Nat.dvd_of_mod_eq_zero aligned)
    have floor := Nat.div_mul_le_self a size
    rw [← same, whole] at floor
    exact absurd floor (Nat.not_le.mpr before)
  · rfl

theorem erasedAt_start {addr a : Nat} (positive : 0 < size) (start : addr = a / size * size) :
    erasedAt size cells addr a = 0xFF := by
  unfold erasedAt
  rw [if_pos (by rw [start]; exact Nat.mul_mod_left _ _)]
  apply eraseSector_inside
  rw [start, Nat.mul_div_cancel _ positive]

theorem takes_erasedAt {addr a : Nat} {byte : UInt8} (takes : Takes (cells a) byte) :
    Takes (erasedAt size cells addr a) byte := by
  unfold erasedAt
  split
  · unfold eraseSector
    split
    · exact takes_erased byte
    · exact takes
  · exact takes

theorem Streamed.next {m : Nat} (positive : 0 < size) (more : m < pieces.length)
    (streamed : Streamed size cells base pieces m) :
    Streamed size (putPiece size cells (pieceStart base pieces m) (pieces.getD m [])) base pieces (m + 1) := by
  have after := @pieceStart_succ base pieces m more
  -- a cell from here on takes its byte when the piece's sector has been erased, or waits for a later piece
  have takes : ∀ j < pieces.flatten.length, (pieces.take m).flatten.length ≤ j →
      (∃ i < pieces.length, m + 1 ≤ i ∧ pieceStart base pieces i = (base + j) / size * size) ∨
        Takes (erasedAt size cells (pieceStart base pieces m) (base + j)) (pieces.flatten.getD j 0) := by
    intro j low from_here
    rcases streamed.ready j low from_here with ⟨i, inside, later, start⟩ | takes
    · rcases Nat.eq_or_lt_of_le later with rfl | later
      · right
        rw [erasedAt_start positive start]
        exact takes_erased _
      · exact .inl ⟨i, inside, later, start⟩
    · exact .inr (takes_erasedAt takes)
  constructor
  · rw [flatten_take_succ more, holds_append]
    constructor
    · apply streamed.holds.congr
      intro a _ high
      exact (programBytes_before _ _ _ high).trans (erasedAt_before high)
    · apply holds_program
      intro k low
      have fits : (pieces.take m).flatten.length + k < pieces.flatten.length := by
        have total := @pieceStart_mono base pieces (m + 1) pieces.length more
        rw [after, pieceStart, pieceStart, List.take_length] at total
        omega
      rcases takes _ fits (Nat.le_add_right _ _) with ⟨i, -, later, start⟩ | takes
      · -- a later piece does not start before this cell
        have mono := @pieceStart_mono base pieces _ _ later
        have floor := Nat.div_mul_le_self (base + ((pieces.take m).flatten.length + k)) size
        rw [← start] at floor
        rw [after, pieceStart] at mono
        omega
      · rw [getD_flatten more low, ← Nat.add_assoc] at takes
        exact takes
  · intro j low from_here
    rw [flatten_take_succ more, List.length_append] at from_here
    rcases takes j low (by omega) with later | takes
    · exact .inl later
    · right
      have unchanged : putPiece size cells (pieceStart base pieces m) (pieces.getD m []) (base + j) =
          erasedAt size cells (pieceStart base pieces m) (base + j) :=
        programBytes_after _ _ _ (by rw [pieceStart]; omega)
      rw [unchanged]
      exact takes

/-- Cells that a sector elsewhere is erased in, and a header put there, keep the stream. -/
theorem holds_header {bytes header : List UInt8} {addr : Nat} (positive : 0 < size) (held : Holds cells base bytes)
    (fits : addr % size + header.length ≤ size)
    (apart : addr / size * size + size ≤ base ∨ base + bytes.length ≤ addr / size * size) :
    Holds (programBytes (eraseSector size cells addr) addr header) base bytes ∧
      Holds (programBytes (eraseSector size cells addr) addr header) addr header := by
  have split := Nat.div_add_mod addr size
  have sector : size * (addr / size) = addr / size * size := Nat.mul_comm _ _
  constructor
  · apply Holds.program_frame
    · apply held.congr
      intro a low high
      apply eraseSector_outside
      intro same
      have above := Nat.div_mul_le_self a size
      have below := Nat.lt_div_mul_add positive (a := a)
      rw [← same] at above below
      omega
    · omega
  · apply Holds.program_blank
    apply holds_of_blank
    intro a low high
    apply eraseSector_inside
    symm
    apply Nat.div_eq_of_lt_le
    · omega
    · rw [Nat.succ_mul]
      omega

/-! ## Pieces within a sector -/

/-- What is left of a sector that a piece ended in is blank. -/
def Ahead (size : Nat) (cells : Cells) (addr : Nat) : Prop :=
  addr % size ≠ 0 → ∀ a, addr ≤ a → a / size = addr / size → cells a = 0xFF

theorem Ahead.erasedAt_blank {addr a : Nat} (ahead : Ahead size cells addr) (high : addr ≤ a)
    (same : a / size = addr / size) : erasedAt size cells addr a = 0xFF := by
  unfold erasedAt
  split
  · exact eraseSector_inside _ _ same.symm
  next inside => exact ahead inside a high same

theorem Ahead.putPiece_holds {addr : Nat} {bytes : List UInt8} (ahead : Ahead size cells addr)
    (fits : addr % size + bytes.length ≤ size) : Holds (putPiece size cells addr bytes) addr bytes := by
  apply holds_program
  intro k low
  have same : (addr + k) / size = addr / size := by
    have split := Nat.div_add_mod addr size
    have positive : 0 < size := by omega
    apply Nat.div_eq_of_lt_le
    · rw [Nat.mul_comm]
      omega
    · rw [Nat.succ_mul, Nat.mul_comm]
      omega
  rw [ahead.erasedAt_blank (Nat.le_add_right _ _) same]
  exact takes_erased _

theorem Ahead.putPiece {addr : Nat} {bytes : List UInt8} (positive : 0 < size) (ahead : Ahead size cells addr)
    (fits : addr % size + bytes.length ≤ size) : Ahead size (putPiece size cells addr bytes) (addr + bytes.length) := by
  intro within a high same
  have split := Nat.div_add_mod addr size
  have last := Nat.div_add_mod (addr + bytes.length) size
  have sector : (addr + bytes.length) / size = addr / size := by
    have short : addr % size + bytes.length ≠ size := by
      intro full
      apply within
      rw [← split, Nat.add_assoc, full, Nat.mul_add_mod_self_left, Nat.mod_self]
    apply Nat.div_eq_of_lt_le
    · rw [Nat.mul_comm]
      omega
    · rw [Nat.succ_mul, Nat.mul_comm]
      omega
  have unchanged : BekenSdk.Base.putPiece size cells addr bytes a = erasedAt size cells addr a :=
    programBytes_after _ _ _ high
  rw [unchanged]
  exact ahead.erasedAt_blank (by omega) (same.trans sector)

theorem Holds.putPiece {addr : Nat} {bytes piece : List UInt8} (held : Holds cells base bytes)
    (before : base + bytes.length ≤ addr) :
    Holds (putPiece size cells addr piece) base bytes := by
  apply held.congr
  intro a _ high
  exact (programBytes_before _ _ _ (by omega)).trans (erasedAt_before (by omega))

end BekenSdk.Base
