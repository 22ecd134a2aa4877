import BekenSdk.Flash.Writes

/-! Writes by pages of 256 bytes. They come to the same as writes by pages of 32 as long as the data lies
in the flash; what goes less than a page of 32 past its end is refused here and not there.
-/

set_option autoImplicit false

namespace BekenSdk.Flash
open Base

section
variable {flashSize address len : UInt32} {chip : Chip} {cells memory : Cells} {buffer : Nat}

/-! ## Inside the flash -/

theorem pageRounds_cells (cnt buffer : Nat) (inside : address.toNat + 256 * cnt ≤ flashSize.toNat) :
    (chip.pageRounds flashSize memory cnt buffer address).cells =
      programBytes chip.cells address.toNat (readBytes memory buffer (256 * cnt)) := by
  induction cnt generalizing chip buffer address with
  | zero => exact (programBytes_nil _ _).symm
  | succ cnt ih =>
    have top := flashSize.toNat_lt
    have low : address.toNat % flashSize.toNat = address.toNat := Nat.mod_eq_of_lt (by omega)
    have split : 256 * (cnt + 1) = 256 + 256 * cnt := by omega
    have first : (chip.program flashSize address (readBytes memory buffer 256)).cells =
        programBytes chip.cells address.toNat (readBytes memory buffer 256) := by
      change programBytes chip.cells (address.toNat % flashSize.toNat) _ = _
      rw [low]
    unfold Chip.pageRounds
    rw [split, readBytes_add, programBytes_append, readBytes_length, ← first]
    rcases Nat.eq_zero_or_pos cnt with rfl | more
    · exact (programBytes_nil _ _).symm
    · have next : (address + 256).toNat = address.toNat + 256 := by
        rw [UInt32.toNat_add, show (256 : UInt32).toNat = 256 from rfl]
        omega
      rw [ih _ (by omega), next]

theorem flashPageWriteData_cells (memory : Cells) (buffer : Nat) (long : 256 < len.toNat)
    (inside : address.toNat + len.toNat ≤ flashSize.toNat) :
    (chip.flashPageWriteData flashSize memory buffer address len).cells =
      programBytes chip.cells address.toNat (readBytes memory buffer len.toNat) := by
  have top := flashSize.toNat_lt
  have page : (256 : UInt32).toNat = 256 := rfl
  have offset : (address % 256).toNat = address.toNat % 256 := UInt32.toNat_mod address 256
  unfold Chip.flashPageWriteData
  rw [if_neg (not_outOfRange inside (by omega))]
  dsimp only
  -- up to the first page
  obtain ⟨cnt, cnt_eq, few, aligned⟩ : ∃ cnt, (if address % 256 ≠ 0 then 256 - address % 256 else 0) = cnt ∧
    cnt.toNat < 256 ∧
      (address % 256 ≠ 0 ∨ cnt = 0) := by
    refine ⟨_, rfl, ?_, ?_⟩
    · split
      next unaligned =>
        have some_left : (address % 256).toNat ≠ 0 := fun none_left => unaligned (UInt32.toNat_inj.mp none_left)
        have below : address % 256 ≤ 256 := by
          rw [UInt32.le_iff_toNat_le, offset, page]
          omega
        rw [UInt32.toNat_sub_of_le _ _ below, offset, page]
        omega
      · decide
    · by_cases unaligned : address % 256 ≠ 0
      · exact .inl unaligned
      · exact .inr (if_neg unaligned)
  rw [cnt_eq]
  have head : (if address % 256 ≠ 0 then chip.flashWriteData flashSize memory buffer address cnt else chip).cells =
      programBytes chip.cells address.toNat (readBytes memory buffer cnt.toNat) := by
    split
    · exact flashWriteData_cells memory buffer (by omega)
    next aligned_start =>
      rcases aligned with unaligned | none_before
      · exact absurd unaligned aligned_start
      · rw [none_before]
        exact (programBytes_nil _ _).symm
  generalize (if address % 256 ≠ 0 then chip.flashWriteData flashSize memory buffer address cnt else chip) = first at *
  have less : cnt ≤ len := by
    rw [UInt32.le_iff_toNat_le]
    omega
  have rest : (len - cnt).toNat = len.toNat - cnt.toNat := UInt32.toNat_sub_of_le _ _ less
  have start : (address + cnt).toNat = address.toNat + cnt.toNat := by
    rw [UInt32.toNat_add]
    omega
  have pages : ((len - cnt) / 256).toNat = (len.toNat - cnt.toNat) / 256 := by
    rw [UInt32.toNat_div, rest, page]
  have mod : ((len - cnt) % 256).toNat = (len.toNat - cnt.toNat) % 256 := by
    rw [UInt32.toNat_mod, rest, page]
  have all : len.toNat = cnt.toNat + (256 * ((len.toNat - cnt.toNat) / 256) + (len.toNat - cnt.toNat) % 256) := by omega
  have middle : (first.pageRounds flashSize memory ((len - cnt) / 256).toNat (buffer + cnt.toNat) (address + cnt)).cells =
      programBytes first.cells (address.toNat + cnt.toNat) (readBytes memory (buffer + cnt.toNat) (256 * ((len.toNat - cnt.toNat) / 256))) := by
    rw [pageRounds_cells _ _ (by rw [start, pages]; omega), start, pages]
  have last : (address + cnt + 256 * ((len - cnt) / 256)).toNat =
      address.toNat + cnt.toNat + 256 * ((len.toNat - cnt.toNat) / 256) := by
    rw [UInt32.toNat_add, UInt32.toNat_mul, start, pages, page]
    omega
  rw [all, readBytes_add, readBytes_add, programBytes_append, programBytes_append, readBytes_length, readBytes_length,
    ← head, ← middle, pages]
  split
  · rw [flashWriteData_cells memory _ (by rw [last, mod]; omega), last, mod]
  next none_left =>
    have empty : (len.toNat - cnt.toNat) % 256 = 0 := by
      rw [← mod, not_not.mp none_left]
      rfl
    rw [empty]
    exact (programBytes_nil _ _).symm

/-! ## Past the end -/

/-- The data has no 0 where the flash has a 1. -/
def ClearsNothing (flashSize : UInt32) (cells memory : Cells) (buffer : Nat) (address len : UInt32) : Prop :=
  ∀ k < len.toNat, cells ((address.toNat + k) % flashSize.toNat) &&& memory (buffer + k) =
    cells ((address.toNat + k) % flashSize.toNat)

theorem programBytes_same {addr : Nat} {bytes : List UInt8} :
    programBytes cells addr bytes = cells ↔
      ∀ k < bytes.length, cells (addr + k) &&& bytes.getD k 0xFF = cells (addr + k) := by
  constructor
  · intro same k _
    have here := congrFun same (addr + k)
    rw [programBytes, if_pos (Nat.le_add_right _ _), Nat.add_sub_cancel_left] at here
    exact here
  · intro keeps
    funext a
    rcases Nat.lt_or_ge a addr with before | after
    · exact programBytes_before _ _ _ before
    · obtain ⟨k, rfl⟩ := Nat.exists_eq_add_of_le after
      rcases Nat.lt_or_ge k bytes.length with low | high
      · rw [programBytes, if_pos after, Nat.add_sub_cancel_left]
        exact keeps k low
      · exact programBytes_after _ _ _ (by omega)

/-- A cell that is back is never lost before. -/
theorem and_back {c first second : UInt8} (back : c &&& first &&& second = c) : c &&& first = c := by
  calc c &&& first = c &&& first &&& second &&& first := by rw [back]
    _ = c &&& first &&& second := by rw [UInt8.and_assoc (c &&& first), UInt8.and_comm second, ← UInt8.and_assoc, UInt8.and_assoc c, UInt8.and_self]
    _ = c := back

theorem programs_same {addr other : Nat} {first second : List UInt8} :
    programBytes (programBytes cells addr first) other second = cells ↔
      programBytes cells addr first = cells ∧ programBytes cells other second = cells := by
  constructor
  · intro same
    have before : programBytes cells addr first = cells := by
      funext a
      have here := congrFun same a
      by_cases low : addr ≤ a
      · have value : programBytes cells addr first a = cells a &&& first.getD (a - addr) 0xFF := if_pos low
        by_cases later : other ≤ a
        · rw [programBytes, if_pos later, value] at here
          rw [value]
          exact and_back here
        · rw [programBytes, if_neg later] at here
          exact here
      · exact if_neg low
    rw [before] at same
    exact ⟨before, same⟩
  · rintro ⟨before, after⟩
    rw [before, after]

/-- The data behind the end comes at the start of the flash. -/
theorem past_same (memory : Cells) (buffer : Nat) (low : address.toNat < flashSize.toNat)
    (high : flashSize.toNat < address.toNat + len.toNat)
    (less : len.toNat ≤ flashSize.toNat) :
    programBytes (programBytes cells address.toNat ((readBytes memory buffer len.toNat).take (flashSize.toNat - address.toNat))) 0
        ((readBytes memory buffer len.toNat).drop (flashSize.toNat - address.toNat)) = cells ↔
      ClearsNothing flashSize cells memory buffer address len := by
  generalize room_eq : flashSize.toNat - address.toNat = room
  have split : len.toNat = room + (len.toNat - room) := by omega
  have parts := readBytes_add memory buffer room (len.toNat - room)
  have front : (readBytes memory buffer room).length = room := readBytes_length _ _ _
  rw [← split] at parts
  rw [parts, List.take_left' front, List.drop_left' front, programs_same, programBytes_same, programBytes_same, front,
    readBytes_length]
  unfold ClearsNothing
  constructor
  · rintro ⟨first, second⟩ k inside
    rcases Nat.lt_or_ge k room with before | after
    · have here := first k before
      rw [readBytes_getD memory buffer before] at here
      rw [Nat.mod_eq_of_lt (by omega)]
      exact here
    · have here := second (k - room) (by omega)
      have wrapped : (address.toNat + k) % flashSize.toNat = 0 + (k - room) := by
        have sum : address.toNat + k = flashSize.toNat + (k - room) := by omega
        rw [sum, Nat.add_mod_left, Nat.mod_eq_of_lt (by omega), Nat.zero_add]
      have place : buffer + room + (k - room) = buffer + k := by omega
      rw [readBytes_getD memory _ (by omega), place] at here
      rw [wrapped]
      exact here
  · intro all
    constructor
    · intro k before
      have here := all k (by omega)
      rw [Nat.mod_eq_of_lt (by omega)] at here
      rw [readBytes_getD memory buffer before]
      exact here
    · intro k before
      have here := all (room + k) (by omega)
      have wrapped : (address.toNat + (room + k)) % flashSize.toNat = 0 + k := by
        have sum : address.toNat + (room + k) = flashSize.toNat + k := by omega
        rw [sum, Nat.add_mod_left, Nat.mod_eq_of_lt (by omega), Nat.zero_add]
      rw [wrapped, ← Nat.add_assoc] at here
      rw [readBytes_getD memory _ before]
      exact here

/-! ## Agreement -/

theorem size_of_listed (listed : flashSize ∈ flashSizes) : flashSize.toNat % 32 = 0 ∧ flashSize.toNat ≤ 2 ^ 23 := by
  simp only [flashSizes, List.mem_cons, List.not_mem_nil, or_false] at listed
  rcases listed with rfl | rfl | rfl | rfl <;> exact ⟨rfl, Nat.le_of_ble_eq_true rfl⟩

theorem outOfRange_iff (small : flashSize.toNat ≤ 2 ^ 23) :
    OutOfRange flashSize address len ↔
      flashSize.toNat ≤ address.toNat ∨ flashSize.toNat < len.toNat ∨ flashSize.toNat < address.toNat + len.toNat := by
  unfold OutOfRange
  rw [ge_iff_le, gt_iff_lt, gt_iff_lt, UInt32.le_iff_toNat_le, UInt32.lt_iff_toNat_lt, UInt32.lt_iff_toNat_lt,
    UInt32.toNat_add]
  omega

theorem page_refused (memory : Cells) (buffer : Nat) (listed : flashSize ∈ flashSizes)
    (past : flashSize.toNat < address.toNat + len.toNat) :
    chip.flashPageWriteData flashSize memory buffer address len = chip :=
  if_pos ((outOfRange_iff (size_of_listed listed).2).mpr (.inr (.inr past)))

/-- The write is refused by the writer of pages of 256 only. -/
theorem past_agree (memory : Cells) (buffer : Nat) (listed : flashSize ∈ flashSizes)
    (past : flashSize.toNat < address.toNat + len.toNat)
    (ranged : ¬OutOfRange flashSize (pageOf address) len) :
    (chip.flashPageWriteData flashSize memory buffer address len).cells =
    (chip.flashWriteData flashSize memory buffer address len).cells ↔
      ClearsNothing flashSize chip.cells memory buffer address len := by
  obtain ⟨whole, small⟩ := size_of_listed listed
  have taken := mt (outOfRange_iff small).mpr ranged
  rw [pageOf_toNat] at taken
  obtain ⟨pb, ready, same⟩ := @flashWriteData_in flashSize address len chip memory buffer ranged
  have size : (readBytes memory buffer len.toNat).length = len.toNat := readBytes_length _ _ _
  rw [page_refused memory buffer listed past, same,
    writeRounds_cells ready (.inr ⟨whole, by omega, by rw [size]; omega⟩), eq_comm]
  exact past_same memory buffer (by omega) past (by omega)

/-- Both writers leave the same if the data lies in the flash, if both refuse it, or if there is nothing to clear. -/
theorem writers_agree (chip : Chip) (memory : Cells) (buffer : Nat) (listed : flashSize ∈ flashSizes)
    (long : 256 < len.toNat) :
    (chip.flashPageWriteData flashSize memory buffer address len).cells =
    (chip.flashWriteData flashSize memory buffer address len).cells ↔
      address.toNat + len.toNat ≤ flashSize.toNat ∨ OutOfRange flashSize (pageOf address) len ∨
        ClearsNothing flashSize chip.cells memory buffer address len := by
  by_cases inside : address.toNat + len.toNat ≤ flashSize.toNat
  · rw [flashPageWriteData_cells memory buffer long inside, flashWriteData_cells memory buffer inside]
    exact iff_of_true rfl (.inl inside)
  have past := Nat.lt_of_not_le inside
  rw [or_iff_right inside]
  by_cases ranged : OutOfRange flashSize (pageOf address) len
  · have same : chip.flashWriteData flashSize memory buffer address len = chip := if_pos ranged
    rw [page_refused memory buffer listed past, same]
    exact iff_of_true rfl (.inl ranged)
  · rw [or_iff_right ranged]
    exact past_agree memory buffer listed past ranged

/-- 512 bytes in the middle of the flash. -/
theorem writers_agree_inside :
    ((⟨fun _ => 0xFF, []⟩ : Chip).flashPageWriteData 0x200000 (fun _ => 0x5A) 0 0x1010 512).cells =
      ((⟨fun _ => 0xFF, []⟩ : Chip).flashWriteData 0x200000 (fun _ => 0x5A) 0 0x1010 512).cells :=
  (@writers_agree 0x200000 0x1010 512 ⟨fun _ => 0xFF,
    []⟩ (fun _ => 0x5A) 0 (by decide) (by decide)).mpr (.inl (by decide))

/-- 288 bytes that start in the last page but eight and end 16 bytes past the flash. -/
theorem writers_differ :
    ((⟨fun _ => 0xFF, []⟩ : Chip).flashPageWriteData 0x200000 (fun _ => 0) 0 0x1FFEF0 288).cells ≠
      ((⟨fun _ => 0xFF, []⟩ : Chip).flashWriteData 0x200000 (fun _ => 0) 0 0x1FFEF0 288).cells := by
  intro same
  have clears := (past_agree _ _ (by decide) (by decide) (by decide)).mp same 0 (by decide)
  exact absurd clears (by decide)

end

end BekenSdk.Flash
