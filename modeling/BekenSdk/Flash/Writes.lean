import BekenSdk.Flash.Driver

/-! What flash_write_data does to the flash. Pages that are written in part are read first, so that
what surrounds the data is programmed with itself.
-/

set_option autoImplicit false

namespace BekenSdk.Flash
open Base

section
variable {flashSize addr address len : UInt32} {chip : Chip} {cells : Cells} {data pb : List UInt8} {page i n : Nat}

/-! ## Pages -/

theorem and_page {a : Nat} (small : a < 2 ^ 32) : a &&& 0xFFFFFFE0 = a / 32 * 32 := by
  have high : (a &&& 0xFFFFFFE0) / 2 ^ 5 = a / 2 ^ 5 := by
    rw [Nat.and_div_two_pow]
    have mask : 0xFFFFFFE0 / 2 ^ 5 = 2 ^ 27 - 1 := rfl
    rw [mask, Nat.and_two_pow_sub_one_eq_mod]
    omega
  have low : (a &&& 0xFFFFFFE0) % 2 ^ 5 = 0 := by
    rw [Nat.and_mod_two_pow]
    exact Nat.and_zero _
  omega

theorem pageOf_toNat (address : UInt32) : (pageOf address).toNat = address.toNat / 32 * 32 := by
  unfold pageOf
  rw [UInt32.toNat_and]
  exact and_page address.toNat_lt

theorem offset_toNat (address : UInt32) : (address % 32).toNat = address.toNat % 32 := UInt32.toNat_mod address 32

theorem readPage_length (flashSize addr : UInt32) (chip : Chip) :
    (chip.readPage flashSize addr).length = 32 := readBytes_length _ _ _

/-- A read of a page. -/
theorem flashReadData_page (flashSize : UInt32) (chip : Chip) (aligned : addr.toNat % 32 = 0) :
    chip.flashReadData flashSize addr 32 = chip.readPage flashSize addr := by
  have start : pageOf addr = addr := by
    apply UInt32.toNat_inj.mp
    rw [pageOf_toNat]
    omega
  have whole : (chip.readPage flashSize addr).take 32 = chip.readPage flashSize addr :=
    List.take_of_length_le (Nat.le_of_eq (readPage_length _ _ _))
  unfold Chip.flashReadData
  rw [start, Chip.readRounds, if_neg (by decide)]
  dsimp only
  rw [offset_toNat, aligned, List.drop_zero, show (32 : UInt32).toNat = 32 from rfl, Nat.sub_zero, Nat.min_self, whole,
    Nat.sub_self,
    Chip.readRounds, if_pos rfl, List.append_nil]

/-- Programming this page there changes nothing. -/
def Keeps (cells : Cells) (page : Nat) (pb : List UInt8) :
    Prop := ∀ k, cells (page + k) &&& pb.getD k 0xFF = cells (page + k)

theorem keeps_blank (cells : Cells) (page n : Nat) : Keeps cells page (blank n) := by
  intro k
  have erased : (blank n).getD k 0xFF = 0xFF := by
    rcases Nat.lt_or_ge k n with low | high
    · rw [List.getD_eq_getElem _ _ (by rw [blank_length]; exact low)]
      exact List.getElem_replicate _
    · exact List.getD_eq_default _ _ (by rw [blank_length]; exact high)
  rw [erased, and_ff]

theorem keeps_of_holds (held : Holds cells page pb) : Keeps cells page pb := by
  induction pb generalizing page with
  | nil => exact fun k => and_ff _
  | cons byte pb ih =>
    intro k
    cases k with
    | zero =>
      rw [List.getD_cons_zero, ← held.1, Nat.add_zero]
      exact UInt8.and_self
    | succ k =>
      have later := ih held.2 k
      rw [Nat.add_assoc, Nat.add_comm 1 k] at later
      exact later

theorem keeps_readPage (flashSize addr : UInt32) (chip : Chip) :
    Keeps chip.cells (addr.toNat % flashSize.toNat) (chip.readPage flashSize addr) :=
  keeps_of_holds (holds_readBytes _ _ _)

/-- Data that is put in a page that keeps the cells. -/
theorem program_merged (keeps : Keeps cells page pb) (size : pb.length = 32) (inside : i + data.length ≤ 32) :
    programBytes cells page (pb.take i ++ data ++ pb.drop (i + data.length)) = programBytes cells (page + i) data := by
  funext a
  have head : (pb.take i).length = i := by
    rw [List.length_take]
    omega
  rcases Nat.lt_or_ge a page with before | after
  · rw [programBytes_before _ _ _ before, programBytes_before _ _ _ (by omega)]
  · obtain ⟨k, rfl⟩ := Nat.exists_eq_add_of_le after
    have here : programBytes cells page (pb.take i ++ data ++ pb.drop (i + data.length)) (page + k) =
        cells (page + k) &&& (pb.take i ++ data ++ pb.drop (i + data.length)).getD k 0xFF := by
      unfold programBytes
      rw [if_pos after, Nat.add_sub_cancel_left]
    rw [here]
    rcases Nat.lt_or_ge k i with low | high
    · rw [programBytes_before _ _ _ (by omega), List.append_assoc, List.getD_append _ _ _ _ (by omega)]
      have same : (pb.take i).getD k 0xFF = pb.getD k 0xFF := by
        rw [List.getD_eq_getElem _ _ (by omega), List.getD_eq_getElem _ _ (by omega), List.getElem_take]
      rw [same]
      exact keeps k
    · rcases Nat.lt_or_ge k (i + data.length) with within | beyond
      · rw [List.getD_append _ _ _ _ (by rw [List.length_append]; omega), List.getD_append_right _ _ _ _ (by omega),
          head]
        unfold programBytes
        rw [if_pos (by omega)]
        congr 2
        omega
      · rw [programBytes_after _ _ _ (by omega), List.getD_append_right _ _ _ _ (by rw [List.length_append]; omega),
          List.length_append, head]
        have same : (pb.drop (i + data.length)).getD (k - (i + data.length)) 0xFF = pb.getD k 0xFF := by
          rcases Nat.lt_or_ge k 32 with low | past
          · rw [List.getD_eq_getElem _ _ (by rw [List.length_drop]; omega), List.getD_eq_getElem _ _ (by omega),
              List.getElem_drop]
            congr 1
            omega
          · rw [List.getD_eq_default _ _ (by rw [List.length_drop]; omega), List.getD_eq_default _ _ (by omega)]
        rw [same]
        exact keeps k

/-! ## Rounds -/

/-- How much of the data a round takes. -/
def taken (address : UInt32) (data : List UInt8) : Nat := min data.length (32 - (address % 32).toNat)

theorem taken_pos (address : UInt32) (some_left : data ≠ []) : 0 < taken address data := by
  have inside := offset_lt address
  have positive := List.length_pos_of_ne_nil some_left
  unfold taken
  omega

theorem taken_eq (address : UInt32) (data : List UInt8) :
    taken address data = min data.length (32 - address.toNat % 32) := by
  unfold taken
  rw [offset_toNat]

/-- What a round programs. -/
def merged (flashSize addr address : UInt32) (data pb : List UInt8) (chip : Chip) : List UInt8 :=
  let pb := if data.length < 32 then chip.flashReadData flashSize addr 32 else pb
  pb.take (address % 32).toNat ++ data.take (taken address data) ++ pb.drop ((address % 32).toNat + taken address data)

theorem writeRounds_some (some_left : data ≠ []) :
    chip.writeRounds flashSize addr address data pb =
      (chip.program flashSize addr (merged flashSize addr address data pb chip)).writeRounds flashSize (addr + 32)
        (address + UInt32.ofNat (taken address data)) (data.drop (taken address data)) (blank 32) := by
  rw [Chip.writeRounds, if_neg some_left]
  rfl

/-- Each round starts with a page that may be programmed there as it is. -/
structure Ready (flashSize addr address : UInt32) (pb : List UInt8) (chip : Chip) : Prop where
  start : addr.toNat = address.toNat / 32 * 32
  size : pb.length = 32
  keeps : Keeps chip.cells (addr.toNat % flashSize.toNat) pb

theorem Ready.next (ready : Ready flashSize addr address pb chip) (more : 32 - address.toNat % 32 < data.length)
    (after : Chip)
    (room : address.toNat / 32 * 32 + 32 < 2 ^ 32) :
    Ready flashSize (addr + 32) (address + UInt32.ofNat (taken address data)) (blank 32) after ∧
      (address + UInt32.ofNat (taken address data)).toNat = address.toNat / 32 * 32 + 32 := by
  have start := ready.start
  have rest : taken address data = 32 - address.toNat % 32 := by
    rw [taken_eq]
    omega
  have moved : (address + UInt32.ofNat (taken address data)).toNat = address.toNat / 32 * 32 + 32 := by
    rw [UInt32.toNat_add, rest, UInt32.toNat_ofNat_of_lt' (by rw [show UInt32.size = 2 ^ 32 from rfl]; omega)]
    omega
  refine ⟨⟨?_, blank_length 32, keeps_blank _ _ _⟩, moved⟩
  rw [moved, UInt32.toNat_add, start, show (32 : UInt32).toNat = 32 from rfl]
  omega

/-- A round programs its part of the data. -/
theorem program_round (ready : Ready flashSize addr address pb chip) :
    (chip.program flashSize addr (merged flashSize addr address data pb chip)).cells =
      programBytes chip.cells (addr.toNat % flashSize.toNat + address.toNat % 32) (data.take (taken address data)) := by
  have aligned : addr.toNat % 32 = 0 := by
    rw [ready.start]
    omega
  have low : (address % 32).toNat < 32 := offset_lt address
  have size : (data.take (taken address data)).length = taken address data := by
    rw [List.length_take]
    unfold taken
    omega
  have most : (address % 32).toNat + taken address data ≤ 32 := by
    unfold taken
    omega
  change programBytes chip.cells _ (merged flashSize addr address data pb chip) = _
  unfold merged
  dsimp only
  rw [flashReadData_page flashSize chip aligned]
  rw [← size] at most
  generalize part_eq : data.take (taken address data) = part at *
  rw [← size, offset_toNat] at *
  split
  · exact program_merged (keeps_readPage flashSize addr chip) (readPage_length _ _ _) most
  · exact program_merged ready.keeps ready.size most

theorem writeRounds_nil : chip.writeRounds flashSize addr address [] pb = chip := by
  rw [Chip.writeRounds, if_pos rfl]

/-- What reaches past the end of the flash is less than a page, and comes at its start. -/
theorem writeRounds_cells (ready : Ready flashSize addr address pb chip)
    (fits : address.toNat + data.length ≤ flashSize.toNat ∨
      flashSize.toNat % 32 = 0 ∧ address.toNat ≤ flashSize.toNat ∧ address.toNat + data.length < flashSize.toNat + 32) :
    (chip.writeRounds flashSize addr address data pb).cells =
      programBytes (programBytes chip.cells address.toNat (data.take (flashSize.toNat - address.toNat))) 0
        (data.drop (flashSize.toNat - address.toNat)) := by
  induction size : data.length using Nat.strong_induction_on generalizing data addr address pb chip with
  | _ len ih =>
    subst size
    by_cases none_left : data = []
    · rw [none_left, writeRounds_nil, List.take_nil, List.drop_nil, programBytes_nil, programBytes_nil]
    · have positive := List.length_pos_of_ne_nil none_left
      have top := flashSize.toNat_lt
      have start := ready.start
      rw [writeRounds_some none_left]
      by_cases more : 32 - address.toNat % 32 < data.length
      · obtain ⟨later, moved⟩ := ready.next more (chip.program flashSize addr (merged flashSize addr address data pb chip)) (by omega)
        have rest : taken address data = 32 - address.toNat % 32 := by
          rw [taken_eq]
          omega
        have size : (data.drop (taken address data)).length = data.length - taken address data := List.length_drop
        have inside : addr.toNat % flashSize.toNat = addr.toNat := Nat.mod_eq_of_lt (by omega)
        have sum : flashSize.toNat - address.toNat =
          taken address data + (flashSize.toNat - (address.toNat / 32 * 32 + 32)) := by omega
        rw [ih _ (by omega) later (by omega) rfl, moved, program_round ready, inside, sum, List.take_add,
          List.drop_drop,
          programBytes_append, List.length_take]
        have here : addr.toNat + address.toNat % 32 = address.toNat := by omega
        have there : address.toNat + min (taken address data) data.length = address.toNat / 32 * 32 + 32 := by omega
        rw [here, there]
      · have all : taken address data = data.length := by
          rw [taken_eq]
          omega
        rw [all, List.drop_length, writeRounds_nil, program_round ready, all, List.take_length]
        rcases Nat.lt_or_ge address.toNat flashSize.toNat with low | high
        · have inside : addr.toNat % flashSize.toNat = addr.toNat := Nat.mod_eq_of_lt (by omega)
          have here : addr.toNat + address.toNat % 32 = address.toNat := by omega
          rw [inside, here, List.take_of_length_le (by omega), List.drop_eq_nil_of_le (by omega), programBytes_nil]
        · have wrapped : addr.toNat % flashSize.toNat + address.toNat % 32 = 0 := by
            have same : addr.toNat = flashSize.toNat := by omega
            rw [same, Nat.mod_self]
            omega
          have none_before : flashSize.toNat - address.toNat = 0 := by omega
          rw [wrapped, none_before, List.take_zero, List.drop_zero, programBytes_nil]

/-! ## Calls -/

theorem ready_start (flashSize address : UInt32) (chip : Chip) :
    Ready flashSize (pageOf address) address
      (if address % 32 ≠ 0 then chip.flashReadData flashSize (pageOf address) 32 else blank 32) chip where
  start := pageOf_toNat address
  size := by
    split
    · rw [flashReadData_page flashSize chip (by rw [pageOf_toNat]; omega)]
      exact readPage_length _ _ _
    · exact blank_length 32
  keeps := by
    split
    · rw [flashReadData_page flashSize chip (by rw [pageOf_toNat]; omega)]
      exact keeps_readPage flashSize _ chip
    · exact keeps_blank _ _ _

theorem flashWriteData_in (memory : Cells) (buffer : Nat) (ranged : ¬OutOfRange flashSize (pageOf address) len) :
    ∃ pb, Ready flashSize (pageOf address) address pb chip ∧
      chip.flashWriteData flashSize memory buffer address len =
        chip.writeRounds flashSize (pageOf address) address (readBytes memory buffer len.toNat) pb := by
  refine ⟨_, ready_start flashSize address chip, ?_⟩
  unfold Chip.flashWriteData
  exact if_neg ranged

theorem not_outOfRange (inside : address.toNat + len.toNat ≤ flashSize.toNat) (some_bytes : 0 < len.toNat) :
    ¬OutOfRange flashSize address len := by
  have top := flashSize.toNat_lt
  rintro (high | long | past)
  · have high := UInt32.le_iff_toNat_le.mp high
    omega
  · have long := UInt32.lt_iff_toNat_lt.mp long
    omega
  · have past := UInt32.lt_iff_toNat_lt.mp past
    rw [UInt32.toNat_add] at past
    omega

theorem flashWriteData_cells (memory : Cells) (buffer : Nat) (inside : address.toNat + len.toNat ≤ flashSize.toNat) :
    (chip.flashWriteData flashSize memory buffer address len).cells =
      programBytes chip.cells address.toNat (readBytes memory buffer len.toNat) := by
  have size : (readBytes memory buffer len.toNat).length = len.toNat := readBytes_length _ _ _
  by_cases ranged : OutOfRange flashSize (pageOf address) len
  · have same : chip.flashWriteData flashSize memory buffer address len = chip := if_pos ranged
    have none_given : len.toNat = 0 := by
      by_contra some_bytes
      apply not_outOfRange _ (Nat.pos_of_ne_zero some_bytes) ranged
      rw [pageOf_toNat]
      omega
    rw [same, none_given]
    exact (programBytes_nil _ _).symm
  · obtain ⟨pb, ready, same⟩ := @flashWriteData_in flashSize address len chip memory buffer ranged
    rw [same, writeRounds_cells ready (.inl (by rw [size]; exact inside)), List.take_of_length_le (by omega),
      List.drop_eq_nil_of_le (by omega), programBytes_nil]

/-- Every byte of the flash after a write that lies inside it. -/
theorem write_merges (chip : Chip) (memory : Cells) (buffer : Nat)
    (inside : address.toNat + len.toNat ≤ flashSize.toNat) (a : Nat) :
    (chip.flashWriteData flashSize memory buffer address len).cells a =
      if address.toNat ≤ a ∧ a < address.toNat + len.toNat then chip.cells a &&& memory (buffer + (a - address.toNat)) else chip.cells a := by
  rw [flashWriteData_cells memory buffer inside]
  split
  next within =>
    rw [programBytes, if_pos within.1, readBytes_getD memory buffer (by omega)]
  next without =>
    rcases Nat.lt_or_ge a address.toNat with before | after
    · exact programBytes_before _ _ _ before
    · apply programBytes_after
      rw [readBytes_length]
      omega

/-- 40 bytes from the middle of a page on. -/
def unalignedWrite : Chip := (⟨fun _ => 0xFF, []⟩ : Chip).flashWriteData 0x200000 (fun _ => 0x5A) 0 0x1010 40

theorem write_merges_unaligned :
    unalignedWrite.cells 0x100F = 0xFF ∧ unalignedWrite.cells 0x1010 = 0x5A ∧ unalignedWrite.cells 0x1037 = 0x5A ∧
      unalignedWrite.cells 0x1038 = 0xFF := by
  have merges := @write_merges 0x200000 0x1010 40 ⟨fun _ => 0xFF, []⟩ (fun _ => 0x5A) 0 (by decide)
  exact ⟨merges 0x100F, merges 0x1010, merges 0x1037, merges 0x1038⟩

end

/-! ## Bounds

Which pages are programmed. The range is checked from the start of the first page on, so that a
write may reach into the page behind the flash.
-/

/-- The page lies below the end of the flash. -/
def Program.Below (flashSize : UInt32) (p : Program) : Prop := p.address.toNat + p.length ≤ flashSize.toNat

/-- Every page that is programmed when the range is taken lies below the end of the flash. -/
def Bounded (flashSize : UInt32) (cells memory : Cells) (buffer : Nat) (address len : UInt32) : Prop :=
  ¬OutOfRange flashSize (pageOf address) len →
    ∀ p ∈ ((⟨cells, []⟩ : Chip).flashWriteData flashSize memory buffer address len).programs, p.Below flashSize

section
variable {flashSize addr address len : UInt32} {chip : Chip} {cells : Cells} {data pb : List UInt8}

theorem merged_length (ready : Ready flashSize addr address pb chip) :
    (merged flashSize addr address data pb chip).length = 32 := by
  have aligned : addr.toNat % 32 = 0 := by
    rw [ready.start]
    omega
  have low : (address % 32).toNat < 32 := offset_lt address
  unfold merged taken
  rw [flashReadData_page flashSize chip aligned]
  dsimp only
  have size : (if data.length < 32 then chip.readPage flashSize addr else pb).length = 32 := by
    split
    · exact readPage_length _ _ _
    · exact ready.size
  rw [List.length_append, List.length_append, List.length_take, List.length_take, List.length_drop, size]
  omega

/-- Nothing is taken back. -/
theorem writeRounds_programs {p : Program} (done : p ∈ chip.programs) :
    p ∈ (chip.writeRounds flashSize addr address data pb).programs := by
  induction size : data.length using Nat.strong_induction_on generalizing data addr address pb chip with
  | _ len ih =>
    subst size
    by_cases none_left : data = []
    · rw [none_left, writeRounds_nil]
      exact done
    · have positive := taken_pos address none_left
      have some_left := List.length_pos_of_ne_nil none_left
      have less : (data.drop (taken address data)).length < data.length := by
        rw [List.length_drop]
        omega
      rw [writeRounds_some none_left]
      exact ih _ less (List.mem_cons_of_mem _ done) rfl

theorem writeRounds_below (ready : Ready flashSize addr address pb chip) :
    (∀ p ∈ (chip.writeRounds flashSize addr address data pb).programs, p.Below flashSize) ↔
      (∀ p ∈ chip.programs, p.Below flashSize) ∧
        (data = [] ∨ address.toNat + data.length ≤ flashSize.toNat / 32 * 32) := by
  induction size : data.length using Nat.strong_induction_on generalizing data addr address pb chip with
  | _ len ih =>
    subst size
    by_cases none_left : data = []
    · rw [none_left, writeRounds_nil]
      exact (and_iff_left (.inl rfl)).symm
    · have positive := List.length_pos_of_ne_nil none_left
      have start := ready.start
      have top := flashSize.toNat_lt
      -- the page of this round
      have page : (⟨addr, (merged flashSize addr address data pb chip).length⟩ : Program).Below flashSize ↔
        addr.toNat + 32 ≤ flashSize.toNat := by
        rw [merged_length ready]
        exact Iff.rfl
      have first : (∀ p ∈ (chip.program flashSize addr (merged flashSize addr address data pb chip)).programs,
        p.Below flashSize) ↔
          addr.toNat + 32 ≤ flashSize.toNat ∧ ∀ p ∈ chip.programs, p.Below flashSize := by
        refine List.forall_mem_cons.trans (and_congr_left fun _ => page)
      rw [writeRounds_some none_left]
      by_cases more : 32 - address.toNat % 32 < data.length
      · by_cases room : address.toNat / 32 * 32 + 32 < 2 ^ 32
        · obtain ⟨later, moved⟩ := ready.next more (chip.program flashSize addr (merged flashSize addr address data pb chip)) room
          have rest : taken address data = 32 - address.toNat % 32 := by
            rw [taken_eq]
            omega
          have size : (data.drop (taken address data)).length = data.length - taken address data := List.length_drop
          have some_left : data.drop (taken address data) ≠ [] := List.ne_nil_of_length_pos (by omega)
          rw [ih _ (by omega) later rfl, first, moved, size, or_iff_right some_left, or_iff_right none_left]
          constructor
          · rintro ⟨⟨-, before⟩, low⟩
            exact ⟨before, by omega⟩
          · rintro ⟨before, low⟩
            exact ⟨⟨by omega, before⟩, by omega⟩
        · -- the addresses wrap behind this page
          refine iff_of_false (fun below => ?_) fun low => ?_
          · have here := page.mp (below _ (writeRounds_programs (List.mem_cons_self ..)))
            omega
          · rcases low.2 with empty | low
            · exact none_left empty
            · omega
      · have all : taken address data = data.length := by
          rw [taken_eq]
          omega
        rw [all, List.drop_length, writeRounds_nil, first, or_iff_right none_left]
        constructor
        · rintro ⟨low, before⟩
          exact ⟨before, by omega⟩
        · rintro ⟨before, low⟩
          exact ⟨by omega, before⟩

theorem programs_below (cells memory : Cells) (buffer : Nat) (ranged : ¬OutOfRange flashSize (pageOf address) len) :
    (∀ p ∈ ((⟨cells, []⟩ : Chip).flashWriteData flashSize memory buffer address len).programs, p.Below flashSize) ↔
      len = 0 ∨ address.toNat + len.toNat ≤ flashSize.toNat / 32 * 32 := by
  obtain ⟨pb, ready, same⟩ := @flashWriteData_in flashSize address len ⟨cells, []⟩ memory buffer ranged
  have size : (readBytes memory buffer len.toNat).length = len.toNat := readBytes_length _ _ _
  have none_given : readBytes memory buffer len.toNat = [] ↔ len = 0 := by
    rw [← List.length_eq_zero_iff, size, ← UInt32.toNat_inj]
    exact Iff.rfl
  rw [same, writeRounds_below ready, size, none_given, and_iff_right (List.forall_mem_nil _)]

/-- What is taken lies below the end with its last page, if there is any. -/
theorem write_bounded (flashSize : UInt32) (cells memory : Cells) (buffer : Nat) (address len : UInt32) :
    Bounded flashSize cells memory buffer address len ↔
      OutOfRange flashSize (pageOf address) len ∨ len = 0 ∨ address.toNat + len.toNat ≤ flashSize.toNat / 32 * 32 := by
  by_cases ranged : OutOfRange flashSize (pageOf address) len
  · exact iff_of_true (fun taken => absurd ranged taken) (.inl ranged)
  · rw [or_iff_right ranged, ← programs_below cells memory buffer ranged]
    exact ⟨fun bounded => bounded ranged, fun bounded _ => bounded⟩

/-- 32 bytes that start 16 bytes before the end. -/
theorem write_past_end : ¬Bounded 0x200000 (fun _ => 0xFF) (fun _ => 0) 0 0x1FFFF0 32 := by
  intro bounded
  have taken : ¬OutOfRange 0x200000 (pageOf 0x1FFFF0) 32 := by decide
  exact absurd ((programs_below _ _ _ taken).mp (bounded taken)) (by decide)

end

end BekenSdk.Flash
