import BekenSdk.SpiFlash.Driver

/-! What a write programs. The pieces are cut by length, so each goes round in its page unless the address is that of a page or
there is only one piece and it ends within its page.
-/

set_option autoImplicit false

namespace BekenSdk.SpiFlash
open Base

section
variable {duration : List UInt8 → Nat}

/-- The address at which the device programs byte `k` of a write. -/
def target (addr k : Nat) : Nat :=
  let first := (addr + flashPhyPageSize * (k / flashPhyPageSize)) % deviceSize
  first - first % flashPhyPageSize + (first % flashPhyPageSize + k % flashPhyPageSize) % flashPhyPageSize

/-- The bytes of a write. -/
def entries (src : Cells) (left addr pos : Nat) : List (Nat × UInt8) :=
  (List.range left).map fun k => (target addr k, src (pos + k))

/-- The device after these bytes. -/
structure Wrote (before after : Device) (bytes : List (Nat × UInt8)) : Prop where
  cells : after.cells = bytes.foldl programEntry before.cells
  programmed : after.programmed = before.programmed ++ bytes

variable (duration) in
/-- Byte `k` is programmed at `addr + k` and nothing else, and an erased range reads back. -/
structure Written (before after : Device) (addr size : UInt32) (src : Cells) : Prop where
  programmed : after.programmed = before.programmed ++ (List.range size.toNat).map fun k => (addr.toNat + k, src k)
  cells : after.cells = programBytes before.cells addr.toNat (readBytes src 0 size.toNat)
  readback : (∀ k < size.toNat, before.cells (addr.toNat + k) = 0xFF) →
    (spiFlashRead duration addr size true after).1 = 0 ∧
      (spiFlashRead duration addr size true after).2.1 = readBytes src 0 size.toNat

/-- There is memory for each piece. -/
def Granted (memory : Nat → Bool) (size : Nat) : Prop :=
  ∀ i, flashPhyPageSize * i < size → memory (size - flashPhyPageSize * i) = true

/-- The range has addresses, and no piece crosses the end of its page. -/
def Paged (addr size : UInt32) : Prop :=
  size = 0 ∨ addr.toNat + size.toNat ≤ deviceSize ∧
    (addr.toNat % flashPhyPageSize = 0 ∨ addr.toNat % flashPhyPageSize + size.toNat ≤ flashPhyPageSize)

instance (addr size : UInt32) : Decidable (Paged addr size) := inferInstanceAs (Decidable (_ ∨ _ ∧ (_ ∨ _)))

/-! ## One piece -/

theorem pageEntries_readBytes (src : Cells) (addr : UInt32) (pos : Nat) {left : Nat} (whole : left ≤ flashPhyPageSize) :
    pageEntries (addr.toNat % deviceSize) (readBytes src pos left) = entries src left addr.toNat pos := by
  unfold pageEntries entries target
  rw [readBytes_length]
  apply List.map_congr_left
  intro k member
  have small : k < flashPhyPageSize := Nat.lt_of_lt_of_le (List.mem_range.1 member) whole
  have data : (readBytes src pos left).getD k 0 = src (pos + k) := readBytes_getD src pos (List.mem_range.1 member) 0
  rw [data, Nat.div_eq_of_lt small, Nat.mod_eq_of_lt small, Nat.mul_zero, Nat.add_zero]

theorem programPage_eq (device : Device) (addr : UInt32) {src : List UInt8} (some' : src.length ≠ 0)
    (whole : src.length ≤ flashPhyPageSize) :
    spiFlashProgramPage duration true addr src device =
      (0, { device.program (addr.toNat % deviceSize) src with
        writeEnabled := false
        busy := duration (cmdPageProg :: addrBytes addr ++ src) }) := by
  unfold spiFlashProgramPage
  rw [if_neg (Nat.not_lt.2 whole), if_neg some', if_neg (by decide), sendEnabled_eq, ← commandAddr_addrBytes addr]
  rfl

/-! ## The loops -/

/-- A piece and what comes after it. -/
theorem entries_add (src : Cells) (addr : UInt32) (left pos : Nat) :
    entries src (flashPhyPageSize + left) addr.toNat pos =
      entries src flashPhyPageSize addr.toNat pos ++
        entries src left (addr + UInt32.ofNat flashPhyPageSize).toNat (pos + flashPhyPageSize) := by
  unfold entries
  rw [List.range_add, List.map_append, List.map_map]
  congr 1
  apply List.map_congr_left
  intro k _
  have next : (addr + UInt32.ofNat flashPhyPageSize).toNat = (addr.toNat + 256) % 2 ^ 32 := UInt32.toNat_add _ _
  have place : target addr.toNat (flashPhyPageSize + k) = target (addr + UInt32.ofNat flashPhyPageSize).toNat k := by
    unfold target flashPhyPageSize deviceSize at *
    have quotient : (256 + k) / 256 = k / 256 + 1 := by omega
    have rest : (256 + k) % 256 = k % 256 := by omega
    have same : (addr.toNat + 256 * (k / 256 + 1)) % 2 ^ 24 = ((addr.toNat + 256) % 2 ^ 32 + 256 * (k / 256)) % 2 ^ 24 := by omega
    rw [next, quotient, rest, same]
  simp only [Function.comp_apply, place, Nat.add_assoc]

theorem Wrote.trans {first second third : Device} {one two : List (Nat × UInt8)} (before : Wrote first second one)
    (after : Wrote second third two) : Wrote first third (one ++ two) where
  cells := by rw [after.cells, before.cells, List.foldl_append]
  programmed := by rw [after.programmed, before.programmed, List.append_assoc]

theorem pieceSize_le_page (left : Nat) : pieceSize left ≤ flashPhyPageSize := by
  unfold pieceSize
  split
  case isTrue => exact Nat.le_refl _
  case isFalse short => exact Nat.le_of_not_le short

/-- One round, if there is memory for it. -/
theorem writeLoop_next {memory : Nat → Bool} (src : Cells) {left : Nat} (addr : UInt32) (pos : Nat) (device : Device)
    (more : 0 < left) (granted : memory left = true) : ∃ next, Wrote device next (entries src (pieceSize left) addr.toNat pos) ∧
      writeLoop duration memory src left addr pos device =
        writeLoop duration memory src (left - pieceSize left) (addr + UInt32.ofNat (pieceSize left)) (pos + pieceSize left) next := by
  have length : (readBytes src pos (pieceSize left)).length = pieceSize left := readBytes_length _ _ _
  have page := @programPage_eq duration device addr (readBytes src pos (pieceSize left))
    (by rw [length]; exact Nat.ne_of_gt (pieceSize_pos more)) (by rw [length]; exact pieceSize_le_page left)
  refine ⟨(spiFlashProgramPage duration true addr (readBytes src pos (pieceSize left)) device).2, ?_, ?_⟩
  · rw [page, ← pageEntries_readBytes src addr pos (pieceSize_le_page left)]
    exact ⟨rfl, rfl⟩
  · have done : ¬(spiFlashProgramPage duration true addr (readBytes src pos (pieceSize left)) device).1 ≠ 0 := by
      rw [page]
      exact fun other => other rfl
    rw [writeLoop, dif_pos more, granted]
    exact if_neg done

/-- What is left after a whole piece has memory, too. -/
theorem Granted.tail {memory : Nat → Bool} {left : Nat} (granted : Granted memory (flashPhyPageSize + left)) : Granted memory left := by
  intro i less
  have later := granted (i + 1) (by rw [Nat.mul_succ]; omega)
  rwa [Nat.mul_succ, Nat.add_comm flashPhyPageSize left, Nat.add_sub_add_right] at later

theorem writeLoop_wrote {memory : Nat → Bool} (src : Cells) (left : Nat) (addr : UInt32) (pos : Nat) (device : Device)
    (granted : Granted memory left) :
    (writeLoop duration memory src left addr pos device).1 = 0 ∧
      Wrote device (writeLoop duration memory src left addr pos device).2 (entries src left addr.toNat pos) := by
  induction left using Nat.strongRecOn generalizing addr pos device with
  | ind left ih =>
    by_cases more : 0 < left
    · obtain ⟨next, wrote, same⟩ := @writeLoop_next duration memory src left addr pos device more (granted 0 more)
      rw [same]
      by_cases whole : flashPhyPageSize ≤ left
      · obtain ⟨rest, rfl⟩ := Nat.exists_eq_add_of_le whole
        have piece : pieceSize (flashPhyPageSize + rest) = flashPhyPageSize := if_pos whole
        rw [piece, Nat.add_sub_cancel_left, entries_add]
        rw [piece] at wrote
        have later := ih rest (Nat.lt_add_of_pos_left (by decide)) (addr + UInt32.ofNat flashPhyPageSize)
          (pos + flashPhyPageSize) next granted.tail
        exact ⟨later.1, wrote.trans later.2⟩
      · have piece : pieceSize left = left := if_neg whole
        rw [piece] at wrote ⊢
        rw [Nat.sub_self, writeLoop, dif_neg (Nat.lt_irrefl 0)]
        exact ⟨rfl, wrote⟩
    · rw [writeLoop, dif_neg more, Nat.eq_zero_of_not_pos more]
      exact ⟨rfl, rfl, (List.append_nil _).symm⟩

/-- A piece without memory is refused. -/
theorem writeLoop_stop {memory : Nat → Bool} (src : Cells) {left : Nat} (addr : UInt32) (pos : Nat) (device : Device)
    (more : 0 < left) (refused : memory left = false) : (writeLoop duration memory src left addr pos device).1 = 1 := by
  have length : (readBytes src pos (pieceSize left)).length = pieceSize left := readBytes_length _ _ _
  have page : spiFlashProgramPage duration false addr (readBytes src pos (pieceSize left)) device = (1, device) := by
    unfold spiFlashProgramPage
    rw [length, if_neg (Nat.not_lt.2 (pieceSize_le_page left)), if_neg (Nat.ne_of_gt (pieceSize_pos more)), if_pos rfl]
  have stops : (spiFlashProgramPage duration false addr (readBytes src pos (pieceSize left)) device).1 ≠ 0 := by
    rw [page]
    show (1 : UInt32) ≠ 0
    decide
  rw [writeLoop, dif_pos more, refused]
  exact congrArg Prod.fst (if_pos stops)

theorem Granted.cons {memory : Nat → Bool} {left : Nat} (first : memory left = true)
    (rest : Granted memory (left - pieceSize left)) : Granted memory left := by
  intro i less
  cases i with
  | zero => exact first
  | succ i =>
    have whole : flashPhyPageSize ≤ left := by
      rw [Nat.mul_succ] at less
      omega
    have piece : pieceSize left = flashPhyPageSize := if_pos whole
    have later := rest i (by rw [Nat.mul_succ] at less; rw [piece]; omega)
    rwa [piece, Nat.sub_sub, Nat.add_comm, ← Nat.mul_succ] at later

theorem writeLoop_refused {memory : Nat → Bool} (src : Cells) (left : Nat) (addr : UInt32) (pos : Nat) (device : Device)
    (refused : ¬Granted memory left) : (writeLoop duration memory src left addr pos device).1 = 1 := by
  induction left using Nat.strongRecOn generalizing addr pos device with
  | ind left ih =>
    by_cases more : 0 < left
    · cases first : memory left with
      | false => exact writeLoop_stop src addr pos device more first
      | true =>
        obtain ⟨next, _, same⟩ := @writeLoop_next duration memory src left addr pos device more first
        rw [same]
        exact ih _ (Nat.sub_lt more (pieceSize_pos more)) _ _ _ fun rest => refused (Granted.cons first rest)
    · rw [Nat.eq_zero_of_not_pos more] at refused
      exact absurd (fun i less => absurd less (Nat.not_lt_zero _)) refused

theorem readPage_eq (device : Device) (addr : UInt32) {size : Nat} (some' : size ≠ 0) (whole : size ≤ flashPhyPageSize) :
    spiFlashReadPage duration addr size device =
      (0, device.read (addr.toNat % deviceSize) size, { device with busy := 0 }) := by
  unfold spiFlashReadPage
  rw [if_neg (Nat.not_lt.2 whole), if_neg some', waitReady_eq, ← commandAddr_addrBytes addr]
  rfl

/-- What a reading gives, wherever it starts. -/
theorem readLoop_eq (left : Nat) (addr : UInt32) (device : Device) :
    (readLoop duration left addr device).1 = 0 ∧
      (readLoop duration left addr device).2.1 = (List.range left).map fun k => device.cells ((addr.toNat + k) % deviceSize) := by
  induction left using Nat.strongRecOn generalizing addr device with
  | ind left ih =>
    by_cases more : 0 < left
    · have positive := pieceSize_pos more
      have page := @readPage_eq duration device addr (pieceSize left) (Nat.ne_of_gt positive) (pieceSize_le_page left)
      have later := ih _ (Nat.sub_lt more positive) (addr + UInt32.ofNat (pieceSize left)) { device with busy := 0 }
      have split : left = pieceSize left + (left - pieceSize left) := (Nat.add_sub_cancel' (pieceSize_le left)).symm
      have unfolded : readLoop duration left addr device =
          ((readLoop duration (left - pieceSize left) (addr + UInt32.ofNat (pieceSize left)) { device with busy := 0 }).1,
            device.read (addr.toNat % deviceSize) (pieceSize left) ++
              (readLoop duration (left - pieceSize left) (addr + UInt32.ofNat (pieceSize left)) { device with busy := 0 }).2.1,
            (readLoop duration (left - pieceSize left) (addr + UInt32.ofNat (pieceSize left)) { device with busy := 0 }).2.2) := by
        rw [readLoop, dif_pos more]
        simp only [page, ne_eq, not_true_eq_false, if_false]
      rw [unfolded]
      refine ⟨later.1, ?_⟩
      have bytes : (List.range left).map (fun k => device.cells ((addr.toNat + k) % deviceSize)) =
          device.read (addr.toNat % deviceSize) (pieceSize left) ++
            (List.range (left - pieceSize left)).map fun k =>
              device.cells (((addr + UInt32.ofNat (pieceSize left)).toNat + k) % deviceSize) := by
        have small := pieceSize_le_page left
        have next : (addr + UInt32.ofNat (pieceSize left)).toNat = (addr.toNat + pieceSize left) % 2 ^ 32 := by
          have fits : (UInt32.ofNat (pieceSize left)).toNat = pieceSize left :=
            UInt32.toNat_ofNat_of_lt' (Nat.lt_of_le_of_lt small (by decide))
          rw [UInt32.toNat_add, fits]
        nth_rewrite 1 [split]
        rw [List.range_add, List.map_append, List.map_map, next]
        unfold Device.read deviceSize
        congr 1
        · exact List.map_congr_left fun k _ => congrArg device.cells (by omega)
        · exact List.map_congr_left fun k _ => congrArg device.cells (by dsimp only; omega)
      rw [bytes, ← later.2]
    · rw [readLoop, dif_neg more, Nat.eq_zero_of_not_pos more]
      exact ⟨rfl, rfl⟩

/-! ## A write -/

theorem foldl_programEntry (cells src : Cells) (addr pos n : Nat) :
    ((List.range n).map fun k => (addr + k, src (pos + k))).foldl programEntry cells =
      programBytes cells addr (readBytes src pos n) := by
  induction n with
  | zero => exact (programBytes_nil _ _).symm
  | succ n ih =>
    rw [List.range_succ, List.map_append, List.foldl_append, ih, readBytes_add, programBytes_append, readBytes_length]
    have single : readBytes src (pos + n) 1 = [src (pos + n)] := rfl
    rw [single]
    generalize programBytes cells addr (readBytes src pos n) = before
    funext a
    change Function.update before (addr + n) (before (addr + n) &&& src (pos + n)) a = _
    rcases Nat.lt_trichotomy a (addr + n) with low | here | high
    · rw [Function.update_of_ne (Nat.ne_of_lt low), programBytes_before _ _ _ low]
    · subst here
      simp [programBytes]
    · rw [Function.update_of_ne (Nat.ne_of_gt high), programBytes_after _ _ _ high]

/-- Each byte is programmed at its address just if the write is paged. -/
theorem target_iff (addr size : UInt32) : (∀ k < size.toNat, target addr.toNat k = addr.toNat + k) ↔ Paged addr size := by
  unfold target Paged flashPhyPageSize deviceSize
  dsimp only
  constructor
  · intro right
    by_cases none : size = 0
    · exact Or.inl none
    · have positive : 0 < size.toNat := Nat.pos_of_ne_zero fun zero => none (UInt32.toNat_inj.1 zero)
      have last' := right (size.toNat - 1) (by omega)
      refine Or.inr ⟨by omega, ?_⟩
      by_contra crossing
      have wrapped := right (256 - addr.toNat % 256) (by omega)
      omega
  · rintro (rfl | ⟨inside, aligned | short⟩) k less
    · exact absurd less (Nat.not_lt_zero k)
    · omega
    · omega

theorem written_of_paged {memory : Nat → Bool} {addr size : UInt32} (src : Cells) (before : Device)
    (granted : Granted memory size.toNat) (paged : Paged addr size) :
    Written duration before (spiFlashWrite duration memory addr size (some src) before).2 addr size src := by
  have wrote := (@writeLoop_wrote duration memory src size.toNat addr 0 before granted).2
  have places : entries src size.toNat addr.toNat 0 = (List.range size.toNat).map fun k => (addr.toNat + k, src (0 + k)) := by
    apply List.map_congr_left
    intro k member
    rw [(target_iff addr size).2 paged k (List.mem_range.1 member)]
  rw [places] at wrote
  have cells : (spiFlashWrite duration memory addr size (some src) before).2.cells =
      programBytes before.cells addr.toNat (readBytes src 0 size.toNat) :=
    wrote.cells.trans (foldl_programEntry before.cells src addr.toNat 0 size.toNat)
  refine ⟨?_, cells, fun erased => ?_⟩
  · simp only [Nat.zero_add] at wrote
    exact wrote.programmed
  · have read := @readLoop_eq duration size.toNat addr (spiFlashWrite duration memory addr size (some src) before).2
    have held : Holds before.cells addr.toNat (blank (readBytes src 0 size.toNat).length) := by
      rw [readBytes_length]
      refine holds_of_blank fun a low high => ?_
      have cell := erased (a - addr.toNat) (by omega)
      rwa [Nat.add_sub_cancel' low] at cell
    have back := (held.program_blank).read_of_length (readBytes_length src 0 size.toNat)
    rw [readBytes_eq_range] at back
    refine ⟨read.1, read.2.trans (Eq.trans ?_ back)⟩
    rw [cells]
    apply List.map_congr_left
    intro k member
    have small := List.mem_range.1 member
    have inside : addr.toNat + k < deviceSize := by
      rcases paged with rfl | ⟨inside, _⟩
      · exact absurd small (Nat.not_lt_zero k)
      · omega
    rw [Nat.mod_eq_of_lt inside]

/-- A write that is not refused does what it should exactly if it is paged. -/
theorem spiFlashWrite_iff (memory : Nat → Bool) (addr size : UInt32) (src : Option Cells) (before : Device) :
    ((spiFlashWrite duration memory addr size src before).1 = 0 → ∀ data ∈ src,
        Written duration before (spiFlashWrite duration memory addr size src before).2 addr size data) ↔
      (src = none ∨ ¬Granted memory size.toNat ∨ Paged addr size) := by
  cases src with
  | none => exact iff_of_true (fun _ _ missing => nomatch missing) (Or.inl rfl)
  | some src =>
    by_cases granted : Granted memory size.toNat
    · have done := @writeLoop_wrote duration memory src size.toNat addr 0 before granted
      constructor
      · intro right
        refine Or.inr (Or.inr ((target_iff addr size).1 fun k less => ?_))
        have same := (right done.1 src rfl).programmed
        rw [spiFlashWrite, done.2.programmed] at same
        have entry := congrArg (·[k]?) (List.append_cancel_left same)
        simp only [entries, List.getElem?_map, List.getElem?_range less, Option.map_some, Option.some.injEq, Prod.mk.injEq] at entry
        exact entry.1
      · rintro (none | refused | paged) _ data given
        · cases none
        · exact absurd granted refused
        · cases given
          exact written_of_paged src before granted paged
    · refine iff_of_true (fun done => ?_) (Or.inr (Or.inl granted))
      have refused := @writeLoop_refused duration memory src size.toNat addr 0 before granted
      rw [spiFlashWrite, refused] at done
      exact absurd done (by decide)

end

def erasedDevice : Device := ⟨fun _ => 0xFF, false, 0, [], []⟩

/-- 256 bytes from address 16: the last 16 of them go to the addresses in front. -/
theorem unaligned_not_written :
    ¬((spiFlashWrite (fun _ => 0) (fun _ => true) 16 256 (some UInt8.ofNat) erasedDevice).1 = 0 → ∀ data ∈ some UInt8.ofNat,
      Written (fun _ => 0) erasedDevice (spiFlashWrite (fun _ => 0) (fun _ => true) 16 256 (some UInt8.ofNat) erasedDevice).2
        16 256 data) := by
  intro right
  have done := @writeLoop_wrote (fun _ => 0) (fun _ => true) UInt8.ofNat 256 16 0 erasedDevice fun _ _ => rfl
  have same := (right done.1 _ rfl).programmed
  have programmed : (spiFlashWrite (fun _ => 0) (fun _ => true) 16 256 (some UInt8.ofNat) erasedDevice).2.programmed =
      erasedDevice.programmed ++ entries UInt8.ofNat 256 16 0 := done.2.programmed
  rw [programmed] at same
  have entry := congrArg (·[240]?) (List.append_cancel_left same)
  revert entry
  decide

end BekenSdk.SpiFlash
