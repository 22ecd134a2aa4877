import BekenSdk.KeyValue.Image

/-! The functions that work on one namespace's two sectors, against the log
those sectors hold. `Flash.Changes` bounds what a function may touch: every
operation it issues targets the region, and cells outside keep their value.
-/

set_option autoImplicit false

namespace BekenSdk.KeyValue
open BekenSdk.Base

/-! ## What an operation touches -/

def FlashOp.targets (op : FlashOp) (a : Nat) : Prop := op.addr ≤ a ∧ a < op.addr + op.len

structure Flash.Changes (region : Nat → Prop) (before after : Flash) : Prop where
  ops : ∃ issued, after.ops = issued ++ before.ops ∧ ∀ op ∈ issued, ∀ a, op.targets a → region a
  cells : ∀ a, ¬region a → after.cells a = before.cells a

namespace Flash.Changes

theorem refl (region : Nat → Prop) (flash : Flash) : Changes region flash flash :=
  ⟨⟨[], rfl, by simp⟩, fun _ _ => rfl⟩

theorem trans {region : Nat → Prop} {first second third : Flash}
    (left : Changes region first second) (right : Changes region second third) :
    Changes region first third := by
  obtain ⟨early, early_eq, early_in⟩ := left.ops
  obtain ⟨late, late_eq, late_in⟩ := right.ops
  refine ⟨⟨late ++ early, by rw [late_eq, early_eq, List.append_assoc], ?_⟩, ?_⟩
  · intro op member
    rcases List.mem_append.mp member with last | first
    · exact late_in op last
    · exact early_in op first
  · intro a outside
    rw [right.cells a outside, left.cells a outside]

theorem mono {small large : Nat → Prop} {before after : Flash} (changes : Changes small before after)
    (sub : ∀ a, small a → large a) : Changes large before after := by
  obtain ⟨issued, same, within⟩ := changes.ops
  exact ⟨⟨issued, same, fun op member a target => sub a (within op member a target)⟩,
    fun a outside => changes.cells a fun inside => outside (sub a inside)⟩

theorem ddevWrite {region : Nat → Prop} (flash : Flash) {bytes : List UInt8} {addr : Nat}
    (within : ∀ a, addr ≤ a → a < addr + bytes.length → region a) :
    Changes region flash (flash.ddevWrite bytes addr) := by
  refine ⟨⟨[.program addr bytes.length], rfl, ?_⟩, ?_⟩
  · intro op member a target
    rw [List.mem_singleton.mp member] at target
    exact within a target.1 target.2
  · intro a outside
    rcases Nat.lt_or_ge a addr with before | after
    · exact programBytes_before _ _ _ before
    · refine programBytes_after _ _ _ (Nat.le_of_not_lt fun inside => ?_)
      exact outside (within a after inside)

theorem eraseSector {region : Nat → Prop} (flash : Flash) (sector : Nat)
    (within : ∀ a, flashSectorSize * sector ≤ a → a < flashSectorSize * sector + flashSectorSize → region a) :
    Changes region flash (flash.eraseSector (flashSectorSize * sector)) := by
  have start : flashSectorSize * sector / flashSectorSize * flashSectorSize = flashSectorSize * sector := by
    rw [Nat.mul_div_cancel_left _ (by decide), Nat.mul_comm]
  refine ⟨⟨[.erase (flashSectorSize * sector)], rfl, ?_⟩, ?_⟩
  · intro op member a target
    rw [List.mem_singleton.mp member] at target
    simp only [FlashOp.targets, FlashOp.addr, FlashOp.len, start] at target
    exact within a target.1 target.2
  · intro a outside
    rw [eraseSector_cells, eraseSector_aligned _ _ (by decide), if_neg]
    exact fun inside => outside (within a inside.1 inside.2)

end Flash.Changes

theorem holds_of_changes {region : Nat → Prop} {before after : Flash} {addr : Nat} {bytes : List UInt8}
    (changes : Flash.Changes region before after) (held : Holds before.cells addr bytes)
    (apart : ∀ a, addr ≤ a → a < addr + bytes.length → ¬region a) : Holds after.cells addr bytes :=
  held.congr fun a low high => changes.cells a (apart a low high)

/-! ## The sectors of a namespace -/

/-- The name sector and the data sector of one namespace, as sector numbers. -/
structure SectorPair where
  name : Nat
  data : Nat
  apart : name ≠ data

namespace SectorPair

def nameAddr (pair : SectorPair) : Nat := flashSectorSize * pair.name
def dataAddr (pair : SectorPair) : Nat := flashSectorSize * pair.data

def region (pair : SectorPair) (a : Nat) : Prop :=
  (pair.nameAddr ≤ a ∧ a < pair.nameAddr + flashSectorSize) ∨
    (pair.dataAddr ≤ a ∧ a < pair.dataAddr + flashSectorSize)

theorem disjoint (pair : SectorPair) :
    pair.nameAddr + flashSectorSize ≤ pair.dataAddr ∨ pair.dataAddr + flashSectorSize ≤ pair.nameAddr := by
  have apart := pair.apart
  simp only [nameAddr, dataAddr, flashSectorSize]
  omega

end SectorPair

structure Holding (cells : Cells) (pair : SectorPair) (records : List Record) : Prop where
  names : Holds cells pair.nameAddr (nameSector records)
  values : Holds cells pair.dataAddr (dataSector records)

section
variable {pair : SectorPair}

/-- Program a value and then its record, as every store of a value does. -/
def Flash.storeRecord (flash : Flash) (pair : SectorPair) (records : List Record) (record : Record) : Flash :=
  (flash.ddevWrite record.value (pair.dataAddr + valueBytes records)).ddevWrite
    (record.toFlash (valueBytes records)).toBytes (pair.nameAddr + perNameFlashSize * records.length)

theorem Holding.store {flash : Flash} {records : List Record} (held : Holding flash.cells pair records)
    (record : Record) (named : ∀ r ∈ records ++ [record], r.key.strlen ≤ nameLimit)
    (few : records.length < flashNameMaxArray)
    (short : valueBytes records + record.value.length ≤ flashSectorSize) :
    Holding (flash.storeRecord pair records record).cells pair (records ++ [record]) ∧
      Flash.Changes pair.region flash (flash.storeRecord pair records record) := by
  have width := toFlash_bytes_length (valueBytes records) (named record (by simp))
  have tableWidth := tableBytes_length 0 fun r member => named r (List.mem_append_left _ member)
  have sectors := pair.disjoint
  simp only [flashNameMaxArray] at few
  constructor
  · constructor
    · have kept : Holds (flash.ddevWrite record.value (pair.dataAddr + valueBytes records)).cells
          pair.nameAddr (nameSector records) := by
        refine held.names.program_frame ?_
        simp only [nameSector, List.length_append, tableWidth, blank_length, perNameFlashSize,
          flashSectorSize] at *
        omega
      have result := kept.program_tail (record.toFlash (valueBytes records)).toBytes
        (by rw [width]; simp only [perNameFlashSize, flashSectorSize]; omega)
      rw [tableWidth, width] at result
      have table : tableBytes (tableFrom 0 (records ++ [record])) =
          tableBytes (tableFrom 0 records) ++ (record.toFlash (valueBytes records)).toBytes := by
        rw [tableFrom_append, tableBytes_append, Nat.zero_add]
        simp [tableFrom, tableBytes]
      have room : flashSectorSize - perNameFlashSize * (records ++ [record]).length =
          flashSectorSize - perNameFlashSize * records.length - perNameFlashSize := by
        rw [List.length_append, List.length_singleton, Nat.mul_succ, Nat.sub_add_eq]
      rw [nameSector, table, room]
      exact result
    · have stored := held.values.program_tail record.value (by omega)
      rw [valuesOf_length] at stored
      have values : valuesOf (records ++ [record]) = valuesOf records ++ record.value := by
        simp [valuesOf]
      have room : flashSectorSize - valueBytes (records ++ [record]) =
          flashSectorSize - valueBytes records - record.value.length := by
        rw [valueBytes_append, valueBytes_cons, valueBytes_nil, Nat.add_zero, Nat.sub_add_eq]
      rw [dataSector, values, room]
      refine stored.program_frame ?_
      simp only [List.length_append, valuesOf_length, blank_length, width, perNameFlashSize,
        flashSectorSize] at *
      omega
  · refine (Flash.Changes.ddevWrite flash fun a low high => Or.inr ?_).trans
      (Flash.Changes.ddevWrite _ fun a low high => Or.inl ?_)
    · omega
    · rw [width] at high
      simp only [perNameFlashSize, flashSectorSize] at *
      omega

theorem Holding.congr {flash other : Flash} {records : List Record} {region : Nat → Prop}
    (held : Holding flash.cells pair records) (changes : Flash.Changes region flash other)
    (few : records.length ≤ flashNameMaxArray) (short : valueBytes records ≤ flashSectorSize)
    (named : ∀ r ∈ records, r.key.strlen ≤ nameLimit)
    (apart : ∀ a, pair.region a → ¬region a) : Holding other.cells pair records := by
  have tableWidth := tableBytes_length 0 named
  constructor
  · refine holds_of_changes changes held.names fun a low high => apart a (Or.inl ⟨low, ?_⟩)
    simp only [nameSector, List.length_append, tableWidth, blank_length, flashNameMaxArray,
      perNameFlashSize, flashSectorSize] at *
    omega
  · refine holds_of_changes changes held.values fun a low high => apart a (Or.inr ⟨low, ?_⟩)
    simp only [dataSector, List.length_append, valuesOf_length, blank_length] at high
    omega

theorem holding_erased (flash : Flash) (pair : SectorPair) :
    Holding (bkEraseNameData pair.nameAddr pair.dataAddr flash).cells pair [] ∧
      Flash.Changes pair.region flash (bkEraseNameData pair.nameAddr pair.dataAddr flash) := by
  have sectors := pair.disjoint
  constructor
  · constructor
    · have erased := holds_erase flashSectorSize flash.cells (by decide) pair.name
      exact erased.erase_frame (by decide) (by simpa [SectorPair.nameAddr, SectorPair.dataAddr] using sectors)
    · exact holds_erase flashSectorSize _ (by decide) pair.data
  · exact (Flash.Changes.eraseSector flash pair.name fun a low high => Or.inl ⟨low, high⟩).trans
      (Flash.Changes.eraseSector _ pair.data fun a low high => Or.inr ⟨low, high⟩)

/-! ## Compaction -/

/-- One live record of the copying loop: its value, then its record at the new offset. -/
theorem rewriteUsed_live {databuf : List UInt8} {record : Record} {offset : Nat} (live : record.live = true)
    (bounded : offset + record.value.length ≤ flashSectorSize)
    (here : (databuf.drop offset).take record.value.length = record.value) (rest : List NameFlash)
    (dwDataAddr dwNameAddr dwOffset : Nat) (flash : Flash) :
    rewriteUsed databuf (record.toFlash offset :: rest) dwDataAddr dwNameAddr dwOffset flash =
      rewriteUsed databuf rest (dwDataAddr + record.value.length) (dwNameAddr + perNameFlashSize)
        (dwOffset + record.value.length)
        ((flash.ddevWrite record.value dwDataAddr).ddevWrite (record.toFlash dwOffset).toBytes dwNameAddr) := by
  have used : (record.toFlash offset).dwUsingFlag = flashSpaceUsing := by
    simp [Record.toFlash, Record.flag, live]
  have inBuffer : ¬(record.toFlash offset).dwOffsetByByte + (record.toFlash offset).dwlength >
      flashSectorSize := Nat.not_lt.mpr bounded
  have copied : (databuf.drop (record.toFlash offset).dwOffsetByByte).take (record.toFlash offset).dwlength =
      record.value := here
  rw [rewriteUsed, if_pos used, if_neg inBuffer, copied]
  rfl

/-- The copying loop stores the live records after those already copied. -/
theorem rewriteUsed_spec (records kept : List Record) (offset count : Nat) {databuf tail : List UInt8}
    {flash : Flash} (source : databuf.drop offset = valuesOf records ++ tail)
    (inside : offset + valueBytes records ≤ flashSectorSize)
    (named : ∀ r ∈ kept ++ records, r.key.strlen ≤ nameLimit)
    (few : kept.length + records.length ≤ flashNameMaxArray)
    (short : valueBytes kept + valueBytes records ≤ flashSectorSize)
    (held : Holding flash.cells pair kept) :
    ∃ after, rewriteUsed databuf (tableFrom offset records ++ List.replicate count freeName)
        (pair.dataAddr + valueBytes kept) (pair.nameAddr + perNameFlashSize * kept.length)
        (valueBytes kept) flash =
          .done (pair.dataAddr + valueBytes (kept ++ Log.compact records),
            pair.nameAddr + perNameFlashSize * (kept ++ Log.compact records).length,
            valueBytes (kept ++ Log.compact records)) after ∧
      Holding after.cells pair (kept ++ Log.compact records) ∧ Flash.Changes pair.region flash after := by
  induction records generalizing kept offset flash with
  | nil =>
    have skip : ∀ n dataAddr nameAddr moved,
        rewriteUsed databuf (List.replicate n freeName) dataAddr nameAddr moved flash =
          .done (dataAddr, nameAddr, moved) flash := by
      intro n
      induction n with
      | zero => intros; rfl
      | succ n ih =>
        intro dataAddr nameAddr moved
        rw [List.replicate_succ, rewriteUsed, if_neg freeName_flag.1, ih]
    refine ⟨flash, ?_, ?_, .refl _ _⟩
    · simpa [tableFrom, Log.compact] using skip count _ _ _
    · simpa [Log.compact] using held
  | cons record records ih =>
    rw [valueBytes_cons] at inside short
    have here : (databuf.drop offset).take record.value.length = record.value := by
      rw [source]; simp [valuesOf]
    have later : databuf.drop (offset + record.value.length) = valuesOf records ++ tail := by
      rw [← List.drop_drop, source]; simp [valuesOf]
    have room : kept.length + (records.length + 1) ≤ flashNameMaxArray := few
    cases live : record.live with
    | false =>
      have unused : (record.toFlash offset).dwUsingFlag ≠ flashSpaceUsing := by
        simp [Record.toFlash, Record.flag, live, flashSpaceUsing, flashSpaceMask]
      have dropped : Log.compact (record :: records) = Log.compact records := by
        simp [Log.compact, live]
      rw [tableFrom, List.cons_append, rewriteUsed, if_neg unused, dropped]
      refine ih kept (offset + record.value.length) later (by omega) ?_ (by omega) (by omega) held
      intro r member
      exact named r (by rcases List.mem_append.mp member with old | new <;> simp [*])
    | true =>
      have stays : Log.compact (record :: records) = record :: Log.compact records := by
        simp [Log.compact, live]
      have namedHere : ∀ r ∈ kept ++ [record], r.key.strlen ≤ nameLimit := by
        intro r member
        exact named r (by rcases List.mem_append.mp member with old | new <;> simp_all)
      obtain ⟨stored, changed⟩ := held.store record namedHere (by omega) (by omega)
      have cursorData : pair.dataAddr + valueBytes kept + record.value.length =
          pair.dataAddr + valueBytes (kept ++ [record]) := by simp; omega
      have cursorName : pair.nameAddr + perNameFlashSize * kept.length + perNameFlashSize =
          pair.nameAddr + perNameFlashSize * (kept ++ [record]).length := by
        rw [List.length_append, List.length_singleton, Nat.mul_succ, Nat.add_assoc]
      have cursorOffset : valueBytes kept + record.value.length = valueBytes (kept ++ [record]) := by simp
      obtain ⟨after, run, holding, changes⟩ := ih (kept ++ [record]) (offset + record.value.length) later
        (by omega) (by simpa using named) (by simp; omega) (by simp; omega) stored
      refine ⟨after, ?_, ?_, changed.trans changes⟩
      · rw [tableFrom, List.cons_append, rewriteUsed_live live (by omega) here, cursorData, cursorName,
          cursorOffset, stays]
        simpa [Flash.storeRecord] using run
      · rw [stays]; simpa using holding

/-- Sums with a caller's length stay below 32 bits unless the length is near 2^32. -/
theorem Buffer.no_wrap {indata : Buffer} (sane : indata.bytes.length + flashSectorSize ≤ 2 ^ 32)
    {offset : Nat} (inside : offset < flashSectorSize) :
    (offset + indata.bytes.length) % 2 ^ 32 = offset + indata.bytes.length :=
  Nat.mod_eq_of_lt (by simp only [flashSectorSize] at *; omega)

variable {malloc : OsMalloc} {indata : Buffer} {key : CString} {flash : Flash} {log : NameLog}

/-- Compaction leaves the live records in the erased sectors. -/
theorem rewriteUsed_sector (held : Holding flash.cells pair log.records) :
    ∃ copied, rewriteUsed (flash.ddevRead flashSectorSize pair.dataAddr) (flash.readNames pair.nameAddr flashNameMaxArray)
        pair.dataAddr pair.nameAddr 0 ((flash.eraseSector pair.nameAddr).eraseSector pair.dataAddr) =
          .done (pair.dataAddr + valueBytes (Log.compact log.records),
            pair.nameAddr + perNameFlashSize * (Log.compact log.records).length,
            valueBytes (Log.compact log.records)) copied ∧
      Holding copied.cells pair (Log.compact log.records) ∧ Flash.Changes pair.region flash copied := by
  have table := readNames_sector held.names
  have values : flash.ddevRead flashSectorSize pair.dataAddr = dataSector log.records :=
    held.values.read_of_length (dataSector_length log)
  have source : (dataSector log.records).drop 0 =
      valuesOf log.records ++ blank (flashSectorSize - valueBytes log.records) := rfl
  obtain ⟨erased, erasing⟩ := holding_erased flash pair
  obtain ⟨copied, run, holding, copying⟩ := rewriteUsed_spec log.records [] 0
    (flashNameMaxArray - log.records.length) source (by have := log.short; omega)
    log.named (by have := log.few; simpa using this) (by have := log.short; simp; omega) erased
  simp only [valueBytes_nil, Nat.add_zero, List.length_nil, Nat.mul_zero, List.nil_append,
    bkEraseNameData] at run holding
  rw [table, values]
  exact ⟨copied, run, holding, erasing.trans copying⟩

theorem bkReorganizeNameData_spec (held : Holding flash.cells pair log.records)
    (named : key.strlen ≤ nameLimit) (sane : indata.bytes.length + flashSectorSize ≤ 2 ^ 32)
    (room : (Log.compact log.records).length < flashNameMaxArray) :
    ∃ after, bkReorganizeNameData pair.nameAddr (flash.readNames pair.nameAddr flashNameMaxArray)
        (flash.ddevRead flashSectorSize pair.dataAddr) pair.dataAddr indata (field nameWidth key) flash =
          .done (log.compactPush key indata.bytes).1 after ∧
      Holding after.cells pair (log.compactPush key indata.bytes).2.records ∧
      Flash.Changes pair.region flash after := by
  obtain ⟨copied, run, holding, copying⟩ := rewriteUsed_sector held
  have short : valueBytes (Log.compact log.records) < flashSectorSize := log.compact.short
  unfold bkReorganizeNameData
  simp only [run, NameLog.compactPush]
  rw [Buffer.no_wrap sane short]
  by_cases long : valueBytes (Log.compact log.records) + indata.bytes.length ≥ flashSectorSize
  · rw [NameLog.push?_of_long long, if_pos long]
    exact ⟨copied, rfl, holding, copying⟩
  · have fits := Nat.not_le.mp long
    obtain ⟨pushed, push, records⟩ := log.compact.push?_of_fits room fits named
    obtain ⟨stored, storing⟩ := holding.store ⟨true, key, indata.bytes⟩
      (by rw [← log.compact_records, ← records]; exact pushed.named) room (Nat.le_of_lt fits)
    rw [push, if_neg long]
    exact ⟨_, rfl, records ▸ stored, copying.trans storing⟩

theorem compact_length_lt_of_dead (dead : log.hasDead = true) :
    (Log.compact log.records).length < log.records.length := by
  obtain ⟨record, member, gone⟩ := List.any_eq_true.mp dead
  exact List.length_filter_lt_length_iff_exists.mpr ⟨record, member, by simpa using gone⟩

variable (malloc) in
/-- Storing a value under a name field is the append of the log. -/
theorem bkSetNameDataNewAddr_spec (held : Holding flash.cells pair log.records)
    (named : key.strlen ≤ nameLimit) (sane : indata.bytes.length + flashSectorSize ≤ 2 ^ 32) :
    ∃ after, bkSetNameDataNewAddr malloc pair.dataAddr pair.nameAddr indata (field nameWidth key) flash =
        .done (log.append malloc key indata.bytes).1 after ∧
      Holding after.cells pair (log.append malloc key indata.bytes).2.records ∧
      Flash.Changes pair.region flash after := by
  have few := log.few
  have short := log.short
  unfold bkSetNameDataNewAddr NameLog.append
  cases granted : malloc .nameTemp && malloc .dataBuff with
  | false => exact ⟨flash, rfl, held, .refl _ _⟩
  | true =>
    have scan := scanFree_sector log
    rw [← readNames_sector held.names] at scan
    simp only [if_true, scan]
    by_cases free : log.records.length < flashNameMaxArray
    · rw [if_pos free, if_pos free]
      simp only
      rw [Buffer.no_wrap sane short]
      by_cases long : valueBytes log.records + indata.bytes.length ≥ flashSectorSize
      · rw [if_pos long, NameLog.push?_of_long long]
        exact bkReorganizeNameData_spec held named sane
          (Nat.lt_of_le_of_lt (Log.length_compact_le _) free)
      · have fits := Nat.not_le.mp long
        obtain ⟨pushed, push, records⟩ := log.push?_of_fits free fits named
        obtain ⟨stored, storing⟩ := held.store ⟨true, key, indata.bytes⟩
          (by rw [← records]; exact pushed.named) free (Nat.le_of_lt fits)
        rw [if_neg long, push, Nat.mul_comm log.records.length]
        exact ⟨_, rfl, records ▸ stored, storing⟩
    · rw [if_neg free, if_neg free]
      simp only [hasDead_iff]
      cases dead : log.hasDead with
      | false => exact ⟨flash, rfl, held, .refl _ _⟩
      | true =>
        exact bkReorganizeNameData_spec held named sane
          (Nat.lt_of_lt_of_le (compact_length_lt_of_dead dead) few)

/-! ## One record of a log -/

variable {before after : List Record} {record : Record}

/-- The three parts of a name sector around one record. -/
theorem holds_around_record (cells : Cells) (pair : SectorPair) (record : Record)
    (named : ∀ r ∈ before, r.key.strlen ≤ nameLimit) (here : record.key.strlen ≤ nameLimit) :
    Holds cells pair.nameAddr (nameSector (before ++ record :: after)) ↔
      Holds cells pair.nameAddr (tableBytes (tableFrom 0 before)) ∧
      Holds cells (pair.nameAddr + perNameFlashSize * before.length)
        (record.toFlash (valueBytes before)).toBytes ∧
      Holds cells (pair.nameAddr + perNameFlashSize * before.length + perNameFlashSize)
        (tableBytes (tableFrom (valueBytes before + record.value.length) after) ++
          blank (flashSectorSize - perNameFlashSize * (before ++ record :: after).length)) := by
  have width := toFlash_bytes_length (valueBytes before) here
  rw [nameSector, tableFrom_append, tableBytes_append, List.append_assoc, holds_append,
    tableBytes_length 0 named, Nat.zero_add, tableFrom]
  simp only [tableBytes, List.flatMap_cons, List.append_assoc]
  rw [holds_append, width]

theorem Holding.record_read (held : Holding flash.cells pair (before ++ record :: after))
    (named : ∀ r ∈ before ++ record :: after, r.key.strlen ≤ nameLimit)
    (short : valueBytes (before ++ record :: after) < flashSectorSize) :
    NameFlash.ofBytes (flash.ddevRead perNameFlashSize (pair.nameAddr + before.length * perNameFlashSize)) =
      record.toFlash (valueBytes before) := by
  have here := named record (by simp)
  obtain ⟨-, middle, -⟩ := (holds_around_record flash.cells pair record
    (fun r member => named r (by simp [member])) here).mp held.names
  rw [Nat.mul_comm, Flash.ddevRead, middle.read_of_length (toFlash_bytes_length _ here)]
  rw [valueBytes_append, valueBytes_cons] at short
  exact ofBytes_toFlash (by omega)

theorem Holding.value_read (held : Holding flash.cells pair (before ++ record :: after)) {len : Nat}
    (bounded : len ≤ record.value.length) :
    flash.ddevRead len (pair.dataAddr + valueBytes before) = record.value.take len := by
  have values := held.values
  simp only [dataSector, valuesOf_append, List.append_assoc] at values
  rw [holds_append, valuesOf_length] at values
  have split : valuesOf (record :: after) = record.value.take len ++ (record.value.drop len ++ valuesOf after) := by
    rw [← List.append_assoc, List.take_append_drop]; rfl
  rw [split, List.append_assoc, holds_append] at values
  exact values.2.1.read_of_length (by simp [bounded])

theorem kill_flag_bytes (live : record.live = true) (offset : Nat) :
    (record.toFlash offset).toBytes = le32 flashSpaceUsing ++
        (le32 offset ++ le32 record.value.length ++ field nameWidth record.key) ∧
      (Record.toFlash record.kill offset).toBytes = le32 flashSpaceMask ++
        (le32 offset ++ le32 record.value.length ++ field nameWidth record.key) := by
  simp [NameFlash.toBytes, Record.toFlash, Record.flag, live, Entry.kill]

theorem using_and_mask :
    List.zipWith (· &&& ·) (le32 flashSpaceUsing) (le32 flashSpaceMask) = le32 flashSpaceMask := by
  decide

/-- Replacing a live record by its masked form, whatever program did it. -/
theorem Holding.masked {other : Flash} (held : Holding flash.cells pair (before ++ record :: after))
    (named : ∀ r ∈ before ++ record :: after, r.key.strlen ≤ nameLimit)
    (few : (before ++ record :: after).length ≤ flashNameMaxArray)
    (short : valueBytes (before ++ record :: after) ≤ flashSectorSize)
    (mask : Holds other.cells (pair.nameAddr + perNameFlashSize * before.length)
      (Record.toFlash record.kill (valueBytes before)).toBytes)
    (changes : Flash.Changes (fun a => pair.nameAddr + perNameFlashSize * before.length ≤ a ∧
      a < pair.nameAddr + perNameFlashSize * before.length + perNameFlashSize) flash other) :
    Holding other.cells pair (before ++ record.kill :: after) := by
  have early : ∀ r ∈ before, r.key.strlen ≤ nameLimit := fun r member => named r (by simp [member])
  have here := named record (by simp)
  have tableWidth := tableBytes_length 0 early
  have sectors := pair.disjoint
  simp only [List.length_append, List.length_cons] at few
  obtain ⟨first, -, last⟩ := (holds_around_record flash.cells pair record early here).mp held.names
  constructor
  · refine (holds_around_record other.cells pair record.kill early here).mpr ⟨?_, mask, ?_⟩
    · exact holds_of_changes changes first fun a low high inside => by omega
    · have kept := holds_of_changes changes last fun a low high inside => by omega
      simpa using kept
  · have same : dataSector (before ++ record.kill :: after) = dataSector (before ++ record :: after) := by
      simp [dataSector, valuesOf]
    rw [same]
    refine holds_of_changes changes held.values fun a low high inside => ?_
    simp only [dataSector, List.length_append, valuesOf_length, blank_length] at high
    simp only [flashNameMaxArray, perNameFlashSize, flashSectorSize] at *
    omega

end

end BekenSdk.KeyValue
