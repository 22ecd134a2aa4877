import BekenSdk.KeyValue.Directory

/-! The bytes of the store. A log occupies a name sector, which holds its
records in order followed by erased bytes, and a data sector, which holds the
values back to back followed by erased bytes. The scans of the code, run over
such a sector, find what the log says.
-/

set_option autoImplicit false

namespace BekenSdk.KeyValue
open BekenSdk.Base

/-! ## Images -/

def Record.flag (record : Record) : Nat := if record.live then flashSpaceUsing else flashSpaceMask

def Record.toFlash (record : Record) (offset : Nat) : NameFlash :=
  ⟨record.flag, offset, record.value.length, field nameWidth record.key⟩

/-- The name records of a log whose first value starts at the given offset. -/
def tableFrom : Nat → List Record → List NameFlash
  | _, [] => []
  | offset, record :: rest => record.toFlash offset :: tableFrom (offset + record.value.length) rest

def tableBytes (table : List NameFlash) : List UInt8 := table.flatMap NameFlash.toBytes

def valuesOf (records : List Record) : List UInt8 := records.flatMap Entry.value

def nameSector (records : List Record) : List UInt8 :=
  tableBytes (tableFrom 0 records) ++ blank (flashSectorSize - perNameFlashSize * records.length)

def dataSector (records : List Record) : List UInt8 :=
  valuesOf records ++ blank (flashSectorSize - valueBytes records)

def freeName : NameFlash := .ofBytes (blank perNameFlashSize)
def freeNamespace : NamespaceFlash := .ofBytes (blank perNameSpaceFlashSize)

def Slot.entry (slot : Nat) : Slot → NamespaceFlash
  | .free => freeNamespace
  | .used name _ => newNamespaceEntry name.text slot

def Slot.entryBytes (slot : Nat) : Slot → List UInt8
  | .free => blank perNameSpaceFlashSize
  | .used name _ => (newNamespaceEntry name.text slot).toBytes

/-! ## Sizes -/

@[simp] theorem valueBytes_nil : valueBytes [] = 0 := rfl

@[simp] theorem valueBytes_cons (record : Record) (rest : List Record) :
    valueBytes (record :: rest) = record.value.length + valueBytes rest := by
  simp [valueBytes]

@[simp] theorem valueBytes_append (first rest : List Record) :
    valueBytes (first ++ rest) = valueBytes first + valueBytes rest := by
  simp [valueBytes]

theorem valuesOf_length (records : List Record) : (valuesOf records).length = valueBytes records := by
  induction records with
  | nil => rfl
  | cons record rest ih => simp [valuesOf] at ih ⊢; exact ih

theorem valuesOf_append (first rest : List Record) :
    valuesOf (first ++ rest) = valuesOf first ++ valuesOf rest := by
  simp [valuesOf]

@[simp] theorem tableFrom_length (offset : Nat) (records : List Record) :
    (tableFrom offset records).length = records.length := by
  induction records generalizing offset with
  | nil => rfl
  | cons record rest ih => simp [tableFrom, ih]

theorem tableFrom_append (offset : Nat) (first rest : List Record) :
    tableFrom offset (first ++ rest) =
      tableFrom offset first ++ tableFrom (offset + valueBytes first) rest := by
  induction first generalizing offset with
  | nil => rfl
  | cons record first ih =>
    simp only [List.cons_append, tableFrom, ih, valueBytes_cons, Nat.add_assoc]

theorem tableBytes_append (first rest : List NameFlash) :
    tableBytes (first ++ rest) = tableBytes first ++ tableBytes rest := by
  simp [tableBytes]

theorem toFlash_bytes_length {record : Record} (offset : Nat) (named : record.key.strlen ≤ nameLimit) :
    (record.toFlash offset).toBytes.length = perNameFlashSize := by
  have width : (field nameWidth record.key).length = nameWidth :=
    field_length (Nat.le_trans named (by decide))
  simp only [NameFlash.toBytes, Record.toFlash, List.length_append, le32_length, width]
  rfl

theorem tableBytes_length {records : List Record} (offset : Nat)
    (named : ∀ record ∈ records, record.key.strlen ≤ nameLimit) :
    (tableBytes (tableFrom offset records)).length = perNameFlashSize * records.length := by
  induction records generalizing offset with
  | nil => rfl
  | cons record rest ih =>
    have head := toFlash_bytes_length offset (named record (by simp))
    have tail := ih (offset + record.value.length) fun r member => named r (by simp [member])
    simp only [tableBytes] at tail
    simp only [tableBytes, tableFrom, List.flatMap_cons, List.length_append, head, tail, List.length_cons]
    rw [Nat.mul_succ, Nat.add_comm]

theorem dataSector_length (log : NameLog) : (dataSector log.records).length = flashSectorSize := by
  have short := log.short
  simp only [dataSector, List.length_append, valuesOf_length, blank_length]
  omega

theorem entryBytes_length (slot : Nat) (content : Slot) :
    (content.entryBytes slot).length = perNameSpaceFlashSize := by
  cases content with
  | free => rfl
  | used name log =>
    have short := CString.truncate_strlen_le (nsWidth - 1) name.text
    have width : (field nsWidth (name.text.truncate (nsWidth - 1))).length = nsWidth :=
      field_length (Nat.le_trans short (by decide))
    simp only [Slot.entryBytes, NamespaceFlash.toBytes, newNamespaceEntry, List.length_append,
      le32_length, width]
    rfl

/-! ## Reading a table back -/

theorem flag_bound (record : Record) : record.flag < 2 ^ 32 := by
  unfold Record.flag
  split <;> decide

theorem ofBytes_toFlash {record : Record} {offset : Nat}
    (bound : offset + record.value.length < flashSectorSize) :
    NameFlash.ofBytes (record.toFlash offset).toBytes = record.toFlash offset := by
  simp only [flashSectorSize] at bound
  exact NameFlash.ofBytes_toBytes (flag_bound record) (by simp only [Record.toFlash]; omega)
    (by simp only [Record.toFlash]; omega)

theorem readNames_blank {flash : Flash} {addr count : Nat}
    (held : Holds flash.cells addr (blank (perNameFlashSize * count))) :
    flash.readNames addr count = List.replicate count freeName := by
  induction count generalizing addr with
  | zero => rfl
  | succ count ih =>
    have split : perNameFlashSize * (count + 1) = perNameFlashSize + perNameFlashSize * count := by
      rw [Nat.mul_succ, Nat.add_comm]
    rw [split, blank_add, holds_append, blank_length] at held
    obtain ⟨first, rest⟩ := held
    simp only [Flash.readNames, Flash.ddevRead, first.read_of_length (blank_length _), ih rest,
      List.replicate_succ, freeName]

theorem readNames_table {flash : Flash} {addr offset count : Nat} {records : List Record}
    (named : ∀ record ∈ records, record.key.strlen ≤ nameLimit)
    (short : offset + valueBytes records < flashSectorSize)
    (held : Holds flash.cells addr
      (tableBytes (tableFrom offset records) ++ blank (perNameFlashSize * count))) :
    flash.readNames addr (records.length + count) =
      tableFrom offset records ++ List.replicate count freeName := by
  induction records generalizing addr offset with
  | nil => simpa [tableFrom] using readNames_blank held
  | cons record rest ih =>
    have width := toFlash_bytes_length offset (named record (by simp))
    rw [valueBytes_cons] at short
    simp only [tableBytes, tableFrom, List.flatMap_cons, List.append_assoc] at held
    rw [holds_append, width] at held
    obtain ⟨first, later⟩ := held
    have tail := ih (fun r member => named r (by simp [member])) (by omega) later
    have here : NameFlash.ofBytes (flash.ddevRead perNameFlashSize addr) = record.toFlash offset := by
      rw [Flash.ddevRead, first.read_of_length width, ofBytes_toFlash (by omega)]
    have total : rest.length + 1 + count = rest.length + count + 1 := by omega
    rw [List.length_cons, total]
    simp only [Flash.readNames, here, tail, tableFrom, List.cons_append]

/-- Reading the whole name sector of a log. -/
theorem readNames_sector {flash : Flash} {addr : Nat} {log : NameLog}
    (held : Holds flash.cells addr (nameSector log.records)) :
    flash.readNames addr flashNameMaxArray =
      tableFrom 0 log.records ++ List.replicate (flashNameMaxArray - log.records.length) freeName := by
  have few := log.few
  have rest : flashSectorSize - perNameFlashSize * log.records.length =
      perNameFlashSize * (flashNameMaxArray - log.records.length) := by
    simp only [flashSectorSize, perNameFlashSize, flashNameMaxArray] at *; omega
  rw [nameSector, rest] at held
  have short := log.short
  have read := readNames_table log.named (by omega) held
  rwa [Nat.add_sub_cancel' few] at read

/-! ## The scans over a table -/

theorem freeName_flag : freeName.dwUsingFlag ≠ flashSpaceUsing ∧ freeName.dwUsingFlag ≠ flashSpaceMask := by
  decide

/-- The two comparisons of the name scan decide whether a record is the live one of that name. -/
theorem toFlash_matches {record : Record} (named : record.key.strlen ≤ nameLimit) (name : CString)
    (offset : Nat) (rest : List UInt8) :
    ((record.toFlash offset).dwUsingFlag = flashSpaceUsing ∧
        memcmpEq (record.toFlash offset).ucName name (bkStrnlen name (nameWidth - 1)) = true ∧
        strlenAt ((record.toFlash offset).ucName ++ rest) = name.strlen) ↔
      record.hits name = true := by
  have texts := field_matches name rest (show nameLimit < nameWidth by decide) named
  have flag : record.flag = flashSpaceUsing ↔ record.live = true := by
    cases live : record.live <;> simp [Record.flag, live, flashSpaceUsing, flashSpaceMask]
  rw [Entry.hits_iff, ← texts]
  exact and_congr_left' flag

theorem findName_step {record : Record} (named : record.key.strlen ≤ nameLimit) (name : CString)
    (offset dwLoop : Nat) (rest : List NameFlash) :
    findName name (record.toFlash offset :: rest) dwLoop =
      if record.hits name = true then some (dwLoop * perNameFlashSize, offset)
      else findName name rest (dwLoop + 1) := by
  have decides := toFlash_matches named name offset (rest.flatMap NameFlash.toBytes)
  rw [findName]
  by_cases hit : record.hits name = true
  · obtain ⟨used, same, long⟩ := decides.mpr hit
    rw [if_neg (not_not.mpr used), if_pos same, if_neg (not_not.mpr long), if_pos hit]
    rfl
  · rw [if_neg hit]
    split_ifs with unused same long
    · rfl
    · rfl
    · exact absurd (decides.mp ⟨not_not.mp unused, same, not_not.mp long⟩) hit
    · rfl

theorem findName_free (name : CString) (count dwLoop : Nat) :
    findName name (List.replicate count freeName) dwLoop = none := by
  induction count generalizing dwLoop with
  | zero => rfl
  | succ count ih =>
    rw [List.replicate_succ, findName, if_pos freeName_flag.1, ih]

theorem findName_skip {before : List Record} {name : CString}
    (named : ∀ record ∈ before, record.key.strlen ≤ nameLimit)
    (miss : ∀ record ∈ before, record.hits name = false) (offset dwLoop : Nat) (rest : List NameFlash) :
    findName name (tableFrom offset before ++ rest) dwLoop =
      findName name rest (dwLoop + before.length) := by
  induction before generalizing offset dwLoop with
  | nil => rfl
  | cons record before ih =>
    have other := miss record (by simp)
    have tail := ih (fun r member => named r (by simp [member]))
      (fun r member => miss r (by simp [member])) (offset + record.value.length) (dwLoop + 1)
    rw [tableFrom, List.cons_append, findName_step (named record (by simp)), if_neg (by simp [other]),
      tail, List.length_cons]
    congr 1
    omega

/-- The name scan stops at the first live record of the name. -/
theorem findName_found {before after : List Record} {record : Record} {name : CString}
    (named : ∀ r ∈ before ++ record :: after, r.key.strlen ≤ nameLimit)
    (miss : ∀ r ∈ before, r.hits name = false) (hit : record.hits name = true) (rest : List NameFlash) :
    findName name (tableFrom 0 (before ++ record :: after) ++ rest) 0 =
      some (before.length * perNameFlashSize, valueBytes before) := by
  have early : ∀ r ∈ before, r.key.strlen ≤ nameLimit := fun r member => named r (by simp [member])
  rw [tableFrom_append, List.append_assoc, findName_skip early miss, tableFrom, List.cons_append,
    findName_step (named record (by simp)), if_pos hit]
  simp

/-- The free-record scan runs past a whole table and adds up its values. -/
theorem scanFree_table (records : List Record) (offset dwLoop dwMaskCount : Nat) (rest : List NameFlash)
    (short : offset + valueBytes records < flashSectorSize) :
    scanFree (tableFrom offset records ++ rest) dwLoop offset dwMaskCount =
      scanFree rest (dwLoop + records.length) (offset + valueBytes records)
        (dwMaskCount + (records.filter fun record => !record.live).length) := by
  induction records generalizing offset dwLoop dwMaskCount with
  | nil => rfl
  | cons record records ih =>
    rw [valueBytes_cons] at short
    have next := ih (offset + record.value.length) (dwLoop + 1)
      (if record.flag = flashSpaceMask then dwMaskCount + 1 else dwMaskCount) (by omega)
    have wrap : (offset + record.value.length) % 2 ^ 32 = offset + record.value.length :=
      Nat.mod_eq_of_lt (by simp only [flashSectorSize] at short; omega)
    have taken : ¬(record.flag ≠ flashSpaceUsing ∧ record.flag ≠ flashSpaceMask) := by
      cases live : record.live <;> simp [Record.flag, live]
    simp only [tableFrom, List.cons_append, scanFree, Record.toFlash] at next ⊢
    rw [if_neg taken, wrap, next, List.length_cons, valueBytes_cons]
    congr 1
    · omega
    · omega
    · cases live : record.live
      · simp [Record.flag, live]; omega
      · simp [Record.flag, live, flashSpaceUsing, flashSpaceMask]

theorem scanFree_sector (log : NameLog) :
    scanFree (tableFrom 0 log.records ++
        List.replicate (flashNameMaxArray - log.records.length) freeName) 0 0 0 =
      if log.records.length < flashNameMaxArray then
        .free log.records.length (valueBytes log.records)
      else .full (log.records.filter fun record => !record.live).length := by
  have short := log.short
  have few := log.few
  rw [scanFree_table log.records 0 0 0 _ (by omega)]
  simp only [Nat.zero_add]
  split
  next room =>
    obtain ⟨left, same⟩ := Nat.exists_eq_succ_of_ne_zero (show flashNameMaxArray - log.records.length ≠ 0 by omega)
    rw [same, List.replicate_succ, scanFree, if_pos freeName_flag]
  next full =>
    have none : flashNameMaxArray - log.records.length = 0 := by omega
    rw [none, List.replicate_zero, scanFree]

theorem hasDead_iff (log : NameLog) :
    (log.records.filter fun record => !record.live).length > 0 ↔ log.hasDead = true := by
  simp [NameLog.hasDead, List.length_pos_iff, List.filter_eq_nil_iff]

end BekenSdk.KeyValue
