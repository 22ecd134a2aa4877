import BekenSdk.KeyValue.FitTest

/-! The staging buffer of an update: the old value is read into `data_buf`, but the write that stored it was only held to
the room in its sector. Over runs of writes, no stored value outgrows the buffer and no fit test wraps just when every
value of more than 2048 bytes is turned away.
-/

set_option autoImplicit false

namespace BekenSdk.KeyValue
open BekenSdk.Base

/-! ## What is claimed -/

/-- The records in use of the namespaces in use. -/
def usedRecords (part : BkLogicPartition) (flash : Flash) : List NameFlash :=
  ((flash.readNamespaces part.partitionStartAddr part.slots).filter fun entry =>
      entry.dwUsingFlag = flashSpaceUsing).flatMap fun entry =>
    (flash.readNames (part.partitionStartAddr + entry.dwOffsetByByte) flashNameMaxArray).filter isUsing

/-- No stored value is longer than the buffer an update reads it into. -/
def Staged (part : BkLogicPartition) (flash : Flash) : Prop :=
  ∀ record ∈ usedRecords part flash, record.dwlength ≤ dataBufSize

def Call.fitSums (table : BkPartitions) (malloc : OsMalloc) (flash : Flash) : Call → List Nat
  | .writeData ns name indata => writeDataSums table malloc ns name indata flash
  | _ => []

def Call.isWrite : Call → Bool
  | .writeData _ _ _ => true
  | _ => false

/-! ## When a write is turned away -/

def isRecorded (record : NameFlash) : Bool := isUsing record || record.dwUsingFlag = flashSpaceMask

section
variable (table : BkPartitions) (malloc : OsMalloc) (flash : Flash) (ns name : CString)

/-- The records of the namespace, if the lookup of the call reports it. -/
def seenNames : List NameFlash :=
  match lookupNamespace table malloc flash ns with
  | none => []
  | some found => flash.readNames (getMatterFlashBaseAddr table ns + found.1) flashNameMaxArray

/-- The used records other than the one the write masks. -/
def keptNames : List NameFlash :=
  let kept :=
    match lookupName table malloc flash ns name with
    | none => seenNames table malloc flash ns
    | some found => (seenNames table malloc flash ns).eraseIdx (found.1 / perNameFlashSize)
  kept.filter isUsing

/-- The used and the masked records. -/
def recordedNames : List NameFlash := (seenNames table malloc flash ns).filter isRecorded

def lengths (records : List NameFlash) : Nat := (records.map NameFlash.dwlength).sum

/-- The write has a slot, its buffers and, after compaction, a free record. -/
structure Admitted : Prop where
  slot : lookupNamespace table malloc flash ns ≠ none ∨
    malloc .setNamespace = true ∧ directoryFree table flash ns = true
  nameTemp : malloc .nameTemp = true
  dataBuff : malloc .dataBuff = true
  record : (keptNames table malloc flash ns name).length < flashNameMaxArray

/-- The bytes before a value that is appended. -/
def bytesBefore : Nat :=
  if (recordedNames table malloc flash ns).length < flashNameMaxArray then
    lengths (recordedNames table malloc flash ns)
  else lengths (keptNames table malloc flash ns name)

/-- The value fits the buffer, or the write is turned away: for want of a slot, memory or a record, or for want of room,
which a length near 2^32 is not. -/
def Contained (len : Nat) : Prop :=
  len ≤ dataBufSize ∨ ¬ Admitted table malloc flash ns name ∨
    flashSectorSize ≤ lengths (keptNames table malloc flash ns name) + len ∧
      bytesBefore table malloc flash ns name + len < 2 ^ 32

end

def Call.Contained (table : BkPartitions) (malloc : OsMalloc) (flash : Flash) : Call → Prop
  | .writeData (some ns) (some name) (some indata) => ns ≠ chipFactory →
    ∀ ns' name', changeNamespaceToBeken ns (some (some name)) = some (ns', some name') →
      KeyValue.Contained table malloc flash ns' name' indata.bytes.length
  | _ => True

/-! ## Short logs -/

namespace NameLog
variable {malloc : OsMalloc} {log result : NameLog} {key : CString} {value : List UInt8} {status : OSStatus}

/-- Every live value fits the staging buffer. -/
def Short (log : NameLog) : Prop := ∀ record ∈ Log.compact log.records, record.value.length ≤ dataBufSize

theorem short_empty : empty.Short := fun _ member => absurd member List.not_mem_nil

theorem Short.lookup (short : log.Short) (found : log.lookupWith malloc key = some value) :
    value.length ≤ dataBufSize := by
  obtain ⟨before, record, after, split, -, live, -, rfl⟩ := Log.lookup_some (lookup_of_lookupWith found)
  refine short record (List.mem_filter.mpr ⟨?_, live⟩)
  rw [split]
  exact List.mem_append_right _ List.mem_cons_self

theorem compact_bury_sublist (key : CString) (records : List Record) :
    (Log.compact (Log.bury key records)).Sublist (Log.compact records) := by
  induction records with
  | nil => exact List.Sublist.refl _
  | cons record rest ih =>
    unfold Log.bury
    split
    next hit =>
      have live : record.live = true := (Entry.hits_iff.mp hit).1
      simp only [Log.compact, List.filter_cons, Entry.kill, live, if_true, Bool.false_eq_true, if_false]
      exact List.sublist_cons_self _ _
    next =>
      simp only [Log.compact, List.filter_cons]
      split
      · exact ih.cons_cons _
      · exact ih

theorem Short.masked (short : log.Short) (malloc : OsMalloc) (key : CString) : (log.masked malloc key).Short := by
  unfold NameLog.masked
  split
  · exact fun record member => short record ((compact_bury_sublist key log.records).subset member)
  · exact short

/-- An append keeps a log short unless it stores a long value. -/
theorem Short.append_iff (short : log.Short) (named : key.strlen ≤ nameLimit)
    (appended : log.append malloc key value = (status, result)) :
    result.Short ↔ value.length ≤ dataBufSize ∨
      ¬ ((malloc .nameTemp && malloc .dataBuff) = true ∧ log.Takes value) := by
  have stored : (log.append malloc key value).1 = .kNoErr ↔
      (malloc .nameTemp && malloc .dataBuff) = true ∧ log.Takes value := append_status malloc named
  rw [appended] at stored
  rw [← stored]
  rcases append_cases appended with ⟨rfl, kept, same, records⟩ | ⟨rfl, same⟩
  · have compacted : Log.compact result.records = Log.compact log.records ++ [⟨true, key, value⟩] := by
      rw [records]
      rcases same with rfl | rfl <;> simp [Log.compact, List.filter_append]
    unfold Short
    rw [compacted]
    constructor
    · intro all
      exact .inl (all _ (List.mem_append_right _ List.mem_cons_self))
    · rintro (fits | impossible) record member
      · rcases List.mem_append.mp member with old | new
        · exact short record old
        · rw [List.mem_singleton.mp new]
          exact fits
      · exact absurd rfl impossible
  · have compacted : Log.compact result.records = Log.compact log.records := by
      rcases same with same | same <;> simp [same]
    refine iff_of_true ?_ (.inr (by simp))
    unfold Short
    rw [compacted]
    exact short

theorem Short.write_iff (short : log.Short) (written : log.write malloc key value = some (status, result)) :
    result.Short ↔ value.length ≤ dataBufSize ∨
      ¬ ((malloc .nameTemp && malloc .dataBuff) = true ∧ (log.masked malloc key).Takes value) := by
  rcases write_cases written with ⟨same, -, rfl⟩ | ⟨old, found, -, appended⟩ | ⟨absent, appended⟩
  · exact iff_of_true short (.inl (short.lookup same))
  · have masked : log.masked malloc key = log.bury key := by rw [NameLog.masked, found]
    obtain ⟨_, record, _, split, _, _, here, _⟩ := Log.lookup_some (lookup_of_lookupWith found)
    have named : key.strlen ≤ nameLimit :=
      here ▸ log.named record (split ▸ List.mem_append_right _ List.mem_cons_self)
    rw [masked]
    exact (masked ▸ short.masked malloc key).append_iff named appended
  · have masked : log.masked malloc key = log := by rw [NameLog.masked, absent]
    rw [masked]
    exact short.append_iff (CString.truncate_strlen_le _ _) appended

end NameLog

/-! ## Short directories -/

namespace Directory
variable {malloc : OsMalloc} {dir result : Directory} {ns name : CString} {value : List UInt8} {status : OSStatus}

def Short (dir : Directory) : Prop := ∀ slot, (dir.logAt slot).Short

theorem short_free (count : Nat) : Short (List.replicate count .free) := by
  intro slot
  have free : logAt (List.replicate count .free) slot = .empty := by
    unfold logAt
    simp only [List.getD_eq_getElem?_getD, List.getElem?_replicate]
    split <;> rfl
  rw [free]
  exact NameLog.short_empty

theorem Short.seen (short : dir.Short) (malloc : OsMalloc) (ns : CString) : (dir.seenLog malloc ns).Short := by
  unfold seenLog
  cases dir.findWith malloc ns with
  | none => exact NameLog.short_empty
  | some slot => exact short slot

/-- Where one log changes, the directory stays short if that one does. -/
theorem Short.changed_iff (short : dir.Short) {slot : Nat} {log : NameLog}
    (logs : ∀ other, result.logAt other = if other = slot then log else dir.logAt other) :
    result.Short ↔ log.Short := by
  constructor
  · intro all
    have here := all slot
    rwa [logs, if_pos rfl] at here
  · intro here other
    rw [logs]
    split
    · exact here
    · exact short other

/-- A write keeps a directory short unless it stores a long value. -/
theorem Short.write_iff (short : dir.Short) (written : dir.write malloc ns name value = some (status, result)) :
    result.Short ↔ value.length ≤ dataBufSize ∨ ¬ (dir.Slotted malloc ns ∧
      (malloc .nameTemp && malloc .dataBuff) = true ∧ ((dir.seenLog malloc ns).masked malloc name).Takes value) := by
  unfold write at written
  cases found : dir.findWith malloc ns with
  | some slot =>
    rw [found] at written
    obtain ⟨⟨status', log⟩, stored, same⟩ := Option.map_eq_some_iff.mp written
    obtain ⟨rfl, rfl⟩ := Prod.mk.inj same
    obtain ⟨_, _, used, -⟩ := find_some (findWith_some found)
    have slotted : dir.Slotted malloc ns := .inl (by simp [found])
    rw [short.changed_iff fun other => logAt_setLog used, (short slot).write_iff stored, seenLog_found found]
    simp only [slotted, true_and]
  | none =>
    rw [slotted_missing found, seenLog_missing found]
    rw [found] at written
    cases allocated : dir.allocate malloc ns with
    | none =>
      rw [allocated] at written
      obtain ⟨rfl, rfl⟩ := Prod.mk.inj (Option.some.inj written)
      exact iff_of_true short (.inr fun all => all.1 rfl)
    | some claimed =>
      obtain ⟨slot, fresh⟩ := claimed
      rw [allocated] at written
      obtain ⟨free, rfl⟩ := allocate_some allocated
      have inside := (List.getElem?_eq_some_iff.mp free).1
      have used : (dir.set slot (.used (.of ns) .empty))[slot]? = some (.used (.of ns) .empty) :=
        List.getElem?_set_self inside
      obtain ⟨⟨status', log⟩, stored, same⟩ := Option.map_eq_some_iff.mp written
      obtain ⟨rfl, rfl⟩ := Prod.mk.inj same
      rw [logAt_used used] at stored
      have logs : ∀ other, (setLog (dir.set slot (.used (.of ns) .empty)) slot log).logAt other =
          if other = slot then log else dir.logAt other := by
        intro other
        rw [logAt_setLog used, logAt_set inside]
        split <;> rfl
      rw [short.changed_iff logs, NameLog.short_empty.write_iff stored]
      simp

end Directory

/-! ## What the sectors say -/

section
variable {table : BkPartitions} {malloc : OsMalloc} {flash : Flash} {part : BkLogicPartition} {dir : Directory}
  {ns name : CString}

theorem mem_entriesFrom {entry : NamespaceFlash} (slot : Nat) (dir : Directory) :
    entry ∈ entriesFrom slot dir ↔
      ∃ (index : Nat) (content : Slot), dir[index]? = some content ∧ entry = content.entry (slot + index) := by
  induction dir generalizing slot with
  | nil => simp [entriesFrom]
  | cons content rest ih =>
    rw [entriesFrom, List.mem_cons, ih]
    constructor
    · rintro (rfl | ⟨index, later, here, rfl⟩)
      · exact ⟨0, content, rfl, rfl⟩
      · exact ⟨index + 1, later, here, by rw [Nat.add_assoc, Nat.add_comm 1]⟩
    · rintro ⟨index, later, here, rfl⟩
      cases index with
      | zero =>
        obtain rfl := Option.some.inj here
        exact .inl rfl
      | succ index => exact .inr ⟨index, later, here, by rw [Nat.add_assoc, Nat.add_comm 1]⟩

theorem sector_short {pair : SectorPair} {log : NameLog} (held : HoldsLog pair flash.cells log) :
    (∀ record ∈ (flash.readNames pair.nameAddr flashNameMaxArray).filter isUsing, record.dwlength ≤ dataBufSize) ↔
      log.Short := by
  have lengths := using_sector log.records (flashNameMaxArray - log.records.length)
  rw [← readNames_log held] at lengths
  unfold NameLog.Short
  rw [← List.forall_mem_map (f := NameFlash.dwlength) (P := (· ≤ dataBufSize)), lengths, List.forall_mem_map]

/-- The records of the sectors are those of the logs. -/
theorem staged_iff (rep : Represents part flash.cells dir) (few : part.slots ≤ flashNameMaxArray) :
    Staged part flash ↔ dir.Short := by
  have addr : ∀ {slot : Nat} (inside : slot < part.slots),
      part.partitionStartAddr + (slotAddr slot).1 = (part.pair inside).nameAddr :=
    fun inside => (part.pair_nameAddr inside).symm
  unfold Staged usedRecords
  rw [rep.readNamespaces few]
  constructor
  · intro staged slot
    cases content : dir[slot]? with
    | none =>
      have empty : dir.logAt slot = .empty := by
        rw [Directory.logAt, List.getD_eq_getElem?_getD, content]
        rfl
      rw [empty]
      exact NameLog.short_empty
    | some held =>
      cases held with
      | free =>
        have empty : dir.logAt slot = .empty := by
          rw [Directory.logAt, List.getD_eq_getElem?_getD, content]
          rfl
        rw [empty]
        exact NameLog.short_empty
      | used nsName log =>
        have inside : slot < part.slots := rep.size ▸ (List.getElem?_eq_some_iff.mp content).1
        refine (sector_short (rep.logs slot inside)).1 fun record member => staged record ?_
        refine List.mem_flatMap.mpr ⟨Slot.entry slot (.used nsName log), List.mem_filter.mpr ⟨?_, rfl⟩, ?_⟩
        · exact (mem_entriesFrom 0 dir).2 ⟨slot, _, content, by rw [Nat.zero_add]⟩
        · rw [← addr inside] at member
          exact member
  · intro short record member
    obtain ⟨entry, listed, inSector⟩ := List.mem_flatMap.mp member
    obtain ⟨listed, flag⟩ := List.mem_filter.mp listed
    obtain ⟨slot, content, here, rfl⟩ := (mem_entriesFrom 0 dir).1 listed
    cases content with
    | free => exact absurd (of_decide_eq_true flag) freeNamespace_flag
    | used nsName log =>
      have inside : slot < part.slots := rep.size ▸ (List.getElem?_eq_some_iff.mp here).1
      refine (sector_short (rep.logs slot inside)).2 (short slot) record ?_
      rw [Nat.zero_add] at inSector
      rw [← addr inside]
      exact inSector

theorem recorded_table (records : List Record) (count : Nat) :
    (tableFrom 0 records ++ List.replicate count freeName).filter isRecorded = tableFrom 0 records := by
  have free : (List.replicate count freeName).filter isRecorded = [] := by
    refine List.filter_eq_nil_iff.mpr fun record member => ?_
    rw [List.eq_of_mem_replicate member]
    decide
  have recorded : ∀ offset, (tableFrom offset records).filter isRecorded = tableFrom offset records := by
    induction records with
    | nil => exact fun _ => rfl
    | cons record rest ih =>
      intro offset
      have flag : isRecorded (record.toFlash offset) = true := by
        cases live : record.live <;> simp [isRecorded, isUsing, Record.toFlash, Record.flag, live]
      rw [tableFrom, List.filter_cons_of_pos flag, ih]
  rw [List.filter_append, free, recorded, List.append_nil]

theorem table_dwlengths (offset : Nat) (records : List Record) :
    (tableFrom offset records).map NameFlash.dwlength = records.map fun record => record.value.length := by
  induction records generalizing offset with
  | nil => rfl
  | cons record rest ih =>
    rw [tableFrom, List.map_cons, ih, List.map_cons]
    rfl

/-- What the sectors say of a write is what the log it sees says. -/
theorem seen_spec (rep : Represents part flash.cells dir) (fits : part.Fits) (here : table.ofNamespace ns = part)
    (name : CString) :
    (keptNames table malloc flash ns name).map NameFlash.dwlength =
        ((Log.compact ((dir.seenLog malloc ns).masked malloc name).records).map fun record => record.value.length) ∧
      (recordedNames table malloc flash ns).map NameFlash.dwlength =
        ((dir.seenLog malloc ns).records.map fun record => record.value.length) := by
  have search : lookupNamespace table malloc flash ns = (dir.findWith malloc ns).map slotAddr :=
    lookupNamespace_spec here fits rep
  unfold keptNames recordedNames lookupName seenNames
  rw [search]
  cases found : dir.findWith malloc ns with
  | none =>
    rw [Directory.seenLog_missing found]
    have absent : NameLog.empty.lookupWith malloc name = none := by
      unfold NameLog.lookupWith
      split <;> rfl
    rw [NameLog.masked, absent]
    exact ⟨rfl, rfl⟩
  | some slot =>
    have inside := rep.find_inside (findWith_some found).2
    have held := rep.logs slot inside
    have addr : getMatterFlashBaseAddr table ns + (slotAddr slot).1 = (part.pair inside).nameAddr := by
      rw [getMatterFlashBaseAddr, here]
      exact (part.pair_nameAddr inside).symm
    rw [Directory.seenLog_found found]
    simp only [Option.map_some, Option.bind_some, addr, readNames_log held]
    constructor
    · rcases sector_spec malloc held name with ⟨absent, missing⟩ | ⟨before, record, after, located, stored, index⟩
      · rw [missing, NameLog.masked, absent]
        exact using_sector _ _
      · rw [index, NameLog.masked, stored]
        simp only [Nat.mul_div_cancel _ (by decide : 0 < perNameFlashSize)]
        exact using_replaced located _
    · rw [recorded_table, table_dwlengths]

theorem admitted_iff (rep : Represents part flash.cells dir) (fits : part.Fits) (here : table.ofNamespace ns = part)
    (name : CString) :
    Admitted table malloc flash ns name ↔
      dir.Slotted malloc ns ∧ ((dir.seenLog malloc ns).masked malloc name).Tests malloc := by
  have search : lookupNamespace table malloc flash ns = (dir.findWith malloc ns).map slotAddr :=
    lookupNamespace_spec here fits rep
  have slot : (lookupNamespace table malloc flash ns ≠ none ∨
      malloc .setNamespace = true ∧ directoryFree table flash ns = true) ↔ dir.Slotted malloc ns := by
    rw [search, directoryFree_iff rep fits here, Directory.Slotted, Ne, Option.map_eq_none_iff]
  have count : (keptNames table malloc flash ns name).length =
      (Log.compact ((dir.seenLog malloc ns).masked malloc name).records).length := by
    rw [← List.length_map NameFlash.dwlength, (seen_spec rep fits here name).1, List.length_map]
  constructor
  · intro admitted
    exact ⟨slot.1 admitted.slot, by rw [admitted.nameTemp, admitted.dataBuff]; rfl, count ▸ admitted.record⟩
  · rintro ⟨slotted, buffers, record⟩
    obtain ⟨nameTemp, dataBuff⟩ := Bool.and_eq_true_iff.mp buffers
    exact ⟨slot.2 slotted, nameTemp, dataBuff, count ▸ record⟩

/-- The condition on the sectors, in terms of the log. -/
theorem contained_iff (rep : Represents part flash.cells dir) (fits : part.Fits) (here : table.ofNamespace ns = part)
    (name : CString) (len : Nat) :
    Contained table malloc flash ns name len ↔ len ≤ dataBufSize ∨
      ¬ (dir.Slotted malloc ns ∧ ((dir.seenLog malloc ns).masked malloc name).Tests malloc) ∨
      flashSectorSize ≤ valueBytes (Log.compact ((dir.seenLog malloc ns).masked malloc name).records) + len ∧
        ((dir.seenLog malloc ns).masked malloc name).testOffset + len < 2 ^ 32 := by
  obtain ⟨kept, recorded⟩ := @seen_spec _ malloc _ _ _ _ rep fits here name
  have keptBytes : lengths (keptNames table malloc flash ns name) =
      valueBytes (Log.compact ((dir.seenLog malloc ns).masked malloc name).records) := by
    rw [lengths, kept]
    rfl
  have recordedBytes : lengths (recordedNames table malloc flash ns) = valueBytes (dir.seenLog malloc ns).records := by
    rw [lengths, recorded]
    rfl
  have count : (recordedNames table malloc flash ns).length = (dir.seenLog malloc ns).records.length := by
    rw [← List.length_map NameFlash.dwlength, recorded, List.length_map]
  obtain ⟨sameCount, sameBytes⟩ := (dir.seenLog malloc ns).masked_sizes malloc name
  unfold Contained bytesBefore NameLog.testOffset
  rw [admitted_iff rep fits here name, keptBytes, recordedBytes, count, sameCount, sameBytes]

/-! ## One write -/

variable {indata : Buffer} {ns' name' : CString}

theorem inWord_of_contained (rep : Represents table.matterFlash flash.cells dir) (fits : table.matterFlash.Fits)
    (short : dir.Short) (ordinary : ns ≠ chipFactory)
    (translation : changeNamespaceToBeken ns (some (some name)) = some (ns', some name'))
    (contained : Contained table malloc flash ns' name' indata.bytes.length) :
    InWord (writeDataSums table malloc (some ns) (some name) (some indata) flash) := by
  have here : table.ofNamespace ns' = table.matterFlash := by
    rw [ofNamespace_eq, changeNamespaceToBeken_partition translation, partitionOf_matter ordinary]
    rfl
  obtain ⟨slottedSums, unslottedSums⟩ := @writeDataSums_spec _ _ _ indata _ _ _ _ _ rep fits ordinary translation
    (fun old found => (short.seen malloc ns').lookup found) _ rfl
  rw [contained_iff rep fits here] at contained
  by_cases slotted : dir.Slotted malloc ns'
  · rw [slottedSums slotted]
    split
    · exact fun sum member => absurd member List.not_mem_nil
    · rcases contained with fits | refused | ⟨-, word⟩
      · intro sum member
        have bound := NameLog.appendSums_bound sum member
        simp only [dataBufSize, flashSectorSize] at fits bound
        omega
      · exact NameLog.appendSums_inWord.2 fun tests => absurd ⟨slotted, tests⟩ refused
      · exact NameLog.appendSums_inWord.2 fun _ => word
  · rw [unslottedSums slotted]
    exact fun sum member => absurd member List.not_mem_nil

/-- A write whose sums do not wrap leaves a directory, which is short just when the write was contained. -/
theorem staged_of_inWord {status : OSStatus} {after : Flash} (rep : Represents table.matterFlash flash.cells dir)
    (fits : table.matterFlash.Fits) (short : dir.Short) (ordinary : ns ≠ chipFactory)
    (translation : changeNamespaceToBeken ns (some (some name)) = some (ns', some name'))
    (word : InWord (writeDataSums table malloc (some ns) (some name) (some indata) flash))
    (returned : bkWriteData table malloc (some ns) (some name) (some indata) flash = .done status after) :
    ∃ result, Represents table.matterFlash after.cells result ∧
      (result.Short ↔ Contained table malloc flash ns' name' indata.bytes.length) := by
  have here : table.ofNamespace ns' = table.matterFlash := by
    rw [ofNamespace_eq, changeNamespaceToBeken_partition translation, partitionOf_matter ordinary]
    rfl
  rw [bkWriteData_brief word] at returned
  have agrees : Agrees table.matterFlash.area (Represents table.matterFlash) flash
      (bkWriteData table malloc (some ns) (some name) (some indata.brief) flash)
      (dir.write malloc ns' name' indata.brief.bytes) := by
    simp only [bkWriteData, if_neg ordinary, translation, getMatterFlashBaseAddr, here]
    exact write_spec rep fits.few here indata.brief_sane
  rw [returned] at agrees
  obtain ⟨result, written, rep', -⟩ := agrees.returned
  refine ⟨result, rep', ?_⟩
  rw [short.write_iff written, contained_iff rep fits here]
  obtain ⟨slottedSums, -⟩ := @writeDataSums_spec _ _ _ indata _ _ _ _ _ rep fits ordinary translation
    (fun old found => (short.seen malloc ns').lookup found) _ rfl
  have compacted : valueBytes (Log.compact ((dir.seenLog malloc ns').masked malloc name').records) < flashSectorSize :=
    ((dir.seenLog malloc ns').masked malloc name').compact.short
  unfold NameLog.Tests NameLog.Takes
  rw [indata.brief_length]
  by_cases long : indata.bytes.length ≤ dataBufSize
  · refine iff_of_true (.inl ?_) (.inl long)
    exact Nat.le_trans (Nat.min_le_right _ _) long
  · have briefLong : ¬ min flashSectorSize indata.bytes.length ≤ dataBufSize := by
      simp only [flashSectorSize, dataBufSize] at long ⊢
      omega
    have room : valueBytes (Log.compact ((dir.seenLog malloc ns').masked malloc name').records) +
        min flashSectorSize indata.bytes.length < flashSectorSize ↔
        ¬ flashSectorSize ≤ valueBytes (Log.compact ((dir.seenLog malloc ns').masked malloc name').records) +
          indata.bytes.length := by
      omega
    have tested : dir.Slotted malloc ns' → ((dir.seenLog malloc ns').masked malloc name').Tests malloc →
        ((dir.seenLog malloc ns').masked malloc name').testOffset + indata.bytes.length < 2 ^ 32 := by
      intro slotted
      rw [slottedSums slotted, if_neg fun same => long ((short.seen malloc ns').lookup same)] at word
      exact NameLog.appendSums_inWord.1 word
    rw [room]
    constructor
    · rintro (brief | refused)
      · exact absurd brief briefLong
      · by_cases tests : dir.Slotted malloc ns' ∧ ((dir.seenLog malloc ns').masked malloc name').Tests malloc
        · refine .inr (.inr ⟨?_, tested tests.1 tests.2⟩)
          exact Classical.not_not.1 fun takes => refused ⟨tests.1, tests.2.1, tests.2.2, takes⟩
        · exact .inr (.inl tests)
    · rintro (fits | refused | ⟨full, -⟩)
      · exact absurd fits long
      · exact .inr fun all => refused ⟨all.1, all.2.1, all.2.2.1⟩
      · exact .inr fun all => all.2.2.2 full

end

/-! ## Runs of writes -/

section
variable {table : BkPartitions} {start flash : Flash} {events : List Event}

/-- The sums of the event's call do not wrap. -/
def Event.InWord (table : BkPartitions) (event : Event) : Prop :=
  KeyValue.InWord (event.call.fitSums table event.malloc event.before)

def Event.Contained (table : BkPartitions) (event : Event) : Prop :=
  event.call.Contained table event.malloc event.before

/-- A call that is refused before any lookup. -/
theorem staged_of_refused {event : Event} {after : Flash} {dir : Directory}
    (rep : Represents table.matterFlash flash.cells dir) (short : dir.Short) (same : after = flash)
    (nothing : event.call.fitSums table event.malloc event.before = []) (contained : event.Contained table) :
    (event.Contained table → event.InWord table) ∧
      (event.InWord table → ∃ result, Represents table.matterFlash after.cells result ∧
        (result.Short ↔ event.Contained table)) := by
  subst same
  refine ⟨fun _ => ?_, fun _ => ⟨dir, rep, iff_of_true short contained⟩⟩
  rw [Event.InWord, nothing]
  exact fun sum member => absurd member List.not_mem_nil

/-- One write from a short directory. -/
theorem Called.staged {event : Event} {after : Flash} {dir : Directory} (called : Called table flash event after)
    (fits : table.matterFlash.Fits) (rep : Represents table.matterFlash flash.cells dir) (short : dir.Short)
    (write : event.call.isWrite = true) :
    (event.Contained table → event.InWord table) ∧
      (event.InWord table → ∃ result, Represents table.matterFlash after.cells result ∧
        (result.Short ↔ event.Contained table)) := by
  obtain ⟨before, malloc, call, reply⟩ := event
  obtain ⟨rfl, run⟩ := called
  have unchanged : ∀ {ns name : Option CString} {indata : Option Buffer},
      (Call.writeData ns name indata).run table malloc before = .done reply after →
      bkWriteData table malloc ns name indata before = .done .kGeneralErr before → after = before := by
    intro ns name indata returned refused
    rw [Call.run, refused] at returned
    exact (Outcome.done.inj returned).2.symm
  cases call with
  | writeData ns name indata =>
    cases ns with
    | none => exact staged_of_refused rep short (unchanged run rfl) rfl trivial
    | some ns =>
      cases name with
      | none => exact staged_of_refused rep short (unchanged run rfl) rfl trivial
      | some name =>
        cases indata with
        | none => exact staged_of_refused rep short (unchanged run rfl) rfl trivial
        | some indata =>
          by_cases factory : ns = chipFactory
          · refine staged_of_refused rep short (unchanged run ?_) ?_ fun ordinary => absurd factory ordinary
            · rw [bkWriteData, if_pos factory]
            · rw [Call.fitSums, writeDataSums, if_pos factory]
          cases translation : changeNamespaceToBeken ns (some (some name)) with
          | none =>
            simp only [Call.run, bkWriteData, if_neg factory, translation] at run
            cases run
          | some key =>
            obtain ⟨ns', name'⟩ := key
            obtain ⟨text, rfl⟩ := changeNamespaceToBeken_name translation
            have contained : Event.Contained table ⟨before, malloc, .writeData (some ns) (some name) (some indata), reply⟩ ↔
                Contained table malloc before ns' text indata.bytes.length := by
              constructor
              · intro all
                exact all factory ns' text translation
              · intro here _ ns'' text' translation'
                rw [translation] at translation'
                obtain ⟨rfl, names⟩ := Prod.mk.inj (Option.some.inj translation')
                obtain rfl := Option.some.inj names
                exact here
            rw [contained]
            refine ⟨inWord_of_contained rep fits short factory translation, fun word => ?_⟩
            simp only [Call.run] at run
            cases returned : bkWriteData table malloc (some ns) (some name) (some indata) before with
            | undefined =>
              rw [returned] at run
              cases run
            | done status final =>
              rw [returned] at run
              obtain ⟨-, rfl⟩ := Outcome.done.inj run
              exact staged_of_inWord rep fits short factory translation word returned
  | cleanData | clearNamespace | ensureNamespace | ensureNameData | readData | eraseAll => cases write

/-- Over every run of writes to an erased store, no stored value outgrows the staging buffer and no fit test wraps if and
only if every write is of a value that fits the buffer or is turned away. -/
theorem staging_safe_iff (fits : table.matterFlash.Fits)
    (erased : ∀ a, table.matterFlash.within a → start.cells a = 0xFF) (run : Run (Called table) start events flash)
    (writes : ∀ event ∈ events, event.call.isWrite = true) :
    ((∀ event ∈ events, event.InWord table ∧ Staged table.matterFlash event.before) ∧ Staged table.matterFlash flash) ↔
      ∀ event ∈ events, event.Contained table := by
  have reached : ((∀ event ∈ events, event.InWord table ∧ Staged table.matterFlash event.before) ∧
        Staged table.matterFlash flash ↔ ∀ event ∈ events, event.Contained table) ∧
      ((∀ event ∈ events, event.Contained table) →
        ∃ dir, Represents table.matterFlash flash.cells dir ∧ dir.Short) := by
    induction run with
    | nil =>
      have rep := represents_erased fun a inside => erased a (fits.area_within inside)
      have short := Directory.short_free table.matterFlash.slots
      refine ⟨iff_of_true ⟨?_, (staged_iff rep fits.few).2 short⟩ ?_, fun _ => ⟨_, rep, short⟩⟩
      · exact fun event member => absurd member List.not_mem_nil
      · exact fun event member => absurd member List.not_mem_nil
    | @next past middle after event before called ih =>
      obtain ⟨earlier, kept⟩ := ih fun event member => writes event (List.mem_cons_of_mem _ member)
      have write := writes event List.mem_cons_self
      -- the step is looked at from a directory that the earlier writes left short
      have step : (∀ event ∈ past, event.Contained table) → (event.Contained table → event.InWord table) ∧
          (event.InWord table → ∃ result, Represents table.matterFlash after.cells result ∧
            (result.Short ↔ event.Contained table)) := by
        intro contained
        obtain ⟨dir, rep, short⟩ := kept contained
        exact called.staged fits rep short write
      have whole : ∀ P : Event → Prop, (∀ e ∈ event :: past, P e) ↔ P event ∧ ∀ e ∈ past, P e :=
        fun P => List.forall_mem_cons
      rw [whole, whole]
      constructor
      · rw [called.1]
        constructor
        · rintro ⟨⟨⟨word, staged⟩, all⟩, final⟩
          have contained := earlier.1 ⟨all, staged⟩
          obtain ⟨result, rep, short⟩ := (step contained).2 word
          exact ⟨short.1 ((staged_iff rep fits.few).1 final), contained⟩
        · rintro ⟨here, contained⟩
          obtain ⟨all, staged⟩ := earlier.2 contained
          obtain ⟨result, rep, short⟩ := (step contained).2 ((step contained).1 here)
          exact ⟨⟨⟨(step contained).1 here, staged⟩, all⟩, (staged_iff rep fits.few).2 (short.2 here)⟩
      · rintro ⟨here, contained⟩
        obtain ⟨result, rep, short⟩ := (step contained).2 ((step contained).1 here)
        exact ⟨result, rep, short.2 here⟩
  exact reached.1

end

/-! ## Sample runs -/

def writeBytes (len : Nat) (bound : len < 2 ^ 32) : Call :=
  .writeData (some keyA) (some keyX) (some (.filled len 7 bound))

def longFlash : Flash := ((writeBytes 2049 (by decide)).run bkFlashPartitions granted .fresh).flash

def longEvent : Event := ⟨.fresh, granted, writeBytes 2049 (by decide), .status .kNoErr⟩

theorem short_write_staged :
    ((∀ event ∈ [firstEvent], event.InWord bkFlashPartitions ∧ Staged bkFlashPartitions.matterFlash event.before) ∧
      Staged bkFlashPartitions.matterFlash firstFlash) := by
  refine (staging_safe_iff bkFlashPartitions_fits.matter (fun _ _ => rfl) (.next .nil called_first) ?_).2 ?_
  · intro event member
    rw [List.mem_singleton.mp member]
    rfl
  · intro event member
    rw [List.mem_singleton.mp member]
    exact fun _ _ _ _ => .inl (by decide)

/-- A second name is appended behind the one byte of the first. -/
theorem second_sum (data : Buffer) :
    (writeDataSums bkFlashPartitions granted (some keyA) (some fileX) (some data) firstFlash).head? =
      some (1 + data.bytes.length) := by
  have translation : changeNamespaceToBeken keyA (some (some fileX)) = some (keyA, some fileX) := by decide
  have found : getNamespaceAddr bkFlashPartitions granted keyA (getMatterFlashBaseAddr bkFlashPartitions keyA)
      firstFlash = some (4096, 0) := by decide +kernel
  have missing : getNameAddr granted (some fileX) (getMatterFlashBaseAddr bkFlashPartitions keyA + 4096) firstFlash =
      none := by decide +kernel
  have scan : scanFree (firstFlash.readNames (getMatterFlashBaseAddr bkFlashPartitions keyA + 4096) flashNameMaxArray)
      0 0 0 = .free 1 1 := by rfl
  simp only [writeDataSums, if_neg plain_keyA.factory, translation, found, setNameDataSums, missing, newAddrSums, scan,
    granted]
  rfl

/-- One write leaves a record longer than the buffer, and the next write of its name reads it there; a length of
2^32 - 1 wraps the sum of the fit test. -/
theorem long_write_stored :
    Called bkFlashPartitions .fresh longEvent longFlash ∧ ¬ Staged bkFlashPartitions.matterFlash longFlash ∧
      (bkWriteData bkFlashPartitions granted (some keyA) (some keyX) (some (.filled 1 2 (by decide))) longFlash).value? =
        none ∧
      ¬ InWord (writeDataSums bkFlashPartitions granted (some keyA) (some fileX)
        (some (.filled (2 ^ 32 - 1) 2 (by decide))) firstFlash) := by
  refine ⟨called_of_reply (by decide +kernel), ?_, by decide +kernel, fun word => ?_⟩
  · unfold Staged
    decide +kernel
  · have wraps := word _ (List.mem_of_mem_head? (second_sum (.filled (2 ^ 32 - 1) 2 (by decide))))
    simp only [Buffer.filled, List.length_replicate] at wraps
    omega

end BekenSdk.KeyValue
