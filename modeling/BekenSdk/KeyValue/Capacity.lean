import BekenSdk.KeyValue.LastWrite

/-! What a write needs: how much of the sectors of its namespace the used records take, masked ones not counted, and
when a write that fits succeeds.
-/

set_option autoImplicit false

namespace BekenSdk.KeyValue
open BekenSdk.Base

/-! ## What is claimed -/

def isUsing (record : NameFlash) : Bool := record.dwUsingFlag = flashSpaceUsing

section
variable (table : BkPartitions) (flash : Flash) (ns name : CString)

/-- The records of the namespace, if it is stored. -/
def storedNames : List NameFlash :=
  match lookupNamespace table granted flash ns with
  | none => []
  | some found => flash.readNames (getMatterFlashBaseAddr table ns + found.1) flashNameMaxArray

/-- The index of the record that a write of the name replaces. -/
def replacedIndex : Option Nat :=
  (lookupName table granted flash ns name).map fun found => found.1 / perNameFlashSize

/-- The used records of the namespace without the replaced one. -/
def otherUsed : List NameFlash :=
  let kept :=
    match replacedIndex table flash ns name with
    | none => storedNames table flash ns
    | some index => (storedNames table flash ns).eraseIdx index
  kept.filter isUsing

def otherBytes : Nat := ((otherUsed table flash ns name).map NameFlash.dwlength).sum

/-- The length of the replaced value. -/
def replacedLength : Nat :=
  match replacedIndex table flash ns name with
  | none => 0
  | some index => ((storedNames table flash ns).map NameFlash.dwlength).getD index 0

/-- There are a record and room in the data sector for so many bytes. -/
def Room (len : Nat) : Prop :=
  (otherUsed table flash ns name).length < flashNameMaxArray ∧ otherBytes table flash ns name + len ≤ flashSectorSize

def directoryFree : Bool :=
  (flash.readNamespaces (getMatterFlashBaseAddr table ns) (getFalshNameSpaceMaxArray table ns)).any fun entry =>
    entry.dwUsingFlag ≠ flashSpaceUsing

/-- A namespace that is not stored finds a free entry, the value does not just fill the sector, and what it replaces
fits `data_buf`. -/
structure Unhindered (len : Nat) : Prop where
  directory : lookupNamespace table granted flash ns = none → directoryFree table flash ns = true ∨
    flashSectorSize < len
  exactFill : (otherUsed table flash ns name).length < flashNameMaxArray →
    otherBytes table flash ns name + len ≠ flashSectorSize
  old : replacedLength table flash ns name ≤ dataBufSize

end

/-! ## Logs -/

namespace NameLog
variable {log : NameLog} {key : CString} {value : List UInt8}

/-- The live records leave room for the value. -/
def Takes (log : NameLog) (value : List UInt8) : Prop :=
  (Log.compact log.records).length < flashNameMaxArray ∧
    valueBytes (Log.compact log.records) + value.length < flashSectorSize

theorem push?_refused (tight : ¬ (log.records.length < flashNameMaxArray ∧
    valueBytes log.records + value.length < flashSectorSize)) : log.push? key value = none := by
  unfold push?
  exact dif_neg fun fits => tight ⟨fits.1, fits.2.1⟩

theorem compactPush_ok (named : key.strlen ≤ nameLimit) :
    (log.compactPush key value).1 = .kNoErr ↔ log.Takes value := by
  unfold compactPush
  by_cases takes : log.Takes value
  · obtain ⟨pushed, result, -⟩ := push?_of_fits log.compact takes.1 takes.2 named
    rw [result]
    exact iff_of_true rfl takes
  · rw [@push?_refused log.compact key value takes]
    exact iff_of_false (by simp) takes

/-- Where no record is masked, compacting frees none. -/
theorem compact_of_clean (clean : ¬ log.hasDead = true) : Log.compact log.records = log.records := by
  refine List.filter_eq_self.2 fun record member => ?_
  by_contra dead
  refine clean (List.any_eq_true.2 ⟨record, member, ?_⟩)
  rw [Bool.eq_false_iff.2 dead]
  rfl

/-- What is appended without compacting would have been taken after it too. -/
theorem Takes.of_fits (slot : log.records.length < flashNameMaxArray)
    (short : valueBytes log.records + value.length < flashSectorSize) : log.Takes value := by
  refine ⟨Nat.lt_of_le_of_lt (Log.length_compact_le _) slot, Nat.lt_of_le_of_lt ?_ short⟩
  exact Nat.add_le_add_right (Log.size_compact_le _ _) _

theorem append_status (malloc : OsMalloc) (named : key.strlen ≤ nameLimit) :
    (log.append malloc key value).1 = .kNoErr ↔ (malloc .nameTemp && malloc .dataBuff) = true ∧ log.Takes value := by
  unfold append
  cases malloc .nameTemp && malloc .dataBuff with
  | false => exact iff_of_false (by simp) fun both => Bool.false_ne_true both.1
  | true =>
    simp only [if_true, true_and]
    split
    next slot =>
      by_cases short : valueBytes log.records + value.length < flashSectorSize
      · obtain ⟨pushed, result, -⟩ := push?_of_fits log slot short named
        rw [result]
        exact iff_of_true rfl (.of_fits slot short)
      · rw [push?_refused fun fits => short fits.2]
        exact compactPush_ok named
    next full =>
      split
      · exact compactPush_ok named
      next clean =>
        refine iff_of_false (by simp) fun takes => ?_
        rw [Takes, compact_of_clean clean] at takes
        exact full takes.1

theorem append_ok (named : key.strlen ≤ nameLimit) : (log.append granted key value).1 = .kNoErr ↔ log.Takes value :=
  (append_status granted named).trans (and_iff_right rfl)

theorem bury_absent (absent : log.lookup key = none) : Log.bury key log.records = log.records := by
  have missed := Log.lookup_none_iff.1 absent
  generalize log.records = records at missed
  induction records with
  | nil => rfl
  | cons record rest ih =>
    rw [Log.bury, if_neg (by simp [missed record List.mem_cons_self]),
      ih fun other member => missed other (List.mem_cons_of_mem _ member)]

/-- Without its record, a stored value fits where it is. -/
theorem Takes.of_stored (found : log.lookup key = some value) : (log.bury key).Takes value := by
  obtain ⟨before, record, after, split, earlier, live, same, rfl⟩ := Log.lookup_some found
  have few := log.few
  have short := log.short
  have records : Log.compact (log.bury key).records = Log.compact before ++ Log.compact after := by
    rw [bury_records, split, Log.bury_split earlier live same]
    simp [Log.compact, Entry.kill]
  have fewBefore := Log.length_compact_le before
  have fewAfter := Log.length_compact_le after
  have smallBefore := Log.size_compact_le List.length before
  have smallAfter := Log.size_compact_le List.length after
  rw [split, List.length_append, List.length_cons] at few
  rw [split, valueBytes, Log.size_append, Log.size_cons] at short
  rw [Takes, records, List.length_append, valueBytes, Log.size_append]
  constructor <;> omega

/-- When a write succeeds, and that one always returns that replaces no long value. -/
theorem write_ok (log : NameLog) (key : CString) (value : List UInt8) :
    (∃ old, log.lookup key = some old ∧ dataBufSize < old.length ∧ log.write granted key value = none) ∨
      (∀ old, log.lookup key = some old → old.length ≤ dataBufSize) ∧
        ∃ status result, log.write granted key value = some (status, result) ∧
          (status = .kNoErr ↔ (log.bury key).Takes value) := by
  have search : log.lookupWith granted key = log.lookup key := rfl
  unfold write
  rw [search]
  cases found : log.lookup key with
  | none =>
    refine .inr ⟨fun old impossible => (by cases impossible), (log.append granted (key.truncate nameLimit) value).1,
      (log.append granted (key.truncate nameLimit) value).2, rfl, ?_⟩
    rw [append_ok (CString.truncate_strlen_le _ _), Takes, Takes, bury_records, bury_absent found]
  | some old =>
    simp only
    by_cases long : old.length > dataBufSize
    · exact .inl ⟨old, rfl, long, if_pos long⟩
    · refine .inr ⟨fun other same => (Option.some.inj same) ▸ Nat.le_of_not_lt long, ?_⟩
      rw [if_neg long]
      by_cases same : old = value
      · rw [if_pos same]
        exact ⟨_, _, rfl, iff_of_true rfl (.of_stored (same ▸ found))⟩
      · rw [if_neg same]
        obtain ⟨_, record, _, split, _, _, here, _⟩ := Log.lookup_some found
        refine ⟨((log.bury key).append granted key value).1, ((log.bury key).append granted key value).2, rfl,
          append_ok ?_⟩
        rw [← here]
        exact log.named record (split ▸ List.mem_append_right _ List.mem_cons_self)

end NameLog

/-! ## Directories -/

namespace Directory
variable {dir : Directory} {ns name : CString} {value : List UInt8}

/-- The log of a namespace; one that is not stored has none. -/
def logOf (dir : Directory) (ns : CString) : NameLog := ((dir.find ns).map dir.logAt).getD .empty

theorem write_status (dir : Directory) (ns name : CString) (value : List UInt8) :
    (dir.write granted ns name value).map Prod.fst =
      if dir.find ns = none ∧ dir.firstFree = none then some .kGeneralErr
      else ((dir.logOf ns).write granted name value).map Prod.fst := by
  have search : dir.findWith granted ns = dir.find ns := rfl
  unfold write logOf
  rw [search]
  cases dir.find ns with
  | some slot =>
    rw [if_neg (by simp)]
    simp only [writeAt, Option.map_map, Option.map_some, Option.getD_some]
    rfl
  | none =>
    have allocation : dir.allocate granted ns =
        dir.firstFree.map fun slot => (slot, dir.set slot (.used (.of ns) .empty)) := rfl
    rw [allocation]
    cases free : dir.firstFree with
    | none =>
      rw [if_pos ⟨rfl, rfl⟩]
      rfl
    | some slot =>
      have inside := (List.getElem?_eq_some_iff.mp (firstFree_some free)).1
      have empty : logAt (dir.set slot (.used (.of ns) .empty)) slot = .empty := by
        rw [logAt_set inside, if_pos rfl]
        rfl
      rw [if_neg (by simp)]
      simp only [Option.map_some, writeAt, empty, Option.map_map, Option.map_none, Option.getD_none]
      rfl

end Directory

/-! ## The records in the sectors -/

section
variable {table : BkPartitions} {flash : Flash} {part : BkLogicPartition} {dir : Directory} {ns name : CString}

/-- The used records of a table are the live ones. -/
theorem using_table (offset : Nat) (records : List Record) :
    ((tableFrom offset records).filter isUsing).map NameFlash.dwlength =
      (Log.compact records).map fun record => record.value.length := by
  induction records generalizing offset with
  | nil => rfl
  | cons record rest ih =>
    have flag : isUsing (record.toFlash offset) = record.live := by
      cases live : record.live <;> simp [isUsing, Record.toFlash, Record.flag, live, flashSpaceUsing, flashSpaceMask]
    rw [tableFrom, List.filter_cons, flag, Log.compact, List.filter_cons]
    split
    · rw [List.map_cons, List.map_cons, ih]
      rfl
    · exact ih _

theorem using_free (count : Nat) : (List.replicate count freeName).filter isUsing = [] := by
  refine List.filter_eq_nil_iff.mpr fun record member => ?_
  rw [List.eq_of_mem_replicate member]
  decide

/-- What the lookup in a name sector means for the log. -/
theorem sector_spec {pair : SectorPair} {log : NameLog} (malloc : OsMalloc) (held : HoldsLog pair flash.cells log)
    (name : CString) :
    (log.lookupWith malloc name = none ∧ getNameAddr malloc (some name) pair.nameAddr flash = none) ∨
      ∃ before record after, Located log name before after record ∧
        log.lookupWith malloc name = some record.value ∧
        getNameAddr malloc (some name) pair.nameAddr flash =
          some (before.length * perNameFlashSize, valueBytes before) := by
  cases found : log.lookupWith malloc name with
  | none => exact .inl ⟨rfl, getNameAddr_absent held found⟩
  | some value =>
    obtain ⟨before, record, after, located, rfl, addr⟩ := getNameAddr_found held found
    exact .inr ⟨before, record, after, located, rfl, addr⟩

theorem readNames_log {pair : SectorPair} {log : NameLog} (held : HoldsLog pair flash.cells log) :
    flash.readNames pair.nameAddr flashNameMaxArray =
      tableFrom 0 log.records ++ List.replicate (flashNameMaxArray - log.records.length) freeName :=
  readNames_sector held.names

theorem using_sector (records : List Record) (count : Nat) :
    ((tableFrom 0 records ++ List.replicate count freeName).filter isUsing).map NameFlash.dwlength =
      (Log.compact records).map fun record => record.value.length := by
  rw [List.filter_append, using_free, List.append_nil, using_table]

/-- Without the replaced record, the used records are the live ones of the log that buried it. -/
theorem using_replaced {log : NameLog} {before after : List Record} {record : Record}
    (located : Located log name before after record) (count : Nat) :
    (((tableFrom 0 log.records ++ List.replicate count freeName).eraseIdx before.length).filter isUsing).map
        NameFlash.dwlength =
      (Log.compact (log.bury name).records).map fun record => record.value.length := by
  have length := tableFrom_length 0 before
  have erased : (tableFrom 0 log.records ++ List.replicate count freeName).eraseIdx before.length =
      tableFrom 0 before ++ (tableFrom (valueBytes before + record.value.length) after ++ List.replicate count freeName) := by
    rw [located.split, tableFrom_append, tableFrom, List.append_assoc, List.cons_append,
      List.eraseIdx_append_of_length_le (by rw [length]), length, Nat.sub_self, List.eraseIdx_cons_zero, Nat.zero_add]
  rw [erased, List.filter_append, List.filter_append, using_free, List.append_nil, List.map_append, using_table,
    using_table,
    located.bury_records]
  simp [Log.compact, Entry.kill]

/-- What the sectors say of the namespace is what its log says. -/
theorem used_spec (rep : Represents part flash.cells dir) (fits : part.Fits) (here : table.ofNamespace ns = part)
    (name : CString) :
    (otherUsed table flash ns name).map NameFlash.dwlength =
        ((Log.compact ((dir.logOf ns).bury name).records).map fun record => record.value.length) ∧
      replacedLength table flash ns name = ((dir.logOf ns).lookup name).elim 0 List.length := by
  have search : lookupNamespace table granted flash ns = (dir.find ns).map slotAddr :=
    lookupNamespace_spec here fits rep
  unfold otherUsed replacedLength replacedIndex lookupName storedNames Directory.logOf
  rw [search]
  cases found : dir.find ns with
  | none => exact ⟨rfl, rfl⟩
  | some slot =>
    have inside := rep.find_inside found
    have held := rep.logs slot inside
    have addr : getMatterFlashBaseAddr table ns + (slotAddr slot).1 = (part.pair inside).nameAddr := by
      rw [getMatterFlashBaseAddr, here]
      exact (part.pair_nameAddr inside).symm
    simp only [Option.map_some, Option.bind_some, Option.getD_some, addr, readNames_log held]
    rcases sector_spec granted held name with ⟨absent, missing⟩ | ⟨before, record, after, located, stored, index⟩
    · replace absent : (dir.logAt slot).lookup name = none := absent
      rw [missing, absent]
      simp only [Option.map_none, Option.elim_none, and_true]
      rw [using_sector, NameLog.bury_records, NameLog.bury_absent absent]
    · replace stored : (dir.logAt slot).lookup name = some record.value := stored
      rw [index, stored]
      simp only [Option.map_some, Option.elim_some, Nat.mul_div_cancel _ (by decide : 0 < perNameFlashSize)]
      refine ⟨using_replaced located _, ?_⟩
      have length := tableFrom_length 0 before
      rw [located.split, tableFrom_append, tableFrom, List.map_append, List.map_append, List.append_assoc,
        List.getD_append_right _ _ _ _ (by rw [List.length_map, length]), List.length_map, length, Nat.sub_self]
      rfl

theorem entries_free (slot : Nat) (dir : Directory) :
    ((entriesFrom slot dir).any fun entry => entry.dwUsingFlag ≠ flashSpaceUsing) = true ↔ dir.firstFree ≠ none := by
  induction dir generalizing slot with
  | nil => simp [entriesFrom, Directory.firstFree]
  | cons content rest ih =>
    rw [entriesFrom, List.any_cons, Directory.firstFree_cons]
    cases content with
    | free =>
      have vacant : decide ((Slot.entry slot .free).dwUsingFlag ≠ flashSpaceUsing) = true :=
        decide_eq_true freeNamespace_flag
      rw [vacant, Bool.true_or]
      exact iff_of_true rfl (by simp [Slot.isFree])
    | used name log =>
      have taken : decide ((Slot.entry slot (.used name log)).dwUsingFlag ≠ flashSpaceUsing) = false :=
        decide_eq_false (not_not.2 rfl)
      rw [taken, Bool.false_or, if_neg (by simp [Slot.isFree]), ih]
      simp

theorem directoryFree_iff (rep : Represents part flash.cells dir) (fits : part.Fits)
    (here : table.ofNamespace ns = part) :
    directoryFree table flash ns = true ↔ dir.firstFree ≠ none := by
  unfold directoryFree getMatterFlashBaseAddr getFalshNameSpaceMaxArray
  rw [here, rep.readNamespaces fits.few]
  exact entries_free 0 dir

/-- The used records that stay are the live ones. -/
theorem otherUsed_spec (rep : Represents part flash.cells dir) (fits : part.Fits) (here : table.ofNamespace ns = part)
    (name : CString) :
    (otherUsed table flash ns name).length = (Log.compact ((dir.logOf ns).bury name).records).length ∧
      otherBytes table flash ns name = valueBytes (Log.compact ((dir.logOf ns).bury name).records) := by
  have lengths := (used_spec rep fits here name).1
  constructor
  · rw [← List.length_map NameFlash.dwlength, lengths, List.length_map]
  · rw [otherBytes, lengths]
    rfl

theorem write_agrees (rep : Represents table.matterFlash flash.cells dir) (fits : table.matterFlash.Fits)
    {ns' name' : CString}
    (ordinary : ns ≠ chipFactory) (translation : changeNamespaceToBeken ns (some (some name)) = some (ns', some name'))
    (indata : Buffer) (sane : indata.bytes.length + flashSectorSize ≤ 2 ^ 32) :
    Agrees table.matterFlash.area (Represents table.matterFlash) flash
      (bkWriteData table granted (some ns) (some name) (some indata) flash) (dir.write granted ns' name' indata.bytes) := by
  have here : table.ofNamespace ns' = table.matterFlash := by
    rw [ofNamespace_eq, changeNamespaceToBeken_partition translation, partitionOf_matter ordinary]
    rfl
  simp only [bkWriteData, if_neg ordinary, translation, getMatterFlashBaseAddr, here]
  exact write_spec rep fits.few here sane

/-- A write that returns gives the status of the directory's. -/
theorem Agrees.status_iff {region : Nat → Prop} {outcome : Outcome OSStatus} {result : Option (OSStatus × Directory)}
    (agrees : Agrees region (Represents part) flash outcome result) (room : Prop) :
    (∃ status after, outcome = .done status after ∧ (status = .kNoErr ↔ room)) ↔
      ∃ status, result.map Prod.fst = some status ∧ (status = .kNoErr ↔ room) := by
  cases result with
  | none =>
    obtain ⟨after, run, -⟩ := agrees
    simp [run]
  | some result =>
    obtain ⟨after, run, -⟩ := agrees
    simp [run]

theorem capacity_full (rep : Represents part flash.cells dir) (fits : part.Fits) (here : table.ofNamespace ns = part)
    (search : lookupNamespace table granted flash ns = (dir.find ns).map slotAddr)
    (free : directoryFree table flash ns = true ↔ dir.firstFree ≠ none)
    (full : dir.find ns = none ∧ dir.firstFree = none)
    {len : Nat} :
    (∃ status, some OSStatus.kGeneralErr = some status ∧ (status = .kNoErr ↔ Room table flash ns name len)) ↔
      Unhindered table flash ns name len := by
  obtain ⟨count, bytes⟩ := otherUsed_spec rep fits here name
  have replaced := (used_spec rep fits here name).2
  have empty : dir.logOf ns = .empty := by rw [Directory.logOf, full.1]; rfl
  rw [empty] at count bytes replaced
  replace count : (otherUsed table flash ns name).length = 0 := count
  replace bytes : otherBytes table flash ns name = 0 := bytes
  replace replaced : replacedLength table flash ns name = 0 := replaced
  have missing : lookupNamespace table granted flash ns = none := by rw [search, full.1]; rfl
  constructor
  · rintro ⟨status, same, iff⟩
    obtain rfl := Option.some.inj same
    have long : flashSectorSize < len := by
      by_contra fits
      exact absurd (iff.2 ⟨by rw [count]; decide, by rw [bytes]; omega⟩) (by decide)
    exact ⟨fun _ => .inr long, fun _ => by rw [bytes]; omega, by rw [replaced]; exact Nat.zero_le _⟩
  · intro unhindered
    refine ⟨.kGeneralErr, rfl, iff_of_false (by decide) ?_⟩
    rintro ⟨-, room⟩
    rcases unhindered.directory missing with found | long
    · exact free.1 found full.2
    · omega

/-- A log takes what there is room for, except what would just fill the sector. -/
theorem capacity_log (rep : Represents part flash.cells dir) (fits : part.Fits) (here : table.ofNamespace ns = part)
    {value : List UInt8} (directory : lookupNamespace table granted flash ns = none →
      directoryFree table flash ns = true ∨ flashSectorSize < value.length) :
    (∃ status, ((dir.logOf ns).write granted name value).map Prod.fst = some status ∧
        (status = .kNoErr ↔ Room table flash ns name value.length)) ↔ Unhindered table flash ns name value.length := by
  obtain ⟨count, bytes⟩ := otherUsed_spec rep fits here name
  have replaced := (used_spec rep fits here name).2
  rcases NameLog.write_ok (dir.logOf ns) name value
    with ⟨old, stored, long, undefined⟩ | ⟨shortOld, status, result, written, ok⟩
  · rw [undefined]
    rw [stored] at replaced
    refine iff_of_false ?_ fun unhindered => ?_
    · rintro ⟨_, impossible, -⟩
      cases impossible
    · have bounded := unhindered.old
      rw [replaced] at bounded
      exact absurd bounded long.not_ge
  · have oldFits : replacedLength table flash ns name ≤ dataBufSize := by
      rw [replaced]
      cases stored : (dir.logOf ns).lookup name with
      | none => exact Nat.zero_le _
      | some old => exact shortOld old stored
    rw [written]
    have exactFill : ((dir.logOf ns).bury name).Takes value ↔
        (otherUsed table flash ns name).length < flashNameMaxArray ∧
          otherBytes table flash ns name + value.length < flashSectorSize := by
      rw [count, bytes]
      exact Iff.rfl
    constructor
    · rintro ⟨_, same, iff⟩
      obtain rfl := Option.some.inj same
      refine ⟨directory, fun slot fill => ?_, oldFits⟩
      have taken := exactFill.1 (ok.1 (iff.2 ⟨slot, fill.le⟩))
      exact absurd fill taken.2.ne
    · intro unhindered
      refine ⟨status, rfl, ok.trans (exactFill.trans ?_)⟩
      exact and_congr_right fun slot => ⟨Nat.le_of_lt, fun fits => fits.lt_of_ne (unhindered.exactFill slot)⟩

/-! ## Results -/

/-- In every reachable state, a write whose allocations are granted returns and succeeds just when there is room, if and
only if nothing else hinders it. -/
theorem capacity_exact {start : Flash} {events : List Event} {ns' name' : CString} {indata : Buffer} (fits : table.Fits)
    (erased : Erased table start) (run : Run (Called table) start events flash)
    (sane : ∀ event ∈ events, event.call.Sane) (ordinary : ns ≠ chipFactory)
    (translation : changeNamespaceToBeken ns (some (some name)) = some (ns', some name'))
    (short : indata.bytes.length + flashSectorSize ≤ 2 ^ 32) :
    (∃ status after, bkWriteData table granted (some ns) (some name) (some indata) flash = .done status after ∧
        (status = .kNoErr ↔ Room table flash ns' name' indata.bytes.length)) ↔
      Unhindered table flash ns' name' indata.bytes.length := by
  obtain ⟨store, represented⟩ := represented_of_run fits erased run sane
  have rep := represented.matter
  generalize store.matter = dir at rep
  have here : table.ofNamespace ns' = table.matterFlash := by
    rw [ofNamespace_eq, changeNamespaceToBeken_partition translation, partitionOf_matter ordinary]
    rfl
  rw [(write_agrees rep fits.matter ordinary translation indata short).status_iff, Directory.write_status]
  have search : lookupNamespace table granted flash ns' = (dir.find ns').map slotAddr :=
    lookupNamespace_spec here fits.matter rep
  have free := directoryFree_iff rep fits.matter here
  split
  next full => exact capacity_full rep fits.matter here search free full
  next space =>
    have directory : lookupNamespace table granted flash ns' = none →
        directoryFree table flash ns' = true ∨ flashSectorSize < indata.bytes.length := by
      rw [search, Option.map_eq_none_iff, free]
      exact fun missing => .inl fun none => space ⟨missing, none⟩
    exact capacity_log rep fits.matter here directory

end

/-! ## Sample runs -/

theorem second_name_complete :
    ∃ status after, bkWriteData bkFlashPartitions granted (some keyA) (some fileX) (some (.filled 5 2 (by decide))) firstFlash =
        .done status after ∧ (status = .kNoErr ↔ Room bkFlashPartitions firstFlash keyA fileX 5) := by
  refine (capacity_exact bkFlashPartitions_fits (erased_fresh _) (.next .nil called_first) ?_ (by decide)
    (plain_keyA.untranslated _) (by decide)).2 ⟨?_, ?_, ?_⟩
  · intro event member
    rw [List.mem_singleton.mp member]
    exact (plain_writeByte 1).sane
  · intro missing
    exact absurd missing (by decide)
  · intro _
    decide
  · decide

/-- A value of a whole sector is refused by the empty store. -/
theorem exact_fill_refused :
    Run (Called bkFlashPartitions) .fresh [] .fresh ∧ Room bkFlashPartitions .fresh keyA keyX 4096 ∧
      (bkWriteData bkFlashPartitions granted (some keyA) (some keyX) (some (.filled 4096 2 (by decide))) .fresh).value? =
        some .kGeneralErr := by
  refine ⟨.nil, ?_, ?_⟩
  · unfold Room
    decide
  · decide +kernel

end BekenSdk.KeyValue
