import BekenSdk.KeyValue.Sectors

/-! Lookup, update and deletion of one name in the sectors of its namespace.
`Agrees` is the refinement relation used for every stateful function of the
store: the function returns what the model returns, ends in flash that
represents the model's state, and changes nothing outside its region; where the
model has no result the function runs into undefined behaviour.
-/

set_option autoImplicit false

namespace BekenSdk.KeyValue
open BekenSdk.Base

def Agrees {α S : Type} (region : Nat → Prop) (represents : Cells → S → Prop) (flash : Flash)
    (outcome : Outcome α) : Option (α × S) → Prop
  | some (value, state) => ∃ after, outcome = .done value after ∧ represents after.cells state ∧
      Flash.Changes region flash after
  | none => ∃ after, outcome = .undefined after ∧ Flash.Changes region flash after

/-- An outcome that is known to have returned is the model's. -/
theorem Agrees.returned {α S : Type} {region : Nat → Prop} {represents : Cells → S → Prop} {flash after : Flash}
    {value : α} {result : Option (α × S)} (agrees : Agrees region represents flash (.done value after) result) :
    ∃ state, result = some (value, state) ∧ represents after.cells state ∧ Flash.Changes region flash after := by
  cases result with
  | none =>
    obtain ⟨_, impossible, -⟩ := agrees
    cases impossible
  | some result =>
    obtain ⟨final, same, state, changes⟩ := agrees
    injection same with values flashes
    subst values flashes
    exact ⟨result.2, rfl, state, changes⟩

/-- The representation of a log in the two sectors of a namespace. -/
def HoldsLog (pair : SectorPair) (cells : Cells) (log : NameLog) : Prop := Holding cells pair log.records

section
variable {pair : SectorPair} {malloc : OsMalloc} {key : CString} {flash : Flash} {log : NameLog}

/-! ## Lookup -/

theorem getNameAddr_absent (held : Holding flash.cells pair log.records)
    (absent : log.lookupWith malloc key = none) :
    getNameAddr malloc (some key) pair.nameAddr flash = none := by
  unfold getNameAddr
  simp only
  by_cases granted : malloc .getNameAddr = true
  · rw [if_pos granted, readNames_sector held.names]
    have miss : log.lookup key = none := by simpa [NameLog.lookupWith, granted] using absent
    have none := Log.lookup_none_iff.mp miss
    rw [findName_skip log.named none, findName_free]
  · rw [if_neg granted]

/-- The live record a lookup stops at, and what precedes it. -/
structure Located (log : NameLog) (key : CString) (before after : List Record) (record : Record) : Prop where
  split : log.records = before ++ record :: after
  earlier : ∀ r ∈ before, r.hits key = false
  live : record.live = true
  same : record.key = key

theorem lookupWith_some {value : List UInt8} (found : log.lookupWith malloc key = some value) :
    malloc .getNameAddr = true ∧ log.lookup key = some value := by
  unfold NameLog.lookupWith at found
  split at found
  next granted => exact ⟨granted, found⟩
  next => cases found

theorem getNameAddr_found {value : List UInt8} (held : Holding flash.cells pair log.records)
    (found : log.lookupWith malloc key = some value) :
    ∃ before record after, Located log key before after record ∧ record.value = value ∧
      getNameAddr malloc (some key) pair.nameAddr flash =
        some (before.length * perNameFlashSize, valueBytes before) := by
  obtain ⟨granted, bound⟩ := lookupWith_some found
  obtain ⟨before, record, after, split, earlier, live, same, here⟩ := Log.lookup_some bound
  refine ⟨before, record, after, ⟨split, earlier, live, same⟩, here, ?_⟩
  have named := log.named
  rw [split] at named
  unfold getNameAddr
  simp only
  rw [if_pos granted, readNames_sector held.names, split,
    findName_found named earlier (Entry.hits_iff.mpr ⟨live, same⟩)]

namespace Located
variable {before after : List Record} {record : Record}

theorem named (located : Located log key before after record) :
    ∀ r ∈ before ++ record :: after, r.key.strlen ≤ nameLimit := located.split ▸ log.named

theorem few (located : Located log key before after record) :
    (before ++ record :: after).length ≤ flashNameMaxArray := located.split ▸ log.few

theorem short (located : Located log key before after record) :
    valueBytes (before ++ record :: after) < flashSectorSize := located.split ▸ log.short

theorem bury_records (located : Located log key before after record) :
    (log.bury key).records = before ++ record.kill :: after := by
  rw [NameLog.bury_records, located.split, Log.bury_split located.earlier located.live located.same]

theorem key_short (located : Located log key before after record) : key.strlen ≤ nameLimit := by
  have here := located.named record (by simp)
  rwa [located.same] at here

/-- Programming the record's bytes from the flag on with the masked flag buries the key. -/
theorem bury (located : Located log key before after record)
    (held : Holding flash.cells pair log.records) {data tail : List UInt8}
    (rest : (record.toFlash (valueBytes before)).toBytes = le32 flashSpaceUsing ++ (data ++ tail)) :
    Holding (flash.ddevWrite (le32 flashSpaceMask ++ data)
        (pair.nameAddr + before.length * perNameFlashSize)).cells pair (log.bury key).records ∧
      Flash.Changes pair.region flash (flash.ddevWrite (le32 flashSpaceMask ++ data)
        (pair.nameAddr + before.length * perNameFlashSize)) := by
  have here := located.named record (by simp)
  have early : ∀ r ∈ before, r.key.strlen ≤ nameLimit := fun r member => located.named r (by simp [member])
  have few := located.few
  have width := toFlash_bytes_length (valueBytes before) here
  obtain ⟨used, masked⟩ := kill_flag_bytes located.live (valueBytes before)
  have tails : data ++ tail =
      le32 (valueBytes before) ++ le32 record.value.length ++ field nameWidth record.key :=
    List.append_cancel_left (rest.symm.trans used)
  rw [rest] at width
  simp only [List.length_append, le32_length, perNameFlashSize] at width
  rw [located.split] at held
  obtain ⟨-, middle, -⟩ := (holds_around_record flash.cells pair record early here).mp held.names
  rw [rest, ← List.append_assoc, holds_append] at middle
  obtain ⟨front, back⟩ := middle
  have ended := front.program_over (le32 flashSpaceMask ++ data) (by simp)
  rw [List.zipWith_append (by rfl), using_and_mask, zipWith_and_self] at ended
  have mask : Holds (flash.ddevWrite (le32 flashSpaceMask ++ data)
      (pair.nameAddr + before.length * perNameFlashSize)).cells
      (pair.nameAddr + perNameFlashSize * before.length)
      (Record.toFlash record.kill (valueBytes before)).toBytes := by
    rw [masked, ← tails, ← List.append_assoc, Flash.ddevWrite_cells, Nat.mul_comm, holds_append]
    refine ⟨ended, ?_⟩
    exact back.program_frame (Or.inr (by simp))
  have changes : Flash.Changes (fun a => pair.nameAddr + perNameFlashSize * before.length ≤ a ∧
      a < pair.nameAddr + perNameFlashSize * before.length + perNameFlashSize) flash
      (flash.ddevWrite (le32 flashSpaceMask ++ data) (pair.nameAddr + before.length * perNameFlashSize)) := by
    refine Flash.Changes.ddevWrite flash fun a low high => ?_
    rw [Nat.mul_comm] at low high
    simp only [List.length_append, le32_length, perNameFlashSize] at *
    omega
  rw [located.bury_records]
  refine ⟨held.masked located.named few (Nat.le_of_lt located.short) mask changes, changes.mono ?_⟩
  intro a inside
  simp only [List.length_append, List.length_cons, flashNameMaxArray] at few
  simp only [perNameFlashSize] at inside
  refine Or.inl ⟨by omega, ?_⟩
  simp only [flashSectorSize]
  omega

theorem record_eq (located : Located log key before after record)
    (held : Holding flash.cells pair log.records) :
    NameFlash.ofBytes (flash.ddevRead perNameFlashSize (pair.nameAddr + before.length * perNameFlashSize)) =
      record.toFlash (valueBytes before) := by
  rw [located.split] at held
  exact held.record_read located.named located.short

theorem value_eq (located : Located log key before after record)
    (held : Holding flash.cells pair log.records) {len : Nat} (bounded : len ≤ record.value.length) :
    flash.ddevRead len (pair.dataAddr + valueBytes before) = record.value.take len := by
  rw [located.split] at held
  exact held.value_read bounded

/-- The update path masks a whole record and reads its name field back. -/
theorem mask_record (located : Located log key before after record)
    (held : Holding flash.cells pair log.records) :
    let masked := Record.toFlash record.kill (valueBytes before)
    let addr := pair.nameAddr + before.length * perNameFlashSize
    Holding (flash.ddevWrite masked.toBytes addr).cells pair (log.bury key).records ∧
      Flash.Changes pair.region flash (flash.ddevWrite masked.toBytes addr) ∧
      (NameFlash.ofBytes ((flash.ddevWrite masked.toBytes addr).ddevRead perNameFlashSize addr)).ucName =
        field nameWidth key := by
  intro masked addr
  obtain ⟨used, killed⟩ := kill_flag_bytes located.live (valueBytes before)
  rw [← List.append_nil (le32 (valueBytes before) ++ le32 record.value.length ++ _)] at used
  obtain ⟨holding, changes⟩ := located.bury held used
  rw [← killed] at holding changes
  refine ⟨holding, changes, ?_⟩
  have named := (log.bury key).named
  have short := (log.bury key).short
  rw [located.bury_records] at holding named short
  rw [holding.record_read named short]
  simp [Record.toFlash, Entry.kill, located.same]

end Located

/-! ## Update and deletion -/

theorem bkSetNameData_spec {table : BkPartitions} {ns : CString} {indata : Buffer}
    {npBaseAddr dwNOffsetAddr dwOffsetBlock : Nat} (held : Holding flash.cells pair log.records)
    (nameHere : npBaseAddr + dwNOffsetAddr = pair.nameAddr)
    (dataHere : npBaseAddr + dwOffsetBlock * flashSectorSize +
      nameFlashDataBaseAddr (getFalshNameSpaceMaxArray table ns) = pair.dataAddr)
    (sane : indata.bytes.length + flashSectorSize ≤ 2 ^ 32) :
    Agrees pair.region (HoldsLog pair) flash
      (bkSetNameData table malloc ns key npBaseAddr indata dwNOffsetAddr dwOffsetBlock flash)
      (log.write malloc key indata.bytes) := by
  unfold bkSetNameData NameLog.write
  simp only [nameHere, dataHere]
  cases found : log.lookupWith malloc key with
  | none =>
    rw [getNameAddr_absent held found]
    exact bkSetNameDataNewAddr_spec malloc held (CString.truncate_strlen_le _ _) sane
  | some old =>
    obtain ⟨before, record, after, located, here, addr⟩ := getNameAddr_found held found
    rw [addr]
    simp only [located.record_eq held]
    have length : (record.toFlash (valueBytes before)).dwlength = old.length := by rw [← here]; rfl
    have value : flash.ddevRead old.length (pair.dataAddr + valueBytes before) = old := by
      rw [located.value_eq held (by rw [here]), here, List.take_length]
    rw [length, value]
    by_cases overflow : old.length > dataBufSize
    · rw [if_pos overflow, if_pos overflow]
      exact ⟨flash, rfl, .refl _ _⟩
    · rw [if_neg overflow, if_neg overflow]
      by_cases same : old = indata.bytes
      · rw [if_pos same, if_neg (by simp [same])]
        exact ⟨flash, rfl, held, .refl _ _⟩
      · rw [if_neg same, if_pos (Or.inr same)]
        obtain ⟨holding, masking, ucName⟩ := located.mask_record held
        have masked : (⟨flashSpaceMask, (record.toFlash (valueBytes before)).dwOffsetByByte, old.length,
            (record.toFlash (valueBytes before)).ucName⟩ : NameFlash) =
            Record.toFlash record.kill (valueBytes before) := by rw [← here]; rfl
        rw [masked, ucName]
        obtain ⟨last, run, stored, storing⟩ := bkSetNameDataNewAddr_spec malloc holding located.key_short sane
        exact ⟨last, run, stored, masking.trans storing⟩

variable (malloc key) in
/-- The four bytes programmed by a deletion bury the key. -/
theorem clean_spec (held : Holding flash.cells pair log.records) :
    Agrees pair.region (HoldsLog pair) flash
      (match getNameAddr malloc (some key) pair.nameAddr flash with
        | none => .done .kGeneralErr flash
        | some (dwNameOffset, _) =>
          .done .kNoErr (flash.ddevWrite (le32 flashSpaceMask) (pair.nameAddr + dwNameOffset)))
      (some (log.clean malloc key)) := by
  unfold NameLog.clean
  cases found : log.lookupWith malloc key with
  | none =>
    rw [getNameAddr_absent held found]
    exact ⟨flash, rfl, held, .refl _ _⟩
  | some old =>
    obtain ⟨before, record, after, located, -, addr⟩ := getNameAddr_found held found
    rw [addr]
    have rest := (kill_flag_bytes located.live (valueBytes before)).1
    rw [← List.nil_append (le32 (valueBytes before) ++ _ ++ _)] at rest
    obtain ⟨holding, changes⟩ := located.bury held rest
    rw [List.append_nil] at holding changes
    exact ⟨_, rfl, holding, changes⟩

end

/-! ## The partition

A whole partition: the directory sector, then one name sector and one data
sector for each slot. `Represents` relates its bytes to a `Directory`, and the
lookups and updates of the directory sector are those of the model as long as
its entries fit one sector.
-/

/-! ## Geometry -/

namespace BkLogicPartition

def sector (part : BkLogicPartition) : Nat := part.partitionStartAddr / flashSectorSize

theorem start_eq (part : BkLogicPartition) : part.partitionStartAddr = flashSectorSize * part.sector := by
  have aligned := part.aligned
  simp only [sector, flashSectorSize] at *
  omega

/-- The sectors of one slot. -/
def pair (part : BkLogicPartition) {slot : Nat} (inside : slot < part.slots) : SectorPair where
  name := part.sector + 1 + slot
  data := part.sector + 1 + part.slots + slot
  apart := by omega

/-- The directory sector, the name sectors and the data sectors. -/
def area (part : BkLogicPartition) (a : Nat) : Prop :=
  part.partitionStartAddr ≤ a ∧ a < part.partitionStartAddr + flashSectorSize * (1 + 2 * part.slots)

theorem pair_area (part : BkLogicPartition) {slot : Nat} (inside : slot < part.slots) {a : Nat}
    (here : (part.pair inside).region a) : part.area a := by
  have start := part.start_eq
  simp only [area, pair, SectorPair.region, SectorPair.nameAddr, SectorPair.dataAddr, flashSectorSize] at *
  omega

theorem pair_apart (part : BkLogicPartition) {slot other : Nat} (inside : slot < part.slots)
    (otherInside : other < part.slots) (different : slot ≠ other) {a : Nat}
    (here : (part.pair inside).region a) : ¬(part.pair otherInside).region a := by
  simp only [pair, SectorPair.region, SectorPair.nameAddr, SectorPair.dataAddr, flashSectorSize] at *
  omega

theorem pair_after_directory (part : BkLogicPartition) {slot : Nat} (inside : slot < part.slots) {a : Nat}
    (here : (part.pair inside).region a) : part.partitionStartAddr + flashSectorSize ≤ a := by
  have start := part.start_eq
  simp only [pair, SectorPair.region, SectorPair.nameAddr, SectorPair.dataAddr, flashSectorSize] at *
  omega

theorem pair_nameAddr (part : BkLogicPartition) {slot : Nat} (inside : slot < part.slots) :
    (part.pair inside).nameAddr =
      part.partitionStartAddr + (slot * nameFlashTotalSize + nameSpaceFlashTotalSize) := by
  have start := part.start_eq
  simp only [pair, SectorPair.nameAddr, nameFlashTotalSize, perNameFlashSize, flashNameMaxArray,
    nameSpaceFlashTotalSize, flashSectorSize] at *
  omega

theorem pair_dataAddr (part : BkLogicPartition) {slot : Nat} (inside : slot < part.slots) :
    (part.pair inside).dataAddr =
      part.partitionStartAddr + slot * flashSectorSize + nameFlashDataBaseAddr part.slots := by
  have start := part.start_eq
  rw [nameFlashDataBaseAddr_eq]
  simp only [pair, SectorPair.dataAddr, flashSectorSize] at *
  omega

end BkLogicPartition

/-! ## The directory sector -/

def entriesFrom : Nat → Directory → List NamespaceFlash
  | _, [] => []
  | slot, content :: rest => content.entry slot :: entriesFrom (slot + 1) rest

def entriesBytes : Nat → Directory → List UInt8
  | _, [] => []
  | slot, content :: rest => content.entryBytes slot ++ entriesBytes (slot + 1) rest

theorem entriesBytes_length (slot : Nat) (dir : Directory) :
    (entriesBytes slot dir).length = perNameSpaceFlashSize * dir.length := by
  induction dir generalizing slot with
  | nil => rfl
  | cons content rest ih =>
    simp only [entriesBytes, List.length_append, entryBytes_length, ih, List.length_cons]
    rw [Nat.mul_succ, Nat.add_comm]

theorem entriesBytes_append (slot : Nat) (first rest : Directory) :
    entriesBytes slot (first ++ rest) = entriesBytes slot first ++ entriesBytes (slot + first.length) rest := by
  induction first generalizing slot with
  | nil => rfl
  | cons content first ih =>
    have shift : slot + 1 + first.length = slot + (first.length + 1) := by omega
    simp only [List.cons_append, entriesBytes, ih, List.append_assoc, List.length_cons, shift]

/-- Entries are the same when the names are. -/
theorem entriesBytes_modify (slot index : Nat) (dir : Directory) (change : NameLog → NameLog) :
    entriesBytes slot (dir.modify index (Slot.mapLog change)) = entriesBytes slot dir := by
  induction dir generalizing slot index with
  | nil => simp
  | cons content rest ih =>
    cases index with
    | zero => cases content <;> rfl
    | succ index => simp only [List.modify_succ_cons, entriesBytes, ih]

theorem entry_read {slot : Nat} (low : slot < flashNameMaxArray) (content : Slot) :
    NamespaceFlash.ofBytes (content.entryBytes slot) = content.entry slot := by
  cases content with
  | free => rfl
  | used name log =>
    refine NamespaceFlash.ofBytes_toBytes (show flashSpaceUsing < 2 ^ 32 by decide) ?_
    simp only [newNamespaceEntry, nameFlashTotalSize, perNameFlashSize, flashNameMaxArray,
      nameSpaceFlashTotalSize] at *
    omega

theorem readNamespaces_directory {flash : Flash} {addr slot : Nat} {dir : Directory}
    (few : slot + dir.length ≤ flashNameMaxArray) (held : Holds flash.cells addr (entriesBytes slot dir)) :
    flash.readNamespaces addr dir.length = entriesFrom slot dir := by
  induction dir generalizing addr slot with
  | nil => rfl
  | cons content rest ih =>
    rw [List.length_cons] at few
    rw [entriesBytes, holds_append, entryBytes_length] at held
    obtain ⟨first, later⟩ := held
    simp only [List.length_cons, Flash.readNamespaces, Flash.ddevRead, entriesFrom]
    rw [first.read_of_length (entryBytes_length slot content), entry_read (by omega), ih (by omega) later]

/-! ## The scans over a directory -/

theorem freeNamespace_flag : freeNamespace.dwUsingFlag ≠ flashSpaceUsing := by decide

/-- The offset and the slot a found namespace is reported with. -/
def slotAddr (slot : Nat) : Nat × Nat := (slot * nameFlashTotalSize + nameSpaceFlashTotalSize, slot)

theorem findNamespace_step (ns : CString) (content : Slot) (slot : Nat) (rest : List NamespaceFlash) :
    findNamespace ns (content.entry slot :: rest) slot =
      if content.named ns = true then some (slotAddr slot) else findNamespace ns rest (slot + 1) := by
  cases content with
  | free =>
    rw [findNamespace, Slot.entry, if_pos freeNamespace_flag]
    rfl
  | used name log =>
    have stored : name.text.truncate (nsWidth - 1) = name.text := CString.truncate_of_le name.fits
    have texts := field_matches ns (rest.flatMap NamespaceFlash.toBytes)
      (show nsLimit < nsWidth by decide) name.fits
    have used : ¬((Slot.used name log).entry slot).dwUsingFlag ≠ flashSpaceUsing := not_not.mpr rfl
    have field_eq : ((Slot.used name log).entry slot).ucNamespace = field nsWidth name.text := by
      rw [Slot.entry, newNamespaceEntry, stored]
    have limit : bkStrnlen ns (nsWidth - 1) = min ns.strlen nsLimit := rfl
    rw [findNamespace, if_neg used, field_eq, limit]
    by_cases hit : name.text = ns
    · obtain ⟨same, long⟩ := texts.mpr hit
      rw [if_pos same, if_neg (not_not.mpr long), if_pos (by simp [Slot.named, hit])]
      rfl
    · rw [if_neg (show ¬(Slot.used name log).named ns = true by simp [Slot.named, hit])]
      split_ifs with same long
      · rfl
      · exact absurd (texts.mp ⟨same, not_not.mp long⟩) hit
      · rfl

theorem findNamespace_directory (ns : CString) (dir : Directory) (slot : Nat) :
    findNamespace ns (entriesFrom slot dir) slot = (dir.find ns).map fun i => slotAddr (slot + i) := by
  induction dir generalizing slot with
  | nil => rfl
  | cons content rest ih =>
    have shift : ∀ i, slot + 1 + i = slot + (i + 1) := fun i => by omega
    rw [entriesFrom, findNamespace_step, ih, Directory.find_cons]
    by_cases hit : content.named ns = true
    · rw [if_pos hit, if_pos hit, Option.map_some, Nat.add_zero]
    · rw [if_neg hit, if_neg hit, Option.map_map]
      simp only [shift, Function.comp_def]

theorem firstFree_step (content : Slot) (slot : Nat) (rest : List NamespaceFlash) :
    firstFreeNamespace (content.entry slot :: rest) slot =
      if content.isFree = true then some slot else firstFreeNamespace rest (slot + 1) := by
  cases content <;> rfl

theorem firstFree_directory (dir : Directory) (slot : Nat) :
    firstFreeNamespace (entriesFrom slot dir) slot = dir.firstFree.map fun i => slot + i := by
  induction dir generalizing slot with
  | nil => rfl
  | cons content rest ih =>
    have shift : ∀ i, slot + 1 + i = slot + (i + 1) := fun i => by omega
    rw [entriesFrom, firstFree_step, ih, Directory.firstFree_cons]
    by_cases free : content.isFree = true
    · rw [if_pos free, if_pos free, Option.map_some, Nat.add_zero]
    · rw [if_neg free, if_neg free, Option.map_map]
      simp only [shift, Function.comp_def]

end BekenSdk.KeyValue
