import BekenSdk.KeyValue.LastWrite

/-! The representation invariant, stated on the bytes alone: the records of each
namespace are a prefix of its name sector, their values are back to back from
the start of its data sector with erased bytes after them, and no two used
records or directory entries carry the same text.
-/

set_option autoImplicit false

namespace BekenSdk.KeyValue
open BekenSdk.Base

/-! ## The invariant -/

/-- A record the free-space scan would stop at. -/
def NameFlash.Free (record : NameFlash) : Prop :=
  record.dwUsingFlag ≠ flashSpaceUsing ∧ record.dwUsingFlag ≠ flashSpaceMask

instance (record : NameFlash) : Decidable record.Free := inferInstanceAs (Decidable (_ ∧ _))

/-- The string in a character field. -/
def fieldText (bytes : List UInt8) : List UInt8 := bytes.takeWhile (· ≠ 0)

/-- The values of the records follow each other from the given offset on. -/
def Contiguous : Nat → List NameFlash → Prop
  | _, [] => True
  | offset, record :: rest => record.dwOffsetByByte = offset ∧ Contiguous (offset + record.dwlength) rest

structure NamesInvariant (cells : Cells) (dataAddr : Nat) (names : List NameFlash) : Prop where
  isPrefix : ∃ count, ∀ (i : Nat) (record : NameFlash), names[i]? = some record → (record.Free ↔ count ≤ i)
  contiguous : Contiguous 0 (names.filter fun record => ¬record.Free)
  inside : ((names.filter fun record => ¬record.Free).map NameFlash.dwlength).sum ≤ flashSectorSize
  erased : ∀ a, ((names.filter fun record => ¬record.Free).map NameFlash.dwlength).sum ≤ a →
    a < flashSectorSize → cells (dataAddr + a) = 0xFF
  unique : ∀ (i j : Nat) (first second : NameFlash), names[i]? = some first → names[j]? = some second →
    first.dwUsingFlag = flashSpaceUsing → second.dwUsingFlag = flashSpaceUsing →
    fieldText first.ucName = fieldText second.ucName → i = j

structure RepInvariant (part : BkLogicPartition) (flash : Flash) : Prop where
  names : ∀ (slot : Nat) (entry : NamespaceFlash),
    (flash.readNamespaces part.partitionStartAddr part.slots)[slot]? = some entry →
    entry.dwUsingFlag = flashSpaceUsing →
    NamesInvariant flash.cells
      (part.partitionStartAddr + slot * flashSectorSize + nameFlashDataBaseAddr part.slots)
      (flash.readNames (part.partitionStartAddr + entry.dwOffsetByByte) flashNameMaxArray)
  unique : ∀ (i j : Nat) (first second : NamespaceFlash),
    (flash.readNamespaces part.partitionStartAddr part.slots)[i]? = some first →
    (flash.readNamespaces part.partitionStartAddr part.slots)[j]? = some second →
    first.dwUsingFlag = flashSpaceUsing → second.dwUsingFlag = flashSpaceUsing →
    fieldText first.ucNamespace = fieldText second.ucNamespace → i = j

/-! ## From the directory -/

section
variable {part : BkLogicPartition} {flash : Flash} {dir : Directory} {log : NameLog}

theorem toFlash_used (record : Record) (offset : Nat) : ¬(record.toFlash offset).Free := by
  cases live : record.live <;> simp [NameFlash.Free, Record.toFlash, Record.flag, live]

theorem toFlash_using {record : Record} {offset : Nat}
    (used : (record.toFlash offset).dwUsingFlag = flashSpaceUsing) : record.live = true := by
  cases live : record.live with
  | true => rfl
  | false =>
    simp [Record.toFlash, Record.flag, live, flashSpaceUsing, flashSpaceMask] at used

theorem filter_table (offset : Nat) (records : List Record) (count : Nat) :
    (tableFrom offset records ++ List.replicate count freeName).filter (fun record => ¬record.Free) =
      tableFrom offset records := by
  rw [List.filter_append]
  have free : (List.replicate count freeName).filter (fun record => ¬record.Free) = [] :=
    List.filter_eq_nil_iff.mpr fun record member => by
      rw [List.eq_of_mem_replicate member]
      decide
  have used : ∀ offset, (tableFrom offset records).filter (fun record => ¬record.Free) =
      tableFrom offset records := by
    induction records with
    | nil => intro offset; rfl
    | cons record rest ih =>
      intro offset
      rw [tableFrom, List.filter_cons_of_pos (by simpa using toFlash_used record offset), ih]
  rw [free, used, List.append_nil]

theorem contiguous_table (offset : Nat) (records : List Record) : Contiguous offset (tableFrom offset records) := by
  induction records generalizing offset with
  | nil => trivial
  | cons record rest ih => exact ⟨rfl, ih _⟩

theorem table_lengths (offset : Nat) (records : List Record) :
    ((tableFrom offset records).map NameFlash.dwlength).sum = valueBytes records := by
  induction records generalizing offset with
  | nil => rfl
  | cons record rest ih => simp [tableFrom, ih, Record.toFlash]

theorem table_getElem (records : List Record) (offset i : Nat) {record : NameFlash}
    (here : (tableFrom offset records)[i]? = some record) :
    ∃ source before, records[i]? = some source ∧ record = source.toFlash before := by
  induction records generalizing offset i with
  | nil => cases here
  | cons first rest ih =>
    cases i with
    | zero => exact ⟨first, offset, rfl, (Option.some.inj here).symm⟩
    | succ i => exact ih _ _ here

theorem names_invariant {pair : SectorPair} (held : HoldsLog pair flash.cells log)
    (distinct : Log.Distinct log.records) :
    NamesInvariant flash.cells pair.dataAddr (flash.readNames pair.nameAddr flashNameMaxArray) := by
  rw [readNames_sector held.names]
  have split : ∀ (i : Nat) (record : NameFlash), (tableFrom 0 log.records ++
      List.replicate (flashNameMaxArray - log.records.length) freeName)[i]? = some record →
      (∃ source before, log.records[i]? = some source ∧ record = source.toFlash before) ∨
      (log.records.length ≤ i ∧ record = freeName) := by
    intro i record here
    rw [List.getElem?_append, tableFrom_length] at here
    split at here
    · exact Or.inl (table_getElem _ _ _ here)
    next beyond =>
      exact Or.inr ⟨Nat.le_of_not_lt beyond, List.eq_of_mem_replicate (List.mem_of_getElem? here)⟩
  have short := log.short
  constructor
  · refine ⟨log.records.length, fun i record here => ?_⟩
    rcases split i record here with ⟨source, before, at_index, rfl⟩ | ⟨beyond, rfl⟩
    · have inside := (List.getElem?_eq_some_iff.mp at_index).1
      exact ⟨fun free => absurd free (toFlash_used _ _), fun beyond => absurd inside (Nat.not_lt.mpr beyond)⟩
    · exact ⟨fun _ => beyond, fun _ => freeName_flag⟩
  · rw [filter_table]
    exact contiguous_table _ _
  · rw [filter_table, table_lengths]
    exact Nat.le_of_lt short
  · rw [filter_table, table_lengths]
    intro a low high
    have values := held.values
    rw [dataSector, holds_append, valuesOf_length] at values
    exact values.2.blank_cell (by omega) (by omega)
  · intro i j first second left right firstUsed secondUsed same
    rcases split i first left with ⟨source, before, here, rfl⟩ | ⟨-, rfl⟩
    · rcases split j second right with ⟨source', before', there, rfl⟩ | ⟨-, rfl⟩
      · have named := log.named source (List.mem_of_getElem? here)
        have named' := log.named source' (List.mem_of_getElem? there)
        have texts : source.key = source'.key := by
          have width : nameLimit < nameWidth := by decide
          have first := takeWhile_field (Nat.lt_of_le_of_lt named width) []
          have second := takeWhile_field (Nat.lt_of_le_of_lt named' width) []
          rw [List.append_nil] at first second
          exact CString.ext (first.symm.trans (same.trans second))
        exact distinct.index_unique here there (toFlash_using firstUsed) (toFlash_using secondUsed) texts
      · exact absurd secondUsed freeName_flag.1
    · exact absurd firstUsed freeName_flag.1

theorem entriesFrom_getElem (dir : Directory) (slot i : Nat) {entry : NamespaceFlash}
    (here : (entriesFrom slot dir)[i]? = some entry) (used : entry.dwUsingFlag = flashSpaceUsing) :
    ∃ name log, dir[i]? = some (.used name log) ∧ entry = newNamespaceEntry name.text (slot + i) := by
  induction dir generalizing slot i with
  | nil => cases here
  | cons first rest ih =>
    cases i with
    | zero =>
      obtain rfl := Option.some.inj here
      cases first with
      | free => exact absurd used freeNamespace_flag
      | used name log => exact ⟨name, log, rfl, rfl⟩
    | succ i =>
      obtain ⟨name, log, at_index, rfl⟩ := ih (slot + 1) i here
      refine ⟨name, log, at_index, ?_⟩
      rw [Nat.add_right_comm, Nat.add_assoc]

theorem entry_text {first second : NsName} {i j : Nat}
    (same : fieldText (newNamespaceEntry first.text i).ucNamespace =
      fieldText (newNamespaceEntry second.text j).ucNamespace) : first = second := by
  have width : nsLimit < nsWidth := by decide
  have stored : ∀ name : NsName, fieldText (newNamespaceEntry name.text i).ucNamespace = name.text.chars := by
    intro name
    have whole : name.text.truncate (nsWidth - 1) = name.text := CString.truncate_of_le name.fits
    have text := takeWhile_field (Nat.lt_of_le_of_lt name.fits width) []
    rw [List.append_nil] at text
    rw [newNamespaceEntry, whole]
    exact text
  have texts : first.text = second.text := CString.ext ((stored first).symm.trans (same.trans (stored second)))
  cases first
  cases second
  cases texts
  rfl

theorem Represents.invariant (rep : Represents part flash.cells dir) (fits : part.Fits) (tidy : dir.Tidy) :
    RepInvariant part flash := by
  have directory := rep.readNamespaces fits.few
  constructor
  · intro slot entry here used
    rw [directory] at here
    obtain ⟨name, log, content, rfl⟩ := entriesFrom_getElem dir 0 slot here used
    have inside : slot < part.slots := rep.size ▸ (List.getElem?_eq_some_iff.mp content).1
    have invariant := names_invariant (rep.logs slot inside) (tidy.logs slot)
    rw [part.pair_dataAddr inside, part.pair_nameAddr inside] at invariant
    rw [Nat.zero_add]
    exact invariant
  · intro i j first second left right firstUsed secondUsed same
    rw [directory] at left right
    obtain ⟨name, log, here, rfl⟩ := entriesFrom_getElem dir 0 i left firstUsed
    obtain ⟨name', log', there, rfl⟩ := entriesFrom_getElem dir 0 j right secondUsed
    exact tidy.slots i j name name' log log' here there (entry_text same)

/-- Every state of a run whose calls add no entry that is stored already satisfies the invariant. -/
theorem rep_invariant_of_run {table : BkPartitions} {start : Flash} {events : List Event} (fits : table.Fits)
    (erased : Erased table start) (run : Run (Called table) start events flash)
    (calls : ∀ event ∈ events, event.call.Sane ∧ event.Fresh table) (type : BkPartition) :
    RepInvariant (table.info type) flash := by
  obtain ⟨store, rep, tidy⟩ := tidy_of_run fits erased run calls
  exact (rep.info type).invariant (fits.info type) (tidy type)

end

/-! ## Sample runs -/

theorem first_write_invariant : RepInvariant bkFlashPartitions.matterFlash firstFlash :=
  rep_invariant_of_run bkFlashPartitions_fits (erased_fresh _) (.next .nil called_first)
    (fun event member => by
      rw [List.mem_singleton.mp member]
      exact ⟨(plain_writeByte 1).sane, (plain_writeByte 1).inRange.fresh _ _ _ rfl rfl⟩) .matterFlash

/-- A name within the limit whose translation is one byte too long for its field. -/
def fortyBytes : CString := ⟨List.replicate 40 97, by decide⟩

def configWrite : Call := .writeData (some chipConfig) (some fortyBytes) (some (.filled 1 1 one_inWord))

def onceFlash : Flash := (configWrite.run bkFlashPartitions granted .fresh).flash

def twiceFlash : Flash := (configWrite.run bkFlashPartitions granted onceFlash).flash

/-- What both writes leave in the name sector, up to the offset of the value. -/
def storedRecord (offset : Nat) : NameFlash :=
  ⟨flashSpaceUsing, offset, 1, field nameWidth (((chipConfig.append dot).append fortyBytes).truncate nameLimit)⟩

/-- The second of two equal writes does not find the first one's record. -/
theorem same_name_twice :
    Run (Called bkFlashPartitions) .fresh [⟨onceFlash, granted, configWrite, .status .kNoErr⟩,
      ⟨.fresh, granted, configWrite, .status .kNoErr⟩] twiceFlash ∧
    chipConfig.strlen ≤ nsLimit ∧ fortyBytes.strlen ≤ nameLimit ∧
    ¬RepInvariant bkFlashPartitions.matterFlash twiceFlash := by
  refine ⟨.next (.next .nil (called_of_reply ?_)) (called_of_reply ?_), by decide, by decide, fun invariant => ?_⟩
  · decide +kernel
  · decide +kernel
  · have entry : (twiceFlash.readNamespaces 0x1e2000 4)[0]? = some (newNamespaceEntry beken0 0) := by
      decide +kernel
    have first : (twiceFlash.readNames 0x1e3000 flashNameMaxArray)[0]? = some (storedRecord 0) := by
      decide +kernel
    have second : (twiceFlash.readNames 0x1e3000 flashNameMaxArray)[1]? = some (storedRecord 1) := by
      decide +kernel
    exact absurd ((invariant.names 0 _ entry rfl).unique 0 1 _ _ first second rfl rfl rfl) (by decide)

end BekenSdk.KeyValue
