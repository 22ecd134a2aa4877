import BekenSdk.KeyValue.Operations

/-! The public functions on both partitions. `Call.run` is a call on flash and
`Call.step` the same call on a pair of directories; where both partitions have
room for their directory and sectors the first agrees with the second.
-/

set_option autoImplicit false

namespace BekenSdk.KeyValue
open BekenSdk.Base

/-! ## Calls on flash -/

inductive BkPartition where
  | matterFlash
  | matterFactoryFlash
  deriving DecidableEq, Repr

def BkPartitions.info (table : BkPartitions) : BkPartition → BkLogicPartition
  | .matterFlash => table.matterFlash
  | .matterFactoryFlash => table.matterFactoryFlash

inductive Call where
  | writeData (ucnamespace ucname : Option CString) (indata : Option Buffer)
  | cleanData (ucnamespace ucname : Option CString)
  | clearNamespace (ucnamespace : Option CString)
  | ensureNamespace (ucnamespace : Option CString)
  | ensureNameData (ucnamespace ucname : Option CString)
  | readData (ucnamespace ucname : Option CString) (dwReadLen : Nat)
  | eraseAll (type : BkPartition)

inductive Reply where
  | status (status : OSStatus)
  | data (bytes : Option (List UInt8))
  deriving DecidableEq

def Outcome.map {α β : Type} (change : α → β) : Outcome α → Outcome β
  | .done value flash => .done (change value) flash
  | .undefined flash => .undefined flash

@[simp] def Call.run (table : BkPartitions) (malloc : OsMalloc) (flash : Flash) : Call → Outcome Reply
  | .writeData ns name indata => (bkWriteData table malloc ns name indata flash).map .status
  | .cleanData ns name => (bkCleanData table malloc ns name flash).map .status
  | .clearNamespace ns => (bKClearNamespace table malloc ns flash).map .status
  | .ensureNamespace ns => (bkEnsureNamespace table malloc ns flash).map .status
  | .ensureNameData ns name => (bkEnsureNameData table malloc ns name flash).map .status
  | .readData ns name dwReadLen => (bkReadData table malloc ns name dwReadLen flash).map .data
  | .eraseAll type => (bkEraseAll (table.info type) flash).map .status

/-- The partition a call addresses. -/
def Call.partition : Call → BkPartition
  | .writeData _ _ _ | .cleanData _ _ | .clearNamespace _ => .matterFlash
  | .ensureNamespace ns | .ensureNameData ns _ | .readData ns _ _ =>
    if ns = some chipFactory then .matterFactoryFlash else .matterFlash
  | .eraseAll type => type

/-- No length is within a sector of 2^32, where the sums of the store would wrap. -/
def Call.Sane : Call → Prop
  | .writeData _ _ (some indata) => indata.bytes.length + flashSectorSize ≤ 2 ^ 32
  | _ => True

/-! ## Calls on directories -/

def partitionOf (ns : CString) : BkPartition :=
  if ns = chipFactory then .matterFactoryFlash else .matterFlash

theorem ofNamespace_eq (table : BkPartitions) (ns : CString) :
    table.ofNamespace ns = table.info (partitionOf ns) := by
  unfold BkPartitions.ofNamespace partitionOf
  split <;> rfl

theorem partitionOf_matter {ns : CString} (ne : ns ≠ chipFactory) : partitionOf ns = .matterFlash :=
  if_neg ne

def Directory.refuse (dir : Directory) : Option (Reply × Directory) := some (.status .kGeneralErr, dir)

def Directory.reply (result : OSStatus × Directory) : Reply × Directory := (.status result.1, result.2)

/-- A call on the directory of the partition it addresses. -/
@[simp] def Call.stepDir (malloc : OsMalloc) (dir : Directory) : Call → Option (Reply × Directory)
  | .writeData (some ns) (some name) (some indata) =>
    if ns = chipFactory then dir.refuse
    else
      match changeNamespaceToBeken ns (some (some name)) with
      | some (ns, some name) => (dir.write malloc ns name indata.bytes).map Directory.reply
      | _ => none
  | .writeData _ _ _ => dir.refuse
  | .cleanData (some ns) (some name) =>
    if ns = chipFactory then dir.refuse
    else
      match changeNamespaceToBeken ns (some (some name)) with
      | some (ns, some name) => some (Directory.reply (dir.clean malloc ns name))
      | _ => none
  | .cleanData _ _ => dir.refuse
  | .clearNamespace (some ns) =>
    if ns = chipFactory ∨ ns = chipConfig ∨ ns = chipCounters then dir.refuse
    else some (Directory.reply (dir.clear malloc ns))
  | .clearNamespace none => dir.refuse
  | .ensureNamespace (some ns) =>
    match changeNamespaceToBeken ns none with
    | some (ns, _) => some (Directory.reply (dir.ensure malloc ns))
    | none => none
  | .ensureNamespace none => dir.refuse
  | .ensureNameData (some ns) name =>
    match changeNamespaceToBeken ns (some name) with
    | some (ns, name) =>
      match name.bind (dir.lookupWith malloc ns) with
      | some _ => some (.status .kNoErr, dir)
      | none => dir.refuse
    | none => none
  | .ensureNameData none _ => dir.refuse
  | .readData (some ns) (some name) dwReadLen =>
    match changeNamespaceToBeken ns (some (some name)) with
    | some (ns, some name) =>
      some (.data ((dir.lookupWith malloc ns name).map fun value => value.take dwReadLen), dir)
    | _ => none
  | .readData _ _ _ => some (.data none, dir)
  | .eraseAll _ => some (.status .kNoErr, List.replicate dir.length .free)

/-- The directories of both partitions. -/
structure Store where
  matter : Directory
  factory : Directory

namespace Store

def dir (store : Store) : BkPartition → Directory
  | .matterFlash => store.matter
  | .matterFactoryFlash => store.factory

def setDir (store : Store) (dir : Directory) : BkPartition → Store
  | .matterFlash => { store with matter := dir }
  | .matterFactoryFlash => { store with factory := dir }

@[simp] theorem dir_setDir (store : Store) (dir : Directory) (type : BkPartition) :
    (store.setDir dir type).dir type = dir := by
  cases type <;> rfl

theorem dir_setDir_other (store : Store) (dir : Directory) {type other : BkPartition} (ne : other ≠ type) :
    (store.setDir dir type).dir other = store.dir other := by
  cases type <;> cases other <;> first | rfl | exact absurd rfl ne

end Store

def Call.step (malloc : OsMalloc) (store : Store) (call : Call) : Option (Reply × Store) :=
  (call.stepDir malloc (store.dir call.partition)).map fun result =>
    (result.1, store.setDir result.2 call.partition)

/-! ## Key translation -/

theorem changeNamespaceToBeken_name {ns ns' : CString} {name : CString} {name' : Option CString}
    (result : changeNamespaceToBeken ns (some (some name)) = some (ns', name')) :
    ∃ text, name' = some text := by
  simp only [changeNamespaceToBeken, prefixName, Option.join_some] at result
  grind

/-- Only the factory namespace is kept in the factory partition. -/
theorem changeNamespaceToBeken_partition {ns ns' : CString} {name : Option (Option CString)}
    {name' : Option CString} (result : changeNamespaceToBeken ns name = some (ns', name')) :
    partitionOf ns' = partitionOf ns := by
  have config : partitionOf chipConfig = .matterFlash := by decide
  have counters : partitionOf chipCounters = .matterFlash := by decide
  have zero : partitionOf beken0 = .matterFlash := by decide
  have one : partitionOf beken1 = .matterFlash := by decide
  simp only [changeNamespaceToBeken, prefixName] at result
  grind

/-! ## Partitions with room -/

def BkLogicPartition.within (part : BkLogicPartition) (a : Nat) : Prop :=
  part.partitionStartAddr ≤ a ∧ a < part.partitionStartAddr + part.partitionLength

/-- The directory fits its sector, and all sectors fit the partition. -/
structure BkLogicPartition.Fits (part : BkLogicPartition) : Prop where
  few : part.slots ≤ flashNameMaxArray
  room : flashSectorSize * (1 + 2 * part.slots) ≤ part.partitionLength

structure BkPartitions.Fits (table : BkPartitions) : Prop where
  matter : table.matterFlash.Fits
  factory : table.matterFactoryFlash.Fits

theorem BkPartitions.Fits.info {table : BkPartitions} (fits : table.Fits) (type : BkPartition) :
    (table.info type).Fits := by
  cases type
  · exact fits.matter
  · exact fits.factory

theorem BkLogicPartition.Fits.area_within {part : BkLogicPartition} (fits : part.Fits) {a : Nat}
    (inside : part.area a) : part.within a :=
  ⟨inside.1, Nat.lt_of_lt_of_le inside.2 (Nat.add_le_add_left fits.room _)⟩

theorem BkPartitions.within_apart (table : BkPartitions) {type other : BkPartition} (ne : type ≠ other)
    {a : Nat} (inside : (table.info type).within a) : ¬(table.info other).within a := by
  have apart := table.apart
  cases type <;> cases other <;>
    first
    | exact absurd rfl ne
    | simp only [BkPartitions.info, BkLogicPartition.within] at *; omega

/-- An odd number of sectors leaves room for every slot. -/
theorem BkLogicPartition.fits_of_odd {part : BkLogicPartition} {half : Nat}
    (odd : part.partitionLength = flashSectorSize * (2 * half + 1)) (few : part.slots ≤ flashNameMaxArray) :
    part.Fits := by
  refine ⟨few, ?_⟩
  rw [odd]
  have slots : part.slots = half % 256 := by
    rw [BkLogicPartition.slots, odd, Nat.mul_div_cancel_left _ (by decide)]
    omega
  have small := Nat.mod_le half 256
  simp only [slots, flashSectorSize]
  omega

/-! ## Agreement -/

structure Represented (table : BkPartitions) (cells : Cells) (store : Store) : Prop where
  matter : Represents table.matterFlash cells store.matter
  factory : Represents table.matterFactoryFlash cells store.factory

section
variable {table : BkPartitions} {malloc : OsMalloc} {flash : Flash} {store : Store}

theorem Represented.info (rep : Represented table flash.cells store) (type : BkPartition) :
    Represents (table.info type) flash.cells (store.dir type) := by
  cases type
  · exact rep.matter
  · exact rep.factory

theorem represents_of_changes {part : BkLogicPartition} {dir : Directory} {after : Flash} {region : Nat → Prop}
    (rep : Represents part flash.cells dir) (fits : part.Fits) (changes : Flash.Changes region flash after)
    (apart : ∀ a, part.within a → ¬region a) : Represents part after.cells dir := by
  have outside : ∀ a, part.area a → ¬region a := fun a inside => apart a (fits.area_within inside)
  refine ⟨rep.size, holds_of_changes changes rep.entries fun a low high => outside a ⟨low, ?_⟩, ?_⟩
  · have bounded := rep.directory_fits fits.few
    simp only [flashSectorSize] at *
    omega
  · intro slot inside
    exact rep.other_log changes inside fun a here => outside a (part.pair_area inside here)

/-- Agreement on one partition is agreement on the store, as the other is left alone. -/
theorem Represented.lift (rep : Represented table flash.cells store) (fits : table.Fits) (type : BkPartition)
    {α : Type} {outcome : Outcome α} {result : Option (α × Directory)}
    (agrees : Agrees (table.info type).within (Represents (table.info type)) flash outcome result) :
    Agrees (table.info type).within (Represented table) flash outcome
      (result.map fun result => (result.1, store.setDir result.2 type)) := by
  cases result with
  | none => exact agrees
  | some result =>
    obtain ⟨after, run, here, changes⟩ := agrees
    have others : ∀ other, Represents (table.info other) after.cells ((store.setDir result.2 type).dir other) := by
      intro other
      by_cases same : other = type
      · subst same
        rw [Store.dir_setDir]
        exact here
      · rw [Store.dir_setDir_other _ _ same]
        exact represents_of_changes (rep.info other) (fits.info other) changes fun a inside =>
          table.within_apart same inside
    exact ⟨after, run, ⟨others .matterFlash, others .matterFactoryFlash⟩, changes⟩

theorem ensure_spec {part : BkLogicPartition} {dir : Directory} {ns : CString}
    (rep : Represents part flash.cells dir) (few : part.slots ≤ flashNameMaxArray)
    (here : table.ofNamespace ns = part) :
    Agrees part.area (Represents part) flash
      (match getNamespaceAddr table malloc ns part.partitionStartAddr flash with
        | some _ => .done .kNoErr flash
        | none =>
          match bkSetNamespace table malloc ns part.partitionStartAddr flash with
          | (some _, flash) => .done .kNoErr flash
          | (none, flash) => .done .kGeneralErr flash)
      (some (dir.ensure malloc ns)) := by
  unfold Directory.ensure
  rw [getNamespaceAddr_spec rep few here]
  cases found : dir.findWith malloc ns with
  | some slot => exact ⟨flash, rfl, rep, .refl _ _⟩
  | none =>
    have claim := bkSetNamespace_spec malloc rep few here
    cases allocated : dir.allocate malloc ns with
    | none =>
      rw [allocated] at claim
      simp only [Option.map_none, claim]
      exact ⟨flash, rfl, rep, .refl _ _⟩
    | some result =>
      rw [allocated] at claim
      obtain ⟨after, run, -, result, changes⟩ := claim
      simp only [Option.map_none, run]
      exact ⟨after, rfl, result, changes⟩

theorem represents_erased {part : BkLogicPartition}
    (erased : ∀ a, part.area a → flash.cells a = 0xFF) :
    Represents part flash.cells (List.replicate part.slots .free) := by
  have bytes : ∀ count slot, entriesBytes slot (List.replicate count .free) =
      blank (perNameSpaceFlashSize * count) := by
    intro count
    induction count with
    | zero => intro slot; rfl
    | succ count ih =>
      intro slot
      rw [List.replicate_succ, entriesBytes, ih, Nat.mul_succ, Nat.add_comm, blank_add]
      rfl
  refine ⟨List.length_replicate, ?_, ?_⟩
  · rw [bytes]
    refine holds_of_blank fun a low high => erased a ⟨low, ?_⟩
    simp only [perNameSpaceFlashSize, flashSectorSize] at *
    omega
  · intro slot inside
    have free : Directory.logAt (List.replicate part.slots .free) slot = .empty := by
      simp [Directory.logAt, List.getD_eq_getElem?_getD, inside, Slot.log]
    rw [free]
    constructor
    · exact holds_of_blank fun a low high => erased a (part.pair_area inside (Or.inl ⟨low, high⟩))
    · exact holds_of_blank fun a low high => erased a (part.pair_area inside (Or.inr ⟨low, high⟩))

theorem eraseSectors_spec (count sector : Nat) (flash : Flash) :
    let after := eraseSectors count (flashSectorSize * sector) flash
    Flash.Changes (fun a => flashSectorSize * sector ≤ a ∧ a < flashSectorSize * (sector + count)) flash after ∧
      ∀ a, flashSectorSize * sector ≤ a → a < flashSectorSize * (sector + count) → after.cells a = 0xFF := by
  induction count generalizing sector flash with
  | zero => exact ⟨.refl _ _, fun a low high => absurd low (Nat.not_le.mpr high)⟩
  | succ count ih =>
    have next : flashSectorSize * sector + nameSpaceFlashTotalSize = flashSectorSize * (sector + 1) := rfl
    obtain ⟨rest, blanked⟩ := ih (sector + 1) (flash.eraseSector (flashSectorSize * sector))
    have first := Flash.Changes.eraseSector flash sector fun a low high => And.intro low high
    simp only [eraseSectors, next]
    refine ⟨(first.mono ?_).trans (rest.mono ?_), ?_⟩
    · intro a inside
      simp only [flashSectorSize] at *
      omega
    · intro a inside
      simp only [flashSectorSize] at *
      omega
    · intro a low high
      by_cases head : a < flashSectorSize * sector + flashSectorSize
      · rw [rest.cells a (by simp only [flashSectorSize] at *; omega), Flash.eraseSector_cells,
          eraseSector_aligned _ _ (by decide), if_pos ⟨low, head⟩]
      · exact blanked a (by simp only [flashSectorSize] at *; omega)
          (by simp only [flashSectorSize] at *; omega)

end

end BekenSdk.KeyValue
