import BekenSdk.KeyValue.Partition

/-! The functions of the store on a partition that represents a directory.
Every one agrees with the operation of the same name on the directory, and
touches only the area of its partition.
-/

set_option autoImplicit false

namespace BekenSdk.KeyValue
open BekenSdk.Base

structure Represents (part : BkLogicPartition) (cells : Cells) (dir : Directory) : Prop where
  size : dir.length = part.slots
  entries : Holds cells part.partitionStartAddr (entriesBytes 0 dir)
  logs : ∀ slot (inside : slot < part.slots), HoldsLog (part.pair inside) cells (dir.logAt slot)

theorem Agrees.mono {α S : Type} {small large : Nat → Prop} {represents : Cells → S → Prop} {flash : Flash}
    {outcome : Outcome α} {result : Option (α × S)} (agrees : Agrees small represents flash outcome result)
    (sub : ∀ a, small a → large a) : Agrees large represents flash outcome result := by
  cases result with
  | none =>
    obtain ⟨after, run, changes⟩ := agrees
    exact ⟨after, run, changes.mono sub⟩
  | some result =>
    obtain ⟨after, run, state, changes⟩ := agrees
    exact ⟨after, run, state, changes.mono sub⟩

/-- Work done before a function counts to the whole. -/
theorem Agrees.after {α S : Type} {region : Nat → Prop} {represents : Cells → S → Prop} {first second : Flash}
    {outcome : Outcome α} {result : Option (α × S)} (changes : Flash.Changes region first second)
    (agrees : Agrees region represents second outcome result) :
    Agrees region represents first outcome result := by
  cases result with
  | none =>
    obtain ⟨after, run, more⟩ := agrees
    exact ⟨after, run, changes.trans more⟩
  | some result =>
    obtain ⟨after, run, state, more⟩ := agrees
    exact ⟨after, run, state, changes.trans more⟩

section
variable {part : BkLogicPartition} {dir : Directory} {flash : Flash}

/-! ## Updating one slot -/

theorem Represents.directory_fits (rep : Represents part flash.cells dir) (few : part.slots ≤ flashNameMaxArray) :
    (entriesBytes 0 dir).length ≤ flashSectorSize := by
  rw [entriesBytes_length, rep.size]
  simp only [perNameSpaceFlashSize, flashSectorSize, flashNameMaxArray] at *
  omega

/-- Slots keep their logs when only another slot's sectors or the directory change. -/
theorem Represents.other_log (rep : Represents part flash.cells dir) {after : Flash} {region : Nat → Prop}
    (changes : Flash.Changes region flash after) {slot : Nat} (inside : slot < part.slots)
    (apart : ∀ a, (part.pair inside).region a → ¬region a) :
    HoldsLog (part.pair inside) after.cells (dir.logAt slot) :=
  (rep.logs slot inside).congr changes (dir.logAt slot).few (Nat.le_of_lt (dir.logAt slot).short)
    (dir.logAt slot).named apart

theorem Represents.setLog (rep : Represents part flash.cells dir) (few : part.slots ≤ flashNameMaxArray)
    {slot : Nat} (inside : slot < part.slots) {name : NsName} {old log : NameLog} {after : Flash}
    (here : dir[slot]? = some (.used name old)) (held : HoldsLog (part.pair inside) after.cells log)
    (changes : Flash.Changes (part.pair inside).region flash after) :
    Represents part after.cells (dir.setLog slot log) := by
  have fits := rep.directory_fits few
  refine ⟨by rw [Directory.setLog, List.length_modify, rep.size], ?_, ?_⟩
  · rw [Directory.setLog, entriesBytes_modify]
    refine holds_of_changes changes rep.entries fun a low high touched => ?_
    have after := part.pair_after_directory inside touched
    omega
  · intro other otherInside
    rw [Directory.logAt_setLog here]
    by_cases same : other = slot
    · subst same
      rw [if_pos rfl]
      exact held
    · rw [if_neg same]
      exact rep.other_log changes otherInside fun a touched =>
        part.pair_apart otherInside inside same touched

/-! ## Lookups -/

theorem Represents.find_inside (rep : Represents part flash.cells dir) {ns : CString} {slot : Nat}
    (found : dir.find ns = some slot) : slot < part.slots := by
  obtain ⟨name, log, here, -⟩ := Directory.find_some found
  rw [← rep.size]
  exact (List.getElem?_eq_some_iff.mp here).1

theorem Represents.readNamespaces (rep : Represents part flash.cells dir)
    (few : part.slots ≤ flashNameMaxArray) :
    flash.readNamespaces part.partitionStartAddr part.slots = entriesFrom 0 dir := by
  rw [← rep.size]
  exact readNamespaces_directory (by rw [Nat.zero_add, rep.size]; exact few) rep.entries

variable {table : BkPartitions} {malloc : OsMalloc} {ns name : CString}

theorem getNamespaceAddr_spec (rep : Represents part flash.cells dir) (few : part.slots ≤ flashNameMaxArray)
    (here : table.ofNamespace ns = part) :
    getNamespaceAddr table malloc ns part.partitionStartAddr flash =
      (dir.findWith malloc ns).map slotAddr := by
  unfold getNamespaceAddr Directory.findWith getFalshNameSpaceMaxArray
  rw [here, rep.readNamespaces few, findNamespace_directory]
  simp only [Nat.zero_add]
  split <;> rfl

theorem findWith_some {slot : Nat} (found : dir.findWith malloc ns = some slot) :
    malloc .getNamespaceAddr = true ∧ dir.find ns = some slot := by
  unfold Directory.findWith at found
  split at found
  next granted => exact ⟨granted, found⟩
  next => cases found

/-! ## Claiming a slot -/

theorem entriesBytes_set {slot index : Nat} {content : Slot} {first rest : Directory} {old : Slot}
    (split : dir = first ++ old :: rest) (here : index = first.length) :
    entriesBytes slot (dir.set index content) =
      entriesBytes slot first ++ (content.entryBytes (slot + index) ++ entriesBytes (slot + index + 1) rest) := by
  subst here
  rw [split, List.set_append_right _ _ (Nat.le_refl _), Nat.sub_self, List.set_cons_zero,
    entriesBytes_append, entriesBytes]

theorem split_at {slot : Nat} {old : Slot} (here : dir[slot]? = some old) :
    ∃ first rest, dir = first ++ old :: rest ∧ slot = first.length := by
  obtain ⟨inside, same⟩ := List.getElem?_eq_some_iff.mp here
  refine ⟨dir.take slot, dir.drop (slot + 1), ?_, by rw [List.length_take]; omega⟩
  rw [← same, ← List.drop_eq_getElem_cons inside, List.take_append_drop]

variable (ns) in
theorem Represents.allocate (rep : Represents part flash.cells dir) (few : part.slots ≤ flashNameMaxArray)
    {slot : Nat} (free : dir[slot]? = some .free) :
    Represents part
        (flash.ddevWrite (newNamespaceEntry ns slot).toBytes
          (part.partitionStartAddr + slot * perNameSpaceFlashSize)).cells
        (dir.set slot (.used (.of ns) .empty)) ∧
      Flash.Changes part.area flash
        (flash.ddevWrite (newNamespaceEntry ns slot).toBytes
          (part.partitionStartAddr + slot * perNameSpaceFlashSize)) := by
  have inside := (List.getElem?_eq_some_iff.mp free).1
  have insidePart : slot < part.slots := rep.size ▸ inside
  obtain ⟨first, rest, split, position⟩ := split_at free
  have entry : (Slot.used (.of ns) .empty).entryBytes slot = (newNamespaceEntry ns slot).toBytes := by
    have twice : (ns.truncate nsLimit).truncate (nsWidth - 1) = ns.truncate (nsWidth - 1) :=
      CString.truncate_of_le (CString.truncate_strlen_le _ _)
    simp only [Slot.entryBytes, NsName.of, newNamespaceEntry, twice]
  have width := entryBytes_length slot (.used (.of ns) .empty)
  rw [entry] at width
  have changes : Flash.Changes (fun a => part.partitionStartAddr + slot * perNameSpaceFlashSize ≤ a ∧
      a < part.partitionStartAddr + slot * perNameSpaceFlashSize + perNameSpaceFlashSize) flash
      (flash.ddevWrite (newNamespaceEntry ns slot).toBytes
        (part.partitionStartAddr + slot * perNameSpaceFlashSize)) :=
    Flash.Changes.ddevWrite flash fun a low high => ⟨low, by rw [width] at high; exact high⟩
  refine ⟨⟨by rw [List.length_set, rep.size], ?_, ?_⟩, changes.mono ?_⟩
  · have held := rep.entries
    rw [split, entriesBytes_append, entriesBytes, holds_append, holds_append, entryBytes_length,
      entriesBytes_length, ← position, Nat.zero_add, Nat.mul_comm] at held
    obtain ⟨before, here, after⟩ := held
    rw [entriesBytes_set split position, holds_append, holds_append, entriesBytes_length,
      ← position, Nat.zero_add, entry, width, Nat.mul_comm perNameSpaceFlashSize]
    refine ⟨before.program_frame (Or.inl ?_), ?_, after.program_frame (Or.inr ?_)⟩
    · rw [entriesBytes_length, ← position, Nat.mul_comm]
    · exact Holds.program_blank (by rw [width]; exact here)
    · rw [width]
  · intro other otherInside
    rw [Directory.logAt_set inside]
    have kept := rep.other_log changes otherInside fun a touched window => by
      have beyond := part.pair_after_directory otherInside touched
      simp only [perNameSpaceFlashSize, flashNameMaxArray, flashSectorSize] at *
      omega
    by_cases same : other = slot
    · subst same
      have blankLog : dir.logAt other = .empty := by
        rw [Directory.logAt, List.getD_eq_getElem?_getD, free]
        rfl
      rw [if_pos rfl]
      rw [blankLog] at kept
      exact kept
    · rw [if_neg same]
      exact kept
  · intro a window
    simp only [perNameSpaceFlashSize, flashNameMaxArray, flashSectorSize, BkLogicPartition.area] at *
    omega

variable (malloc) in
theorem bkSetNamespace_spec (rep : Represents part flash.cells dir) (few : part.slots ≤ flashNameMaxArray)
    (here : table.ofNamespace ns = part) :
    match dir.allocate malloc ns with
    | some (slot, result) => ∃ after,
        bkSetNamespace table malloc ns part.partitionStartAddr flash = (some (slotAddr slot), after) ∧
        dir[slot]? = some .free ∧ Represents part after.cells result ∧ Flash.Changes part.area flash after
    | none => bkSetNamespace table malloc ns part.partitionStartAddr flash = (none, flash) := by
  unfold bkSetNamespace Directory.allocate getFalshNameSpaceMaxArray
  rw [here, rep.readNamespaces few, firstFree_directory]
  simp only [Nat.zero_add]
  by_cases granted : malloc .setNamespace = true
  · rw [if_pos granted, if_pos granted]
    cases found : dir.firstFree with
    | none => rfl
    | some slot =>
      have free := Directory.firstFree_some found
      obtain ⟨result, changes⟩ := rep.allocate ns few free
      exact ⟨_, rfl, free, result, changes⟩
  · rw [if_neg granted, if_neg granted]

/-! ## Writing and deleting -/

/-- A function that agrees on a slot's log agrees on the directory. -/
theorem Represents.lift (rep : Represents part flash.cells dir) (few : part.slots ≤ flashNameMaxArray)
    {slot : Nat} (inside : slot < part.slots) {nsName : NsName} {log : NameLog}
    (here : dir[slot]? = some (.used nsName log)) {α : Type} {outcome : Outcome α}
    {result : Option (α × NameLog)}
    (agrees : Agrees (part.pair inside).region (HoldsLog (part.pair inside)) flash outcome result) :
    Agrees part.area (Represents part) flash outcome
      (result.map fun result => (result.1, dir.setLog slot result.2)) := by
  cases result with
  | none => exact agrees.mono fun a touched => part.pair_area inside touched
  | some result =>
    obtain ⟨after, run, held, changes⟩ := agrees
    exact ⟨after, run, rep.setLog few inside here held changes,
      changes.mono fun a touched => part.pair_area inside touched⟩

variable {indata : Buffer}

theorem writeAt_spec (rep : Represents part flash.cells dir) (few : part.slots ≤ flashNameMaxArray)
    (here : table.ofNamespace ns = part) {slot : Nat} {nsName : NsName} {log : NameLog}
    (used : dir[slot]? = some (.used nsName log)) (sane : indata.bytes.length + flashSectorSize ≤ 2 ^ 32) :
    Agrees part.area (Represents part) flash
      (bkSetNameData table malloc ns name part.partitionStartAddr indata (slotAddr slot).1 (slotAddr slot).2 flash)
      (dir.writeAt malloc slot name indata.bytes) := by
  have inside : slot < part.slots := rep.size ▸ (List.getElem?_eq_some_iff.mp used).1
  refine rep.lift few inside used (bkSetNameData_spec (rep.logs slot inside) ?_ ?_ sane)
  · exact (part.pair_nameAddr inside).symm
  · rw [getFalshNameSpaceMaxArray, here]
    exact (part.pair_dataAddr inside).symm

theorem write_spec (rep : Represents part flash.cells dir) (few : part.slots ≤ flashNameMaxArray)
    (here : table.ofNamespace ns = part) (sane : indata.bytes.length + flashSectorSize ≤ 2 ^ 32) :
    Agrees part.area (Represents part) flash
      (match getNamespaceAddr table malloc ns part.partitionStartAddr flash with
        | some (dwOffsetAddr, dwOffBlock) =>
          bkSetNameData table malloc ns name part.partitionStartAddr indata dwOffsetAddr dwOffBlock flash
        | none =>
          match bkSetNamespace table malloc ns part.partitionStartAddr flash with
          | (some (dwOffsetAddr, dwOffBlock), flash) =>
            bkSetNameData table malloc ns name part.partitionStartAddr indata dwOffsetAddr dwOffBlock flash
          | (none, flash) => .done .kGeneralErr flash)
      (dir.write malloc ns name indata.bytes) := by
  unfold Directory.write
  rw [getNamespaceAddr_spec rep few here]
  cases found : dir.findWith malloc ns with
  | some slot =>
    obtain ⟨nsName, log, used, -⟩ := Directory.find_some (findWith_some found).2
    exact writeAt_spec rep few here used sane
  | none =>
    have claim := bkSetNamespace_spec malloc rep few here
    cases allocated : dir.allocate malloc ns with
    | none =>
      rw [allocated] at claim
      simp only [Option.map_none, claim]
      exact ⟨flash, rfl, rep, .refl _ _⟩
    | some result =>
      obtain ⟨slot, fresh⟩ := result
      rw [allocated] at claim
      obtain ⟨after, run, free, result, changes⟩ := claim
      have inside := (List.getElem?_eq_some_iff.mp free).1
      have same : fresh = dir.set slot (.used (.of ns) .empty) := by
        unfold Directory.allocate at allocated
        split at allocated
        · obtain ⟨first, -, pair⟩ := Option.map_eq_some_iff.mp allocated
          obtain ⟨rfl, rfl⟩ := Prod.mk.inj pair
          rfl
        · cases allocated
      have used : fresh[slot]? = some (.used (.of ns) .empty) := by
        rw [same, List.getElem?_set_self inside]
      simp only [Option.map_none, run]
      exact (writeAt_spec result few here used sane).after changes

theorem clean_directory_spec (rep : Represents part flash.cells dir) (few : part.slots ≤ flashNameMaxArray)
    (here : table.ofNamespace ns = part) :
    Agrees part.area (Represents part) flash
      (match getNamespaceAddr table malloc ns part.partitionStartAddr flash with
        | none => .done .kGeneralErr flash
        | some (dwOffsetAddr, _) =>
          match getNameAddr malloc (some name) (part.partitionStartAddr + dwOffsetAddr) flash with
          | none => .done .kGeneralErr flash
          | some (dwNameOffset, _) =>
            .done .kNoErr (flash.ddevWrite (le32 flashSpaceMask)
              (part.partitionStartAddr + dwOffsetAddr + dwNameOffset)))
      (some (dir.clean malloc ns name)) := by
  unfold Directory.clean
  rw [getNamespaceAddr_spec rep few here]
  cases found : dir.findWith malloc ns with
  | none => exact ⟨flash, rfl, rep, .refl _ _⟩
  | some slot =>
    have bound := (findWith_some found).2
    obtain ⟨nsName, log, used, -⟩ := Directory.find_some bound
    have inside := rep.find_inside bound
    have cleaned := rep.lift few inside used (clean_spec malloc name (rep.logs slot inside))
    rw [part.pair_nameAddr inside] at cleaned
    exact cleaned

/-! ## Clearing a namespace -/

/-- Writing entries back into an erased directory. -/
theorem restoreNamespaces_spec {base slot : Nat}
    (held : Holds flash.cells (base + slot * perNameSpaceFlashSize) (blank (perNameSpaceFlashSize * dir.length))) :
    Holds (restoreNamespaces base (entriesFrom slot dir) slot flash).cells
        (base + slot * perNameSpaceFlashSize) (entriesBytes slot dir) ∧
      Flash.Changes (fun a => base + slot * perNameSpaceFlashSize ≤ a ∧
          a < base + (slot + dir.length) * perNameSpaceFlashSize) flash
        (restoreNamespaces base (entriesFrom slot dir) slot flash) := by
  induction dir generalizing slot flash with
  | nil => exact ⟨trivial, .refl _ _⟩
  | cons content rest ih =>
    have width := entryBytes_length slot content
    have next : base + slot * perNameSpaceFlashSize + perNameSpaceFlashSize =
        base + (slot + 1) * perNameSpaceFlashSize := by rw [Nat.succ_mul, Nat.add_assoc]
    rw [List.length_cons, Nat.mul_succ, Nat.add_comm (_ * _), blank_add, holds_append, blank_length, next] at held
    obtain ⟨first, later⟩ := held
    -- the head is programmed over erased bytes, or left erased
    have head : ∃ middle, restoreNamespaces base (entriesFrom slot (content :: rest)) slot flash =
          restoreNamespaces base (entriesFrom (slot + 1) rest) (slot + 1) middle ∧
        Holds middle.cells (base + slot * perNameSpaceFlashSize) (content.entryBytes slot) ∧
        Flash.Changes (fun a => base + slot * perNameSpaceFlashSize ≤ a ∧
          a < base + (slot + 1) * perNameSpaceFlashSize) flash middle := by
      cases content with
      | free =>
        refine ⟨flash, ?_, first, .refl _ _⟩
        rw [entriesFrom, restoreNamespaces, Slot.entry, if_neg freeNamespace_flag]
      | used name log =>
        simp only [Slot.entryBytes] at width
        refine ⟨flash.ddevWrite (newNamespaceEntry name.text slot).toBytes
          (base + slot * perNameSpaceFlashSize), ?_, Holds.program_blank (by rw [width]; exact first), ?_⟩
        · rw [entriesFrom, restoreNamespaces, if_pos (by rfl)]
          rfl
        · exact Flash.Changes.ddevWrite flash fun a low high => ⟨low, by rw [width, next] at high; exact high⟩
    obtain ⟨middle, run, stored, changes⟩ := head
    have blankRest : Holds middle.cells (base + (slot + 1) * perNameSpaceFlashSize)
        (blank (perNameSpaceFlashSize * rest.length)) :=
      holds_of_changes changes later fun a low _ inside => by omega
    obtain ⟨tail, restoring⟩ := ih blankRest
    rw [run]
    refine ⟨?_, (changes.mono ?_).trans (restoring.mono ?_)⟩
    · rw [entriesBytes, holds_append, width, next]
      refine ⟨holds_of_changes restoring stored fun a low high inside => ?_, tail⟩
      rw [width, next] at high
      omega
    · intro a inside
      simp only [List.length_cons, perNameSpaceFlashSize] at *
      omega
    · intro a inside
      simp only [List.length_cons, perNameSpaceFlashSize] at *
      omega

/-- The cleared entry is not in use, so it is not written back. -/
theorem restoreNamespaces_cleared (base slot index : Nat) {content : Slot} (here : dir[index]? = some content) :
    restoreNamespaces base
        ((entriesFrom slot dir).modify index ({ · with dwUsingFlag := flashSpaceMask })) slot flash =
      restoreNamespaces base (entriesFrom slot (dir.set index .free)) slot flash := by
  induction dir generalizing slot index flash with
  | nil => cases here
  | cons first rest ih =>
    cases index with
    | zero =>
      have masked : ¬flashSpaceMask = flashSpaceUsing := by decide
      simp only [entriesFrom, List.modify_zero_cons, List.set_cons_zero, restoreNamespaces, Slot.entry]
      rw [if_neg masked, if_neg freeNamespace_flag]
    | succ index =>
      simp only [entriesFrom, List.modify_succ_cons, List.set_cons_succ, restoreNamespaces]
      exact ih _ _ here

theorem clear_spec (rep : Represents part flash.cells dir) (few : part.slots ≤ flashNameMaxArray)
    {slot : Nat} (inside : slot < part.slots) {nsName : NsName} {log : NameLog}
    (used : dir[slot]? = some (.used nsName log)) :
    let dwStartAddr := part.partitionStartAddr + nameSpaceFlashTotalSize + slot * nameFlashTotalSize
    let dataSectorAddr := part.partitionStartAddr + slot * flashSectorSize + nameFlashDataBaseAddr part.slots
    let erased := (bkEraseNameData dwStartAddr dataSectorAddr flash).eraseSector part.partitionStartAddr
    let kept := (entriesFrom 0 dir).modify slot ({ · with dwUsingFlag := flashSpaceMask })
    let after := restoreNamespaces part.partitionStartAddr kept 0 erased
    Represents part after.cells (dir.set slot .free) ∧ Flash.Changes part.area flash after := by
  have slotInside : slot < dir.length := rep.size ▸ inside
  intro dwStartAddr dataSectorAddr erased kept after
  have nameHere : dwStartAddr = (part.pair inside).nameAddr := by
    rw [part.pair_nameAddr inside]
    simp only [dwStartAddr]
    omega
  have dataHere : dataSectorAddr = (part.pair inside).dataAddr := (part.pair_dataAddr inside).symm
  obtain ⟨empty, erasing⟩ := holding_erased flash (part.pair inside)
  rw [← nameHere, ← dataHere] at empty erasing
  have directory : Flash.Changes (fun a => part.partitionStartAddr ≤ a ∧
      a < part.partitionStartAddr + flashSectorSize) (bkEraseNameData dwStartAddr dataSectorAddr flash) erased := by
    have step := Flash.Changes.eraseSector (bkEraseNameData dwStartAddr dataSectorAddr flash) part.sector
      (fun a low high => And.intro low high)
    rw [← part.start_eq] at step
    exact step
  have blankDirectory : Holds erased.cells (part.partitionStartAddr + 0 * perNameSpaceFlashSize)
      (blank (perNameSpaceFlashSize * (dir.set slot .free).length)) := by
    have whole := holds_erase flashSectorSize (bkEraseNameData dwStartAddr dataSectorAddr flash).cells
      (by decide) part.sector
    rw [← part.start_eq] at whole
    have room : blank flashSectorSize = blank (perNameSpaceFlashSize * dir.length) ++
        blank (flashSectorSize - perNameSpaceFlashSize * dir.length) := by
      have size := rep.size
      rw [← blank_add]
      congr 1
      simp only [perNameSpaceFlashSize, flashSectorSize, flashNameMaxArray] at *
      omega
    rw [room, holds_append] at whole
    rw [List.length_set, Nat.zero_mul, Nat.add_zero]
    exact whole.1
  obtain ⟨entries, restoring⟩ := restoreNamespaces_spec blankDirectory
  have run : after = restoreNamespaces part.partitionStartAddr (entriesFrom 0 (dir.set slot .free)) 0 erased :=
    restoreNamespaces_cleared _ _ _ used
  rw [← run] at entries restoring
  rw [Nat.zero_mul, Nat.add_zero] at entries
  have restoringDirectory : Flash.Changes (fun a => part.partitionStartAddr ≤ a ∧
      a < part.partitionStartAddr + flashSectorSize) erased after := by
    refine restoring.mono fun a window => ?_
    have size := rep.size
    simp only [List.length_set, perNameSpaceFlashSize, flashSectorSize, flashNameMaxArray] at *
    omega
  have rewriting := directory.trans restoringDirectory
  refine ⟨⟨by rw [List.length_set, rep.size], entries, ?_⟩, ?_⟩
  · intro other otherInside
    have beyond : ∀ a, (part.pair otherInside).region a → ¬(part.partitionStartAddr ≤ a ∧
        a < part.partitionStartAddr + flashSectorSize) := fun a touched window => by
      have after := part.pair_after_directory otherInside touched
      omega
    rw [Directory.logAt_set slotInside]
    by_cases same : other = slot
    · subst same
      rw [if_pos rfl]
      exact empty.congr rewriting (by decide) (by decide) (by simp) beyond
    · rw [if_neg same]
      have kept := rep.other_log erasing otherInside fun a touched =>
        part.pair_apart otherInside inside same touched
      exact Holding.congr kept rewriting (dir.logAt other).few (Nat.le_of_lt (dir.logAt other).short)
        (dir.logAt other).named beyond
  · refine (erasing.mono fun a touched => part.pair_area inside touched).trans (rewriting.mono fun a window => ?_)
    simp only [BkLogicPartition.area, flashSectorSize] at *
    omega

/-! ## Reading -/

variable (malloc name) in
theorem read_spec (rep : Represents part flash.cells dir) (few : part.slots ≤ flashNameMaxArray)
    (here : table.ofNamespace ns = part) (dwReadLen : Nat) :
    (match getNamespaceAddr table malloc ns part.partitionStartAddr flash with
      | some (dwOffsetAddr, dwOffBlock) =>
        match getNameAddr malloc (some name) (part.partitionStartAddr + dwOffsetAddr) flash with
        | some (dwNameOffset, dwDataOffsetAddr) =>
          let nameTemp := NameFlash.ofBytes (flash.ddevRead perNameFlashSize
            (part.partitionStartAddr + dwOffsetAddr + dwNameOffset))
          let dwActualLen := if dwReadLen > nameTemp.dwlength then nameTemp.dwlength else dwReadLen
          let dwDataAddr := part.partitionStartAddr + dwOffBlock * flashSectorSize +
            nameFlashDataBaseAddr part.slots + dwDataOffsetAddr
          some (flash.ddevRead dwActualLen dwDataAddr)
        | none => none
      | none => none) = (dir.lookupWith malloc ns name).map fun value => value.take dwReadLen := by
  unfold Directory.lookupWith
  rw [getNamespaceAddr_spec rep few here]
  cases found : dir.findWith malloc ns with
  | none => rfl
  | some slot =>
    have inside := rep.find_inside (findWith_some found).2
    have log := rep.logs slot inside
    simp only [Option.map_some, slotAddr, Option.bind_some]
    rw [← part.pair_nameAddr inside, ← part.pair_dataAddr inside]
    cases bound : (dir.logAt slot).lookupWith malloc name with
    | none => rw [getNameAddr_absent log bound]; rfl
    | some value =>
      obtain ⟨before, record, after, located, same, addr⟩ := getNameAddr_found log bound
      rw [addr]
      simp only [located.record_eq log]
      have length : (record.toFlash (valueBytes before)).dwlength = value.length := by rw [← same]; rfl
      have clip : (if dwReadLen > value.length then value.length else dwReadLen) = min dwReadLen value.length := by
        split <;> omega
      rw [length, clip, located.value_eq log (by rw [same]; exact Nat.min_le_right _ _), same,
        Option.map_some, ← List.take_eq_take_min]

end

end BekenSdk.KeyValue
