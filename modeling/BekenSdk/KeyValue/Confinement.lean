import BekenSdk.KeyValue.LastWrite

/-! Where the store erases and programs. With room for every slot each call stays in
the partition it addresses, and the sectors of different namespaces are apart.
The factory partition is programmed by one call only: ensuring its namespace.
-/

set_option autoImplicit false

namespace BekenSdk.KeyValue
open BekenSdk.Base

section
variable {table : BkPartitions} {malloc : OsMalloc} {flash start : Flash} {events : List Event}

/-! ## Operations and regions -/

/-- What was issued between two states targets the region only. -/
def IssuedWithin (region : Nat → Prop) (before after : Flash) : Prop :=
  ∃ issued, after.ops = issued ++ before.ops ∧ ∀ op ∈ issued, ∀ a, op.targets a → region a

theorem Agrees.changes {α S : Type} {region : Nat → Prop} {represents : Cells → S → Prop}
    {outcome : Outcome α} {result : Option (α × S)} (agrees : Agrees region represents flash outcome result) :
    Flash.Changes region flash outcome.flash := by
  cases result with
  | none =>
    obtain ⟨after, rfl, changes⟩ := agrees
    exact changes
  | some result =>
    obtain ⟨after, rfl, -, changes⟩ := agrees
    exact changes

/-! ## The sectors of a namespace -/

/-- The addresses of the name and the data sector of a namespace that was looked up. -/
def namespaceSectors (table : BkPartitions) (ns : CString) (found : Nat × Nat) : Nat × Nat :=
  (getMatterFlashBaseAddr table ns + found.1,
    getMatterFlashBaseAddr table ns + found.2 * flashSectorSize +
      nameFlashDataBaseAddr (getFalshNameSpaceMaxArray table ns))

def inSectors (sectors : Nat × Nat) (a : Nat) : Prop :=
  (sectors.1 ≤ a ∧ a < sectors.1 + flashSectorSize) ∨ (sectors.2 ≤ a ∧ a < sectors.2 + flashSectorSize)

theorem sectors_of_lookup {store : Store} {ns : CString} {found : Nat × Nat} (fits : table.Fits)
    (rep : Represented table flash.cells store) (here : lookupNamespace table malloc flash ns = some found) :
    ∃ slot, ∃ inside : slot < (table.info (partitionOf ns)).slots,
      (store.dir (partitionOf ns)).find ns = some slot ∧
      inSectors (namespaceSectors table ns found) = ((table.info (partitionOf ns)).pair inside).region := by
  have part := rep.info (partitionOf ns)
  rw [lookupNamespace_spec (ofNamespace_eq table ns) (fits.info _) part] at here
  obtain ⟨slot, searched, rfl⟩ := Option.map_eq_some_iff.mp here
  have bound := (findWith_some searched).2
  have inside := part.find_inside bound
  refine ⟨slot, inside, bound, ?_⟩
  funext a
  rw [SectorPair.region, BkLogicPartition.pair_nameAddr, BkLogicPartition.pair_dataAddr]
  simp only [inSectors, namespaceSectors, getMatterFlashBaseAddr, getFalshNameSpaceMaxArray,
    ofNamespace_eq, slotAddr]

theorem sectors_apart {store : Store} {ns other : CString} {found otherFound : Nat × Nat} (fits : table.Fits)
    (rep : Represented table flash.cells store) (different : ns ≠ other)
    (here : lookupNamespace table malloc flash ns = some found)
    (there : lookupNamespace table malloc flash other = some otherFound) (a : Nat)
    (touched : inSectors (namespaceSectors table ns found) a) :
    ¬inSectors (namespaceSectors table other otherFound) a := by
  obtain ⟨slot, inside, bound, region⟩ := sectors_of_lookup fits rep here
  obtain ⟨slot', inside', bound', region'⟩ := sectors_of_lookup fits rep there
  rw [region] at touched
  rw [region']
  by_cases same : partitionOf ns = partitionOf other
  · have slots : slot ≠ slot' := by
      rintro rfl
      obtain ⟨name, log, content, text⟩ := Directory.find_some bound
      obtain ⟨name', log', content', text'⟩ := Directory.find_some bound'
      rw [← same, content] at content'
      obtain ⟨rfl, -⟩ := Slot.used.inj (Option.some.inj content')
      exact different (text.symm.trans text')
    generalize partitionOf other = type at *
    subst same
    exact BkLogicPartition.pair_apart _ inside inside' slots touched
  · have within := (fits.info _).area_within (BkLogicPartition.pair_area _ inside touched)
    exact fun both => table.within_apart same within
      ((fits.info _).area_within (BkLogicPartition.pair_area _ inside' both))

/-- With room in both partitions every call of every run stays in the partition it
addresses, whether or not it returns, and different namespaces have different sectors. -/
theorem calls_confined (fits : table.Fits) (erased : Erased table start)
    (run : Run (Called table) start events flash) (sane : ∀ event ∈ events, event.call.Sane) :
    (∀ op ∈ flash.ops, ∀ a, op.targets a → table.matterFlash.within a ∨ table.matterFactoryFlash.within a) ∧
    (∀ (malloc : OsMalloc) (call : Call), call.Sane →
      IssuedWithin (table.info call.partition).within flash (call.run table malloc flash).flash) ∧
    ∀ (malloc : OsMalloc) (ns other : CString) (found otherFound : Nat × Nat), ns ≠ other →
      lookupNamespace table malloc flash ns = some found →
      lookupNamespace table malloc flash other = some otherFound →
      (∀ a, inSectors (namespaceSectors table ns found) a →
        (table.info (partitionOf ns)).within a ∧ ¬inSectors (namespaceSectors table other otherFound) a) := by
  have invariant : ∃ store, Represented table flash.cells store ∧
      ∀ op ∈ flash.ops, ∀ a, op.targets a → table.matterFlash.within a ∨ table.matterFactoryFlash.within a := by
    refine run.invariant (fun event => event.call.Sane) (fun _ flash => ∃ store,
      Represented table flash.cells store ∧ ∀ op ∈ flash.ops, ∀ a, op.targets a →
        table.matterFlash.within a ∨ table.matterFactoryFlash.within a) sane
      ⟨_, erased.represented fits, by rw [erased.ops]; simp⟩ ?_
    rintro past flash event after ⟨store, rep, early⟩ sane called
    obtain ⟨result, -, rep', changes⟩ := called.effect fits rep sane
    obtain ⟨issued, ops, within⟩ := changes.ops
    refine ⟨_, rep', fun op member a target => ?_⟩
    rw [ops] at member
    rcases List.mem_append.mp member with last | first
    · have inside := within op last a target
      revert inside
      cases event.call.partition with
      | matterFlash => exact Or.inl
      | matterFactoryFlash => exact Or.inr
    · exact early op first a target
  obtain ⟨store, rep, ops⟩ := invariant
  refine ⟨ops, fun malloc call sane => (Call.agrees malloc fits rep sane).changes.ops, ?_⟩
  intro malloc ns other found otherFound different here there a touched
  refine ⟨?_, sectors_apart fits rep different here there a touched⟩
  obtain ⟨slot, inside, -, region⟩ := sectors_of_lookup fits rep here
  rw [region] at touched
  exact (fits.info _).area_within (BkLogicPartition.pair_area _ inside touched)

end

/-! ## Sample runs -/

theorem first_write_confined : firstFlash.ops ≠ [] ∧ ∀ op ∈ firstFlash.ops, ∀ a, op.targets a →
    bkFlashPartitions.matterFlash.within a ∨ bkFlashPartitions.matterFactoryFlash.within a := by
  have first : ∀ event ∈ [firstEvent], event.call.Sane := fun event member => by
    rw [List.mem_singleton.mp member]
    exact (plain_writeByte 1).sane
  refine ⟨by decide, ?_⟩
  exact (calls_confined bkFlashPartitions_fits (erased_fresh _) (.next .nil called_first) first).1

/-- Two sectors: the one slot has its data sector after the end of the partition. -/
def evenTable : BkPartitions where
  matterFlash := ⟨0, 0x2000, Nat.zero_mod flashSectorSize, by decide⟩
  matterFactoryFlash := ⟨0x2000, 0x3000, by decide, by decide⟩
  apart := by decide

def evenFlash : Flash := ((writeByte 1).run evenTable granted .fresh).flash

/-- 133 sectors: the last two entries of the directory are name records of the first slot. -/
def overlappingTable : BkPartitions where
  matterFlash := ⟨0, 0x85000, Nat.zero_mod flashSectorSize, by decide⟩
  matterFactoryFlash := ⟨0x85000, 0x3000, by decide, by decide⟩
  apart := by decide

def entryWrite (name : CString) (len : Nat) (bound : len < 2 ^ 32) (flash : Flash) : Outcome OSStatus :=
  bkWriteData overlappingTable granted (some fileX) (some name) (some (.filled len 1 bound)) flash

def overlappingFlash : Flash :=
  (entryWrite keyX 65 sixtyFive_inWord (entryWrite fileX 66 (by decide) .fresh).flash).flash

theorem store_not_confined :
    (Run (Called evenTable) .fresh [⟨.fresh, granted, writeByte 1, .status .kNoErr⟩] evenFlash ∧
      FlashOp.program 0x2000 1 ∈ evenFlash.ops ∧ ¬evenTable.matterFlash.within 0x2000) ∧
    ((entryWrite fileX 66 (by decide) .fresh).value? = some .kNoErr ∧
      (entryWrite keyX 65 (by decide) (entryWrite fileX 66 (by decide) .fresh).flash).value? = some .kNoErr ∧
      lookupNamespace overlappingTable granted overlappingFlash fileX = some (0x1000, 0) ∧
      lookupNamespace overlappingTable granted overlappingFlash keyA = some (66, 65)) := by
  refine ⟨⟨.next .nil (called_of_reply ?_), ?_, fun within => ?_⟩, ?_, ?_, ?_, ?_⟩
  · decide
  · decide
  · exact absurd within.2 (by decide)
  all_goals decide

/-! ## The factory partition -/

section
variable {table : BkPartitions} {malloc : OsMalloc} {flash start : Flash} {events : List Event}

/-- The call that programs the factory partition: its namespace is ensured, not found,
and a directory slot is free for it. -/
def Call.AllocatesFactory (table : BkPartitions) (malloc : OsMalloc) (flash : Flash) (call : Call) : Prop :=
  call = .ensureNamespace (some chipFactory) ∧ lookupNamespace table malloc flash chipFactory = none ∧
    malloc .setNamespace = true ∧
    firstFreeNamespace (flash.readNamespaces table.matterFactoryFlash.partitionStartAddr
      table.matterFactoryFlash.slots) 0 ≠ none

theorem firstFree_lt {entries : List NamespaceFlash} {first slot : Nat}
    (free : firstFreeNamespace entries first = some slot) : first ≤ slot ∧ slot < first + entries.length := by
  induction entries generalizing first with
  | nil => cases free
  | cons entry rest ih =>
    rw [firstFreeNamespace] at free
    split at free
    · obtain rfl := Option.some.inj free
      exact ⟨Nat.le_refl _, by simp⟩
    · have later := ih free
      rw [List.length_cons]
      omega

theorem readNamespaces_length (flash : Flash) (addr count : Nat) :
    (flash.readNamespaces addr count).length = count := by
  induction count generalizing addr with
  | zero => rfl
  | succ count ih => rw [Flash.readNamespaces, List.length_cons, ih]

theorem bkReadData_flash (ns name : Option CString) (len : Nat) :
    (bkReadData table malloc ns name len flash).flash = flash := by
  simp only [bkReadData]
  repeat' split
  all_goals rfl

theorem bkEnsureNameData_flash (ns name : Option CString) :
    (bkEnsureNameData table malloc ns name flash).flash = flash := by
  simp only [bkEnsureNameData]
  repeat' split
  all_goals rfl

theorem Outcome.map_flash {α β : Type} (change : α → β) (outcome : Outcome α) :
    (outcome.map change).flash = outcome.flash := by
  cases outcome <;> rfl

variable (table malloc flash) in
/-- Ensuring the factory namespace programs one directory entry, or nothing. -/
theorem ensureFactory_flash : let after := (bkEnsureNamespace table malloc (some chipFactory) flash).flash
    let allocates := (Call.ensureNamespace (some chipFactory)).AllocatesFactory table malloc flash
    (¬allocates ∧ after = flash) ∨
    (allocates ∧ ∃ slot, slot < table.matterFactoryFlash.slots ∧
      after = flash.ddevWrite (newNamespaceEntry chipFactory slot).toBytes
        (table.matterFactoryFlash.partitionStartAddr + slot * perNameSpaceFlashSize)) := by
  intro after allocates
  have untranslated : changeNamespaceToBeken chipFactory none = some (chipFactory, none) := by decide
  have here : table.ofNamespace chipFactory = table.matterFactoryFlash := if_pos rfl
  simp only [after, allocates, bkEnsureNamespace, untranslated, Call.AllocatesFactory, lookupNamespace,
    getMatterFlashBaseAddr, bkSetNamespace, getFalshNameSpaceMaxArray, here]
  cases found : getNamespaceAddr table malloc chipFactory table.matterFactoryFlash.partitionStartAddr flash with
  | some addr => exact Or.inl ⟨fun both => absurd both.2.1 (by simp), rfl⟩
  | none =>
    cases memory : malloc .setNamespace with
    | false => exact Or.inl ⟨fun both => absurd both.2.2.1 (by simp), rfl⟩
    | true =>
      cases free : firstFreeNamespace (flash.readNamespaces table.matterFactoryFlash.partitionStartAddr
          table.matterFactoryFlash.slots) 0 with
      | none => exact Or.inl ⟨fun both => both.2.2.2 rfl, rfl⟩
      | some slot =>
        have bound := (firstFree_lt free).2
        rw [readNamespaces_length, Nat.zero_add] at bound
        exact Or.inr ⟨⟨trivial, rfl, rfl, by simp⟩, slot, bound, rfl⟩

/-- A directory entry of a slot lies in its partition. -/
theorem entry_within (part : BkLogicPartition) {slot a : Nat} (inside : slot < part.slots)
    (low : part.partitionStartAddr + slot * perNameSpaceFlashSize ≤ a)
    (high : a < part.partitionStartAddr + slot * perNameSpaceFlashSize + perNameSpaceFlashSize) : part.within a := by
  have half := Nat.mod_le (part.partitionLength / flashSectorSize / 2) 256
  simp only [BkLogicPartition.slots, BkLogicPartition.within, perNameSpaceFlashSize, flashSectorSize] at *
  omega

theorem matter_ne_factory : BkPartition.matterFlash ≠ .matterFactoryFlash := by decide

variable (malloc) in
/-- A keyed call targets the factory partition exactly when it allocates there, and leaves
the other partition in order. -/
theorem call_factory {dir : Directory} {call : Call} (fits : table.matterFlash.Fits)
    (rep : Represents table.matterFlash flash.cells dir) (sane : call.Sane) (keyed : ∀ type, call ≠ .eraseAll type) :
    let after := (call.run table malloc flash).flash
    (∃ issued, after.ops = issued ++ flash.ops ∧
      ((∀ op ∈ issued, ∀ a, op.targets a → ¬table.matterFactoryFlash.within a) ↔
        ¬call.AllocatesFactory table malloc flash)) ∧
    ∀ reply, call.run table malloc flash = .done reply after → ∃ dir, Represents table.matterFlash after.cells dir := by
  intro after
  by_cases here : call.partition = .matterFlash
  · have agrees := Call.agreesDir malloc
      (show table.info call.partition = table.matterFlash by rw [here]; rfl) fits rep sane
    obtain ⟨issued, ops, within⟩ := agrees.changes.ops
    have other : ¬call.AllocatesFactory table malloc flash := by
      rintro ⟨rfl, -⟩
      cases here
    refine ⟨⟨issued, ops, fun _ => other, fun _ op member a target factory => ?_⟩, fun reply returned => ?_⟩
    · exact table.within_apart matter_ne_factory (within op member a target) factory
    · rw [returned] at agrees
      obtain ⟨result, -, rep', -⟩ := agrees.returned
      exact ⟨result, rep'⟩
  · have silent : after = flash → ¬call.AllocatesFactory table malloc flash →
        (∃ issued, after.ops = issued ++ flash.ops ∧
          ((∀ op ∈ issued, ∀ a, op.targets a → ¬table.matterFactoryFlash.within a) ↔
            ¬call.AllocatesFactory table malloc flash)) ∧
        ∀ reply, call.run table malloc flash = .done reply after →
          ∃ dir, Represents table.matterFlash after.cells dir := by
      intro same other
      rw [same]
      exact ⟨⟨[], rfl, fun _ => other, fun _ => by simp⟩, fun _ _ => ⟨dir, rep⟩⟩
    cases call with
    | writeData | cleanData | clearNamespace => exact absurd rfl here
    | eraseAll type => exact absurd rfl (keyed type)
    | ensureNameData ns name =>
      refine silent ?_ (fun both => by cases both.1)
      exact (Outcome.map_flash _ _).trans (bkEnsureNameData_flash ns name)
    | readData ns name len =>
      refine silent ?_ (fun both => by cases both.1)
      exact (Outcome.map_flash _ _).trans (bkReadData_flash ns name len)
    | ensureNamespace ns =>
      have factory : ns = some chipFactory := by
        by_contra other
        exact here (if_neg other)
      subst factory
      have run : after = (bkEnsureNamespace table malloc (some chipFactory) flash).flash := Outcome.map_flash _ _
      rcases ensureFactory_flash table malloc flash with ⟨other, same⟩ |
        ⟨allocates, slot, inside, same⟩
      · exact silent (run.trans same) other
      · have width : (newNamespaceEntry chipFactory slot).toBytes.length = perNameSpaceFlashSize := by
          simp only [NamespaceFlash.toBytes, newNamespaceEntry, List.length_append, le32_length]
          rfl
        have changes : Flash.Changes table.matterFactoryFlash.within flash after := by
          rw [run, same]
          refine Flash.Changes.ddevWrite flash fun a low high => entry_within _ inside low ?_
          rwa [width] at high
        refine ⟨⟨[_], by rw [run, same]; rfl, fun all => ?_, fun other => absurd allocates other⟩, fun _ _ => ?_⟩
        · have start : FlashOp.targets (.program (table.matterFactoryFlash.partitionStartAddr +
              slot * perNameSpaceFlashSize) (newNamespaceEntry chipFactory slot).toBytes.length)
              (table.matterFactoryFlash.partitionStartAddr + slot * perNameSpaceFlashSize) := by
            simp only [FlashOp.targets, FlashOp.addr, FlashOp.len, width, perNameSpaceFlashSize]
            omega
          exact absurd (entry_within _ inside (Nat.le_refl _) (by simp only [perNameSpaceFlashSize]; omega))
            (all _ (List.mem_singleton.mpr rfl) _ start)
        · exact ⟨dir, represents_of_changes rep fits changes fun a within factory =>
            table.within_apart matter_ne_factory within factory⟩

/-- Over any sequence of keyed calls the factory partition is left alone exactly when no
call allocates its namespace there. -/
theorem factory_untouched_iff (fits : table.matterFlash.Fits)
    (erased : ∀ a, table.matterFlash.within a → start.cells a = 0xFF) (fresh : start.ops = [])
    (run : Run (Called table) start events flash) (sane : ∀ event ∈ events, event.call.Sane)
    (keyed : ∀ event ∈ events, ∀ type, event.call ≠ .eraseAll type) :
    ((∀ op ∈ flash.ops, ∀ a, op.targets a → ¬table.matterFactoryFlash.within a) ↔
      ∀ event ∈ events, ¬event.call.AllocatesFactory table event.malloc event.before) ∧
    ∀ (malloc : OsMalloc) (call : Call), call.Sane → (∀ type, call ≠ .eraseAll type) →
      ¬call.AllocatesFactory table malloc flash →
      IssuedWithin (fun a => ¬table.matterFactoryFlash.within a) flash (call.run table malloc flash).flash := by
  have invariant : (∃ dir, Represents table.matterFlash flash.cells dir) ∧
      ((∀ op ∈ flash.ops, ∀ a, op.targets a → ¬table.matterFactoryFlash.within a) ↔
        ∀ event ∈ events, ¬event.call.AllocatesFactory table event.malloc event.before) := by
    refine run.invariant (fun event => event.call.Sane ∧ ∀ type, event.call ≠ .eraseAll type)
      (fun past flash => (∃ dir, Represents table.matterFlash flash.cells dir) ∧
        ((∀ op ∈ flash.ops, ∀ a, op.targets a → ¬table.matterFactoryFlash.within a) ↔
          ∀ event ∈ past, ¬event.call.AllocatesFactory table event.malloc event.before))
      (fun event member => ⟨sane event member, keyed event member⟩)
      ⟨⟨_, represents_erased fun a inside => erased a (fits.area_within inside)⟩, by rw [fresh]; simp⟩ ?_
    rintro past flash event after ⟨⟨dir, rep⟩, early⟩ ⟨sane, keyed⟩ ⟨before, returned⟩
    have same : after = (event.call.run table event.malloc flash).flash := by rw [returned]; rfl
    obtain ⟨⟨issued, ops, spared⟩, kept⟩ := call_factory event.malloc fits rep sane keyed
    rw [← same] at ops kept
    refine ⟨kept _ returned, ?_⟩
    rw [ops, List.forall_mem_append, List.forall_mem_cons, spared, early, before]
  obtain ⟨⟨dir, rep⟩, untouched⟩ := invariant
  refine ⟨untouched, fun malloc call sane keyed other => ?_⟩
  obtain ⟨⟨issued, ops, spared⟩, -⟩ := call_factory malloc fits rep sane keyed
  exact ⟨issued, ops, spared.mpr other⟩

end

theorem first_write_spares_factory : firstFlash.ops ≠ [] ∧
    ∀ op ∈ firstFlash.ops, ∀ a, op.targets a → ¬bkFlashPartitions.matterFactoryFlash.within a := by
  have untouched := factory_untouched_iff bkFlashPartitions_fits.matter (fun _ _ => rfl) rfl
    (.next .nil called_first)
    (fun event member => by rw [List.mem_singleton.mp member]; exact (plain_writeByte 1).sane)
    (fun event member type same => by rw [List.mem_singleton.mp member] at same; cases same)
  refine ⟨by decide, untouched.1.mpr fun event member both => ?_⟩
  rw [List.mem_singleton.mp member] at both
  cases both.1

def ensureFactory : Call := .ensureNamespace (some chipFactory)

def ensuredFlash : Flash := (ensureFactory.run bkFlashPartitions granted .fresh).flash

theorem factory_programmed :
    Run (Called bkFlashPartitions) .fresh [⟨.fresh, granted, ensureFactory, .status .kNoErr⟩] ensuredFlash ∧
      ensuredFlash.ops = [.program 0x1eb000 64] ∧ bkFlashPartitions.matterFactoryFlash.within 0x1eb000 := by
  refine ⟨.next .nil (called_of_reply ?_), ?_, ?_, ?_⟩ <;> decide

end BekenSdk.KeyValue
