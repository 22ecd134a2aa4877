import BekenSdk.KeyValue.LastWrite

/-! Keys do not interfere: what a successful write or deletion of one key does is
seen by reads of that key and of no other. Two keys are the same when they are
the same after translation, and a written key has to fit the record fields.
-/

set_option autoImplicit false

namespace BekenSdk.KeyValue
open BekenSdk.Base

/-- What is stored under a translated key. -/
def Store.lookup (store : Store) (ns name : CString) : Option (List UInt8) :=
  (store.dir (partitionOf ns)).lookup ns name

section
variable {table : BkPartitions} {malloc : OsMalloc} {flash after : Flash} {store result : Store}
  {ns name ns' name' : CString}

theorem lookupWith_eq (dir : Directory) : dir.lookupWith malloc ns name =
    if malloc .getNamespaceAddr && malloc .getNameAddr then dir.lookup ns name else none := by
  unfold Directory.lookupWith Directory.findWith Directory.lookup
  cases malloc .getNamespaceAddr with
  | false => rfl
  | true =>
    simp only [if_true, Bool.true_and, NameLog.lookupWith]
    cases dir.find ns with
    | none => split <;> rfl
    | some slot => rfl

/-- What both reading functions report under a key, against what is stored. -/
theorem reports_eq (malloc : OsMalloc) (fits : table.Fits) (rep : Represented table flash.cells store)
    (translation : changeNamespaceToBeken ns (some (some name)) = some (ns', some name')) (dwReadLen : Nat) :
    (bkReadData table malloc (some ns) (some name) dwReadLen flash).value? =
        some ((if malloc .getNamespaceAddr && malloc .getNameAddr then store.lookup ns' name' else none).map
          fun value => value.take dwReadLen) ∧
      (bkEnsureNameData table malloc (some ns) (some name) flash).value? =
        some (foundStatus (if malloc .getNamespaceAddr && malloc .getNameAddr then store.lookup ns' name'
          else none)) := by
  have here := ofNamespace_eq table ns'
  have part := rep.info (partitionOf ns')
  rw [bkReadData_eq (fits.info _) part here translation, bkEnsureNameData_eq (fits.info _) part here translation,
    Option.bind_some, lookupWith_eq]
  exact ⟨rfl, rfl⟩

/-- Every report on a key is the same in both states. -/
def SameReports (table : BkPartitions) (before after : Flash) (ns name : CString) : Prop :=
  ∀ (malloc : OsMalloc) (dwReadLen : Nat),
    (bkReadData table malloc (some ns) (some name) dwReadLen after).value? =
      (bkReadData table malloc (some ns) (some name) dwReadLen before).value? ∧
    (bkEnsureNameData table malloc (some ns) (some name) after).value? =
      (bkEnsureNameData table malloc (some ns) (some name) before).value?

theorem same_reports (fits : table.Fits) (rep : Represented table flash.cells store)
    (rep' : Represented table after.cells result)
    (same : ∀ ns' name', changeNamespaceToBeken ns (some (some name)) = some (ns', some name') →
      result.lookup ns' name' = store.lookup ns' name') : SameReports table flash after ns name := by
  intro malloc dwReadLen
  cases translation : changeNamespaceToBeken ns (some (some name)) with
  | none => simp [bkReadData, bkEnsureNameData, translation, Outcome.value?]
  | some key =>
    obtain ⟨ns', name'⟩ := key
    obtain ⟨text, rfl⟩ := changeNamespaceToBeken_name translation
    obtain ⟨readAfter, ensuredAfter⟩ := reports_eq malloc fits rep' translation dwReadLen
    obtain ⟨readBefore, ensuredBefore⟩ := reports_eq malloc fits rep translation dwReadLen
    rw [readAfter, ensuredAfter, readBefore, ensuredBefore, same ns' text translation]
    exact ⟨rfl, rfl⟩

/-! ## What a returned call did -/

theorem bkWriteData_effect {indata : Buffer} {status : OSStatus} (fits : table.Fits)
    (rep : Represented table flash.cells store) (sane : indata.bytes.length + flashSectorSize ≤ 2 ^ 32)
    (returned : bkWriteData table malloc (some ns) (some name) (some indata) flash = .done status after) :
    (status = .kGeneralErr ∧ (Call.writeData (some ns) (some name) (some indata)).added = none ∧
      Represented table after.cells store) ∨
    ∃ ns' name' dir, ns ≠ chipFactory ∧ changeNamespaceToBeken ns (some (some name)) = some (ns', some name') ∧
      store.matter.write malloc ns' name' indata.bytes = some (status, dir) ∧
      Represented table after.cells { store with matter := dir } := by
  have called : Called table flash
      ⟨flash, malloc, .writeData (some ns) (some name) (some indata), .status status⟩ after :=
    ⟨rfl, by rw [Call.run, returned]; rfl⟩
  obtain ⟨dir, effect, rep', -⟩ := called.effect fits rep sane
  cases effect with
  | refused _ nothing => exact Or.inl ⟨rfl, nothing, rep'⟩
  | write guard translation written => exact Or.inr ⟨_, _, dir, guard, translation, written, rep'⟩

theorem bkCleanData_effect {status : OSStatus} (fits : table.Fits) (rep : Represented table flash.cells store)
    (returned : bkCleanData table malloc (some ns) (some name) flash = .done status after) :
    (status = .kGeneralErr ∧ Represented table after.cells store) ∨
    ∃ ns' name', ns ≠ chipFactory ∧ changeNamespaceToBeken ns (some (some name)) = some (ns', some name') ∧
      Represented table after.cells { store with matter := (store.matter.clean malloc ns' name').2 } := by
  have called : Called table flash ⟨flash, malloc, .cleanData (some ns) (some name), .status status⟩ after :=
    ⟨rfl, by rw [Call.run, returned]; rfl⟩
  obtain ⟨dir, effect, rep', -⟩ := called.effect fits rep trivial
  simp only at effect
  generalize replied : Reply.status status = reply at effect
  cases effect with
  | refused => exact Or.inl ⟨Reply.status.inj replied, rep'⟩
  | clean guard translation => exact Or.inr ⟨_, _, guard, translation, rep'⟩

/-- A change of the matter directory that is seen under one key only. -/
theorem reports_of_matter {dir : Directory} (fits : table.Fits) (rep : Represented table flash.cells store)
    (rep' : Represented table after.cells { store with matter := dir })
    (translation : changeNamespaceToBeken ns (some (some name)) = some (ns', some name'))
    (others : ∀ other text, ¬(other = ns' ∧ text = name') → dir.lookup other text = store.matter.lookup other text)
    {otherNs otherName : CString}
    (different : changeNamespaceToBeken otherNs (some (some otherName)) ≠
      changeNamespaceToBeken ns (some (some name))) : SameReports table flash after otherNs otherName := by
  refine same_reports fits rep rep' fun other text translated => ?_
  have apart : ¬(other = ns' ∧ text = name') := by
    rintro ⟨rfl, rfl⟩
    exact different (translated.trans translation.symm)
  unfold Store.lookup
  cases partitionOf other with
  | matterFlash => exact others other text apart
  | matterFactoryFlash => rfl

variable {indata : Buffer} {start : Flash} {events : List Event}

/-- In runs that hide no stored entry, a successful write of a key that fits is read back,
and writes and deletions are not seen under any other key. -/
theorem keys_isolated (fits : table.Fits) (erased : Erased table start)
    (run : Run (Called table) start events flash)
    (calls : ∀ event ∈ events, event.call.Sane ∧ event.Fresh table) :
    (∀ malloc ns name indata after,
      let call := Call.writeData (some ns) (some name) (some indata)
      call.Sane → call.InRange → call.Fresh table malloc flash →
      bkWriteData table malloc (some ns) (some name) (some indata) flash = .done .kNoErr after →
      (∀ dwReadLen, (bkReadData table granted (some ns) (some name) dwReadLen after).value? =
        some (some (indata.bytes.take dwReadLen))) ∧
      ∀ ns' name', changeNamespaceToBeken ns' (some (some name')) ≠ changeNamespaceToBeken ns (some (some name)) →
        SameReports table flash after ns' name') ∧
    (∀ malloc ns name after,
      bkCleanData table malloc (some ns) (some name) flash = .done .kNoErr after →
      ∀ ns' name', changeNamespaceToBeken ns' (some (some name')) ≠ changeNamespaceToBeken ns (some (some name)) →
        SameReports table flash after ns' name') := by
  obtain ⟨store, rep, tidy⟩ := tidy_of_run fits erased run calls
  constructor
  · intro malloc ns name indata after call sane inRange fresh returned
    rcases bkWriteData_effect fits rep sane returned with ⟨impossible, -⟩ | ⟨ns', name', dir, guard, translation,
      written, rep'⟩
    · cases impossible
    · have added := Call.added_write indata guard translation
      obtain ⟨nsShort, short⟩ := inRange _ _ added
      have nameShort := short name' rfl
      have here : partitionOf ns' = .matterFlash := by
        rw [changeNamespaceToBeken_partition translation, partitionOf_matter guard]
      have freshDir := fresh.onDir rfl fits.matter rep.matter
      have freshNamespace := freshDir.namespaces _ _ added
      constructor
      · intro dwReadLen
        have bound := Directory.lookup_write_self (tidy .matterFlash) written freshNamespace
          (freshDir.names _ _ added) nsShort nameShort
        obtain ⟨read, -⟩ := reports_eq granted fits rep' translation dwReadLen
        rw [read, Store.lookup, here]
        simp only [Store.dir, bound, granted, Bool.and_self, if_true, Option.map_some]
      · intro otherNs otherName different
        exact reports_of_matter fits rep rep' translation
          (fun other text apart => Directory.lookup_write_other written freshNamespace nsShort nameShort apart)
          different
  · intro malloc ns name after returned
    rcases bkCleanData_effect fits rep returned with ⟨impossible, -⟩ | ⟨ns', name', guard, translation, rep'⟩
    · cases impossible
    · intro otherNs otherName different
      exact reports_of_matter fits rep rep' translation
        (fun other text apart => Directory.lookup_clean_other apart) different

end

/-! ## Sample runs -/

def writeOne (ns name : CString) (byte : UInt8) (flash : Flash) : Outcome OSStatus :=
  bkWriteData bkFlashPartitions granted (some ns) (some name) (some (.filled 1 byte one_inWord)) flash

theorem write_second_name :
    (bkReadData bkFlashPartitions granted (some keyA) (some fileX) 8 (writeOne keyA fileX 2 firstFlash).flash).value? =
        some (some [2]) ∧
      SameReports bkFlashPartitions firstFlash (writeOne keyA fileX 2 firstFlash).flash keyA keyX := by
  have first : ∀ event ∈ [firstEvent], event.call.Sane ∧ event.Fresh bkFlashPartitions := fun event member => by
    rw [List.mem_singleton.mp member]
    exact ⟨(plain_writeByte 1).sane, (plain_writeByte 1).inRange.fresh _ _ _ rfl rfl⟩
  have plain : Call.Plain (.writeData (some keyA) (some fileX) (some (.filled 1 2 (by decide)))) :=
    .write plain_keyA (by decide) (by decide) (by decide)
  have returned : writeOne keyA fileX 2 firstFlash = .done .kNoErr (writeOne keyA fileX 2 firstFlash).flash :=
    Outcome.done_of_value (by decide)
  obtain ⟨same, others⟩ := (keys_isolated bkFlashPartitions_fits (erased_fresh _) (.next .nil called_first) first).1
    granted keyA fileX _ _ plain.sane plain.inRange (plain.inRange.fresh _ _ _ rfl rfl) returned
  exact ⟨same 8, others keyA keyX (by decide)⟩

/-- A name one byte too long for its field, and one that names a translated key directly. -/
def longName : CString := ⟨List.replicate 52 97, by decide⟩
def dottedName : CString := (chipConfig.append dot).append keyX

def configFlash : Flash := (writeOne chipConfig keyX 1 .fresh).flash

/-- A write under a 52-byte name succeeds and cannot be read back, and a write under
("BEKEN0", "chip-config.X") changes what is read under ("chip-config", "X"). -/
theorem keys_not_isolated :
    ((writeOne keyA longName 1 .fresh).value? = some .kNoErr ∧
      (bkReadData bkFlashPartitions granted (some keyA) (some longName) 8
        (writeOne keyA longName 1 .fresh).flash).value? = some none) ∧
    ((chipConfig, keyX) ≠ (beken0, dottedName) ∧
      (bkReadData bkFlashPartitions granted (some chipConfig) (some keyX) 8 configFlash).value? = some (some [1]) ∧
      (writeOne beken0 dottedName 2 configFlash).value? = some .kNoErr ∧
      (bkReadData bkFlashPartitions granted (some chipConfig) (some keyX) 8
        (writeOne beken0 dottedName 2 configFlash).flash).value? = some (some [2])) := by
  refine ⟨⟨?_, ?_⟩, ?_, ?_, ?_, ?_⟩ <;> decide +kernel

/-! ## Atomicity

What a failing write leaves behind. A write of a stored pair masks the old record
before it looks for room, so its failure deletes the pair; a failing write of a
pair that is not stored is seen by no read.
-/

namespace Directory
variable {malloc : OsMalloc} {dir result : Directory} {ns name : CString} {value : List UInt8}

/-- A write that fails without having found its pair changes no binding. -/
theorem lookup_write_absent (written : dir.write malloc ns name value = some (.kGeneralErr, result))
    (fresh : FreshNamespace malloc dir ns) (absent : dir.lookupWith malloc ns name = none) (ns' name' : CString) :
    result.lookup ns' name' = dir.lookup ns' name' := by
  rcases write_cases written with ⟨slot, log, found, stored, rfl⟩ | ⟨missing, slot, log, free, stored, rfl⟩ |
    ⟨-, -, rfl⟩
  · have missing : (dir.logAt slot).lookupWith malloc name = none := by
      rwa [lookupWith, found, Option.bind_some] at absent
    have unchanged := NameLog.lookup_write_failed stored
    rw [missing] at unchanged
    rw [lookup_setLog (findWith_some found)]
    split
    next same => rw [unchanged, same, lookup_of_found (findWith_some found)]
    · rfl
  · have unchanged := NameLog.lookup_write_failed stored
    rw [lookup_claim free (fresh missing)]
    split
    next same =>
      have nothing : NameLog.empty.lookupWith malloc name = none := by
        unfold NameLog.lookupWith
        split <;> rfl
      rw [nothing] at unchanged
      rw [unchanged, same]
      exact (lookup_of_absent (fresh missing) name').symm
    · rfl
  · rfl

/-- A write that fails after it found its pair has deleted it. -/
theorem lookup_write_lost {old : List UInt8} (tidy : dir.Tidy)
    (written : dir.write malloc ns name value = some (.kGeneralErr, result))
    (found : dir.lookupWith malloc ns name = some old) : result.lookup ns name = none := by
  obtain ⟨slot, here, bound⟩ := Option.bind_eq_some_iff.mp found
  rcases write_cases written with ⟨slot', log, found', stored, rfl⟩ | ⟨missing, -⟩ | ⟨missing, -⟩
  · obtain rfl : slot' = slot := Option.some.inj (found'.symm.trans here)
    have lost := NameLog.lookup_write_failed stored name
    rw [bound] at lost
    rw [lookup_setLog (findWith_some here), if_pos rfl, lost]
    exact NameLog.lookup_bury_self (tidy.logs slot')
  · rw [missing] at here
    cases here
  · rw [missing] at here
    cases here

end Directory

section
variable {table : BkPartitions} {malloc : OsMalloc} {flash after start : Flash} {events : List Event}

/-- Every read of the pair gives the same in both states. -/
def SameReads (table : BkPartitions) (before after : Flash) (ns name : CString) : Prop :=
  ∀ (malloc : OsMalloc) (dwReadLen : Nat),
    (bkReadData table malloc (some ns) (some name) dwReadLen after).value? =
      (bkReadData table malloc (some ns) (some name) dwReadLen before).value?

variable (malloc) in
theorem lookupName_none_iff (name : CString) {dir : Directory} {part : BkLogicPartition} {ns : CString}
    (fits : part.Fits)
    (rep : Represents part flash.cells dir) (here : table.ofNamespace ns = part) :
    lookupName table malloc flash ns name = none ↔ dir.lookupWith malloc ns name = none := by
  unfold lookupName lookupNamespace getMatterFlashBaseAddr
  rw [here]
  exact lookup_addr malloc fits rep here name

theorem failed_write_reads {ns name : Option CString} {indata : Option Buffer} (fits : table.Fits)
    (erased : Erased table start) (run : Run (Called table) start events flash)
    (sane : ∀ event ∈ events, event.call.Sane) (saneHere : (Call.writeData ns name indata).Sane)
    (seen : ∀ ns' name', (Call.writeData ns name indata).added = some (ns', name') →
      NamespaceSeen table malloc flash ns')
    (failed : bkWriteData table malloc ns name indata flash = .done .kGeneralErr after) :
    ((∀ ns' name', (Call.writeData ns name indata).added = some (ns', some name') →
        lookupName table malloc flash ns' name' = none) →
      ∀ ns' name', SameReads table flash after ns' name') ∧
    ((∀ event ∈ events, event.Fresh table) → (∀ ns' name', SameReads table flash after ns' name') →
      ∀ ns' name', (Call.writeData ns name indata).added = some (ns', some name') →
        lookupName table malloc flash ns' name' = none) := by
  have refused : flash = after → ∀ ns' name', SameReads table flash after ns' name' := by
    rintro rfl ns' name' malloc dwReadLen
    rfl
  cases ns with
  | none =>
    injection failed with _ same
    exact ⟨fun _ => refused same, fun _ _ _ _ added => by cases added⟩
  | some ns =>
    cases name with
    | none =>
      injection failed with _ same
      exact ⟨fun _ => refused same, fun _ _ _ _ added => by cases added⟩
    | some name =>
      cases indata with
      | none =>
        injection failed with _ same
        exact ⟨fun _ => refused same, fun _ _ _ _ added => by cases added⟩
      | some indata =>
        obtain ⟨store, rep, tidy⟩ : ∃ store, Represented table flash.cells store ∧
            ((∀ event ∈ events, event.Fresh table) → ∀ type, (store.dir type).Tidy) := by
          by_cases fresh : ∀ event ∈ events, event.Fresh table
          · obtain ⟨store, rep, tidy⟩ := tidy_of_run fits erased run fun event member =>
              ⟨sane event member, fresh event member⟩
            exact ⟨store, rep, fun _ => tidy⟩
          · obtain ⟨store, rep⟩ := represented_of_run fits erased run sane
            exact ⟨store, rep, fun all => absurd all fresh⟩
        rcases bkWriteData_effect fits rep saneHere failed with ⟨-, nothing, rep'⟩ |
          ⟨ns', name', dir, guard, translation, written, rep'⟩
        · refine ⟨fun _ ns' name' malloc dwReadLen => ?_, fun _ _ ns' name' added => ?_⟩
          · exact (same_reports fits rep rep' (fun _ _ _ => rfl) malloc dwReadLen).1
          · rw [nothing] at added
            cases added
        · have added := Call.added_write indata guard translation
          have matter : partitionOf ns' = .matterFlash := by
            rw [changeNamespaceToBeken_partition translation, partitionOf_matter guard]
          have here : table.ofNamespace ns' = table.matterFlash := by rw [ofNamespace_eq, matter]; rfl
          have freshNamespace := (seen _ _ added).fresh here fits.matter rep.matter
          have absent_iff := lookupName_none_iff malloc name' fits.matter rep.matter here
          constructor
          · intro absent otherNs otherName malloc' dwReadLen
            have missing := absent_iff.mp (absent _ _ added)
            refine (same_reports fits rep rep' (fun other text _ => ?_) malloc' dwReadLen).1
            unfold Store.lookup
            cases partitionOf other with
            | matterFlash => exact Directory.lookup_write_absent written freshNamespace missing other text
            | matterFactoryFlash => rfl
          · intro fresh reads ns'' name'' added'
            rw [added] at added'
            obtain ⟨rfl, names⟩ := Prod.mk.inj (Option.some.inj added')
            obtain rfl := Option.some.inj names
            refine absent_iff.mpr (Option.eq_none_iff_forall_not_mem.mpr fun old found => ?_)
            -- the pair reads back before the call and not after it
            have lost := Directory.lookup_write_lost (tidy fresh .matterFlash) written found
            have stored : store.lookup ns' name' = some old := by
              have bound := found
              rw [lookupWith_eq] at bound
              rw [Store.lookup, matter]
              split at bound
              · exact bound
              · cases bound
            obtain ⟨before, -⟩ := reports_eq granted fits rep translation 0
            obtain ⟨later, -⟩ := reports_eq granted fits rep' translation 0
            have same := reads ns name granted 0
            rw [before, later, stored, Store.lookup, matter] at same
            simp [Store.dir, lost, granted] at same

end

/-! ## Sample runs -/

def writeFilled (malloc : OsMalloc) (name : CString) (len : Nat) (bound : len < 2 ^ 32) : Outcome OSStatus :=
  bkWriteData bkFlashPartitions malloc (some keyA) (some name) (some (.filled len 2 bound)) firstFlash

theorem failed_new_write_unseen :
    SameReads bkFlashPartitions firstFlash (writeFilled (refusing .nameTemp) fileX 1 (by decide)).flash keyA fileX := by
  have first : ∀ event ∈ [firstEvent], event.call.Sane := fun event member => by
    rw [List.mem_singleton.mp member]
    exact (plain_writeByte 1).sane
  have plain : Call.Plain (.writeData (some keyA) (some fileX) (some (.filled 1 2 (by decide)))) :=
    .write plain_keyA (by decide) (by decide) (by decide)
  have failed : writeFilled (refusing .nameTemp) fileX 1 (by decide) =
      .done .kGeneralErr (writeFilled (refusing .nameTemp) fileX 1 (by decide)).flash :=
    Outcome.done_of_value (by decide)
  have absent : lookupName bkFlashPartitions (refusing .nameTemp) firstFlash keyA fileX = none := by
    decide
  have fresh := plain.inRange.fresh bkFlashPartitions (refusing .nameTemp) firstFlash rfl rfl
  refine (failed_write_reads bkFlashPartitions_fits (erased_fresh _) (.next .nil called_first) first plain.sane
    (fun ns' name' added => (fresh ns' name' added).1) failed).1 ?_ keyA fileX
  intro ns' name' added
  rw [Call.added, if_neg (by decide), plain_keyA.untranslated] at added
  obtain ⟨rfl, names⟩ := Prod.mk.inj (Option.some.inj added)
  obtain rfl := Option.some.inj names
  exact absent

/-- A value of a whole sector does not fit; the write that fails on it deletes the pair. -/
theorem failed_overwrite_loses :
    Run (Called bkFlashPartitions) .fresh [firstEvent] firstFlash ∧
      (bkReadData bkFlashPartitions granted (some keyA) (some keyX) 8 firstFlash).value? = some (some [1]) ∧
      (writeFilled granted keyX 4096 (by decide)).value? = some .kGeneralErr ∧
      (bkReadData bkFlashPartitions granted (some keyA) (some keyX) 8
        (writeFilled granted keyX 4096 (by decide)).flash).value? = some none := by
  refine ⟨.next .nil called_first, ?_, ?_, ?_⟩ <;> decide +kernel

end BekenSdk.KeyValue
