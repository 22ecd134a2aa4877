import BekenSdk.KeyValue.Runs

/-! The store as a finite map: over any sequence of calls in which every write
succeeds, a read returns the bytes of the last write to its key, unless a later
call deleted it. This holds where the directory fits its sector and no refused
allocation hides a stored entry from a call that stores one.
-/

set_option autoImplicit false

namespace BekenSdk.KeyValue
open BekenSdk.Base

/-! ## Histories -/

/-- The call works on the pair when it succeeds. -/
def Call.addresses (ns name : CString) : Call → Bool
  | .writeData (some ns') (some name') _ | .cleanData (some ns') (some name') => decide (ns' = ns ∧ name' = name)
  | .clearNamespace (some ns') => decide (ns' = ns)
  | _ => false

def Call.written : Call → Option (List UInt8)
  | .writeData _ _ (some indata) => some indata.bytes
  | _ => none

def Event.touches (ns name : CString) (event : Event) : Bool :=
  decide (event.reply = .status .kNoErr) && event.call.addresses ns name

/-- The bytes of the last successful call on the pair, if that was a write. -/
def lastWritten (ns name : CString) (events : List Event) : Option (List UInt8) :=
  (events.find? (Event.touches ns name)).bind fun event => event.call.written

/-- A namespace that is neither empty, translated nor guarded, and fits its field. -/
structure PlainNamespace (ns : CString) : Prop where
  nonempty : 0 < ns.strlen
  short : ns.strlen ≤ nsLimit
  config : ns ≠ chipConfig
  counters : ns ≠ chipCounters
  factory : ns ≠ chipFactory

/-- The calls of the contract. -/
inductive Call.Plain : Call → Prop where
  | write {ns name : CString} {indata : Buffer} (plain : PlainNamespace ns) (short : name.strlen ≤ nameLimit)
    (nonempty : 0 < indata.bytes.length) (fits : indata.bytes.length ≤ dataBufSize) :
    Plain (.writeData (some ns) (some name) (some indata))
  | clean {ns name : CString} (plain : PlainNamespace ns) (short : name.strlen ≤ nameLimit) :
    Plain (.cleanData (some ns) (some name))
  | clear {ns : CString} (plain : PlainNamespace ns) : Plain (.clearNamespace (some ns))
  | ensure {ns : CString} (plain : PlainNamespace ns) : Plain (.ensureNamespace (some ns))

theorem PlainNamespace.untranslated {ns : CString} (plain : PlainNamespace ns) (name : Option (Option CString)) :
    changeNamespaceToBeken ns name = some (ns, name.join) := by
  rw [changeNamespaceToBeken, if_neg plain.config, if_neg plain.counters]

theorem Call.Plain.sane {call : Call} (plain : call.Plain) : call.Sane := by
  cases plain with
  | write _ _ _ fits =>
    simp only [Call.Sane, dataBufSize, flashSectorSize] at *
    omega
  | clean | clear | ensure => trivial

theorem Call.Plain.partition {call : Call} (plain : call.Plain) : call.partition = .matterFlash := by
  cases plain with
  | write | clean | clear => rfl
  | ensure plain =>
    have ne : ¬(some _ = some chipFactory) := fun same => plain.factory (Option.some.inj same)
    exact if_neg ne

theorem Call.Plain.inRange {call : Call} (plain : call.Plain) : call.InRange := by
  intro ns name added
  cases plain with
  | @write ns' name' indata plain short =>
    rw [Call.added_write indata plain.factory (plain.untranslated (some (some name')))] at added
    obtain ⟨rfl, rfl⟩ := Prod.mk.inj (Option.some.inj added)
    exact ⟨plain.short, fun text same => by obtain rfl := Option.some.inj same; exact short⟩
  | clean | clear => cases added
  | ensure plain =>
    rw [Call.added, plain.untranslated] at added
    obtain ⟨rfl, rfl⟩ := Prod.mk.inj (Option.some.inj added)
    exact ⟨plain.short, fun text same => by cases same⟩

/-! ## The map is the history -/

section
variable {table : BkPartitions} {flash start : Flash} {events past : List Event} {dir : Directory}

theorem lastWritten_cons (ns name : CString) (event : Event) :
    lastWritten ns name (event :: past) =
      if event.touches ns name = true then event.call.written else lastWritten ns name past := by
  unfold lastWritten
  cases touched : event.touches ns name with
  | true => rw [List.find?_cons_of_pos touched]; rfl
  | false => rw [List.find?_cons_of_neg (by simp [touched])]; rfl

theorem lastWritten_refused {ns name : CString} {event : Event} (failed : event.reply ≠ .status .kNoErr) :
    lastWritten ns name (event :: past) = lastWritten ns name past := by
  rw [lastWritten_cons, if_neg]
  simp [Event.touches, failed]

/-- Every value in the map was written by a call of the history. -/
theorem lastWritten_bounded {ns name : CString} {value : List UInt8}
    (plain : ∀ event ∈ events, event.call.Plain) (last : lastWritten ns name events = some value) :
    value.length ≤ dataBufSize := by
  obtain ⟨event, found, written⟩ := Option.bind_eq_some_iff.mp last
  have ok := plain event (List.mem_of_find?_eq_some found)
  revert ok written
  cases event.call with
  | writeData ns' name' indata =>
    intro written ok
    cases ok with
    | write _ _ _ fits =>
      obtain rfl := Option.some.inj written
      exact fits
  | cleanData | clearNamespace | ensureNamespace | ensureNameData | readData | eraseAll =>
    intro written
    cases written

/-- One call changes the map as it changes the history. -/
theorem Call.Effect.lastWritten {event : Event} {result : Directory}
    (effect : event.call.Effect event.malloc dir event.reply result) (tidy : dir.Tidy)
    (plain : event.call.Plain) (fresh : event.call.FreshDir event.malloc dir)
    (succeeds : event.call.written ≠ none → event.reply = .status .kNoErr)
    (same : ∀ ns name, dir.lookup ns name = KeyValue.lastWritten ns name past) (ns name : CString) :
    result.lookup ns name = KeyValue.lastWritten ns name (event :: past) := by
  obtain ⟨before, malloc, call, reply⟩ := event
  simp only at effect plain fresh succeeds
  cases effect with
  | refused => rw [lastWritten_refused (by simp), same]
  | ensured | read => cases plain
  | @write ns' name' _ _ indata status result guard translation written =>
    cases plain with
    | write plain short =>
      rw [plain.untranslated] at translation
      obtain ⟨rfl, names⟩ := Prod.mk.inj (Option.some.inj translation)
      obtain rfl := Option.some.inj names
      have added := Call.added_write indata guard (plain.untranslated (some (some name')))
      have done := succeeds (by simp [Call.written])
      injection done with done
      subst done
      rw [lastWritten_cons]
      by_cases here : ns' = ns ∧ name' = name
      · obtain ⟨rfl, rfl⟩ := here
        rw [if_pos (by simp [Event.touches, Call.addresses]),
          Directory.lookup_write_self tidy written (fresh.namespaces _ _ added) (fresh.names _ _ added)
            plain.short short]
        rfl
      · rw [if_neg (by simpa [Event.touches, Call.addresses] using here), ← same]
        exact Directory.lookup_write_other written (fresh.namespaces _ _ added) plain.short short
          fun both => here ⟨both.1.symm, both.2.symm⟩
  | @clean ns' name' _ _ guard translation =>
    cases plain with
    | clean plain short =>
      rw [plain.untranslated] at translation
      obtain ⟨rfl, names⟩ := Prod.mk.inj (Option.some.inj translation)
      obtain rfl := Option.some.inj names
      rw [lastWritten_cons]
      by_cases here : ns' = ns ∧ name' = name
      · obtain ⟨rfl, rfl⟩ := here
        by_cases done : (dir.clean malloc ns' name').1 = .kNoErr
        · rw [if_pos (by simp [Event.touches, Call.addresses, done]), Directory.lookup_clean_self tidy done]
          rfl
        · rw [if_neg (by simp [Event.touches, done]), ← same]
          rcases Directory.clean_cases malloc dir ns' name' with ⟨slot, -, cleaned⟩ | cleaned
          · rw [cleaned] at done
            exact absurd rfl done
          · rw [cleaned]
      · rw [if_neg (by simp [Event.touches, Call.addresses]; tauto), ← same]
        exact Directory.lookup_clean_other fun both => here ⟨both.1.symm, both.2.symm⟩
  | @clear ns' guard =>
    rw [lastWritten_cons, Directory.lookup_clear tidy, same]
    by_cases here : (dir.clear malloc ns').1 = .kNoErr ∧ ns = ns'
    · rw [if_pos here, if_pos (by simp [Event.touches, Call.addresses, here.1, here.2])]
      rfl
    · rw [if_neg here, if_neg (by simp [Event.touches, Call.addresses]; tauto)]
  | @ensure ns' _ _ translation =>
    rw [lastWritten_cons, if_neg (by simp [Event.touches, Call.addresses]), ← same]
    exact Directory.lookup_ensure (fresh.namespaces _ _ translation) ns name
  | erase => cases plain

/-- The conditions on an event of the contract. -/
structure Event.Contract (table : BkPartitions) (event : Event) : Prop where
  plain : event.call.Plain
  fresh : event.Fresh table
  succeeds : event.call.written ≠ none → event.reply = .status .kNoErr

theorem map_of_run (fits : table.matterFlash.Fits)
    (erased : ∀ a, table.matterFlash.within a → start.cells a = 0xFF)
    (run : Run (Called table) start events flash) (contract : ∀ event ∈ events, event.Contract table) :
    ∃ dir, Represents table.matterFlash flash.cells dir ∧ dir.Tidy ∧
      ∀ ns name, dir.lookup ns name = lastWritten ns name events := by
  refine run.invariant (Event.Contract table)
    (fun past flash => ∃ dir, Represents table.matterFlash flash.cells dir ∧ dir.Tidy ∧
      ∀ ns name, dir.lookup ns name = lastWritten ns name past) contract ⟨_,
        represents_erased fun a inside => erased a (fits.area_within inside), Directory.tidy_free _, ?_⟩ ?_
  · intro ns name
    have absent : Directory.find (List.replicate table.matterFlash.slots .free) ns = none :=
      Directory.find_none_iff.mpr fun content member => by rw [List.eq_of_mem_replicate member]; rfl
    exact Directory.lookup_of_absent absent name
  · rintro past flash event after ⟨dir, rep, tidy, same⟩ contract called
    have here : table.info event.call.partition = table.matterFlash := by rw [contract.plain.partition]; rfl
    obtain ⟨result, effect, rep', -⟩ := called.effectDir here fits rep contract.plain.sane
    have fresh := contract.fresh
    rw [Event.Fresh, called.1] at fresh
    have freshDir := fresh.onDir here fits rep
    exact ⟨result, rep', effect.tidy tidy freshDir,
      effect.lastWritten tidy contract.plain freshDir contract.succeeds same⟩

/-- A call of the contract returns when no stored value is longer than an update's stack buffer. -/
theorem Call.Plain.returns {call : Call} {malloc : OsMalloc} (plain : call.Plain)
    (fits : table.matterFlash.Fits) (rep : Represents table.matterFlash flash.cells dir)
    (bounded : ∀ ns name old, dir.lookup ns name = some old → old.length ≤ dataBufSize) :
    ∃ reply after, call.run table malloc flash = .done reply after := by
  have here : table.info call.partition = table.matterFlash := by rw [plain.partition]; rfl
  have agrees := Call.agreesDir malloc here fits rep plain.sane
  have step : ∃ reply result, call.stepDir malloc dir = some (reply, result) := by
    cases plain with
    | @write ns name indata plain =>
      obtain ⟨status, result, written⟩ := Directory.write_returns malloc indata.bytes
        (bounded ns name)
      simp only [Call.stepDir, plain.untranslated, Option.join_some]
      rw [if_neg plain.factory]
      exact ⟨.status status, result, by simp only [written]; rfl⟩
    | clean plain =>
      simp only [Call.stepDir, plain.untranslated, Option.join_some]
      rw [if_neg plain.factory]
      exact ⟨_, _, rfl⟩
    | clear plain =>
      simp only [Call.stepDir]
      split <;> exact ⟨_, _, rfl⟩
    | ensure plain =>
      simp only [Call.stepDir, plain.untranslated]
      exact ⟨_, _, rfl⟩
  obtain ⟨reply, result, step⟩ := step
  rw [step] at agrees
  obtain ⟨after, run, -, -⟩ := agrees
  exact ⟨reply, after, run⟩

theorem read_last_written {half : Nat}
    (odd : table.matterFlash.partitionLength = flashSectorSize * (2 * half + 1))
    (few : table.matterFlash.slots ≤ flashNameMaxArray)
    (erased : ∀ a, table.matterFlash.within a → start.cells a = 0xFF)
    (run : Run (Called table) start events flash)
    (plain : ∀ event ∈ events, event.call.Plain) (fresh : ∀ event ∈ events, event.Fresh table)
    (succeeds : ∀ event ∈ events, event.call.written ≠ none → event.reply = .status .kNoErr) :
    (∀ (malloc : OsMalloc) (call : Call), call.Plain →
      ∃ reply after, call.run table malloc flash = .done reply after) ∧
    ∀ (malloc : OsMalloc) (ns name : CString) (dwReadLen : Nat), PlainNamespace ns →
      malloc .getNamespaceAddr = true → malloc .getNameAddr = true →
      bkReadData table malloc (some ns) (some name) dwReadLen flash =
        .done ((lastWritten ns name events).map fun value => value.take dwReadLen) flash := by
  have fits := BkLogicPartition.fits_of_odd odd few
  obtain ⟨dir, rep, -, same⟩ := map_of_run fits erased run fun event member =>
    ⟨plain event member, fresh event member, succeeds event member⟩
  constructor
  · intro malloc call ok
    refine ok.returns fits rep fun ns name old bound => ?_
    rw [same] at bound
    exact lastWritten_bounded plain bound
  · intro malloc ns name dwReadLen ok nsGranted nameGranted
    have here : table.ofNamespace ns = table.matterFlash := by
      rw [ofNamespace_eq, partitionOf_matter ok.factory]
      rfl
    have translation := ok.untranslated (some (some name))
    have unhidden : dir.lookupWith malloc ns name = lastWritten ns name events := by
      rw [← same, Directory.lookupWith, Directory.findWith, if_pos nsGranted, Directory.lookup]
      congr 1
      funext slot
      exact if_pos nameGranted
    rw [bkReadData_eq fits rep here translation, unhidden]

end

/-! ## Sample runs -/

def fileX : CString := ⟨charBytes ['f', 'i', 'l', 'e', 'X'], by decide⟩
def keyA : CString := ⟨charBytes ['A'], by decide⟩
def keyX : CString := ⟨charBytes ['X'], by decide⟩

theorem plain_keyA : PlainNamespace keyA := ⟨by decide, by decide, by decide, by decide, by decide⟩

theorem plain_fileX : PlainNamespace fileX := ⟨by decide, by decide, by decide, by decide, by decide⟩

theorem one_inWord : 1 < 2 ^ 32 := by decide

theorem sixtyFive_inWord : 65 < 2 ^ 32 := by decide

def writeByte (byte : UInt8) : Call := .writeData (some keyA) (some keyX) (some (.filled 1 byte one_inWord))

theorem plain_writeByte (byte : UInt8) : (writeByte byte).Plain :=
  .write plain_keyA (by decide) (by simp [Buffer.filled]) (by simp [Buffer.filled, dataBufSize])

def firstFlash : Flash := ((writeByte 1).run bkFlashPartitions granted .fresh).flash

def firstEvent : Event := ⟨.fresh, granted, writeByte 1, .status .kNoErr⟩

theorem called_first : Called bkFlashPartitions .fresh firstEvent firstFlash :=
  called_of_reply (by decide)

theorem read_first_write :
    bkReadData bkFlashPartitions granted (some keyA) (some keyX) 8 firstFlash = .done (some [1]) firstFlash := by
  have fresh : ∀ event ∈ [firstEvent], event.Fresh bkFlashPartitions := fun event member => by
    rw [List.mem_singleton.mp member]
    exact (plain_writeByte 1).inRange.fresh _ _ _ rfl rfl
  have contract := @read_last_written bkFlashPartitions firstFlash .fresh [firstEvent] 4 rfl (by decide) (fun _ _ => rfl) (.next .nil called_first)
    (fun event member => by rw [List.mem_singleton.mp member]; exact plain_writeByte 1) fresh
    (fun event member _ => by rw [List.mem_singleton.mp member]; rfl)
  exact contract.2 granted keyA keyX 8 plain_keyA rfl rfl

/-- An odd partition with 65 slots: the last entry of its directory is the first name
record of the first slot. -/
def wideTable : BkPartitions where
  matterFlash := ⟨0, 0x83000, Nat.zero_mod flashSectorSize, by decide⟩
  matterFactoryFlash := ⟨0x83000, 0x3000, by decide, by decide⟩
  apart := by decide

def wideWrite : Call := .writeData (some fileX) (some keyX) (some (.filled 65 1 sixtyFive_inWord))

def wideFlash : Flash := (wideWrite.run wideTable granted .fresh).flash

def hiddenFlash : Flash := ((writeByte 2).run bkFlashPartitions (refusing .getNameAddr) firstFlash).flash

def wideEvents : List Event := [⟨.fresh, granted, wideWrite, .status .kNoErr⟩]

def hiddenEvents : List Event :=
  [⟨firstFlash, refusing .getNameAddr, writeByte 2, .status .kNoErr⟩, firstEvent]

/-- After one write to an erased partition of 131 sectors a read of a key never written
succeeds; and on the shipped partition a write whose name lookup is refused its memory
succeeds, yet the old value is still read. -/
theorem read_last_written_fails :
    (wideTable.matterFlash.partitionLength = flashSectorSize * (2 * 65 + 1) ∧
      Run (Called wideTable) .fresh wideEvents wideFlash ∧
      (∀ event ∈ wideEvents, event.call.Plain ∧ event.malloc = granted ∧ event.reply = .status .kNoErr) ∧
      lastWritten keyA keyX wideEvents = none ∧
      (bkReadData wideTable granted (some keyA) (some keyX) 1 wideFlash).value? = some (some [0xFF])) ∧
    (bkFlashPartitions.matterFlash.partitionLength = flashSectorSize * (2 * 4 + 1) ∧
      Run (Called bkFlashPartitions) .fresh hiddenEvents hiddenFlash ∧
      (∀ event ∈ hiddenEvents, event.call.Plain ∧ event.reply = .status .kNoErr) ∧
      lastWritten keyA keyX hiddenEvents = some [2] ∧
      (bkReadData bkFlashPartitions granted (some keyA) (some keyX) 1 hiddenFlash).value? = some (some [1])) := by
  refine ⟨⟨rfl, ?_, ?_, rfl, by decide⟩, ⟨rfl, ?_, ?_, rfl, by decide⟩⟩
  · exact .next .nil (called_of_reply (by decide))
  · intro event member
    rw [List.mem_singleton.mp member]
    exact ⟨.write plain_fileX (by decide) (by decide) (by decide), rfl, rfl⟩
  · exact .next (.next .nil called_first) (called_of_reply (by decide))
  · intro event member
    rcases List.mem_pair.mp member with rfl | rfl
    · exact ⟨plain_writeByte 2, rfl⟩
    · exact ⟨plain_writeByte 1, rfl⟩

end BekenSdk.KeyValue
