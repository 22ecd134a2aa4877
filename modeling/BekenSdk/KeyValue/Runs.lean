import BekenSdk.Base.Machine
import BekenSdk.KeyValue.FiniteMap
import BekenSdk.KeyValue.Refinement

/-! Sequences of calls. An event records a call that returned, with the flash it
was made on. The conditions on events are stated with the lookups of the code:
`Fresh` says that a call never adds an entry which is stored already and which
its own lookup did not report.
-/

set_option autoImplicit false

namespace BekenSdk.KeyValue
open BekenSdk.Base

/-- An allocator that refuses nothing. -/
def granted : OsMalloc := fun _ => true

/-! ## Conditions on a call -/

section
variable (table : BkPartitions) (malloc : OsMalloc) (flash : Flash)

def lookupNamespace (ns : CString) : Option (Nat × Nat) :=
  getNamespaceAddr table malloc ns (getMatterFlashBaseAddr table ns) flash

def lookupName (ns name : CString) : Option (Nat × Nat) :=
  (lookupNamespace table malloc flash ns).bind fun found =>
    getNameAddr malloc (some name) (getMatterFlashBaseAddr table ns + found.1) flash

/-- A namespace reported missing is not stored under the text it would be stored under. -/
def NamespaceSeen (ns : CString) : Prop :=
  lookupNamespace table malloc flash ns = none →
    lookupNamespace table granted flash (ns.truncate nsLimit) = none

/-- A name reported missing in a namespace is not stored there under the text it would be stored under. -/
def NameSeen (ns name : CString) : Prop :=
  ∀ found, lookupNamespace table malloc flash ns = some found →
    getNameAddr malloc (some name) (getMatterFlashBaseAddr table ns + found.1) flash = none →
    getNameAddr granted (some (name.truncate nameLimit)) (getMatterFlashBaseAddr table ns + found.1) flash = none

end

/-- The translated key a call may add to the store. -/
def Call.added : Call → Option (CString × Option CString)
  | .writeData (some ns) (some name) (some _) =>
    if ns = chipFactory then none else changeNamespaceToBeken ns (some (some name))
  | .ensureNamespace (some ns) => changeNamespaceToBeken ns none
  | _ => none

def Call.Fresh (table : BkPartitions) (malloc : OsMalloc) (flash : Flash) (call : Call) : Prop :=
  ∀ ns name, call.added = some (ns, name) →
    NamespaceSeen table malloc flash ns ∧ ∀ text, name = some text → NameSeen table malloc flash ns text

/-- The key a call may add fits the fields of the records. -/
def Call.InRange (call : Call) : Prop :=
  ∀ ns name, call.added = some (ns, name) →
    ns.strlen ≤ nsLimit ∧ ∀ text, name = some text → text.strlen ≤ nameLimit

/-- Calls whose lookups get their memory and whose keys fit the records are fresh. -/
theorem Call.InRange.fresh {call : Call} (inRange : call.InRange) (table : BkPartitions) (malloc : OsMalloc)
    (flash : Flash) (namespaces : malloc .getNamespaceAddr = true) (names : malloc .getNameAddr = true) :
    call.Fresh table malloc flash := by
  intro ns name added
  obtain ⟨nsShort, short⟩ := inRange ns name added
  have sameNamespace : lookupNamespace table malloc flash ns = lookupNamespace table granted flash ns := by
    simp only [lookupNamespace, getNamespaceAddr, namespaces, granted]
  constructor
  · intro missing
    rw [CString.truncate_of_le nsShort, ← sameNamespace, missing]
  · intro text same found here missing
    rw [CString.truncate_of_le (short text same), ← missing]
    simp only [getNameAddr, names, granted]

/-! ## Events -/

structure Event where
  before : Flash
  malloc : OsMalloc
  call : Call
  reply : Reply

def Event.Fresh (table : BkPartitions) (event : Event) : Prop :=
  event.call.Fresh table event.malloc event.before

/-- The call of the event was made on this flash and returned. -/
def Called (table : BkPartitions) (flash : Flash) (event : Event) (after : Flash) : Prop :=
  event.before = flash ∧ event.call.run table event.malloc flash = .done event.reply after

/-- An erased device. -/
def Flash.fresh : Flash := ⟨fun _ => 0xFF, []⟩

/-- An allocator that refuses one site. -/
def refusing (site : MallocSite) : OsMalloc := fun asked => decide (asked ≠ site)

/-- A store as it leaves production: erased, and nothing done to it yet. -/
structure Erased (table : BkPartitions) (flash : Flash) : Prop where
  matter : ∀ a, table.matterFlash.within a → flash.cells a = 0xFF
  factory : ∀ a, table.matterFactoryFlash.within a → flash.cells a = 0xFF
  ops : flash.ops = []

theorem erased_fresh (table : BkPartitions) : Erased table .fresh := ⟨fun _ _ => rfl, fun _ _ => rfl, rfl⟩

theorem bkFlashPartitions_fits : bkFlashPartitions.Fits := ⟨⟨by decide, by decide⟩, ⟨by decide, by decide⟩⟩

theorem Outcome.done_of_value {α : Type} {outcome : Outcome α} {value : α} (returned : outcome.value? = some value) :
    outcome = .done value outcome.flash := by
  cases outcome with
  | done result flash =>
    obtain rfl := Option.some.inj returned
    rfl
  | undefined flash => cases returned

theorem called_of_reply {table : BkPartitions} {malloc : OsMalloc} {flash : Flash} {call : Call} {reply : Reply}
    (returned : (call.run table malloc flash).value? = some reply) :
    Called table flash ⟨flash, malloc, call, reply⟩ (call.run table malloc flash).flash :=
  ⟨rfl, Outcome.done_of_value returned⟩

/-! ## The conditions on directories -/

section
variable {table : BkPartitions} {malloc : OsMalloc} {flash : Flash} {part : BkLogicPartition} {dir : Directory}
  {ns name : CString}

theorem lookupNamespace_spec (here : table.ofNamespace ns = part) (fits : part.Fits)
    (rep : Represents part flash.cells dir) :
    lookupNamespace table malloc flash ns = (dir.findWith malloc ns).map slotAddr := by
  rw [lookupNamespace, getMatterFlashBaseAddr, here, getNamespaceAddr_spec rep fits.few here]

/-- Truncation does not move a namespace to the other partition. -/
theorem truncate_partition (ns : CString) : partitionOf (ns.truncate nsLimit) = partitionOf ns := by
  unfold partitionOf
  by_cases short : ns.strlen ≤ nsLimit
  · rw [CString.truncate_of_le short]
  · have length : (ns.truncate nsLimit).strlen = nsLimit := by
      simp only [CString.strlen, CString.truncate, List.length_take] at *
      omega
    have cut : ns.truncate nsLimit ≠ chipFactory := fun same => by
      rw [same] at length
      revert length
      decide
    have whole : ns ≠ chipFactory := fun same => by
      rw [same] at short
      exact short (by decide)
    rw [if_neg cut, if_neg whole]

theorem NamespaceSeen.fresh (here : table.ofNamespace ns = part) (fits : part.Fits)
    (rep : Represents part flash.cells dir) (seen : NamespaceSeen table malloc flash ns) :
    dir.FreshNamespace malloc ns := by
  intro missing
  have here' : table.ofNamespace (ns.truncate nsLimit) = part := by
    rw [ofNamespace_eq, truncate_partition, ← ofNamespace_eq, here]
  rw [NamespaceSeen, lookupNamespace_spec here fits rep, lookupNamespace_spec here' fits rep, missing] at seen
  exact Option.map_eq_none_iff.mp (seen rfl)

theorem getNameAddr_none_iff {slot : Nat} (rep : Represents part flash.cells dir) (inside : slot < part.slots) :
    getNameAddr malloc (some name) (part.pair inside).nameAddr flash = none ↔
      (dir.logAt slot).lookupWith malloc name = none := by
  cases bound : (dir.logAt slot).lookupWith malloc name with
  | none => simp [getNameAddr_absent (rep.logs slot inside) bound]
  | some value =>
    obtain ⟨before, record, after, -, -, addr⟩ := getNameAddr_found (rep.logs slot inside) bound
    simp [addr]

theorem NameSeen.fresh (here : table.ofNamespace ns = part) (fits : part.Fits)
    (rep : Represents part flash.cells dir) (seen : NameSeen table malloc flash ns name) :
    dir.FreshName malloc ns name := by
  intro slot found missing
  have inside := rep.find_inside (findWith_some found).2
  have hidden := seen (slotAddr slot) (by rw [lookupNamespace_spec here fits rep, found]; rfl)
  rw [getMatterFlashBaseAddr, here, slotAddr, ← part.pair_nameAddr inside, getNameAddr_none_iff rep inside,
    getNameAddr_none_iff rep inside] at hidden
  exact hidden missing

/-- What `Call.Fresh` means on the directory the call works on. -/
structure Call.FreshDir (malloc : OsMalloc) (dir : Directory) (call : Call) : Prop where
  namespaces : ∀ ns name, call.added = some (ns, name) → dir.FreshNamespace malloc ns
  names : ∀ ns name, call.added = some (ns, some name) → dir.FreshName malloc ns name

theorem Call.added_partition {call : Call} {key : Option CString} (added : call.added = some (ns, key)) :
    partitionOf ns = call.partition := by
  cases call with
  | writeData ns' name indata =>
    cases ns' with
    | none => cases added
    | some ns' =>
      cases name with
      | none => cases added
      | some name =>
        cases indata with
        | none => cases added
        | some indata =>
          simp only [Call.added] at added
          split at added
          · cases added
          next guard =>
            rw [changeNamespaceToBeken_partition added, partitionOf_matter guard]
            rfl
  | ensureNamespace ns' =>
    cases ns' with
    | none => cases added
    | some ns' =>
      rw [changeNamespaceToBeken_partition added]
      simp only [partitionOf, Call.partition, Option.some.injEq]
  | cleanData | clearNamespace | ensureNameData | readData | eraseAll => cases added

theorem Call.Fresh.onDir {call : Call} (fresh : call.Fresh table malloc flash)
    (here : table.info call.partition = part) (fits : part.Fits) (rep : Represents part flash.cells dir) :
    call.FreshDir malloc dir := by
  have partition : ∀ ns name, call.added = some (ns, name) → table.ofNamespace ns = part := by
    intro ns name added
    rw [ofNamespace_eq, Call.added_partition added, here]
  constructor
  · intro ns name added
    exact (fresh ns name added).1.fresh (partition ns name added) fits rep
  · intro ns name added
    exact ((fresh ns (some name) added).2 name rfl).fresh (partition ns _ added) fits rep

/-! ## One step and whole runs -/

/-- What a call that returns can have done to its directory. -/
inductive Call.Effect (malloc : OsMalloc) (dir : Directory) : Call → Reply → Directory → Prop where
  | refused (call : Call) (nothing : call.added = none) : Effect malloc dir call (.status .kGeneralErr) dir
  | ensured (ns name : Option CString) (reply : Reply) : Effect malloc dir (.ensureNameData ns name) reply dir
  | read (ns name : Option CString) (len : Nat) (reply : Reply) : Effect malloc dir (.readData ns name len) reply dir
  | write {ns name ns' name' : CString} {indata : Buffer} {status : OSStatus} {result : Directory}
    (guard : ns ≠ chipFactory)
    (translation : changeNamespaceToBeken ns (some (some name)) = some (ns', some name'))
    (written : dir.write malloc ns' name' indata.bytes = some (status, result)) :
    Effect malloc dir (.writeData (some ns) (some name) (some indata)) (.status status) result
  | clean {ns name ns' name' : CString} (guard : ns ≠ chipFactory)
    (translation : changeNamespaceToBeken ns (some (some name)) = some (ns', some name')) :
    Effect malloc dir (.cleanData (some ns) (some name)) (.status (dir.clean malloc ns' name').1)
      (dir.clean malloc ns' name').2
  | clear {ns : CString} (guard : ¬(ns = chipFactory ∨ ns = chipConfig ∨ ns = chipCounters)) :
    Effect malloc dir (.clearNamespace (some ns)) (.status (dir.clear malloc ns).1) (dir.clear malloc ns).2
  | ensure {ns ns' : CString} {name : Option CString} (translation : changeNamespaceToBeken ns none = some (ns',
    name)) :
    Effect malloc dir (.ensureNamespace (some ns)) (.status (dir.ensure malloc ns').1) (dir.ensure malloc ns').2
  | erase (type : BkPartition) :
    Effect malloc dir (.eraseAll type) (.status .kNoErr) (List.replicate dir.length .free)

theorem Call.effect {call : Call} {reply : Reply} {result : Directory}
    (step : call.stepDir malloc dir = some (reply, result)) : call.Effect malloc dir reply result := by
  have refused : call.added = none → dir.refuse = some (reply, result) → call.Effect malloc dir reply result := by
    intro nothing same
    obtain ⟨rfl, rfl⟩ := Prod.mk.inj (Option.some.inj same)
    exact .refused call nothing
  cases call with
  | writeData ns name indata =>
    cases ns with
    | none => exact refused rfl step
    | some ns =>
      cases name with
      | none => exact refused rfl step
      | some name =>
        cases indata with
        | none => exact refused rfl step
        | some indata =>
          simp only [Call.stepDir] at step
          split at step
          next guard => exact refused (if_pos guard) step
          next guard =>
            split at step
            next ns' name' translation =>
              obtain ⟨⟨status, dir'⟩, written, same⟩ := Option.map_eq_some_iff.mp step
              obtain ⟨rfl, rfl⟩ := Prod.mk.inj same
              exact .write guard translation written
            · cases step
  | cleanData ns name =>
    cases ns with
    | none => exact refused rfl step
    | some ns =>
      cases name with
      | none => exact refused rfl step
      | some name =>
        simp only [Call.stepDir] at step
        split at step
        · exact refused rfl step
        next guard =>
          split at step
          next ns' name' translation =>
            obtain ⟨rfl, rfl⟩ := Prod.mk.inj (Option.some.inj step)
            exact .clean guard translation
          · cases step
  | clearNamespace ns =>
    cases ns with
    | none => exact refused rfl step
    | some ns =>
      simp only [Call.stepDir] at step
      split at step
      · exact refused rfl step
      next guard =>
        obtain ⟨rfl, rfl⟩ := Prod.mk.inj (Option.some.inj step)
        exact .clear guard
  | ensureNamespace ns =>
    cases ns with
    | none => exact refused rfl step
    | some ns =>
      simp only [Call.stepDir] at step
      split at step
      next ns' name' translation =>
        obtain ⟨rfl, rfl⟩ := Prod.mk.inj (Option.some.inj step)
        exact .ensure translation
      · cases step
  | ensureNameData ns name =>
    cases ns with
    | none => exact refused rfl step
    | some ns =>
      simp only [Call.stepDir] at step
      split at step
      · split at step
        · obtain ⟨rfl, rfl⟩ := Prod.mk.inj (Option.some.inj step)
          exact .ensured _ _ _
        · exact refused rfl step
      · cases step
  | readData ns name dwReadLen =>
    cases ns with
    | none =>
      obtain ⟨rfl, rfl⟩ := Prod.mk.inj (Option.some.inj step)
      exact .read _ _ _ _
    | some ns =>
      cases name with
      | none =>
        obtain ⟨rfl, rfl⟩ := Prod.mk.inj (Option.some.inj step)
        exact .read _ _ _ _
      | some name =>
        simp only [Call.stepDir] at step
        split at step
        · obtain ⟨rfl, rfl⟩ := Prod.mk.inj (Option.some.inj step)
          exact .read _ _ _ _
        · cases step
  | eraseAll type =>
    obtain ⟨rfl, rfl⟩ := Prod.mk.inj (Option.some.inj step)
    exact .erase type

theorem Call.added_write {ns name ns' name' : CString} (indata : Buffer) (guard : ns ≠ chipFactory)
    (translation : changeNamespaceToBeken ns (some (some name)) = some (ns', some name')) :
    Call.added (.writeData (some ns) (some name) (some indata)) = some (ns', some name') :=
  (if_neg guard).trans translation

/-- A call that adds no hidden entry keeps the directory tidy. -/
theorem Call.Effect.tidy {call : Call} {reply : Reply} {result : Directory}
    (effect : call.Effect malloc dir reply result) (tidy : dir.Tidy) (fresh : call.FreshDir malloc dir) :
    result.Tidy := by
  cases effect with
  | refused | ensured | read => exact tidy
  | @write _ _ _ _ indata _ _ guard translation written =>
    have added := Call.added_write indata guard translation
    exact tidy.write written (fresh.namespaces _ _ added) (fresh.names _ _ added)
  | clean guard translation => exact tidy.clean
  | clear guard => exact tidy.clear
  | ensure translation => exact tidy.ensure (fresh.namespaces _ _ translation)
  | erase type => exact Directory.tidy_free _

/-! ## Runs -/

theorem Erased.represented (erased : Erased table flash) (fits : table.Fits) :
    Represented table flash.cells
      ⟨List.replicate table.matterFlash.slots .free, List.replicate table.matterFactoryFlash.slots .free⟩ :=
  ⟨represents_erased fun a inside => erased.matter a (fits.matter.area_within inside),
    represents_erased fun a inside => erased.factory a (fits.factory.area_within inside)⟩

/-- One event is a step of the directory it addresses, within its partition. -/
theorem Called.effectDir {event : Event} {after : Flash} (called : Called table flash event after)
    (here : table.info event.call.partition = part) (fits : part.Fits) (rep : Represents part flash.cells dir)
    (sane : event.call.Sane) :
    ∃ result, event.call.Effect event.malloc dir event.reply result ∧ Represents part after.cells result ∧
      Flash.Changes part.within flash after := by
  have agrees := Call.agreesDir event.malloc here fits rep sane
  rw [called.2] at agrees
  obtain ⟨result, step, rep', changes⟩ := agrees.returned
  exact ⟨result, Call.effect step, rep', changes⟩

theorem Called.effect {store : Store} {event : Event} {after : Flash} (called : Called table flash event after)
    (fits : table.Fits) (rep : Represented table flash.cells store) (sane : event.call.Sane) :
    ∃ result, event.call.Effect event.malloc (store.dir event.call.partition) event.reply result ∧
      Represented table after.cells (store.setDir result event.call.partition) ∧
      Flash.Changes (table.info event.call.partition).within flash after := by
  have agrees := Call.agrees event.malloc fits rep sane
  rw [called.2] at agrees
  obtain ⟨store', step, rep', changes⟩ := agrees.returned
  obtain ⟨⟨reply, result⟩, stepDir, same⟩ := Option.map_eq_some_iff.mp step
  obtain ⟨rfl, rfl⟩ := Prod.mk.inj same
  exact ⟨result, Call.effect stepDir, rep', changes⟩

/-- Every reachable flash represents some directories. -/
theorem represented_of_run {events : List Event} {start : Flash} (fits : table.Fits) (erased : Erased table start)
    (run : Run (Called table) start events flash) (sane : ∀ event ∈ events, event.call.Sane) :
    ∃ store, Represented table flash.cells store := by
  refine run.invariant (fun event => event.call.Sane)
    (fun _ flash => ∃ store, Represented table flash.cells store) sane ⟨_, erased.represented fits⟩ ?_
  rintro past flash event after ⟨store, rep⟩ sane called
  obtain ⟨result, -, rep', -⟩ := called.effect fits rep sane
  exact ⟨_, rep'⟩

/-- Directories stay tidy in runs whose calls add no hidden entry. -/
theorem tidy_of_run {events : List Event} {start : Flash} (fits : table.Fits) (erased : Erased table start)
    (run : Run (Called table) start events flash)
    (calls : ∀ event ∈ events, event.call.Sane ∧ event.Fresh table) :
    ∃ store, Represented table flash.cells store ∧ ∀ type, (store.dir type).Tidy := by
  refine run.invariant (fun event => event.call.Sane ∧ event.Fresh table)
    (fun _ flash => ∃ store, Represented table flash.cells store ∧ ∀ type, (store.dir type).Tidy) calls
    ⟨_, erased.represented fits, fun type => by cases type <;> exact Directory.tidy_free _⟩ ?_
  rintro past flash event after ⟨store, rep, tidy⟩ ⟨sane, fresh⟩ called
  obtain ⟨result, effect, rep', -⟩ := called.effect fits rep sane
  refine ⟨_, rep', fun type => ?_⟩
  by_cases same : type = event.call.partition
  · subst same
    rw [Store.dir_setDir]
    rw [Event.Fresh, called.1] at fresh
    exact effect.tidy (tidy _) (fresh.onDir rfl (fits.info _) (rep.info _))
  · rw [Store.dir_setDir_other _ _ same]
    exact tidy type

end

end BekenSdk.KeyValue
