import BekenSdk.KeyValue.Calls

/-! Every call on flash agrees with the call on directories, and touches only the
partition it addresses.
-/

set_option autoImplicit false

namespace BekenSdk.KeyValue
open BekenSdk.Base

section
variable {table : BkPartitions} {type : BkPartition} {malloc : OsMalloc} {flash : Flash} {dir : Directory}

/-- A call's outcome against the model's, on one partition. -/
def AgreesOn (part : BkLogicPartition) (flash : Flash) (outcome : Outcome Reply)
    (result : Option (Reply × Directory)) : Prop :=
  Agrees part.within (Represents part) flash outcome result

variable {part : BkLogicPartition}

theorem Represents.unchanged (rep : Represents part flash.cells dir) (reply : Reply) :
    AgreesOn part flash (.done reply flash) (some (reply, dir)) :=
  ⟨flash, rfl, rep, .refl _ _⟩

/-- Agreement of an operation that reports a status, within the area of its partition. -/
theorem Represents.status (fits : part.Fits) {outcome : Outcome OSStatus}
    {result : Option (OSStatus × Directory)} (agrees : Agrees part.area (Represents part) flash outcome result) :
    AgreesOn part flash (outcome.map .status) (result.map Directory.reply) := by
  have within := agrees.mono fun a inside => fits.area_within inside
  cases result with
  | none =>
    obtain ⟨after, run, changes⟩ := within
    exact ⟨after, by rw [run]; rfl, changes⟩
  | some result =>
    obtain ⟨after, run, here, changes⟩ := within
    exact ⟨after, by rw [run]; rfl, here, changes⟩

theorem writeData_agrees (fits : table.matterFlash.Fits) (rep : Represents table.matterFlash flash.cells dir)
    (ns name : Option CString) (indata : Option Buffer) (sane : (Call.writeData ns name indata).Sane) :
    AgreesOn table.matterFlash flash ((Call.writeData ns name indata).run table malloc flash)
      ((Call.writeData ns name indata).stepDir malloc dir) := by
  have refused := rep.unchanged (.status .kGeneralErr)
  cases ns with
  | none => exact refused
  | some ns =>
    cases name with
    | none => exact refused
    | some name =>
      cases indata with
      | none => exact refused
      | some indata =>
        simp only [Call.run, bkWriteData, Call.stepDir]
        by_cases guard : ns = chipFactory
        · rw [if_pos guard, if_pos guard]
          exact refused
        · rw [if_neg guard, if_neg guard]
          cases translation : changeNamespaceToBeken ns (some (some name)) with
          | none => exact ⟨flash, rfl, .refl _ _⟩
          | some key =>
            obtain ⟨ns', name'⟩ := key
            obtain ⟨text, rfl⟩ := changeNamespaceToBeken_name translation
            have here : table.ofNamespace ns' = table.matterFlash := by
              rw [ofNamespace_eq, changeNamespaceToBeken_partition translation, partitionOf_matter guard]
              rfl
            simp only [getMatterFlashBaseAddr, here]
            exact Represents.status fits (write_spec rep fits.few here sane)

theorem cleanData_agrees (fits : table.matterFlash.Fits) (rep : Represents table.matterFlash flash.cells dir)
    (ns name : Option CString) :
    AgreesOn table.matterFlash flash ((Call.cleanData ns name).run table malloc flash)
      ((Call.cleanData ns name).stepDir malloc dir) := by
  have refused := rep.unchanged (.status .kGeneralErr)
  cases ns with
  | none => exact refused
  | some ns =>
    simp only [Call.run, bkCleanData]
    by_cases guard : ns = chipFactory
    · rw [if_pos guard]
      cases name with
      | none => exact refused
      | some name =>
        rw [Call.stepDir, if_pos guard]
        exact refused
    · rw [if_neg guard]
      cases name with
      | none => exact refused
      | some name =>
        simp only [Call.stepDir]
        rw [if_neg guard]
        cases translation : changeNamespaceToBeken ns (some (some name)) with
        | none => exact ⟨flash, rfl, .refl _ _⟩
        | some key =>
          obtain ⟨ns', name'⟩ := key
          obtain ⟨text, rfl⟩ := changeNamespaceToBeken_name translation
          have here : table.ofNamespace ns' = table.matterFlash := by
            rw [ofNamespace_eq, changeNamespaceToBeken_partition translation, partitionOf_matter guard]
            rfl
          simp only [getMatterFlashBaseAddr, here]
          exact Represents.status fits (clean_directory_spec rep fits.few here)

theorem clearNamespace_agrees (fits : table.matterFlash.Fits)
    (rep : Represents table.matterFlash flash.cells dir) (ns : Option CString) :
    AgreesOn table.matterFlash flash ((Call.clearNamespace ns).run table malloc flash)
      ((Call.clearNamespace ns).stepDir malloc dir) := by
  have refused := rep.unchanged (.status .kGeneralErr)
  cases ns with
  | none => exact refused
  | some ns =>
    simp only [Call.run, bKClearNamespace, Call.stepDir]
    by_cases guard : ns = chipFactory
    · rw [if_pos guard, if_pos (Or.inl guard)]
      exact refused
    · rw [if_neg guard]
      by_cases translated : ns = chipConfig ∨ ns = chipCounters
      · rw [if_pos translated, if_pos (Or.inr translated)]
        exact refused
      · have unguarded : ¬(ns = chipFactory ∨ ns = chipConfig ∨ ns = chipCounters) := by tauto
        rw [if_neg translated, if_neg unguarded]
        have here : table.ofNamespace ns = table.matterFlash := by
          rw [ofNamespace_eq, partitionOf_matter guard]
          rfl
        simp only [getMatterFlashBaseAddr, getFalshNameSpaceMaxArray, here, Directory.clear]
        by_cases granted : malloc .clearNamespace = true
        · rw [if_pos granted, if_pos granted, getNamespaceAddr_spec rep fits.few here]
          cases found : dir.findWith malloc ns with
          | none => exact refused
          | some slot =>
            have bound := (findWith_some found).2
            obtain ⟨nsName, log, used, -⟩ := Directory.find_some bound
            have inside := rep.find_inside bound
            obtain ⟨cleared, changes⟩ := clear_spec rep fits.few inside used
            simp only [Option.map_some, slotAddr, rep.readNamespaces fits.few]
            have agrees : Agrees table.matterFlash.area (Represents table.matterFlash) flash
                (.done OSStatus.kNoErr _) (some (OSStatus.kNoErr, dir.set slot .free)) :=
              ⟨_, rfl, cleared, changes⟩
            exact Represents.status fits agrees
        · rw [if_neg granted, if_neg granted]
          exact refused

theorem ensureNamespace_agrees {ns : CString} (here : table.info (partitionOf ns) = part) (fits : part.Fits)
    (rep : Represents part flash.cells dir) :
    AgreesOn part flash ((Call.ensureNamespace (some ns)).run table malloc flash)
      ((Call.ensureNamespace (some ns)).stepDir malloc dir) := by
  simp only [Call.run, bkEnsureNamespace, Call.stepDir]
  cases translation : changeNamespaceToBeken ns none with
  | none => exact ⟨flash, rfl, .refl _ _⟩
  | some key =>
    obtain ⟨ns', name'⟩ := key
    have translated : table.ofNamespace ns' = part := by
      rw [ofNamespace_eq, changeNamespaceToBeken_partition translation, here]
    simp only [getMatterFlashBaseAddr, translated]
    exact Represents.status fits (ensure_spec rep fits.few translated)

variable (malloc) in
theorem lookup_addr {ns : CString} (fits : part.Fits) (rep : Represents part flash.cells dir)
    (here : table.ofNamespace ns = part) (name : CString) :
    (getNamespaceAddr table malloc ns part.partitionStartAddr flash).bind (fun found =>
        getNameAddr malloc (some name) (part.partitionStartAddr + found.1) flash) = none ↔
      dir.lookupWith malloc ns name = none := by
  rw [getNamespaceAddr_spec rep fits.few here]
  unfold Directory.lookupWith
  cases found : dir.findWith malloc ns with
  | none => simp
  | some slot =>
    have inside := rep.find_inside (findWith_some found).2
    have log := rep.logs slot inside
    simp only [Option.map_some, Option.bind_some, slotAddr]
    rw [← part.pair_nameAddr inside]
    cases bound : (dir.logAt slot).lookupWith malloc name with
    | none => simp [getNameAddr_absent log bound]
    | some value =>
      obtain ⟨before, record, after, -, -, addr⟩ := getNameAddr_found log bound
      simp [addr]

def foundStatus {α : Type} : Option α → OSStatus
  | some _ => .kNoErr
  | none => .kGeneralErr

theorem bkEnsureNameData_eq {ns ns' : CString} {name name' : Option CString} (fits : part.Fits)
    (rep : Represents part flash.cells dir) (here : table.ofNamespace ns' = part)
    (translation : changeNamespaceToBeken ns (some name) = some (ns', name')) :
    bkEnsureNameData table malloc (some ns) name flash =
      .done (foundStatus (name'.bind (dir.lookupWith malloc ns'))) flash := by
  simp only [bkEnsureNameData, translation, getMatterFlashBaseAddr, here]
  cases name' with
  | none => cases getNamespaceAddr table malloc ns' part.partitionStartAddr flash <;> rfl
  | some text =>
    have same := lookup_addr malloc fits rep here text
    simp only [Option.bind_some]
    cases found : getNamespaceAddr table malloc ns' part.partitionStartAddr flash with
    | none =>
      rw [found, Option.bind_none] at same
      rw [same.mp rfl]
      rfl
    | some addr =>
      rw [found, Option.bind_some] at same
      cases record : getNameAddr malloc (some text) (part.partitionStartAddr + addr.1) flash with
      | none =>
        rw [record] at same
        rw [same.mp rfl]
        simp only [record]
        rfl
      | some offsets =>
        rw [record] at same
        obtain ⟨value, bound⟩ := Option.ne_none_iff_exists'.mp fun none => by
          cases same.mpr none
        rw [bound]
        simp only [record]
        rfl

theorem ensureNameData_agrees {ns : CString} (here : table.info (partitionOf ns) = part) (fits : part.Fits)
    (rep : Represents part flash.cells dir) (name : Option CString) :
    AgreesOn part flash ((Call.ensureNameData (some ns) name).run table malloc flash)
      ((Call.ensureNameData (some ns) name).stepDir malloc dir) := by
  cases translation : changeNamespaceToBeken ns (some name) with
  | none =>
    simp only [Call.run, bkEnsureNameData, Call.stepDir, translation]
    exact ⟨flash, rfl, .refl _ _⟩
  | some key =>
    obtain ⟨ns', name'⟩ := key
    have translated : table.ofNamespace ns' = part := by
      rw [ofNamespace_eq, changeNamespaceToBeken_partition translation, here]
    simp only [Call.run, Call.stepDir, translation, bkEnsureNameData_eq fits rep translated translation]
    cases name'.bind (dir.lookupWith malloc ns') with
    | none => exact rep.unchanged _
    | some value => exact rep.unchanged _

theorem bkReadData_eq {ns ns' name text : CString} (fits : part.Fits) (rep : Represents part flash.cells dir)
    (here : table.ofNamespace ns' = part)
    (translation : changeNamespaceToBeken ns (some (some name)) = some (ns', some text)) (dwReadLen : Nat) :
    bkReadData table malloc (some ns) (some name) dwReadLen flash =
      .done ((dir.lookupWith malloc ns' text).map fun value => value.take dwReadLen) flash := by
  have read := read_spec malloc text rep fits.few here dwReadLen
  simp only [bkReadData, translation, getMatterFlashBaseAddr, getFalshNameSpaceMaxArray, here, ← read]
  cases getNamespaceAddr table malloc ns' part.partitionStartAddr flash with
  | none => rfl
  | some addr =>
    simp only
    cases getNameAddr malloc (some text) (part.partitionStartAddr + addr.1) flash <;> rfl

theorem readData_agrees {ns : CString} (here : table.info (partitionOf ns) = part) (fits : part.Fits)
    (rep : Represents part flash.cells dir) (name : CString) (dwReadLen : Nat) :
    AgreesOn part flash ((Call.readData (some ns) (some name) dwReadLen).run table malloc flash)
      ((Call.readData (some ns) (some name) dwReadLen).stepDir malloc dir) := by
  cases translation : changeNamespaceToBeken ns (some (some name)) with
  | none =>
    simp only [Call.run, bkReadData, Call.stepDir, translation]
    exact ⟨flash, rfl, .refl _ _⟩
  | some key =>
    obtain ⟨ns', name'⟩ := key
    obtain ⟨text, rfl⟩ := changeNamespaceToBeken_name translation
    have translated : table.ofNamespace ns' = part := by
      rw [ofNamespace_eq, changeNamespaceToBeken_partition translation, here]
    simp only [Call.run, Call.stepDir, translation, bkReadData_eq fits rep translated translation]
    exact rep.unchanged _

theorem eraseAll_agrees (here : table.info type = part) (fits : part.Fits)
    (rep : Represents part flash.cells dir) :
    AgreesOn part flash ((Call.eraseAll type).run table malloc flash) ((Call.eraseAll type).stepDir malloc dir) := by
  have start := part.start_eq
  have room := fits.room
  obtain ⟨changes, erased⟩ := eraseSectors_spec (part.partitionLength / nameSpaceFlashTotalSize) part.sector flash
  rw [← start] at changes erased
  have inside : ∀ a, part.area a → (eraseSectors (part.partitionLength / nameSpaceFlashTotalSize)
      part.partitionStartAddr flash).cells a = 0xFF := by
    intro a inside
    simp only [BkLogicPartition.area, flashSectorSize, nameSpaceFlashTotalSize] at *
    exact erased a inside.1 (by omega)
  have empty := represents_erased inside
  rw [← rep.size] at empty
  simp only [Call.run, here]
  refine ⟨_, rfl, empty, changes.mono fun a swept => ?_⟩
  simp only [BkLogicPartition.within, flashSectorSize, nameSpaceFlashTotalSize] at *
  omega

variable (malloc) in
/-- A call on flash agrees with the call on the directory of the partition it addresses. -/
theorem Call.agreesDir {call : Call} (here : table.info call.partition = part) (fits : part.Fits)
    (rep : Represents part flash.cells dir) (sane : call.Sane) :
    AgreesOn part flash (call.run table malloc flash) (call.stepDir malloc dir) := by
  have refused := rep.unchanged (.status .kGeneralErr)
  have named : ∀ ns : CString, (if some ns = some chipFactory then BkPartition.matterFactoryFlash
      else .matterFlash) = partitionOf ns := fun ns => by simp only [partitionOf, Option.some.injEq]
  cases call with
  | writeData ns name indata =>
    subst here
    exact writeData_agrees fits rep ns name indata sane
  | cleanData ns name =>
    subst here
    exact cleanData_agrees fits rep ns name
  | clearNamespace ns =>
    subst here
    exact clearNamespace_agrees fits rep ns
  | ensureNamespace ns =>
    cases ns with
    | none => exact refused
    | some ns =>
      rw [Call.partition, named] at here
      exact ensureNamespace_agrees here fits rep
  | ensureNameData ns name =>
    cases ns with
    | none => exact refused
    | some ns =>
      rw [Call.partition, named] at here
      exact ensureNameData_agrees here fits rep name
  | readData ns name dwReadLen =>
    cases ns with
    | none => exact rep.unchanged _
    | some ns =>
      rw [Call.partition, named] at here
      cases name with
      | none => exact rep.unchanged _
      | some name => exact readData_agrees here fits rep name dwReadLen
  | eraseAll type => exact eraseAll_agrees here fits rep

variable (malloc) in
/-- The store on flash refines its directories, call by call. -/
theorem Call.agrees {store : Store} (fits : table.Fits) (rep : Represented table flash.cells store) {call : Call}
    (sane : call.Sane) :
    Agrees (table.info call.partition).within (Represented table) flash (call.run table malloc flash)
      (call.step malloc store) :=
  rep.lift fits call.partition (Call.agreesDir malloc rfl (fits.info _) (rep.info _) sane)

end

end BekenSdk.KeyValue
