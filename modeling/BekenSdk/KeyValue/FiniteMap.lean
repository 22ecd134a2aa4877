import BekenSdk.KeyValue.Directory

/-! A directory as a finite map. Each operation is described by what it does to
`lookup`. The laws need that no namespace has two slots and no name two live
records (`Tidy`), which an operation keeps as long as it stores nothing that its
own lookup failed to see (`FreshNamespace`, `FreshName`).
-/

set_option autoImplicit false

namespace BekenSdk.KeyValue
open BekenSdk.Base

/-! ## Logs -/

namespace NameLog
variable {malloc : OsMalloc} {log result : NameLog} {key : CString} {value : List UInt8} {status : OSStatus}

/-- The two outcomes of an append, each before or after a compaction. -/
theorem append_cases (appended : log.append malloc key value = (status, result)) :
    (status = .kNoErr ∧ ∃ kept, (kept = log.records ∨ kept = Log.compact log.records) ∧
      result.records = kept ++ [⟨true, key, value⟩]) ∨
    (status = .kGeneralErr ∧ (result.records = log.records ∨ result.records = Log.compact log.records)) := by
  have compacted : log.compactPush key value = (status, result) →
      (status = .kNoErr ∧ ∃ kept, (kept = log.records ∨ kept = Log.compact log.records) ∧
        result.records = kept ++ [⟨true, key, value⟩]) ∨
      (status = .kGeneralErr ∧ (result.records = log.records ∨ result.records = Log.compact log.records)) := by
    intro pushed
    unfold compactPush at pushed
    split at pushed
    next stored push =>
      obtain ⟨rfl, rfl⟩ := Prod.mk.inj pushed
      exact Or.inl ⟨rfl, _, Or.inr rfl, push?_eq_some push⟩
    next =>
      obtain ⟨rfl, rfl⟩ := Prod.mk.inj pushed
      exact Or.inr ⟨rfl, Or.inr rfl⟩
  have refused : (OSStatus.kGeneralErr, log) = (status, result) →
      (status = .kNoErr ∧ ∃ kept, (kept = log.records ∨ kept = Log.compact log.records) ∧
        result.records = kept ++ [⟨true, key, value⟩]) ∨
      (status = .kGeneralErr ∧ (result.records = log.records ∨ result.records = Log.compact log.records)) := by
    intro same
    obtain ⟨rfl, rfl⟩ := Prod.mk.inj same
    exact Or.inr ⟨rfl, Or.inl rfl⟩
  unfold append at appended
  split at appended
  · split at appended
    · split at appended
      next stored push =>
        obtain ⟨rfl, rfl⟩ := Prod.mk.inj appended
        exact Or.inl ⟨rfl, _, Or.inl rfl, push?_eq_some push⟩
      next => exact compacted appended
    · split at appended
      · exact compacted appended
      · exact refused appended
  · exact refused appended

theorem lookup_kept {kept : List Record} (same : kept = log.records ∨ kept = Log.compact log.records)
    (other : CString) : Log.lookup other kept = log.lookup other := by
  rcases same with rfl | rfl
  · rfl
  · exact Log.lookup_compact _ _

/-- A successful append binds the key unless it was bound; a failing one changes nothing. -/
theorem lookup_append (appended : log.append malloc key value = (status, result)) (other : CString) :
    result.lookup other =
      if status = .kNoErr ∧ key = other then (log.lookup other).or (some value) else log.lookup other := by
  rcases append_cases appended with ⟨rfl, kept, same, records⟩ | ⟨rfl, same⟩
  · rw [lookup, records, Log.lookup_append, lookup_kept same]
    by_cases hit : key = other
    · simp [Log.lookup, Entry.hits, hit]
    · simp [Log.lookup, Entry.hits, hit]
  · rw [if_neg (by simp)]
    exact lookup_kept same other

theorem distinct_append (appended : log.append malloc key value = (status, result))
    (distinct : Log.Distinct log.records) (absent : log.lookup key = none) : Log.Distinct result.records := by
  have kept_distinct : ∀ kept, kept = log.records ∨ kept = Log.compact log.records → Log.Distinct kept := by
    rintro kept (rfl | rfl)
    · exact distinct
    · exact distinct.compact
  rcases append_cases appended with ⟨rfl, kept, same, records⟩ | ⟨rfl, same⟩
  · rw [records]
    exact (kept_distinct kept same).push value (by rw [lookup_kept same, absent])
  · exact kept_distinct _ same

/-- The exits of a write: the same value again, an update, a new name. -/
theorem write_cases (written : log.write malloc key value = some (status, result)) :
    (log.lookupWith malloc key = some value ∧ status = .kNoErr ∧ result = log) ∨
    (∃ old, log.lookupWith malloc key = some old ∧ old ≠ value ∧
      (log.bury key).append malloc key value = (status, result)) ∨
    (log.lookupWith malloc key = none ∧
      log.append malloc (key.truncate nameLimit) value = (status, result)) := by
  unfold write at written
  split at written
  next old found =>
    split at written
    · cases written
    · split at written
      next same =>
        obtain ⟨rfl, rfl⟩ := Prod.mk.inj (Option.some.inj written)
        exact Or.inl ⟨same ▸ found, rfl, rfl⟩
      next differ => exact Or.inr (Or.inl ⟨old, found, differ, Option.some.inj written⟩)
  next absent => exact Or.inr (Or.inr ⟨absent, Option.some.inj written⟩)

theorem lookup_of_lookupWith (found : log.lookupWith malloc key = some value) : log.lookup key = some value := by
  unfold lookupWith at found
  split at found
  · exact found
  · cases found

theorem lookup_bury_other {other : CString} (ne : key ≠ other) : (log.bury key).lookup other = log.lookup other :=
  Log.lookup_bury_other _ ne

theorem lookup_bury_self (distinct : Log.Distinct log.records) : (log.bury key).lookup key = none :=
  Log.lookup_bury_self distinct key

/-- No stored name is hidden from the lookup of a write. -/
def FreshName (malloc : OsMalloc) (log : NameLog) (key : CString) : Prop :=
  log.lookupWith malloc key = none → log.lookup (key.truncate nameLimit) = none

theorem distinct_write (written : log.write malloc key value = some (status, result))
    (distinct : Log.Distinct log.records) (fresh : FreshName malloc log key) : Log.Distinct result.records := by
  rcases write_cases written with ⟨-, -, rfl⟩ | ⟨old, -, -, appended⟩ | ⟨absent, appended⟩
  · exact distinct
  · exact distinct_append appended (distinct.bury key) (lookup_bury_self distinct)
  · exact distinct_append appended distinct (fresh absent)

/-- A write changes no other name. -/
theorem lookup_write_other (written : log.write malloc key value = some (status, result)) {other : CString}
    (ne : key ≠ other) (stored : key.truncate nameLimit ≠ other) : result.lookup other = log.lookup other := by
  rcases write_cases written with ⟨-, -, rfl⟩ | ⟨old, -, -, appended⟩ | ⟨absent, appended⟩
  · rfl
  · rw [lookup_append appended, if_neg (fun hit => ne hit.2), lookup_bury_other ne]
  · rw [lookup_append appended, if_neg (fun hit => stored hit.2)]

theorem lookup_write_self (written : log.write malloc key value = some (.kNoErr, result))
    (distinct : Log.Distinct log.records) (fresh : FreshName malloc log key) (short : key.strlen ≤ nameLimit) :
    result.lookup key = some value := by
  have whole := CString.truncate_of_le short
  rcases write_cases written with ⟨found, -, rfl⟩ | ⟨old, -, -, appended⟩ | ⟨absent, appended⟩
  · exact lookup_of_lookupWith found
  · rw [lookup_append appended, if_pos ⟨rfl, rfl⟩, lookup_bury_self distinct, Option.none_or]
  · have missing := fresh absent
    rw [whole] at appended missing
    rw [lookup_append appended, if_pos ⟨rfl, rfl⟩, missing, Option.none_or]

/-- A failing write reads as a failed append to the log with the old record masked. -/
theorem lookup_write_failed (written : log.write malloc key value = some (.kGeneralErr, result)) (other : CString) :
    result.lookup other =
      match log.lookupWith malloc key with
      | some _ => (log.bury key).lookup other
      | none => log.lookup other := by
  rcases write_cases written with ⟨-, impossible, -⟩ | ⟨old, found, -, appended⟩ | ⟨absent, appended⟩
  · cases impossible
  · rw [lookup_append appended, if_neg (by simp), found]
  · rw [lookup_append appended, if_neg (by simp), absent]

/-- A write runs into undefined behaviour only over a value longer than its stack buffer. -/
theorem write_returns (malloc : OsMalloc) (value : List UInt8)
    (bounded : ∀ old, log.lookup key = some old → old.length ≤ dataBufSize) :
    ∃ status result, log.write malloc key value = some (status, result) := by
  unfold write
  cases found : log.lookupWith malloc key with
  | none => exact ⟨_, _, rfl⟩
  | some old =>
    have fits := bounded old (lookup_of_lookupWith found)
    simp only
    rw [if_neg (Nat.not_lt.mpr fits)]
    split <;> exact ⟨_, _, rfl⟩

theorem lookup_empty (other : CString) : empty.lookup other = none := rfl

theorem distinct_empty : Log.Distinct empty.records := Log.distinct_nil

end NameLog

/-! ## Slots -/

namespace Directory
variable {dir : Directory} {ns : CString} {slot : Nat}

theorem find_none_iff : dir.find ns = none ↔ ∀ content ∈ dir, content.named ns = false := by
  simp [find, List.findIdx?_eq_none_iff]

/-- A slot that bears the name neither before nor after does not matter to a search. -/
theorem find_set_other {old content : Slot} (here : dir[slot]? = some old) (before : old.named ns = false)
    (after : content.named ns = false) : find (dir.set slot content) ns = find dir ns := by
  induction dir generalizing slot with
  | nil => cases here
  | cons first rest ih =>
    cases slot with
    | zero =>
      obtain rfl := Option.some.inj here
      rw [List.set_cons_zero, find_cons, find_cons, before, after]
    | succ slot => rw [List.set_cons_succ, find_cons, find_cons, ih here]

theorem find_set_fresh {old content : Slot} (here : dir[slot]? = some old) (absent : find dir ns = none)
    (named : content.named ns = true) : find (dir.set slot content) ns = some slot := by
  induction dir generalizing slot with
  | nil => cases here
  | cons first rest ih =>
    rw [find_cons] at absent
    split at absent
    · cases absent
    next miss =>
      have later : find rest ns = none := Option.map_eq_none_iff.mp absent
      cases slot with
      | zero => rw [List.set_cons_zero, find_cons, if_pos named]
      | succ slot => rw [List.set_cons_succ, find_cons, if_neg miss, ih here later, Option.map_some]

theorem find_setLog (log : NameLog) : find (dir.setLog slot log) ns = find dir ns := by
  unfold setLog
  induction dir generalizing slot with
  | nil => simp
  | cons first rest ih =>
    cases slot with
    | zero =>
      rw [List.modify_zero_cons, find_cons, find_cons]
      cases first <;> rfl
    | succ slot => rw [List.modify_succ_cons, find_cons, find_cons, ih]

/-- Rewriting a slot's log changes what is stored under that slot's namespace only. -/
theorem lookup_setLog {log : NameLog} (found : dir.find ns = some slot) (ns' name : CString) :
    (dir.setLog slot log).lookup ns' name = if ns' = ns then log.lookup name else dir.lookup ns' name := by
  obtain ⟨stored, old, here, text⟩ := find_some found
  unfold lookup
  rw [find_setLog]
  by_cases same : ns' = ns
  · subst same
    rw [if_pos rfl, found, Option.bind_some, logAt_setLog here, if_pos rfl]
  · rw [if_neg same]
    cases other : dir.find ns' with
    | none => rfl
    | some index =>
      have different : index ≠ slot := by
        rintro rfl
        obtain ⟨stored', old', here', text'⟩ := find_some other
        rw [here] at here'
        injection here' with slots
        injection slots with names
        exact same (by rw [← text', ← text, names])
      rw [Option.bind_some, Option.bind_some, logAt_setLog here, if_neg different]

/-! ## One slot for a namespace, one live record for a name -/

structure Tidy (dir : Directory) : Prop where
  slots : ∀ (i j : Nat) (first second : NsName) (firstLog secondLog : NameLog), dir[i]? = some (.used first firstLog) →
    dir[j]? = some (.used second secondLog) → first = second → i = j
  logs : ∀ i, Log.Distinct (dir.logAt i).records

/-- No stored namespace is hidden from the lookup of an allocation. -/
def FreshNamespace (malloc : OsMalloc) (dir : Directory) (ns : CString) : Prop :=
  dir.findWith malloc ns = none → dir.find (ns.truncate nsLimit) = none

def FreshName (malloc : OsMalloc) (dir : Directory) (ns name : CString) : Prop :=
  ∀ slot, dir.findWith malloc ns = some slot → (dir.logAt slot).FreshName malloc name

theorem tidy_free (count : Nat) : Tidy (List.replicate count .free) := by
  constructor
  · intro i j first second firstLog secondLog here
    simp [List.getElem?_replicate] at here
  · intro i
    have empty : logAt (List.replicate count .free) i = .empty := by
      rw [logAt, List.getD_eq_getElem?_getD, List.getElem?_replicate]
      split <;> rfl
    rw [empty]
    exact NameLog.distinct_empty

theorem Tidy.setLog (tidy : dir.Tidy) (found : dir.find ns = some slot) {log : NameLog}
    (distinct : Log.Distinct log.records) : Tidy (dir.setLog slot log) := by
  obtain ⟨stored, old, here, -⟩ := find_some found
  have named : ∀ (i : Nat) (name : NsName) (log' : NameLog), (dir.setLog slot log)[i]? = some (.used name log') →
      ∃ before, dir[i]? = some (.used name before) := by
    intro i name log' after
    unfold Directory.setLog at after
    rw [List.getElem?_modify] at after
    cases content : dir[i]? with
    | none => rw [content] at after; split at after <;> cases after
    | some before =>
      rw [content] at after
      cases before with
      | free => split at after <;> cases after
      | used name' log'' =>
        have same : name' = name := by
          split at after <;> exact (Slot.used.inj (Option.some.inj after)).1
        exact ⟨log'', by rw [same]⟩
  constructor
  · intro i j first second firstLog secondLog left right same
    obtain ⟨_, left⟩ := named i first firstLog left
    obtain ⟨_, right⟩ := named j second secondLog right
    exact tidy.slots i j first second _ _ left right same
  · intro i
    rw [logAt_setLog here]
    split
    · exact distinct
    · exact tidy.logs i

theorem Tidy.claim (tidy : dir.Tidy) (free : dir[slot]? = some .free) {name : NsName} {log : NameLog}
    (absent : dir.find name.text = none) (distinct : Log.Distinct log.records) :
    Tidy (dir.set slot (.used name log)) := by
  have inside := (List.getElem?_eq_some_iff.mp free).1
  have fresh : ∀ (i : Nat) (other : NsName) (log' : NameLog), dir[i]? = some (.used other log') → other ≠ name := by
    rintro i other log' here rfl
    have named := find_none_iff.mp absent _ (List.mem_of_getElem? here)
    simp [Slot.named] at named
  have claimed : ∀ (other : NsName) (log' : NameLog),
      (dir.set slot (.used name log))[slot]? = some (.used other log') → other = name := by
    intro other log' here
    rw [List.getElem?_set_self inside] at here
    exact (Slot.used.inj (Option.some.inj here)).1.symm
  constructor
  · intro i j first second firstLog secondLog left right same
    by_cases leftHere : slot = i
    · by_cases rightHere : slot = j
      · omega
      · subst leftHere
        rw [List.getElem?_set_ne rightHere] at right
        exact absurd (same ▸ claimed first firstLog left) (fresh j second secondLog right)
    · rw [List.getElem?_set_ne leftHere] at left
      by_cases rightHere : slot = j
      · subst rightHere
        exact absurd (same ▸ claimed second secondLog right) (fresh i first firstLog left)
      · rw [List.getElem?_set_ne rightHere] at right
        exact tidy.slots i j first second _ _ left right same
  · intro i
    rw [logAt_set inside]
    split
    · exact distinct
    · exact tidy.logs i

theorem Tidy.free (tidy : dir.Tidy) : Tidy (dir.set slot .free) := by
  constructor
  · intro i j first second firstLog secondLog left right same
    rw [List.getElem?_set] at left right
    split at left
    · split at left <;> cases left
    · split at right
      · split at right <;> cases right
      · exact tidy.slots i j first second _ _ left right same
  · intro i
    by_cases inside : slot < dir.length
    · rw [logAt_set inside]
      split
      · exact NameLog.distinct_empty
      · exact tidy.logs i
    · rw [List.set_eq_of_length_le (Nat.le_of_not_lt inside)]
      exact tidy.logs i

/-! ## The operations -/

section
variable {malloc : OsMalloc} {name : CString} {value : List UInt8} {status : OSStatus} {result : Directory}

theorem findWith_some (found : dir.findWith malloc ns = some slot) : dir.find ns = some slot := by
  unfold findWith at found
  split at found
  · exact found
  · cases found

theorem allocate_some {fresh : Directory} (allocated : dir.allocate malloc ns = some (slot, fresh)) :
    dir[slot]? = some .free ∧ fresh = dir.set slot (.used (.of ns) .empty) := by
  unfold allocate at allocated
  split at allocated
  · obtain ⟨first, free, same⟩ := Option.map_eq_some_iff.mp allocated
    obtain ⟨rfl, rfl⟩ := Prod.mk.inj same
    exact ⟨firstFree_some free, rfl⟩
  · cases allocated

/-- The exits of a write: into the slot of the namespace, into a claimed slot, or no slot. -/
theorem write_cases (written : dir.write malloc ns name value = some (status, result)) :
    (∃ slot log, dir.findWith malloc ns = some slot ∧
      (dir.logAt slot).write malloc name value = some (status, log) ∧ result = dir.setLog slot log) ∨
    (dir.findWith malloc ns = none ∧ ∃ slot log, dir[slot]? = some .free ∧
      NameLog.empty.write malloc name value = some (status, log) ∧
      result = dir.set slot (.used (.of ns) log)) ∨
    (dir.findWith malloc ns = none ∧ status = .kGeneralErr ∧ result = dir) := by
  unfold write at written
  cases found : dir.findWith malloc ns with
  | some slot =>
    rw [found] at written
    obtain ⟨⟨status', log⟩, stored, same⟩ := Option.map_eq_some_iff.mp written
    obtain ⟨rfl, rfl⟩ := Prod.mk.inj same
    exact Or.inl ⟨slot, log, rfl, stored, rfl⟩
  | none =>
    rw [found] at written
    cases allocated : dir.allocate malloc ns with
    | none =>
      rw [allocated] at written
      obtain ⟨rfl, rfl⟩ := Prod.mk.inj (Option.some.inj written)
      exact Or.inr (Or.inr ⟨rfl, rfl, rfl⟩)
    | some claimed =>
      obtain ⟨slot, fresh⟩ := claimed
      rw [allocated] at written
      obtain ⟨free, rfl⟩ := allocate_some allocated
      have inside := (List.getElem?_eq_some_iff.mp free).1
      obtain ⟨⟨status', log⟩, stored, same⟩ := Option.map_eq_some_iff.mp written
      obtain ⟨rfl, rfl⟩ := Prod.mk.inj same
      rw [logAt_used (List.getElem?_set_self inside)] at stored
      refine Or.inr (Or.inl ⟨rfl, slot, log, free, stored, ?_⟩)
      rw [setLog, List.modify_eq_set_getElem?, List.getElem?_set_self inside]
      simp [Slot.mapLog]

theorem write_returns (malloc : OsMalloc) (value : List UInt8)
    (bounded : ∀ old, dir.lookup ns name = some old → old.length ≤ dataBufSize) :
    ∃ status result, dir.write malloc ns name value = some (status, result) := by
  unfold write
  cases found : dir.findWith malloc ns with
  | some slot =>
    have slotBounded : ∀ old, (dir.logAt slot).lookup name = some old → old.length ≤ dataBufSize := by
      intro old bound
      refine bounded old ?_
      rw [lookup, findWith_some found]
      exact bound
    obtain ⟨status, log, stored⟩ := NameLog.write_returns malloc value slotBounded
    exact ⟨status, dir.setLog slot log, by simp only [writeAt, stored, Option.map_some]⟩
  | none =>
    cases allocated : dir.allocate malloc ns with
    | none => exact ⟨_, _, rfl⟩
    | some claimed =>
      obtain ⟨slot, fresh⟩ := claimed
      obtain ⟨free, rfl⟩ := allocate_some allocated
      have inside := (List.getElem?_eq_some_iff.mp free).1
      have nothing : ∀ old, NameLog.empty.lookup name = some old → old.length ≤ dataBufSize :=
        fun old bound => by cases bound
      obtain ⟨status, log, stored⟩ := NameLog.write_returns malloc value nothing
      refine ⟨status, setLog (dir.set slot (.used (.of ns) .empty)) slot log, ?_⟩
      simp only [writeAt, logAt_used (List.getElem?_set_self inside), stored, Option.map_some]

/-- What a claimed slot stores is all that is stored under its namespace. -/
theorem lookup_claim (free : dir[slot]? = some .free) {claimed : NsName} {log : NameLog}
    (absent : dir.find claimed.text = none) (ns' name' : CString) :
    lookup (dir.set slot (.used claimed log)) ns' name' =
      if ns' = claimed.text then log.lookup name' else dir.lookup ns' name' := by
  have inside := (List.getElem?_eq_some_iff.mp free).1
  unfold lookup
  by_cases same : ns' = claimed.text
  · subst same
    rw [if_pos rfl, find_set_fresh free absent (by simp [Slot.named]), Option.bind_some, logAt_set inside,
      if_pos rfl]
    rfl
  · rw [if_neg same, find_set_other free rfl (by simp [Slot.named, Ne.symm same])]
    cases found : dir.find ns' with
    | none => rfl
    | some index =>
      have different : index ≠ slot := by
        rintro rfl
        obtain ⟨stored, old, here, -⟩ := find_some found
        rw [free] at here
        cases here
      rw [Option.bind_some, Option.bind_some, logAt_set inside, if_neg different]

theorem lookup_of_absent (absent : dir.find ns = none) (name' : CString) : dir.lookup ns name' = none := by
  rw [lookup, absent]
  rfl

theorem lookup_of_found (found : dir.find ns = some slot) (name' : CString) :
    dir.lookup ns name' = (dir.logAt slot).lookup name' := by
  rw [lookup, found]
  rfl

theorem Tidy.write (tidy : dir.Tidy) (written : dir.write malloc ns name value = some (status, result))
    (freshNamespace : FreshNamespace malloc dir ns) (freshName : FreshName malloc dir ns name) : result.Tidy := by
  rcases write_cases written with ⟨slot, log, found, stored, rfl⟩ | ⟨missing, slot, log, free, stored, rfl⟩ |
    ⟨-, -, rfl⟩
  · exact tidy.setLog (findWith_some found)
      (NameLog.distinct_write stored (tidy.logs slot) (freshName slot found))
  · exact tidy.claim free (freshNamespace missing)
      (NameLog.distinct_write stored NameLog.distinct_empty fun _ => NameLog.lookup_empty _)
  · exact tidy

theorem lookup_write_self (tidy : dir.Tidy) (written : dir.write malloc ns name value = some (.kNoErr, result))
    (freshNamespace : FreshNamespace malloc dir ns) (freshName : FreshName malloc dir ns name)
    (nsShort : ns.strlen ≤ nsLimit) (short : name.strlen ≤ nameLimit) : result.lookup ns name = some value := by
  rcases write_cases written with ⟨slot, log, found, stored, rfl⟩ | ⟨missing, slot, log, free, stored, rfl⟩ |
    ⟨-, impossible, -⟩
  · rw [lookup_setLog (findWith_some found), if_pos rfl]
    exact NameLog.lookup_write_self stored (tidy.logs slot) (freshName slot found) short
  · have whole : (NsName.of ns).text = ns := CString.truncate_of_le nsShort
    rw [lookup_claim free (freshNamespace missing), whole, if_pos rfl]
    exact NameLog.lookup_write_self stored NameLog.distinct_empty (fun _ => NameLog.lookup_empty _) short
  · cases impossible

/-- A write changes what is stored under no other key. -/
theorem lookup_write_other (written : dir.write malloc ns name value = some (status, result))
    (freshNamespace : FreshNamespace malloc dir ns) (nsShort : ns.strlen ≤ nsLimit)
    (short : name.strlen ≤ nameLimit) {ns' name' : CString} (other : ¬(ns' = ns ∧ name' = name)) :
    result.lookup ns' name' = dir.lookup ns' name' := by
  have whole : name.truncate nameLimit = name := CString.truncate_of_le short
  rcases write_cases written with ⟨slot, log, found, stored, rfl⟩ | ⟨missing, slot, log, free, stored, rfl⟩ |
    ⟨-, -, rfl⟩
  · rw [lookup_setLog (findWith_some found)]
    split
    next same =>
      have ne : name ≠ name' := fun equal => other ⟨same, equal.symm⟩
      rw [NameLog.lookup_write_other stored ne (by rw [whole]; exact ne), same,
        lookup_of_found (findWith_some found)]
    · rfl
  · have whole' : (NsName.of ns).text = ns := CString.truncate_of_le nsShort
    have absent := freshNamespace missing
    rw [lookup_claim free absent, whole']
    rw [show ns.truncate nsLimit = ns from whole'] at absent
    split
    next same =>
      have ne : name ≠ name' := fun equal => other ⟨same, equal.symm⟩
      rw [NameLog.lookup_write_other stored ne (by rw [whole]; exact ne), same, lookup_of_absent absent]
      exact NameLog.lookup_empty _
    · rfl
  · rfl

theorem setLog_logAt (dir : Directory) (slot : Nat) : dir.setLog slot (dir.logAt slot) = dir := by
  refine List.ext_getElem? fun index => ?_
  rw [setLog, List.getElem?_modify]
  cases here : dir[index]? with
  | none => split <;> rfl
  | some content =>
    split
    next same =>
      subst same
      cases content with
      | free => rfl
      | used name log => rw [logAt_used here]; rfl
    · rfl

/-- A deletion masks a record it found, or changes nothing. -/
theorem clean_cases (malloc : OsMalloc) (dir : Directory) (ns name : CString) :
    (∃ slot, dir.find ns = some slot ∧
      dir.clean malloc ns name = (.kNoErr, dir.setLog slot ((dir.logAt slot).bury name))) ∨
    dir.clean malloc ns name = (.kGeneralErr, dir) := by
  unfold clean
  cases found : dir.findWith malloc ns with
  | none => exact Or.inr rfl
  | some slot =>
    simp only [NameLog.clean]
    split
    · exact Or.inl ⟨slot, findWith_some found, rfl⟩
    · exact Or.inr (by rw [setLog_logAt])

theorem lookup_clean_self (tidy : dir.Tidy) (success : (dir.clean malloc ns name).1 = .kNoErr) :
    (dir.clean malloc ns name).2.lookup ns name = none := by
  rcases clean_cases malloc dir ns name with ⟨slot, found, same⟩ | same
  · rw [same, lookup_setLog found, if_pos rfl, NameLog.lookup_bury_self (tidy.logs slot)]
  · rw [same] at success
    cases success

/-- Even with duplicates a deletion leaves every other key alone. -/
theorem lookup_clean_other {ns' name' : CString} (other : ¬(ns' = ns ∧ name' = name)) :
    (dir.clean malloc ns name).2.lookup ns' name' = dir.lookup ns' name' := by
  rcases clean_cases malloc dir ns name with ⟨slot, found, same⟩ | same
  · rw [same, lookup_setLog found]
    split
    next sameNs =>
      have ne : name ≠ name' := fun equal => other ⟨sameNs, equal.symm⟩
      rw [NameLog.lookup_bury_other ne, sameNs, lookup_of_found found]
    · rfl
  · rw [same]

theorem Tidy.clean (tidy : dir.Tidy) : (dir.clean malloc ns name).2.Tidy := by
  rcases clean_cases malloc dir ns name with ⟨slot, found, same⟩ | same
  · rw [same]
    exact tidy.setLog found ((tidy.logs slot).bury name)
  · rw [same]
    exact tidy

theorem Tidy.clear (tidy : dir.Tidy) : (dir.clear malloc ns).2.Tidy := by
  unfold Directory.clear
  split
  · split
    · exact tidy.free
    · exact tidy
  · exact tidy

theorem lookup_clear (tidy : dir.Tidy) (ns' name' : CString) :
    (dir.clear malloc ns).2.lookup ns' name' =
      if (dir.clear malloc ns).1 = .kNoErr ∧ ns' = ns then none else dir.lookup ns' name' := by
  unfold clear
  split
  · cases found : dir.findWith malloc ns with
    | none => simp
    | some slot =>
      obtain ⟨stored, log, here, text⟩ := find_some (findWith_some found)
      have inside := (List.getElem?_eq_some_iff.mp here).1
      simp only [true_and]
      by_cases same : ns' = ns
      · rw [if_pos same]
        refine lookup_of_absent (find_none_iff.mpr fun content member => ?_) _
        obtain ⟨index, at_index⟩ := List.mem_iff_getElem?.mp member
        cases content with
        | free => rfl
        | used other log' =>
          -- a second slot of the namespace would break the invariant
          have away : slot ≠ index := by
            rintro rfl
            rw [List.getElem?_set_self inside] at at_index
            cases at_index
          rw [List.getElem?_set_ne away] at at_index
          have different : other ≠ stored := fun equal =>
            away (tidy.slots index slot other stored _ _ at_index here equal).symm
          have texts : other.text ≠ ns' := fun equal => different (by
            cases other; cases stored; simp_all)
          simp [Slot.named, texts]
      · have unnamed : (Slot.used stored log).named ns' = false := by
          simp [Slot.named, text, Ne.symm same]
        rw [if_neg same]
        unfold lookup
        rw [find_set_other here unnamed rfl]
        cases other : dir.find ns' with
        | none => rfl
        | some index =>
          have different : index ≠ slot := by
            rintro rfl
            obtain ⟨stored', log', there, text'⟩ := find_some other
            rw [here] at there
            obtain ⟨rfl, -⟩ := Slot.used.inj (Option.some.inj there)
            exact same (text'.symm.trans text)
          rw [Option.bind_some, Option.bind_some, logAt_set inside, if_neg different]
  · simp

theorem Tidy.ensure (tidy : dir.Tidy) (fresh : FreshNamespace malloc dir ns) : (dir.ensure malloc ns).2.Tidy := by
  unfold Directory.ensure
  cases found : dir.findWith malloc ns with
  | some slot => exact tidy
  | none =>
    cases allocated : dir.allocate malloc ns with
    | none => exact tidy
    | some claimed =>
      obtain ⟨slot, fresh'⟩ := claimed
      obtain ⟨free, rfl⟩ := allocate_some allocated
      exact tidy.claim free (fresh found) NameLog.distinct_empty

/-- Ensuring a namespace stores nothing. -/
theorem lookup_ensure (fresh : FreshNamespace malloc dir ns) (ns' name' : CString) :
    (dir.ensure malloc ns).2.lookup ns' name' = dir.lookup ns' name' := by
  unfold ensure
  cases found : dir.findWith malloc ns with
  | some slot => rfl
  | none =>
    cases allocated : dir.allocate malloc ns with
    | none => rfl
    | some claimed =>
      obtain ⟨slot, fresh'⟩ := claimed
      obtain ⟨free, rfl⟩ := allocate_some allocated
      have absent := fresh found
      simp only
      rw [lookup_claim free absent]
      split
      next same =>
        rw [same]
        exact (lookup_of_absent absent name').symm
      · rfl

end

end Directory

end BekenSdk.KeyValue
