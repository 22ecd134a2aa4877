import Mathlib.Logic.Function.Basic
import BekenSdk.DrvModel.Lookup

/-! Runs of the registry's calls against a pair of finite maps. Registering always
finds a free slot, since the table grows when its last slot is taken.
-/

set_option autoImplicit false

namespace BekenSdk.DrvModel
open Base

variable {F Op : Type}

namespace Table
variable {slots : Table Op} {devName : CString} {i : Nat} {slot : Slot Op} {op : Op} {change : Slot Op → Slot Op}

theorem entries_modify (here : slots[i]? = some slot) :
    entries (slots.modify i change) = slots.entries.set i (change slot).entry := by
  apply List.ext_getElem?
  intro j
  rw [entries_getElem?, List.getElem?_modify, List.getElem?_set, entries_getElem?, entries, List.length_map]
  split
  next same =>
    subst same
    rw [here, if_pos (List.getElem?_eq_some_iff.mp here).1]
    rfl
  · rw [id_map']

theorem entries_modify_same (here : slots[i]? = some slot) (same : (change slot).entry = slot.entry) :
    entries (slots.modify i change) = slots.entries := by
  apply List.ext_getElem?
  intro j
  rw [entries_getElem?, List.getElem?_modify, entries_getElem?]
  split
  next there =>
    subst there
    rw [here]
    exact congrArg some same
  · rw [id_map']

theorem modify_outside (outside : slots[i]? = none) : slots.modify i change = slots :=
  List.modify_eq_self (List.getElem?_eq_none_iff.mp outside)

theorem entries_append (slots others : Table Op) : entries (slots ++ others) = slots.entries ++ others.entries :=
  List.map_append

theorem entries_zeros (count : Nat) :
    entries (List.replicate count (Slot.zero : Slot Op)) = List.replicate count none := by
  rw [entries, List.map_replicate, Slot.entry_zero]

theorem mem_modify (here : slots[i]? = some slot) {other : Slot Op} (member : other ∈ slots.modify i change) :
    other = change slot ∨ other ∈ slots := by
  obtain ⟨j, there⟩ := List.mem_iff_getElem?.mp member
  rw [List.getElem?_modify] at there
  obtain ⟨before, same, rfl⟩ := Option.map_eq_some_iff.mp there
  split
  next here' =>
    subst here'
    rw [here] at same
    cases same
    exact .inl rfl
  · exact .inr (List.mem_of_getElem? same)

theorem init_sound : (init : Table Op).Sound where
  slot := by
    intro slot member
    rw [List.eq_of_mem_replicate member]
    exact .zero
  distinct := by
    intro i j key v w first _
    rw [init, entries_zeros, List.getElem?_replicate] at first
    split at first <;> cases first
  last := ⟨.zero, rfl, rfl⟩

/-- A change of one slot that keeps the table's last slot free. -/
theorem Sound.modify (sound : slots.Sound) (here : slots[i]? = some slot) (changed : (change slot).Sound)
    (distinct : SlotTable.Distinct (entries (slots.modify i change)))
    (last : i = slots.length - 1 → (change slot).name = none) : Sound (slots.modify i change) where
  slot other member := by
    rcases mem_modify here member with rfl | member
    · exact changed
    · exact sound.slot other member
  distinct := distinct
  last := by
    obtain ⟨old, there, free⟩ := sound.last
    rw [List.length_modify, List.getElem?_modify]
    split
    next same =>
      subst same
      exact ⟨change slot, by rw [here]; rfl, last rfl⟩
    · exact ⟨old, by rw [there]; rfl, free⟩

/-- A change that keeps every slot's name and operations. -/
theorem Sound.keep (sound : slots.Sound) (here : slots[i]? = some slot) (changed : (change slot).Sound)
    (entry : (change slot).entry = slot.entry) (name : (change slot).name = slot.name) :
    Sound (slots.modify i change) := by
  refine sound.modify here changed (by rw [entries_modify_same here entry]; exact sound.distinct) ?_
  rintro rfl
  obtain ⟨old, there, free⟩ := sound.last
  rw [here] at there
  cases there
  rw [name, free]

/-! ## Registering -/

/-- The slot that the next registration takes. -/
theorem Sound.vacant (sound : slots.Sound) :
    ∃ i slot, slots.findIdx? Slot.vacant = some i ∧ slots[i]? = some slot ∧ slot.name = none := by
  obtain ⟨last, there, free⟩ := sound.last
  have member := List.mem_of_getElem? there
  have vacant := (sound.slot last member).vacant_iff.mpr free
  cases found : slots.findIdx? Slot.vacant with
  | none =>
    have taken := List.findIdx?_eq_none_iff.mp found last member
    rw [vacant] at taken
    cases taken
  | some i =>
    obtain ⟨inside, first, _⟩ := List.findIdx?_eq_some_iff_getElem.mp found
    have here := List.getElem?_eq_getElem inside
    exact ⟨i, slots[i], rfl, here, (sound.slot _ (List.mem_of_getElem? here)).vacant_iff.mp first⟩

variable (slots) in
/-- Whether the next registration takes the last slot, so that the table must grow. -/
def Growing : Prop := slots.findIdx? Slot.vacant = some (slots.length - 1)

instance : Decidable slots.Growing := inferInstanceAs (Decidable (_ = _))

theorem fill_distinct (sound : slots.Sound) (here : slots[i]? = some slot) (fresh : slots.lookup devName = none) :
    SlotTable.Distinct (entries (slots.modify i (Slot.fill devName op))) := by
  have inside : i < slots.entries.length := by
    rw [entries, List.length_map]
    exact (List.getElem?_eq_some_iff.mp here).1
  rw [entries_modify here, Slot.entry_fill]
  exact SlotTable.Distinct.fill sound.distinct inside fresh

theorem lookup_fill (sound : slots.Sound) (here : slots[i]? = some slot) (free : slot.name = none)
    (fresh : slots.lookup devName = none) :
    lookup (slots.modify i (Slot.fill devName op)) = Function.update slots.lookup devName (some op) := by
  funext other
  have unbound : slots.entries[i]? = some none := by
    rw [entries_getElem?, here, Option.map_some, Slot.entry_of_free free]
  rw [lookup, entries_modify here, Slot.entry_fill, SlotTable.lookup_fill sound.distinct unbound fresh,
    Function.update_apply]
  rfl

theorem lookup_grow (slots : Table Op) (count : Nat) :
    lookup (slots ++ List.replicate count Slot.zero) = slots.lookup := by
  funext other
  rw [lookup, entries_append, entries_zeros, SlotTable.lookup_grow, lookup]

/-- What a registration comes to. -/
theorem registerDev_spec (sound : slots.Sound) (fresh : slots.lookup devName = none) (memory : Bool) :
    let done := slots.registerDev (some devName) (some op) memory
    done.2.lookup = Function.update slots.lookup devName (some op) ∧
      ((done.1 = some drvSuccess ↔ memory = true ∨ ¬slots.Growing) ∧ (done.1.isSome → done.2.Sound)) := by
  obtain ⟨i, slot, first, here, free⟩ := sound.vacant
  have filled := @lookup_fill _ _ devName i slot op sound here free fresh
  have distinct := @fill_distinct _ _ devName i slot op sound here fresh
  have used : (slot.fill devName op).Sound := ⟨rfl, by simp [Slot.fill]⟩
  have growing : slots.Growing ↔ i = slots.length - 1 := by rw [Growing, first, Option.some.injEq]
  simp only [registerDev, first, growing]
  split
  next grows =>
    cases memory with
    | false => exact ⟨filled, by simp [grows], by simp⟩
    | true =>
      refine ⟨by simp only [if_true, lookup_grow, filled], by simp, fun _ => ?_⟩
      simp only [if_true]
      refine ⟨?_, ?_, ?_⟩
      · intro other member
        rcases List.mem_append.mp member with member | member
        · rcases mem_modify here member with rfl | member
          · exact used
          · exact sound.slot other member
        · rw [List.eq_of_mem_replicate member]
          exact .zero
      · rw [entries_append, entries_zeros]
        exact distinct.grow
      · have inside := (List.getElem?_eq_some_iff.mp here).1
        refine ⟨.zero, ?_, rfl⟩
        rw [List.length_append, List.length_modify, List.length_replicate, ddExpStepSize,
          List.getElem?_append_right (by rw [List.length_modify]; omega), List.length_modify,
          List.getElem?_replicate, if_pos (by omega)]
  next stays =>
    refine ⟨filled, by simp [stays], fun _ => sound.modify here used distinct fun grows => absurd grows stays⟩

/-! ## Unregistering -/

theorem clear_sound (sound : slots.Sound) (here : slots[i]? = some slot) : Sound (slots.modify i Slot.clear) := by
  refine sound.modify here ⟨rfl, by simp [Slot.clear]⟩ ?_ fun _ => rfl
  rw [entries_modify here, Slot.entry_clear]
  apply SlotTable.Distinct.clear sound.distinct
  rw [entries, List.length_map]
  exact (List.getElem?_eq_some_iff.mp here).1

theorem lookup_clear (sound : slots.Sound) (here : slots[i]? = some slot)
    (registered : slot.entry = some (devName, op)) :
    lookup (slots.modify i Slot.clear) = Function.update slots.lookup devName none := by
  funext other
  have bound : slots.entries[i]? = some (some (devName, op)) := by
    rw [entries_getElem?, here, Option.map_some, registered]
  rw [lookup, entries_modify here, Slot.entry_clear, SlotTable.lookup_clear sound.distinct bound, Function.update_apply]
  rfl

theorem lookup_keep (same : ∀ slot : Slot Op, slots[i]? = some slot → (change slot).entry = slot.entry) :
    lookup (slots.modify i change) = slots.lookup := by
  funext other
  cases here : slots[i]? with
  | none => rw [modify_outside here]
  | some slot => rw [lookup, entries_modify_same here (same slot here), lookup]

/-- Unregistering through a search that reaches its name's slot. -/
theorem unregisterDev_lookup {search : Search} (sound : slots.Sound) (reaches : slots.Reaches devName search) :
    (slots.unregisterDev search).2.lookup = Function.update slots.lookup devName none := by
  have unbound (nothing : slots.reached search = none) : slots.lookup = Function.update slots.lookup devName none := by
    have same := reaches.same
    rw [nothing] at same
    rw [← Option.map_eq_none_iff.mp same.symm, Function.update_eq_self]
  cases search with
  | stray i => exact absurd rfl (reaches.inside i)
  | exhausted => exact unbound rfl
  | refused => exact unbound rfl
  | found i =>
    simp only [unregisterDev]
    cases here : slots[i]? with
    | none =>
      rw [modify_outside here]
      exact unbound (by rw [reached, here, Option.bind_none])
    | some slot =>
      cases registered : slot.entry with
      | none =>
        rw [lookup_keep fun old there => by cases here.symm.trans there; rw [registered, Slot.entry_clear]]
        exact unbound (by rw [reached, here, Option.bind_some, registered])
      | some pair =>
        obtain ⟨name, op⟩ := pair
        have same := reaches.same
        rw [reached, here, Option.bind_some, registered] at same
        obtain ⟨_, _, pair⟩ := Option.map_eq_some_iff.mp same.symm
        rw [(Prod.mk.inj pair).1]
        exact lookup_clear sound here registered

theorem unregisterDev_sound {search : Search} (sound : slots.Sound) : (slots.unregisterDev search).2.Sound := by
  cases search with
  | found i =>
    simp only [unregisterDev]
    cases here : slots[i]? with
    | none => rwa [modify_outside here]
    | some slot => exact clear_sound sound here
  | stray i => exact sound
  | exhausted => exact sound
  | refused => exact sound

end Table

/-! ## Calls -/

inductive Call (F : Type) where
  | ddevRegister (devName : CString) (optr : DdOperations F) (memory : Bool)
  | sddevRegister (devName : CString) (optr : SddOperations F) (memory : Bool)
  | ddevUnregister (devName : CString)
  | sddevUnregister (devName : CString)
  | ddevOpen (devName : CString) (answer : UInt32)
  | sddevControl (devName : CString) (answer : UInt32)

def Tables.perform (s : Tables F) : Call F → Outcome F
  | .ddevRegister devName optr memory => ddevRegisterDev s (some devName) (some optr) memory
  | .sddevRegister devName optr memory => sddevRegisterDev s (some devName) (some optr) memory
  | .ddevUnregister devName => ddevUnregisterDev s devName
  | .sddevUnregister devName => sddevUnregisterDev s devName
  | .ddevOpen devName answer => DrvModel.ddevOpen s devName answer
  | .sddevControl devName answer => DrvModel.sddevControl s devName answer

/-- The tables after a call, nothing when it does not come back. -/
def step (call : Call F) (s : Option (Tables F)) : Option (Option (Tables F)) :=
  s.map fun tables =>
    let outcome := tables.perform call
    if outcome.returned.isSome then some outcome.after else none

/-- What the tables are for: operations under exact names. -/
@[ext] structure Registry (F : Type) where
  dev : CString → Option (DdOperations F)
  sdev : CString → Option (SddOperations F)

namespace Registry

def empty : Registry F := ⟨fun _ => none, fun _ => none⟩

def after (registry : Registry F) : Call F → Registry F
  | .ddevRegister devName optr _ => { registry with dev := Function.update registry.dev devName (some optr) }
  | .sddevRegister devName optr _ => { registry with sdev := Function.update registry.sdev devName (some optr) }
  | .ddevUnregister devName => { registry with dev := Function.update registry.dev devName none }
  | .sddevUnregister devName => { registry with sdev := Function.update registry.sdev devName none }
  | .ddevOpen _ _ | .sddevControl _ _ => registry

/-- The calls one after the other, the latest first. -/
def history : List (Call F) → Registry F
  | [] => empty
  | call :: earlier => (history earlier).after call

end Registry

namespace Tables
variable (s : Tables F)

def registry : Registry F := ⟨s.drvDevTbl.lookup, s.drvSdevTbl.lookup⟩

/-- A name is registered when it is not registered already. -/
def Fresh : Call F → Prop
  | .ddevRegister devName _ _ => s.registry.dev devName = none
  | .sddevRegister devName _ _ => s.registry.sdev devName = none
  | _ => True

/-- The search of a call reads no name that is not registered and reaches the slot of its own name. -/
def Finds (call : Call F) : Prop :=
  ∀ search ∈ (s.perform call).search,
    match call with
    | .ddevRegister _ _ _ | .sddevRegister _ _ _ => True
    | .ddevUnregister devName | .ddevOpen devName _ => s.drvDevTbl.Reaches devName search
    | .sddevUnregister devName | .sddevControl devName _ => s.drvSdevTbl.Reaches devName search

def Registers : Call F → Prop
  | .ddevRegister _ _ _ | .sddevRegister _ _ _ => True
  | _ => False

structure Exact (call : Call F) : Prop where
  finds : s.Finds call
  registry : (s.perform call).after.registry = s.registry.after call
  registers : Registers call → (s.perform call).returned = some drvSuccess

/-- When a call is exact. -/
def Clear : Call F → Prop
  | .ddevRegister _ _ memory => memory = true ∨ ¬s.drvDevTbl.Growing
  | .sddevRegister _ _ memory => memory = true ∨ ¬s.drvSdevTbl.Growing
  | .ddevUnregister devName | .ddevOpen devName _ => s.drvDevTbl.ClearShort devName s.drvDevTbl.length
  | .sddevUnregister devName => s.drvSdevTbl.ClearShort devName s.drvDevTbl.length
  | .sddevControl devName _ => s.drvSdevTbl.Clear devName s.drvSdevTbl.length

instance [DecidableEq F] : (call : Call F) → Decidable (s.Fresh call)
  | .ddevRegister devName _ _ => inferInstanceAs (Decidable (s.registry.dev devName = none))
  | .sddevRegister devName _ _ => inferInstanceAs (Decidable (s.registry.sdev devName = none))
  | .ddevUnregister _ | .sddevUnregister _ | .ddevOpen _ _ | .sddevControl _ _ => inferInstanceAs (Decidable True)

instance : (call : Call F) → Decidable (s.Clear call)
  | .ddevRegister _ _ memory => inferInstanceAs (Decidable (memory = true ∨ ¬s.drvDevTbl.Growing))
  | .sddevRegister _ _ memory => inferInstanceAs (Decidable (memory = true ∨ ¬s.drvSdevTbl.Growing))
  | .ddevUnregister devName | .ddevOpen devName _ =>
    inferInstanceAs (Decidable (s.drvDevTbl.ClearShort devName s.drvDevTbl.length))
  | .sddevUnregister devName => inferInstanceAs (Decidable (s.drvSdevTbl.ClearShort devName s.drvDevTbl.length))
  | .sddevControl devName _ => inferInstanceAs (Decidable (s.drvSdevTbl.Clear devName s.drvSdevTbl.length))

structure Sound : Prop where
  dev : s.drvDevTbl.Sound
  sdev : s.drvSdevTbl.Sound

variable {s} {call : Call F} {devName : CString} {answer : UInt32}

theorem ddevOpen_search : (ddevOpen s devName answer).search =
    some (s.drvDevTbl.searchShort devName s.drvDevTbl.length) := by
  dsimp only [ddevOpen]
  generalize s.drvDevTbl.searchShort devName s.drvDevTbl.length = search
  cases search with
  | found i => dsimp only; split <;> rfl
  | stray i => rfl
  | exhausted => rfl
  | refused => rfl

theorem sddevControl_search :
    (sddevControl s devName answer).search = some (s.drvSdevTbl.search devName s.drvSdevTbl.length) := by
  dsimp only [sddevControl]
  generalize s.drvSdevTbl.search devName s.drvSdevTbl.length = search
  cases search <;> rfl

theorem ddevOpen_registry : (ddevOpen s devName answer).after.registry = s.registry := by
  dsimp only [ddevOpen]
  split
  · rfl
  · rfl
  · rfl
  · split <;> exact Registry.ext (Table.lookup_keep fun _ _ => rfl) rfl

theorem sddevControl_after : (sddevControl s devName answer).after = s := by
  dsimp only [sddevControl]
  split <;> rfl

theorem ddevOpen_sound (sound : s.Sound) (returned : (ddevOpen s devName answer).returned.isSome) :
    (ddevOpen s devName answer).after.Sound := by
  revert returned
  dsimp only [ddevOpen]
  split
  · exact fun _ => sound
  · exact fun _ => sound
  · exact fun _ => sound
  next i _ =>
    cases here : s.drvDevTbl[i]? with
    | none => simp
    | some slot =>
      have old := sound.dev.slot slot (List.mem_of_getElem? here)
      have used (present : slot.state ≠ .noDevice) : slot.name ≠ none := fun free => present (old.state.mp free)
      simp only [Option.map_some]
      split
      next opened =>
        have counted : slot.countUp.Sound := ⟨old.op, old.state⟩
        exact fun _ => ⟨sound.dev.keep here counted rfl rfl, sound.sdev⟩
      next closed =>
        have present : slot.name ≠ none := used (by rw [Option.some.inj closed]; decide)
        have counted : slot.markOpened.countUp.Sound :=
          ⟨old.op, fun free => absurd free present, fun gone => DdState.noConfusion gone⟩
        exact fun _ => ⟨@Table.Sound.keep _ _ _ _ (fun slot => slot.markOpened.countUp) sound.dev here counted rfl rfl,
          sound.sdev⟩
      · simp

/-- A call whose search reaches its own name does to the map what it is for. -/
theorem perform_registry (sound : s.Sound) (fresh : s.Fresh call) (finds : s.Finds call) :
    (s.perform call).after.registry = s.registry.after call := by
  cases call with
  | ddevRegister devName optr memory =>
    exact Registry.ext (Table.registerDev_spec sound.dev fresh memory).1 rfl
  | sddevRegister devName optr memory =>
    exact Registry.ext rfl (Table.registerDev_spec sound.sdev fresh memory).1
  | ddevUnregister devName => exact Registry.ext (Table.unregisterDev_lookup sound.dev (finds _ rfl)) rfl
  | sddevUnregister devName => exact Registry.ext rfl (Table.unregisterDev_lookup sound.sdev (finds _ rfl))
  | ddevOpen devName answer => exact ddevOpen_registry
  | sddevControl devName answer => exact congrArg registry sddevControl_after

theorem exact_iff (sound : s.Sound) (fresh : s.Fresh call) : s.Exact call ↔ s.Clear call := by
  have whole (finds : s.Finds call) (plain : ¬Registers call) : s.Exact call :=
    ⟨finds, perform_registry sound fresh finds, fun registers => absurd registers plain⟩
  cases call with
  | ddevRegister devName optr memory =>
    have spec := @Table.registerDev_spec _ s.drvDevTbl devName optr sound.dev fresh memory
    have finds : s.Finds (.ddevRegister devName optr memory) := fun _ _ => trivial
    exact ⟨fun exact => spec.2.1.mp (exact.registers trivial),
      fun clear => ⟨finds, perform_registry sound fresh finds, fun _ => spec.2.1.mpr clear⟩⟩
  | sddevRegister devName optr memory =>
    have spec := @Table.registerDev_spec _ s.drvSdevTbl devName optr sound.sdev fresh memory
    have finds : s.Finds (.sddevRegister devName optr memory) := fun _ _ => trivial
    exact ⟨fun exact => spec.2.1.mp (exact.registers trivial),
      fun clear => ⟨finds, perform_registry sound fresh finds, fun _ => spec.2.1.mpr clear⟩⟩
  | ddevUnregister devName =>
    refine Iff.trans ?_ (Table.reaches_short_iff sound.dev)
    exact ⟨fun exact => exact.finds _ rfl, fun reaches => whole (by rintro _ ⟨rfl⟩; exact reaches) id⟩
  | sddevUnregister devName =>
    refine Iff.trans ?_ (Table.reaches_short_iff sound.sdev)
    exact ⟨fun exact => exact.finds _ rfl, fun reaches => whole (by rintro _ ⟨rfl⟩; exact reaches) id⟩
  | ddevOpen devName answer =>
    refine Iff.trans ?_ (Table.reaches_short_iff sound.dev)
    exact ⟨fun exact => exact.finds _ ddevOpen_search,
      fun reaches => whole (fun _ same => Option.some.inj (ddevOpen_search.symm.trans same) ▸ reaches) id⟩
  | sddevControl devName answer =>
    refine Iff.trans ?_ (Table.reaches_iff sound.sdev)
    exact ⟨fun exact => exact.finds _ sddevControl_search,
      fun reaches => whole (fun _ same => Option.some.inj (sddevControl_search.symm.trans same) ▸ reaches) id⟩

theorem perform_sound (sound : s.Sound) (fresh : s.Fresh call) (returned : (s.perform call).returned.isSome) :
    (s.perform call).after.Sound := by
  cases call with
  | ddevRegister devName optr memory =>
    exact ⟨(Table.registerDev_spec sound.dev fresh memory).2.2 returned, sound.sdev⟩
  | sddevRegister devName optr memory =>
    exact ⟨sound.dev, (Table.registerDev_spec sound.sdev fresh memory).2.2 returned⟩
  | ddevUnregister devName => exact ⟨Table.unregisterDev_sound sound.dev, sound.sdev⟩
  | sddevUnregister devName => exact ⟨sound.dev, Table.unregisterDev_sound sound.sdev⟩
  | ddevOpen devName answer => exact ddevOpen_sound sound returned
  | sddevControl devName answer => exact (congrArg Sound sddevControl_after).mpr sound

end Tables

/-! ## Runs -/

section Runs
variable {moments : List (Moment (Option (Tables F)) (Call F))} {final : Option (Tables F)}

theorem sound_of_run (run : Run (Machine.Step step) (some drvModelInit) moments final)
    (fresh : ∀ moment ∈ moments, ∀ s, moment.before = some s → s.Fresh moment.event) :
    Machine.Always (fun s => ∀ tables, s = some tables → tables.Sound) moments final := by
  have initial : ∀ tables : Tables F, some drvModelInit = some tables → tables.Sound := by
    rintro _ ⟨rfl⟩
    exact ⟨Table.init_sound, Table.init_sound⟩
  refine @Machine.always_of_invariant _ _ _ _ _ _ _ (fun s call => ∀ tables, s = some tables → tables.Fresh call) run
    initial ?_ fresh
  · intro s t call sound fresh taken tables same
    obtain ⟨before, rfl, rfl⟩ := Option.map_eq_some_iff.mp taken
    simp only [Option.ite_none_right_eq_some] at same
    obtain ⟨returned, last⟩ := same
    obtain rfl := Option.some.inj last
    exact Tables.perform_sound (sound before rfl) (fresh before rfl) returned

theorem history_of_exact (run : Run (Machine.Step step) (some drvModelInit) moments final)
    (exact : ∀ moment ∈ moments, ∀ s, moment.before = some s → s.Exact moment.event) :
    ∀ tables, final = some tables → tables.registry = Registry.history (moments.map Moment.event) := by
  induction run with
  | nil =>
    rintro _ ⟨rfl⟩
    exact Registry.ext (Table.lookup_grow [] ddInitialSize) (Table.lookup_grow [] ddInitialSize)
  | next _ last ih =>
    obtain ⟨rfl, taken⟩ := last
    obtain ⟨before, here, rfl⟩ := Option.map_eq_some_iff.mp taken
    intro tables same
    simp only [Option.ite_none_right_eq_some] at same
    obtain rfl := Option.some.inj same.2
    have kept := ih (fun m member => exact m (List.mem_cons_of_mem _ member)) before here
    rw [(exact _ List.mem_cons_self before here).registry, kept]
    rfl

/-- In every run from the initial tables that registers no name twice, the calls are
exact if and only if each is clear, and then the tables hold what the history says. -/
theorem calls_exact_iff (run : Run (Machine.Step step) (some drvModelInit) moments final)
    (fresh : ∀ moment ∈ moments, ∀ s, moment.before = some s → s.Fresh moment.event) :
    ((∀ moment ∈ moments, ∀ s, moment.before = some s → s.Exact moment.event) ∧
      ∀ tables, final = some tables → tables.registry = Registry.history (moments.map Moment.event)) ↔
      ∀ moment ∈ moments, ∀ s, moment.before = some s → s.Clear moment.event := by
  have sound := (sound_of_run run fresh).1
  have each (moment) (member : moment ∈ moments) (s) (before : moment.before = some s) :
      s.Exact moment.event ↔ s.Clear moment.event :=
    Tables.exact_iff (sound moment member s before) (fresh moment member s before)
  constructor
  · exact fun all moment member s before => (each moment member s before).mp (all.1 moment member s before)
  · intro clear
    have exact : ∀ moment ∈ moments, ∀ s, moment.before = some s → s.Exact moment.event :=
      fun moment member s before => (each moment member s before).mpr (clear moment member s before)
    exact ⟨exact, history_of_exact run exact⟩

/-! ## Sample runs -/

def spiDevName : CString := ⟨[0x73, 0x70, 0x69], by decide⟩
def spidmaDevName : CString := ⟨[0x73, 0x70, 0x69, 0x64, 0x6D, 0x61], by decide⟩

def spiOp : SddOperations Bool := ⟨some false⟩
def spidmaOp : SddOperations Bool := ⟨some true⟩

def spiFirst : List (Call Bool) :=
  [.sddevUnregister spidmaDevName, .sddevControl spidmaDevName 7, .sddevControl spiDevName 0,
    .sddevRegister spidmaDevName spidmaOp false, .sddevRegister spiDevName spiOp false]

/-- Where the shorter name is registered first, every call of the run is exact. -/
theorem spi_first_exact :
    ∃ moments final, Run (Machine.Step step) (some drvModelInit) moments final ∧ moments.map Moment.event = spiFirst ∧
      (∀ moment ∈ moments, ∀ s, moment.before = some s → s.Exact moment.event) ∧
      ∀ tables, final = some tables → tables.registry = Registry.history (moments.map Moment.event) := by
  let fine (s : Option (Tables Bool)) (call : Call Bool) : Prop := ∀ tables ∈ s, tables.Fresh call ∧ tables.Clear call
  have found : (Machine.replay (Machine.guarded fine step) (some drvModelInit) spiFirst).any Option.isSome = true := by
    decide
  obtain ⟨moments, final, run, same, all, _⟩ := Machine.run_of_fine found
  refine ⟨moments, final, run, same, (calls_exact_iff run fun moment member s before => ?_).mpr ?_⟩
  · exact (all moment member s before).1
  · exact fun moment member s before => (all moment member s before).2

/-- Registered before "spi", the name "spidma" takes the lookups of "spi". -/
theorem spi_reaches_spidma :
    ¬∀ (moments : List (Moment (Option (Tables Bool)) (Call Bool))) (final : Option (Tables Bool)),
      Run (Machine.Step step) (some drvModelInit) moments final →
      (∀ moment ∈ moments, ∀ s, moment.before = some s → s.Fresh moment.event) →
      ∀ moment ∈ moments, ∀ s, moment.before = some s → s.Exact moment.event := by
  intro all
  let one : Tables Bool := (drvModelInit.perform (.sddevRegister spidmaDevName spidmaOp false)).after
  let two : Tables Bool := (one.perform (.sddevRegister spiDevName spiOp false)).after
  have run : Run (Machine.Step step) (some drvModelInit)
      [⟨some two, .sddevControl spiDevName 0⟩, ⟨some one, .sddevRegister spiDevName spiOp false⟩,
        ⟨some drvModelInit, .sddevRegister spidmaDevName spidmaOp false⟩] (some two) :=
    .next (.next (.next .nil ⟨rfl, rfl⟩) ⟨rfl, rfl⟩) ⟨rfl, rfl⟩
  have exact := all _ _ run (by
    simp only [List.forall_mem_cons, List.not_mem_nil, Option.some.injEq, forall_eq']
    exact ⟨trivial, rfl, rfl, fun _ member => member.elim⟩) _ List.mem_cons_self two rfl
  exact absurd (exact.finds _ rfl).same (by decide)

end Runs

end BekenSdk.DrvModel
