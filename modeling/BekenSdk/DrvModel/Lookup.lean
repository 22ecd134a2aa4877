import BekenSdk.Base.Machine
import BekenSdk.DrvModel.Registry

/-! The registry against a finite map from names. A lookup compares a prefix and
passes over slots in their order, so it is exact if and only if the first slot
that stops it is the slot of the name.
-/

set_option autoImplicit false

namespace BekenSdk.DrvModel
open Base

variable {F Op : Type}

namespace Slot

structure Sound (slot : Slot Op) : Prop where
  op : slot.op.isSome = slot.name.isSome
  state : slot.name = none ↔ slot.state = .noDevice

theorem Sound.zero : (Slot.zero : Slot Op).Sound := ⟨rfl, by simp [Slot.zero]⟩

theorem Sound.entry_of_name {slot : Slot Op} {name : CString} (sound : slot.Sound) (named : slot.name = some name) :
    ∃ op, slot.entry = some (name, op) := by
  have used := sound.op
  rw [named] at used
  obtain ⟨op, same⟩ := Option.isSome_iff_exists.mp used
  exact ⟨op, by rw [entry, named, same]⟩

theorem name_of_entry {slot : Slot Op} {name : CString} {op : Op} (registered : slot.entry = some (name, op)) :
    slot.name = some name := by
  unfold entry at registered
  split at registered
  next named _ =>
    cases registered
    exact named
  · cases registered

theorem entry_of_free {slot : Slot Op} (free : slot.name = none) : slot.entry = none := by
  rw [entry, free]

theorem Sound.vacant_iff {slot : Slot Op} (sound : slot.Sound) : slot.vacant = true ↔ slot.name = none := by
  rw [vacant, Bool.and_eq_true, Option.isNone_iff_eq_none, decide_eq_true_iff, ← sound.state, and_self]

theorem compare_true_iff {slot : Slot Op} {devName : CString} :
    slot.compare devName = some true ↔
      (∃ other, slot.name = some other ∧ devName.chars <+: other.chars) ∨ slot.name = none ∧ devName.strlen = 0 := by
  cases named : slot.name with
  | none => simp [compare, named]
  | some other => simp [compare, named, strncmpEq_iff]

theorem compare_false_iff {slot : Slot Op} {devName : CString} :
    slot.compare devName = some false ↔ ∃ other, slot.name = some other ∧ ¬devName.chars <+: other.chars := by
  cases named : slot.name with
  | none => simp [compare, named]
  | some other => simp [compare, named, ← strncmpEq_iff]

@[simp] theorem entry_countUp (slot : Slot Op) : slot.countUp.entry = slot.entry := rfl
@[simp] theorem entry_markOpened (slot : Slot Op) : slot.markOpened.entry = slot.entry := rfl
@[simp] theorem entry_fill (name : CString) (op : Op) (slot : Slot Op) : (slot.fill name op).entry = some (name, op) :=
  rfl
@[simp] theorem entry_clear (slot : Slot Op) : slot.clear.entry = none := rfl
@[simp] theorem entry_zero : (zero : Slot Op).entry = none := rfl

end Slot

/-! ## The search -/

namespace Table
variable {slots : Table Op} {devName : CString} {i j count allocated : Nat} {slot : Slot Op}

def named (slots : Table Op) (i : Nat) : Option CString := (slots[i]?).bind Slot.name

def Listed (slots : Table Op) (devName : CString) : Prop := ∃ slot ∈ slots, slot.name = some devName

/-- The search goes on from the slot: it has a name, which does not begin with the query. -/
def Passes (slots : Table Op) (devName : CString) (i : Nat) : Prop :=
  ∃ other ∈ slots.named i, ¬devName.chars <+: other.chars

def Stops (slots : Table Op) (devName : CString) (i : Nat) : Prop :=
  ∃ slot, slots[i]? = some slot ∧ slot.compare devName = some true

instance : Decidable (slots.Listed devName) := List.decidableBEx _ _

instance : Decidable (slots.Passes devName i) := Option.decidableExistsMem _

theorem passes_iff : slots.Passes devName i ↔ ∃ slot, slots[i]? = some slot ∧ slot.compare devName = some false := by
  simp only [Slot.compare_false_iff, Passes, named, Option.mem_def, Option.bind_eq_some_iff]
  constructor
  · rintro ⟨other, ⟨slot, here, same⟩, apart⟩
    exact ⟨slot, here, other, same, apart⟩
  · rintro ⟨slot, here, other, same, apart⟩
    exact ⟨other, ⟨slot, here, same⟩, apart⟩

/-- The search stops at the first slot that it does not pass. -/
theorem searchFrom_found (before : ∀ k, i ≤ k → k < i + j → slots.Passes devName k)
    (stops : slots.Stops devName (i + j)) (inside : j < count) :
    slots.searchFrom devName count i = .found (i + j) := by
  induction j generalizing i count with
  | zero =>
    obtain ⟨count, rfl⟩ := Nat.exists_eq_succ_of_ne_zero (Nat.ne_of_gt inside)
    obtain ⟨slot, here, same⟩ := stops
    simp only [Nat.add_zero] at here
    simp only [searchFrom, here, same, Nat.add_zero]
  | succ j ih =>
    obtain ⟨count, rfl⟩ := Nat.exists_eq_succ_of_ne_zero (Nat.ne_of_gt (Nat.zero_lt_of_lt inside))
    obtain ⟨slot, here, apart⟩ := passes_iff.mp (before i (Nat.le_refl i) (by omega))
    simp only [searchFrom, here, apart]
    have shift : i + 1 + j = i + (j + 1) := by omega
    rw [← shift] at stops ⊢
    exact ih (fun k low high => before k (by omega) (by omega)) stops (by omega)

theorem searchFrom_exhausted (before : ∀ k, i ≤ k → k < i + count → slots.Passes devName k) :
    slots.searchFrom devName count i = .exhausted := by
  induction count generalizing i with
  | zero => rfl
  | succ count ih =>
    obtain ⟨slot, here, apart⟩ := passes_iff.mp (before i (Nat.le_refl i) (by omega))
    simp only [searchFrom, here, apart]
    exact ih fun k low high => before k (by omega) (by omega)

/-- What is known when the search has come to its end. -/
inductive Searched (slots : Table Op) (devName : CString) (limit i : Nat) : Search → Prop
  | found {j : Nat} : i ≤ j → j < limit → (∀ k, i ≤ k → k < j → slots.Passes devName k) → slots.Stops devName j →
      Searched slots devName limit i (.found j)
  | stray {j : Nat} : Searched slots devName limit i (.stray j)
  | exhausted : (∀ k, i ≤ k → k < limit → slots.Passes devName k) → Searched slots devName limit i .exhausted

theorem Searched.pass {search : Search} (here : slots.Passes devName i)
    (rest : slots.Searched devName allocated (i + 1) search) : slots.Searched devName allocated i search := by
  have passes {j : Nat} (later : ∀ k, i + 1 ≤ k → k < j → slots.Passes devName k) :
      ∀ k, i ≤ k → k < j → slots.Passes devName k := by
    intro k low high
    cases Nat.lt_or_eq_of_le low with
    | inl less => exact later k less high
    | inr same => exact same ▸ here
  cases rest with
  | found low high before stops => exact .found (by omega) high (passes before) stops
  | stray => exact .stray
  | exhausted before => exact .exhausted (passes before)

theorem searchFrom_searched : slots.Searched devName (i + count) i (slots.searchFrom devName count i) := by
  induction count generalizing i with
  | zero => exact .exhausted fun k low high => absurd high (by omega)
  | succ count ih =>
    unfold searchFrom
    split
    · exact .stray
    next slot here =>
      split
      · exact .stray
      next same =>
        exact .found (Nat.le_refl i) (by omega) (fun k low high => absurd high (by omega)) ⟨slot, here, same⟩
      next apart =>
        have rest := @ih (i + 1)
        rw [show i + 1 + count = i + (count + 1) by omega] at rest
        exact rest.pass (passes_iff.mpr ⟨slot, here, apart⟩)

theorem search_searched : slots.Searched devName allocated 0 (slots.search devName allocated) := by
  have searched := @searchFrom_searched _ slots devName 0 allocated
  rwa [Nat.zero_add] at searched

theorem search_found (before : ∀ k < i, slots.Passes devName k) (stops : slots.Stops devName i)
    (inside : i < allocated) : slots.search devName allocated = .found i := by
  rw [← Nat.zero_add i] at stops
  rw [search, searchFrom_found (fun k _ high => before k (by omega)) stops inside, Nat.zero_add]

theorem search_exhausted (before : ∀ k < allocated, slots.Passes devName k) :
    slots.search devName allocated = .exhausted :=
  searchFrom_exhausted fun k _ high => before k (by omega)

/-! ## The table as a map -/

def entries (slots : Table Op) : List (Option (CString × Op)) := slots.map Slot.entry

def lookup (slots : Table Op) (devName : CString) : Option Op := SlotTable.lookup slots.entries devName

/-- What the search reaches. -/
def reached (slots : Table Op) : Search → Option (CString × Op)
  | .found i => (slots[i]?).bind Slot.entry
  | _ => none

structure Sound (slots : Table Op) : Prop where
  slot : ∀ slot ∈ slots, slot.Sound
  distinct : SlotTable.Distinct slots.entries
  last : ∃ slot, slots[slots.length - 1]? = some slot ∧ slot.name = none

theorem entries_getElem? : slots.entries[i]? = (slots[i]?).map Slot.entry := List.getElem?_map

theorem lookup_of_entry {op : Op} (sound : slots.Sound) (here : slots[i]? = some slot)
    (registered : slot.entry = some (devName, op)) : slots.lookup devName = some op :=
  SlotTable.lookup_of_slot sound.distinct (by rw [entries_getElem?, here, Option.map_some, registered])

theorem lookup_none_iff (sound : slots.Sound) : slots.lookup devName = none ↔ ¬slots.Listed devName := by
  rw [lookup, SlotTable.lookup_eq_none]
  constructor
  · rintro absent ⟨slot, member, same⟩
    obtain ⟨i, here⟩ := List.mem_iff_getElem?.mp member
    obtain ⟨op, registered⟩ := (sound.slot slot member).entry_of_name same
    exact absent i op (by rw [entries_getElem?, here, Option.map_some, registered])
  · intro absent i op there
    rw [entries_getElem?] at there
    obtain ⟨slot, here, registered⟩ := Option.map_eq_some_iff.mp there
    exact absent ⟨slot, List.mem_of_getElem? here, Slot.name_of_entry registered⟩

/-- The first slot that stops the search is the slot of the name; a name without a slot
passes over all, or it is empty and stops at a first slot that is free. -/
def Clear (slots : Table Op) (devName : CString) (allocated : Nat) : Prop :=
  (∃ i < allocated, slots.named i = some devName ∧ ∀ j < i, slots.Passes devName j) ∨
    ¬slots.Listed devName ∧
      ((∀ j < allocated, slots.Passes devName j) ∨
        devName.strlen = 0 ∧ 0 < allocated ∧ ∃ slot ∈ slots[0]?, slot.name = none)

instance : Decidable (slots.Clear devName allocated) :=
  haveI : Decidable (∃ slot ∈ slots[0]?, slot.name = none) := Option.decidableExistsMem _
  inferInstanceAs (Decidable (_ ∨ _))

structure Reaches (slots : Table Op) (devName : CString) (search : Search) : Prop where
  inside : ∀ i, search ≠ .stray i
  same : slots.reached search = (slots.lookup devName).map fun op => (devName, op)

theorem reaches_of_absent {search : Search} (inside : ∀ i, search ≠ .stray i) (none : slots.reached search = none)
    (sound : slots.Sound) (absent : ¬slots.Listed devName) : slots.Reaches devName search :=
  ⟨inside, by rw [none, (lookup_none_iff sound).mpr absent, Option.map_none]⟩

theorem absent_of_reaches {search : Search} (sound : slots.Sound) (reaches : slots.Reaches devName search)
    (none : slots.reached search = none) : ¬slots.Listed devName := by
  have same := reaches.same
  rw [none] at same
  exact (lookup_none_iff sound).mp (Option.map_eq_none_iff.mp same.symm)

theorem Clear.reaches (sound : slots.Sound) (clear : slots.Clear devName allocated) :
    slots.Reaches devName (slots.search devName allocated) := by
  rcases clear with ⟨i, inside, here, before⟩ | ⟨absent, before | ⟨empty, inside, slot, first, free⟩⟩
  · obtain ⟨slot, there, same⟩ := Option.bind_eq_some_iff.mp here
    obtain ⟨op, registered⟩ := (sound.slot slot (List.mem_of_getElem? there)).entry_of_name same
    have stops : slots.Stops devName i :=
      ⟨slot, there, Slot.compare_true_iff.mpr (.inl ⟨devName, same, List.prefix_refl _⟩)⟩
    rw [search_found before stops inside]
    refine ⟨fun _ => Search.noConfusion, ?_⟩
    rw [reached, there, Option.bind_some, registered, lookup_of_entry sound there registered, Option.map_some]
  · rw [search_exhausted before]
    exact reaches_of_absent (fun _ => Search.noConfusion) rfl sound absent
  · have stops : slots.Stops devName 0 := ⟨slot, first, Slot.compare_true_iff.mpr (.inr ⟨free, empty⟩)⟩
    rw [search_found (fun _ less => absurd less (Nat.not_lt_zero _)) stops inside]
    have none : slots.reached (.found 0) = none := by
      rw [reached, first, Option.bind_some, Slot.entry_of_free free]
    exact reaches_of_absent (fun _ => Search.noConfusion) none sound absent

theorem Reaches.clear (sound : slots.Sound) (reaches : slots.Reaches devName (slots.search devName allocated)) :
    slots.Clear devName allocated := by
  have searched := @search_searched _ slots devName allocated
  generalize slots.search devName allocated = search at reaches searched
  cases searched with
  | stray => exact absurd rfl (reaches.inside _)
  | exhausted before =>
    exact .inr ⟨absent_of_reaches sound reaches rfl, .inl fun j less => before j (Nat.zero_le j) less⟩
  | @found i _ inside before stops =>
    obtain ⟨slot, here, compared⟩ := stops
    rcases Slot.compare_true_iff.mp compared with ⟨other, named, _⟩ | ⟨free, empty⟩
    · obtain ⟨op, registered⟩ := (sound.slot slot (List.mem_of_getElem? here)).entry_of_name named
      have same := reaches.same
      rw [reached, here, Option.bind_some, registered] at same
      obtain ⟨_, _, pair⟩ := Option.map_eq_some_iff.mp same.symm
      rw [← (Prod.mk.inj pair).1] at named
      refine .inl ⟨i, inside, ?_, fun j less => before j (Nat.zero_le j) less⟩
      rw [Table.named, here, Option.bind_some, named]
    · have none : slots.reached (.found i) = none := by
        rw [reached, here, Option.bind_some, Slot.entry_of_free free]
      -- An empty query passes over no slot at all.
      have first : i = 0 := by
        by_contra later
        obtain ⟨other, _, apart⟩ := before 0 (Nat.le_refl 0) (Nat.pos_of_ne_zero later)
        rw [CString.strlen, List.length_eq_zero_iff] at empty
        exact apart (empty ▸ List.nil_prefix)
      subst first
      exact .inr ⟨absent_of_reaches sound reaches none, .inr ⟨empty, inside, slot, here, free⟩⟩

theorem reaches_iff (sound : slots.Sound) :
    slots.Reaches devName (slots.search devName allocated) ↔ slots.Clear devName allocated :=
  ⟨Reaches.clear sound, Clear.reaches sound⟩

/-- The same where the length of the name is checked. -/
def ClearShort (slots : Table Op) (devName : CString) (allocated : Nat) : Prop :=
  if ddMaxNameLen < devName.strlen then ¬slots.Listed devName else slots.Clear devName allocated

instance : Decidable (slots.ClearShort devName allocated) :=
  inferInstanceAs (Decidable (if ddMaxNameLen < devName.strlen then ¬slots.Listed devName else slots.Clear devName allocated))

theorem reaches_short_iff (sound : slots.Sound) :
    slots.Reaches devName (slots.searchShort devName allocated) ↔ slots.ClearShort devName allocated := by
  unfold searchShort ClearShort
  split
  · exact ⟨fun reaches => absent_of_reaches sound reaches rfl,
      reaches_of_absent (fun _ => Search.noConfusion) rfl sound⟩
  · exact reaches_iff sound

end Table

end BekenSdk.DrvModel
