import Mathlib.Data.List.Basic
import Mathlib.Algebra.Ring.Nat
import Mathlib.Tactic.Common

/-! Append-only logs with tombstones. A live entry binds a key; deleting a key
marks its entry dead in place, and compaction drops the dead entries. Over a
log whose live keys are pairwise distinct these operations are the operations
of a finite map, which is what the laws below say.
-/

set_option autoImplicit false

namespace BekenSdk.Base

structure Entry (K V : Type) where
  live : Bool
  key : K
  value : V
  deriving DecidableEq

variable {K V : Type} [DecidableEq K]

namespace Entry

def hits (key : K) (entry : Entry K V) : Bool := entry.live && decide (entry.key = key)

theorem hits_iff {key : K} {entry : Entry K V} :
    entry.hits key = true ↔ entry.live = true ∧ entry.key = key := by
  simp [hits]

def kill (entry : Entry K V) : Entry K V := { entry with live := false }

@[simp] theorem hits_kill (key : K) (entry : Entry K V) : entry.kill.hits key = false := rfl

omit [DecidableEq K] in
@[simp] theorem kill_value (entry : Entry K V) : entry.kill.value = entry.value := rfl

end Entry

/-! ## Operations -/

namespace Log

def lookup (key : K) (log : List (Entry K V)) : Option V :=
  (log.find? (Entry.hits key)).map Entry.value

/-- Mark the first live entry of the key dead. -/
def bury (key : K) : List (Entry K V) → List (Entry K V)
  | [] => []
  | entry :: rest => if entry.hits key then entry.kill :: rest else entry :: bury key rest

def compact (log : List (Entry K V)) : List (Entry K V) := log.filter Entry.live

def liveKeys (log : List (Entry K V)) : List K := (compact log).map Entry.key

def Distinct (log : List (Entry K V)) : Prop := (liveKeys log).Nodup

/-! ## Where a key is found -/

/-- A binding splits the log at the first live entry of its key. -/
theorem lookup_some {key : K} {log : List (Entry K V)} {value : V}
    (found : lookup key log = some value) :
    ∃ before entry after, log = before ++ entry :: after ∧
      (∀ e ∈ before, e.hits key = false) ∧ entry.live = true ∧ entry.key = key ∧
      entry.value = value := by
  simp only [lookup, Option.map_eq_some_iff] at found
  obtain ⟨entry, first, same⟩ := found
  obtain ⟨hit, before, after, split, earlier⟩ := List.find?_eq_some_iff_append.mp first
  obtain ⟨live, key⟩ := Entry.hits_iff.mp hit
  exact ⟨before, entry, after, split, fun e member => by simpa using earlier e member, live, key, same⟩

theorem lookup_none_iff {key : K} {log : List (Entry K V)} :
    lookup key log = none ↔ ∀ e ∈ log, e.hits key = false := by
  simp [lookup]

theorem lookup_none_iff_keys {key : K} {log : List (Entry K V)} :
    lookup key log = none ↔ key ∉ liveKeys log := by
  rw [lookup_none_iff]
  simp only [liveKeys, compact, List.mem_map, List.mem_filter, not_exists, not_and]
  constructor
  · rintro absent entry ⟨member, live⟩ same
    have hit := Entry.hits_iff.mpr ⟨live, same⟩
    rw [absent entry member] at hit
    cases hit
  · intro absent entry member
    by_contra hit
    obtain ⟨live, same⟩ := Entry.hits_iff.mp (Bool.not_eq_false _ ▸ hit)
    exact absent entry ⟨member, live⟩ same

theorem bury_split {key : K} {before after : List (Entry K V)} {entry : Entry K V}
    (earlier : ∀ e ∈ before, e.hits key = false) (live : entry.live = true) (same : entry.key = key) :
    bury key (before ++ entry :: after) = before ++ entry.kill :: after := by
  induction before with
  | nil => simp [bury, Entry.hits_iff.mpr ⟨live, same⟩]
  | cons first rest ih =>
    have miss := earlier first (by simp)
    simp only [List.cons_append, bury, miss, Bool.false_eq_true, if_false]
    rw [ih fun e member => earlier e (by simp [member])]

@[simp] theorem bury_length (key : K) (log : List (Entry K V)) :
    (bury key log).length = log.length := by
  induction log with
  | nil => rfl
  | cons entry rest ih =>
    simp only [bury]
    split <;> simp [ih]

/-! ## Lookup after each operation -/

theorem lookup_append (key : K) (first rest : List (Entry K V)) :
    lookup key (first ++ rest) = (lookup key first).or (lookup key rest) := by
  simp only [lookup, List.find?_append]
  cases first.find? (Entry.hits key) <;> simp

theorem lookup_compact (key : K) (log : List (Entry K V)) :
    lookup key (compact log) = lookup key log := by
  induction log with
  | nil => rfl
  | cons entry rest ih =>
    simp only [compact, lookup] at ih
    cases live : entry.live with
    | true =>
      simp only [compact, lookup, List.filter_cons, live, if_true, List.find?_cons]
      cases entry.hits key
      · exact ih
      · rfl
    | false =>
      have miss : entry.hits key = false := by simp [Entry.hits, live]
      simpa only [compact, lookup, List.filter_cons, live, Bool.false_eq_true, if_false,
        List.find?_cons, miss] using ih

theorem lookup_bury_other {key other : K} (log : List (Entry K V)) (ne : other ≠ key) :
    lookup key (bury other log) = lookup key log := by
  induction log with
  | nil => rfl
  | cons entry rest ih =>
    simp only [lookup] at ih
    simp only [bury]
    split
    next hit =>
      have miss : entry.hits key = false := by
        have same := (Entry.hits_iff.mp hit).2
        simp [Entry.hits, same, ne]
      simp only [lookup, List.find?_cons, Entry.hits_kill, miss]
    next =>
      simp only [lookup, List.find?_cons]
      cases entry.hits key
      · exact ih
      · rfl

/-! ## Distinct live keys -/

omit [DecidableEq K] in
theorem liveKeys_append (first rest : List (Entry K V)) :
    liveKeys (first ++ rest) = liveKeys first ++ liveKeys rest := by
  simp [liveKeys, compact]

omit [DecidableEq K] in
@[simp] theorem compact_compact (log : List (Entry K V)) : compact (compact log) = compact log := by
  simp [compact]

omit [DecidableEq K] in
theorem distinct_nil : Distinct ([] : List (Entry K V)) := List.nodup_nil

omit [DecidableEq K] in
theorem Distinct.compact {log : List (Entry K V)} (distinct : Distinct log) :
    Distinct (Log.compact log) := by
  simpa [Distinct, liveKeys] using distinct

omit [DecidableEq K] in
/-- Two live entries of one key are the same entry. -/
theorem Distinct.index_unique {log : List (Entry K V)} (distinct : Distinct log) {i j : Nat}
    {first second : Entry K V} (left : log[i]? = some first) (right : log[j]? = some second)
    (firstLive : first.live = true) (secondLive : second.live = true) (same : first.key = second.key) : i = j := by
  induction log generalizing i j with
  | nil => cases left
  | cons entry rest ih =>
    have later : ∀ (k : Nat) (e : Entry K V), rest[k]? = some e → e.live = true → e.key ∈ liveKeys rest :=
      fun k e here live => List.mem_map.mpr ⟨e, List.mem_filter.mpr ⟨List.mem_of_getElem? here, live⟩, rfl⟩
    have keys : entry.live = true → entry.key ∉ liveKeys rest := by
      intro live
      have nodup : (entry.key :: liveKeys rest).Nodup := by
        simpa [Distinct, liveKeys, Log.compact, live] using distinct
      exact (List.nodup_cons.mp nodup).1
    have tail : Distinct rest :=
      List.Nodup.sublist (((List.sublist_cons_self entry rest).filter _).map _) distinct
    cases i with
    | zero =>
      obtain rfl := Option.some.inj left
      cases j with
      | zero => rfl
      | succ j => exact absurd (same ▸ later j second right secondLive) (keys firstLive)
    | succ i =>
      cases j with
      | zero =>
        obtain rfl := Option.some.inj right
        exact absurd (same ▸ later i first left firstLive) (keys secondLive)
      | succ j => rw [ih tail left right]

theorem liveKeys_bury_sublist (key : K) (log : List (Entry K V)) :
    (liveKeys (bury key log)).Sublist (liveKeys log) := by
  induction log with
  | nil => exact List.Sublist.refl _
  | cons entry rest ih =>
    simp only [bury]
    split
    next hit =>
      obtain ⟨live, -⟩ := Entry.hits_iff.mp hit
      simp [liveKeys, Log.compact, Entry.kill, live]
    next =>
      cases live : entry.live with
      | true => simpa [liveKeys, Log.compact, live] using ih
      | false => simpa [liveKeys, Log.compact, live] using ih

theorem Distinct.bury {log : List (Entry K V)} (distinct : Distinct log) (key : K) :
    Distinct (Log.bury key log) :=
  List.Nodup.sublist (liveKeys_bury_sublist key log) distinct

theorem Distinct.push {log : List (Entry K V)} (distinct : Distinct log) {key : K} (value : V)
    (absent : lookup key log = none) : Distinct (log ++ [⟨true, key, value⟩]) := by
  have fresh := lookup_none_iff_keys.mp absent
  rw [Distinct, liveKeys_append]
  refine List.nodup_append.mpr ⟨distinct, by simp [liveKeys, Log.compact], ?_⟩
  intro first member other last
  have same : other = key := by simpa [liveKeys, Log.compact] using last
  rintro rfl
  exact fresh (same ▸ member)

/-- Deleting a bound key unbinds it when the live keys are distinct. -/
theorem lookup_bury_self {log : List (Entry K V)} (distinct : Distinct log) (key : K) :
    lookup key (bury key log) = none := by
  cases found : lookup key log with
  | none =>
    have sub := (liveKeys_bury_sublist key log).subset
    exact lookup_none_iff_keys.mpr fun member => lookup_none_iff_keys.mp found (sub member)
  | some value =>
    obtain ⟨before, entry, after, rfl, earlier, live, same, -⟩ := lookup_some found
    rw [bury_split earlier live same]
    rw [Distinct, liveKeys_append] at distinct
    have keys : liveKeys (entry :: after) = key :: liveKeys after := by
      simp [liveKeys, Log.compact, live, same]
    rw [keys] at distinct
    have later : key ∉ liveKeys after :=
      (List.nodup_cons.mp (List.nodup_append.mp distinct).2.1).1
    refine lookup_none_iff_keys.mpr ?_
    rw [liveKeys_append]
    have dead : liveKeys (entry.kill :: after) = liveKeys after := by
      simp [liveKeys, Log.compact, Entry.kill]
    rw [dead, List.mem_append, not_or]
    exact ⟨lookup_none_iff_keys.mp (lookup_none_iff.mpr earlier), later⟩

/-! ## Space -/

def size (weight : V → Nat) (log : List (Entry K V)) : Nat := (log.map fun e => weight e.value).sum

omit [DecidableEq K] in
@[simp] theorem size_append (weight : V → Nat) (first rest : List (Entry K V)) :
    size weight (first ++ rest) = size weight first + size weight rest := by
  simp [size]

omit [DecidableEq K] in
@[simp] theorem size_nil (weight : V → Nat) : size weight ([] : List (Entry K V)) = 0 := rfl

omit [DecidableEq K] in
@[simp] theorem size_cons (weight : V → Nat) (entry : Entry K V) (rest : List (Entry K V)) :
    size weight (entry :: rest) = weight entry.value + size weight rest := by
  simp [size]

@[simp] theorem size_bury (weight : V → Nat) (key : K) (log : List (Entry K V)) :
    size weight (bury key log) = size weight log := by
  induction log with
  | nil => rfl
  | cons entry rest ih =>
    simp only [bury]
    split <;> simp [ih]

omit [DecidableEq K] in
theorem size_compact_le (weight : V → Nat) (log : List (Entry K V)) :
    size weight (compact log) ≤ size weight log := by
  induction log with
  | nil => exact Nat.le_refl _
  | cons entry rest ih =>
    simp only [compact] at ih
    cases live : entry.live <;> simp only [compact, List.filter_cons, live, Bool.false_eq_true,
      if_true, if_false, size_cons] <;> omega

omit [DecidableEq K] in
theorem length_compact_le (log : List (Entry K V)) : (compact log).length ≤ log.length :=
  List.length_filter_le _ _

end Log

end BekenSdk.Base
