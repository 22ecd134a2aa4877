import Mathlib.Data.List.Basic
import Mathlib.Tactic.Common

/-! The lookups of `rw_msdu.c` in the table of stations. All three go through the table in one way, up
to the first entry with the address. Only the index tells whether there was one; none looks
at the flag that tells whether the entry is valid.
-/

set_option autoImplicit false

namespace BekenSdk.RwMsdu

abbrev MacAddr := Fin 6 → UInt8

/-- The fields of `struct sta_info_tag` that the lookups and their results are about. -/
structure StaInfo where
  valid : Bool
  macAddr : MacAddr
  ctrlPortState : UInt8

/-- `sta_info_tab` has at least one entry, and an index of its entries is none of 255. -/
structure StaTable where
  entries : List StaInfo
  positive : 0 < entries.length
  indexed : entries.length ≤ 255

def portOpen : UInt8 := 3

/-- `MAC_ADDR_CMP` -/
def macAddrCmp (a b : MacAddr) : Bool :=
  a 0 == b 0 && a 1 == b 1 && a 2 == b 2 && a 3 == b 3 && a 4 == b 4 && a 5 == b 5

/-- The loop of the lookups: its index and the entry that it looked at last, which is told by its index. -/
def scan (mac : MacAddr) : List StaInfo → Nat → Option Nat → Nat × Option Nat
  | [], i, staEntry => (i, staEntry)
  | sta :: rest, i, _ =>
    if macAddrCmp sta.macAddr mac then (i, some i) else scan mac rest (i + 1) (some i)

namespace StaTable

def rwmMgmtStaMac2ptr (tab : StaTable) (mac : MacAddr) : Option Nat := (scan mac tab.entries 0 none).2

def rwmMgmtStaMac2idx (tab : StaTable) (mac : MacAddr) : UInt8 :=
  let i := (scan mac tab.entries 0 none).1
  if i < tab.entries.length then i.toUInt8 else 0xff

def rwmMgmtStaMac2port (tab : StaTable) (mac : MacAddr) : UInt8 :=
  match (scan mac tab.entries 0 none).2.bind fun i => tab.entries[i]? with
  | some sta => if sta.ctrlPortState = portOpen then 1 else 0
  | none => 0

/-! ## Agreement -/

/-- The entry is a valid one with that address. -/
def Names (tab : StaTable) (mac : MacAddr) (i : Nat) (sta : StaInfo) : Prop :=
  tab.entries[i]? = some sta ∧ sta.macAddr = mac ∧ sta.valid = true

structure Agree (tab : StaTable) (mac : MacAddr) : Prop where
  present : (∃ i sta, tab.Names mac i sta) → ∃ i sta, tab.Names mac i sta ∧ tab.rwmMgmtStaMac2ptr mac = some i ∧
    (tab.rwmMgmtStaMac2idx mac).toNat = i ∧
    tab.rwmMgmtStaMac2port mac = if sta.ctrlPortState = portOpen then 1 else 0
  absent : (¬ ∃ i sta, tab.Names mac i sta) →
    tab.rwmMgmtStaMac2ptr mac = none ∧ tab.rwmMgmtStaMac2idx mac = 0xff ∧ tab.rwmMgmtStaMac2port mac = 0
  ptr : ∀ i sta, tab.rwmMgmtStaMac2ptr mac = some i → tab.entries[i]? = some sta → sta.macAddr = mac
  idx : ∀ sta, tab.entries[(tab.rwmMgmtStaMac2idx mac).toNat]? = some sta → sta.macAddr = mac

/-- The first entry with the address, valid or not. -/
def first (tab : StaTable) (mac : MacAddr) : Option Nat :=
  tab.entries.findIdx? fun sta => macAddrCmp sta.macAddr mac

variable {tab : StaTable} {mac : MacAddr} {i : Nat} {sta : StaInfo}

theorem macAddrCmp_iff {a b : MacAddr} : macAddrCmp a b = true ↔ a = b := by
  simp only [macAddrCmp, Bool.and_eq_true, beq_iff_eq]
  constructor
  · rintro ⟨⟨⟨⟨⟨h0, h1⟩, h2⟩, h3⟩, h4⟩, h5⟩
    funext i
    match i with
    | 0 => exact h0
    | 1 => exact h1
    | 2 => exact h2
    | 3 => exact h3
    | 4 => exact h4
    | 5 => exact h5
  · rintro rfl
    exact ⟨⟨⟨⟨⟨rfl, rfl⟩, rfl⟩, rfl⟩, rfl⟩, rfl⟩

/-- Without an entry for the address the loop ends with the last one in hand. -/
theorem scan_eq (entries : List StaInfo) (from_ : Nat) (staEntry : Option Nat) :
    scan mac entries from_ staEntry =
      match entries.findIdx? fun sta => macAddrCmp sta.macAddr mac with
      | some j => (from_ + j, some (from_ + j))
      | none => (from_ + entries.length, if entries = [] then staEntry else some (from_ + entries.length - 1)) := by
  induction entries generalizing from_ staEntry with
  | nil => rfl
  | cons sta rest ih =>
    rw [scan, List.findIdx?_cons]
    split
    next same => rfl
    next other =>
      rw [ih]
      cases rest.findIdx? fun sta => macAddrCmp sta.macAddr mac with
      | some j => simp only [Option.map_some, Nat.add_assoc, Nat.add_comm 1]
      | none =>
        simp only [Option.map_none, List.length_cons, List.cons_ne_nil, if_false]
        rw [show from_ + 1 + rest.length = from_ + (rest.length + 1) by omega]
        split
        next last =>
          rw [last]
          rfl
        · rfl

theorem lookups_found (found : tab.first mac = some i) : ∃ sta, tab.entries[i]? = some sta ∧ sta.macAddr = mac ∧
    tab.rwmMgmtStaMac2ptr mac = some i ∧ (tab.rwmMgmtStaMac2idx mac).toNat = i ∧
    tab.rwmMgmtStaMac2port mac = if sta.ctrlPortState = portOpen then 1 else 0 := by
  obtain ⟨inside, same, -⟩ := List.findIdx?_eq_some_iff_getElem.1 found
  have entry := List.getElem?_eq_getElem inside
  have scanned : scan mac tab.entries 0 none = (i, some i) := by
    rw [scan_eq, show tab.entries.findIdx? _ = some i from found]
    simp only [Nat.zero_add]
  refine ⟨_, entry, macAddrCmp_iff.1 same, ?_, ?_, ?_⟩
  · rw [rwmMgmtStaMac2ptr, scanned]
  · have small := tab.indexed
    rw [rwmMgmtStaMac2idx, scanned]
    simp only [if_pos inside]
    exact Nat.mod_eq_of_lt (by omega)
  · rw [rwmMgmtStaMac2port, scanned]
    simp only [Option.bind_some, entry]

theorem ptr_not_found (missing : tab.first mac = none) :
    tab.rwmMgmtStaMac2ptr mac = some (tab.entries.length - 1) := by
  rw [rwmMgmtStaMac2ptr, scan_eq, show tab.entries.findIdx? _ = none from missing]
  simp only [Nat.zero_add, if_neg (List.ne_nil_of_length_pos tab.positive)]

theorem first_of_names (names : tab.Names mac i sta) : ∃ j, tab.first mac = some j := by
  obtain ⟨entry, same, -⟩ := names
  cases missing : tab.first mac with
  | some j => exact ⟨j, rfl⟩
  | none =>
    have differs := List.findIdx?_eq_none_iff.1 missing sta (List.mem_of_getElem? entry)
    rw [macAddrCmp_iff.2 same] at differs
    cases differs

/-! ## Result -/

/-- The lookups are right about an address if and only if the first entry with it is there and valid. -/
theorem lookups_agree_iff (tab : StaTable) (mac : MacAddr) :
    tab.Agree mac ↔ ∃ i sta, tab.first mac = some i ∧ tab.entries[i]? = some sta ∧ sta.valid = true := by
  constructor
  · intro agree
    by_cases present : ∃ i sta, tab.Names mac i sta
    · obtain ⟨i, sta, names, ptr, -⟩ := agree.present present
      obtain ⟨j, found⟩ := first_of_names names
      obtain ⟨-, -, -, same, -⟩ := lookups_found found
      obtain rfl := Option.some.inj (ptr.symm.trans same)
      exact ⟨i, sta, found, names.1, names.2.2⟩
    · have none_found := (agree.absent present).1
      cases found : tab.first mac with
      | none => exact absurd (none_found.symm.trans (ptr_not_found found)) (by simp)
      | some j =>
        obtain ⟨-, -, -, same, -⟩ := lookups_found found
        exact absurd (none_found.symm.trans same) (by simp)
  · rintro ⟨i, sta, found, entry, valid⟩
    obtain ⟨other, here, same, ptr, idx, port⟩ := lookups_found found
    obtain rfl := Option.some.inj (entry.symm.trans here)
    have names : tab.Names mac i sta := ⟨entry, same, valid⟩
    refine ⟨fun _ => ⟨i, sta, names, ptr, idx, port⟩, fun absent => absurd ⟨i, sta, names⟩ absent, ?_, ?_⟩
    · intro j other result there
      obtain rfl := Option.some.inj (ptr.symm.trans result)
      obtain rfl := Option.some.inj (entry.symm.trans there)
      exact same
    · intro other there
      rw [idx] at there
      obtain rfl := Option.some.inj (entry.symm.trans there)
      exact same

/-- Two stations, the second with an open port. -/
def twoStations : StaTable where
  entries := [⟨true, fun i => i.val.toUInt8, 0⟩, ⟨true, fun _ => 7, portOpen⟩]
  positive := by decide
  indexed := by decide

/-- An address that is in neither entry is taken for the second. -/
theorem unknown_address_is_last :
    twoStations.rwmMgmtStaMac2ptr (fun _ => 9) = some 1 ∧ twoStations.rwmMgmtStaMac2idx (fun _ => 9) = 0xff ∧
      twoStations.rwmMgmtStaMac2port (fun _ => 9) = 1 ∧ ¬ twoStations.Agree (fun _ => 9) := by
  refine ⟨by decide, by decide, by decide, fun agree => ?_⟩
  have other := agree.ptr 1 ⟨true, fun _ => 7, portOpen⟩ (by decide) rfl
  exact absurd (congrFun other 0) (by decide)

end StaTable

end BekenSdk.RwMsdu
