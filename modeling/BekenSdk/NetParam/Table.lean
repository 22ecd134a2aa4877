import BekenSdk.Base.NorFlash
import BekenSdk.Base.Tlv
import Mathlib.Algebra.Order.BigOperators.Group.List
import Mathlib.Algebra.Order.Ring.Nat
import Mathlib.Data.List.Perm.Subperm

/-! The network parameters (net_param.c): one table in a sector of the flash, a header
with the length of the rest and a record for each item. `BK7221U` has one more byte
of charge values than the other chips. Saving an item reads the table, puts the
record into it and writes it again.
-/

set_option autoImplicit false

namespace BekenSdk.NetParam
open Base

def infoTlvHeader : Nat := 0x00564c54

def flashSectorSize : Nat := 4096

inductive NetInfoItem where
  | autoConnect
  | wifiMode
  | dhcpMode
  | wifiMac
  | ssidKey
  | ipConfig
  | rfCfgTssi
  | rfCfgDist
  | rfCfgMode
  | chargeConfig
  | rfCfgTssiB
  | rfCfgTssiN20
  | rfCfgTssiN40
  deriving DecidableEq, Repr

namespace NetInfoItem

def code : NetInfoItem → Nat
  | autoConnect => 0x11111111
  | wifiMode => 0x22222222
  | dhcpMode => 0x33333333
  | wifiMac => 0x44444444
  | ssidKey => 0x55555555
  | ipConfig => 0x66666666
  | rfCfgTssi => 0x77777777
  | rfCfgDist => 0x88888888
  | rfCfgMode => 0x99999999
  | chargeConfig => 0xaaaaaaaa
  | rfCfgTssiB => 0xbbbbbbbb
  | rfCfgTssiN20 => 0xcccccccc
  | rfCfgTssiN40 => 0xdddddddd

end NetInfoItem

/-- The sizes of the item structures, with the head of eight bytes. -/
def infoItemLen : NetInfoItem → Nat
  | .wifiMac => 16
  | .chargeConfig => 12
  | .ssidKey => 104
  | .ipConfig => 56
  | _ => 12

/-- `sizeof chrg`; the rest of the word is reserved. -/
def chrgSize (bk7221u : Bool) : Nat := if bk7221u then 4 else 3

section
variable (bk7221u : Bool) (start : Nat) (cells : Cells)

/-! ## Looking up -/

/-- The length of the whole table, if there is one. -/
def searchInfoTbl : Option Nat :=
  if readWord cells start = infoTlvHeader then some (readWord cells (start + 4) + 8) else none

/-- The address of an item's record, or 0. -/
def searchInfoItem (item : NetInfoItem) : Nat :=
  let last := start + 8 + readWord cells (start + 4)
  let addr := Tlv.walk cells item.code last (start + 8)
  if last ≤ addr then 0 else addr

/-- What goes to the pointers that are given, one list of bytes for each. -/
def getInfoItem (item : NetInfoItem) (ptr0 ptr1 ptr2 : Bool) : Option (List (List UInt8)) :=
  match searchInfoTbl start cells with
  | none => none
  | some _ =>
    let addr := searchInfoItem start cells item
    if addr = 0 then none
    else
      match item with
      | .ssidKey =>
        if ptr0 && ptr1 then some [readBytes cells (addr + 8) 32, readBytes cells (addr + 8 + 32) 64] else none
      | .ipConfig =>
        if ptr0 && ptr1 && ptr2 then
          some [readBytes cells (addr + 8) 16, readBytes cells (addr + 8 + 16) 16, readBytes cells (addr + 8 + 32) 16]
        else
          none
      | _ => if ptr0 then some [readBytes cells (addr + 8) (readWord cells (addr + 4))] else none

/-! ## Saving -/

/-- What is copied from the pointers to the record of the item. -/
def copied (item : NetInfoItem) (ptr0 ptr1 ptr2 : Cells) : List UInt8 :=
  match item with
  | .wifiMac => readBytes ptr0 0 6
  | .ssidKey => readBytes ptr0 0 32 ++ readBytes ptr1 0 64
  | .ipConfig => readBytes ptr0 0 16 ++ (readBytes ptr1 0 16 ++ readBytes ptr2 0 16)
  | .chargeConfig => readBytes ptr0 0 (chrgSize bk7221u)
  | _ => readBytes ptr0 0 4

/-- The record at its place in the buffer, and the header of the table. -/
def fill (item : NetInfoItem) (value : List UInt8) (addrOffset headLen : Nat) (buf : Cells) : Cells :=
  storeBytes
    (storeBytes (storeBytes buf (addrOffset + 8) value) addrOffset (Tlv.header item.code (infoItemLen item - 8)))
    0 (Tlv.header infoTlvHeader headLen)

/-- The sectors from the first one of the region to the last. -/
def bkFlashErase (size : Nat) : Cells :=
  (List.range' (start / flashSectorSize) ((start + size - 1) / flashSectorSize + 1 - start / flashSectorSize)).foldl
    (fun cells sector => eraseSector flashSectorSize cells (flashSectorSize * sector)) cells

def writeTable (buf : Cells) (tblLen : Nat) : Cells :=
  programBytes (bkFlashErase start cells tblLen) start (readBytes buf 0 tblLen)

/-- `memory` tells whether there is any for the buffer. -/
def saveInfoItem (memory : Bool) (item : NetInfoItem) (ptr0 ptr1 ptr2 : Cells) : UInt32 × Cells :=
  if memory then
    let value := copied bk7221u item ptr0 ptr1 ptr2
    match searchInfoTbl start cells with
    | none =>
      let tblLen := 8 + infoItemLen item
      (1, writeTable start cells (fill item value 8 (infoItemLen item) fun _ => 0) tblLen)
    | some oldLen =>
      let found := searchInfoItem start cells item
      let addrOffset := if found = 0 then oldLen else found - start
      let tblLen := if found = 0 then oldLen + infoItemLen item else oldLen
      let buf := storeBytes (fun _ => 0) 0 (readBytes cells start oldLen)
      (1, writeTable start cells (fill item value addrOffset (tblLen - 8) buf) tblLen)
  else
    (0, cells)

end

/-- A call of `save_info_item`. -/
structure Save where
  item : NetInfoItem
  ptr0 : Cells
  ptr1 : Cells
  ptr2 : Cells
  memory : Bool

def Save.run (bk7221u : Bool) (start : Nat) (save : Save) (cells : Cells) : Cells :=
  (saveInfoItem bk7221u start cells save.memory save.item save.ptr0 save.ptr1 save.ptr2).2

/-- The flash after the calls, the latest of them first. -/
def runSaves (bk7221u : Bool) (start : Nat) (cells : Cells) : List Save → Cells
  | [] => cells
  | save :: earlier => save.run bk7221u start (runSaves bk7221u start cells earlier)

/-! ## Records

The table as a map from items to values. The records are those of the items that
were saved, each once, in the order of their first saves; saving an item changes
its record in place or adds one, and the other records stay.
-/

theorem NetInfoItem.code_inj {item other : NetInfoItem} (same : item.code = other.code) : item = other := by
  cases item <;> cases other <;> first | rfl | exact absurd same (by decide)

theorem NetInfoItem.code_small (item : NetInfoItem) : item.code < 2 ^ 32 := by
  cases item <;> decide

/-- The bytes of a value as they are saved. -/
def copiedLen (bk7221u : Bool) : NetInfoItem → Nat
  | .wifiMac => 6
  | .ssidKey => 96
  | .ipConfig => 48
  | .chargeConfig => chrgSize bk7221u
  | _ => 4

def reserved (bk7221u : Bool) (item : NetInfoItem) : Nat := infoItemLen item - 8 - copiedLen bk7221u item

theorem reserved_add (bk7221u : Bool) (item : NetInfoItem) :
    8 + (copiedLen bk7221u item + reserved bk7221u item) = infoItemLen item := by
  cases bk7221u <;> cases item <;> rfl

theorem copied_length (bk7221u : Bool) (item : NetInfoItem) (ptr0 ptr1 ptr2 : Cells) :
    (copied bk7221u item ptr0 ptr1 ptr2).length = copiedLen bk7221u item := by
  cases item <;> simp [copied, copiedLen]

/-- An item with a value of its size. -/
structure Entry (bk7221u : Bool) where
  item : NetInfoItem
  value : List UInt8
  width : value.length = copiedLen bk7221u item

section
variable {bk7221u : Bool}

namespace Entry

def field (entry : Entry bk7221u) : List UInt8 :=
  entry.value ++ List.replicate (reserved bk7221u entry.item) 0

theorem field_length (entry : Entry bk7221u) : 8 + entry.field.length = infoItemLen entry.item := by
  rw [field, List.length_append, List.length_replicate, entry.width, reserved_add]

theorem field_small (entry : Entry bk7221u) : entry.field.length < 2 ^ 32 := by
  have long := entry.field_length
  have small : infoItemLen entry.item ≤ 104 := by cases entry.item <;> decide
  omega

def toTlv (entry : Entry bk7221u) : Tlv := ⟨entry.item.code, entry.field, entry.item.code_small, entry.field_small⟩

def toBytes (entry : Entry bk7221u) : List UInt8 := entry.toTlv.toBytes

theorem toBytes_length (entry : Entry bk7221u) : entry.toBytes.length = infoItemLen entry.item :=
  (Tlv.toBytes_length _).trans entry.field_length

theorem toBytes_eq (entry : Entry bk7221u) : entry.toBytes =
    Tlv.header entry.item.code (infoItemLen entry.item - 8) ++ entry.value ++
      List.replicate (reserved bk7221u entry.item) 0 := by
  have long : entry.field.length = infoItemLen entry.item - 8 := by
    have whole := entry.field_length
    omega
  rw [toBytes, Tlv.toBytes, List.append_assoc, ← long]
  rfl

end Entry

/-! ## Tables -/

def tableBytes (table : List (Entry bk7221u)) : List UInt8 := table.flatMap Entry.toBytes

/-- The sum of the item records. -/
def tableLen (table : List (Entry bk7221u)) : Nat := (table.map fun entry => infoItemLen entry.item).sum

theorem tableBytes_length (table : List (Entry bk7221u)) : (tableBytes table).length = tableLen table := by
  rw [tableBytes, tableLen, List.length_flatMap]
  exact congrArg List.sum (List.map_congr_left fun entry _ => entry.toBytes_length)

@[simp] def put (entry : Entry bk7221u) : List (Entry bk7221u) → List (Entry bk7221u)
  | [] => [entry]
  | first :: rest => if first.item = entry.item then entry :: rest else first :: put entry rest

def lookup (item : NetInfoItem) (table : List (Entry bk7221u)) : Option (Entry bk7221u) :=
  table.find? fun entry => entry.item = item

theorem put_absent {entry : Entry bk7221u} {table : List (Entry bk7221u)}
    (others : ∀ e ∈ table, e.item ≠ entry.item) : put entry table = table ++ [entry] := by
  induction table with
  | nil => rfl
  | cons first rest ih =>
    rw [put, if_neg (others first List.mem_cons_self), ih fun e member => others e (List.mem_cons_of_mem _ member)]
    rfl

theorem put_present {entry old : Entry bk7221u} {before after : List (Entry bk7221u)}
    (others : ∀ e ∈ before, e.item ≠ entry.item) (same : old.item = entry.item) :
    put entry (before ++ old :: after) = before ++ entry :: after := by
  induction before with
  | nil => exact if_pos same
  | cons first rest ih =>
    rw [List.cons_append, put, if_neg (others first List.mem_cons_self),
      ih fun e member => others e (List.mem_cons_of_mem _ member)]
    rfl

theorem put_items_mem (entry : Entry bk7221u) (table : List (Entry bk7221u)) (item : NetInfoItem) :
    item ∈ (put entry table).map Entry.item ↔ item = entry.item ∨ item ∈ table.map Entry.item := by
  induction table with
  | nil => simp [put]
  | cons first rest ih =>
    rw [put]
    split
    next same => simp [same]
    · simp only [List.map_cons, List.mem_cons, ih]
      exact or_left_comm

theorem put_distinct {entry : Entry bk7221u} {table : List (Entry bk7221u)} (distinct : (table.map Entry.item).Nodup) :
    ((put entry table).map Entry.item).Nodup := by
  induction table with
  | nil => exact List.nodup_singleton _
  | cons first rest ih =>
    obtain ⟨apart, distinct⟩ := List.nodup_cons.mp distinct
    rw [put]
    split
    next same => exact List.nodup_cons.mpr ⟨same ▸ apart, distinct⟩
    next other =>
      refine List.nodup_cons.mpr ⟨fun member => ?_, ih distinct⟩
      exact ((put_items_mem entry rest _).mp member).elim other apart

/-- The map that a table stands for, after an item is put. -/
theorem lookup_put (entry : Entry bk7221u) (table : List (Entry bk7221u)) (item : NetInfoItem) :
    lookup item (put entry table) = if item = entry.item then some entry else lookup item table := by
  induction table with
  | nil =>
    by_cases same : item = entry.item
    · simp [lookup, put, same]
    · simp [lookup, put, same, Ne.symm same]
  | cons first rest ih =>
    unfold lookup at ih ⊢
    rw [put]
    by_cases here : first.item = entry.item
    · rw [if_pos here]
      by_cases same : item = entry.item
      · simp [same]
      · have other : first.item ≠ item := fun clash => same (clash.symm.trans here)
        simp [same, Ne.symm same, other]
    · rw [if_neg here, List.find?_cons, List.find?_cons, ih]
      by_cases found : first.item = item
      · have other : item ≠ entry.item := fun clash => here (found.trans clash)
        simp [found, other]
      · simp [found]

theorem lookup_split {item : NetInfoItem} {table : List (Entry bk7221u)} {entry : Entry bk7221u}
    (found : lookup item table = some entry) : entry.item = item ∧
      ∃ before after, table = before ++ entry :: after ∧ ∀ e ∈ before, e.item ≠ item := by
  obtain ⟨same, before, after, split, others⟩ := List.find?_eq_some_iff_append.mp found
  exact ⟨of_decide_eq_true same, before, after, split, fun e member => by simpa using others e member⟩

theorem lookup_none {item : NetInfoItem} {table : List (Entry bk7221u)} (none : lookup item table = none) :
    ∀ e ∈ table, e.item ≠ item := by
  intro e member
  simpa using List.find?_eq_none.mp none e member

def allItems : List NetInfoItem :=
  [.autoConnect, .wifiMode, .dhcpMode, .wifiMac, .ssidKey, .ipConfig, .rfCfgTssi, .rfCfgDist, .rfCfgMode, .chargeConfig,
    .rfCfgTssiB, .rfCfgTssiN20, .rfCfgTssiN40]

/-- All items together are far smaller than a sector. -/
theorem tableLen_le {table : List (Entry bk7221u)} (distinct : (table.map Entry.item).Nodup) :
    tableLen table ≤ 296 := by
  have within : (table.map Entry.item).Subperm allItems :=
    distinct.subperm fun item _ => by cases item <;> decide
  obtain ⟨chosen, same, part⟩ := within
  have sum : tableLen table = (chosen.map infoItemLen).sum := by
    rw [(same.map infoItemLen).sum_eq, List.map_map]
    rfl
  rw [sum]
  exact (part.map infoItemLen).sum_le_sum fun _ _ => Nat.zero_le _

end

end BekenSdk.NetParam
