import BekenSdk.NetParam.Table

/-! The flash holds the table: what `get_info_item` finds there is what the table has for
the item, and `save_info_item` puts an item into it.
-/

set_option autoImplicit false

namespace BekenSdk.NetParam
open Base

/-- The pointers that an item needs. -/
def Given (item : NetInfoItem) (ptr0 ptr1 ptr2 : Bool) : Bool :=
  match item with
  | .ssidKey => ptr0 && ptr1
  | .ipConfig => ptr0 && ptr1 && ptr2
  | _ => ptr0

/-- What the pointers get of a value, with the reserved bytes of its record. -/
def delivered (bk7221u : Bool) (item : NetInfoItem) (value : List UInt8) : List (List UInt8) :=
  match item with
  | .ssidKey => [value.take 32, value.drop 32]
  | .ipConfig => [value.take 16, (value.drop 16).take 16, value.drop 32]
  | _ => [value ++ List.replicate (reserved bk7221u item) 0]

/-- No header when nothing is saved; otherwise the header and the records. -/
structure Stored {bk7221u : Bool} (start : Nat) (cells : Cells) (table : List (Entry bk7221u)) : Prop where
  distinct : (table.map Entry.item).Nodup
  erased : table = [] → readWord cells start ≠ infoTlvHeader
  holds : table ≠ [] → Holds cells start (Tlv.header infoTlvHeader (tableLen table) ++ tableBytes table)

section
variable {bk7221u : Bool} {start : Nat} {cells : Cells} {table before after : List (Entry bk7221u)}
  {entry : Entry bk7221u} {item : NetInfoItem}

namespace Stored

theorem small (stored : Stored start cells table) : tableLen table < 2 ^ 32 :=
  Nat.lt_of_le_of_lt (tableLen_le stored.distinct) (by decide)

theorem len_eq (stored : Stored start cells table) (some' : table ≠ []) :
    readWord cells (start + 4) = tableLen table :=
  Tlv.header_len (stored.holds some') stored.small

/-! ## Looking up -/

theorem search_none (stored : Stored start cells table) (empty : table = []) : searchInfoTbl start cells = none :=
  if_neg (stored.erased empty)

theorem search_some (stored : Stored start cells table) (some' : table ≠ []) :
    searchInfoTbl start cells = some (tableLen table + 8) := by
  rw [searchInfoTbl, if_pos (Tlv.header_type (stored.holds some') (by decide)), stored.len_eq some']

theorem records (stored : Stored start cells table) (some' : table ≠ []) :
    Holds cells (start + 8) ((table.map Entry.toTlv).flatMap Tlv.toBytes) := by
  rw [List.flatMap_map]
  exact ((holds_append _ _ _ _).mp (stored.holds some')).2

theorem walk_eq (stored : Stored start cells (before ++ after)) (some' : before ++ after ≠ [])
    (others : ∀ e ∈ before, e.item ≠ item) :
    Tlv.walk cells item.code (start + 8 + tableLen (before ++ after)) (start + 8) =
      Tlv.walk cells item.code (start + 8 + tableLen (before ++ after)) (start + 8 + tableLen before) := by
  have held := stored.records some'
  have long : ((before.map Entry.toTlv).flatMap Tlv.toBytes).length = tableLen before := by
    rw [List.flatMap_map]
    exact tableBytes_length before
  have total : tableLen (before ++ after) = tableLen before + tableLen after := by
    rw [tableLen, List.map_append, List.sum_append]
    rfl
  rw [List.map_append, List.flatMap_append] at held
  have past := @Tlv.walk_past cells item.code (start + 8 + tableLen (before ++ after)) (start + 8) _ _ held
    (fun record member same => ?_) (by omega)
  · rwa [long] at past
  · obtain ⟨e, known, rfl⟩ := List.mem_map.mp member
    exact others e known (NetInfoItem.code_inj same)

/-- The walk stops at the first record of the item. -/
theorem search_present (stored : Stored start cells (before ++ entry :: after))
    (others : ∀ e ∈ before, e.item ≠ entry.item) :
    searchInfoItem start cells entry.item = start + 8 + tableLen before ∧
      Holds cells (start + 8 + tableLen before) (entry.toBytes ++ tableBytes after) := by
  have some' : before ++ entry :: after ≠ [] := List.append_ne_nil_of_right_ne_nil _ (List.cons_ne_nil _ _)
  have held : Holds cells (start + 8 + tableLen before) (entry.toBytes ++ tableBytes after) := by
    have whole := ((holds_append _ _ _ _).mp (stored.holds some')).2
    rw [tableBytes, List.flatMap_append, holds_append, ← tableBytes, tableBytes_length] at whole
    exact whole.2
  have total : tableLen (before ++ entry :: after) = tableLen before + (infoItemLen entry.item + tableLen after) := by
    rw [tableLen, List.map_append, List.sum_append, List.map_cons, List.sum_cons]
    rfl
  have long := entry.field_length
  have here : Tlv.walk cells entry.item.code (start + 8 + tableLen (before ++ entry :: after)) (start + 8) =
      start + 8 + tableLen before := by
    rw [stored.walk_eq some' others]
    exact Tlv.walk_here (by omega) (Tlv.read_type held)
  refine ⟨?_, held⟩
  simp only [searchInfoItem, stored.len_eq some', here]
  exact if_neg (by omega)

theorem search_absent (stored : Stored start cells table) (some' : table ≠ []) (others : ∀ e ∈ table, e.item ≠ item) :
    searchInfoItem start cells item = 0 := by
  have stored' : Stored start cells (table ++ []) := by rwa [List.append_nil]
  have past := stored'.walk_eq (by rwa [List.append_nil]) others
  rw [List.append_nil, Tlv.walk_end (Nat.le_refl _)] at past
  simp only [searchInfoItem, stored.len_eq some', past]
  exact if_pos (Nat.le_refl _)

end Stored

/-! ## get_info_item -/

/-- The bytes of one record, as they go to the pointers. -/
theorem fetch_eq {addr : Nat} {rest : List UInt8} (held : Holds cells addr (entry.toBytes ++ rest))
    (ptr0 ptr1 ptr2 : Bool) :
    (match entry.item with
      | .ssidKey =>
        if ptr0 && ptr1 then some [readBytes cells (addr + 8) 32, readBytes cells (addr + 8 + 32) 64] else none
      | .ipConfig =>
        if ptr0 && ptr1 && ptr2 then
          some [readBytes cells (addr + 8) 16, readBytes cells (addr + 8 + 16) 16, readBytes cells (addr + 8 + 32) 16]
        else
          none
      | _ => if ptr0 then some [readBytes cells (addr + 8) (readWord cells (addr + 4))] else none) =
      if Given entry.item ptr0 ptr1 ptr2 then some (delivered bk7221u entry.item entry.value) else none := by
  have len := Tlv.read_len held
  have field : Holds cells (addr + 8) entry.field := Tlv.read_field held
  have width := entry.width
  have whole : readBytes cells (addr + 8) (readWord cells (addr + 4)) = entry.field := by
    rw [len]
    exact field.read
  have value := ((holds_append _ _ _ _).mp field).1
  cases item : entry.item with
  | ssidKey =>
    rw [item] at width
    have split : Holds cells (addr + 8) (entry.value.take 32 ++ entry.value.drop 32) := by rwa [List.take_append_drop]
    obtain ⟨first, second⟩ := (holds_append _ _ _ _).mp split
    have short : (entry.value.take 32).length = 32 := by rw [List.length_take, width]; rfl
    rw [short] at second
    have rest : (entry.value.drop 32).length = 64 := by rw [List.length_drop, width]; rfl
    simp only [first.read_of_length short, second.read_of_length rest]
    rfl
  | ipConfig =>
    rw [item] at width
    have split : Holds cells (addr + 8)
        (entry.value.take 16 ++ ((entry.value.drop 16).take 16 ++ entry.value.drop 32)) := by
      rw [show entry.value.drop 32 = (entry.value.drop 16).drop 16 by rw [List.drop_drop], List.take_append_drop,
        List.take_append_drop]
      exact value
    obtain ⟨first, later⟩ := (holds_append _ _ _ _).mp split
    have one : (entry.value.take 16).length = 16 := by rw [List.length_take, width]; rfl
    rw [one] at later
    obtain ⟨second, third⟩ := (holds_append _ _ _ _).mp later
    have two : ((entry.value.drop 16).take 16).length = 16 := by rw [List.length_take, List.length_drop, width]; rfl
    rw [two] at third
    have three : (entry.value.drop 32).length = 16 := by rw [List.length_drop, width]; rfl
    simp only [first.read_of_length one, second.read_of_length two,
      show addr + 8 + 32 = addr + 8 + 16 + 16 from rfl, third.read_of_length three]
    rfl
  | _ =>
    rw [whole, Entry.field, item]
    rfl

theorem Stored.get (stored : Stored start cells table) (ptr0 ptr1 ptr2 : Bool) :
    getInfoItem start cells item ptr0 ptr1 ptr2 =
      if Given item ptr0 ptr1 ptr2 then
        (lookup item table).map fun entry => delivered bk7221u item entry.value
      else
        none := by
  rw [getInfoItem]
  by_cases empty : table = []
  · rw [stored.search_none empty, empty]
    simp [lookup]
  · rw [stored.search_some empty]
    cases found : lookup item table with
    | none =>
      simp only [stored.search_absent empty (lookup_none found), if_true, Option.map_none, ite_self]
    | some entry =>
      obtain ⟨rfl, before, after, rfl, others⟩ := lookup_split found
      obtain ⟨addr, held⟩ := stored.search_present others
      have there : start + 8 + tableLen before ≠ 0 := by omega
      simp only [addr, if_neg there, Option.map_some]
      exact fetch_eq held ptr0 ptr1 ptr2

/-! ## save_info_item -/

/-- The table lies in the one sector that is erased. -/
theorem erase_eq {size : Nat} (aligned : start % flashSectorSize = 0) (some' : 0 < size)
    (fits : size ≤ flashSectorSize) :
    bkFlashErase start cells size =
      eraseSector flashSectorSize cells (flashSectorSize * (start / flashSectorSize)) := by
  have one : (start + size - 1) / flashSectorSize = start / flashSectorSize := by
    rw [flashSectorSize] at aligned fits ⊢
    omega
  have count : start / flashSectorSize + 1 - start / flashSectorSize = 1 := Nat.add_sub_cancel_left _ _
  rw [bkFlashErase, one, count]
  rfl

theorem writeTable_holds {buf : Cells} {bytes : List UInt8} (aligned : start % flashSectorSize = 0)
    (held : Holds buf 0 bytes) (some' : 0 < bytes.length) (fits : bytes.length ≤ flashSectorSize) :
    Holds (writeTable start cells buf bytes.length) start bytes := by
  have sector : flashSectorSize * (start / flashSectorSize) = start :=
    Nat.mul_div_cancel' (Nat.dvd_of_mod_eq_zero aligned)
  rw [writeTable, erase_eq aligned some' fits, held.read]
  have room : blank flashSectorSize = blank bytes.length ++ blank (flashSectorSize - bytes.length) := by
    rw [← blank_add, Nat.add_sub_cancel' fits]
  have empty := holds_erase flashSectorSize cells (by decide) (start / flashSectorSize)
  rw [room, holds_append, sector] at empty
  rw [sector]
  exact empty.1.program_blank

/-- A record is put where as many bytes stand, with zeros in its reserved part. -/
theorem fill_holds {buf : Cells} {old first value before' after' : List UInt8} {headLen : Nat}
    (held : Holds buf 0 (old ++ before' ++
      (first ++ value ++ List.replicate (reserved bk7221u entry.item) 0) ++ after'))
    (eight : old.length = 8) (head : first.length = 8) (same : value.length = copiedLen bk7221u entry.item) :
    Holds (fill entry.item entry.value (8 + before'.length) headLen buf) 0
      (Tlv.header infoTlvHeader headLen ++ before' ++ entry.toBytes ++ after') := by
  have front : (old ++ before').length = 8 + before'.length := by rw [List.length_append, eight]
  have withValue : Holds (storeBytes buf (8 + before'.length + 8) entry.value) 0 (old ++ before' ++
      (first ++ entry.value ++ List.replicate (reserved bk7221u entry.item) 0) ++ after') := by
    have place : 0 + (old ++ before' ++ first).length = 8 + before'.length + 8 := by
      rw [List.length_append, front, head, Nat.zero_add]
    rw [← place]
    simp only [List.append_assoc] at held ⊢
    have regroup := @Holds.replace buf 0 (old ++ (before' ++ first)) value entry.value
      (List.replicate (reserved bk7221u entry.item) 0 ++ after') (by simpa only [List.append_assoc] using held)
      (entry.width.trans same.symm)
    simpa only [List.append_assoc] using regroup
  have withHead : Holds (storeBytes (storeBytes buf (8 + before'.length + 8) entry.value) (8 + before'.length)
      (Tlv.header entry.item.code (infoItemLen entry.item - 8))) 0 (old ++ before' ++ entry.toBytes ++ after') := by
    rw [entry.toBytes_eq]
    have regroup := @Holds.replace _ 0 (old ++ before') first (Tlv.header entry.item.code (infoItemLen entry.item - 8))
      (entry.value ++ List.replicate (reserved bk7221u entry.item) 0 ++ after')
      (by simpa only [List.append_assoc] using withValue) ((Tlv.header_length _ _).trans head.symm)
    rw [Nat.zero_add, front] at regroup
    simpa only [List.append_assoc] using regroup
  have shaped : Holds (storeBytes (storeBytes buf (8 + before'.length + 8) entry.value) (8 + before'.length)
      (Tlv.header entry.item.code (infoItemLen entry.item - 8))) 0
      ([] ++ old ++ (before' ++ entry.toBytes ++ after')) := by
    simpa only [List.append_assoc, List.nil_append] using withHead
  have whole := shaped.replace ((Tlv.header_length infoTlvHeader headLen).trans eight.symm)
  rw [List.length_nil, Nat.add_zero, List.nil_append] at whole
  rw [fill, List.append_assoc, List.append_assoc, ← List.append_assoc before']
  exact whole

theorem zeros_holds (len : Nat) (addr : Nat) : Holds (fun _ => 0) addr (List.replicate len 0) := by
  induction len generalizing addr with
  | zero => trivial
  | succ len ih => exact ⟨rfl, ih (addr + 1)⟩

/-- A buffer of zeros with the old table at its beginning. -/
theorem buffer_holds {bytes : List UInt8} (held : Holds cells start bytes) (more : Nat) :
    Holds (storeBytes (fun _ => 0) 0 (readBytes cells start bytes.length)) 0 (bytes ++ List.replicate more 0) := by
  rw [held.read]
  refine (holds_append _ _ _ _).mpr ⟨holds_storeBytes _ _ _, ?_⟩
  exact (zeros_holds more _).congr fun a low _ => storeBytes_outside (.inr low)

theorem tableLen_append (first rest : List (Entry bk7221u)) :
    tableLen (first ++ rest) = tableLen first + tableLen rest := by
  rw [tableLen, List.map_append, List.sum_append]
  rfl

theorem tableLen_cons (first : Entry bk7221u) (rest : List (Entry bk7221u)) :
    tableLen (first :: rest) = infoItemLen first.item + tableLen rest := rfl

theorem tableBytes_append (first rest : List (Entry bk7221u)) :
    tableBytes (first ++ rest) = tableBytes first ++ tableBytes rest := List.flatMap_append

theorem tableBytes_cons (first : Entry bk7221u) (rest : List (Entry bk7221u)) :
    tableBytes (first :: rest) = first.toBytes ++ tableBytes rest := rfl

namespace Stored

/-- A table that was built in the buffer is stored in the flash. -/
theorem written {buf : Cells} {tblLen : Nat} (aligned : start % flashSectorSize = 0)
    (distinct : (table.map Entry.item).Nodup) (some' : table ≠ []) (len : tblLen = 8 + tableLen table)
    (held : Holds buf 0 (Tlv.header infoTlvHeader (tableLen table) ++ tableBytes table)) :
    Stored start (writeTable start cells buf tblLen) table := by
  have long : (Tlv.header infoTlvHeader (tableLen table) ++ tableBytes table).length = tblLen := by
    rw [List.length_append, Tlv.header_length, tableBytes_length, len]
  have fits := tableLen_le distinct
  refine ⟨distinct, fun empty => absurd empty some', fun _ => ?_⟩
  rw [← long]
  exact writeTable_holds aligned held (by omega) (by rw [long, flashSectorSize]; omega)

/-- Saving an item puts it into the table, however its record comes there. -/
theorem save (stored : Stored start cells table) (aligned : start % flashSectorSize = 0) (item : NetInfoItem)
    (ptr0 ptr1 ptr2 : Cells) :
    Stored start (saveInfoItem bk7221u start cells true item ptr0 ptr1 ptr2).2
      (put ⟨item, copied bk7221u item ptr0 ptr1 ptr2, copied_length _ _ _ _ _⟩ table) := by
  generalize new : (⟨item, copied bk7221u item ptr0 ptr1 ptr2, copied_length _ _ _ _ _⟩ : Entry bk7221u) = entry
  have here : item = entry.item := by rw [← new]
  have value : copied bk7221u item ptr0 ptr1 ptr2 = entry.value := by rw [← new]
  have distinct := @put_distinct _ entry _ stored.distinct
  have some' : put entry table ≠ [] := fun empty =>
    List.not_mem_nil (a := entry.item) (by simpa [empty] using (put_items_mem entry table entry.item).mpr (.inl rfl))
  rw [saveInfoItem, if_pos rfl, value, here]
  clear new here value
  by_cases empty : table = []
  · -- the first save
    subst empty
    rw [stored.search_none rfl]
    refine written aligned distinct some' rfl ?_
    have zeros : Holds (fun _ => 0) 0 (List.replicate 8 0 ++ [] ++ (List.replicate 8 0 ++
        List.replicate (copiedLen bk7221u entry.item) 0 ++ List.replicate (reserved bk7221u entry.item) 0) ++ []) := by
      simp only [List.append_nil, List.replicate_append_replicate]
      exact zeros_holds _ _
    have filled := @fill_holds _ entry _ _ _ _ _ _ (infoItemLen entry.item) zeros List.length_replicate
      List.length_replicate List.length_replicate
    have one : tableLen (put entry []) = infoItemLen entry.item := Nat.add_zero _
    rw [one]
    simpa only [put, List.append_nil, List.length_nil, Nat.add_zero, tableBytes, List.flatMap_cons, List.flatMap_nil]
      using filled
  · rw [stored.search_some empty]
    have held := stored.holds empty
    have long : (Tlv.header infoTlvHeader (tableLen table) ++ tableBytes table).length = tableLen table + 8 := by
      rw [List.length_append, Tlv.header_length, tableBytes_length, Nat.add_comm]
    have buffer := fun more => buffer_holds held more
    rw [long] at buffer
    cases found : lookup entry.item table with
    | none =>
      -- a record at the end
      have others := lookup_none found
      rw [put_absent others] at distinct some' ⊢
      simp only [stored.search_absent empty others, if_true]
      have total : tableLen (table ++ [entry]) = tableLen table + infoItemLen entry.item := tableLen_append _ _
      refine written aligned distinct some' (by rw [total]; omega) ?_
      have wide := reserved_add bk7221u entry.item
      have room := buffer (infoItemLen entry.item)
      have split : List.replicate (infoItemLen entry.item) (0 : UInt8) = List.replicate 8 0 ++
          List.replicate (copiedLen bk7221u entry.item) 0 ++ List.replicate (reserved bk7221u entry.item) 0 := by
        rw [List.replicate_append_replicate, List.replicate_append_replicate, Nat.add_assoc, wide]
      rw [split, ← List.append_nil (List.replicate 8 0 ++ _ ++ _), ← List.append_assoc] at room
      have filled := @fill_holds _ entry _ _ _ _ _ _ (tableLen table + 8 + infoItemLen entry.item - 8) room
        (Tlv.header_length _ _) List.length_replicate List.length_replicate
      have head : tableLen table + 8 + infoItemLen entry.item - 8 = tableLen (table ++ [entry]) := by rw [total]; omega
      rw [tableBytes_length, Nat.add_comm 8, head, List.append_nil, List.append_assoc] at filled
      rw [head, tableBytes_append]
      simpa only [tableBytes, List.flatMap_cons, List.flatMap_nil, List.append_nil] using filled
    | some old =>
      -- a record in place of the old one
      obtain ⟨same, before, after, rfl, others⟩ := lookup_split found
      rw [put_present others same] at distinct some' ⊢
      obtain ⟨addr, -⟩ := stored.search_present (same ▸ others)
      rw [same] at addr
      have there : start + 8 + tableLen before ≠ 0 := by omega
      have total : tableLen (before ++ entry :: after) = tableLen (before ++ old :: after) := by
        rw [tableLen_append, tableLen_append, tableLen_cons, tableLen_cons, same]
      simp only [addr, if_neg there]
      refine written aligned distinct some' (by rw [total, Nat.add_comm]) ?_
      have room := buffer 0
      rw [List.replicate_zero, List.append_nil, tableBytes_append, tableBytes_cons, old.toBytes_eq, same,
        ← List.append_assoc, ← List.append_assoc] at room
      have filled := @fill_holds _ entry _ _ _ _ _ _ (tableLen (before ++ old :: after) + 8 - 8) room
        (Tlv.header_length _ _) (Tlv.header_length _ _) (same ▸ old.width)
      have offset : start + 8 + tableLen before - start = 8 + (tableBytes before).length := by
        rw [tableBytes_length]
        omega
      rw [offset, total, tableBytes_append, tableBytes_cons]
      simpa only [List.append_assoc, Nat.add_sub_cancel] using filled

end Stored

end

/-! ## Saves

Any number of saves into an erased sector. The flash always holds a table whose map
is that of the last saves, so that an item is found just when it was saved, and
comes back as it was saved last.
-/

/-- What the pointers get for an item after this save: the bytes it was given, and
the reserved ones where the record has some. -/
def Save.expected (bk7221u : Bool) (save : Save) : List (List UInt8) :=
  match save.item with
  | .ssidKey => [readBytes save.ptr0 0 32, readBytes save.ptr1 0 64]
  | .ipConfig => [readBytes save.ptr0 0 16, readBytes save.ptr1 0 16, readBytes save.ptr2 0 16]
  | item => [copied bk7221u item save.ptr0 save.ptr1 save.ptr2 ++ List.replicate (reserved bk7221u item) 0]

/-- The last call that saved the item. A call without memory returns 0 and saves nothing. -/
def lastSave (saves : List Save) (item : NetInfoItem) : Option Save :=
  saves.find? fun save => save.memory && decide (save.item = item)

def Saved (saves : List Save) (item : NetInfoItem) : Prop := ∃ save ∈ saves, save.memory = true ∧ save.item = item

/-- The table with each saved item once, as the flash has it. -/
structure TableOf (bk7221u : Bool) (start : Nat) (cells : Cells) (saves : List Save) (table : List (Entry bk7221u)) :
    Prop where
  distinct : (table.map Entry.item).Nodup
  items : ∀ item, item ∈ table.map Entry.item ↔ Saved saves item
  header : table ≠ [] → Holds cells start (Tlv.header infoTlvHeader (tableLen table) ++ tableBytes table)
  nothing : table = [] → searchInfoTbl start cells = none

section
variable {bk7221u : Bool} {start : Nat} {cells : Cells} {saves : List Save} {table : List (Entry bk7221u)}

theorem delivered_copied (save : Save) : delivered bk7221u save.item
    (copied bk7221u save.item save.ptr0 save.ptr1 save.ptr2) = save.expected bk7221u := by
  obtain ⟨item, ptr0, ptr1, ptr2, memory⟩ := save
  cases item with
  | ssidKey =>
    have first : (readBytes ptr0 0 32).length = 32 := readBytes_length _ _ _
    simp only [delivered, copied, Save.expected, List.take_left' first, List.drop_left' first]
  | ipConfig =>
    have first : (readBytes ptr0 0 16).length = 16 := readBytes_length _ _ _
    have second : (readBytes ptr1 0 16).length = 16 := readBytes_length _ _ _
    have both : (readBytes ptr0 0 16 ++ (readBytes ptr1 0 16 ++ readBytes ptr2 0 16)).drop 32 =
      readBytes ptr2 0 16 := by
      rw [← List.append_assoc, List.drop_left' (by rw [List.length_append, first, second])]
    simp only [delivered, copied, Save.expected, List.take_left' first, List.drop_left' first, List.take_left' second,
      both]
  | _ => rfl

theorem lastSave_cons (save : Save) (saves : List Save) (item : NetInfoItem) :
    lastSave (save :: saves) item = if save.memory = true ∧
      save.item = item then some save else lastSave saves item := by
  rw [lastSave, List.find?_cons]
  by_cases found : save.memory = true ∧ save.item = item
  · rw [if_pos found, found.1, found.2]
    simp
  · rw [if_neg found]
    have missed : (save.memory && decide (save.item = item)) = false := by
      rw [Bool.and_eq_false_imp]
      exact fun memory => decide_eq_false fun same => found ⟨memory, same⟩
    rw [missed]
    rfl

/-- The invariant of the runs: a table in the flash that stands for the map of the saves. -/
structure Represents (start : Nat) (cells : Cells) (saves : List Save) (table : List (Entry bk7221u)) : Prop where
  stored : Stored start cells table
  values : ∀ item, (lookup item table).map (fun entry => delivered bk7221u item entry.value) =
    (lastSave saves item).map (Save.expected bk7221u)
  items : ∀ item, item ∈ table.map Entry.item ↔ Saved saves item

theorem represents_erased (erased : ∀ a, start ≤ a → a < start + flashSectorSize → cells a = 0xFF) :
    Represents start cells [] ([] : List (Entry bk7221u)) := by
  refine ⟨⟨List.nodup_nil, fun _ => ?_, fun some' => absurd rfl some'⟩, fun _ => rfl, fun item => ?_⟩
  · have word : ∀ i < 4, cells (start + i) = 0xFF := by
      intro i low
      exact erased _ (Nat.le_add_right _ _) (by rw [flashSectorSize]; omega)
    have zero := word 0 (by decide)
    rw [Nat.add_zero] at zero
    simp only [readWord, readBytes, zero, word 1 (by decide), Nat.add_assoc, word 2 (by decide), word 3 (by decide)]
    decide
  · constructor
    · intro member
      cases member
    · rintro ⟨save, member, -⟩
      cases member

theorem Represents.save (before : Represents start cells saves table) (aligned : start % flashSectorSize = 0)
    (save : Save) : ∃ table : List (Entry bk7221u), Represents start (save.run bk7221u start cells)
    (save :: saves) table := by
  cases memory : save.memory with
  | false =>
    have same : save.run bk7221u start cells = cells := by
      rw [Save.run, memory]
      rfl
    rw [same]
    refine ⟨table, before.stored, fun item => ?_, fun item => (before.items item).trans ?_⟩
    · rw [lastSave_cons, if_neg fun both => Bool.false_ne_true (memory.symm.trans both.1)]
      exact before.values item
    · simp [Saved, memory]
  | true =>
    refine ⟨put ⟨save.item, copied bk7221u save.item save.ptr0 save.ptr1 save.ptr2, copied_length _ _ _ _ _⟩ table, ?_,
      fun item => ?_, fun item => ?_⟩
    · rw [Save.run, memory]
      exact before.stored.save aligned _ _ _ _
    · rw [lookup_put, lastSave_cons]
      by_cases same : item = save.item
      · subst same
        rw [if_pos rfl, if_pos ⟨memory, rfl⟩]
        exact congrArg some (delivered_copied save)
      · rw [if_neg same, if_neg fun both => same both.2.symm]
        exact before.values item
    · rw [put_items_mem, before.items]
      simp only [Saved, List.mem_cons, exists_eq_or_imp, memory, true_and]
      exact or_congr eq_comm Iff.rfl

theorem represents_run (aligned : start % flashSectorSize = 0)
    (erased : ∀ a, start ≤ a → a < start + flashSectorSize → cells a = 0xFF) (saves : List Save) :
    ∃ table : List (Entry bk7221u), Represents start (runSaves bk7221u start cells saves) saves table := by
  induction saves with
  | nil => exact ⟨[], represents_erased erased⟩
  | cons save earlier ih =>
    obtain ⟨table, before⟩ := ih
    exact before.save aligned save

theorem Represents.get (represents : Represents start cells saves table) (item : NetInfoItem) (ptr0 ptr1 ptr2 : Bool) :
    getInfoItem start cells item ptr0 ptr1 ptr2 =
      if Given item ptr0 ptr1 ptr2 then (lastSave saves item).map (Save.expected bk7221u) else none := by
  rw [represents.stored.get, represents.values]

theorem Represents.tableOf (represents : Represents start cells saves table) :
    TableOf bk7221u start cells saves table :=
  ⟨represents.stored.distinct, represents.items, represents.stored.holds, represents.stored.search_none⟩

end

/-! ## A sample run -/

/-- A MAC address, then a network, then another MAC address. -/
def sampleSaves : List Save :=
  [⟨.wifiMac, fun a => UInt8.ofNat (a + 1), fun _ => 0, fun _ => 0, true⟩,
    ⟨.ssidKey, fun _ => 7, fun _ => 8, fun _ => 0, true⟩, ⟨.wifiMac, fun _ => 9, fun _ => 0, fun _ => 0, true⟩]

end BekenSdk.NetParam
