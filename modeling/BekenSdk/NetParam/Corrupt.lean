import BekenSdk.NetParam.Table
import Mathlib.Data.UInt

/-! Looking up in an area of any content. The walk adds lengths from the flash to an address of 32 bits, and does not look
whether a record ends within the table.
-/

set_option autoImplicit false

namespace BekenSdk.NetParam.Corrupt
open Base

/-! ## Looking up -/

/-- The word behind an address. -/
def word (cells : Cells) (addr : Nat) : UInt32 := UInt32.ofNat (readWord cells addr)

/-- The address that `search_info_item` returns, and what it reads. -/
structure Search where
  addr : UInt32
  reads : List (UInt32 × Nat)
  deriving DecidableEq

section
variable (cells : Cells) (start : UInt32)

/-- `search_info_tbl` finds a table. -/
def Announced : Prop := word cells start.toNat = UInt32.ofNat infoTlvHeader

instance : Decidable (Announced cells start) := inferInstanceAs (Decidable (_ = _))

/-- `head.len` of a record or of the table. -/
def headLen (addr : UInt32) : UInt32 := word cells (addr.toNat + 4)

def endAddr : UInt32 := start + 8 + headLen cells start

/-- The end of the table that the header announces. -/
def tableEnd : Nat := start.toNat + 8 + (headLen cells start).toNat

variable (item : NetInfoItem)

/-- The record is of the type. -/
def Typed (addr : UInt32) : Prop := word cells addr.toNat = UInt32.ofNat item.code

instance (addr : UInt32) : Decidable (Typed cells item addr) := inferInstanceAs (Decidable (_ = _))

/-- The loop of `search_info_item`; `none` is that the fuel does not suffice. -/
def walkItems : Nat → UInt32 → Option Search
  | 0, _ => none
  | fuel + 1, addr =>
    if addr < endAddr cells start then
      if ¬Typed cells item addr then
        (walkItems fuel (addr + 8 + headLen cells addr)).map fun found => { found with reads := (addr, 8) :: found.reads }
      else some ⟨addr, [(addr, 8)]⟩
    else some ⟨addr, []⟩

def searchInfoItem (fuel : Nat) : Option Search :=
  (walkItems cells start item fuel (start + 8)).map fun found =>
    ⟨if endAddr cells start ≤ found.addr then 0 else found.addr, (start, 8) :: found.reads⟩

/-- What goes to the pointers that are given. -/
def copies (ptr0 ptr1 ptr2 : Bool) (addr : UInt32) : Option (List (List UInt8)) :=
  match item with
  | .ssidKey =>
    if ptr0 && ptr1 then some [readBytes cells (addr + 8).toNat 32, readBytes cells (addr + 8 + 32).toNat 64] else none
  | .ipConfig =>
    if ptr0 && ptr1 && ptr2 then
      some [readBytes cells (addr + 8).toNat 16, readBytes cells (addr + 8 + 16).toNat 16,
        readBytes cells (addr + 8 + 16 + 16).toNat 16]
    else
      none
  | _ => if ptr0 then some [readBytes cells (addr + 8).toNat (headLen cells addr).toNat] else none

def getInfoItem (ptr0 ptr1 ptr2 : Bool) (fuel : Nat) : Option (Option (List (List UInt8))) :=
  if Announced cells start then
    (searchInfoItem cells start item fuel).map fun found =>
      if found.addr = 0 then none else copies cells item ptr0 ptr1 ptr2 found.addr
  else some none

/-! ## What a caller relies on -/

def valueSize : Nat := infoItemLen item - 8

/-- The number of bytes that are copied. -/
def total (got : List (List UInt8)) : Nat := (got.map List.length).sum

/-- A range of the table. -/
def Inside (addr : UInt32) (len : Nat) : Prop := start.toNat ≤ addr.toNat ∧ addr.toNat + len ≤ tableEnd cells start

/-- With a valid header the walk ends, reads only the table, and returns 0 or a whole record of the type in the table; and the
caller gets no more than a value of the type. -/
structure Robust (ptr0 ptr1 ptr2 : Bool) : Prop where
  search : Announced cells start → ∃ enough found,
    (∀ fuel, enough ≤ fuel → searchInfoItem cells start item fuel = some found) ∧
      (∀ read ∈ found.reads, Inside cells start read.1 read.2) ∧
      (found.addr = 0 ∨ Typed cells item found.addr ∧ Inside cells start found.addr (8 + (headLen cells found.addr).toNat))
  get : ∀ fuel got, getInfoItem cells start item ptr0 ptr1 ptr2 fuel = some (some got) → total got ≤ valueSize item

/-! ## Tables as they should be -/

/-- Only the lengths of `SSID_KEY_ITEM` and `IP_CONFIG_ITEM` are fixed; else the length of the record is what is copied. -/
def Short (ptr0 : Bool) (addr : UInt32) : Prop :=
  ptr0 = true → item ≠ .ssidKey → item ≠ .ipConfig → (headLen cells addr).toNat ≤ valueSize item

/-- Record after record, from the address on, the heads lie in the table, up to the end or to a record of the type. That one
lies in the table, and it is not longer than a value. -/
inductive Chain (ptr0 : Bool) : UInt32 → Prop where
  | past {addr : UInt32} (ended : ¬addr < endAddr cells start) : Chain ptr0 addr
  | here {addr : UInt32} (before : addr < endAddr cells start) (typed : Typed cells item addr)
      (inside : Inside cells start addr (8 + (headLen cells addr).toNat)) (short : Short cells item ptr0 addr) :
      Chain ptr0 addr
  | skip {addr : UInt32} (before : addr < endAddr cells start) (other : ¬Typed cells item addr)
      (inside : Inside cells start addr 8) (rest : Chain ptr0 (addr + 8 + headLen cells addr)) : Chain ptr0 addr

/-! ## The loop -/

theorem walkItems_past (fuel : Nat) {addr : UInt32} (ended : ¬addr < endAddr cells start) :
    walkItems cells start item (fuel + 1) addr = some ⟨addr, []⟩ := by
  simp only [walkItems, ended, if_false]

theorem walkItems_here (fuel : Nat) {addr : UInt32} (before : addr < endAddr cells start) (typed : Typed cells item addr) :
    walkItems cells start item (fuel + 1) addr = some ⟨addr, [(addr, 8)]⟩ := by
  simp only [walkItems, before, typed, not_true_eq_false, if_true, if_false]

theorem walkItems_skip (fuel : Nat) {addr : UInt32} (before : addr < endAddr cells start) (other : ¬Typed cells item addr) :
    walkItems cells start item (fuel + 1) addr =
      (walkItems cells start item fuel (addr + 8 + headLen cells addr)).map fun found =>
        { found with reads := (addr, 8) :: found.reads } := by
  simp only [walkItems, before, other, not_false_eq_true, if_true]

variable {cells start item}

/-- More fuel does not change what the loop returns. -/
theorem walkItems_more {fuel more : Nat} {addr : UInt32} {found : Search} (suffices' : fuel ≤ more)
    (ends : walkItems cells start item fuel addr = some found) : walkItems cells start item more addr = some found := by
  induction fuel generalizing addr found more with
  | zero => exact absurd ends (by simp [walkItems])
  | succ fuel ih =>
    obtain ⟨more, rfl⟩ := Nat.exists_eq_add_of_le' (Nat.le_trans (Nat.le_add_left 1 fuel) suffices')
    by_cases before : addr < endAddr cells start
    · by_cases typed : Typed cells item addr
      · rw [walkItems_here cells start item _ before typed] at ends ⊢
        exact ends
      · rw [walkItems_skip cells start item _ before typed] at ends ⊢
        obtain ⟨rest, restEnds, same⟩ := Option.map_eq_some_iff.1 ends
        rw [ih (Nat.le_of_succ_le_succ suffices') restEnds]
        exact congrArg some same
    · rw [walkItems_past cells start item _ before] at ends ⊢
      exact ends

variable (cells start item) in
/-- What the loop returns is past the end, or a record of the type. -/
structure Sound (ptr0 : Bool) (found : Search) : Prop where
  reads : ∀ read ∈ found.reads, Inside cells start read.1 read.2
  record : found.addr < endAddr cells start →
    Typed cells item found.addr ∧ Inside cells start found.addr (8 + (headLen cells found.addr).toNat) ∧
      Short cells item ptr0 found.addr

variable {ptr0 : Bool}

theorem Chain.walk {addr : UInt32} (chain : Chain cells start item ptr0 addr) :
    ∃ enough found, walkItems cells start item enough addr = some found ∧ Sound cells start item ptr0 found := by
  induction chain with
  | @past addr ended =>
    refine ⟨1, ⟨addr, []⟩, walkItems_past cells start item 0 ended, ?_, fun before => absurd before ended⟩
    exact fun _ listed => absurd listed List.not_mem_nil
  | @here addr before typed inside short =>
    refine ⟨1, ⟨addr, [(addr, 8)]⟩, walkItems_here cells start item 0 before typed, ?_, fun _ => ⟨typed, inside, short⟩⟩
    intro read listed
    rw [List.mem_singleton.1 listed]
    exact ⟨inside.1, Nat.le_trans (Nat.add_le_add_left (Nat.le_add_right _ _) _) inside.2⟩
  | @skip addr before other inside _ ih =>
    obtain ⟨enough, found, ends, sound⟩ := ih
    refine ⟨enough + 1, { found with reads := (addr, 8) :: found.reads }, ?_, ?_, sound.record⟩
    · rw [walkItems_skip cells start item enough before other, ends]
      rfl
    · intro read listed
      cases List.mem_cons.1 listed with
      | inl same => rw [same]; exact inside
      | inr later => exact sound.reads read later

theorem Chain.of_walk {fuel : Nat} {addr : UInt32} {found : Search}
    (ends : walkItems cells start item fuel addr = some found) (sound : Sound cells start item ptr0 found) :
    Chain cells start item ptr0 addr := by
  induction fuel generalizing addr found with
  | zero => exact absurd ends (by simp [walkItems])
  | succ fuel ih =>
    by_cases before : addr < endAddr cells start
    · by_cases typed : Typed cells item addr
      · rw [walkItems_here cells start item fuel before typed] at ends
        cases ends
        have record := sound.record before
        exact Chain.here before typed record.2.1 record.2.2
      · rw [walkItems_skip cells start item fuel before typed] at ends
        obtain ⟨rest, restEnds, same⟩ := Option.map_eq_some_iff.1 ends
        subst same
        refine Chain.skip before typed (sound.reads (addr, 8) List.mem_cons_self) (ih restEnds ⟨?_, sound.record⟩)
        exact fun read listed => sound.reads read (List.mem_cons_of_mem _ listed)
    · exact Chain.past before

/-- A record at which the loop stops was read. -/
theorem walkItems_typed {fuel : Nat} {addr : UInt32} {found : Search}
    (ends : walkItems cells start item fuel addr = some found) (before : found.addr < endAddr cells start) :
    Typed cells item found.addr ∧ (found.addr, 8) ∈ found.reads := by
  induction fuel generalizing addr found with
  | zero => exact absurd ends (by simp [walkItems])
  | succ fuel ih =>
    by_cases inside : addr < endAddr cells start
    · by_cases typed : Typed cells item addr
      · rw [walkItems_here cells start item _ inside typed] at ends
        cases ends
        exact ⟨typed, List.mem_singleton_self _⟩
      · rw [walkItems_skip cells start item _ inside typed] at ends
        obtain ⟨rest, restEnds, rfl⟩ := Option.map_eq_some_iff.1 ends
        have tail := ih restEnds before
        exact ⟨tail.1, List.mem_cons_of_mem _ tail.2⟩
    · rw [walkItems_past cells start item _ inside] at ends
      cases ends
      exact absurd before inside

/-! ## The two functions -/

/-- A record in the table has an address: at 0 there could only be the header. -/
theorem record_ne_zero (announced : Announced cells start) {addr : UInt32} (typed : Typed cells item addr)
    (low : start.toNat ≤ addr.toNat) : addr ≠ 0 := by
  intro zero
  subst zero
  have first : start.toNat = 0 := Nat.le_zero.1 low
  unfold Announced at announced
  unfold Typed at typed
  rw [first] at announced
  have same : UInt32.ofNat infoTlvHeader = UInt32.ofNat item.code := announced.symm.trans typed
  revert same
  cases item <;> decide

theorem total_copies {addr : UInt32} {ptr1 ptr2 : Bool} {got : List (List UInt8)} (short : Short cells item ptr0 addr)
    (copied : copies cells item ptr0 ptr1 ptr2 addr = some got) : total got ≤ valueSize item := by
  unfold Short at short
  cases item <;> simp only [copies, Option.ite_none_right_eq_some, Option.some.injEq] at copied <;>
    obtain ⟨given, rfl⟩ := copied <;> simp_all [total, valueSize, infoItemLen, readBytes_length]

theorem short_of_total {addr : UInt32} {ptr1 ptr2 : Bool}
    (fits : ∀ got, copies cells item ptr0 ptr1 ptr2 addr = some got → total got ≤ valueSize item) :
    Short cells item ptr0 addr := by
  intro given notKey notIp
  have copied : copies cells item ptr0 ptr1 ptr2 addr = some [readBytes cells (addr + 8).toNat (headLen cells addr).toNat] := by
    cases item <;> simp_all [copies]
  have bounded := fits _ copied
  simpa [total, readBytes_length] using bounded

theorem robust_of_chain (ptr1 ptr2 : Bool) (whole : Announced cells start → Chain cells start item ptr0 (start + 8)) :
    Robust cells start item ptr0 ptr1 ptr2 where
  search announced := by
    obtain ⟨enough, found, ends, sound⟩ := (whole announced).walk
    refine ⟨enough, ⟨if endAddr cells start ≤ found.addr then 0 else found.addr, (start, 8) :: found.reads⟩, ?_, ?_, ?_⟩
    · intro fuel suffices'
      rw [searchInfoItem, walkItems_more suffices' ends]
      rfl
    · intro read listed
      cases List.mem_cons.1 listed with
      | inl same => rw [same]; exact ⟨Nat.le_refl _, Nat.le_add_right _ _⟩
      | inr later => exact sound.reads read later
    · by_cases past : endAddr cells start ≤ found.addr
      · exact Or.inl (if_pos past)
      · simp only [if_neg past]
        have record := sound.record (UInt32.not_le.1 past)
        exact Or.inr ⟨record.1, record.2.1⟩
  get fuel got copied := by
    by_cases announced : Announced cells start
    · obtain ⟨enough, last, ends, sound⟩ := (whole announced).walk
      rw [getInfoItem, if_pos announced] at copied
      obtain ⟨_, foundEnds, same⟩ := Option.map_eq_some_iff.1 copied
      obtain ⟨walked, walkedEnds, rfl⟩ := Option.map_eq_some_iff.1 foundEnds
      have agree : walked = last :=
        Option.some.inj ((walkItems_more (Nat.le_max_left fuel enough) walkedEnds).symm.trans
          (walkItems_more (Nat.le_max_right fuel enough) ends))
      subst agree
      by_cases past : endAddr cells start ≤ walked.addr
      · simp only [if_pos past, if_true] at same
        cases same
      · simp only [if_neg past, Option.ite_none_left_eq_some] at same
        exact total_copies (sound.record (UInt32.not_le.1 past)).2.2 same.2
    · rw [getInfoItem, if_neg announced] at copied
      cases copied

theorem chain_of_robust {ptr1 ptr2 : Bool} (robust : Robust cells start item ptr0 ptr1 ptr2)
    (announced : Announced cells start) : Chain cells start item ptr0 (start + 8) := by
  obtain ⟨enough, found, ends, inside, record⟩ := robust.search announced
  have search := ends enough (Nat.le_refl _)
  obtain ⟨last, walked, rfl⟩ := Option.map_eq_some_iff.1 search
  refine Chain.of_walk walked ⟨fun read listed => inside read (List.mem_cons_of_mem _ listed), ?_⟩
  intro before
  have typed := walkItems_typed walked before
  have read : (last.addr, 8) ∈ (start, 8) :: last.reads := List.mem_cons_of_mem _ typed.2
  have nonzero : last.addr ≠ 0 := record_ne_zero announced typed.1 (inside _ read).1
  simp only [if_neg (UInt32.not_le.2 before)] at record search
  refine ⟨typed.1, (record.resolve_left nonzero).2, @short_of_total cells item ptr0 _ ptr1 ptr2 ?_⟩
  intro got copied
  refine robust.get enough got ?_
  rw [getInfoItem, if_pos announced, search]
  exact congrArg some ((if_neg nonzero).trans copied)

variable (cells start item) in
/-- The functions do what a caller relies on exactly with a table whose records, up to the one that is looked for, are whole. -/
theorem robust_iff (ptr0 ptr1 ptr2 : Bool) :
    Robust cells start item ptr0 ptr1 ptr2 ↔ (Announced cells start → Chain cells start item ptr0 (start + 8)) :=
  ⟨chain_of_robust, robust_of_chain ptr1 ptr2⟩

end

/-- After a valid header a record of another type, whose length is eight less than 2 ^ 32. -/
def staying : Cells :=
  storeBytes (fun _ => 0xff) 0x1000 [0x54, 0x4c, 0x56, 0, 12, 0, 0, 0, 0x11, 0x11, 0x11, 0x11, 0xf8, 0xff, 0xff, 0xff]

theorem walkItems_staying (fuel : Nat) : walkItems staying 0x1000 .wifiMac fuel 0x1008 = none := by
  have before : (0x1008 : UInt32) < endAddr staying 0x1000 := by decide
  have other : ¬Typed staying .wifiMac 0x1008 := by decide
  have stays : (0x1008 : UInt32) + 8 + headLen staying 0x1008 = 0x1008 := by decide
  induction fuel with
  | zero => rfl
  | succ fuel ih =>
    rw [walkItems_skip staying 0x1000 .wifiMac fuel before other, stays, ih]
    rfl

/-- The walk stays at such a record. -/
theorem staying_not_robust : ¬Robust staying 0x1000 .wifiMac true false false := by
  intro robust
  obtain ⟨enough, found, ends, _⟩ := robust.search (by decide)
  have search := ends enough (Nat.le_refl _)
  obtain ⟨last, walked, _⟩ := Option.map_eq_some_iff.1 search
  have never : walkItems staying 0x1000 .wifiMac enough (0x1000 + 8) = none := walkItems_staying enough
  rw [never] at walked
  cases walked

end BekenSdk.NetParam.Corrupt
