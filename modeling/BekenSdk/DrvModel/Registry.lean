import BekenSdk.Base.CData
import BekenSdk.Base.SlotTable

/-! The driver registry (drv_model.c): two tables of slots that grow by steps, one
for devices that are opened and closed and one for devices that are only
controlled. The driver's functions are of any type `F`.
-/

set_option autoImplicit false

namespace BekenSdk.DrvModel
open Base

def drvFailure : UInt32 := 0 - 5
def drvSuccess : UInt32 := 0

def ddHandleMagicWord : UInt32 := 0xA5A50000
def ddHandleMagicMask : UInt32 := 0xFFFF0000
def ddHandleIdMask : UInt32 := 0x0000FFFF
def ddHandleUnvalid : UInt32 := 0xFFFFFFFF
def ddIdUnvalid : UInt32 := 0xFFFFFFFF

def ddInitialSize : Nat := 10
def ddExpStepSize : Nat := 5
def ddMaxNameLen : Nat := 16

structure DdOperations (F : Type) where
  openFn : Option F
  closeFn : Option F
  readFn : Option F
  writeFn : Option F
  controlFn : Option F
  deriving DecidableEq

structure SddOperations (F : Type) where
  controlFn : Option F
  deriving DecidableEq

inductive DdState where
  | noDevice
  | closed
  | opened
  | break
  | success
  deriving DecidableEq

/-- `DRV_DEV_S` and `DRV_SDEV_S`. -/
structure Slot (Op : Type) where
  name : Option CString
  useCnt : UInt32
  state : DdState
  op : Option Op
  deriving DecidableEq

variable {F Op : Type}

namespace Slot

/-- Memory set to zero. -/
def zero : Slot Op := ⟨none, 0, .noDevice, none⟩

def vacant (slot : Slot Op) : Bool := slot.name.isNone && decide (slot.state = .noDevice)

def fill (name : CString) (op : Op) (slot : Slot Op) : Slot Op :=
  { slot with name := some name, op := some op, state := .closed }

def clear (slot : Slot Op) : Slot Op := { slot with name := none, op := none, state := .noDevice }

def markOpened (slot : Slot Op) : Slot Op := { slot with state := .opened, useCnt := 0 }

def countUp (slot : Slot Op) : Slot Op := { slot with useCnt := slot.useCnt + 1 }

/-- The operations and the name they are registered under. -/
def entry (slot : Slot Op) : Option (CString × Op) :=
  match slot.name, slot.op with
  | some name, some op => some (name, op)
  | _, _ => none

/-- `0 == os_strncmp(dev_ptr->name, dev_name, name_len)`: nothing when it reads through a
NULL name, and nothing is read for a length of zero. -/
def compare (devName : CString) (slot : Slot Op) : Option Bool :=
  match slot.name with
  | some name => some (strncmpEq name devName devName.strlen)
  | none => if devName.strlen = 0 then some true else none

end Slot

/-! ## One table -/

abbrev Table (Op : Type) := List (Slot Op)

inductive Search where
  | found (id : Nat)
  /-- The name of a slot without one, or of a slot beyond the table, is read. -/
  | stray (id : Nat)
  | exhausted
  /-- The name is too long and the table is not read. -/
  | refused
  deriving DecidableEq

namespace Table

/-- The loop over the slots, `count` of them to go. -/
def searchFrom (slots : Table Op) (devName : CString) : (count i : Nat) → Search
  | 0, _ => .exhausted
  | count + 1, i =>
    match slots[i]? with
    | none => .stray i
    | some slot =>
      match slot.compare devName with
      | none => .stray i
      | some true => .found i
      | some false => searchFrom slots devName count (i + 1)

/-- `for(i = 0; i < allocated; i ++)` until a name compares equal. -/
def search (slots : Table Op) (devName : CString) (allocated : Nat) : Search := slots.searchFrom devName allocated 0

/-- The same after the check of the name's length. -/
def searchShort (slots : Table Op) (devName : CString) (allocated : Nat) : Search :=
  if ddMaxNameLen < devName.strlen then .refused else slots.search devName allocated

/-- `drv_model_init` of one table. -/
def init : Table Op := List.replicate ddInitialSize .zero

/-- `ddev_register_dev` and `sddev_register_dev`: what is returned, nothing when an
assertion fails, and the table. `memory` is whether `os_realloc` has any. -/
def registerDev (slots : Table Op) (devName : Option CString) (optr : Option Op) (memory : Bool) :
    Option UInt32 × Table Op :=
  match devName, optr with
  | some name, some op =>
    match slots.findIdx? Slot.vacant with
    | some i =>
      let filled := slots.modify i (Slot.fill name op)
      if i = slots.length - 1 then
        if memory then (some drvSuccess, filled ++ List.replicate ddExpStepSize .zero) else (none, filled)
      else (some drvSuccess, filled)
    | none => (if (slots.getLast?.bind Slot.op).isSome then some drvSuccess else none, slots)
  | _, _ => (some drvFailure, slots)

/-- What the search of `ddev_unregister_dev` and `sddev_unregister_dev` leads to. -/
def unregisterDev (slots : Table Op) : Search → Option UInt32 × Table Op
  | .refused => (some drvFailure, slots)
  | .found i => (some drvSuccess, slots.modify i Slot.clear)
  | .stray _ | .exhausted => (none, slots)

end Table

/-! ## Handles -/

def ddevMakeHandle (allocated id : Nat) : UInt32 :=
  if allocated ≤ id then ddHandleUnvalid else UInt32.ofNat id + ddHandleMagicWord

def ddevGetIdFromHandle (handle : UInt32) : UInt32 :=
  if handle &&& ddHandleMagicMask = ddHandleMagicWord then handle &&& ddHandleIdMask else ddIdUnvalid

/-! ## The registry -/

structure Tables (F : Type) where
  drvDevTbl : Table (DdOperations F)
  drvSdevTbl : Table (SddOperations F)

def drvModelInit : Tables F := ⟨.init, .init⟩

/-- What a call comes to. -/
structure Outcome (F : Type) where
  /-- Nothing when an assertion fails or a stray name is read. -/
  returned : Option UInt32
  /-- What is written through the pointer to the status. -/
  status : Option UInt32
  search : Option Search
  after : Tables F

variable (s : Tables F)

/-- `answer` is what the driver's open function returns. -/
def ddevOpen (devName : CString) (answer : UInt32) : Outcome F :=
  let slots := s.drvDevTbl
  let search := slots.searchShort devName slots.length
  match search with
  | .refused => ⟨some ddHandleUnvalid, none, some search, s⟩
  | .stray _ | .exhausted => ⟨none, some drvFailure, some search, s⟩
  | .found i =>
    match (slots[i]?).map Slot.state with
    | some .opened => ⟨some (ddevMakeHandle slots.length i), some drvFailure, some search,
        { s with drvDevTbl := slots.modify i Slot.countUp }⟩
    | some .closed =>
      let operation := (slots[i]?).bind Slot.op
      let status := if (operation.bind DdOperations.openFn).isSome then answer else drvFailure
      ⟨some (ddevMakeHandle slots.length i), some status, some search,
        { s with drvDevTbl := slots.modify i fun slot => slot.markOpened.countUp }⟩
    | _ => ⟨none, some drvFailure, some search, { s with drvDevTbl := slots.modify i Slot.countUp }⟩

/-- `answer` is what the driver's control function returns. -/
def sddevControl (devName : CString) (answer : UInt32) : Outcome F :=
  let search := s.drvSdevTbl.search devName s.drvSdevTbl.length
  match search with
  | .found i =>
    let operation := (s.drvSdevTbl[i]?).bind Slot.op
    let status := if (operation.bind SddOperations.controlFn).isSome then answer else drvFailure
    ⟨operation.map fun _ => status, none, some search, s⟩
  | .stray _ | .exhausted | .refused => ⟨none, none, some search, s⟩

def ddevRegisterDev (devName : Option CString) (optr : Option (DdOperations F)) (memory : Bool) : Outcome F :=
  let done := s.drvDevTbl.registerDev devName optr memory
  ⟨done.1, none, none, { s with drvDevTbl := done.2 }⟩

def sddevRegisterDev (devName : Option CString) (optr : Option (SddOperations F)) (memory : Bool) : Outcome F :=
  let done := s.drvSdevTbl.registerDev devName optr memory
  ⟨done.1, none, none, { s with drvSdevTbl := done.2 }⟩

def ddevUnregisterDev (devName : CString) : Outcome F :=
  let search := s.drvDevTbl.searchShort devName s.drvDevTbl.length
  let done := s.drvDevTbl.unregisterDev search
  ⟨done.1, none, some search, { s with drvDevTbl := done.2 }⟩

def sddevUnregisterDev (devName : CString) : Outcome F :=
  -- The loop is bounded by the size of the other table.
  let search := s.drvSdevTbl.searchShort devName s.drvDevTbl.length
  let done := s.drvSdevTbl.unregisterDev search
  ⟨done.1, none, some search, { s with drvSdevTbl := done.2 }⟩

end BekenSdk.DrvModel
