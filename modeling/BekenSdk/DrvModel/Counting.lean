import BekenSdk.Base.Machine
import BekenSdk.DrvModel.Registry

/-! Opening and closing by several users. `ddev_open` and `ddev_close` write the
state and the count of a device in critical sections of their own, and the
driver's functions run between them, so that the users take turns at each of
these places.
-/

set_option autoImplicit false

namespace BekenSdk.DrvModel
open Base

/-- Where a user is. `ran` is what the driver's open function returned to the call,
or whether its close function ran. -/
inductive Phase where
  | idle
  /-- The driver's open function runs. -/
  | opening (id : Nat)
  | marking (id : Nat) (status : UInt32) (ran : Option UInt32)
  | counting (id : Nat) (handle status : UInt32) (ran : Option UInt32)
  /-- The count is down and `left` handles are outstanding. -/
  | checking (id left : Nat)
  /-- The driver's close function runs. -/
  | closing (id left : Nat)
  | unmarking (id left : Nat) (ran : Bool)
  /-- An assertion failed, or a name was read that is not there. -/
  | stuck
  deriving DecidableEq

/-- The device that a user is at. -/
def Phase.device : Phase → Option Nat
  | .opening id | .marking id _ _ | .counting id _ _ _ | .checking id _ | .closing id _ | .unmarking id _ _ => some id
  | .idle | .stuck => none

/-- The device that the user's call has found closed and has not marked yet. -/
def Phase.unmarked : Phase → Option Nat
  | .opening id | .marking id _ _ => some id
  | _ => none

/-- What the calls did; `count` is the number of outstanding handles. -/
inductive Note where
  | openRun (id count : Nat)
  | closeRun (id count : Nat)
  /-- A call of `ddev_open` is over, with the count before it, whether the device has
  an open function, and the state of the device. -/
  | opened (id : Nat) (ran : Option UInt32) (count : Nat) (has : Bool) (handle status : UInt32) (state : DdState)
  /-- A call of `ddev_close` is over, with the count that it left. -/
  | closed (id : Nat) (ran : Bool) (left : Nat) (has : Bool)
  | refused (status : UInt32)
  deriving DecidableEq

/-- The handle is one of the device. -/
def Names (handle : UInt32) (id : Nat) : Prop :=
  handle &&& ddHandleMagicMask = ddHandleMagicWord ∧ (handle &&& ddHandleIdMask).toNat = id

instance (handle : UInt32) (id : Nat) : Decidable (Names handle id) := inferInstanceAs (Decidable (_ ∧ _))

namespace Note

/-- The driver's functions run when the count leaves zero and comes back to it, the
status is success exactly with a usable handle, and a device is not left opened by
an open function that failed. -/
def Right : Note → Prop
  | openRun _ count | closeRun _ count => count = 0
  | opened id ran count has handle status state =>
    (ran.isSome ↔ count = 0 ∧ has = true) ∧ (status = drvSuccess ↔ Names handle id ∧ state = .opened) ∧
      ∀ answer ∈ ran, answer ≠ drvSuccess → state ≠ .opened
  | closed _ ran left has => ran = true ↔ left = 0 ∧ has = true
  | refused status => status ≠ drvSuccess

end Note

namespace Slot
variable {F : Type}

def opens (slot : Slot (DdOperations F)) : Bool := (slot.op.bind DdOperations.openFn).isSome

def closes (slot : Slot (DdOperations F)) : Bool := (slot.op.bind DdOperations.closeFn).isSome

def countDown (slot : Slot (DdOperations F)) : Slot (DdOperations F) := { slot with useCnt := slot.useCnt - 1 }

def markClosed (slot : Slot (DdOperations F)) : Slot (DdOperations F) := { slot with state := .closed }

end Slot

structure Devices (F : Type) where
  drvDevTbl : Table (DdOperations F)
  users : List Phase
  /-- The handles that were returned and are not closed yet. -/
  handles : List UInt32
  notes : List Note

inductive Event where
  /-- `status` is what the caller's status holds before the call. -/
  | open (user : Nat) (devName : CString) (status : UInt32)
  | openReturns (user : Nat) (answer : UInt32)
  | mark (user : Nat)
  | count (user : Nat)
  | close (user : Nat) (handle : UInt32)
  | check (user : Nat)
  | closeReturns (user : Nat)
  | unmark (user : Nat)

namespace Devices
variable {F : Type} (s : Devices F)

def go (user : Nat) (phase : Phase) : Devices F := { s with users := s.users.set user phase }

def change (id : Nat) (slot : Slot (DdOperations F) → Slot (DdOperations F)) : Devices F :=
  { s with drvDevTbl := s.drvDevTbl.modify id slot }

def note (note : Note) : Devices F := { s with notes := note :: s.notes }

/-- The number of outstanding handles of a device. -/
def outstanding (id : Nat) : Nat := s.handles.countP fun handle => Names handle id

def opens (id : Nat) : Bool := (s.drvDevTbl[id]?).any Slot.opens

def closes (id : Nat) : Bool := (s.drvDevTbl[id]?).any Slot.closes

def state (id : Nat) : DdState := ((s.drvDevTbl[id]?).map Slot.state).getD .noDevice

/-! ## ddev_open -/

def enterFound (user id : Nat) : Devices F :=
  match s.state id with
  | .opened => s.go user (.counting id (ddevMakeHandle s.drvDevTbl.length id) drvFailure none)
  | .closed =>
    if s.opens id then (s.note (.openRun id (s.outstanding id))).go user (.opening id)
    else s.go user (.marking id drvFailure none)
  | _ => s.go user (.counting id ddHandleUnvalid drvFailure none)

def enter (user : Nat) (devName : CString) (status : UInt32) : Devices F :=
  match s.drvDevTbl.searchShort devName s.drvDevTbl.length with
  | .refused => { s.note (.refused status) with handles := ddHandleUnvalid :: s.handles }
  | .stray _ | .exhausted => s.go user .stuck
  | .found id => s.enterFound user id

def mark (user id : Nat) (status : UInt32) (ran : Option UInt32) : Devices F :=
  (s.change id Slot.markOpened).go user (.counting id (ddevMakeHandle s.drvDevTbl.length id) status ran)

def count (user id : Nat) (handle status : UInt32) (ran : Option UInt32) : Devices F :=
  if handle = ddHandleUnvalid then (s.change id Slot.countUp).go user .stuck
  else
    { ((s.change id Slot.countUp).note (.opened id ran (s.outstanding id) (s.opens id) handle status (s.state id))).go
        user .idle with
      handles := handle :: s.handles }

/-! ## ddev_close -/

def leave (user : Nat) (handle : UInt32) : Devices F :=
  let left : Devices F := { s with handles := s.handles.erase handle }
  let id := ddevGetIdFromHandle handle
  if id = ddIdUnvalid then left
  else (left.change id.toNat Slot.countDown).go user (.checking id.toNat (left.outstanding id.toNat))

def check (user id left : Nat) : Devices F :=
  if (s.drvDevTbl[id]?).map Slot.useCnt = some 0 then
    if s.closes id then (s.note (.closeRun id (s.outstanding id))).go user (.closing id left)
    else s.go user (.unmarking id left false)
  else (s.note (.closed id false left (s.closes id))).go user .idle

def unmark (user id left : Nat) (ran : Bool) : Devices F :=
  ((s.change id Slot.markClosed).note (.closed id ran left (s.closes id))).go user .idle

end Devices

variable {F : Type}

/-- A user that is not in a call starts one, or a call goes on; only handles are closed
that were returned and are not closed yet. -/
def Devices.step : Event → Devices F → Option (Devices F)
  | .open user devName status, s =>
    if s.users[user]? = some .idle then some (s.enter user devName status) else none
  | .openReturns user answer, s =>
    match s.users[user]? with
    | some (.opening id) => some (s.go user (.marking id answer (some answer)))
    | _ => none
  | .mark user, s =>
    match s.users[user]? with
    | some (.marking id status ran) => some (s.mark user id status ran)
    | _ => none
  | .count user, s =>
    match s.users[user]? with
    | some (.counting id handle status ran) => some (s.count user id handle status ran)
    | _ => none
  | .close user handle, s =>
    if s.users[user]? = some .idle ∧ handle ∈ s.handles then some (s.leave user handle) else none
  | .check user, s =>
    match s.users[user]? with
    | some (.checking id left) => some (s.check user id left)
    | _ => none
  | .closeReturns user, s =>
    match s.users[user]? with
    | some (.closing id left) => some (s.go user (.unmarking id left true))
    | _ => none
  | .unmark user, s =>
    match s.users[user]? with
    | some (.unmarking id left ran) => some (s.unmark user id left ran)
    | _ => none

/-- The table after `drv_model_init` and the registration of the devices. -/
def registered (devices : List (CString × DdOperations F)) : Table (DdOperations F) :=
  devices.foldl (fun slots device => (slots.registerDev (some device.1) (some device.2) true).2) Table.init

def Devices.start (devices : List (CString × DdOperations F)) (users : Nat) : Devices F :=
  ⟨registered devices, List.replicate users .idle, [], []⟩

namespace Devices
variable (s : Devices F)

/-- The count of every registered device is the number of its outstanding handles, and
what the calls did was right. -/
structure Counted : Prop where
  counts : ∀ (id : Nat) (slot : Slot (DdOperations F)), s.drvDevTbl[id]? = some slot → slot.name ≠ none →
    slot.useCnt.toNat = s.outstanding id
  notes : ∀ note ∈ s.notes, note.Right

/-- No user is between the look at the device's state and its mark. -/
def Alone (id : Nat) : Prop := ∀ phase ∈ s.users, phase.unmarked ≠ some id

/-- When `ddev_open` goes well as far as its search: the device is closed and no other
call is opening it, its open function is there, and its handle can carry its number. -/
def Opening (status : UInt32) : Search → Prop
  | .refused => status ≠ drvSuccess
  | .stray _ | .exhausted => True
  | .found id => s.state id = .noDevice ∨ s.state id = .closed ∧ s.Alone id ∧ s.opens id = true ∧ id < 2 ^ 16

def Fine : Event → Prop
  | .open _ devName status => s.Opening status (s.drvDevTbl.searchShort devName s.drvDevTbl.length)
  | .openReturns _ answer => answer = drvSuccess
  | _ => True

instance (id : Nat) : Decidable (s.Alone id) := List.decidableBAll _ _

instance (status : UInt32) : (search : Search) → Decidable (s.Opening status search)
  | .refused => inferInstanceAs (Decidable (status ≠ drvSuccess))
  | .stray _ | .exhausted => inferInstanceAs (Decidable True)
  | .found id => inferInstanceAs (Decidable (s.state id = .noDevice ∨ _))

instance : (event : Event) → Decidable (s.Fine event)
  | .open _ devName status =>
    inferInstanceAs (Decidable (s.Opening status (s.drvDevTbl.searchShort devName s.drvDevTbl.length)))
  | .openReturns _ answer => inferInstanceAs (Decidable (answer = drvSuccess))
  | .mark _ | .count _ | .close _ _ | .check _ | .closeReturns _ | .unmark _ => inferInstanceAs (Decidable True)

end Devices

end BekenSdk.DrvModel
