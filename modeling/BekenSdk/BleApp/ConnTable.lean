import Mathlib.Data.UInt
import Mathlib.Logic.Function.Basic
import Mathlib.Tactic.Common
import BekenSdk.Base.Machine

/-! The connections of BLE 5.2 (app_ble.c, app_task.c): the table of slots, and the indications of the stack that
fill and free them. `P` is what a request says of the peer and its timing.
-/

set_option autoImplicit false

namespace BekenSdk.BleApp

/-- The numbers of sys_config and what rwip_config.h checks of them. -/
structure ConnConfig where
  /-- CFG_BLE_CONN_NUM, the slave connections. -/
  connNum : Nat
  /-- CFG_BLE_INIT_NUM, the master connections. -/
  initNum : Nat
  /-- Advertisings, scans and periodic syncs. -/
  otherNum : Nat
  some : 0 < connNum
  other : 0 < otherNum
  few : connNum + initNum ≤ 10

namespace ConnConfig
variable (config : ConnConfig)

/-- BLE_CONNECTION_MAX. -/
def connectionMax : Nat := config.connNum + config.initNum

/-- BLE_ACTIVITY_MAX. -/
def activityMax : Nat := config.otherNum + config.initNum + config.connNum

/-- APP_IDX_MAX. -/
def appIdxMax : Nat := config.connectionMax + config.activityMax

end ConnConfig

def unknowConnHdl : UInt16 := 0xFF
def usedConnHdl : UInt16 := 0xFE
def gapInvalidConidx : UInt8 := 0xFF
def appBleMasterRole : UInt8 := 0
def appBleNoneRole : UInt8 := 2

structure ConnSlot (P : Type) where
  conhdl : UInt16
  param : P
  role : UInt8
  sdpEnd : UInt8
  sdpIng : UInt8

/-- `connections` and the two counters of `actv_cnt`. -/
structure ConnTable (P : Type) where
  slots : Nat → ConnSlot P
  connActv : UInt8
  initActv : UInt8

/-- A handle in a slot stands for a connection. -/
def IsHandle (conhdl : UInt16) : Prop := conhdl ≠ unknowConnHdl ∧ conhdl ≠ usedConnHdl

instance (conhdl : UInt16) : Decidable (IsHandle conhdl) := inferInstanceAs (Decidable (_ ∧ _))

inductive ConnActv where
  | init
  | conn
  | other

namespace ConnTable
variable {P : Type} (config : ConnConfig) (table : ConnTable P)

/-- The loops over the table: the first slot with a handle, or BLE_CONNECTION_MAX. -/
def appBleFindConnIdxHandle (conhdl : UInt16) : Nat :=
  ((List.range config.connectionMax).find? fun connIdx => (table.slots connIdx).conhdl = conhdl).getD config.connectionMax

/-- A type of which there are enough already is answered with UNKNOW_CONN_HDL. -/
def appBleGetIdleConnIdxHandle : ConnActv → Nat
  | .init => if table.initActv.toNat ≥ config.initNum then 0xFF else table.appBleFindConnIdxHandle config unknowConnHdl
  | .conn => if table.connActv.toNat ≥ config.connNum then 0xFF else table.appBleFindConnIdxHandle config unknowConnHdl
  | .other => 0xFF

/-- BLE_APP_INITING_CHECK_INDEX and BLE_APP_INITING_GET_INDEX. -/
def initingSlot (idx : UInt8) : Nat :=
  if config.activityMax ≤ idx.toNat ∧ idx.toNat < config.appIdxMax then idx.toNat - config.activityMax
  else config.connectionMax

/-- What an indication leaves, the indices it had for `connections` outside the searches, and the slot and role of a
connection that was confirmed. -/
structure Handled (P : Type) where
  table : ConnTable P
  indexed : List Nat
  confirmed : Option (Nat × UInt8)

def setSlot (connIdx : Nat) (slot : ConnSlot P) : ConnTable P :=
    { table with slots := Function.update table.slots connIdx slot }

def gapcConnectionReqInd (conidx dest role : UInt8) (param : P) : Handled P :=
  if conidx = gapInvalidConidx then ⟨table, [], none⟩
  else
    let connIdx :=
      if role ≠ appBleMasterRole then table.appBleGetIdleConnIdxHandle config .conn else initingSlot config dest
    if config.connectionMax = connIdx then ⟨table, [], none⟩
    else
      let stored := table.setSlot connIdx { conhdl := conidx.toUInt16, param, role, sdpEnd := 0, sdpIng := 0 }
      ⟨if role = appBleMasterRole then stored else { stored with connActv := stored.connActv + 1 }, [connIdx],
        some (connIdx, role)⟩

/-- The answer is sent to the handle that is looked up. -/
def gapcParamUpdateReqInd (conidx : UInt8) : Handled P :=
  ⟨table, [table.appBleFindConnIdxHandle config conidx.toUInt16], none⟩

def gapcParamUpdatedInd (_conidx : UInt8) : Handled P := ⟨table, [], none⟩

def gapcDisconnectInd (conidx : UInt8) : Handled P :=
  let connIdx := table.appBleFindConnIdxHandle config conidx.toUInt16
  if config.connectionMax = connIdx then ⟨table, [], none⟩
  else
    let freed := table.setSlot connIdx { table.slots connIdx with conhdl := unknowConnHdl, sdpEnd := 0 }
    ⟨if (table.slots connIdx).role = appBleMasterRole then freed else { freed with connActv := freed.connActv - 1 },
      [connIdx], none⟩

/-- The start of appm_create_initing, in a slot whose init state is idle. -/
def reserve (connIdx : Nat) : Handled P :=
  if connIdx ≥ config.connectionMax then ⟨table, [], none⟩
  else ⟨table.setSlot connIdx { table.slots connIdx with conhdl := usedConnHdl }, [connIdx], none⟩

/-- The table after appm_init. -/
def start (param : P) : ConnTable P :=
  { slots := fun _ => { conhdl := unknowConnHdl, param, role := appBleNoneRole, sdpEnd := 0, sdpIng := 0 }
    connActv := 0
    initActv := 0 }

end ConnTable

inductive ConnEvent (P : Type) where
  | connectionReq (conidx dest role : UInt8) (param : P)
  | paramUpdateReq (conidx : UInt8)
  | paramUpdated (conidx : UInt8)
  | disconnect (conidx : UInt8)
  | initiating (connIdx : Nat)

namespace ConnEvent
variable {P : Type} (config : ConnConfig) (table : ConnTable P)

def handle : ConnEvent P → ConnTable.Handled P
  | connectionReq conidx dest role param => table.gapcConnectionReqInd config conidx dest role param
  | paramUpdateReq conidx => table.gapcParamUpdateReqInd config conidx
  | paramUpdated conidx => table.gapcParamUpdatedInd conidx
  | disconnect conidx => table.gapcDisconnectInd config conidx
  | initiating connIdx => table.reserve config connIdx

/-- The handles the stack can hold are the indices of its own table of connections. -/
def Held : ConnEvent P → Prop
  | connectionReq conidx _ _ _ => conidx = gapInvalidConidx ∨ conidx.toNat < config.connectionMax
  | paramUpdateReq conidx | paramUpdated conidx | disconnect conidx => conidx.toNat < config.connectionMax
  | initiating _ => True

end ConnEvent

/-! ## Runs -/

/-- A connection that was confirmed to the stack and has not ended. -/
structure LiveConn where
  conhdl : UInt8
  role : UInt8
  slot : Nat
  deriving DecidableEq

structure ConnState (P : Type) where
  table : ConnTable P
  live : List LiveConn
  /-- Every index so far. -/
  indexed : List Nat

namespace ConnState
variable {P : Type} (config : ConnConfig)

/-- What the stack holds after an event. -/
def liveAfter (live : List LiveConn) (confirmed : Option (Nat × UInt8)) : ConnEvent P → List LiveConn
  | .connectionReq conidx _ _ _ =>
    match confirmed with
    | some (slot, role) => ⟨conidx, role, slot⟩ :: live.filter (·.conhdl ≠ conidx)
    | none => live
  | .disconnect conidx => live.filter (·.conhdl ≠ conidx)
  | _ => live

def step (event : ConnEvent P) (state : ConnState P) : Option (ConnState P) :=
  let handled := event.handle config state.table
  some ⟨handled.table, liveAfter state.live handled.confirmed event, handled.indexed ++ state.indexed⟩

def start (param : P) : ConnState P := ⟨.start param, [], []⟩

/-- Every index is inside the table; every live connection is in its slot and in no other; a slot with a handle has a
live connection; and the counter counts the live slave connections. -/
structure Right (state : ConnState P) : Prop where
  inside : ∀ i ∈ state.indexed, i < config.connectionMax
  once : (state.live.map LiveConn.conhdl).Nodup
  stored : ∀ conn ∈ state.live, conn.slot < config.connectionMax ∧ (state.table.slots conn.slot).role = conn.role ∧
    ∀ slot < config.connectionMax, (state.table.slots slot).conhdl = conn.conhdl.toUInt16 ↔ slot = conn.slot
  used : ∀ slot < config.connectionMax, IsHandle (state.table.slots slot).conhdl → ∃ conn ∈ state.live, conn.slot = slot
  counted : state.table.connActv.toNat = state.live.countP (·.role ≠ appBleMasterRole)

end ConnState

end BekenSdk.BleApp
