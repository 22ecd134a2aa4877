import Mathlib.Data.UInt
import Mathlib.Logic.Function.Basic

/-! The application layer of BLE 5.2 (ble_ui.c, app_ble.c, app_ble_init.c, app_task.c):
commands are sent to the stack one step at a time, and the answers of the stack
drive them on. `activityMax` and `connectionMax` are BLE_ACTIVITY_MAX and
BLE_CONNECTION_MAX. `P` is the union of an activity's parameters.
-/

set_option autoImplicit false

namespace BekenSdk.BleApp

/-! ## Enumerations -/

inductive BleStatus where
  | idle
  | ready
  | cmdRunning
  deriving DecidableEq

inductive ActvState where
  | idle
  | advCreated
  | advStarted
  | scanCreated
  | scanStarted
  | initCreated
  | perSyncCreated
  | perSyncStarted
  deriving DecidableEq

inductive InitState where
  | idle
  | creating
  | created
  | waitConectting
  | conectting
  | conected
  | stopping
  deriving DecidableEq

/-- GAPM_ACTV_TYPE. -/
inductive ActvType where
  | adv
  | scan
  | init
  | perSync
  deriving DecidableEq

inductive BleCmd where
  | none
  | initAdv
  | deinitAdv
  | initScan
  | deinitScan
  | createAdv
  | setAdvData
  | setRspData
  | startAdv
  | stopAdv
  | deleteAdv
  | createScan
  | startScan
  | stopScan
  | deleteScan
  | createPeriodicSync
  | startPeriodicSync
  | stopPeriodicSync
  | deletePeriodicSync
  | initCreate
  | initStartConn
  | initStopConn
  | initDelete
  deriving DecidableEq

inductive BleErr where
  | success
  | bleStatus
  | noMem
  | unknowIdx
  | advData
  | cmdNotSupport
  | initCreate
  | initState
  deriving DecidableEq

/-- The operation of a command to the stack. -/
inductive GapmOp where
  | createAdv
  | createScan
  | createInit
  | createPeriodSync
  | setAdvData
  | setScanRspData
  | setPeriodAdvData
  | start
  | stop
  | delete
  deriving DecidableEq

def opCreateAdvPos : Nat := 0
def opSetAdvDataPos : Nat := 1
def opSetRspDataPos : Nat := 2
def opStartAdvPos : Nat := 3
def opStopAdvPos : Nat := 4
def opDelAdvPos : Nat := 5

def opCreateScanPos : Nat := 0
def opStartScanPos : Nat := 1
def opStopScanPos : Nat := 2
def opDelScanPos : Nat := 3

def opCreateInitPos : Nat := 0
def opInitStartPos : Nat := 1
def opInitStopPos : Nat := 2
def opInitDelPos : Nat := 3

def opCreatePeriodicSyncPos : Nat := 0
def opStartPeriodicSyncPos : Nat := 1
def opStopPeriodicSyncPos : Nat := 2
def opDelPeriodicSyncPos : Nat := 3

/-! ## The environment -/

structure ActvInfo (P : Type) where
  actvStatus : ActvState
  gapAdvtIdx : UInt8
  param : P

structure ConnInfo where
  connOpMask : UInt32
  gapActvIdx : UInt8
  initState : InitState

/-- `app_env_tag`; `status` and `idx` are in one byte there. -/
structure AppEnv (P : Type) where
  status : BleStatus
  idx : Nat
  cmd : BleCmd
  opMask : UInt32
  /-- Whether a callback is set. -/
  opCb : Bool
  actvs : Nat → ActvInfo P
  connections : Nat → ConnInfo
  advActv : UInt8
  scanActv : UInt8
  perSyncActv : UInt8
  initActv : UInt8

/-- A message to the stack, from the task of the application with the index `src`. -/
structure GapmCmd where
  operation : GapmOp
  src : Nat
  /-- The stack's number of the activity, unless one is to be created. -/
  actvIdx : Option UInt8
  deriving DecidableEq

structure Callback where
  cmd : BleCmd
  cmdIdx : Nat
  status : Bool

/-- What a call returns, leaves and sends. -/
structure Called (P : Type) where
  err : BleErr
  env : AppEnv P
  sent : List GapmCmd

/-- What an answer of the stack leaves, sends and tells the user. -/
structure Handled (P : Type) where
  env : AppEnv P
  sent : List GapmCmd
  told : List Callback

def bit (pos : Nat) : UInt32 := 1 <<< pos.toUInt32

/-- The first position that is set, or 32. -/
def firstOp (mask : UInt32) : Nat := ((List.range 32).find? fun pos => (mask >>> pos.toUInt32) &&& 1 = 1).getD 32

namespace AppEnv
variable {P : Type} (activityMax connectionMax : Nat) (env : AppEnv P)

def appBleRun (idx : Nat) (cmd : BleCmd) (opMask : UInt32) (callback : Bool) : AppEnv P :=
  { env with opMask := opMask, opCb := callback, cmd := cmd, status := .cmdRunning, idx := idx }

def appBleReset : AppEnv P := { env with opMask := 0, opCb := false, cmd := .none, status := .ready, idx := 0 }

def clearOps (mask : UInt32) : AppEnv P := { env with opMask := env.opMask &&& ~~~mask }

def setActv (idx : Nat) (state : ActvState) : AppEnv P :=
  { env with actvs := Function.update env.actvs idx { env.actvs idx with actvStatus := state } }

def setInit (con : Nat) (state : InitState) : AppEnv P :=
  { env with connections := Function.update env.connections con { env.connections con with initState := state } }

def setConnOps (con : Nat) (mask : UInt32) : AppEnv P :=
  { env with connections := Function.update env.connections con { env.connections con with connOpMask := mask } }

/-! ## Steps for an activity -/

/-- A step for an activity whose state is `fit`. `memory` is whether the message can be had. -/
def request (idx : Nat) (fit : ActvState → Bool) (operation : GapmOp) (actvIdx : Option UInt8) (memory : Bool) :
    BleErr × Option GapmCmd :=
  if activityMax ≤ idx then (.unknowIdx, none)
  else if fit (env.actvs idx).actvStatus then
    if memory then (.success, some ⟨operation, 0, actvIdx⟩) else (.noMem, none)
  else (.bleStatus, none)

def gap (idx : Nat) : Option UInt8 := some (env.actvs idx).gapAdvtIdx

def appBleCreateAdvertising (idx : Nat) (memory : Bool) : BleErr × Option GapmCmd :=
  env.request activityMax idx (· = .idle) .createAdv none memory

def appBleSetAdvData (idx : Nat) (memory : Bool) : BleErr × Option GapmCmd :=
  env.request activityMax idx (fun s => s = .advCreated ∨ s = .advStarted) .setAdvData (env.gap idx) memory

def appBleSetPeriodicAdvData (idx : Nat) (memory : Bool) : BleErr × Option GapmCmd :=
  env.request activityMax idx (fun s => s = .advCreated ∨ s = .advStarted) .setPeriodAdvData (env.gap idx) memory

def appBleSetScanRspData (idx : Nat) (memory : Bool) : BleErr × Option GapmCmd :=
  env.request activityMax idx (fun s => s = .advCreated ∨ s = .advStarted) .setScanRspData (env.gap idx) memory

def appBleStartAdvertising (idx : Nat) (memory : Bool) : BleErr × Option GapmCmd :=
  env.request activityMax idx (· = .advCreated) .start (env.gap idx) memory

def appBleStopAdvertising (idx : Nat) (memory : Bool) : BleErr × Option GapmCmd :=
  env.request activityMax idx (· = .advStarted) .stop (env.gap idx) memory

def appBleDeleteAdvertising (idx : Nat) (memory : Bool) : BleErr × Option GapmCmd :=
  env.request activityMax idx (· = .advCreated) .delete (env.gap idx) memory

def appBleCreateScaning (idx : Nat) (memory : Bool) : BleErr × Option GapmCmd :=
  env.request activityMax idx (· = .idle) .createScan none memory

def appBleStartScaning (idx : Nat) (memory : Bool) : BleErr × Option GapmCmd :=
  env.request activityMax idx (· = .scanCreated) .start (env.gap idx) memory

def appBleStopScaning (idx : Nat) (memory : Bool) : BleErr × Option GapmCmd :=
  env.request activityMax idx (· = .scanStarted) .stop (env.gap idx) memory

def appBleDeleteScaning (idx : Nat) (memory : Bool) : BleErr × Option GapmCmd :=
  env.request activityMax idx (· = .scanCreated) .delete (env.gap idx) memory

def appBleCreatePeriodicSync (idx : Nat) (memory : Bool) : BleErr × Option GapmCmd :=
  env.request activityMax idx (fun s => s = .idle ∨ s = .perSyncCreated) .createPeriodSync none memory

def appBleStartPeriodicSync (idx : Nat) (memory : Bool) : BleErr × Option GapmCmd :=
  env.request activityMax idx (· = .perSyncCreated) .start (env.gap idx) memory

def appBleStopPeriodicSync (idx : Nat) (memory : Bool) : BleErr × Option GapmCmd :=
  env.request activityMax idx (· = .perSyncStarted) .stop (env.gap idx) memory

def appBleDeletePeriodicSync (idx : Nat) (memory : Bool) : BleErr × Option GapmCmd :=
  env.request activityMax idx (· = .perSyncCreated) .delete (env.gap idx) memory

/-! ## Calls for an activity -/

/-- A call that runs a command, and takes it back when the first step fails. -/
def runStep (idx : Nat) (cmd : BleCmd) (opMask : UInt32) (callback : Bool) (first : BleErr × Option GapmCmd) :
    Called P :=
  if first.1 = .success then ⟨.success, env.appBleRun idx cmd opMask callback, first.2.toList⟩
  else ⟨first.1, (env.appBleRun idx cmd opMask callback).appBleReset, first.2.toList⟩

def bkBleAdvStart (idx : Nat) (copy : P → P) (callback memory : Bool) : Called P :=
  if env.status = .ready then
    if idx < activityMax then
      let opMask := bit opCreateAdvPos ||| bit opSetAdvDataPos ||| bit opSetRspDataPos ||| bit opStartAdvPos
      let kept : AppEnv P :=
        { env with actvs := Function.update env.actvs idx { env.actvs idx with param := copy (env.actvs idx).param } }
      kept.runStep idx .initAdv opMask callback (kept.appBleCreateAdvertising activityMax idx memory)
    else ⟨.unknowIdx, env, []⟩
  else ⟨.bleStatus, env, []⟩

def bkBleAdvStop (idx : Nat) (callback memory : Bool) : Called P :=
  if env.status = .ready then
    if idx < activityMax then
      env.runStep idx .deinitAdv (bit opStopAdvPos ||| bit opDelAdvPos) callback
        (env.appBleStopAdvertising activityMax idx memory)
    else ⟨.unknowIdx, env, []⟩
  else ⟨.bleStatus, env, []⟩

def bkBleScanStart (idx : Nat) (copy : P → P) (callback memory : Bool) : Called P :=
  if env.status = .ready then
    if idx < activityMax then
      let kept : AppEnv P :=
        { env with actvs := Function.update env.actvs idx { env.actvs idx with param := copy (env.actvs idx).param } }
      kept.runStep idx .initScan (bit opCreateScanPos ||| bit opStartScanPos) callback
        (kept.appBleCreateScaning activityMax idx memory)
    else ⟨.unknowIdx, env, []⟩
  else ⟨.bleStatus, env, []⟩

def bkBleScanStop (idx : Nat) (callback memory : Bool) : Called P :=
  if env.status = .ready then
    if idx < activityMax then
      env.runStep idx .deinitScan (bit opStopScanPos ||| bit opDelScanPos) callback
        (env.appBleStopScaning activityMax idx memory)
    else ⟨.unknowIdx, env, []⟩
  else ⟨.bleStatus, env, []⟩

/-- A call of one step. -/
def single (idx : Nat) (cmd : BleCmd) (pos : Nat) (callback : Bool) (first : BleErr × Option GapmCmd) : Called P :=
  if env.status = .ready then env.runStep idx cmd (bit pos) callback first else ⟨.bleStatus, env, []⟩

def bkBleCreateAdvertising (idx : Nat) (callback memory : Bool) : Called P :=
  env.single idx .createAdv opCreateAdvPos callback (env.appBleCreateAdvertising activityMax idx memory)

def bkBleCreateExtendedAdvertising (idx : Nat) (scannable connectable : UInt8) (callback memory : Bool) : Called P :=
  if scannable ≠ 0 ∧ connectable ≠ 0 then ⟨.cmdNotSupport, env, []⟩
  else env.single idx .createAdv opCreateAdvPos callback (env.appBleCreateAdvertising activityMax idx memory)

def bkBleCreatePeriodicAdvertising (idx : Nat) (callback memory : Bool) : Called P :=
  env.single idx .createAdv opCreateAdvPos callback (env.appBleCreateAdvertising activityMax idx memory)

def bkBleStartAdvertising (idx : Nat) (callback memory : Bool) : Called P :=
  env.single idx .startAdv opStartAdvPos callback (env.appBleStartAdvertising activityMax idx memory)

/-- For an unknown activity nothing is done, and no error is returned. -/
def bkBleStartPeriodicAdvertising (idx : Nat) (callback memory : Bool) : Called P :=
  if env.status = .ready ∧ activityMax ≤ idx then ⟨.success, env, []⟩
  else env.single idx .startAdv opStartAdvPos callback (env.appBleStartAdvertising activityMax idx memory)

/-- Also `bk_ble_stop_periodic_advertising`. -/
def bkBleStopAdvertising (idx : Nat) (callback memory : Bool) : Called P :=
  env.single idx .stopAdv opStopAdvPos callback (env.appBleStopAdvertising activityMax idx memory)

/-- Also `bk_ble_delete_periodic_advertising`. -/
def bkBleDeleteAdvertising (idx : Nat) (callback memory : Bool) : Called P :=
  env.single idx .deleteAdv opDelAdvPos callback (env.appBleDeleteAdvertising activityMax idx memory)

/-- `lenMax` is ADV_DATA_LEN, or for extended advertising BLE_CFG_MAX_ADV_DATA_LEN - 3. -/
def bkBleSetAdvData (lenMax idx advLen : Nat) (callback memory : Bool) : Called P :=
  if lenMax < advLen then ⟨.advData, env, []⟩
  else env.single idx .setAdvData opSetAdvDataPos callback (env.appBleSetAdvData activityMax idx memory)

def bkBleSetScanRspData (lenMax idx scanLen : Nat) (callback memory : Bool) : Called P :=
  if lenMax < scanLen then ⟨.advData, env, []⟩
  else env.single idx .setRspData opSetRspDataPos callback (env.appBleSetScanRspData activityMax idx memory)

def bkBleSetPeriodicAdvData (idx : Nat) (callback memory : Bool) : Called P :=
  env.single idx .setAdvData opSetAdvDataPos callback (env.appBleSetPeriodicAdvData activityMax idx memory)

def bkBleCreateScaning (idx : Nat) (callback memory : Bool) : Called P :=
  env.single idx .createScan opCreateScanPos callback (env.appBleCreateScaning activityMax idx memory)

def bkBleStartScaning (idx : Nat) (callback memory : Bool) : Called P :=
  env.single idx .startScan opStartScanPos callback (env.appBleStartScaning activityMax idx memory)

def bkBleStopScaning (idx : Nat) (callback memory : Bool) : Called P :=
  env.single idx .stopScan opStopScanPos callback (env.appBleStopScaning activityMax idx memory)

def bkBleDeleteScaning (idx : Nat) (callback memory : Bool) : Called P :=
  env.single idx .deleteScan opDelScanPos callback (env.appBleDeleteScaning activityMax idx memory)

def bkBleCreatePeriodicSync (idx : Nat) (callback memory : Bool) : Called P :=
  env.single idx .createPeriodicSync opCreatePeriodicSyncPos callback
    (env.appBleCreatePeriodicSync activityMax idx memory)

def bkBleStartPeriodicSync (idx : Nat) (callback memory : Bool) : Called P :=
  env.single idx .startPeriodicSync opStartPeriodicSyncPos callback
    (env.appBleStartPeriodicSync activityMax idx memory)

def bkBleStopPeriodicSync (idx : Nat) (callback memory : Bool) : Called P :=
  env.single idx .stopPeriodicSync opStopPeriodicSyncPos callback (env.appBleStopPeriodicSync activityMax idx memory)

def bkBleDeletePeriodicSync (idx : Nat) (callback memory : Bool) : Called P :=
  env.single idx .deletePeriodicSync opDelPeriodicSyncPos callback
    (env.appBleDeletePeriodicSync activityMax idx memory)

/-! ## Calls for a connection

The messages of the first three are written without a test that there is one: they
are modelled where there is memory. -/

def initingIndex (con : Nat) : Nat := con + activityMax

def appmCreateIniting (con : Nat) : BleErr × AppEnv P × Option GapmCmd :=
  if connectionMax ≤ con then (.unknowIdx, env, none)
  else if (env.connections con).initState = .idle then
    (.success, (env.setConnOps con (bit opCreateInitPos)).setInit con .creating,
      some ⟨.createInit, initingIndex activityMax con, none⟩)
  else (.initState, env, none)

def appmStartConnecting (con : Nat) : BleErr × AppEnv P × Option GapmCmd :=
  if connectionMax ≤ con then (.unknowIdx, env, none)
  else if (env.connections con).initState = .created then
    (.success, (env.setInit con .waitConectting).setConnOps con (bit opInitStartPos),
      some ⟨.start, initingIndex activityMax con, some (env.connections con).gapActvIdx⟩)
  else (.initState, env, none)

def appmStopConnencting (con : Nat) : BleErr × AppEnv P × Option GapmCmd :=
  if connectionMax ≤ con then (.unknowIdx, env, none)
  else if (env.connections con).initState = .conectting then
    (.success, (env.setConnOps con (bit opInitStopPos)).setInit con .stopping,
      some ⟨.stop, initingIndex activityMax con, some (env.connections con).gapActvIdx⟩)
  else (.initState, env, none)

/-- The number of the activity is taken from the other table. -/
def appmDeleteIniting (con : Nat) (memory : Bool) : BleErr × AppEnv P × Option GapmCmd :=
  if connectionMax ≤ con then (.unknowIdx, env, none)
  else if (env.connections con).initState = .created then
    if memory then (.success, env, some ⟨.delete, initingIndex activityMax con, some (env.actvs con).gapAdvtIdx⟩)
    else (.noMem, env, none)
  else (.bleStatus, env, none)

/-- A call of one step for a connection; `failure` is what is returned when the step fails. -/
def singleConn (con : Nat) (cmd : BleCmd) (pos : Nat) (callback : Bool) (failure : BleErr → BleErr)
    (step : AppEnv P → BleErr × AppEnv P × Option GapmCmd) : Called P :=
  if env.status = .ready then
    let done := step (env.appBleRun con cmd (bit pos) callback)
    if done.1 = .success then ⟨.success, done.2.1, done.2.2.toList⟩
    else ⟨failure done.1, done.2.1.appBleReset, done.2.2.toList⟩
  else ⟨.bleStatus, env, []⟩

def bkBleCreateInit (con : Nat) (callback : Bool) : Called P :=
  env.singleConn con .initCreate opCreateInitPos callback (fun _ => .initCreate)
    fun env => env.appmCreateIniting activityMax connectionMax con

def bkBleInitStartConn (con : Nat) (callback : Bool) : Called P :=
  env.singleConn con .initStartConn opInitStartPos callback (fun _ => .initCreate)
    fun env => env.appmStartConnecting activityMax connectionMax con

def bkBleInitStopConn (con : Nat) (callback : Bool) : Called P :=
  env.singleConn con .initStopConn opInitStopPos callback (fun _ => .initCreate)
    fun env => env.appmStopConnencting activityMax connectionMax con

def bkBleDeleteInit (con : Nat) (callback memory : Bool) : Called P :=
  env.singleConn con .initDelete opInitDelPos callback id
    fun env => env.appmDeleteIniting activityMax connectionMax con memory

/-! ## Answers of the stack -/

/-- `BLE_APP_INITING_CHECK_INDEX`. -/
def Initing (dest : Nat) : Prop := activityMax ≤ dest ∧ dest < connectionMax + activityMax

instance (dest : Nat) : Decidable (Initing activityMax connectionMax dest) := inferInstanceAs (Decidable (_ ∧ _))

def gapmActivityCreatedInd (dest : Nat) (actvType : ActvType) (actvIdx : UInt8) : AppEnv P :=
  if Initing activityMax connectionMax dest ∧ actvType = .init then
    let con := dest - activityMax
    let stored : AppEnv P :=
      { env with connections := Function.update env.connections con { env.connections con with gapActvIdx := actvIdx } }
    { stored.setInit env.idx .created with initActv := env.initActv + 1 }
  else if activityMax ≤ env.idx then env
  else
    let stored : AppEnv P :=
      { env with actvs := Function.update env.actvs env.idx { env.actvs env.idx with gapAdvtIdx := actvIdx } }
    match actvType with
    | .adv => { stored.setActv env.idx .advCreated with advActv := env.advActv + 1 }
    | .scan => { stored.setActv env.idx .scanCreated with scanActv := env.scanActv + 1 }
    | .perSync => { stored.setActv env.idx .perSyncCreated with perSyncActv := env.perSyncActv + 1 }
    | .init => stored

/-- `app_ble_find_actv_idx_handle`: the first activity with the number, or BLE_ACTIVITY_MAX. -/
def appBleFindActvIdxHandle (gapActvIdx : UInt8) : Nat :=
  ((List.range activityMax).find? fun idx => (env.actvs idx).gapAdvtIdx = gapActvIdx).getD activityMax

def gapmActivityStoppedInd (dest : Nat) (actvType : ActvType) (actvIdx : UInt8) : AppEnv P :=
  let idx := env.appBleFindActvIdxHandle activityMax actvIdx
  match actvType with
  | .init => if Initing activityMax connectionMax dest then env.setInit (dest - activityMax) .created else env
  | .adv => if activityMax ≤ idx then env else env.setActv idx .advCreated
  | .scan => if activityMax ≤ idx then env else env.setActv idx .scanCreated
  | .perSync => if activityMax ≤ idx then env else env.setActv idx .perSyncCreated

/-- The command is over, and its callback is called. -/
def finish (idx : Nat) (status : Bool) : Handled P :=
  ⟨env.appBleReset, [], if env.opCb then [⟨env.cmd, idx, status⟩] else []⟩

/-- The end of BLE_INIT_ADV and BLE_INIT_SCAN. After a failure the activity is deleted, if it is there. -/
def finishInit (idx : Nat) (status : Bool) (created : ActvState) (cleanUp : BleErr × Option GapmCmd) : Handled P :=
  let told : List Callback := if env.opCb then [⟨env.cmd, idx, status⟩] else []
  if ¬status ∧ (env.actvs idx).actvStatus = created then
    ⟨if env.opCb then { env with opMask := 0, opCb := false } else env, cleanUp.2.toList, told⟩
  else ⟨env.appBleReset, [], told⟩

def appBleNextOperation (idx : Nat) (status memory : Bool) : Handled P :=
  let opIdx := firstOp env.opMask
  match env.cmd with
  | .initAdv =>
    if env.opMask ≠ 0 ∧ status then
      if opIdx = opSetAdvDataPos then ⟨env, (env.appBleSetAdvData activityMax idx memory).2.toList, []⟩
      else if opIdx = opSetRspDataPos then ⟨env, (env.appBleSetScanRspData activityMax idx memory).2.toList, []⟩
      else if opIdx = opStartAdvPos then ⟨env, (env.appBleStartAdvertising activityMax idx memory).2.toList, []⟩
      else ⟨env, [], []⟩
    else env.finishInit idx status .advCreated (env.appBleDeleteAdvertising activityMax idx memory)
  | .deinitAdv =>
    if env.opMask ≠ 0 then
      if opIdx = opDelAdvPos then ⟨env, (env.appBleDeleteAdvertising activityMax idx memory).2.toList, []⟩
      else ⟨env, [], []⟩
    else env.finish idx status
  | .initScan =>
    if env.opMask ≠ 0 ∧ status then
      if opIdx = opStartScanPos then ⟨env, (env.appBleStartScaning activityMax idx memory).2.toList, []⟩
      else ⟨env, [], []⟩
    else env.finishInit idx status .scanCreated (env.appBleDeleteScaning activityMax idx memory)
  | .deinitScan =>
    if env.opMask ≠ 0 then
      if opIdx = opDelScanPos then ⟨env, (env.appBleDeleteScaning activityMax idx memory).2.toList, []⟩
      else ⟨env, [], []⟩
    else env.finish idx status
  | .none => ⟨env, [], []⟩
  | _ => env.finish idx status

/-- The steps are marked done and the command goes on, for a known activity. -/
def goOn (mask : UInt32) (status memory : Bool) : Handled P :=
  if activityMax ≤ env.idx then ⟨env, [], []⟩
  else (env.clearOps mask).appBleNextOperation activityMax env.idx status memory

/-- What a completed start does to the activity. -/
def started : AppEnv P :=
  match env.cmd with
  | .startScan | .initScan => (env.setActv env.idx .scanStarted).clearOps (bit opStartScanPos)
  | .startAdv | .initAdv => (env.setActv env.idx .advStarted).clearOps (bit opStartAdvPos)
  | .startPeriodicSync => (env.setActv env.idx .perSyncStarted).clearOps (bit opStartPeriodicSyncPos)
  | _ => env

/-- What a completed deletion does to the activity, with any status. -/
def deleted : AppEnv P :=
  match env.cmd with
  | .deleteScan => { (env.setActv env.idx .idle).clearOps (bit opDelScanPos) with scanActv := env.scanActv - 1 }
  | .deleteAdv => { (env.setActv env.idx .idle).clearOps (bit opDelAdvPos) with advActv := env.advActv - 1 }
  | .deletePeriodicSync =>
    { (env.setActv env.idx .idle).clearOps (bit opDelPeriodicSyncPos) with perSyncActv := env.perSyncActv - 1 }
  | _ => env

/-- The answer to a command for a connection. -/
def gapmCmpEvtConn (con : Nat) (operation : GapmOp) (status memory : Bool) : Handled P :=
  let mask := (env.connections con).connOpMask
  match operation with
  | .createInit =>
    let marked := (env.setConnOps con (mask &&& ~~~bit opCreateInitPos)).setInit con (if status then .created else .idle)
    if env.cmd = .initCreate then
      (marked.clearOps (bit opCreateInitPos)).appBleNextOperation activityMax env.idx status memory
    else ⟨marked, [], []⟩
  | .start =>
    let marked :=
      (env.setConnOps con (mask &&& ~~~bit opInitStartPos)).setInit con (if status then .conectting else .created)
    if env.cmd = .initStartConn then
      (marked.clearOps (bit opCreateInitPos)).appBleNextOperation activityMax env.idx status memory
    else ⟨marked, [], []⟩
  | .stop =>
    let marked :=
      if env.cmd = .initStopConn ∨ mask &&& bit opInitStopPos ≠ 0 then
        (env.setInit con .created).setConnOps con (mask &&& ~~~bit opInitStopPos)
      else env
    if env.cmd = .initStopConn then
      (marked.clearOps (bit opCreateInitPos)).appBleNextOperation activityMax env.idx status memory
    else ⟨marked, [], []⟩
  | .delete =>
    let marked : AppEnv P :=
      if env.cmd = .initDelete then
        { (env.clearOps (bit opInitDelPos)).setInit con .idle with initActv := env.initActv - 1 }
      else env
    marked.appBleNextOperation activityMax env.idx status memory
  | _ => ⟨env, [], []⟩

/-- `gapm_cmp_evt_handler`, for a message to the task of the application with the index `dest`. -/
def gapmCmpEvt (dest : Nat) (operation : GapmOp) (status memory : Bool) : Handled P :=
  match operation with
  | .createScan => env.goOn activityMax (bit opCreateScanPos) status memory
  | .createAdv => env.goOn activityMax (bit opCreateAdvPos) status memory
  | .setAdvData => env.goOn activityMax (bit opSetAdvDataPos) status memory
  | .setScanRspData => env.goOn activityMax (bit opSetRspDataPos) status memory
  | .setPeriodAdvData => env.goOn activityMax (bit opSetAdvDataPos) status memory
  | .createPeriodSync => env.goOn activityMax (bit opCreatePeriodicSyncPos) status memory
  | .createInit =>
    if Initing activityMax connectionMax dest then
      env.gapmCmpEvtConn activityMax (dest - activityMax) .createInit status memory
    else ⟨env, [], []⟩
  | .start =>
    if Initing activityMax connectionMax dest then
      env.gapmCmpEvtConn activityMax (dest - activityMax) .start status memory
    else if activityMax ≤ env.idx then ⟨env, [], []⟩
    else (if status then env.started else env).appBleNextOperation activityMax env.idx status memory
  | .stop =>
    if Initing activityMax connectionMax dest then
      env.gapmCmpEvtConn activityMax (dest - activityMax) .stop status memory
    else
      env.goOn activityMax (bit opStopScanPos ||| bit opStopAdvPos ||| bit opStopPeriodicSyncPos) status memory
  | .delete =>
    if Initing activityMax connectionMax dest then
      env.gapmCmpEvtConn activityMax (dest - activityMax) .delete status memory
    else if activityMax ≤ env.idx then ⟨env, [], []⟩
    else env.deleted.appBleNextOperation activityMax env.idx status memory

end AppEnv

/-- After `appm_init` and the set-up of the stack. -/
def appEnv {P : Type} (param : P) : AppEnv P where
  status := .ready
  idx := 0
  cmd := .none
  opMask := 0
  opCb := false
  actvs _ := ⟨.idle, 0, param⟩
  connections _ := ⟨0, 0, .idle⟩
  advActv := 0
  scanActv := 0
  perSyncActv := 0
  initActv := 0

/-! ## The calls -/

inductive Call (P : Type) where
  | advStart (idx : Nat) (copy : P → P) (callback : Bool)
  | advStop (idx : Nat) (callback : Bool)
  | scanStart (idx : Nat) (copy : P → P) (callback : Bool)
  | scanStop (idx : Nat) (callback : Bool)
  | createAdvertising (idx : Nat) (callback : Bool)
  | createExtendedAdvertising (idx : Nat) (scannable connectable : UInt8) (callback : Bool)
  | createPeriodicAdvertising (idx : Nat) (callback : Bool)
  | startAdvertising (idx : Nat) (callback : Bool)
  | startPeriodicAdvertising (idx : Nat) (callback : Bool)
  | stopAdvertising (idx : Nat) (callback : Bool)
  | deleteAdvertising (idx : Nat) (callback : Bool)
  | setAdvData (lenMax idx advLen : Nat) (callback : Bool)
  | setScanRspData (lenMax idx scanLen : Nat) (callback : Bool)
  | setPeriodicAdvData (idx : Nat) (callback : Bool)
  | createScaning (idx : Nat) (callback : Bool)
  | startScaning (idx : Nat) (callback : Bool)
  | stopScaning (idx : Nat) (callback : Bool)
  | deleteScaning (idx : Nat) (callback : Bool)
  | createPeriodicSync (idx : Nat) (callback : Bool)
  | startPeriodicSync (idx : Nat) (callback : Bool)
  | stopPeriodicSync (idx : Nat) (callback : Bool)
  | deletePeriodicSync (idx : Nat) (callback : Bool)
  | createInit (con : Nat) (callback : Bool)
  | initStartConn (con : Nat) (callback : Bool)
  | initStopConn (con : Nat) (callback : Bool)
  | deleteInit (con : Nat) (callback : Bool)

namespace Call
variable {P : Type}

def callback : Call P → Bool
  | advStart _ _ callback | advStop _ callback | scanStart _ _ callback | scanStop _ callback
  | createAdvertising _ callback | createExtendedAdvertising _ _ _ callback | createPeriodicAdvertising _ callback
  | startAdvertising _ callback | startPeriodicAdvertising _ callback | stopAdvertising _ callback
  | deleteAdvertising _ callback | setAdvData _ _ _ callback | setScanRspData _ _ _ callback
  | setPeriodicAdvData _ callback | createScaning _ callback | startScaning _ callback | stopScaning _ callback
  | deleteScaning _ callback | createPeriodicSync _ callback | startPeriodicSync _ callback
  | stopPeriodicSync _ callback | deletePeriodicSync _ callback | createInit _ callback | initStartConn _ callback
  | initStopConn _ callback | deleteInit _ callback => callback

def perform (activityMax connectionMax : Nat) (env : AppEnv P) (memory : Bool) : Call P → Called P
  | advStart idx copy callback => env.bkBleAdvStart activityMax idx copy callback memory
  | advStop idx callback => env.bkBleAdvStop activityMax idx callback memory
  | scanStart idx copy callback => env.bkBleScanStart activityMax idx copy callback memory
  | scanStop idx callback => env.bkBleScanStop activityMax idx callback memory
  | createAdvertising idx callback => env.bkBleCreateAdvertising activityMax idx callback memory
  | createExtendedAdvertising idx scannable connectable callback =>
    env.bkBleCreateExtendedAdvertising activityMax idx scannable connectable callback memory
  | createPeriodicAdvertising idx callback => env.bkBleCreatePeriodicAdvertising activityMax idx callback memory
  | startAdvertising idx callback => env.bkBleStartAdvertising activityMax idx callback memory
  | startPeriodicAdvertising idx callback => env.bkBleStartPeriodicAdvertising activityMax idx callback memory
  | stopAdvertising idx callback => env.bkBleStopAdvertising activityMax idx callback memory
  | deleteAdvertising idx callback => env.bkBleDeleteAdvertising activityMax idx callback memory
  | setAdvData lenMax idx advLen callback => env.bkBleSetAdvData activityMax lenMax idx advLen callback memory
  | setScanRspData lenMax idx scanLen callback => env.bkBleSetScanRspData activityMax lenMax idx scanLen callback memory
  | setPeriodicAdvData idx callback => env.bkBleSetPeriodicAdvData activityMax idx callback memory
  | createScaning idx callback => env.bkBleCreateScaning activityMax idx callback memory
  | startScaning idx callback => env.bkBleStartScaning activityMax idx callback memory
  | stopScaning idx callback => env.bkBleStopScaning activityMax idx callback memory
  | deleteScaning idx callback => env.bkBleDeleteScaning activityMax idx callback memory
  | createPeriodicSync idx callback => env.bkBleCreatePeriodicSync activityMax idx callback memory
  | startPeriodicSync idx callback => env.bkBleStartPeriodicSync activityMax idx callback memory
  | stopPeriodicSync idx callback => env.bkBleStopPeriodicSync activityMax idx callback memory
  | deletePeriodicSync idx callback => env.bkBleDeletePeriodicSync activityMax idx callback memory
  | createInit con callback => env.bkBleCreateInit activityMax connectionMax con callback
  | initStartConn con callback => env.bkBleInitStartConn activityMax connectionMax con callback
  | initStopConn con callback => env.bkBleInitStopConn activityMax connectionMax con callback
  | deleteInit con callback => env.bkBleDeleteInit activityMax connectionMax con callback memory

end Call

end BekenSdk.BleApp
