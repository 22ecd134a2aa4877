import BekenSdk.Base.Machine
import BekenSdk.BleApp.App

/-! The steps that a call sends. The stack answers every message once; after its last
answer a call's callback has been called and the application is ready again.
-/

set_option autoImplicit false

namespace BekenSdk.BleApp
open Base

variable {P : Type} {activityMax connectionMax : Nat} {env : AppEnv P}

/-! ## The machine -/

/-- What the call that was accepted last has come to. -/
structure Log where
  cmd : BleCmd
  opMask : UInt32
  callback : Bool
  sent : List GapmOp
  told : List Callback

structure Sequence (P : Type) where
  env : AppEnv P
  /-- The messages that the stack has yet to answer. -/
  queue : List GapmCmd
  log : Log

inductive Event (P : Type) where
  | call (call : Call P) (memory : Bool)
  /-- The stack answers the first message; `gap` is the number of a new activity. -/
  | answer (gap : UInt8) (actvType : ActvType) (status memory : Bool)

/-- The calls for advertising and for scans. -/
def Call.advOrScan : Call P → Bool
  | createPeriodicSync .. | startPeriodicSync .. | stopPeriodicSync .. | deletePeriodicSync .. | createInit ..
  | initStartConn .. | initStopConn .. | deleteInit .. => false
  | _ => true

/-- The indication that precedes the completion of a command that succeeds. -/
def AppEnv.indicated (activityMax connectionMax : Nat) (env : AppEnv P) (cmd : GapmCmd) (gap : UInt8)
    (actvType : ActvType) : AppEnv P :=
  match cmd.operation with
  | .createAdv => env.gapmActivityCreatedInd activityMax connectionMax cmd.src .adv gap
  | .createScan => env.gapmActivityCreatedInd activityMax connectionMax cmd.src .scan gap
  | .createPeriodSync => env.gapmActivityCreatedInd activityMax connectionMax cmd.src .perSync gap
  | .createInit => env.gapmActivityCreatedInd activityMax connectionMax cmd.src .init gap
  | .stop => env.gapmActivityStoppedInd activityMax connectionMax cmd.src actvType (cmd.actvIdx.getD 0)
  | _ => env

namespace Sequence

def called (s : Sequence P) (callback : Bool) (done : Called P) : Sequence P where
  env := done.env
  queue := s.queue ++ done.sent
  log :=
    if done.err = .success then ⟨done.env.cmd, done.env.opMask, callback, done.sent.map GapmCmd.operation, []⟩
    else s.log

def answered (s : Sequence P) (waiting : List GapmCmd) (done : Handled P) : Sequence P where
  env := done.env
  queue := waiting ++ done.sent
  log := { s.log with sent := s.log.sent ++ done.sent.map GapmCmd.operation, told := s.log.told ++ done.told }

def step (activityMax connectionMax : Nat) (event : Event P) (s : Sequence P) : Option (Sequence P) :=
  match event, s.queue with
  | .call call memory, _ =>
    if call.advOrScan then some (s.called call.callback (call.perform activityMax connectionMax s.env memory)) else none
  | .answer .., [] => none
  | .answer gap actvType status memory, cmd :: waiting =>
    let env := if status then s.env.indicated activityMax connectionMax cmd gap actvType else s.env
    some (s.answered waiting (env.gapmCmpEvt activityMax connectionMax cmd.src cmd.operation status memory))

def start (param : P) : Sequence P := ⟨appEnv param, [], ⟨.none, 0, false, [], []⟩⟩

end Sequence

/-! ## What is claimed of the calls -/

/-- The position of a step in the mask of a command. -/
def stepPos : BleCmd → GapmOp → Option Nat
  | .initAdv, op | .deinitAdv, op | .createAdv, op | .setAdvData, op | .setRspData, op | .startAdv, op | .stopAdv, op
  | .deleteAdv, op =>
    match op with
    | .createAdv => some opCreateAdvPos
    | .setAdvData | .setPeriodAdvData => some opSetAdvDataPos
    | .setScanRspData => some opSetRspDataPos
    | .start => some opStartAdvPos
    | .stop => some opStopAdvPos
    | .delete => some opDelAdvPos
    | _ => none
  | .initScan, op | .deinitScan, op | .createScan, op | .startScan, op | .stopScan, op | .deleteScan, op =>
    match op with
    | .createScan => some opCreateScanPos
    | .start => some opStartScanPos
    | .stop => some opStopScanPos
    | .delete => some opDelScanPos
    | _ => none
  | _, _ => none

/-- The position of a step that the mask names. -/
def named (cmd : BleCmd) (opMask : UInt32) (op : GapmOp) : Option Nat :=
  (stepPos cmd op).filter fun pos => opMask &&& bit pos ≠ 0

/-- The steps that the mask names come in increasing order, and besides them at most one deletion. -/
structure StepsOrdered (cmd : BleCmd) (opMask : UInt32) (sent : List GapmOp) : Prop where
  increasing : (sent.filterMap (named cmd opMask)).Pairwise (· < ·)
  cleanUp :
    sent.filter (named cmd opMask · = none) = [] ∨ sent.filter (named cmd opMask · = none) = [.delete]

def Log.Ordered (log : Log) : Prop := StepsOrdered log.cmd log.opMask log.sent

def AppEnv.AtRest (env : AppEnv P) : Prop := env.status = .ready ∧ env.opMask = 0 ∧ env.cmd = .none

structure Sequenced (s : Sequence P) : Prop where
  ordered : s.log.Ordered
  once : s.log.told.length ≤ if s.log.callback then 1 else 0
  done : s.queue = [] → s.env.AtRest ∧ s.log.told.length = if s.log.callback then 1 else 0

/-- A call that returns an error sends nothing and changes no activity. -/
def Refused (activityMax connectionMax : Nat) (s : Sequence P) : Event P → Prop
  | .call call memory =>
    (call.perform activityMax connectionMax s.env memory).err ≠ .success →
      (call.perform activityMax connectionMax s.env memory).sent = [] ∧
        (call.perform activityMax connectionMax s.env memory).env.actvs = s.env.actvs
  | .answer .. => True

/-- Calls that are not to stop an activity with one command, that keep the parameters of an activity
which is not idle, and that name an activity. -/
def Call.Fine (activityMax : Nat) (env : AppEnv P) (memory : Bool) : Call P → Prop
  | advStart idx copy _ | scanStart idx copy _ =>
    env.status = .ready → idx < activityMax →
      (env.actvs idx).actvStatus = .idle ∧ memory = true ∨ copy (env.actvs idx).param = (env.actvs idx).param
  | advStop idx _ =>
    ¬(env.status = .ready ∧ idx < activityMax ∧ (env.actvs idx).actvStatus = .advStarted ∧ memory = true)
  | scanStop idx _ =>
    ¬(env.status = .ready ∧ idx < activityMax ∧ (env.actvs idx).actvStatus = .scanStarted ∧ memory = true)
  | startPeriodicAdvertising idx _ => env.status = .ready → idx < activityMax
  | _ => True

/-- Within BLE_INIT_ADV and BLE_INIT_SCAN: a step that follows has memory for its message, a failure after
the creation finds a callback, and the deletion succeeds. -/
def AnswerFine (env : AppEnv P) (status memory : Bool) : GapmOp → Prop
  | .delete => status = true
  | .createAdv | .createScan => status = true → memory = true
  | .start => status = false → memory = true ∧ env.opCb = true
  | _ => memory = true ∧ (status = false → env.opCb = true)

def Sequence.Fine (activityMax : Nat) (s : Sequence P) : Event P → Prop
  | .call call memory => call.Fine activityMax s.env memory
  | .answer _ _ status memory =>
    s.env.cmd = .initAdv ∨ s.env.cmd = .initScan → ∀ cmd ∈ s.queue.head?, AnswerFine s.env status memory cmd.operation

/-! ## Answers to calls of one step -/

def BleCmd.Single (cmd : BleCmd) : Prop :=
  cmd ≠ .none ∧ cmd ≠ .initAdv ∧ cmd ≠ .deinitAdv ∧ cmd ≠ .initScan ∧ cmd ≠ .deinitScan

instance (cmd : BleCmd) : Decidable cmd.Single := inferInstanceAs (Decidable (_ ∧ _))

theorem finish_of_single (single : env.cmd.Single) (idx : Nat) (status memory : Bool) :
    env.appBleNextOperation activityMax idx status memory = env.finish idx status := by
  obtain ⟨some, initAdv, deinitAdv, initScan, deinitScan⟩ := single
  unfold AppEnv.appBleNextOperation
  dsimp only
  split
  · contradiction
  · contradiction
  · contradiction
  · contradiction
  · contradiction
  · rfl

theorem not_initing {dest : Nat} (low : dest < activityMax) : ¬AppEnv.Initing activityMax connectionMax dest :=
  fun initing => absurd initing.1 (Nat.not_le_of_lt low)

/-- The fields by which a command goes on. -/
def AppEnv.SameCommand (env other : AppEnv P) : Prop :=
  other.status = env.status ∧ other.cmd = env.cmd ∧ other.opCb = env.opCb ∧ other.idx = env.idx ∧
    other.opMask = env.opMask

theorem indicated_same (cmd : GapmCmd) (gap : UInt8) (actvType : ActvType) :
    env.SameCommand (env.indicated activityMax connectionMax cmd gap actvType) := by
  have created (dest : Nat) (actvType : ActvType) :
      env.SameCommand (env.gapmActivityCreatedInd activityMax connectionMax dest actvType gap) := by
    unfold AppEnv.gapmActivityCreatedInd
    dsimp only
    split
    · exact ⟨rfl, rfl, rfl, rfl, rfl⟩
    split
    · exact ⟨rfl, rfl, rfl, rfl, rfl⟩
    · cases actvType <;> exact ⟨rfl, rfl, rfl, rfl, rfl⟩
  unfold AppEnv.indicated
  cases cmd.operation with
  | createAdv | createScan | createPeriodSync | createInit => exact created _ _
  | stop =>
    dsimp only
    unfold AppEnv.gapmActivityStoppedInd
    cases actvType <;> dsimp only <;> split <;> exact ⟨rfl, rfl, rfl, rfl, rfl⟩
  | setAdvData | setScanRspData | setPeriodAdvData | start | delete => exact ⟨rfl, rfl, rfl, rfl, rfl⟩

/-- The answer to a command of one step ends it. -/
theorem answer_single {op : GapmOp} (single : env.cmd.Single) (known : env.idx < activityMax) (op_ne : op ≠ .createInit)
    (status memory : Bool) :
    (env.gapmCmpEvt activityMax connectionMax 0 op status memory).env.AtRest ∧
      (env.gapmCmpEvt activityMax connectionMax 0 op status memory).sent = [] ∧
      (env.gapmCmpEvt activityMax connectionMax 0 op status memory).told =
        if env.opCb then [⟨env.cmd, env.idx, status⟩] else [] := by
  have low : ¬AppEnv.Initing activityMax connectionMax 0 := not_initing (Nat.zero_lt_of_lt known)
  have inside : ¬activityMax ≤ env.idx := Nat.not_le_of_lt known
  have ended (other : AppEnv P) (same : other.cmd = env.cmd ∧ other.opCb = env.opCb) :
      (other.appBleNextOperation activityMax env.idx status memory).env.AtRest ∧
        (other.appBleNextOperation activityMax env.idx status memory).sent = [] ∧
        (other.appBleNextOperation activityMax env.idx status memory).told =
          if env.opCb then [⟨env.cmd, env.idx, status⟩] else [] := by
    rw [finish_of_single (by rw [same.1]; exact single), AppEnv.finish, same.1, same.2]
    exact ⟨⟨rfl, rfl, rfl⟩, rfl, rfl⟩
  have went (mask : UInt32) :
      env.goOn activityMax mask status memory =
        (env.clearOps mask).appBleNextOperation activityMax env.idx status memory :=
    if_neg inside
  unfold AppEnv.gapmCmpEvt
  cases op with
  | createAdv | createScan | createPeriodSync | setAdvData | setScanRspData | setPeriodAdvData =>
    dsimp only
    rw [went]
    exact ended _ ⟨rfl, rfl⟩
  | createInit => exact absurd rfl op_ne
  | start =>
    dsimp only
    rw [if_neg low, if_neg inside]
    apply ended
    unfold AppEnv.started
    split
    · split <;> exact ⟨rfl, rfl⟩
    · exact ⟨rfl, rfl⟩
  | stop =>
    dsimp only
    rw [if_neg low, went]
    exact ended _ ⟨rfl, rfl⟩
  | delete =>
    dsimp only
    rw [if_neg low, if_neg inside]
    apply ended
    unfold AppEnv.deleted
    split <;> exact ⟨rfl, rfl⟩

/-! ## The steps of the starting calls -/

/-- Where BLE_INIT_ADV or BLE_INIT_SCAN stands: the message that waits for its answer. -/
inductive InitStep where
  | advCreate
  | advData
  | advRsp
  | advStart
  | scanCreate
  | scanStart

namespace InitStep

def cmd : InitStep → BleCmd
  | advCreate | advData | advRsp | advStart => .initAdv
  | scanCreate | scanStart => .initScan

def op : InitStep → GapmOp
  | advCreate => .createAdv
  | advData => .setAdvData
  | advRsp => .setScanRspData
  | advStart => .start
  | scanCreate => .createScan
  | scanStart => .start

/-- What is left of the mask. -/
def mask : InitStep → UInt32
  | advCreate => 0xF
  | advData => 0xE
  | advRsp => 0xC
  | advStart => 0x8
  | scanCreate => 0x3
  | scanStart => 0x2

def whole : InitStep → UInt32
  | advCreate | advData | advRsp | advStart => 0xF
  | scanCreate | scanStart => 0x3

def sent : InitStep → List GapmOp
  | advCreate => [.createAdv]
  | advData => [.createAdv, .setAdvData]
  | advRsp => [.createAdv, .setAdvData, .setScanRspData]
  | advStart => [.createAdv, .setAdvData, .setScanRspData, .start]
  | scanCreate => [.createScan]
  | scanStart => [.createScan, .start]

/-- The activity's state while the message waits. -/
def slot : InitStep → ActvState
  | advCreate | scanCreate => .idle
  | advData | advRsp | advStart => .advCreated
  | scanStart => .scanCreated

def next : InitStep → Option InitStep
  | advCreate => some advData
  | advData => some advRsp
  | advRsp => some advStart
  | advStart => none
  | scanCreate => some scanStart
  | scanStart => none

theorem cmd_init (step : InitStep) : step.cmd = .initAdv ∨ step.cmd = .initScan := by
  cases step with
  | advCreate | advData | advRsp | advStart => exact .inl rfl
  | scanCreate | scanStart => exact .inr rfl

theorem ordered (step : InitStep) : StepsOrdered step.cmd step.whole step.sent := by
  cases step <;> exact ⟨by decide, by decide⟩

theorem ordered_cleanUp (step : InitStep) : StepsOrdered step.cmd step.whole (step.sent ++ [.delete]) := by
  cases step <;> exact ⟨by decide, by decide⟩

end InitStep

/-! ## The invariant -/

/-- Where a run can stand. -/
inductive Stands (activityMax : Nat) (s : Sequence P) : Prop where
  | rest (queue : s.queue = []) (rest : s.env.AtRest) (ordered : s.log.Ordered)
      (told : s.log.told.length = if s.log.callback then 1 else 0)
  | single (op : GapmOp) (actvIdx : Option UInt8) (queue : s.queue = [⟨op, 0, actvIdx⟩])
      (running : s.env.status = .cmdRunning) (single : s.env.cmd.Single) (op_ne : op ≠ .createInit)
      (known : s.env.idx < activityMax) (opCb : s.env.opCb = s.log.callback) (ordered : s.log.Ordered)
      (told : s.log.told = [])
  | init (step : InitStep) (actvIdx : Option UInt8) (queue : s.queue = [⟨step.op, 0, actvIdx⟩])
      (running : s.env.status = .cmdRunning) (cmd : s.env.cmd = step.cmd) (known : s.env.idx < activityMax)
      (opCb : s.env.opCb = s.log.callback) (mask : s.env.opMask = step.mask)
      (slot : (s.env.actvs s.env.idx).actvStatus = step.slot)
      (log : s.log = ⟨step.cmd, step.whole, s.log.callback, step.sent, []⟩)
  | cleanUp (step : InitStep) (actvIdx : Option UInt8) (queue : s.queue = [⟨.delete, 0, actvIdx⟩])
      (running : s.env.status = .cmdRunning) (cmd : s.env.cmd = step.cmd) (known : s.env.idx < activityMax)
      (opCb : s.env.opCb = false) (mask : s.env.opMask = 0) (callback : s.log.callback = true)
      (told : s.log.told.length = 1)
      (log : s.log = ⟨step.cmd, step.whole, s.log.callback, step.sent ++ [.delete], s.log.told⟩)

theorem Stands.sequenced {s : Sequence P} (stands : Stands activityMax s) : Sequenced s := by
  cases stands with
  | rest queue rest ordered told => exact ⟨ordered, told.le, fun _ => ⟨rest, told⟩⟩
  | single op actvIdx queue running single op_ne known opCb ordered told =>
    refine ⟨ordered, ?_, fun empty => ?_⟩
    · rw [told]
      exact Nat.zero_le _
    · rw [queue] at empty
      cases empty
  | init step actvIdx queue running cmd known opCb mask slot log =>
    refine ⟨?_, ?_, fun empty => ?_⟩
    · rw [log]
      exact step.ordered
    · rw [log]
      exact Nat.zero_le _
    · rw [queue] at empty
      cases empty
  | cleanUp step actvIdx queue running cmd known opCb mask callback told log =>
    refine ⟨?_, ?_, fun empty => ?_⟩
    · rw [log]
      exact step.ordered_cleanUp
    · rw [told, callback]
      exact Nat.le_refl _
    · rw [queue] at empty
      cases empty

/-! ## Calls -/

variable {s : Sequence P} {callback memory : Bool} {idx : Nat} {op : GapmOp} {actvIdx : Option UInt8}
  {fit : ActvState → Bool}

theorem request_spec (env : AppEnv P) (idx : Nat) (fit : ActvState → Bool) (op : GapmOp) (actvIdx : Option UInt8)
    (memory : Bool) :
    (idx < activityMax ∧ fit (env.actvs idx).actvStatus = true ∧ memory = true ∧
        env.request activityMax idx fit op actvIdx memory = (.success, some ⟨op, 0, actvIdx⟩)) ∨
      (¬(idx < activityMax ∧ fit (env.actvs idx).actvStatus = true ∧ memory = true) ∧
        (env.request activityMax idx fit op actvIdx memory).1 ≠ .success ∧
        (env.request activityMax idx fit op actvIdx memory).2 = none) := by
  unfold AppEnv.request
  split
  next beyond => exact .inr ⟨fun both => Nat.not_le_of_lt both.1 beyond, by decide, rfl⟩
  next known =>
    split
    next fits =>
      cases memory with
      | true => exact .inl ⟨Nat.lt_of_not_le known, fits, rfl, rfl⟩
      | false => exact .inr ⟨fun both => Bool.false_ne_true both.2.2, nofun, rfl⟩
    next unfit => exact .inr ⟨fun both => unfit both.2.1, by decide, rfl⟩

theorem appBleReset_atRest (env : AppEnv P) : env.appBleReset.AtRest := ⟨rfl, rfl, rfl⟩

/-- A call that is refused with the application at rest leaves it there. -/
theorem called_refused {done : Called P} (queue : s.queue = []) (ordered : s.log.Ordered)
    (told : s.log.told.length = if s.log.callback then 1 else 0) (failed : done.err ≠ .success) (sent : done.sent = [])
    (rest : done.env.AtRest) : Stands activityMax (s.called callback done) := by
  have log : (s.called callback done).log = s.log := if_neg failed
  refine .rest ?_ rest ?_ ?_
  · rw [Sequence.called, queue, sent]
    rfl
  · rw [log]
    exact ordered
  · rw [log]
    exact told

theorem called_same {done : Called P} (stands : Stands activityMax s) (failed : done.err ≠ .success)
    (sent : done.sent = []) (same : done.env = s.env) : Stands activityMax (s.called callback done) := by
  have unchanged : s.called callback done = s := by
    rw [Sequence.called, sent, same, if_neg failed, List.append_nil]
  rwa [unchanged]

theorem Stands.of_ready (stands : Stands activityMax s) (ready : s.env.status = .ready) :
    s.queue = [] ∧ s.env.AtRest ∧ s.log.Ordered ∧ s.log.told.length = if s.log.callback then 1 else 0 := by
  cases stands with
  | rest queue rest ordered told => exact ⟨queue, rest, ordered, told⟩
  | single _ _ _ running | init _ _ _ running | cleanUp _ _ _ running =>
    rw [ready] at running
    cases running

/-- A first step, sent or not. -/
theorem called_runStep (queue : s.queue = []) (ordered : s.log.Ordered)
    (told : s.log.told.length = if s.log.callback then 1 else 0) (env : AppEnv P) (cmd : BleCmd) (mask : UInt32)
    (run : idx < activityMax → fit (env.actvs idx).actvStatus = true → memory = true →
      Stands activityMax ⟨env.appBleRun idx cmd mask callback, [⟨op, 0, actvIdx⟩], ⟨cmd, mask, callback, [op], []⟩⟩) :
    Stands activityMax
      (s.called callback (env.runStep idx cmd mask callback (env.request activityMax idx fit op actvIdx memory))) := by
  rcases @request_spec _ activityMax env idx fit op actvIdx memory with ⟨known, fits, there, sent⟩ | ⟨-, failed, none⟩
  · rw [sent, AppEnv.runStep, if_pos rfl, Sequence.called, queue]
    exact run known fits there
  · rw [AppEnv.runStep, if_neg failed, none]
    exact called_refused queue ordered told failed rfl (appBleReset_atRest _)

theorem called_single {cmd : BleCmd} {pos : Nat} (stands : Stands activityMax s) (single : cmd.Single)
    (op_ne : op ≠ .createInit) (steps : StepsOrdered cmd (bit pos) [op]) :
    Stands activityMax
      (s.called callback (s.env.single idx cmd pos callback (s.env.request activityMax idx fit op actvIdx memory))) := by
  unfold AppEnv.single
  split
  next ready =>
    obtain ⟨queue, -, ordered, told⟩ := stands.of_ready ready
    exact called_runStep queue ordered told s.env cmd (bit pos) fun known _ _ =>
      .single op actvIdx rfl rfl single op_ne known rfl steps rfl
  · exact called_same stands nofun rfl rfl

/-- Every call of one step for an activity of advertising or of a scan. -/
theorem stands_of_call (stands : Stands activityMax s) (call : Call P) (memory : Bool) (scope : call.advOrScan = true)
    (fine : call.Fine activityMax s.env memory) :
    Stands activityMax (s.called call.callback (call.perform activityMax connectionMax s.env memory)) := by
  cases call with
  | createAdvertising idx callback | createPeriodicAdvertising idx callback =>
    exact called_single stands (by decide) (by decide) ⟨by decide, by decide⟩
  | createExtendedAdvertising idx scannable connectable callback =>
    unfold Call.perform AppEnv.bkBleCreateExtendedAdvertising
    dsimp only
    split
    · exact called_same stands nofun rfl rfl
    · exact called_single stands (by decide) (by decide) ⟨by decide, by decide⟩
  | startAdvertising idx callback | stopAdvertising idx callback | deleteAdvertising idx callback
  | createScaning idx callback | startScaning idx callback | stopScaning idx callback | deleteScaning idx callback
  | setPeriodicAdvData idx callback =>
    exact called_single stands (by decide) (by decide) ⟨by decide, by decide⟩
  | startPeriodicAdvertising idx callback =>
    unfold Call.perform AppEnv.bkBleStartPeriodicAdvertising
    dsimp only
    rw [if_neg fun both => Nat.not_le_of_lt (fine both.1) both.2]
    exact called_single stands (by decide) (by decide) ⟨by decide, by decide⟩
  | setAdvData lenMax idx advLen callback =>
    unfold Call.perform AppEnv.bkBleSetAdvData
    dsimp only
    split
    · exact called_same stands nofun rfl rfl
    · exact called_single stands (by decide) (by decide) ⟨by decide, by decide⟩
  | setScanRspData lenMax idx scanLen callback =>
    unfold Call.perform AppEnv.bkBleSetScanRspData
    dsimp only
    split
    · exact called_same stands nofun rfl rfl
    · exact called_single stands (by decide) (by decide) ⟨by decide, by decide⟩
  | advStart idx copy callback =>
    unfold Call.perform AppEnv.bkBleAdvStart
    dsimp only
    split
    next ready =>
      obtain ⟨queue, rest, ordered, told⟩ := stands.of_ready ready
      split
      next known =>
        refine called_runStep queue ordered told _ _ _ fun _ fits _ => ?_
        exact .init .advCreate none rfl rfl rfl known rfl rfl (of_decide_eq_true fits) rfl
      · exact called_same stands nofun rfl rfl
    · exact called_same stands nofun rfl rfl
  | scanStart idx copy callback =>
    unfold Call.perform AppEnv.bkBleScanStart
    dsimp only
    split
    next ready =>
      obtain ⟨queue, rest, ordered, told⟩ := stands.of_ready ready
      split
      next known =>
        refine called_runStep queue ordered told _ _ _ fun _ fits _ => ?_
        exact .init .scanCreate none rfl rfl rfl known rfl rfl (of_decide_eq_true fits) rfl
      · exact called_same stands nofun rfl rfl
    · exact called_same stands nofun rfl rfl
  | advStop idx callback =>
    unfold Call.perform AppEnv.bkBleAdvStop
    dsimp only
    split
    next ready =>
      obtain ⟨queue, rest, ordered, told⟩ := stands.of_ready ready
      split
      · refine called_runStep queue ordered told _ _ _ fun known fits there => ?_
        exact absurd ⟨ready, known, of_decide_eq_true fits, there⟩ fine
      · exact called_same stands nofun rfl rfl
    · exact called_same stands nofun rfl rfl
  | scanStop idx callback =>
    unfold Call.perform AppEnv.bkBleScanStop
    dsimp only
    split
    next ready =>
      obtain ⟨queue, rest, ordered, told⟩ := stands.of_ready ready
      split
      · refine called_runStep queue ordered told _ _ _ fun known fits there => ?_
        exact absurd ⟨ready, known, of_decide_eq_true fits, there⟩ fine
      · exact called_same stands nofun rfl rfl
    · exact called_same stands nofun rfl rfl
  | createPeriodicSync | startPeriodicSync | stopPeriodicSync | deletePeriodicSync | createInit | initStartConn
  | initStopConn | deleteInit => exact absurd scope Bool.false_ne_true

theorem runStep_refused {cmd : BleCmd} {mask : UInt32}
    (failed : (env.runStep idx cmd mask callback (env.request activityMax idx fit op actvIdx memory)).err ≠ .success) :
    (env.runStep idx cmd mask callback (env.request activityMax idx fit op actvIdx memory)).sent = [] ∧
      (env.runStep idx cmd mask callback (env.request activityMax idx fit op actvIdx memory)).env.actvs =
      env.actvs := by
  rcases @request_spec _ activityMax env idx fit op actvIdx memory with ⟨-, -, -, sent⟩ | ⟨-, first, none⟩
  · rw [sent] at failed
    exact absurd rfl failed
  · rw [AppEnv.runStep, if_neg first, none]
    exact ⟨rfl, rfl⟩

theorem single_refused {cmd : BleCmd} {pos : Nat}
    (failed : (env.single idx cmd pos callback (env.request activityMax idx fit op actvIdx memory)).err ≠ .success) :
    (env.single idx cmd pos callback (env.request activityMax idx fit op actvIdx memory)).sent = [] ∧
      (env.single idx cmd pos callback (env.request activityMax idx fit op actvIdx memory)).env.actvs = env.actvs := by
  unfold AppEnv.single at *
  split at failed
  next ready =>
    rw [if_pos ready]
    exact runStep_refused failed
  next busy =>
    rw [if_neg busy]
    exact ⟨rfl, rfl⟩

/-- The parameters are copied before the activity's state is looked at. -/
theorem start_refused {cmd : BleCmd} {mask : UInt32} {copy : P → P} {kept : AppEnv P}
    (shape : kept = { env with actvs := Function.update env.actvs idx { env.actvs idx with param := copy (env.actvs idx).param } })
    (fit_iff : ∀ state, fit state = decide (state = .idle))
    (fine : idx < activityMax → (env.actvs idx).actvStatus = .idle ∧ memory = true ∨
      copy (env.actvs idx).param = (env.actvs idx).param)
    (known : idx < activityMax)
    (failed : (kept.runStep idx cmd mask callback (kept.request activityMax idx fit op actvIdx memory)).err ≠ .success) :
    (kept.runStep idx cmd mask callback (kept.request activityMax idx fit op actvIdx memory)).sent = [] ∧
      (kept.runStep idx cmd mask callback (kept.request activityMax idx fit op actvIdx memory)).env.actvs =
      env.actvs := by
  obtain ⟨sent, actvs⟩ := runStep_refused failed
  refine ⟨sent, actvs.trans ?_⟩
  rcases fine known with ⟨idle, there⟩ | same
  · rcases @request_spec _ activityMax kept idx fit op actvIdx memory with ⟨-, -, -, granted⟩ | ⟨never, -⟩
    · rw [granted] at failed
      exact absurd rfl failed
    · refine absurd ⟨known, ?_, there⟩ never
      rw [fit_iff, shape]
      simp only [Function.update_self]
      exact decide_eq_true idle
  · rw [shape, same]
    exact Function.update_eq_self _ _

theorem refused_of_fine (s : Sequence P) (call : Call P) (memory : Bool) (scope : call.advOrScan = true)
    (fine : call.Fine activityMax s.env memory) : Refused activityMax connectionMax s (.call call memory) := by
  intro failed
  cases call with
  | createAdvertising | createPeriodicAdvertising | startAdvertising | stopAdvertising | deleteAdvertising
  | createScaning | startScaning | stopScaning | deleteScaning | setPeriodicAdvData => exact single_refused failed
  | createExtendedAdvertising idx scannable connectable callback =>
    unfold Call.perform AppEnv.bkBleCreateExtendedAdvertising at *
    dsimp only at *
    split at failed
    next both =>
      rw [if_pos both]
      exact ⟨rfl, rfl⟩
    next one =>
      rw [if_neg one]
      exact single_refused failed
  | startPeriodicAdvertising idx callback =>
    unfold Call.perform AppEnv.bkBleStartPeriodicAdvertising at *
    dsimp only at *
    split at failed
    · exact absurd rfl failed
    next known =>
      rw [if_neg known]
      exact single_refused failed
  | setAdvData lenMax idx advLen callback =>
    unfold Call.perform AppEnv.bkBleSetAdvData at *
    dsimp only at *
    split at failed
    next long =>
      rw [if_pos long]
      exact ⟨rfl, rfl⟩
    next short =>
      rw [if_neg short]
      exact single_refused failed
  | setScanRspData lenMax idx scanLen callback =>
    unfold Call.perform AppEnv.bkBleSetScanRspData at *
    dsimp only at *
    split at failed
    next long =>
      rw [if_pos long]
      exact ⟨rfl, rfl⟩
    next short =>
      rw [if_neg short]
      exact single_refused failed
  | advStart idx copy callback =>
    unfold Call.perform AppEnv.bkBleAdvStart at *
    dsimp only at *
    split at failed
    next ready =>
      rw [if_pos ready]
      split at failed
      next known =>
        rw [if_pos known]
        exact start_refused rfl (fun _ => rfl) (fine ready) known failed
      next unknown =>
        rw [if_neg unknown]
        exact ⟨rfl, rfl⟩
    next busy =>
      rw [if_neg busy]
      exact ⟨rfl, rfl⟩
  | scanStart idx copy callback =>
    unfold Call.perform AppEnv.bkBleScanStart at *
    dsimp only at *
    split at failed
    next ready =>
      rw [if_pos ready]
      split at failed
      next known =>
        rw [if_pos known]
        exact start_refused rfl (fun _ => rfl) (fine ready) known failed
      next unknown =>
        rw [if_neg unknown]
        exact ⟨rfl, rfl⟩
    next busy =>
      rw [if_neg busy]
      exact ⟨rfl, rfl⟩
  | advStop idx callback =>
    unfold Call.perform AppEnv.bkBleAdvStop at *
    dsimp only at *
    split at failed
    next ready =>
      rw [if_pos ready]
      split at failed
      next known =>
        rw [if_pos known]
        exact runStep_refused failed
      next unknown =>
        rw [if_neg unknown]
        exact ⟨rfl, rfl⟩
    next busy =>
      rw [if_neg busy]
      exact ⟨rfl, rfl⟩
  | scanStop idx callback =>
    unfold Call.perform AppEnv.bkBleScanStop at *
    dsimp only at *
    split at failed
    next ready =>
      rw [if_pos ready]
      split at failed
      next known =>
        rw [if_pos known]
        exact runStep_refused failed
      next unknown =>
        rw [if_neg unknown]
        exact ⟨rfl, rfl⟩
    next busy =>
      rw [if_neg busy]
      exact ⟨rfl, rfl⟩
  | createPeriodicSync | startPeriodicSync | stopPeriodicSync | deletePeriodicSync | createInit | initStartConn
  | initStopConn | deleteInit => exact absurd scope Bool.false_ne_true

/-! ## Answers within the starting calls -/

theorem request_granted {state : ActvState} (known : idx < activityMax) (slot : (env.actvs idx).actvStatus = state)
    (fits : fit state = true) :
    env.request activityMax idx fit op actvIdx true = (.success, some ⟨op, 0, actvIdx⟩) := by
  rw [AppEnv.request, if_neg (Nat.not_le_of_lt known), slot, if_pos fits]
  rfl

/-- The message that follows, where the step before has succeeded. -/
theorem next_sent (step : InitStep) (start : step.op ≠ .createAdv ∧ step.op ≠ .createScan) (cmd : env.cmd = step.cmd)
    (mask : env.opMask = step.mask) (known : idx < activityMax) (slot : (env.actvs idx).actvStatus = step.slot) :
    env.appBleNextOperation activityMax idx true true = ⟨env, [⟨step.op, 0, env.gap idx⟩], []⟩ := by
  unfold AppEnv.appBleNextOperation
  rw [cmd, mask]
  cases step with
  | advCreate => exact absurd rfl start.1
  | scanCreate => exact absurd rfl start.2
  | advData =>
    have first : firstOp InitStep.advData.mask = opSetAdvDataPos := by decide
    dsimp only [InitStep.cmd]
    rw [if_pos ⟨by decide, rfl⟩, first, if_pos rfl, AppEnv.appBleSetAdvData, request_granted known slot (by decide)]
    rfl
  | advRsp =>
    have first : firstOp InitStep.advRsp.mask = opSetRspDataPos := by decide
    dsimp only [InitStep.cmd]
    rw [if_pos ⟨by decide, rfl⟩, first, if_neg (by decide), if_pos rfl, AppEnv.appBleSetScanRspData,
      request_granted known slot (by decide)]
    rfl
  | advStart =>
    have first : firstOp InitStep.advStart.mask = opStartAdvPos := by decide
    dsimp only [InitStep.cmd]
    rw [if_pos ⟨by decide, rfl⟩, first, if_neg (by decide), if_neg (by decide), if_pos rfl,
      AppEnv.appBleStartAdvertising, request_granted known slot (by decide)]
    rfl
  | scanStart =>
    have first : firstOp InitStep.scanStart.mask = opStartScanPos := by decide
    dsimp only [InitStep.cmd]
    rw [if_pos ⟨by decide, rfl⟩, first, if_pos rfl, AppEnv.appBleStartScaning, request_granted known slot (by decide)]
    rfl

/-- The last step has succeeded, or the activity's deletion. -/
theorem next_ended (step : InitStep) (cmd : env.cmd = step.cmd) (mask : env.opMask = 0) (memory : Bool) :
    env.appBleNextOperation activityMax idx true memory = env.finish idx true := by
  unfold AppEnv.appBleNextOperation
  rw [cmd, mask]
  cases step with
  | advCreate | advData | advRsp | advStart | scanCreate | scanStart =>
    dsimp only [InitStep.cmd]
    rw [if_neg fun both => both.1 rfl, AppEnv.finishInit, if_neg fun both => both.1 rfl]
    rfl

/-- The creation has failed. -/
theorem next_uncreated (step : InitStep) (cmd : env.cmd = step.cmd) (slot : (env.actvs idx).actvStatus = .idle)
    (memory : Bool) : env.appBleNextOperation activityMax idx false memory = env.finish idx false := by
  unfold AppEnv.appBleNextOperation
  rw [cmd]
  cases step with
  | advCreate | advData | advRsp | advStart | scanCreate | scanStart =>
    dsimp only [InitStep.cmd]
    rw [if_neg fun both => Bool.false_ne_true both.2, AppEnv.finishInit, slot, if_neg fun both => nomatch both.2]
    rfl

/-- A later step has failed: the activity is deleted. -/
theorem next_failed (step : InitStep) (cmd : env.cmd = step.cmd) (slot : (env.actvs idx).actvStatus = step.slot)
    (created : step.slot ≠ .idle) (known : idx < activityMax) (opCb : env.opCb = true) :
    env.appBleNextOperation activityMax idx false true =
      ⟨{ env with opMask := 0, opCb := false }, [⟨.delete, 0, env.gap idx⟩], [⟨env.cmd, idx, false⟩]⟩ := by
  unfold AppEnv.appBleNextOperation
  rw [cmd]
  cases step with
  | advCreate | scanCreate => exact absurd rfl created
  | advData | advRsp | advStart =>
    dsimp only [InitStep.cmd]
    rw [if_neg fun both => Bool.false_ne_true both.2, AppEnv.finishInit, if_pos ⟨nofun, slot⟩, opCb, cmd,
      AppEnv.appBleDeleteAdvertising, request_granted known slot (by decide)]
    rfl
  | scanStart =>
    dsimp only [InitStep.cmd]
    rw [if_neg fun both => Bool.false_ne_true both.2, AppEnv.finishInit, if_pos ⟨nofun, slot⟩, opCb, cmd,
      AppEnv.appBleDeleteScaning, request_granted known slot (by decide)]
    rfl

/-- The answer to a step before the last one, for an activity that is known. -/
theorem answer_step (step : InitStep) (start : step.op ≠ .start) (known : env.idx < activityMax)
    (status memory : Bool) :
    ∃ mask, env.gapmCmpEvt activityMax connectionMax 0 step.op status memory =
        (env.clearOps mask).appBleNextOperation activityMax env.idx status memory ∧
      ∀ later ∈ step.next, step.mask &&& ~~~mask = later.mask := by
  have inside : ¬activityMax ≤ env.idx := Nat.not_le_of_lt known
  cases step with
  | advStart | scanStart => exact absurd rfl start
  | advCreate =>
    refine ⟨bit opCreateAdvPos, if_neg inside, ?_⟩
    rintro _ ⟨rfl⟩
    decide
  | advData =>
    refine ⟨bit opSetAdvDataPos, if_neg inside, ?_⟩
    rintro _ ⟨rfl⟩
    decide
  | advRsp =>
    refine ⟨bit opSetRspDataPos, if_neg inside, ?_⟩
    rintro _ ⟨rfl⟩
    decide
  | scanCreate =>
    refine ⟨bit opCreateScanPos, if_neg inside, ?_⟩
    rintro _ ⟨rfl⟩
    decide

/-- The indication of a creation makes the activity's state the one of the next step. -/
theorem indicated_slot (step later : InitStep) (next : step.next = some later) (known : env.idx < activityMax)
    (slot : (env.actvs env.idx).actvStatus = step.slot) (actvIdx : Option UInt8) (gap : UInt8) (actvType : ActvType) :
    ((env.indicated activityMax connectionMax ⟨step.op, 0, actvIdx⟩ gap actvType).actvs env.idx).actvStatus =
      later.slot := by
  have low (actvType : ActvType) : ¬(AppEnv.Initing activityMax connectionMax 0 ∧ actvType = .init) :=
    fun both => not_initing (Nat.zero_lt_of_lt known) both.1
  have inside : ¬activityMax ≤ env.idx := Nat.not_le_of_lt known
  cases step with
  | advStart | scanStart => cases next
  | advData | advRsp =>
    cases next
    exact slot
  | advCreate | scanCreate =>
    cases next
    unfold AppEnv.indicated
    dsimp only [InitStep.op]
    rw [AppEnv.gapmActivityCreatedInd, if_neg (low _), if_neg inside]
    dsimp only [AppEnv.setActv]
    rw [Function.update_self]
    rfl

/-- The command of a call of the starting kind is over. -/
theorem finished_stands {log : Log} {base : List GapmOp} (ordered : StepsOrdered log.cmd log.opMask base)
    (told : log.told.length + (if env.opCb then 1 else 0) = if log.callback then 1 else 0) (sent : log.sent = base)
    (idx : Nat) (status : Bool) (other : AppEnv P) :
    Stands activityMax (Sequence.answered ⟨other, [], log⟩ [] (env.finish idx status)) := by
  refine .rest rfl (appBleReset_atRest env) ?_ ?_
  · rw [Sequence.answered, AppEnv.finish]
    dsimp only [Log.Ordered]
    rw [sent, List.map_nil, List.append_nil]
    exact ordered
  · rw [Sequence.answered, AppEnv.finish]
    dsimp only
    rw [List.length_append, ← told]
    congr 1
    split <;> rfl

/-- A step has succeeded. -/
theorem stands_of_success {log : Log} (step : InitStep) (actvIdx : Option UInt8) (gap : UInt8) (actvType : ActvType)
    (running : env.status = .cmdRunning) (cmd : env.cmd = step.cmd) (known : env.idx < activityMax)
    (opCb : env.opCb = log.callback) (mask : env.opMask = step.mask) (slot : (env.actvs env.idx).actvStatus = step.slot)
    (shape : log = ⟨step.cmd, step.whole, log.callback, step.sent, []⟩) (memory : Bool)
    (there : step.op ≠ .start → memory = true) (other : AppEnv P) :
    Stands activityMax (Sequence.answered ⟨other, [], log⟩ []
      ((env.indicated activityMax connectionMax ⟨step.op, 0,
        actvIdx⟩ gap actvType).gapmCmpEvt activityMax connectionMax 0
        step.op true memory)) := by
  obtain ⟨status', cmd', opCb', idx', mask'⟩ :=
    @indicated_same P activityMax connectionMax env ⟨step.op, 0, actvIdx⟩ gap actvType
  cases next : step.next with
  | some later =>
    have on : step.op ≠ .start ∧ later.op ≠ .createAdv ∧ later.op ≠ .createScan ∧ later.cmd = step.cmd ∧
        later.whole = step.whole ∧ step.sent ++ [later.op] = later.sent := by
      cases step <;> cases next <;> decide
    obtain ⟨start, notAdv, notScan, sameCmd, sameWhole, sent⟩ := on
    have slot' := @indicated_slot P activityMax connectionMax env step later next known slot actvIdx gap actvType
    generalize env.indicated activityMax connectionMax ⟨step.op, 0, actvIdx⟩ gap actvType = marked at *
    obtain ⟨cleared, evt, masks⟩ :=
      @answer_step P activityMax connectionMax marked step start (by rw [idx']; exact known) true memory
    have left : (marked.clearOps cleared).opMask = later.mask := by
      rw [AppEnv.clearOps, mask', mask]
      exact masks later next
    have following := @next_sent P activityMax (marked.clearOps cleared) env.idx later ⟨notAdv, notScan⟩
      (cmd'.trans (cmd.trans sameCmd.symm)) left known slot'
    rw [evt, there start, idx', following]
    refine .init later _ rfl (status'.trans running) (cmd'.trans (cmd.trans sameCmd.symm)) ?_ (opCb'.trans opCb) left ?_ ?_
    · dsimp only [Sequence.answered, AppEnv.clearOps]
      rw [idx']
      exact known
    · dsimp only [Sequence.answered, AppEnv.clearOps]
      rw [idx']
      exact slot'
    · dsimp only [Sequence.answered]
      rw [shape, sameCmd, sameWhole, ← sent]
      rfl
  | none =>
    have inside : ¬activityMax ≤ env.idx := Nat.not_le_of_lt known
    have low : ¬AppEnv.Initing activityMax connectionMax 0 := not_initing (Nat.zero_lt_of_lt known)
    have last : step.op = .start := by
      cases step <;> cases next <;> rfl
    have evt : (env.indicated activityMax connectionMax ⟨step.op, 0, actvIdx⟩ gap actvType).gapmCmpEvt activityMax
        connectionMax 0 step.op true memory = env.started.appBleNextOperation activityMax env.idx true memory := by
      rw [last]
      exact (if_neg low).trans (if_neg inside)
    obtain ⟨started, spent⟩ : (env.started.cmd = step.cmd ∧ env.started.opCb = env.opCb) ∧ env.started.opMask = 0 := by
      unfold AppEnv.started
      rw [cmd]
      cases step with
      | advCreate | advData | advRsp | scanCreate => cases next
      | advStart | scanStart =>
        refine ⟨⟨cmd, rfl⟩, ?_⟩
        dsimp only [InitStep.cmd, AppEnv.clearOps, AppEnv.setActv]
        rw [mask]
        decide
    rw [evt, next_ended step started.1 spent]
    apply finished_stands
    · rw [shape]
      exact step.ordered
    · rw [started.2, opCb, shape]
      exact Nat.zero_add _
    · rw [shape]

/-- A step has failed. -/
theorem stands_of_failure {log : Log} (step : InitStep) (running : env.status = .cmdRunning) (cmd : env.cmd = step.cmd)
    (known : env.idx < activityMax) (opCb : env.opCb = log.callback)
    (slot : (env.actvs env.idx).actvStatus = step.slot)
    (shape : log = ⟨step.cmd, step.whole, log.callback, step.sent, []⟩)
    (memory : Bool) (there : step.slot ≠ .idle → memory = true ∧ env.opCb = true) (other : AppEnv P) :
    Stands activityMax
      (Sequence.answered ⟨other, [], log⟩ [] (env.gapmCmpEvt activityMax connectionMax 0 step.op false memory)) := by
  have inside : ¬activityMax ≤ env.idx := Nat.not_le_of_lt known
  have low : ¬AppEnv.Initing activityMax connectionMax 0 := not_initing (Nat.zero_lt_of_lt known)
  obtain ⟨next, evt, cmd', opCb', idx', slot', status'⟩ : ∃ next : AppEnv P,
      env.gapmCmpEvt activityMax connectionMax 0 step.op false memory =
        next.appBleNextOperation activityMax env.idx false memory ∧ next.cmd = step.cmd ∧ next.opCb = env.opCb ∧
        next.idx = env.idx ∧ (next.actvs env.idx).actvStatus = step.slot ∧ next.status = .cmdRunning := by
    by_cases start : step.op = .start
    · refine ⟨env, ?_, cmd, rfl, rfl, slot, running⟩
      rw [start]
      exact (if_neg low).trans (if_neg inside)
    · obtain ⟨mask, evt, -⟩ := @answer_step P activityMax connectionMax env step start known false memory
      exact ⟨env.clearOps mask, evt, cmd, rfl, rfl, slot, running⟩
  rw [evt]
  by_cases created : step.slot = .idle
  · rw [next_uncreated step cmd' (slot'.trans created)]
    apply finished_stands
    · rw [shape]
      exact step.ordered
    · rw [opCb', opCb, shape]
      exact Nat.zero_add _
    · rw [shape]
  · obtain ⟨rfl, callback⟩ := there created
    rw [next_failed step cmd' slot' created known (opCb'.trans callback)]
    refine .cleanUp step (next.gap env.idx) rfl status' cmd' (by dsimp only [Sequence.answered]; rw [idx']; exact known) rfl rfl (opCb.symm.trans callback) ?_ ?_
    · dsimp only [Sequence.answered]
      rw [shape]
      rfl
    · dsimp only [Sequence.answered]
      rw [shape]
      rfl

theorem stands_of_answer {t : Sequence P} {gap : UInt8} {actvType : ActvType} {status : Bool}
    (stands : Stands activityMax s) (fine : s.Fine activityMax (.answer gap actvType status memory))
    (taken : Sequence.step activityMax connectionMax (.answer gap actvType status memory) s = some t) :
    Stands activityMax t := by
  obtain ⟨env, queue, log⟩ := s
  cases stands with
  | rest empty =>
    dsimp only at empty
    rw [empty] at taken
    cases taken
  | single op actvIdx first running single op_ne known opCb ordered told =>
    dsimp only at first running single known opCb ordered told
    subst first
    obtain rfl := Option.some.inj taken
    obtain ⟨marked, eq, cmd', opCb', idx'⟩ : ∃ marked : AppEnv P,
        (if status then env.indicated activityMax connectionMax ⟨op, 0, actvIdx⟩ gap actvType else env) = marked ∧
          marked.cmd = env.cmd ∧ marked.opCb = env.opCb ∧ marked.idx = env.idx := by
      refine ⟨_, rfl, ?_⟩
      split
      · obtain ⟨-, cmd', opCb', idx', -⟩ :=
          @indicated_same P activityMax connectionMax env ⟨op, 0, actvIdx⟩ gap actvType
        exact ⟨cmd', opCb', idx'⟩
      · exact ⟨rfl, rfl, rfl⟩
    obtain ⟨rest, sent, tells⟩ := @answer_single P activityMax connectionMax marked op (by rw [cmd']; exact single)
      (by rw [idx']; exact known) op_ne status memory
    rw [eq]
    refine .rest ?_ rest ?_ ?_
    · rw [Sequence.answered, sent]
      rfl
    · dsimp only [Sequence.answered, Log.Ordered]
      rw [sent, List.map_nil, List.append_nil]
      exact ordered
    · dsimp only [Sequence.answered]
      rw [tells, told, opCb', opCb, List.nil_append]
      by_cases called : log.callback = true
      · rw [if_pos called]
        exact (if_pos called).symm
      · rw [if_neg called]
        exact (if_neg called).symm
  | init step actvIdx first running cmd known opCb mask slot shape =>
    dsimp only at first running cmd known opCb mask slot shape
    subst first
    obtain rfl := Option.some.inj taken
    have within : env.cmd = .initAdv ∨ env.cmd = .initScan := cmd ▸ step.cmd_init
    have fine := fine within _ rfl
    dsimp only at fine
    cases status with
    | true =>
      refine stands_of_success step actvIdx gap actvType running cmd known opCb mask slot shape memory ?_ env
      cases step with
      | advCreate | scanCreate => exact fun _ => fine rfl
      | advData | advRsp => exact fun _ => fine.1
      | advStart | scanStart => exact fun start => absurd rfl start
    | false =>
      refine stands_of_failure step running cmd known opCb slot shape memory ?_ env
      cases step with
      | advCreate | scanCreate => exact fun created => absurd rfl created
      | advData | advRsp => exact fun _ => ⟨fine.1, fine.2 rfl⟩
      | advStart | scanStart => exact fun _ => fine rfl
  | cleanUp step actvIdx first running cmd known opCb mask callback told shape =>
    dsimp only at first running cmd known opCb mask callback told shape
    subst first
    obtain rfl := Option.some.inj taken
    have within : env.cmd = .initAdv ∨ env.cmd = .initScan := cmd ▸ step.cmd_init
    obtain rfl : status = true := fine within _ rfl
    have inside : ¬activityMax ≤ env.idx := Nat.not_le_of_lt known
    have low : ¬AppEnv.Initing activityMax connectionMax 0 := not_initing (Nat.zero_lt_of_lt known)
    have unchanged : env.deleted = env := by
      unfold AppEnv.deleted
      rw [cmd]
      cases step <;> rfl
    have evt : env.gapmCmpEvt activityMax connectionMax 0 .delete true memory = env.finish env.idx true := by
      refine (if_neg low).trans ((if_neg inside).trans ?_)
      rw [unchanged]
      exact next_ended step cmd mask memory
    change Stands activityMax (Sequence.answered ⟨env, _,
      log⟩ [] (env.gapmCmpEvt activityMax connectionMax 0 .delete true memory))
    rw [evt]
    refine finished_stands ?_ ?_ rfl env.idx true env
    · rw [shape]
      exact step.ordered_cleanUp
    · rw [opCb, told, callback]
      rfl

/-! ## Runs -/

theorem start_stands (param : P) : Stands activityMax (Sequence.start param) :=
  .rest rfl ⟨rfl, rfl, rfl⟩ ⟨.nil, .inl rfl⟩ rfl

theorem stands_of_step {t : Sequence P} {event : Event P} (stands : Stands activityMax s)
    (fine : s.Fine activityMax event)
    (taken : Sequence.step activityMax connectionMax event s = some t) : Stands activityMax t := by
  cases event with
  | call call memory =>
    obtain ⟨scope, same⟩ := Option.ite_none_right_eq_some.mp taken
    obtain rfl := Option.some.inj same
    exact stands_of_call stands call memory scope fine
  | answer gap actvType status memory => exact stands_of_answer stands fine taken

section Runs
variable {param : P} {moments : List (Moment (Sequence P) (Event P))} {final : Sequence P}

/-- In every run whose steps are fine the calls send their steps in order, tell their
callbacks once and leave the application ready, and calls that fail do nothing. -/
theorem sequenced_of_fine
    (run : Run (Machine.Step (Sequence.step activityMax connectionMax)) (Sequence.start param) moments final)
    (fine : ∀ moment ∈ moments, moment.before.Fine activityMax moment.event) :
    Machine.Always Sequenced moments final ∧
      ∀ moment ∈ moments, Refused activityMax connectionMax moment.before moment.event := by
  have always := @Machine.always_of_invariant _ _ _ _ _ _ (Stands activityMax)
    (fun s event => s.Fine activityMax event) run (start_stands param)
    (fun stands fine taken => stands_of_step stands fine taken) fine
  refine ⟨always.mono fun s stands => stands.sequenced, ?_⟩
  clear always
  induction run with
  | nil => exact fun _ never => absurd never List.not_mem_nil
  | @next moments middle final moment _ last ih =>
    obtain ⟨rfl, taken⟩ := last
    refine List.forall_mem_cons.mpr ⟨?_, ih fun m member => fine m (List.mem_cons_of_mem _ member)⟩
    have ok := fine _ List.mem_cons_self
    cases event : moment.event with
    | call call memory =>
      rw [event] at taken ok
      exact refused_of_fine _ call memory (Option.ite_none_right_eq_some.mp taken).1 ok
    | answer gap actvType status memory => trivial

end Runs

/-! ## Sample runs -/

instance (env : AppEnv P) (status memory : Bool) (op : GapmOp) : Decidable (AnswerFine env status memory op) := by
  cases op <;> unfold AnswerFine <;> infer_instance

instance [DecidableEq P] (env : AppEnv P) (memory : Bool) (call : Call P) :
    Decidable (call.Fine activityMax env memory) := by
  cases call <;> unfold Call.Fine <;> infer_instance

instance [DecidableEq P] (s : Sequence P) (event : Event P) : Decidable (s.Fine activityMax event) := by
  cases event <;> unfold Sequence.Fine <;> infer_instance

def succeeds : Event Unit := .answer 0 .adv true true

/-- Advertising is started, the latest event first. -/
def advStarted : List (Event Unit) :=
  [succeeds, succeeds, succeeds, succeeds, .call (.advStart 0 id true) true]

/-- The call has sent its four steps, and its callback has been called. -/
theorem adv_start_sequenced :
    ∃ moments final, Run (Machine.Step (Sequence.step 3 2)) (Sequence.start ()) moments final ∧
      moments.map Moment.event = advStarted ∧
      (Machine.Always Sequenced moments final ∧ ∀ moment ∈ moments, Refused 3 2 moment.before moment.event) ∧
      final.log.sent = [.createAdv, .setAdvData, .setScanRspData, .start] := by
  have found : (Machine.replay (Machine.guarded (fun s event => s.Fine 3 event) (Sequence.step 3 2))
      (Sequence.start ()) advStarted).any
      (fun s => s.log.sent = [.createAdv, .setAdvData, .setScanRspData, .start]) = true := by
    decide
  obtain ⟨moments, final, run, same, fine, shown⟩ := Machine.run_of_fine found
  exact ⟨moments, final, run, same, sequenced_of_fine run fine, of_decide_eq_true shown⟩

/-- The deletion that bk_ble_adv_stop sends is sent again when it has succeeded. -/
theorem adv_stop_deletes_again :
    ¬∀ (moments : List (Moment (Sequence Unit) (Event Unit))) (final : Sequence Unit),
      Run (Machine.Step (Sequence.step 3 2)) (Sequence.start ()) moments final →
        Machine.Always Sequenced moments final ∧ ∀ moment ∈ moments, Refused 3 2 moment.before moment.event := by
  intro all
  have found : (Machine.replay (Sequence.step 3 2) (Sequence.start ())
      (succeeds :: succeeds :: .call (.advStop 0 true) true :: advStarted)).any
      (fun s => s.log.cmd = .deinitAdv ∧ s.log.opMask = bit opStopAdvPos ||| bit opDelAdvPos ∧
        s.log.sent = [.stop, .delete, .delete]) = true := by
    decide
  obtain ⟨moments, final, run, _, shown⟩ := Machine.run_of_any found
  obtain ⟨cmd, mask, sent⟩ := of_decide_eq_true shown
  have ordered := (all moments final run).1.2.ordered.increasing
  rw [cmd, mask, sent] at ordered
  exact absurd ordered (by decide)

end BekenSdk.BleApp
