import BekenSdk.Base.Arena
import BekenSdk.Base.Machine

/-! Frames that wait while their receiver is in power save (`rw_tx_buffering.c`
with `CFG_TX_BUFING`, and `rwm_transfer`). A client is a station of an access
point; all frames of station interfaces share one more client.
-/

set_option autoImplicit false

namespace BekenSdk.TxBuffering
open Base

inductive VifType where
  | sta
  | ibss
  | ap
  | meshPoint
  | unknown
  deriving DecidableEq

namespace VifType

def code : VifType → UInt32
  | sta => 0
  | ibss => 1
  | ap => 2
  | meshPoint => 3
  | unknown => 4

def ofCode (code : UInt32) : Option VifType :=
  if code = 0 then some sta else if code = 1 then some ibss else if code = 2 then some ap
  else if code = 3 then some meshPoint else if code = 4 then some unknown else none

end VifType

def maxBufingClientNum : Nat := 2
def maxTxbufferCount : Nat := 15
def broadcastStaIdxMin : Nat := 2
def txBufingSrcStaPs : UInt32 := 1
def txBufingSrcP2pPs : UInt32 := 16

/-- What the layer asks of the interface and station tables, and of the P2P
module. It may be another one at every call. -/
structure Env where
  vifPresent : Nat → Bool
  vifType : Nat → VifType
  apId : Nat → Nat
  staMac2idx : Nat → Nat
  instNbr : Nat → Nat
  psModeOn : Nat → Bool
  p2pIsPresent : Nat → Bool

/-- `bufing_gc_sta`, or an element of `bufing_go_sap`. -/
inductive Client where
  | gcSta
  | goSap (clientIdx : Nat)
  deriving DecidableEq

structure TxBufingClient where
  timerRunning : Bool
  cntrlSrc : UInt32
  bufingList : List Nat

/-- The last field is not there: it is the client that the frame was for when it
was submitted. -/
structure MsduNode where
  vifIdx : Nat
  staIdx : Nat
  client : Option Client

inductive TxuCntrl where
  | none
  | moreData
  | retryImmediately
  deriving DecidableEq

inductive RwStatus where
  | rwSuccess
  | rwFailure
  deriving DecidableEq

/-- `g_tx_bufing`, with the messages to the core task that ask for a restore, and
the nodes that `rwm_transfer_node` was given, the latest first. -/
structure TxBufing where
  txBufingEn : Bool
  chain : Client → TxBufingClient
  bmsgs : List UInt32
  txUseLowRateOnce : Bool
  memory : Arena MsduNode
  sent : List (Nat × TxuCntrl)

namespace TxBufing

def init (memory : Nat → MsduNode) : TxBufing where
  txBufingEn := true
  chain := fun _ => ⟨false, 0, []⟩
  bmsgs := []
  txUseLowRateOnce := false
  memory := Arena.empty memory
  sent := []

def setClient (client : Client) (value : TxBufingClient) (s : TxBufing) : TxBufing :=
  { s with chain := Function.update s.chain client value }

def setList (client : Client) (nodes : List Nat) (s : TxBufing) : TxBufing :=
  s.setClient client { s.chain client with bufingList := nodes }

def setTimer (client : Client) (running : Bool) (s : TxBufing) : TxBufing :=
  s.setClient client { s.chain client with timerRunning := running }

def setCntrlSrc (client : Client) (src : UInt32) (s : TxBufing) : TxBufing :=
  s.setClient client { s.chain client with cntrlSrc := src }

def osFree (node : Nat) (s : TxBufing) : TxBufing := { s with memory := s.memory.free node }

/-- The lower transmit path takes the node over. -/
def rwmTransferNode (node : Nat) (flag : TxuCntrl) (s : TxBufing) : TxBufing :=
  { s with memory := s.memory.access node, sent := (node, flag) :: s.sent }

/-- The message is lost when the queue of the core task is full. -/
def bmsgTxBufingSender (room : Bool) (cidAndFlag : UInt32) (s : TxBufing) : TxBufing :=
  if room then { s with bmsgs := s.bmsgs ++ [cidAndFlag] } else s

def rwmGetBufingRole (triggerSource : UInt32) : VifType :=
  if triggerSource = txBufingSrcP2pPs then .sta
  else if triggerSource = txBufingSrcStaPs then .ap
  else .unknown

/-- `rwm_get_bufing_list` and `rwm_get_bufing_timer` are its fields. -/
def rwmGetBufingChain (clientIdx : Nat) : VifType → Option Client
  | .sta => some .gcSta
  | .ap => some (.goSap clientIdx)
  | _ => none

def rwmGetClientBufingCount (clientIdx : Nat) (flag : VifType) (s : TxBufing) : Nat :=
  match rwmGetBufingChain clientIdx flag with
  | none => 0
  | some client => if maxBufingClientNum ≤ clientIdx then 0 else (s.chain client).bufingList.length

def rwmPopBufingData (clientIdx : Nat) (flag : VifType) (s : TxBufing) : Option Nat × TxBufing :=
  match rwmGetBufingChain clientIdx flag with
  | none => (none, s)
  | some client =>
    if maxBufingClientNum ≤ clientIdx then (none, s)
    else
      match (s.chain client).bufingList with
      | [] => (none, s)
      | node :: others => (some node, s.setList client others)

def addTail (node clientIdx : Nat) (flag : VifType) (s : TxBufing) : TxBufing :=
  match rwmGetBufingChain clientIdx flag with
  | none => s
  | some client =>
    if maxBufingClientNum ≤ clientIdx then s else s.setList client ((s.chain client).bufingList ++ [node])

/-- A full list loses its oldest node. -/
def rwmPushBufingData (node clientIdx : Nat) (flag : VifType) (s : TxBufing) : TxBufing :=
  if maxTxbufferCount ≤ s.rwmGetClientBufingCount clientIdx flag then
    match s.rwmPopBufingData clientIdx flag with
    | (none, s) => s
    | (some discard, s) => (s.osFree discard).addTail node clientIdx flag
  else s.addTail node clientIdx flag

/-- The rounds of the `while` loop: one for every node. -/
def flushRounds (clientIdx : Nat) (flag : VifType) : Nat → TxBufing → TxBufing
  | 0, s => s
  | rounds + 1, s =>
    match s.rwmPopBufingData clientIdx flag with
    | (none, s) => s
    | (some node, s) => flushRounds clientIdx flag rounds (s.osFree node)

def rwmFlushBufingList (clientIdx : Nat) (flag : VifType) (s : TxBufing) : TxBufing :=
  match rwmGetBufingChain clientIdx flag with
  | none => s
  | some client =>
    if maxBufingClientNum ≤ clientIdx then s
    else (s.flushRounds clientIdx flag (s.rwmGetClientBufingCount clientIdx flag)).setTimer client false

/-- The write is not guarded by the index: the element after the last one of
`bufing_go_sap` is `bufing_gc_sta`, and the ones after it are foreign. -/
def clearCntrlSrc (s : TxBufing) : Client → TxBufing
  | .gcSta => s.setCntrlSrc .gcSta 0
  | .goSap clientIdx =>
    if clientIdx < maxBufingClientNum then s.setCntrlSrc (.goSap clientIdx) 0
    else if clientIdx = maxBufingClientNum then s.setCntrlSrc .gcSta 0
    else s

/-- For an interface of another type the pointer is `NULL` where it is written. -/
def rwmTxBufingEnd (env : Env) (clientIdx : Nat) (s : TxBufing) : Option TxBufing :=
  let flag := env.vifType (env.instNbr clientIdx)
  (rwmGetBufingChain clientIdx flag).map fun client => (s.clearCntrlSrc client).rwmFlushBufingList clientIdx flag

def rwmTriggerTxBufingStart (triggerSource : UInt32) (clientIdx : Nat) (s : TxBufing) : TxBufing :=
  if maxBufingClientNum ≤ clientIdx ∨ triggerSource = 0 then s
  else
    match rwmGetBufingChain clientIdx (rwmGetBufingRole triggerSource) with
    | none => s
    | some client => (s.setCntrlSrc client ((s.chain client).cntrlSrc ||| triggerSource)).setTimer client true

def rwmTriggerTxBufingStop (triggerSource : UInt32) (clientIdx : Nat) (room : Bool) (s : TxBufing) : TxBufing :=
  let flag := rwmGetBufingRole triggerSource
  if maxBufingClientNum ≤ clientIdx ∨ triggerSource = 0 then s
  else
    match rwmGetBufingChain clientIdx flag with
    | none => s
    | some client =>
      if (s.chain client).cntrlSrc &&& triggerSource = 0 then s
      else
        let s := s.setCntrlSrc client ((s.chain client).cntrlSrc &&& ~~~triggerSource)
        if (s.chain client).cntrlSrc ≠ 0 then s
        else if 0 < s.rwmGetClientBufingCount clientIdx flag then
          (s.bmsgTxBufingSender room (flag.code <<< 8 ||| UInt32.ofNat clientIdx)).setTimer client false
        else s.setTimer client false

def rwmGcTxBufingTimeout (s : TxBufing) : TxBufing := s.rwmFlushBufingList 0 .sta

def rwmTxBufingTimeout (clientIdx : Nat) (s : TxBufing) : TxBufing := s.rwmFlushBufingList clientIdx .ap

/-- The client index is the station index, for all types of interfaces. -/
def rwmTxBufingSaveData (env : Env) (node vifIdx staIdx : Nat) (s : TxBufing) : TxBufing :=
  let flag := env.vifType vifIdx
  match rwmGetBufingChain staIdx flag with
  | none => s
  | some client =>
    if maxBufingClientNum ≤ staIdx then s
    else if s.rwmGetClientBufingCount staIdx flag = 0 then
      (s.setTimer client true).rwmPushBufingData node staIdx flag
    else s.rwmPushBufingData node staIdx flag

/-- What is done once the node is off the list. -/
def resend (cidAndFlag : UInt32) (room : Bool) (client : Client) (node left : Nat) (s : TxBufing) : TxBufing :=
  let s := s.rwmTransferNode node .moreData
  if left ≠ 0 ∧ (s.chain client).cntrlSrc = 0 then s.bmsgTxBufingSender room cidAndFlag else s

def restoreClient (env : Env) (cidAndFlag : UInt32) (clientIdx : Nat) (flag : VifType) (room : Bool) (s : TxBufing) :
    TxBufing :=
  match rwmGetBufingChain clientIdx flag with
  | none => s
  | some client =>
    if maxBufingClientNum ≤ clientIdx ∨ s.txBufingEn = false then s
    else if env.psModeOn clientIdx ∨ (s.chain client).cntrlSrc ≠ 0 ∨ env.p2pIsPresent clientIdx = false then s
    else
      match s.rwmPopBufingData clientIdx flag with
      | (none, s) => s
      | (some node, s) => s.resend cidAndFlag room client node (s.rwmGetClientBufingCount clientIdx flag)

def rwmTxBufingRestoreData (env : Env) (cidAndFlag : UInt32) (room : Bool) (s : TxBufing) : TxBufing :=
  match VifType.ofCode ((cidAndFlag &&& 0xff00) >>> 8) with
  | none => s
  | some flag => s.restoreClient env cidAndFlag (cidAndFlag &&& 0xff).toNat flag room

/-- The client index is the interface index for a station interface. -/
def rwmCheckTxBufing (env : Env) (vifIdx staIdx : Nat) (s : TxBufing) : Bool :=
  let flag := env.vifType vifIdx
  let clientIdx := if flag = .sta then vifIdx else staIdx
  match rwmGetBufingChain clientIdx flag with
  | none => false
  | some client =>
    if maxBufingClientNum ≤ clientIdx ∨ s.txBufingEn = false then false
    else if (s.chain client).cntrlSrc = 0 then false
    else true

end TxBufing

def Env.rwmMgmtTxGetStaidx (env : Env) (vifIdx dstmac : Nat) : Nat :=
  let staid :=
    if env.vifPresent vifIdx then
      match env.vifType vifIdx with
      | .sta => env.apId vifIdx
      | .ap => env.staMac2idx dstmac
      | _ => 0xff
    else 0xff
  if staid = 0xff then (broadcastStaIdxMin + vifIdx) % 256 else staid

namespace TxBufing

/-- The node is taken off the low-rate flag's account, and sent at once. -/
def sendNow (node : Nat) (s : TxBufing) : TxBufing :=
  if s.txUseLowRateOnce then { s with txUseLowRateOnce := false }.rwmTransferNode node .retryImmediately
  else s.rwmTransferNode node .none

def rwmTxNodeAlloc (node : MsduNode) (s : TxBufing) : TxBufing := { s with memory := s.memory.alloc node }

/-- `allocated` tells if there is memory for the node. -/
def rwmTransfer (env : Env) (vifIdx dstmac : Nat) (allocated : Bool) (s : TxBufing) : RwStatus × TxBufing :=
  let staIdx := env.rwmMgmtTxGetStaidx vifIdx dstmac
  let node := s.memory.count
  if allocated = false then (.rwFailure, s)
  else
    let s := s.rwmTxNodeAlloc ⟨vifIdx, staIdx, rwmGetBufingChain staIdx (env.vifType vifIdx)⟩
    if s.rwmCheckTxBufing env vifIdx staIdx then (.rwSuccess, s.rwmTxBufingSaveData env node vifIdx staIdx)
    else (.rwFailure, s.sendNow node)

end TxBufing

/-! ## Events -/

/-- A restore may also be asked for without a message. -/
inductive Event where
  | transfer (env : Env) (vifIdx dstmac : Nat) (allocated : Bool)
  | useLowRateOnce
  | start (triggerSource : UInt32) (clientIdx : Nat)
  | stop (triggerSource : UInt32) (clientIdx : Nat) (room : Bool)
  | restore (env : Env) (cidAndFlag : UInt32) (room : Bool)
  | bmsg (env : Env) (room : Bool)
  | gcTimeout
  | timeout (clientIdx : Nat)
  | ending (env : Env) (clientIdx : Nat)

namespace TxBufing

def step : Event → TxBufing → Option TxBufing
  | .transfer env vifIdx dstmac allocated, s => some (s.rwmTransfer env vifIdx dstmac allocated).2
  | .useLowRateOnce, s => some { s with txUseLowRateOnce := true }
  | .start triggerSource clientIdx, s => some (s.rwmTriggerTxBufingStart triggerSource clientIdx)
  | .stop triggerSource clientIdx room, s => some (s.rwmTriggerTxBufingStop triggerSource clientIdx room)
  | .restore env cidAndFlag room, s => some (s.rwmTxBufingRestoreData env cidAndFlag room)
  | .bmsg env room, s =>
    match s.bmsgs with
    | [] => none
    | cidAndFlag :: others => some ({ s with bmsgs := others }.rwmTxBufingRestoreData env cidAndFlag room)
  | .gcTimeout, s => if (s.chain .gcSta).timerRunning then some s.rwmGcTxBufingTimeout else none
  | .timeout clientIdx, s =>
    if (s.chain (.goSap clientIdx)).timerRunning then some (s.rwmTxBufingTimeout clientIdx) else none
  | .ending env clientIdx, s => s.rwmTxBufingEnd env clientIdx

end TxBufing

end BekenSdk.TxBuffering
