import BekenSdk.Base.Bytes
import BekenSdk.Base.LinkedList
import BekenSdk.Base.Machine

/-! Requests to the Wi-Fi core and their confirms (rw_msg_tx.c, rw_msg_rx.c).
Any number of calls of `rw_msg_send` wait at the same time, each with its
`MSG_SND_NODE` on `rw_msg_tx_head`, while one task runs `rwnx_recv_msg`. A step is
one critical section, one call of the system or what lies between two of them.
-/

set_option autoImplicit false

namespace BekenSdk.RwMsg
open Base

structure KeMsg where
  id : UInt16
  param : List UInt8
  deriving DecidableEq

/-- How far a call of `rw_msg_send` is. Its node has the name of the call. -/
inductive Stage where
  | uncalled
  /-- Returned without a node: there was no `cfm`, or no memory. -/
  | unlisted (ret : Int)
  | allocated
  | pushed
  | waiting
  /-- `rtos_get_semaphore` gave up. -/
  | expired
  | signalled
  /-- `bmsg_ioctl_sender` gave an error. -/
  | failed
  /-- Expired, and the node is off the list. -/
  | removed
  | freed (ret : Int)
  | returned (ret : Int)
  deriving DecidableEq

/-- Where `rwnx_recv_msg` is with a message. -/
inductive Receiver where
  | idle
  | popped (rxMsg : KeMsg)
  | standing (rxMsg : KeMsg) (txNode : Nat)
  /-- The node waits for another message. -/
  | passing (rxMsg : KeMsg) (txNode : Nat)
  | found (rxMsg : KeMsg) (txNode : Nat)
  | extracted (rxMsg : KeMsg) (txNode : Nat)
  | copied (rxMsg : KeMsg) (txNode : Nat)
  | unmatched (rxMsg : KeMsg)
  | handled (rxMsg : KeMsg)
  deriving DecidableEq

inductive Event where
  /-- `rw_msg_send` with a `cfm`, up to the semaphore of the node. -/
  | call (n : Nat) (reqid : UInt16) (memory : Bool)
  /-- `rw_msg_send` without a `cfm`. -/
  | post (n : Nat) (sent : Bool)
  | push (n : Nat)
  | send (n : Nat) (sent : Bool)
  | get (n : Nat)
  | expire (n : Nat)
  | extract (n : Nat)
  /-- The semaphore and the node are given back. -/
  | release (n : Nat)
  | leave (n : Nat)
  /-- `mr_kmsg_fwd`. -/
  | forward (rxMsg : KeMsg)
  | pop
  | pick
  | compare
  | next
  | take
  | copy
  | signal
  /-- `rwnx_handle_recv_msg`. -/
  | handle
  | discard

/-- The state: the calls with their nodes and buffers, the two lists, and the receive
task. `confirms` has what was found for which node, the latest first, and `late` the
nodes that the task touched when they were no longer there. -/
structure Exchange where
  stage : Nat → Stage
  reqid : Nat → UInt16
  semaphore : Nat → Bool
  cfm : Nat → Cells
  rwMsgTxHead : LinkedList
  rwMsgRxHead : List KeMsg
  receiver : Receiver
  confirms : List (Nat × KeMsg)
  late : List Nat

namespace Stage

/-- The node has been on the list. -/
def submitted : Stage → Bool
  | uncalled | unlisted _ | allocated => false
  | _ => true

def holdsNode : Stage → Bool
  | uncalled | unlisted _ | freed _ | returned _ => false
  | _ => true

def gone : Stage → Bool
  | freed _ | returned _ => true
  | _ => false

/-- What the call returns when it gives its node back next. -/
def exit : Stage → Option Int
  | signalled => some 0
  | failed => some (-1)
  | removed => some (-1)
  | _ => none

end Stage

namespace Exchange

/-- Buffers hold anything at first. -/
def init (cfm : Nat → Cells) : Exchange :=
  ⟨fun _ => .uncalled, fun _ => 0, fun _ => false, cfm, .empty, [], .idle, [], []⟩

def setStage (n : Nat) (stage : Stage) (s : Exchange) : Exchange :=
  { s with stage := Function.update s.stage n stage }

/-- The receive task reads or writes nodes. -/
def touch (nodes : List Nat) (s : Exchange) : Exchange :=
  { s with late := nodes.filter (fun n => (s.stage n).gone) ++ s.late }

/-- One step of a call of `rw_msg_send`. -/
def requestStep (keeps : List Nat → Nat → Option Nat) : Event → Exchange → Option Exchange
  | .call n reqid memory, s =>
    if s.stage n = .uncalled then
      some (if memory then
        { s.setStage n .allocated with
          reqid := Function.update s.reqid n reqid
          semaphore := Function.update s.semaphore n false }
      else
        s.setStage n (.unlisted (-1)))
    else
      none
  | .post n sent, s =>
    if s.stage n = .uncalled then some (s.setStage n (.unlisted (if sent then 0 else -1))) else none
  | .push n, s =>
    if s.stage n = .allocated then
      some { s.setStage n .pushed with rwMsgTxHead := s.rwMsgTxHead.pushBack n }
    else
      none
  | .send n sent, s =>
    if s.stage n = .pushed then some (s.setStage n (if sent then .waiting else .failed)) else none
  | .get n, s =>
    if s.stage n = .waiting ∧ s.semaphore n = true then
      some { s.setStage n .signalled with semaphore := Function.update s.semaphore n false }
    else
      none
  | .expire n, s =>
    if s.stage n = .waiting ∧ s.semaphore n = false then some (s.setStage n .expired) else none
  | .extract n, s =>
    if s.stage n = .expired then
      some { s.setStage n .removed with rwMsgTxHead := s.rwMsgTxHead.extract keeps n }
    else
      none
  -- after a send that failed, too, the node goes without a look at the list
  | .release n, s => (s.stage n).exit.map fun ret => s.setStage n (.freed ret)
  | .leave n, s =>
    match s.stage n with
    | .freed ret => some (s.setStage n (.returned ret))
    | _ => none
  | _, _ => none

/-- One step of `rwnx_recv_msg`. The message found is off `rw_msg_rx_head` already,
so that only the node is to be extracted. -/
def receiveStep (keeps : List Nat → Nat → Option Nat) (event : Event) (s : Exchange) : Option Exchange :=
  match event, s.receiver with
  | .pop, .idle =>
    match s.rwMsgRxHead with
    | rxMsg :: rest => some { s with rwMsgRxHead := rest, receiver := .popped rxMsg }
    | [] => none
  | .pick, .popped rxMsg =>
    match s.rwMsgTxHead.pick with
    | some txNode => some { s with receiver := .standing rxMsg txNode }
    | none => some { s with receiver := .unmatched rxMsg }
  | .compare, .standing rxMsg txNode =>
    some { s.touch [txNode] with
      receiver := if rxMsg.id = s.reqid txNode then .found rxMsg txNode else .passing rxMsg txNode }
  | .next, .passing rxMsg txNode =>
    match s.rwMsgTxHead.next txNode with
    | some after => some { s.touch [txNode] with receiver := .standing rxMsg after }
    | none => some { s.touch [txNode] with receiver := .unmatched rxMsg }
  | .take, .found rxMsg txNode =>
    some { s.touch (s.rwMsgTxHead.searched txNode) with
      rwMsgTxHead := s.rwMsgTxHead.extract keeps txNode
      receiver := .extracted rxMsg txNode
      confirms := (txNode, rxMsg) :: s.confirms }
  | .copy, .extracted rxMsg txNode =>
    some { s.touch [txNode] with
      cfm :=
        if rxMsg.param.length = 0 then s.cfm
        else Function.update s.cfm txNode (storeBytes (s.cfm txNode) 0 rxMsg.param)
      receiver := .copied rxMsg txNode }
  | .signal, .copied rxMsg txNode =>
    some { s.touch [txNode] with
      semaphore := Function.update s.semaphore txNode true
      receiver := .handled rxMsg }
  | .handle, .unmatched rxMsg => some { s with receiver := .handled rxMsg }
  | .discard, .handled _ => some { s with receiver := .idle }
  | _, _ => none

def step (keeps : List Nat → Nat → Option Nat) (event : Event) (s : Exchange) : Option Exchange :=
  match event with
  | .forward rxMsg => some { s with rwMsgRxHead := s.rwMsgRxHead ++ [rxMsg] }
  | .pop | .pick | .compare | .next | .take | .copy | .signal | .handle | .discard => s.receiveStep keeps event
  | _ => s.requestStep keeps event

/-- The receive task points to the node, or comes to it through the headers of nodes
that were taken off the list under it. -/
def Reached (n : Nat) (s : Exchange) : Prop :=
  match s.receiver with
  | .standing rxMsg txNode | .passing rxMsg txNode =>
    s.rwMsgTxHead.Ahead (fun k => s.reqid k ≠ rxMsg.id) txNode n
  | .found _ txNode | .extracted _ txNode | .copied _ txNode => n = txNode
  | _ => False

end Exchange

end BekenSdk.RwMsg
