import BekenSdk.Base.Bytes
import BekenSdk.Base.Machine

/-! The packet pool of the video transfer (`video_transfer.c` with packet headers and the camera interface, without
`TVIDEO_DROP_DATA_NONODE`). Interrupts of the camera fill nodes, and a task sends them and frees them again. The task can
be interrupted between any two of its calls; an interrupt runs to its end.
-/

set_option autoImplicit false

namespace BekenSdk.VideoTransfer
open Base

/-! ## Lists -/

/-- `tvideo_pool.free` and `tvideo_pool.ready`. -/
inductive PoolList where
  | free
  | ready
  deriving DecidableEq

/-- The functions of `co_list.h` over the `next` pointers of the nodes, with what the header says of them. A node is only
added when no list has it. -/
structure CoLists (S : Type) where
  elems : S → PoolList → List Nat
  coListInit : PoolList → S → S
  coListPick : PoolList → S → Option Nat
  coListPopFront : PoolList → S → S
  coListPushBack : PoolList → Nat → S → S
  init_elems : ∀ list other s, elems (coListInit list s) other = if other = list then [] else elems s other
  pick_elems : ∀ list s, coListPick list s = (elems s list).head?
  popFront_elems : ∀ list other s, elems (coListPopFront list s) other =
    if other = list then (elems s list).tail else elems s other
  pushBack_elems : ∀ list other node s, (∀ any, node ∉ elems s any) → elems (coListPushBack list node s) other =
    if other = list then elems s list ++ [node] else elems s other

/-! ## Set-up -/

inductive OpenType where
  | none
  | sccb
  | spidma
  deriving DecidableEq

/-- `TVIDEO_SND_UDP` and the like. -/
inductive SndType where
  | none
  | udp
  | tcp
  | intf
  | buffer
  deriving DecidableEq

/-- `TV_HDR_PARAM_ST`, apart from the pointer. -/
structure HdrParam where
  ptklen : UInt32
  frameId : UInt32
  isEof : Bool
  frameLen : UInt32

/-- What a user of the module sets. `add_pkt_header` fills at most the header, and may keep something of its own, as
`video_buffer_add_pkt_header` does; `sendFunc` tells whether there is a `send_func`. -/
structure Setup (H : Type) where
  openType : OpenType
  sendType : SndType
  sendFunc : Bool
  pktHeaderSize : UInt16
  addPktHeader : Option (HdrParam → H → List UInt8 × H)
  headerFits : ∀ add, addPktHeader = some add → ∀ param own, (add param own).1.length ≤ pktHeaderSize.toNat

def tvideoRxnodeSizeUdp : UInt32 := 1472
def tvideoRxnodeSizeTcp : UInt32 := 1460

/-- The size of a slot of the pool. -/
def tvideoRxnodeSize : Nat := 1472

def poolNodes : Nat := 25

namespace Setup
variable {H : Type} (setup : Setup H)

/-- `tvideo_st.node_len`, as `tvideo_config_desc` sets it. -/
def nodeLen : UInt32 :=
  match setup.sendType with
  | .udp => if setup.openType ≠ .spidma then tvideoRxnodeSizeUdp - setup.pktHeaderSize.toUInt32 else tvideoRxnodeSizeTcp
  | .tcp => tvideoRxnodeSizeTcp
  | .intf => tvideoRxnodeSizeUdp - setup.pktHeaderSize.toUInt32
  | .buffer => tvideoRxnodeSizeTcp
  | .none => tvideoRxnodeSizeTcp

/-- The bytes before the payload of a node. -/
def headerLen : UInt32 := if setup.openType ≠ .spidma then setup.pktHeaderSize.toUInt32 else 0

/-- The header that is added to a node. -/
def header (param : HdrParam) (own : H) : List UInt8 × H :=
  match setup.addPktHeader with
  | some add => add param own
  | none => ([], own)

end Setup

/-! ## The pool -/

/-- Where `tvideo_poll_handler` is. -/
inductive PollAt where
  | idle
  | picking
  /-- The node has been picked, and `send_func` is called. -/
  | sending (elem : Nat)
  | popping (elem : Nat)
  /-- The node is in no list. -/
  | pushing (elem : Nat)
  deriving DecidableEq

/-- `tvideo_pool`, with the chunks that have come, whether a node was free for each, and the payloads that `send_func`
has taken. -/
structure TvideoPool (S H : Type) where
  lists : S
  pool : Cells
  bufLen : Nat → UInt32
  frameId : UInt16
  own : H
  poll : PollAt
  camera : List (List UInt8 × Bool)
  sent : List (List UInt8)

/-- The bytes that `curptr` and `newlen` give. -/
structure Chunk where
  bytes : List UInt8
  bounded : bytes.length < 2 ^ 32

instance : DecidableEq Chunk := fun a b =>
  decidable_of_iff (a.bytes = b.bytes) ⟨fun same => by cases a; cases same; rfl, congrArg Chunk.bytes⟩

def Chunk.newlen (chunk : Chunk) : UInt32 := UInt32.ofNat chunk.bytes.length

def bufStart (elem : Nat) : Nat := elem * tvideoRxnodeSize

namespace TvideoPool
variable {S H : Type} (co : CoLists S) (setup : Setup H)

/-- The nodes are pushed one after the other. -/
def initNodes (lists : S) : S :=
  (List.range poolNodes).foldl (fun lists elem => co.coListPushBack .free elem lists)
    (co.coListInit .ready (co.coListInit .free lists))

/-- The pool has been allocated; `lists` is what the list headers were before. -/
def tvideoPoolInit (lists : S) (own : H) : TvideoPool S H where
  lists := initNodes co lists
  pool := fun _ => 0
  bufLen := fun _ => 0
  frameId := 0
  own := own
  poll := .idle
  camera := []
  sent := []

/-- The copy of the chunk and its length, in a node that has been picked. -/
def fill (elem : Nat) (chunk : Chunk) (isEof : Bool) (frameLen : UInt32) (s : TvideoPool S H) : TvideoPool S H :=
  let newlen := if chunk.newlen > setup.nodeLen then setup.nodeLen else chunk.newlen
  if setup.openType ≠ .spidma then
    let pktCnt := if isEof then
      frameLen / setup.nodeLen + if frameLen % setup.nodeLen ≠ 0 then 1 else 0
    else 0
    let added := setup.header ⟨newlen, s.frameId.toUInt32, isEof, pktCnt⟩ s.own
    { s with
      pool := storeBytes (storeBytes s.pool (bufStart elem) added.1)
        (bufStart elem + setup.pktHeaderSize.toNat) (chunk.bytes.take newlen.toNat)
      bufLen := Function.update s.bufLen elem (newlen + setup.pktHeaderSize.toUInt32)
      own := added.2 }
  else
    { s with
      pool := storeBytes s.pool (bufStart elem) (chunk.bytes.take newlen.toNat)
      bufLen := Function.update s.bufLen elem newlen }

def tvideoRxHandler (chunk : Chunk) (isEof : Bool) (frameLen : UInt32) (s : TvideoPool S H) : TvideoPool S H :=
  if chunk.newlen = 0 then s
  else
    match co.coListPick .free s.lists with
    | some elem =>
      let s := s.fill setup elem chunk isEof frameLen
      { s with
        lists := co.coListPushBack .ready elem (co.coListPopFront .free s.lists)
        camera := s.camera ++ [(chunk.bytes, true)] }
    | none => { s with camera := s.camera ++ [(chunk.bytes, false)] }

def tvideoEndFrameHandler (s : TvideoPool S H) : TvideoPool S H :=
  { s with frameId := if setup.openType ≠ .spidma then s.frameId + 1 else s.frameId }

/-- The bytes of a node behind its header. -/
def payload (elem : Nat) (s : TvideoPool S H) : List UInt8 :=
  readBytes s.pool (bufStart elem + setup.headerLen.toNat) ((s.bufLen elem).toNat - setup.headerLen.toNat)

/-- The next step of `tvideo_poll_handler`; `sendLen` is what `send_func` returns. -/
def pollStep (sendLen : UInt32) (s : TvideoPool S H) : Option (TvideoPool S H) :=
  match s.poll with
  | .idle => none
  | .picking =>
    match co.coListPick .ready s.lists with
    | some elem => some { s with poll := if setup.sendFunc then .sending elem else .popping elem }
    | none => some { s with poll := .idle }
  | .sending elem =>
    if sendLen ≠ s.bufLen elem then some { s with poll := .idle }
    else some { s with poll := .popping elem, sent := s.sent ++ [s.payload setup elem] }
  | .popping elem => some { s with lists := co.coListPopFront .ready s.lists, poll := .pushing elem }
  | .pushing elem => some { s with lists := co.coListPushBack .free elem s.lists, poll := .picking }

end TvideoPool

inductive Event where
  /-- `node_full_handler`, in an interrupt. -/
  | chunk (chunk : Chunk) (isEof : Bool) (frameLen : UInt32)
  /-- `data_end_handler`, in an interrupt. -/
  | endFrame
  /-- The task gets `TV_INT_POLL`. -/
  | poll
  | task (sendLen : UInt32)
  deriving DecidableEq

def step {S H : Type} (co : CoLists S) (setup : Setup H) (event : Event) (s : TvideoPool S H) :
    Option (TvideoPool S H) :=
  match event with
  | .chunk chunk isEof frameLen => some (s.tvideoRxHandler co setup chunk isEof frameLen)
  | .endFrame => some (s.tvideoEndFrameHandler setup)
  | .poll => if s.poll = .idle then some { s with poll := .picking } else none
  | .task sendLen => s.pollStep co setup sendLen

end BekenSdk.VideoTransfer
