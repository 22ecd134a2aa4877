import BekenSdk.VideoBuffer.Receiver

/-! The sender of the packets (`video_transfer.c` with `TVIDEO_SND_INTF`, and
`video_buffer_add_pkt_header`): the camera interrupts fill nodes of a pool, and a
task passes them on to the video buffer.
-/

set_option autoImplicit false

namespace BekenSdk.VideoBuffer
open Base

def tvideoRxnodeSize : Nat := 1472
def tvideoPoolNodes : Nat := 25

/-- `tvideo_st.node_len`. -/
def nodeLen : Nat := tvideoRxnodeSize - sizeofVbHdr

/-- `tvideo_pool` and `g_pkt_seq`; the free nodes are all alike. -/
structure TvideoPool where
  free : Nat
  ready : List Packet
  frameId : UInt16
  gPktSeq : UInt32

inductive TransferEvent where
  /-- `tvideo_rx_handler` with the bytes from `curptr` on. -/
  | nodeFull (data : List UInt8) (isEof : Bool) (frameLen : UInt32)
  /-- `tvideo_end_frame_handler` -/
  | endFrame
  /-- A turn of the loop in `tvideo_poll_handler`. -/
  | poll
  deriving DecidableEq

/-- The packet counter is the field `frame_len` of the parameter. -/
def pktCnt (isEof : Bool) (frameLen : UInt32) : UInt32 :=
  let node := UInt32.ofNat nodeLen
  if isEof then frameLen / node + (if frameLen % node = 0 then 0 else 1) else 0

def videoBufferAddPktHeader (frameId : UInt16) (gPktSeq : UInt32) (isEof : Bool) (cnt : UInt32) : List UInt8 :=
  [frameId.toUInt8, if isEof then 1 else 0, cnt.toUInt8, (gPktSeq + 1).toUInt8]

/-- A node as it is filled. -/
def nodeOf (frameId : UInt16) (gPktSeq : UInt32) (data : List UInt8) (isEof : Bool) (frameLen : UInt32) : Packet where
  data := videoBufferAddPktHeader frameId gPktSeq isEof (pktCnt isEof frameLen) ++ data.take nodeLen
  bounded := by
    rw [List.length_append, List.length_take]
    have short : min nodeLen data.length ≤ 1468 := Nat.min_le_left _ _
    have header : (videoBufferAddPktHeader frameId gPktSeq isEof (pktCnt isEof frameLen)).length = 4 := rfl
    omega

def nextSeq (gPktSeq : UInt32) (isEof : Bool) : UInt32 := if isEof then 0 else gPktSeq + 1

namespace TvideoPool

def tvideoRxHandler (data : List UInt8) (isEof : Bool) (frameLen : UInt32) (s : TvideoPool) : TvideoPool :=
  if data = [] then s
  else if s.free = 0 then s
  else
    { s with
      free := s.free - 1
      ready := s.ready ++ [nodeOf s.frameId s.gPktSeq data isEof frameLen]
      gPktSeq := nextSeq s.gPktSeq isEof }

def tvideoEndFrameHandler (s : TvideoPool) : TvideoPool := { s with frameId := s.frameId + 1 }

def tvideoPoolInit : TvideoPool := ⟨tvideoPoolNodes, [], 0, 0⟩

end TvideoPool

structure Transfer where
  pool : TvideoPool
  video : Video

namespace Transfer

/-- `send_func` takes the whole node. -/
def pollTurn (s : Transfer) : Transfer :=
  match s.pool.ready with
  | [] => s
  | p :: rest =>
    { pool := { s.pool with ready := rest, free := s.pool.free + 1 }
      video := s.video.videoBufferRecvVideoData p }

def step (event : TransferEvent) (s : Transfer) : Option Transfer :=
  match event with
  | .nodeFull data isEof frameLen => some { s with pool := s.pool.tvideoRxHandler data isEof frameLen }
  | .endFrame => some { s with pool := s.pool.tvideoEndFrameHandler }
  | .poll => some s.pollTurn

end Transfer

/-! ## A frame from the camera -/

/-- A frame as it is split, with the length that the encoder reports. -/
structure CameraFrame where
  front : List (List UInt8)
  last : List UInt8
  frameLen : UInt32
  sized : ∀ data ∈ front ++ [last], data ≠ [] ∧ data.length ≤ nodeLen

namespace CameraFrame

def bytes (frame : CameraFrame) : List UInt8 := (frame.front ++ [frame.last]).flatten

def packets (frame : CameraFrame) : Nat := frame.front.length + 1

/-- The calls of the camera interface, the latest first. -/
def calls (frame : CameraFrame) : List TransferEvent :=
  .endFrame :: .nodeFull frame.last true frame.frameLen ::
    (frame.front.map fun data => TransferEvent.nodeFull data false 0).reverse

end CameraFrame

/-! ## The nodes that are made -/

namespace TransferEvent

/-- An interrupt of the camera. -/
def camera : TransferEvent → Bool
  | poll => false
  | _ => true

/-- The counters after the events, which are listed the latest first. -/
def counters (frameId : UInt16) (gPktSeq : UInt32) : List TransferEvent → UInt16 × UInt32
  | [] => (frameId, gPktSeq)
  | nodeFull _ isEof _ :: earlier =>
    ((counters frameId gPktSeq earlier).1, nextSeq (counters frameId gPktSeq earlier).2 isEof)
  | endFrame :: earlier => ((counters frameId gPktSeq earlier).1 + 1, (counters frameId gPktSeq earlier).2)
  | poll :: earlier => counters frameId gPktSeq earlier

/-- The nodes in their order. -/
def nodes (frameId : UInt16) (gPktSeq : UInt32) : List TransferEvent → List Packet
  | [] => []
  | nodeFull data isEof frameLen :: earlier =>
    nodes frameId gPktSeq earlier ++ [nodeOf (counters frameId gPktSeq earlier).1
      (counters frameId gPktSeq earlier).2 data isEof frameLen]
  | endFrame :: earlier => nodes frameId gPktSeq earlier
  | poll :: earlier => nodes frameId gPktSeq earlier

variable {frameId : UInt16} {gPktSeq : UInt32}

theorem counters_filter (events : List TransferEvent) :
    counters frameId gPktSeq (events.filter camera) = counters frameId gPktSeq events := by
  induction events with
  | nil => rfl
  | cons event earlier ih =>
    cases event with
    | nodeFull data isEof frameLen =>
      rw [List.filter_cons_of_pos rfl, counters, counters, ih]
    | endFrame => rw [List.filter_cons_of_pos rfl, counters, counters, ih]
    | poll => rw [List.filter_cons_of_neg Bool.false_ne_true, ih, counters]

theorem nodes_filter (events : List TransferEvent) :
    nodes frameId gPktSeq (events.filter camera) = nodes frameId gPktSeq events := by
  induction events with
  | nil => rfl
  | cons event earlier ih =>
    cases event with
    | nodeFull data isEof frameLen =>
      rw [List.filter_cons_of_pos rfl, nodes, nodes, ih, counters_filter]
    | endFrame => rw [List.filter_cons_of_pos rfl, nodes, nodes, ih]
    | poll => rw [List.filter_cons_of_neg Bool.false_ne_true, ih, nodes]

end TransferEvent

/-! ## Runs without loss -/

/-- No node is free for the bytes. -/
def LosesNode (s : Transfer) (event : TransferEvent) : Prop :=
  match event with
  | .nodeFull data _ _ => data ≠ [] ∧ s.pool.free = 0
  | _ => False

/-- Nothing is sent twice or out of order: what was made has been delivered or is
still ready. -/
structure InFlight (start : Transfer) (events : List TransferEvent) (s : Transfer) : Prop where
  counters : (s.pool.frameId, s.pool.gPktSeq) = TransferEvent.counters start.pool.frameId start.pool.gPktSeq events
  order : ∃ sent, TransferEvent.nodes start.pool.frameId start.pool.gPktSeq events = sent ++ s.pool.ready ∧
    s.video = start.video.deliver sent

/-- The moment makes a node, if it has bytes for one. -/
def Keeps (moment : Moment Transfer TransferEvent) : Prop :=
  ¬LosesNode moment.before moment.event ∧
    ∀ data isEof frameLen, moment.event = .nodeFull data isEof frameLen → data ≠ []

namespace InFlight
variable {start s t : Transfer} {events : List TransferEvent}

theorem nodeFull {data : List UInt8} {isEof : Bool} {frameLen : UInt32} (flight : InFlight start events s)
    (some : data ≠ []) (room : s.pool.free ≠ 0) :
    InFlight start (.nodeFull data isEof frameLen :: events)
      { s with pool := s.pool.tvideoRxHandler data isEof frameLen } := by
  obtain ⟨counters, sent, order, delivered⟩ := flight
  have filled : s.pool.tvideoRxHandler data isEof frameLen =
      { s.pool with
        free := s.pool.free - 1
        ready := s.pool.ready ++ [nodeOf s.pool.frameId s.pool.gPktSeq data isEof frameLen]
        gPktSeq := nextSeq s.pool.gPktSeq isEof } := by
    rw [TvideoPool.tvideoRxHandler, if_neg some, if_neg room]
  rw [filled]
  constructor
  · rw [TransferEvent.counters, ← counters]
  · refine ⟨sent, ?_, delivered⟩
    rw [TransferEvent.nodes, ← counters, order, List.append_assoc]

theorem pollTurn (flight : InFlight start events s) : InFlight start (.poll :: events) s.pollTurn := by
  obtain ⟨counters, sent, order, delivered⟩ := flight
  rw [Transfer.pollTurn]
  split
  · exact ⟨counters, sent, order, delivered⟩
  next p rest ready =>
    refine ⟨counters, sent ++ [p], ?_, ?_⟩
    · rw [ready] at order
      rw [TransferEvent.nodes, order, List.append_assoc, List.singleton_append]
    · rw [Video.deliver_append, ← delivered]
      rfl

theorem step {moment : Moment Transfer TransferEvent} (flight : InFlight start events s) (keeps : Keeps moment)
    (taken : Machine.Step Transfer.step s moment t) : InFlight start (moment.event :: events) t := by
  obtain ⟨same, taken⟩ := taken
  obtain ⟨kept, nonempty⟩ := keeps
  rw [same] at kept
  cases event : moment.event with
  | nodeFull data isEof frameLen =>
    rw [event] at taken kept
    rw [← Option.some.inj taken]
    have some := nonempty data isEof frameLen event
    exact flight.nodeFull some fun full => kept ⟨some, full⟩
  | endFrame =>
    rw [event] at taken
    rw [← Option.some.inj taken]
    obtain ⟨counters, order⟩ := flight
    refine ⟨?_, order⟩
    rw [TransferEvent.counters, ← counters]
    rfl
  | poll =>
    rw [event] at taken
    rw [← Option.some.inj taken]
    exact flight.pollTurn

theorem of_run {moments : List (Moment Transfer TransferEvent)} (run : Run (Machine.Step Transfer.step) start moments t)
    (keeps : ∀ moment ∈ moments, Keeps moment) (empty : start.pool.ready = []) :
    InFlight start (moments.map Moment.event) t := by
  apply run.invariant Keeps (fun past s => InFlight start (past.map Moment.event) s) keeps
  · exact ⟨rfl, [], empty.symm, rfl⟩
  · exact fun past s moment t flight kept taken => flight.step kept taken

end InFlight

/-! ## The nodes of a frame -/

theorem nodeOf_of {frameId : UInt16} {gPktSeq frameLen : UInt32} {data : List UInt8} {isEof : Bool} (some : data ≠ []) :
    (nodeOf frameId gPktSeq data isEof frameLen).Of frameId.toUInt8 := by
  refine ⟨rfl, ?_⟩
  have long := List.length_pos_of_ne_nil some
  change 4 < (videoBufferAddPktHeader _ _ _ _ ++ _).length
  rw [List.length_append, List.length_take, nodeLen]
  have header : (videoBufferAddPktHeader frameId gPktSeq isEof (pktCnt isEof frameLen)).length = 4 := rfl
  have positive : 0 < min (tvideoRxnodeSize - sizeofVbHdr) data.length := Nat.lt_min.mpr ⟨by decide, long⟩
  omega

theorem nodeOf_payload {frameId : UInt16} {gPktSeq frameLen : UInt32} {data : List UInt8} {isEof : Bool}
    (short : data.length ≤ nodeLen) : (nodeOf frameId gPktSeq data isEof frameLen).payload = data :=
  List.take_of_length_le short

/-- A number in a header, counted on from `g_pkt_seq`. -/
def seqAfter (gPktSeq : UInt32) (i : Nat) : Nat := (gPktSeq.toNat + i) % 256

theorem nodeOf_pktSeq {frameId : UInt16} {gPktSeq frameLen : UInt32} {data : List UInt8} {isEof : Bool} :
    (nodeOf frameId gPktSeq data isEof frameLen).pktSeq.toNat = seqAfter gPktSeq 1 := by
  change (gPktSeq + 1).toUInt8.toNat = _
  rw [UInt32.toNat_toUInt8, UInt32.toNat_add, UInt32.toNat_one, seqAfter]
  omega

namespace CameraFrame
open TransferEvent

theorem seqAfter_add (gPktSeq : UInt32) (n : Nat) :
    seqAfter (gPktSeq + UInt32.ofNat n) 1 = seqAfter gPktSeq (n + 1) := by
  rw [seqAfter, seqAfter, UInt32.toNat_add, UInt32.toNat_ofNat']
  omega

/-- What the interrupts of a frame have made before the last one. -/
structure FrontNodes (frameId : UInt16) (gPktSeq : UInt32) (front : List (List UInt8)) (calls : List TransferEvent) :
    Prop where
  counters : TransferEvent.counters frameId gPktSeq calls = (frameId, gPktSeq + UInt32.ofNat front.length)
  length : (nodes frameId gPktSeq calls).length = front.length
  mine : ∀ p ∈ nodes frameId gPktSeq calls, p.Of frameId.toUInt8 ∧ p.isEof ≠ 1
  content : content (nodes frameId gPktSeq calls) = front.flatten
  numbers : (nodes frameId gPktSeq calls).map (fun p => p.pktSeq.toNat) =
    (List.range' 1 front.length).map (seqAfter gPktSeq)

theorem frontNodes {frameId : UInt16} {gPktSeq : UInt32} {front : List (List UInt8)}
    (sized : ∀ data ∈ front, data ≠ [] ∧ data.length ≤ nodeLen) :
    FrontNodes frameId gPktSeq front (front.map fun data => nodeFull data false 0).reverse := by
  induction front using List.reverseRecOn with
  | nil =>
    refine ⟨?_, rfl, fun p member => absurd member List.not_mem_nil, rfl, rfl⟩
    exact Prod.ext rfl (UInt32.add_zero gPktSeq).symm
  | append_singleton front data ih =>
    obtain ⟨counted, length, mine, content, numbers⟩ :=
      ih fun early member => sized early (List.mem_append_left _ member)
    obtain ⟨some, short⟩ := sized data (by simp)
    have calls : ((front ++ [data]).map fun data => nodeFull data false 0).reverse =
        nodeFull data false 0 :: (front.map fun data => nodeFull data false 0).reverse := by
      rw [List.map_append, List.reverse_append]
      rfl
    rw [calls]
    constructor
    · rw [TransferEvent.counters, counted, nextSeq, List.length_append, List.length_singleton, UInt32.ofNat_add,
        ← UInt32.add_assoc]
      rfl
    · rw [nodes, List.length_append, length, List.length_append, List.length_singleton, List.length_singleton]
    · intro p member
      rw [nodes, counted] at member
      cases List.mem_append.mp member with
      | inl early => exact mine p early
      | inr last =>
        rw [List.mem_singleton.mp last]
        exact ⟨nodeOf_of some, show (0 : UInt8) ≠ 1 by decide⟩
    · rw [nodes, content_append, content, content_one, nodeOf_payload short, List.flatten_append]
      simp
    · rw [nodes, counted, List.map_append, numbers, List.length_append, List.length_singleton, List.range'_1_concat,
        List.map_append, List.map_singleton, List.map_singleton, nodeOf_pktSeq, seqAfter_add, Nat.add_comm front.length]

end CameraFrame

end BekenSdk.VideoBuffer
