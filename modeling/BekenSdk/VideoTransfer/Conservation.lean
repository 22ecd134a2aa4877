import BekenSdk.VideoBuffer.Transfer
import BekenSdk.VideoTransfer.Pool
import Mathlib.Data.List.Perm.Basic

/-! Where the nodes of the pool are, and what is sent of the stream of the camera. A chunk that finds a node is kept up to
`node_len` bytes, and the other chunks are lost as a whole.
-/

set_option autoImplicit false

namespace BekenSdk.VideoTransfer
open Base

/-- A header and `node_len` bytes fit a slot, and a frame can be divided by `node_len`. -/
def Setup.Roomy {H : Type} (setup : Setup H) : Prop :=
  0 < setup.nodeLen ∧ setup.nodeLen.toNat + setup.headerLen.toNat ≤ tvideoRxnodeSize

instance {H : Type} (setup : Setup H) : Decidable setup.Roomy := inferInstanceAs (Decidable (_ ∧ _))

theorem udp_roomy_iff (size : UInt16) {header : Nat} (small : header ≤ size.toNat) :
    0 < tvideoRxnodeSizeUdp - size.toUInt32 ∧
        (tvideoRxnodeSizeUdp - size.toUInt32).toNat + header ≤ tvideoRxnodeSize ↔
      size.toNat < tvideoRxnodeSize := by
  have udp : tvideoRxnodeSizeUdp.toNat = 1472 := rfl
  have short := size.toNat_lt
  rw [UInt32.lt_iff_toNat_lt, UInt32.toNat_sub, UInt16.toNat_toUInt32, udp, tvideoRxnodeSize, UInt32.toNat_zero]
  omega

theorem tcp_roomy_iff (header : Nat) :
    0 < tvideoRxnodeSizeTcp ∧ tvideoRxnodeSizeTcp.toNat + header ≤ tvideoRxnodeSize ↔ header ≤ 12 := by
  have tcp : tvideoRxnodeSizeTcp.toNat = 1460 := rfl
  rw [tcp, tvideoRxnodeSize]
  exact ⟨fun fits => by omega, fun fits => ⟨by decide, by omega⟩⟩

/-- Which sizes of a header fit. -/
theorem Setup.roomy_iff {H : Type} (setup : Setup H) :
    setup.Roomy ↔
      match setup.sendType with
      | .udp => setup.openType = .spidma ∨ setup.pktHeaderSize.toNat < tvideoRxnodeSize
      | .intf => setup.pktHeaderSize.toNat < tvideoRxnodeSize
      | _ => setup.openType = .spidma ∨ setup.pktHeaderSize.toNat ≤ 12 := by
  have headed := @udp_roomy_iff setup.pktHeaderSize _ (Nat.le_refl _)
  have bare := @udp_roomy_iff setup.pktHeaderSize 0 (Nat.zero_le _)
  have tcp := tcp_roomy_iff setup.pktHeaderSize.toNat
  have tcp_bare := tcp_roomy_iff 0
  rw [Setup.Roomy, Setup.nodeLen, Setup.headerLen]
  by_cases spidma : setup.openType = .spidma <;> cases setup.sendType <;>
    simp_all [UInt16.toNat_toUInt32]

variable {S H : Type} {co : CoLists S} {setup : Setup H} {s t : TvideoPool S H}

namespace TvideoPool

/-! ## What is conserved -/

/-- The node that the task has taken out of one list and not put into the other yet. -/
def inHand (s : TvideoPool S H) : List Nat :=
  match s.poll with
  | .pushing elem => [elem]
  | _ => []

/-- The nodes whose payload `send_func` has not taken. -/
def waiting (co : CoLists S) (s : TvideoPool S H) : List Nat :=
  match s.poll with
  | .popping _ => (co.elems s.lists .ready).tail
  | _ => co.elems s.lists .ready

/-- The chunks that found a node, up to `node_len` bytes of each. -/
def accepted (setup : Setup H) (s : TvideoPool S H) : List (List UInt8) :=
  (s.camera.filter Prod.snd).map fun chunk => chunk.1.take setup.nodeLen.toNat

/-- The lists and the node in hand are the whole pool, each node once; no node is longer than its slot; and what was sent
and what waits are the accepted chunks. Without a `send_func` the nodes are only freed. -/
structure Conserved (co : CoLists S) (setup : Setup H) (s : TvideoPool S H) : Prop where
  nodes : (co.elems s.lists .free ++ co.elems s.lists .ready ++ s.inHand).Perm (List.range poolNodes)
  filled : ∀ elem < poolNodes, (s.bufLen elem).toNat ≤ tvideoRxnodeSize
  stream : ∃ gone, gone ++ (s.waiting co).map (fun elem => s.payload setup elem) = s.accepted setup ∧
    s.sent = if setup.sendFunc then gone else []

/-- While the task has a node, it stays the first of the ready list. -/
structure Kept (co : CoLists S) (setup : Setup H) (s : TvideoPool S H) : Prop extends Conserved co setup s where
  first : ∀ elem, s.poll = .sending elem ∨ s.poll = .popping elem → (co.elems s.lists .ready).head? = some elem
  called : ∀ elem, s.poll = .sending elem → setup.sendFunc = true

/-! ## A node is filled -/

variable {elem other : Nat} {chunk : Chunk} {isEof : Bool} {frameLen : UInt32}

/-- The length of the chunk after the check. -/
def stored (setup : Setup H) (chunk : Chunk) : UInt32 :=
  if chunk.newlen > setup.nodeLen then setup.nodeLen else chunk.newlen

theorem newlen_toNat (chunk : Chunk) : chunk.newlen.toNat = chunk.bytes.length := by
  rw [Chunk.newlen, UInt32.toNat_ofNat', Nat.mod_eq_of_lt chunk.bounded]

theorem stored_toNat (setup : Setup H) (chunk : Chunk) :
    (stored setup chunk).toNat = min chunk.bytes.length setup.nodeLen.toNat := by
  have same := newlen_toNat chunk
  rw [stored]
  split
  next long =>
    rw [gt_iff_lt, UInt32.lt_iff_toNat_lt] at long
    omega
  next short =>
    rw [gt_iff_lt, UInt32.lt_iff_toNat_lt] at short
    omega

theorem take_stored (setup : Setup H) (chunk : Chunk) :
    chunk.bytes.take (stored setup chunk).toNat = chunk.bytes.take setup.nodeLen.toNat := by
  rw [stored_toNat, List.take_eq_take_iff]
  omega

theorem header_length (setup : Setup H) (param : HdrParam) (own : H) :
    (setup.header param own).1.length ≤ setup.pktHeaderSize.toNat := by
  rw [Setup.header]
  split
  next add given => exact setup.headerFits add given param own
  next => exact Nat.zero_le _

/-- With or without a header, the bytes of the header come first and then those of the chunk. -/
theorem fill_eq (elem : Nat) (chunk : Chunk) (isEof : Bool) (frameLen : UInt32) (s : TvideoPool S H) :
    ∃ head own, head.length ≤ setup.headerLen.toNat ∧ s.fill setup elem chunk isEof frameLen = { s with
      pool := storeBytes (storeBytes s.pool (bufStart elem) head) (bufStart elem + setup.headerLen.toNat)
        (chunk.bytes.take setup.nodeLen.toNat)
      bufLen := Function.update s.bufLen elem (stored setup chunk + setup.headerLen)
      own := own } := by
  rw [fill, ← take_stored]
  split
  next headed =>
    have size : setup.headerLen = setup.pktHeaderSize.toUInt32 := if_pos headed
    rw [size, UInt16.toNat_toUInt32]
    exact ⟨_, _, header_length setup _ _, rfl⟩
  next bare =>
    have none : setup.headerLen = 0 := if_neg bare
    refine ⟨[], s.own, Nat.zero_le _, ?_⟩
    rw [none, storeBytes_nil, UInt32.add_zero, UInt32.toNat_zero, Nat.add_zero, stored]

/-- What has become of a node that was filled. -/
structure Filled (setup : Setup H) (elem : Nat) (chunk : Chunk) (s t : TvideoPool S H) : Prop where
  lists : t.lists = s.lists
  poll : t.poll = s.poll
  camera : t.camera = s.camera
  sent : t.sent = s.sent
  payload : t.payload setup elem = chunk.bytes.take setup.nodeLen.toNat
  short : (t.bufLen elem).toNat ≤ tvideoRxnodeSize
  bufLen_other : ∀ other, other ≠ elem → t.bufLen other = s.bufLen other
  payload_other : ∀ other, other ≠ elem → (s.bufLen other).toNat ≤ tvideoRxnodeSize →
    t.payload setup other = s.payload setup other

theorem slot_apart (apart : other ≠ elem) :
    bufStart other + tvideoRxnodeSize ≤ bufStart elem ∨ bufStart elem + tvideoRxnodeSize ≤ bufStart other := by
  rw [bufStart, bufStart, tvideoRxnodeSize]
  omega

theorem filled (roomy : setup.Roomy) (elem : Nat) (chunk : Chunk) (isEof : Bool) (frameLen : UInt32)
    (s : TvideoPool S H) : Filled setup elem chunk s (s.fill setup elem chunk isEof frameLen) := by
  obtain ⟨head, own, small, same⟩ := fill_eq elem chunk isEof frameLen s
  have room := roomy.2
  have size := stored_toNat setup chunk
  have taken : (chunk.bytes.take setup.nodeLen.toNat).length = (stored setup chunk).toNat := by
    rw [List.length_take, size, Nat.min_comm]
  have sum : (stored setup chunk + setup.headerLen).toNat = (stored setup chunk).toNat + setup.headerLen.toNat := by
    rw [UInt32.toNat_add, tvideoRxnodeSize] at *
    omega
  rw [same]
  constructor
  case payload =>
    apply (holds_storeBytes _ _ _).read_of_length
    dsimp only
    rw [taken, Function.update_self, sum, Nat.add_sub_cancel]
  case short =>
    dsimp only
    rw [Function.update_self, sum]
    omega
  case bufLen_other => exact fun other apart => Function.update_of_ne apart _ _
  case payload_other =>
    intro other apart short
    rw [TvideoPool.payload, TvideoPool.payload]
    dsimp only
    rw [Function.update_of_ne apart]
    apply readBytes_congr
    intro a low high
    have clear := slot_apart apart
    rw [storeBytes_outside (by omega), storeBytes_outside (by omega)]
  all_goals rfl

/-! ## Steps -/

variable {ready free : List Nat}

/-- No node is in two places. -/
theorem Conserved.nodup (kept : Conserved co setup s) :
    (co.elems s.lists .free ++ co.elems s.lists .ready ++ s.inHand).Nodup :=
  kept.nodes.nodup_iff.mpr List.nodup_range

theorem Conserved.inside (kept : Conserved co setup s) {elem : Nat}
    (member : elem ∈ co.elems s.lists .free ++ co.elems s.lists .ready ++ s.inHand) : elem < poolNodes :=
  List.mem_range.mp (kept.nodes.mem_iff.mp member)

/-- A chunk went into the first free node, which is now the last of the ready list. -/
structure Accepted (co : CoLists S) (setup : Setup H) (elem : Nat) (chunk : Chunk) (s t : TvideoPool S H) : Prop where
  free : co.elems s.lists .free = elem :: co.elems t.lists .free
  ready : co.elems t.lists .ready = co.elems s.lists .ready ++ [elem]
  poll : t.poll = s.poll
  camera : t.camera = s.camera ++ [(chunk.bytes, true)]
  sent : t.sent = s.sent
  payload : t.payload setup elem = chunk.bytes.take setup.nodeLen.toNat
  short : (t.bufLen elem).toNat ≤ tvideoRxnodeSize
  bufLen_other : ∀ other, other ≠ elem → t.bufLen other = s.bufLen other
  payload_other : ∀ other, other ≠ elem → (s.bufLen other).toNat ≤ tvideoRxnodeSize →
    t.payload setup other = s.payload setup other

theorem moved_to_ready (kept : Conserved co setup s) (picked : co.coListPick .free s.lists = some elem) :
    co.elems s.lists .free =
        elem :: co.elems (co.coListPushBack .ready elem (co.coListPopFront .free s.lists)) .free ∧
      co.elems (co.coListPushBack .ready elem (co.coListPopFront .free s.lists)) .ready =
        co.elems s.lists .ready ++ [elem] := by
  rw [co.pick_elems, List.head?_eq_some_iff] at picked
  obtain ⟨rest, free⟩ := picked
  have once := kept.nodup
  rw [free, List.cons_append, List.cons_append, List.nodup_cons, List.mem_append, List.mem_append] at once
  have fresh : ∀ any, elem ∉ co.elems (co.coListPopFront .free s.lists) any := by
    intro any
    rw [co.popFront_elems]
    cases any with
    | free =>
      rw [if_pos rfl, free, List.tail_cons]
      exact fun member => once.1 (Or.inl (Or.inl member))
    | ready =>
      rw [if_neg (by decide)]
      exact fun member => once.1 (Or.inl (Or.inr member))
  rw [co.pushBack_elems _ _ _ _ fresh, co.pushBack_elems _ _ _ _ fresh, if_neg (by decide), if_pos rfl,
    co.popFront_elems, co.popFront_elems, if_pos rfl, if_neg (by decide), free, List.tail_cons]
  exact ⟨rfl, rfl⟩

theorem rx_accepted (kept : Conserved co setup s) (roomy : setup.Roomy) (some_bytes : chunk.newlen ≠ 0)
    (picked : co.coListPick .free s.lists = some elem) :
    Accepted co setup elem chunk s (s.tvideoRxHandler co setup chunk isEof frameLen) := by
  have fill := filled roomy elem chunk isEof frameLen s
  obtain ⟨free, ready⟩ := moved_to_ready kept picked
  rw [tvideoRxHandler, if_neg some_bytes, picked]
  dsimp only
  rw [fill.lists, fill.camera]
  exact ⟨free, ready, fill.poll, rfl, fill.sent, fill.payload, fill.short, fill.bufLen_other, fill.payload_other⟩

theorem Kept.head (kept : Kept co setup s) (poll : s.poll = .sending elem ∨ s.poll = .popping elem) :
    ∃ rest, co.elems s.lists .ready = elem :: rest :=
  List.head?_eq_some_iff.mp (kept.first elem poll)

/-- A node that becomes ready waits behind the others. -/
theorem Kept.waiting_append (kept : Kept co setup s) (poll : t.poll = s.poll)
    (ready : co.elems t.lists .ready = co.elems s.lists .ready ++ [elem]) :
    t.waiting co = s.waiting co ++ [elem] := by
  rw [waiting, waiting, poll]
  split
  next node popping =>
    obtain ⟨rest, first⟩ := kept.head (Or.inr popping)
    rw [ready, first, List.cons_append, List.tail_cons, List.tail_cons]
  next => exact ready

theorem waiting_subset : ∀ elem ∈ s.waiting co, elem ∈ co.elems s.lists .ready := by
  intro elem member
  rw [waiting] at member
  split at member
  · exact List.mem_of_mem_tail member
  · exact member

theorem Kept.take (kept : Kept co setup s) (taken : Accepted co setup elem chunk s t) : Kept co setup t := by
  have once := kept.nodup
  rw [taken.free, List.cons_append, List.cons_append, List.nodup_cons] at once
  have ready_of_waiting : ∀ node ∈ s.waiting co,
      node ∈ co.elems t.lists .free ++ co.elems s.lists .ready ++ s.inHand := fun node member =>
    List.mem_append_left _ (List.mem_append_right _ (waiting_subset node member))
  have others : (s.waiting co).map (fun node => t.payload setup node) =
      (s.waiting co).map (fun node => s.payload setup node) := by
    apply List.map_congr_left
    intro node member
    apply taken.payload_other
    · rintro rfl
      exact once.1 (ready_of_waiting node member)
    · apply kept.filled
      apply kept.inside
      rw [taken.free]
      exact List.mem_cons_of_mem _ (ready_of_waiting node member)
  constructor
  case first =>
    intro node poll
    rw [taken.poll] at poll
    obtain ⟨rest, first⟩ := kept.head poll
    rw [taken.ready, first]
    rfl
  case called =>
    intro node poll
    exact kept.called node (taken.poll ▸ poll)
  case toConserved =>
    constructor
    case nodes =>
      have hand : t.inHand = s.inHand := by rw [inHand, inHand, taken.poll]
      rw [taken.ready, hand]
      refine List.Perm.trans ?_ kept.nodes
      rw [taken.free, ← List.append_assoc]
      exact List.Perm.append_right _ (List.perm_append_singleton _ _)
    case filled =>
      intro node small
      by_cases same : node = elem
      · rw [same]
        exact taken.short
      · exact (taken.bufLen_other node same).symm ▸ kept.filled node small
    case stream =>
      obtain ⟨gone, stream, sent⟩ := kept.stream
      refine ⟨gone, ?_, taken.sent.trans sent⟩
      rw [kept.waiting_append taken.poll taken.ready, List.map_append, others, ← List.append_assoc, stream, accepted,
        accepted, taken.camera, List.filter_append, List.map_append]
      rw [List.map_cons, List.map_nil, taken.payload]
      rfl

theorem Kept.rx (kept : Kept co setup s) (roomy : setup.Roomy) :
    Kept co setup (s.tvideoRxHandler co setup chunk isEof frameLen) := by
  by_cases nothing : chunk.newlen = 0
  · rw [tvideoRxHandler, if_pos nothing]
    exact kept
  cases picked : co.coListPick .free s.lists with
  | some elem => exact kept.take (rx_accepted kept.toConserved roomy nothing picked)
  | none =>
    rw [tvideoRxHandler, if_neg nothing, picked]
    refine ⟨⟨kept.nodes, kept.filled, ?_⟩, kept.first, kept.called⟩
    obtain ⟨gone, stream, sent⟩ := kept.stream
    refine ⟨gone, stream.trans ?_, sent⟩
    rw [accepted, accepted, List.filter_append]
    exact congrArg _ (List.append_nil _).symm

theorem first_of_sending {nodes : List Nat} (first : nodes.head? = some elem) :
    ∀ node, PollAt.sending elem = .sending node ∨ PollAt.sending elem = .popping node → nodes.head? = some node := by
  intro node poll
  cases poll with
  | inl same => exact PollAt.sending.inj same ▸ first
  | inr other => cases other

theorem first_of_popping {nodes : List Nat} (first : nodes.head? = some elem) :
    ∀ node, PollAt.popping elem = .sending node ∨ PollAt.popping elem = .popping node → nodes.head? = some node := by
  intro node poll
  cases poll with
  | inl other => cases other
  | inr same => exact PollAt.popping.inj same ▸ first

theorem Kept.picked (kept : Kept co setup s) (poll : s.poll = .picking)
    (picked : co.coListPick .ready s.lists = some elem) :
    Kept co setup { s with poll := if setup.sendFunc then .sending elem else .popping elem } := by
  rw [co.pick_elems] at picked
  obtain ⟨gone, stream, sent⟩ := kept.stream
  have hand : s.inHand = [] := by rw [inHand, poll]
  have waits : s.waiting co = co.elems s.lists .ready := by rw [waiting, poll]
  have nodes := kept.nodes
  rw [hand] at nodes
  rw [waits] at stream
  split
  next func =>
    rw [if_pos func] at sent
    refine ⟨⟨nodes, kept.filled, gone, stream, by rw [if_pos func, sent]⟩, ?_, ?_⟩
    · exact first_of_sending picked
    · exact fun _ _ => func
  next func =>
    rw [if_neg func] at sent
    obtain ⟨rest, first⟩ := List.head?_eq_some_iff.mp picked
    refine ⟨⟨nodes, kept.filled, gone ++ [s.payload setup elem], ?_, by rw [if_neg func, sent]⟩, ?_, ?_⟩
    · rw [first] at stream
      rw [waiting, first, List.tail_cons, List.append_assoc]
      exact stream
    · exact first_of_popping picked
    · exact fun _ other => by cases other

theorem Kept.sent_one (kept : Kept co setup s) (func : setup.sendFunc = true) (poll : s.poll = .sending elem) :
    Kept co setup { s with poll := .popping elem, sent := s.sent ++ [s.payload setup elem] } := by
  have first := kept.first elem (Or.inl poll)
  obtain ⟨gone, stream, sent⟩ := kept.stream
  obtain ⟨rest, ready⟩ := List.head?_eq_some_iff.mp first
  have nodes := kept.nodes
  rw [inHand, poll] at nodes
  rw [waiting, poll] at stream
  dsimp only at stream
  rw [if_pos func] at sent
  refine ⟨⟨nodes, kept.filled, gone ++ [s.payload setup elem], ?_, by rw [if_pos func, sent]⟩, ?_, ?_⟩
  · rw [ready] at stream
    rw [waiting, ready, List.tail_cons, List.append_assoc]
    exact stream
  · exact first_of_popping first
  · exact fun _ other => by cases other

theorem Kept.popped (kept : Kept co setup s) (poll : s.poll = .popping elem) :
    Kept co setup { s with lists := co.coListPopFront .ready s.lists, poll := .pushing elem } := by
  obtain ⟨rest, ready⟩ := kept.head (Or.inr poll)
  have nodes := kept.nodes
  have stream := kept.stream
  rw [inHand, poll, ready] at nodes
  rw [waiting, poll, ready] at stream
  have free_after : co.elems (co.coListPopFront .ready s.lists) .free = co.elems s.lists .free :=
    (co.popFront_elems _ _ _).trans (if_neg (by decide))
  have ready_after : co.elems (co.coListPopFront .ready s.lists) .ready = rest := by
    rw [co.popFront_elems, if_pos rfl, ready, List.tail_cons]
  refine ⟨⟨?_, kept.filled, ?_⟩, ?_, ?_⟩
  · rw [free_after, ready_after, inHand]
    refine List.Perm.trans ?_ nodes
    rw [List.append_nil, List.append_assoc]
    exact List.Perm.append_left _ (List.perm_append_singleton _ _)
  · rw [waiting, ready_after]
    exact stream
  · rintro node (other | other) <;> cases other
  · exact fun _ other => by cases other

theorem Kept.pushed (kept : Kept co setup s) (poll : s.poll = .pushing elem) :
    Kept co setup { s with lists := co.coListPushBack .free elem s.lists, poll := .picking } := by
  have nodes := kept.nodes
  have stream := kept.stream
  have once := kept.nodup
  rw [inHand, poll] at nodes once
  rw [waiting, poll] at stream
  have apart := (List.nodup_append.mp once).2.2
  have fresh : ∀ any, elem ∉ co.elems s.lists any := by
    intro any member
    cases any with
    | free => exact apart elem (List.mem_append_left _ member) elem List.mem_cons_self rfl
    | ready => exact apart elem (List.mem_append_right _ member) elem List.mem_cons_self rfl
  have free_after : co.elems (co.coListPushBack .free elem s.lists) .free = co.elems s.lists .free ++ [elem] :=
    (co.pushBack_elems _ _ _ _ fresh).trans (if_pos rfl)
  have ready_after : co.elems (co.coListPushBack .free elem s.lists) .ready = co.elems s.lists .ready :=
    (co.pushBack_elems _ _ _ _ fresh).trans (if_neg (by decide))
  refine ⟨⟨?_, kept.filled, ?_⟩, ?_, ?_⟩
  · rw [free_after, ready_after, inHand]
    refine List.Perm.trans ?_ nodes
    rw [List.append_nil, List.append_assoc, List.append_assoc]
    exact List.Perm.append_left _ List.perm_append_comm
  · rw [waiting, ready_after]
    exact stream
  · rintro node (other | other) <;> cases other
  · exact fun _ other => by cases other

/-- The task gives up, or has nothing more to send. -/
theorem Kept.idle (kept : Kept co setup s) (waits : s.waiting co = co.elems s.lists .ready) (hand : s.inHand = []) :
    Kept co setup { s with poll := .idle } := by
  have nodes := kept.nodes
  have stream := kept.stream
  rw [hand] at nodes
  rw [waits] at stream
  refine ⟨⟨nodes, kept.filled, stream⟩, ?_, ?_⟩
  · rintro node (other | other) <;> cases other
  · exact fun _ other => by cases other

theorem Kept.poll (kept : Kept co setup s) {sendLen : UInt32} (taken : s.pollStep co setup sendLen = some t) :
    Kept co setup t := by
  rw [pollStep] at taken
  cases poll : s.poll with
  | idle =>
    rw [poll] at taken
    cases taken
  | picking =>
    rw [poll] at taken
    dsimp only at taken
    split at taken
    next elem picked => exact Option.some.inj taken ▸ kept.picked poll picked
    next => exact Option.some.inj taken ▸ kept.idle (by rw [waiting, poll]) (by rw [inHand, poll])
  | sending elem =>
    rw [poll] at taken
    dsimp only at taken
    split at taken
    · exact Option.some.inj taken ▸ kept.idle (by rw [waiting, poll]) (by rw [inHand, poll])
    · exact Option.some.inj taken ▸ kept.sent_one (kept.called elem poll) poll
  | popping elem =>
    rw [poll] at taken
    exact Option.some.inj taken ▸ kept.popped poll
  | pushing elem =>
    rw [poll] at taken
    exact Option.some.inj taken ▸ kept.pushed poll

theorem Kept.step (kept : Kept co setup s) (roomy : setup.Roomy) {event : Event}
    (taken : step co setup event s = some t) : Kept co setup t := by
  cases event with
  | chunk chunk isEof frameLen => exact Option.some.inj taken ▸ kept.rx roomy
  | endFrame => exact Option.some.inj taken ▸ ⟨⟨kept.nodes, kept.filled, kept.stream⟩, kept.first, kept.called⟩
  | task sendLen => exact kept.poll taken
  | poll =>
    rw [VideoTransfer.step] at taken
    split at taken
    next poll =>
      refine Option.some.inj taken ▸ ⟨⟨?_, kept.filled, ?_⟩, ?_, ?_⟩
      · have nodes := kept.nodes
        rwa [inHand, poll] at nodes
      · have stream := kept.stream
        rwa [waiting, poll] at stream
      · rintro node (other | other) <;> cases other
      · exact fun _ other => by cases other
    next => cases taken

/-- Every node is pushed once. -/
theorem initNodes_elems (lists : S) :
    co.elems (initNodes co lists) .free = List.range poolNodes ∧ co.elems (initNodes co lists) .ready = [] := by
  rw [initNodes]
  generalize poolNodes = count
  induction count with
  | zero =>
    rw [List.range_zero, List.foldl_nil, co.init_elems, co.init_elems, co.init_elems]
    exact ⟨rfl, rfl⟩
  | succ count ih =>
    rw [List.range_succ, List.foldl_append, List.foldl_cons, List.foldl_nil]
    generalize List.foldl _ _ (List.range count) = pushed at ih
    have fresh : ∀ any, count ∉ co.elems pushed any := by
      intro any
      cases any with
      | free => rw [ih.1]; exact List.not_mem_range_self
      | ready => rw [ih.2]; exact List.not_mem_nil
    rw [co.pushBack_elems _ _ _ _ fresh, co.pushBack_elems _ _ _ _ fresh, if_pos rfl, if_neg (by decide), ih.1, ih.2]
    exact ⟨rfl, rfl⟩

theorem kept_init (lists : S) (own : H) : Kept co setup (tvideoPoolInit co lists own) := by
  obtain ⟨free, ready⟩ := @initNodes_elems S co lists
  have nothing : waiting co (tvideoPoolInit co lists own) = [] := ready
  refine ⟨⟨?_, fun _ _ => Nat.zero_le _, [], ?_, (ite_self _).symm⟩, ?_, ?_⟩
  · change (co.elems (initNodes co lists) .free ++ co.elems (initNodes co lists) .ready ++ []).Perm _
    rw [free, ready, List.append_nil, List.append_nil]
  · rw [nothing]
    rfl
  · rintro node (other | other) <;> cases other
  · exact fun _ other => by cases other

end TvideoPool

open TvideoPool

/-! ## Results -/

/-- At any moment of any run each node is in one place and within its slot, and of the chunks that found a node those that
are gone were sent, in order and up to `node_len` bytes of each. -/
theorem pool_conserved (co : CoLists S) (setup : Setup H) (roomy : setup.Roomy) (lists : S) (own : H)
    {moments : List (Moment (TvideoPool S H) Event)} {final : TvideoPool S H}
    (run : Run (Machine.Step (step co setup)) (tvideoPoolInit co lists own) moments final) :
    Machine.Always (Conserved co setup) moments final := by
  have always := @Machine.always_of_invariant _ _ _ _ _ _ (Kept co setup) (fun _ _ => True) run (kept_init lists own)
    (fun kept _ taken => kept.step roomy taken) (fun _ _ => trivial)
  exact always.mono fun s kept => kept.toConserved

/-- The two lists as they are. -/
def plainLists : CoLists (PoolList → List Nat) where
  elems s := s
  coListInit list s := Function.update s list []
  coListPick list s := (s list).head?
  coListPopFront list s := Function.update s list (s list).tail
  coListPushBack list node s := Function.update s list (s list ++ [node])
  init_elems list other s := by rw [Function.update_apply]
  pick_elems _ _ := rfl
  popFront_elems list other s := by rw [Function.update_apply]
  pushBack_elems list other node s _ := by rw [Function.update_apply]

/-- The set-up of `video_buffer_open`, with `g_pkt_seq`. -/
def videoBufferSetup : Setup UInt32 where
  openType := .sccb
  sendType := .intf
  sendFunc := true
  pktHeaderSize := 4
  addPktHeader := some fun param gPktSeq =>
    (VideoBuffer.videoBufferAddPktHeader param.frameId.toUInt16 gPktSeq param.isEof param.frameLen,
      VideoBuffer.nextSeq gPktSeq param.isEof)
  headerFits add given param gPktSeq := by
    obtain rfl := Option.some.inj given
    exact Nat.le_refl 4

abbrev bufferStart : TvideoPool (PoolList → List Nat) UInt32 := tvideoPoolInit plainLists (fun _ => []) 0

/-- A second chunk comes while the first is sent. -/
theorem two_chunks_conserved :
    ∃ moments final, Run (Machine.Step (step plainLists videoBufferSetup)) bufferStart moments final ∧
      final.sent = [[10, 20, 30]] ∧ final.poll = .sending 1 ∧
      Machine.Always (Conserved plainLists videoBufferSetup) moments final := by
  obtain ⟨moments, final, run, -, shown⟩ := @Machine.run_of_any _ _ (step plainLists videoBufferSetup) bufferStart
    [.task 0, .task 0, .task 0, .task 7, .chunk ⟨[40, 50], by decide⟩ true 5, .task 0, .poll,
      .chunk ⟨[10, 20, 30], by decide⟩ false 0]
    (fun s => decide (s.sent = [[10, 20, 30]] ∧ s.poll = .sending 1)) (by decide)
  obtain ⟨sent, poll⟩ := of_decide_eq_true shown
  exact ⟨moments, final, run, sent, poll, pool_conserved plainLists videoBufferSetup (by decide) _ _ run⟩

/-- A chunk with a byte more than a node holds. -/
def longChunk : Chunk := ⟨List.replicate 1469 0, by rw [List.length_replicate]; decide⟩

/-- The bytes that are sent of the long chunk are not a whole chunk. -/
theorem long_chunk_cut :
    ∃ moments final, Run (Machine.Step (step plainLists videoBufferSetup)) bufferStart moments final ∧
      final.poll = .picking ∧ plainLists.elems final.lists .ready = [] ∧
      ¬∃ whole : List (List UInt8), whole.Sublist (final.camera.map Prod.fst) ∧ final.sent.flatten = whole.flatten := by
  obtain ⟨moments, final, run, -, shown⟩ := @Machine.run_of_any _ _ (step plainLists videoBufferSetup) bufferStart
    [.task 0, .task 0, .task 1472, .task 0, .poll, .chunk longChunk false 0]
    (fun s => decide (s.poll = .picking ∧ s.lists .ready = [] ∧ s.sent.map List.length = [1468] ∧
      s.camera.map (fun chunk => chunk.1.length) = [1469])) (by decide +kernel)
  obtain ⟨poll, ready, sent, camera⟩ := of_decide_eq_true shown
  refine ⟨moments, final, run, poll, ready, ?_⟩
  rintro ⟨whole, sublist, same⟩
  have lengths := sublist.map List.length
  have total := congrArg List.length same
  rw [List.map_map, show List.length ∘ Prod.fst = fun chunk : List UInt8 × Bool => chunk.1.length from rfl, camera,
    List.sublist_singleton] at lengths
  rw [List.length_flatten, List.length_flatten, sent] at total
  cases lengths with
  | inl none => rw [none] at total; cases total
  | inr one => rw [one] at total; cases total

end BekenSdk.VideoTransfer
