import BekenSdk.VideoBuffer.Transfer

/-! Which frames of the camera reach a call of `video_buffer_read_frame` that was
waiting for them. The number of a packet is a byte in its header and a word in
the receiver, and the receiver wants another id than that of the last frame.
-/

set_option autoImplicit false

namespace BekenSdk.VideoBuffer
open Base

/-- A frame arrives in order and complete at a call that waits, after which the
interrupts and the task that sends have taken turns in any way. -/
structure Arrival (start : Transfer) (frame : CameraFrame) (r : Nat) (user : UserBuf)
    (moments : List (Moment Transfer TransferEvent)) (final : Transfer) : Prop where
  run : Run (Machine.Step Transfer.step) start moments final
  awaits : start.video.Awaits r user
  initial : start.video.vbuf.startBuf = .init
  first : start.pool.ready = []
  calls : (moments.map Moment.event).filter TransferEvent.camera = frame.calls
  complete : ∀ moment ∈ moments, ¬LosesNode moment.before moment.event
  sent : final.pool.ready = []
  fits : frame.bytes.length ≤ user.bufLen.toNat

/-- What sender and receiver have to agree on. -/
structure Deliverable (start : Transfer) (frame : CameraFrame) : Prop where
  packets : frame.packets ≤ 255
  aligned : start.pool.gPktSeq.toUInt8 = 0
  other : start.pool.frameId.toUInt8.toUInt32 ≠ start.video.vbuf.frameId
  right : start.video.RightFrame frame.bytes

namespace CameraFrame
variable {frame : CameraFrame} {frameId : UInt16} {gPktSeq : UInt32}

/-- The nodes of a whole frame, the last one apart. -/
theorem nodes_calls : ∃ (front : List Packet) (last : Packet),
    TransferEvent.nodes frameId gPktSeq frame.calls = front ++ [last] ∧ front.length = frame.front.length ∧
      (∀ p ∈ front, p.Of frameId.toUInt8 ∧ p.isEof ≠ 1) ∧ last.Of frameId.toUInt8 ∧ last.isEof = 1 ∧
        content (front ++ [last]) = frame.bytes ∧ (front ++ [last]).map (fun p => p.pktSeq.toNat) =
          (List.range' 1 frame.packets).map (seqAfter gPktSeq) := by
  have nodes := @frontNodes frameId gPktSeq frame.front fun data member =>
    frame.sized data (List.mem_append_left _ member)
  obtain ⟨some, short⟩ := frame.sized frame.last (by simp)
  refine ⟨_, _, rfl, nodes.length, nodes.mine, ?_, rfl, ?_, ?_⟩
  · rw [nodes.counters]
    exact nodeOf_of some
  · rw [content_append, nodes.content, content_one, nodeOf_payload short, bytes, List.flatten_append]
    simp
  · rw [List.map_append, nodes.numbers, List.map_singleton, nodes.counters, nodeOf_pktSeq, seqAfter_add, packets,
      List.range'_1_concat, List.map_append, List.map_singleton, Nat.add_comm frame.front.length]

end CameraFrame

/-- The numbers are those of the places, for a frame of some packets. -/
theorem seqs_iff {gPktSeq : UInt32} {count : Nat} (positive : 0 < count) :
    (List.range' 1 count).map (seqAfter gPktSeq) = List.range' 1 count ↔ count ≤ 255 ∧ gPktSeq.toUInt8 = 0 := by
  have zero : gPktSeq.toUInt8 = 0 ↔ gPktSeq.toNat % 256 = 0 := by
    rw [← UInt8.toNat_inj, UInt32.toNat_toUInt8]
    rfl
  rw [zero]
  constructor
  · intro same
    have fixed : ∀ i ∈ List.range' 1 count, seqAfter gPktSeq i = i := by
      intro i member
      exact List.map_inj_left.mp (same.trans (List.map_id _).symm) i member
    have first := fixed 1 (List.mem_range'_1.mpr (by omega))
    have last := fixed count (List.mem_range'_1.mpr (by omega))
    rw [seqAfter] at first last
    omega
  · rintro ⟨few, aligned⟩
    refine (List.map_congr_left fun i member => ?_).trans (List.map_id _)
    have inside := List.mem_range'_1.mp member
    rw [seqAfter, id]
    omega

section
variable {start final : Transfer} {frame : CameraFrame} {r : Nat} {user : UserBuf}
  {moments : List (Moment Transfer TransferEvent)}

theorem Arrival.keeps (arrival : Arrival start frame r user moments final) :
    ∀ moment ∈ moments, Keeps moment := by
  intro moment member
  refine ⟨arrival.complete moment member, fun data isEof frameLen same => ?_⟩
  have listed : moment.event ∈ frame.calls := by
    rw [← arrival.calls, List.mem_filter, same]
    exact ⟨same ▸ List.mem_map_of_mem member, rfl⟩
  rw [same, CameraFrame.calls, List.mem_cons, List.mem_cons, List.mem_reverse, List.mem_map] at listed
  rcases listed with none | last | front
  · cases none
  · obtain ⟨rfl, _, _⟩ := TransferEvent.nodeFull.inj last
    exact (frame.sized _ (by simp)).1
  · obtain ⟨other, among, one⟩ := front
    obtain ⟨rfl, _, _⟩ := TransferEvent.nodeFull.inj one
    exact (frame.sized _ (List.mem_append_left _ among)).1

/-- In any run the receiver gets the nodes of the frame one after the other. -/
theorem Arrival.returns_iff (arrival : Arrival start frame r user moments final) :
    final.video.Returns r (Video.success frame.bytes) ↔
      Catchable start.video start.pool.frameId.toUInt8
        (TransferEvent.nodes start.pool.frameId start.pool.gPktSeq frame.calls) ∧
          start.video.RightFrame frame.bytes := by
  obtain ⟨_, sent, order, delivered⟩ := InFlight.of_run arrival.run arrival.keeps arrival.first
  rw [← TransferEvent.nodes_filter, arrival.calls, arrival.sent, List.append_nil] at order
  obtain ⟨front, last, made, _, mine, lastMine, ended, bytes, _⟩ :=
    @CameraFrame.nodes_calls frame start.pool.frameId start.pool.gPktSeq
  have room : (content (front ++ [last])).length ≤ user.bufLen.toNat := by
    rw [bytes]
    exact arrival.fits
  rw [delivered, ← order, made, ← bytes]
  exact Video.deliver_returns_iff arrival.awaits arrival.initial mine lastMine ended room

theorem CameraFrame.numbered_iff {frameId : UInt16} {gPktSeq : UInt32} :
    Numbered frameId.toUInt8 (TransferEvent.nodes frameId gPktSeq frame.calls) ↔
      frame.packets ≤ 255 ∧ gPktSeq.toUInt8 = 0 := by
  obtain ⟨front, last, made, length, mine, lastMine, _, _, numbers⟩ := @CameraFrame.nodes_calls frame frameId gPktSeq
  have count : (front ++ [last]).length = frame.packets := by
    rw [List.length_append, length]
    rfl
  rw [made, ← seqs_iff (show 0 < frame.packets from Nat.succ_pos _)]
  constructor
  · intro kept
    rw [← numbers, kept.numbers, count]
  · intro same
    refine ⟨fun p member => ?_, numbers.trans (same.trans (by rw [count]))⟩
    cases List.mem_append.mp member with
    | inl early => exact (mine p early).1.mine
    | inr now => rw [List.mem_singleton.mp now, lastMine.mine]

/-- An interrupt finds a node, which a turn of the task frees again. -/
theorem send_one {s : Transfer} {call : TransferEvent} (empty : s.pool.ready = []) (unused : s.pool.free ≠ 0)
    (interrupt : call.camera = true) : ¬LosesNode s call ∧ ∃ t, Transfer.step call s = some t ∧
      t.pollTurn.pool.ready = [] ∧ t.pollTurn.pool.free ≠ 0 := by
  cases call with
  | nodeFull data isEof frameLen =>
    refine ⟨fun lost => unused lost.2, _, rfl, ?_⟩
    by_cases none : data = []
    · have same : s.pool.tvideoRxHandler data isEof frameLen = s.pool := if_pos none
      rw [same, Transfer.pollTurn]
      dsimp only
      rw [empty]
      exact ⟨empty, unused⟩
    · have ready : (s.pool.tvideoRxHandler data isEof frameLen).ready =
          [nodeOf s.pool.frameId s.pool.gPktSeq data isEof frameLen] := by
        rw [TvideoPool.tvideoRxHandler, if_neg none, if_neg unused, empty]
        rfl
      rw [Transfer.pollTurn]
      dsimp only
      rw [ready]
      exact ⟨rfl, Nat.succ_ne_zero _⟩
  | endFrame =>
    refine ⟨fun lost => lost, _, rfl, ?_⟩
    have ready : s.pool.tvideoEndFrameHandler.ready = [] := empty
    rw [Transfer.pollTurn]
    dsimp only
    rw [ready]
    exact ⟨empty, unused⟩
  | poll => cases interrupt

/-- A turn of the task after every interrupt is enough for any number of them. -/
theorem exists_complete_run (empty : start.pool.ready = []) (unused : start.pool.free ≠ 0) {calls : List TransferEvent}
    (all : ∀ call ∈ calls, call.camera = true) : ∃ moments final, Run (Machine.Step Transfer.step) start moments final ∧
      (moments.map Moment.event).filter TransferEvent.camera = calls ∧
        (∀ moment ∈ moments, ¬LosesNode moment.before moment.event) ∧ final.pool.ready = [] ∧ final.pool.free ≠ 0 := by
  induction calls with
  | nil => exact ⟨[], start, .nil, rfl, fun _ member => absurd member List.not_mem_nil, empty, unused⟩
  | cons call earlier ih =>
    obtain ⟨moments, s, run, same, complete, ready, free⟩ :=
      ih fun other member => all other (List.mem_cons_of_mem _ member)
    have interrupt := all call List.mem_cons_self
    obtain ⟨kept, t, taken, emptied, freed⟩ := send_one ready free interrupt
    refine ⟨⟨t, .poll⟩ :: ⟨s, call⟩ :: moments, t.pollTurn, .next (.next run ⟨rfl, taken⟩) ⟨rfl, rfl⟩, ?_, ?_,
      emptied, freed⟩
    · rw [List.map_cons, List.map_cons, List.filter_cons_of_neg Bool.false_ne_true, List.filter_cons_of_pos interrupt,
        same]
    · exact List.forall_mem_cons.mpr ⟨id, List.forall_mem_cons.mpr ⟨kept, complete⟩⟩

/-- Every frame that fits can arrive. -/
theorem exists_arrival (awaits : start.video.Awaits r user) (initial : start.video.vbuf.startBuf = .init)
    (first : start.pool.ready = []) (unused : start.pool.free ≠ 0) (fits : frame.bytes.length ≤ user.bufLen.toNat) :
    ∃ moments final, Arrival start frame r user moments final := by
  have all : ∀ call ∈ frame.calls, call.camera = true := by
    intro call member
    rw [CameraFrame.calls, List.mem_cons, List.mem_cons, List.mem_reverse, List.mem_map] at member
    rcases member with rfl | rfl | ⟨data, _, rfl⟩ <;> rfl
  obtain ⟨moments, final, run, calls, complete, sent, _⟩ := exists_complete_run first unused all
  exact ⟨moments, final, run, awaits, initial, first, calls, complete, sent, fits⟩

end

/-! ## Sample runs -/

/-- The first call, with room for 512 bytes, and nothing was sent before. -/
def firstRead : Transfer where
  pool := .tvideoPoolInit
  video := (Video.opened fun _ => 0).offer 0 ⟨0x1000, 512, by decide⟩

theorem firstRead_arrival {frame : CameraFrame} (fits : frame.bytes.length ≤ 512) :
    ∃ moments final, Arrival firstRead frame 0 ⟨0x1000, 512, by decide⟩ moments final := by
  have awaits : firstRead.video.Awaits 0 ⟨0x1000, 512, by decide⟩ := ⟨rfl, by decide, rfl, rfl, rfl, rfl⟩
  exact exists_arrival awaits rfl rfl (by decide) fits

def twoPacketFrame : CameraFrame := ⟨[[0xff, 0xd8, 0xff, 0xd9]], [0, 4, 0, 0, 0], 9, by decide⟩

/-- A right image of 256 bytes, in as many packets. -/
def frame256 : CameraFrame where
  front := ([0xff, 0xd8] ++ List.replicate 247 0 ++ [0xff, 0xd9, 0, 0xfb, 0, 0] : List UInt8).map fun byte => [byte]
  last := [0]
  frameLen := 256
  sized := by decide +kernel

end BekenSdk.VideoBuffer
