import BekenSdk.VideoBuffer.Buffer

/-! Packets that are received while a call of `video_buffer_read_frame` waits and
nobody interrupts. The call gets all of the packets if and only if the first one
begins a frame and they are numbered; otherwise it misses some of their bytes.
-/

set_option autoImplicit false

namespace BekenSdk.VideoBuffer
open Base

/-- The state in which a packet is tested against the counters. -/
def Vbuf.began (p : Packet) (g : Vbuf) : Vbuf := if g.Starts p then g.startOfFrame p else g

namespace Video

/-- The call is waiting and nothing has happened since. -/
structure Awaits (s : Video) (r : Nat) (user : UserBuf) : Prop where
  place : s.reader r = .waiting user
  present : user.buf ≠ 0
  base : s.vbuf.bufBase = user.buf
  len : s.vbuf.bufLen = user.bufLen
  silent : s.vbuf.areadySemaphore = false
  idle : s.recv = .idle

/-- The packet with what it has changed. -/
def received (p : Packet) (g : Vbuf) (memory : Cells) (s : Video) : Video :=
  { s with pushed := s.pushed ++ [p], vbuf := g, memory := memory }

variable {s : Video} {p : Packet}

theorem push_entered (accepts : s.vbuf.Accepts) (sized : sizeofVbHdr ≤ p.data.length) :
    s.push p = (s.received p s.vbuf s.memory).setRecv (.entered p) := by
  unfold Video.push
  dsimp only
  rw [if_pos accepts, if_neg (Nat.not_lt_of_le sized)]
  rfl

theorem recvStep_entered : ((s.received p s.vbuf s.memory).setRecv (.entered p)).recvStep =
    (s.received p (s.vbuf.began p) s.memory).setRecv (.begun p) := by
  rw [Vbuf.began, recvStep]
  change setRecv (.begun p) (if s.vbuf.Starts p then _ else _) = _
  split <;> rfl

theorem iterate_idle (idle : s.recv = .idle) (steps : Nat) : recvStep^[steps] s = s := by
  induction steps with
  | zero => rfl
  | succ steps ih =>
    have still : s.recvStep = s := by rw [recvStep, idle]
    rw [Function.iterate_succ_apply, still, ih]

theorem received_idle {g : Vbuf} {memory : Cells} (idle : s.recv = .idle) :
    (s.received p g memory).setRecv .idle = s.received p g memory := by
  rw [setRecv, received, ← idle]

/-- Two steps of the call lead to the test of the counters. -/
theorem receive_begun (accepts : s.vbuf.Accepts) (sized : sizeofVbHdr ≤ p.data.length) :
    s.videoBufferRecvVideoData p = recvStep^[6] ((s.received p (s.vbuf.began p) s.memory).setRecv (.begun p)) := by
  rw [videoBufferRecvVideoData, push_entered accepts sized, Function.iterate_succ_apply, recvStep_entered]

theorem receive_skipped (idle : s.recv = .idle) (accepts : s.vbuf.Accepts) (sized : sizeofVbHdr ≤ p.data.length)
    (unexpected : ¬(s.vbuf.began p).Expects p) :
    s.videoBufferRecvVideoData p = s.received p (s.vbuf.began p) s.memory := by
  have tested : ((s.received p (s.vbuf.began p) s.memory).setRecv (.begun p)).recvStep =
      (s.received p (s.vbuf.began p) s.memory).setRecv .idle := if_neg unexpected
  rw [receive_begun accepts sized, Function.iterate_succ_apply, tested, received_idle idle]
  exact iterate_idle (s := s.received p _ _) idle 5

/-- Three more steps count the packet. -/
theorem receive_counts (accepts : s.vbuf.Accepts) (sized : sizeofVbHdr ≤ p.data.length)
    (expected : (s.vbuf.began p).Expects p) (room : p.orgLen ≤ (s.vbuf.began p).leftLen) :
    s.videoBufferRecvVideoData p = recvStep^[3] ((s.received p ((s.vbuf.began p).count p)
      (storeBytes s.memory (s.vbuf.began p).bufPtr.toNat p.payload)).setRecv
        (if p.isEof = 1 then .counted p else .idle)) := by
  have tested : ((s.received p (s.vbuf.began p) s.memory).setRecv (.begun p)).recvStep =
      (s.received p (s.vbuf.began p) s.memory).setRecv (.fits p) := (if_pos expected).trans (if_pos room)
  rw [receive_begun accepts sized, Function.iterate_succ_apply, tested]
  rfl

theorem receive_counted (idle : s.recv = .idle) (accepts : s.vbuf.Accepts) (sized : sizeofVbHdr ≤ p.data.length)
    (expected : (s.vbuf.began p).Expects p) (room : p.orgLen ≤ (s.vbuf.began p).leftLen) (more : p.isEof ≠ 1) :
    s.videoBufferRecvVideoData p = s.received p ((s.vbuf.began p).count p)
      (storeBytes s.memory (s.vbuf.began p).bufPtr.toNat p.payload) := by
  rw [receive_counts accepts sized expected room, if_neg more, received_idle idle]
  exact iterate_idle (s := s.received p _ _) idle 3

theorem receive_ended (idle : s.recv = .idle) (accepts : s.vbuf.Accepts) (sized : sizeofVbHdr ≤ p.data.length)
    (expected : (s.vbuf.began p).Expects p) (room : p.orgLen ≤ (s.vbuf.began p).leftLen) (last : p.isEof = 1) :
    s.videoBufferRecvVideoData p =
      let g := (s.vbuf.began p).count p
      let memory := storeBytes s.memory (s.vbuf.began p).bufPtr.toNat p.payload
      s.received p ((g.setStartBuf (if g.rightImage memory then .get else .err)).setSemaphore true) memory := by
  rw [receive_counts accepts sized expected room, if_pos last]
  exact received_idle idle

/-! ## A list of packets -/

def deliver (packets : List Packet) (s : Video) : Video :=
  packets.foldl (fun s p => s.videoBufferRecvVideoData p) s

theorem deliver_append (first rest : List Packet) : s.deliver (first ++ rest) = (s.deliver first).deliver rest :=
  List.foldl_append

end Video

/-- The first packet begins a frame and no number is missing. -/
def Catchable (start : Video) (id : UInt8) (packets : List Packet) : Prop :=
  id.toUInt32 ≠ start.vbuf.frameId ∧ Numbered id packets

/-- What has become of the packets that were received. Missed bytes are never
made up for. -/
inductive Progress (start : Video) (id : UInt8) (packets : List Packet) (g : Vbuf) (memory : Cells) : Prop where
  | fresh : packets = [] → g.startBuf = .init → g.frameId = start.vbuf.frameId → memory = start.memory →
      Progress start id packets g memory
  | unbegun : packets ≠ [] → ¬Catchable start id packets → g.startBuf = .init → g.frameId = start.vbuf.frameId →
      Progress start id packets g memory
  | missed : ¬Catchable start id packets → g.startBuf = .copy → g.frameId = id.toUInt32 →
      g.frameLen.toNat < (content packets).length → Progress start id packets g memory
  | caught : Catchable start id packets → g.startBuf = .copy → g.frameId = id.toUInt32 →
      g.Collects memory packets → memory = storeBytes start.memory g.bufBase.toNat (content packets) →
      Progress start id packets g memory

/-- A packet of the frame that is sent. -/
structure Packet.Of (id : UInt8) (p : Packet) : Prop where
  mine : p.id = id
  sized : sizeofVbHdr < p.data.length

variable {s start : Video} {p : Packet} {packets : List Packet} {id : UInt8} {g : Vbuf} {memory : Cells}

theorem Packet.Of.payload_pos (member : p.Of id) : 0 < p.payload.length := by
  have sized := member.sized
  rw [sizeofVbHdr] at sized
  rw [p.payload_length]
  omega

theorem content_pos (all : ∀ q ∈ packets, q.Of id) (some : packets ≠ []) : 0 < (content packets).length := by
  cases packets with
  | nil => exact absurd rfl some
  | cons q rest =>
    have one := (all q List.mem_cons_self).payload_pos
    rw [content, List.flatMap_cons, List.length_append]
    omega

theorem Catchable.front (catchable : Catchable start id (packets ++ [p])) : Catchable start id packets :=
  ⟨catchable.1, catchable.2.front⟩

/-- What a call makes of a packet before it looks for the end of the frame. -/
inductive Absorbs (start : Video) (id : UInt8) (packets : List Packet) (p : Packet) (g : Vbuf) (memory : Cells) :
    Prop where
  | skipped : ¬(g.began p).Expects p → ¬Catchable start id (packets ++ [p]) →
      Progress start id (packets ++ [p]) (g.began p) memory → Absorbs start id packets p g memory
  | counted : (g.began p).Expects p → p.orgLen ≤ (g.began p).leftLen →
      Progress start id (packets ++ [p]) ((g.began p).count p)
        (storeBytes memory (g.began p).bufPtr.toNat p.payload) → Absorbs start id packets p g memory

/-- The packet is not the first one of another frame. -/
theorem began_of_mine (member : p.Of id) (mine : g.frameId = id.toUInt32) : g.began p = g :=
  if_neg fun starts => starts.1 (by rw [member.mine, mine])

theorem absorbs_missed (member : p.Of id) (lost : ¬Catchable start id packets) (copying : g.startBuf = .copy)
    (mine : g.frameId = id.toUInt32) (fewer : g.frameLen.toNat < (content packets).length)
    (room : (content (packets ++ [p])).length ≤ g.bufLen.toNat) : Absorbs start id packets p g memory := by
  have same := began_of_mine member mine
  have sized := Nat.le_of_lt member.sized
  have still : ¬Catchable start id (packets ++ [p]) := fun catchable => lost catchable.front
  rw [content_snoc_length] at room
  by_cases expected : g.Expects p
  · refine .counted (by rwa [same]) ?_ ?_
    · rw [same, Vbuf.room_iff (by omega) sized]
      omega
    · rw [same]
      refine .missed still copying mine ?_
      rw [Vbuf.count_frameLen sized (by omega), content_snoc_length]
      omega
  · refine .skipped (by rwa [same]) still ?_
    rw [same]
    exact .missed still copying mine (by rw [content_snoc_length]; omega)

theorem absorbs_caught (member : p.Of id) (catchable : Catchable start id packets) (copying : g.startBuf = .copy)
    (mine : g.frameId = id.toUInt32) (collects : g.Collects memory packets)
    (same : memory = storeBytes start.memory g.bufBase.toNat (content packets))
    (room : (content (packets ++ [p])).length ≤ g.bufLen.toNat) : Absorbs start id packets p g memory := by
  have began := began_of_mine member mine
  have sized := Nat.le_of_lt member.sized
  by_cases expected : g.Expects p
  · have number := collects.number catchable.2 expected.2.1
    have few := catchable.2.length_lt
    refine .counted (by rwa [began]) ?_ ?_
    · rw [began]
      exact (collects.room sized).mpr room
    · rw [began]
      refine .caught ⟨catchable.1, catchable.2.snoc member.mine number⟩ copying mine
        (collects.snoc sized (by omega) room) ?_
      have base : (g.count p).bufBase = g.bufBase := rfl
      rw [collects.pointer, base, content_append, content_one, storeBytes_append, ← same]
  · have lost : ¬Catchable start id (packets ++ [p]) := fun now =>
      expected ⟨by rw [member.mine, mine], collects.expects catchable.2 now.2.last, copying⟩
    refine .skipped (by rwa [began]) lost ?_
    rw [began]
    refine .missed lost copying mine ?_
    rw [collects.length, content_snoc_length]
    have more := member.payload_pos
    omega

/-- Before a frame has begun only its first packet changes anything. -/
theorem absorbs_initial (member : p.Of id) (all : ∀ q ∈ packets, q.Of id) (initial : g.startBuf = .init)
    (other : g.frameId = start.vbuf.frameId) (based : g.bufBase ≠ 0)
    (bounded : g.bufBase.toNat + g.bufLen.toNat < 2 ^ 32)
    (state : packets = [] ∧ memory = start.memory ∨ packets ≠ [] ∧ ¬Catchable start id packets)
    (room : (content (packets ++ [p])).length ≤ g.bufLen.toNat) : Absorbs start id packets p g memory := by
  have sized := Nat.le_of_lt member.sized
  by_cases starts : g.Starts p
  · have began : g.began p = g.startOfFrame p := if_pos starts
    have collects : (g.startOfFrame p).Collects memory [] := Vbuf.startOfFrame_collects based bounded
    have number : p.pktSeq.toNat = 1 := congrArg UInt8.toNat starts.2
    have alone : p.payload.length ≤ g.bufLen.toNat := by
      rw [content_snoc_length] at room
      omega
    have fits : (content ([] ++ [p])).length ≤ g.bufLen.toNat := by
      rwa [List.nil_append, content_one]
    refine .counted ?_ ?_ ?_
    · rw [began]
      exact ⟨rfl, collects.expects (@Numbered.nil id) number, rfl⟩
    · rw [began]
      exact (collects.room sized).mpr fits
    · rw [began]
      have grown := collects.snoc sized (by decide) fits
      cases state with
      | inl first =>
        obtain ⟨rfl, same⟩ := first
        refine .caught ⟨?_, Numbered.nil.snoc member.mine number⟩ rfl (congrArg UInt8.toUInt32 member.mine) grown ?_
        · rw [← member.mine, ← other]
          exact starts.1
        · rw [List.nil_append, content_one, ← same]
          rfl
      | inr late =>
        refine .missed (fun now => late.2 now.front) rfl (congrArg UInt8.toUInt32 member.mine) ?_
        have before := content_pos all late.1
        rw [grown.length, List.nil_append, content_one, content_snoc_length]
        omega
  · have began : g.began p = g := if_neg starts
    have lost : ¬Catchable start id (packets ++ [p]) := by
      intro now
      cases state with
      | inl first =>
        obtain ⟨rfl, _⟩ := first
        refine starts ⟨?_, UInt8.toNat_inj.mp now.2.last⟩
        rw [member.mine, other]
        exact now.1
      | inr late => exact late.2 now.front
    refine .skipped ?_ lost ?_
    · rw [began]
      exact fun expected => BufSta.noConfusion (initial.symm.trans expected.2.2)
    · rw [began]
      exact .unbegun (by simp) lost initial other

theorem Progress.absorbs (progress : Progress start id packets g memory) (member : p.Of id)
    (all : ∀ q ∈ packets, q.Of id) (based : g.bufBase ≠ 0) (bounded : g.bufBase.toNat + g.bufLen.toNat < 2 ^ 32)
    (room : (content (packets ++ [p])).length ≤ g.bufLen.toNat) : Absorbs start id packets p g memory := by
  cases progress with
  | fresh none initial other same =>
    exact absorbs_initial member all initial other based bounded (Or.inl ⟨none, same⟩) room
  | unbegun some lost initial other =>
    exact absorbs_initial member all initial other based bounded (Or.inr ⟨some, lost⟩) room
  | missed lost copying mine fewer => exact absorbs_missed member lost copying mine fewer room
  | caught catchable copying mine collects same => exact absorbs_caught member catchable copying mine collects same room

/-! ## The call that waits -/

namespace Video
variable {r : Nat} {user : UserBuf} {report : Report}

theorem Awaits.received {g : Vbuf} {memory : Cells} (awaits : s.Awaits r user) (base : g.bufBase = s.vbuf.bufBase)
    (len : g.bufLen = s.vbuf.bufLen) (signal : g.areadySemaphore = s.vbuf.areadySemaphore) :
    (s.received p g memory).Awaits r user where
  place := awaits.place
  present := awaits.present
  base := base.trans awaits.base
  len := len.trans awaits.len
  silent := signal.trans awaits.silent
  idle := awaits.idle

theorem Awaits.based (awaits : s.Awaits r user) : s.vbuf.bufBase ≠ 0 := by
  rw [awaits.base]
  exact awaits.present

theorem Awaits.bounded (awaits : s.Awaits r user) : s.vbuf.bufBase.toNat + s.vbuf.bufLen.toNat < 2 ^ 32 := by
  rw [awaits.base, awaits.len]
  exact user.bounded

theorem Awaits.accepts (awaits : s.Awaits r user) (progress : Progress start id packets s.vbuf s.memory) :
    s.vbuf.Accepts := by
  refine ⟨awaits.based, ?_⟩
  cases progress with
  | fresh _ initial => exact Or.inr initial
  | unbegun _ _ initial => exact Or.inr initial
  | missed _ copying => exact Or.inl copying
  | caught _ copying => exact Or.inl copying

theorem began_kept : (g.began p).bufBase = g.bufBase ∧ (g.began p).bufLen = g.bufLen ∧
    (g.began p).areadySemaphore = g.areadySemaphore := by
  rw [Vbuf.began]
  split <;> exact ⟨rfl, rfl, rfl⟩

/-- Packets that do not end the frame. -/
theorem deliver_front (awaits : start.Awaits r user) (initial : start.vbuf.startBuf = .init)
    (all : ∀ q ∈ packets, q.Of id ∧ q.isEof ≠ 1) (room : (content packets).length ≤ user.bufLen.toNat) :
    (start.deliver packets).Awaits r user ∧ (start.deliver packets).reports = start.reports ∧
      Progress start id packets (start.deliver packets).vbuf (start.deliver packets).memory := by
  induction packets using List.reverseRecOn with
  | nil => exact ⟨awaits, rfl, .fresh rfl initial rfl rfl⟩
  | append_singleton front p ih =>
    have less : (content front).length ≤ user.bufLen.toNat := by
      rw [content_snoc_length] at room
      omega
    have early : ∀ q ∈ front, q.Of id ∧ q.isEof ≠ 1 := fun q member => all q (List.mem_append_left _ member)
    obtain ⟨waits, reports, progress⟩ := ih early less
    obtain ⟨mine, more⟩ := all p (by simp)
    have sized := Nat.le_of_lt mine.sized
    have accepts := waits.accepts progress
    have keeps := @began_kept p (start.deliver front).vbuf
    have room' : (content (front ++ [p])).length ≤ (start.deliver front).vbuf.bufLen.toNat := by rwa [waits.len]
    rw [deliver_append]
    change ((start.deliver front).videoBufferRecvVideoData p).Awaits r user ∧
      ((start.deliver front).videoBufferRecvVideoData p).reports = _ ∧ Progress _ _ _
        ((start.deliver front).videoBufferRecvVideoData p).vbuf ((start.deliver front).videoBufferRecvVideoData p).memory
    cases progress.absorbs mine (fun q member => (early q member).1) waits.based waits.bounded room' with
    | skipped unexpected _ next =>
      rw [receive_skipped waits.idle accepts sized unexpected]
      exact ⟨waits.received keeps.1 keeps.2.1 keeps.2.2, reports, next⟩
    | counted expected fits next =>
      rw [receive_counted waits.idle accepts sized expected fits more]
      exact ⟨waits.received keeps.1 keeps.2.1 keeps.2.2, reports, next⟩

/-- The waiting call goes on at once and returns `report`. -/
def Returns (r : Nat) (report : Report) (s : Video) : Prop :=
  ∃ t u v, step (.read r false) s = some t ∧ step (.read r false) t = some u ∧ step (.read r false) u = some v ∧
    v.reports = report :: s.reports

theorem not_returns_of_silent (place : s.reader r = .waiting user) (silent : s.vbuf.areadySemaphore = false) :
    ¬s.Returns r report := by
  rintro ⟨t, _, _, taken, -⟩
  rw [step, readStep, place] at taken
  dsimp only at taken
  rw [silent] at taken
  cases taken

/-- What the call returns depends on `start_buf` alone. -/
theorem returns_iff {frameLen : UInt32} {err : Int} (place : s.reader r = .waiting user)
    (signalled : s.vbuf.areadySemaphore = true)
    (outcome : ∀ t : Video, t.vbuf.startBuf = s.vbuf.startBuf → t.vbuf.frameLen = s.vbuf.frameLen →
      t.classify r user = t.setReader r (.outcome user frameLen err)) :
    s.Returns r report ↔ report = ⟨if frameLen ≥ user.bufLen then user.bufLen else frameLen, err,
      readBytes s.memory user.buf.toNat (if frameLen ≥ user.bufLen then user.bufLen else frameLen).toNat⟩ := by
  have first : step (.read r false) s = some (s.acquire r user) := by
    rw [step, readStep, place]
    exact if_pos signalled
  have woken : (s.acquire r user).reader r = .woken user := Function.update_self _ _ _
  have second : step (.read r false) (s.acquire r user) =
      some ((s.acquire r user).setReader r (.outcome user frameLen err)) := by
    rw [step, readStep, woken]
    exact congrArg some (outcome _ rfl rfl)
  have done : ((s.acquire r user).setReader r (.outcome user frameLen err)).reader r =
      .outcome user frameLen err := Function.update_self _ _ _
  have third : step (.read r false) ((s.acquire r user).setReader r (.outcome user frameLen err)) =
      some (((s.acquire r user).setReader r (.outcome user frameLen err)).finish r user frameLen err) := by
    rw [step, readStep, done]
  constructor
  · rintro ⟨t, u, v, one, two, three, reports⟩
    obtain rfl := Option.some.inj (first.symm.trans one)
    obtain rfl := Option.some.inj (second.symm.trans two)
    obtain rfl := Option.some.inj (third.symm.trans three)
    exact ((List.cons.inj reports).1).symm
  · rintro rfl
    exact ⟨_, _, _, first, second, third, rfl⟩

theorem rightImage_congr {h : Vbuf} (base : g.bufBase = h.bufBase) (len : g.frameLen = h.frameLen) :
    g.rightImage memory = h.rightImage memory := by
  rw [Vbuf.rightImage, Vbuf.rightImage, base, len]

/-- The check of the markers and of the length, once the frame lies in the buffer. -/
def RightFrame (start : Video) (bytes : List UInt8) : Prop :=
  ({ start.vbuf with frameLen := UInt32.ofNat bytes.length } : Vbuf).rightImage
    (storeBytes start.memory start.vbuf.bufBase.toNat bytes) = true

/-- The report of a call that gets all the bytes. -/
def success (bytes : List UInt8) : Report := ⟨UInt32.ofNat bytes.length, 0, bytes⟩

theorem clamp_toNat_le {frameLen bufLen : UInt32} :
    (if frameLen ≥ bufLen then bufLen else frameLen).toNat ≤ frameLen.toNat := by
  split
  next full => exact UInt32.le_iff_toNat_le.mp full
  · exact Nat.le_refl _

/-- An end marker that is counted is judged with all that was counted before. -/
theorem returns_counted {t : Video} (base : t.vbuf.bufBase = start.vbuf.bufBase)
    (place : t.reader r = .waiting user) (owner : t.vbuf.bufBase = user.buf) (len : t.vbuf.bufLen = user.bufLen)
    (signalled : t.vbuf.areadySemaphore = true) (some : packets ≠ []) (copying : g.startBuf = .copy)
    (same : t.vbuf = (g.setStartBuf (if g.rightImage t.memory then .get else .err)).setSemaphore true)
    (progress : Progress start id packets g t.memory) :
    t.Returns r (success (content packets)) ↔ Catchable start id packets ∧ RightFrame start (content packets) := by
  have gBase : g.bufBase = t.vbuf.bufBase := by rw [same]; rfl
  have gLen : g.bufLen = t.vbuf.bufLen := by rw [same]; rfl
  have gFrame : g.frameLen = t.vbuf.frameLen := by rw [same]; rfl
  cases progress with
  | fresh none => exact absurd none some
  | unbegun _ _ initial => exact BufSta.noConfusion (initial.symm.trans copying)
  | missed lost _ _ fewer =>
    refine ⟨fun returned => ?_, fun both => absurd both.1 lost⟩
    cases right : g.rightImage t.memory with
    | true =>
      have get : t.vbuf.startBuf = .get := by rw [same, right]; rfl
      rw [returns_iff place signalled (fun u sta frame => by
        rw [classify, sta, get]; dsimp only; rw [frame])] at returned
      have report := congrArg (fun report => report.bytes.length) returned
      have clamp := @clamp_toNat_le t.vbuf.frameLen user.bufLen
      rw [success] at report
      dsimp only at report
      rw [readBytes_length] at report
      rw [gFrame] at fewer
      omega
    | false =>
      have err : t.vbuf.startBuf = .err := by rw [same, right]; rfl
      rw [returns_iff place signalled (fun u sta _ => by rw [classify, sta, err])] at returned
      exact absurd (show (0 : Int) = -3 from congrArg Report.errCode returned) (by decide)
  | caught catchable _ _ collects stored =>
    have whole : UInt32.ofNat (content packets).length = g.frameLen := by
      rw [← collects.length, UInt32.ofNat_toNat]
    have judged : RightFrame start (content packets) ↔ g.rightImage t.memory = true := by
      rw [RightFrame, ← base, ← gBase, ← stored]
      rw [@rightImage_congr g t.memory { start.vbuf with frameLen := UInt32.ofNat (content packets).length }
        (gBase.trans base) whole.symm]
    rw [judged]
    cases right : g.rightImage t.memory with
    | true =>
      have get : t.vbuf.startBuf = .get := by rw [same, right]; rfl
      have clamped : (if t.vbuf.frameLen ≥ user.bufLen then user.bufLen else t.vbuf.frameLen) = g.frameLen := by
        rw [gFrame]
        split
        next full =>
          have fits := collects.fits
          rw [← collects.length, gFrame, gLen, len] at fits
          exact UInt32.le_antisymm full (UInt32.le_iff_toNat_le.mpr fits)
        · rfl
      rw [returns_iff place signalled (fun u sta frame => by
        rw [classify, sta, get]; dsimp only; rw [frame]), clamped, success, whole, ← owner, ← gBase,
        collects.holds.read_of_length collects.length.symm]
      exact ⟨fun _ => ⟨catchable, rfl⟩, fun _ => rfl⟩
    | false =>
      have err : t.vbuf.startBuf = .err := by rw [same, right]; rfl
      rw [returns_iff place signalled (fun u sta _ => by rw [classify, sta, err])]
      constructor
      · exact fun returned => absurd (show (0 : Int) = -3 from congrArg Report.errCode returned) (by decide)
      · exact fun both => Bool.noConfusion both.2

/-- The call returns the frame if and only if its packets can be caught and it is
a right image. -/
theorem deliver_returns_iff {last : Packet} (awaits : start.Awaits r user) (initial : start.vbuf.startBuf = .init)
    (all : ∀ q ∈ packets, q.Of id ∧ q.isEof ≠ 1) (mine : last.Of id) (ended : last.isEof = 1)
    (room : (content (packets ++ [last])).length ≤ user.bufLen.toNat) :
    (start.deliver (packets ++ [last])).Returns r (success (content (packets ++ [last]))) ↔
      Catchable start id (packets ++ [last]) ∧ RightFrame start (content (packets ++ [last])) := by
  have less : (content packets).length ≤ user.bufLen.toNat := by
    rw [content_snoc_length] at room
    omega
  obtain ⟨waits, _, progress⟩ := deliver_front awaits initial all less
  have sized := Nat.le_of_lt mine.sized
  have accepts := waits.accepts progress
  have keeps := @began_kept last (start.deliver packets).vbuf
  have room' : (content (packets ++ [last])).length ≤ (start.deliver packets).vbuf.bufLen.toNat := by rwa [waits.len]
  rw [deliver_append]
  change ((start.deliver packets).videoBufferRecvVideoData last).Returns r _ ↔ _
  cases progress.absorbs mine (fun q member => (all q member).1) waits.based waits.bounded room' with
  | skipped unexpected lost _ =>
    rw [receive_skipped waits.idle accepts sized unexpected]
    have still : ((start.deliver packets).received last _ (start.deliver packets).memory).Awaits r user :=
      waits.received keeps.1 keeps.2.1 keeps.2.2
    exact ⟨fun returned => absurd returned (not_returns_of_silent still.place still.silent),
      fun both => absurd both.1 lost⟩
  | counted expected fits next =>
    rw [receive_ended waits.idle accepts sized expected fits ended]
    have base : ((start.deliver packets).vbuf.began last).bufBase = start.vbuf.bufBase := by
      rw [keeps.1, waits.base, awaits.base]
    exact returns_counted (g := ((start.deliver packets).vbuf.began last).count last) base waits.place
      (keeps.1.trans waits.base) (keeps.2.1.trans waits.len) rfl (by simp) expected.2.2 rfl next

end Video

end BekenSdk.VideoBuffer
