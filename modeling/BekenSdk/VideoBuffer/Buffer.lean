import BekenSdk.Base.Bytes
import BekenSdk.Base.CData
import BekenSdk.Base.Machine
import Mathlib.Data.List.Range

/-! The video buffer (`video_buffer.c`): the task of the video transfer pushes
packets, and whoever calls `video_buffer_read_frame` gives a buffer for one frame.
The tasks take turns between any two accesses to what they share.
-/

set_option autoImplicit false

namespace BekenSdk.VideoBuffer
open Base

def sizeofVbHdr : Nat := 4

/-- `UINT8 *data, UINT32 len`, with a `VB_HDR_ST` in front. -/
structure Packet where
  data : List UInt8
  bounded : data.length < 2 ^ 32

instance : DecidableEq Packet := fun a b =>
  decidable_of_iff (a.data = b.data) ⟨fun same => by cases a; cases same; rfl, congrArg Packet.data⟩

namespace Packet

def len (p : Packet) : UInt32 := UInt32.ofNat p.data.length
def id (p : Packet) : UInt8 := p.data.getD 0 0
def isEof (p : Packet) : UInt8 := p.data.getD 1 0
def pktCnt (p : Packet) : UInt8 := p.data.getD 2 0
def pktSeq (p : Packet) : UInt8 := p.data.getD 3 0
def payload (p : Packet) : List UInt8 := p.data.drop sizeofVbHdr
def orgLen (p : Packet) : UInt32 := p.len - UInt32.ofNat sizeofVbHdr

end Packet

/-- `BUF_STA_INIT` and the like. -/
inductive BufSta where
  | init
  | copy
  | get
  | full
  | err
  deriving DecidableEq

/-- `VBUF_ST`; a pointer is an address and `NULL` is 0. -/
structure Vbuf where
  areadySemaphore : Bool
  bufBase : UInt32
  bufLen : UInt32
  frameId : UInt32
  framePktCnt : UInt32
  bufPtr : UInt32
  frameLen : UInt32
  startBuf : BufSta
  deriving DecidableEq

/-- `buf` and `buf_len` of a call, as a C object can have them. -/
structure UserBuf where
  buf : UInt32
  bufLen : UInt32
  bounded : buf.toNat + bufLen.toNat < 2 ^ 32
  deriving DecidableEq

/-- Where `video_buffer_recv_video_data` is. -/
inductive RecvAt where
  | idle
  /-- The test of `buf_base` and `start_buf` is passed. -/
  | entered (p : Packet)
  | begun (p : Packet)
  /-- The packet is the expected one and `org_len` bytes are left. -/
  | fits (p : Packet)
  | copied (p : Packet)
  | counted (p : Packet)
  | judged (rightImage : Bool)
  | overflown
  /-- Only `rtos_set_semaphore` is left to do. -/
  | waking
  deriving DecidableEq

/-- Where a call of `video_buffer_read_frame` is. -/
inductive ReadAt where
  | idle
  /-- `buf_base` was `NULL`. -/
  | draining (user : UserBuf)
  | drained (user : UserBuf)
  | waiting (user : UserBuf)
  | woken (user : UserBuf)
  | outcome (user : UserBuf) (frameLen : UInt32) (err : Int)
  deriving DecidableEq

/-- What a call returned, and what its buffer contained then. -/
structure Report where
  frameLen : UInt32
  errCode : Int
  bytes : List UInt8
  deriving DecidableEq

/-- The module once it is open; all packets and reports so far. -/
structure Video where
  vbuf : Vbuf
  memory : Cells
  recv : RecvAt
  reader : Nat → ReadAt
  pushed : List Packet
  reports : List Report

namespace Vbuf

/-- A packet that `video_buffer_recv_video_data` takes for the first of a frame. -/
def Starts (g : Vbuf) (p : Packet) : Prop := p.id.toUInt32 ≠ g.frameId ∧ p.pktSeq = 1

def Expects (g : Vbuf) (p : Packet) : Prop :=
  p.id.toUInt32 = g.frameId ∧ g.framePktCnt + 1 = p.pktSeq.toUInt32 ∧ g.startBuf = .copy

def Accepts (g : Vbuf) : Prop := g.bufBase ≠ 0 ∧ (g.startBuf = .copy ∨ g.startBuf = .init)

instance (g : Vbuf) (p : Packet) : Decidable (g.Starts p) := inferInstanceAs (Decidable (_ ∧ _))
instance (g : Vbuf) (p : Packet) : Decidable (g.Expects p) := inferInstanceAs (Decidable (_ ∧ _))
instance (g : Vbuf) : Decidable g.Accepts := inferInstanceAs (Decidable (_ ∧ _))

def startOfFrame (p : Packet) (g : Vbuf) : Vbuf :=
  { g with frameId := p.id.toUInt32, frameLen := 0, framePktCnt := 0, bufPtr := g.bufBase, startBuf := .copy }

def leftLen (g : Vbuf) : UInt32 := g.bufLen - g.frameLen

def count (p : Packet) (g : Vbuf) : Vbuf :=
  { g with frameLen := g.frameLen + p.orgLen, bufPtr := g.bufPtr + p.orgLen, framePktCnt := g.framePktCnt + 1 }

def setStartBuf (sta : BufSta) (g : Vbuf) : Vbuf := { g with startBuf := sta }

def setSemaphore (value : Bool) (g : Vbuf) : Vbuf := { g with areadySemaphore := value }

def setBuf (user : UserBuf) (g : Vbuf) : Vbuf := { g with bufBase := user.buf, bufLen := user.bufLen }

def clearBuf (g : Vbuf) : Vbuf := { g with startBuf := .init, bufBase := 0, bufLen := 0 }

/-- The pointers run on from the end of the address space to its start, so a
frame of fewer than seven bytes is judged by what lies before the buffer too. -/
def rightImage (g : Vbuf) (memory : Cells) : Bool :=
  let sofPtr := g.bufBase
  let eofPtr := g.bufBase + (g.frameLen - 7)
  let crcPtr := eofPtr + 3
  let at' (ptr : UInt32) : UInt8 := memory ptr.toNat
  let pLen := fromLe [at' crcPtr, at' (crcPtr + 1), at' (crcPtr + 2), at' (crcPtr + 3)]
  at' sofPtr = 0xff ∧ at' (sofPtr + 1) = 0xd8 ∧ at' eofPtr = 0xff ∧ at' (eofPtr + 1) = 0xd9 ∧
    pLen = (g.frameLen - 5).toNat

end Vbuf

namespace Video

def setVbuf (change : Vbuf → Vbuf) (s : Video) : Video := { s with vbuf := change s.vbuf }

def setRecv (recv : RecvAt) (s : Video) : Video := { s with recv := recv }

def setReader (r : Nat) (read : ReadAt) (s : Video) : Video :=
  { s with reader := Function.update s.reader r read }

def store (addr : Nat) (bytes : List UInt8) (s : Video) : Video :=
  { s with memory := storeBytes s.memory addr bytes }

def report (user : UserBuf) (frameLen : UInt32) (err : Int) (s : Video) : Video :=
  { s with reports := ⟨frameLen, err, readBytes s.memory user.buf.toNat frameLen.toNat⟩ :: s.reports }

/-! ## video_buffer_recv_video_data -/

def push (p : Packet) (s : Video) : Video :=
  let s := { s with pushed := s.pushed ++ [p] }
  if s.vbuf.Accepts then
    if p.data.length < sizeofVbHdr then s else s.setRecv (.entered p)
  else s

def recvStep (s : Video) : Video :=
  match s.recv with
  | .idle => s
  | .entered p => (if s.vbuf.Starts p then s.setVbuf (Vbuf.startOfFrame p) else s).setRecv (.begun p)
  | .begun p =>
    if s.vbuf.Expects p then
      if p.orgLen ≤ s.vbuf.leftLen then s.setRecv (.fits p) else s.setRecv .overflown
    else s.setRecv .idle
  | .fits p => (s.store s.vbuf.bufPtr.toNat p.payload).setRecv (.copied p)
  | .copied p => (s.setVbuf (Vbuf.count p)).setRecv (if p.isEof = 1 then .counted p else .idle)
  | .counted _ => s.setRecv (.judged (s.vbuf.rightImage s.memory))
  | .judged rightImage => (s.setVbuf (Vbuf.setStartBuf (if rightImage then .get else .err))).setRecv .waking
  | .overflown => (s.setVbuf (Vbuf.setStartBuf .full)).setRecv .waking
  | .waking => (s.setVbuf (Vbuf.setSemaphore true)).setRecv .idle

/-- A call that nobody interrupts. -/
def videoBufferRecvVideoData (p : Packet) (s : Video) : Video := recvStep^[7] (s.push p)

/-! ## video_buffer_read_frame -/

/-- The tests at the beginning. -/
def readFrame (r : Nat) (user : UserBuf) (s : Video) : Video :=
  if user.buf = 0 ∨ user.bufLen = 0 then s.report user 0 (-1)
  else if s.vbuf.bufBase = 0 then s.setReader r (.draining user)
  else s.report user 0 (-5)

/-- A turn of the loop that takes old signals. -/
def drain (r : Nat) (user : UserBuf) (s : Video) : Video :=
  if s.vbuf.areadySemaphore then s.setVbuf (Vbuf.setSemaphore false) else s.setReader r (.drained user)

def offer (r : Nat) (user : UserBuf) (s : Video) : Video :=
  (s.setVbuf (Vbuf.setBuf user)).setReader r (.waiting user)

def acquire (r : Nat) (user : UserBuf) (s : Video) : Video :=
  (s.setVbuf (Vbuf.setSemaphore false)).setReader r (.woken user)

def expire (r : Nat) (user : UserBuf) (s : Video) : Video := s.setReader r (.outcome user 0 (-5))

def classify (r : Nat) (user : UserBuf) (s : Video) : Video :=
  s.setReader r (match s.vbuf.startBuf with
    | .get => .outcome user s.vbuf.frameLen 0
    | .full => .outcome user 0 (-2)
    | .err => .outcome user 0 (-3)
    | _ => .outcome user 0 (-4))

def finish (r : Nat) (user : UserBuf) (frameLen : UInt32) (err : Int) (s : Video) : Video :=
  let s := (s.setVbuf Vbuf.clearBuf).setReader r .idle
  s.report user (if frameLen ≥ user.bufLen then user.bufLen else frameLen) err

end Video

inductive Event where
  | push (p : Packet)
  | recv
  | readFrame (r : Nat) (user : UserBuf)
  /-- The next step of a call; its time may have run out. -/
  | read (r : Nat) (timeout : Bool)
  /-- Someone stores a byte of his own. -/
  | store (addr : Nat) (value : UInt8)
  deriving DecidableEq

def readStep (r : Nat) (timeout : Bool) (s : Video) : Option Video :=
  match s.reader r with
  | .idle => none
  | .draining user => some (s.drain r user)
  | .drained user => some (s.offer r user)
  | .waiting user =>
    if s.vbuf.areadySemaphore then some (s.acquire r user)
    else if timeout then some (s.expire r user) else none
  | .woken user => some (s.classify r user)
  | .outcome user frameLen err => some (s.finish r user frameLen err)

/-- Nobody else writes to a buffer that is on offer. -/
def step (event : Event) (s : Video) : Option Video :=
  match event with
  | .push p => if s.recv = .idle then some (s.push p) else none
  | .recv => if s.recv = .idle then none else some s.recvStep
  | .readFrame r user => if s.reader r = .idle then some (s.readFrame r user) else none
  | .read r timeout => readStep r timeout s
  | .store addr value =>
    if s.vbuf.bufBase.toNat ≤ addr ∧ addr < s.vbuf.bufBase.toNat + s.vbuf.bufLen.toNat then none
    else some (s.store addr [value])

/-- The module as `video_buffer_open` leaves it. -/
def Video.opened (memory : Cells) : Video where
  vbuf := ⟨false, 0, 0, 0xffff, 0, 0, 0, .init⟩
  memory := memory
  recv := .idle
  reader _ := .idle
  pushed := []
  reports := []

end BekenSdk.VideoBuffer

/-! ## Frames

What a frame is: packets of one id with the numbers 1, 2, and so on, of which
only the last one is marked as such. A part of a frame lies at the start of the
buffer, with the counters at its end.
-/

namespace BekenSdk.VideoBuffer
open Base

def content (packets : List Packet) : List UInt8 := packets.flatMap Packet.payload

@[simp] theorem content_nil : content [] = [] := rfl

@[simp] theorem content_append (first rest : List Packet) : content (first ++ rest) = content first ++ content rest :=
  List.flatMap_append

@[simp] theorem content_one (p : Packet) : content [p] = p.payload := List.flatMap_singleton _ _

/-- The packets carry one id and are numbered from 1 on. -/
structure Numbered (id : UInt8) (packets : List Packet) : Prop where
  same : ∀ p ∈ packets, p.id = id
  numbers : packets.map (fun p => p.pktSeq.toNat) = List.range' 1 packets.length

/-- A part of a frame that is not over yet. -/
structure Part (id : UInt8) (packets : List Packet) : Prop extends Numbered id packets where
  unended : ∀ p ∈ packets, p.isEof ≠ 1

/-- All of a frame. -/
structure Frame (packets : List Packet) : Prop where
  ended : ∃ id front last, packets = front ++ [last] ∧ Numbered id packets ∧ last.isEof = 1 ∧
    ∀ p ∈ front, p.isEof ≠ 1

variable {id : UInt8} {packets : List Packet} {p : Packet}

theorem Numbered.nil : Numbered id [] := ⟨fun _ member => absurd member List.not_mem_nil, rfl⟩

theorem Part.nil : Part id [] := ⟨Numbered.nil, fun _ member => absurd member List.not_mem_nil⟩

theorem Numbered.snoc (numbered : Numbered id packets) (same : p.id = id)
    (number : p.pktSeq.toNat = packets.length + 1) : Numbered id (packets ++ [p]) := by
  constructor
  · intro q member
    cases List.mem_append.mp member with
    | inl early => exact numbered.same q early
    | inr last => rw [List.mem_singleton.mp last, same]
  · rw [List.map_append, numbered.numbers, List.length_append, List.length_singleton, List.range'_concat,
      List.map_singleton, number, Nat.one_mul, Nat.add_comm]

theorem Part.snoc (part : Part id packets) (same : p.id = id) (number : p.pktSeq.toNat = packets.length + 1)
    (more : p.isEof ≠ 1) : Part id (packets ++ [p]) := by
  refine ⟨part.toNumbered.snoc same number, fun q member => ?_⟩
  cases List.mem_append.mp member with
  | inl early => exact part.unended q early
  | inr last => rwa [List.mem_singleton.mp last]

theorem Part.ends (part : Part id packets) (same : p.id = id) (number : p.pktSeq.toNat = packets.length + 1)
    (last : p.isEof = 1) : Frame (packets ++ [p]) :=
  ⟨id, packets, p, rfl, part.toNumbered.snoc same number, last, part.unended⟩

theorem Numbered.front {more : List Packet} (numbered : Numbered id (packets ++ more)) : Numbered id packets := by
  refine ⟨fun q member => numbered.same q (List.mem_append_left _ member), ?_⟩
  have listed := numbered.numbers
  rw [List.map_append, List.length_append, ← List.range'_append_1] at listed
  exact List.append_inj_left listed (by rw [List.length_map, List.length_range'])

theorem Numbered.last (numbered : Numbered id (packets ++ [p])) : p.pktSeq.toNat = packets.length + 1 := by
  have listed := numbered.numbers
  rw [List.map_append, List.length_append, List.length_singleton, List.range'_concat] at listed
  have ends := (List.append_inj_right' listed rfl)
  rw [List.map_singleton, List.cons.injEq] at ends
  rw [ends.1, Nat.one_mul, Nat.add_comm]

/-- The number in the header is a byte. -/
theorem Numbered.length_lt (numbered : Numbered id packets) : packets.length < 256 := by
  cases empty : packets.length with
  | zero => decide
  | succ k =>
    have listed : packets.length ∈ packets.map fun p => p.pktSeq.toNat := by
      rw [numbered.numbers, List.mem_range'_1, empty]
      omega
    obtain ⟨p, _, number⟩ := List.mem_map.mp listed
    rw [← empty, ← number]
    exact p.pktSeq.toNat_lt

/-! ## Part of a frame in the buffer -/

/-- `packets` have been copied and counted. -/
structure Vbuf.Collects (g : Vbuf) (memory : Cells) (packets : List Packet) : Prop where
  based : g.bufBase ≠ 0
  bounded : g.bufBase.toNat + g.bufLen.toNat < 2 ^ 32
  fits : (content packets).length ≤ g.bufLen.toNat
  length : g.frameLen.toNat = (content packets).length
  count : g.framePktCnt.toNat = packets.length
  pointer : g.bufPtr.toNat = g.bufBase.toNat + (content packets).length
  holds : Holds memory g.bufBase.toNat (content packets)

variable {g : Vbuf} {memory : Cells}

@[simp] theorem Vbuf.setSemaphore_collects {value : Bool} :
    (g.setSemaphore value).Collects memory packets ↔ g.Collects memory packets :=
  ⟨fun c => ⟨c.based, c.bounded, c.fits, c.length, c.count, c.pointer, c.holds⟩,
    fun c => ⟨c.based, c.bounded, c.fits, c.length, c.count, c.pointer, c.holds⟩⟩

@[simp] theorem Vbuf.setStartBuf_collects {sta : BufSta} :
    (g.setStartBuf sta).Collects memory packets ↔ g.Collects memory packets :=
  ⟨fun c => ⟨c.based, c.bounded, c.fits, c.length, c.count, c.pointer, c.holds⟩,
    fun c => ⟨c.based, c.bounded, c.fits, c.length, c.count, c.pointer, c.holds⟩⟩

/-- An own byte of someone is none of the buffer's. -/
theorem Vbuf.Collects.store {addr : Nat} {value : UInt8} (collects : g.Collects memory packets)
    (outside : ¬(g.bufBase.toNat ≤ addr ∧ addr < g.bufBase.toNat + g.bufLen.toNat)) :
    g.Collects (storeBytes memory addr [value]) packets := by
  refine { collects with holds := collects.holds.congr fun a low high => ?_ }
  have fits := collects.fits
  apply storeBytes_outside
  rw [List.length_singleton]
  omega

theorem Vbuf.startOfFrame_collects (based : g.bufBase ≠ 0)
    (bounded : g.bufBase.toNat + g.bufLen.toNat < 2 ^ 32) : (g.startOfFrame p).Collects memory [] where
  based := based
  bounded := bounded
  fits := Nat.zero_le _
  length := rfl
  count := rfl
  pointer := rfl
  holds := trivial

theorem Packet.payload_length (p : Packet) : p.payload.length = p.data.length - 4 := List.length_drop

theorem Packet.orgLen_eq (sized : sizeofVbHdr ≤ p.data.length) : p.orgLen.toNat = p.payload.length := by
  have whole : p.len.toNat = p.data.length := UInt32.toNat_ofNat_of_lt' p.bounded
  have header : (UInt32.ofNat sizeofVbHdr) ≤ p.len := by
    rw [UInt32.le_iff_toNat_le, whole]
    exact sized
  rw [Packet.orgLen, UInt32.toNat_sub_of_le _ _ header, whole, p.payload_length]
  rfl

/-- The test of `left_len` says that the payload has room in the buffer. -/
theorem Vbuf.room_iff (inside : g.frameLen.toNat ≤ g.bufLen.toNat) (sized : sizeofVbHdr ≤ p.data.length) :
    p.orgLen ≤ g.leftLen ↔ g.frameLen.toNat + p.payload.length ≤ g.bufLen.toNat := by
  rw [UInt32.le_iff_toNat_le, Vbuf.leftLen, UInt32.toNat_sub_of_le _ _ (UInt32.le_iff_toNat_le.mpr inside),
    Packet.orgLen_eq sized]
  omega

theorem Vbuf.count_frameLen (sized : sizeofVbHdr ≤ p.data.length)
    (room : g.frameLen.toNat + p.payload.length ≤ g.bufLen.toNat) :
    (g.count p).frameLen.toNat = g.frameLen.toNat + p.payload.length := by
  have bounded := g.bufLen.toNat_lt
  rw [Vbuf.count, UInt32.toNat_add, Packet.orgLen_eq sized]
  exact Nat.mod_eq_of_lt (by omega)

theorem content_snoc_length : (content (packets ++ [p])).length = (content packets).length + p.payload.length := by
  rw [content_append, content_one, List.length_append]

theorem Vbuf.Collects.room (collects : g.Collects memory packets) (sized : sizeofVbHdr ≤ p.data.length) :
    p.orgLen ≤ g.leftLen ↔ (content (packets ++ [p])).length ≤ g.bufLen.toNat := by
  have inside : g.frameLen.toNat ≤ g.bufLen.toNat := by
    rw [collects.length]
    exact collects.fits
  rw [Vbuf.room_iff inside sized, collects.length, content_snoc_length]

/-- The copy and the count of one more packet. -/
theorem Vbuf.Collects.snoc (collects : g.Collects memory packets) (sized : sizeofVbHdr ≤ p.data.length)
    (few : packets.length < 2 ^ 32 - 1) (room : (content (packets ++ [p])).length ≤ g.bufLen.toNat) :
    (g.count p).Collects (storeBytes memory g.bufPtr.toNat p.payload) (packets ++ [p]) := by
  have grown := @content_snoc_length packets p
  have bounded := collects.bounded
  have org := Packet.orgLen_eq sized
  constructor
  · exact collects.based
  · exact bounded
  · exact room
  · rw [Vbuf.count_frameLen sized (by rw [collects.length, ← grown]; exact room), collects.length, grown]
  · have sum : (g.framePktCnt + 1).toNat = g.framePktCnt.toNat + 1 := by
      rw [UInt32.toNat_add, collects.count]
      exact Nat.mod_eq_of_lt (by rw [UInt32.toNat_one]; omega)
    rw [Vbuf.count, sum, collects.count, List.length_append, List.length_singleton]
  · have sum : (g.bufPtr + p.orgLen).toNat = g.bufPtr.toNat + p.orgLen.toNat := by
      rw [UInt32.toNat_add, org, collects.pointer]
      omega
    rw [Vbuf.count, sum, org, collects.pointer, grown, Nat.add_assoc]
  · rw [collects.pointer, content_append, content_one]
    exact collects.holds.store _

/-- The number that the test of `frame_pkt_cnt` asks for. -/
theorem Vbuf.Collects.number (collects : g.Collects memory packets) (numbered : Numbered id packets)
    (expected : g.framePktCnt + 1 = p.pktSeq.toUInt32) : p.pktSeq.toNat = packets.length + 1 := by
  have few := numbered.length_lt
  have number := congrArg UInt32.toNat expected
  rw [UInt32.toNat_add, collects.count, UInt8.toNat_toUInt32, UInt32.toNat_one] at number
  omega

theorem Vbuf.Collects.expects (collects : g.Collects memory packets) (numbered : Numbered id packets)
    (number : p.pktSeq.toNat = packets.length + 1) : g.framePktCnt + 1 = p.pktSeq.toUInt32 := by
  have few := numbered.length_lt
  apply UInt32.toNat_inj.mp
  rw [UInt32.toNat_add, collects.count, UInt8.toNat_toUInt32, UInt32.toNat_one, number]
  exact Nat.mod_eq_of_lt (by omega)

end BekenSdk.VideoBuffer
