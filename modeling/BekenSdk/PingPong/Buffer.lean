import BekenSdk.Base.Bytes
import BekenSdk.Base.Machine
import Mathlib.Data.Nat.Bits

/-! The ping-pong buffer (airkiss_pingpong.c). The writer fills the two slots in turn and the reader empties them in turn; each has its
own flag that it is to go on to the other slot. A slot is tested and handed over with interrupts disabled, and copied byte by byte
without.
-/

set_option autoImplicit false

namespace BekenSdk.PingPong
open Base

def bufLen : Nat := 24

/-- `bytes` is the memory at `addr`. -/
structure BuffStr where
  readEnable : Bool
  writeEnable : Bool
  length : Nat
  offset : Nat
  actual : UInt32
  bytes : Cells

/-- The arguments of `write_to_pingpong_buf`. -/
structure Frame where
  bufUser : Cells
  count : UInt32
  actual : UInt32

/-- What a read has returned. -/
structure Delivery where
  bytes : List UInt8
  actual : UInt32
  deriving DecidableEq

/-- Where the reader is: before its first critical section, at the copy, or before the second. -/
inductive Reader where
  | idle
  | testing (count : UInt32)
  | copying (len : Nat) (got : List UInt8)
  | finishing (got : List UInt8) (actual : UInt32)

inductive Writer where
  | idle
  | testing (frame : Frame)
  | copying (frame : Frame) (done : Nat)
  | finishing (frame : Frame)

inductive Event where
  | read (count : UInt32)
  | write (frame : Frame)
  /-- The next step of the reader. -/
  | reader
  | writer

/-- The slots are `buf1` and `buf2`, for `false` and `true`. The writes that were accepted and the successful reads are listed in
order. -/
structure PingpongBuffer where
  buf : Bool → BuffStr
  currentRead : Bool
  readSwitch : Bool
  currentWrite : Bool
  writeSwitch : Bool
  reader : Reader
  writer : Writer
  accepted : List Frame
  delivered : List Delivery

/-- How much of a frame goes into the slot. -/
def Frame.len (frame : Frame) : Nat := min bufLen frame.count.toNat

/-- The bytes of a new slot are what the heap has there. -/
def pingpongInit (memory : Bool → Cells) (actual : Bool → UInt32) : PingpongBuffer where
  buf slot := ⟨false, true, bufLen, 0, actual slot, memory slot⟩
  currentRead := false
  readSwitch := false
  currentWrite := false
  writeSwitch := false
  reader := .idle
  writer := .idle
  accepted := []
  delivered := []

namespace BuffStr

def advance (len : Nat) (buf : BuffStr) : BuffStr := { buf with offset := buf.offset + len }

/-- The slot goes to the writer. -/
def release (buf : BuffStr) : BuffStr := { buf with readEnable := false, writeEnable := true, offset := 0 }

def put (k : Nat) (byte : UInt8) (buf : BuffStr) : BuffStr := { buf with bytes := Function.update buf.bytes k byte }

def setActual (actual : UInt32) (buf : BuffStr) : BuffStr := { buf with actual := actual }

/-- The slot goes to the reader. -/
def provide (buf : BuffStr) : BuffStr := { buf with readEnable := true, writeEnable := false }

end BuffStr

namespace PingpongBuffer

def change (slot : Bool) (changed : BuffStr → BuffStr) (s : PingpongBuffer) : PingpongBuffer :=
  { s with buf := Function.update s.buf slot (changed (s.buf slot)) }

def stepReader (s : PingpongBuffer) : Option PingpongBuffer :=
  match s.reader with
  | .idle => none
  | .testing count =>
    if (s.buf s.currentRead).readEnable = false then some { s with reader := .idle }
    else
      let len := min count.toNat ((s.buf s.currentRead).length - (s.buf s.currentRead).offset)
      some { s with reader := .copying len [] }
  | .copying len got =>
    if got.length < len then
      some { s with reader := .copying len (got ++ [(s.buf s.currentRead).bytes got.length]) }
    else
      some { s.change s.currentRead (BuffStr.advance len) with
        reader := .finishing got (s.buf s.currentRead).actual }
  | .finishing got actual =>
    some { s.change s.currentRead BuffStr.release with
      readSwitch := true
      reader := .idle
      delivered := s.delivered ++ [⟨got, actual⟩] }

def stepWriter (s : PingpongBuffer) : Option PingpongBuffer :=
  match s.writer with
  | .idle => none
  | .testing frame =>
    if (s.buf s.currentWrite).writeEnable = false then some { s with writer := .idle }
    else some { s with writer := .copying frame 0 }
  | .copying frame done =>
    if done < frame.len then
      some { s.change s.currentWrite (BuffStr.put done (frame.bufUser done)) with writer := .copying frame (done + 1) }
    else
      some { s.change s.currentWrite (BuffStr.setActual frame.actual) with writer := .finishing frame }
  | .finishing frame =>
    some { s.change s.currentWrite BuffStr.provide with
      writeSwitch := true
      writer := .idle
      accepted := s.accepted ++ [frame] }

end PingpongBuffer

/-- A call is made when the one before has returned. -/
def step (event : Event) (s : PingpongBuffer) : Option PingpongBuffer :=
  match event, s.reader, s.writer with
  | .read count, .idle, _ =>
    some { s with
      currentRead := if s.readSwitch then !s.currentRead else s.currentRead
      readSwitch := false
      reader := .testing count }
  | .write frame, _, .idle =>
    some { s with
      currentWrite := if s.writeSwitch then !s.currentWrite else s.currentWrite
      writeSwitch := false
      writer := .testing frame }
  | .reader, _, _ => s.stepReader
  | .writer, _, _ => s.stepWriter
  | _, _, _ => none

/-- Each read asks for a whole slot. -/
def WholeRead (event : Event) : Prop :=
  match event with
  | .read count => bufLen ≤ count.toNat
  | _ => True

instance (event : Event) : Decidable (WholeRead event) := by
  unfold WholeRead
  split <;> infer_instance

/-! ## What is handed over -/

/-- The slot that the frame with the number goes through. -/
def slotOf (n : Nat) : Bool := Nat.bodd n

/-- The frame is in the slot. -/
structure Stored (frame : Frame) (buf : BuffStr) : Prop where
  bytes : ∀ k < frame.len, buf.bytes k = frame.bufUser k
  actual : buf.actual = frame.actual

/-- The read has returned the frame: its bytes, and the length given with it. -/
structure Agrees (delivery : Delivery) (frame : Frame) : Prop where
  length : delivery.bytes.length = bufLen
  bytes : ∀ k < frame.len, delivery.bytes[k]? = some (frame.bufUser k)
  actual : delivery.actual = frame.actual

def Reader.Reads : Reader → Prop
  | .copying _ _ => True
  | .finishing _ _ => True
  | _ => False

def Writer.Writes : Writer → Prop
  | .copying _ _ => True
  | .finishing _ => True
  | _ => False

/-- The reads have returned the first accepted frames, the others wait in the slots, and no read that comes to its test is refused
while one waits; the two parties are never at one slot. -/
structure Handed (s : PingpongBuffer) : Prop where
  inOrder : List.Forall₂ Agrees s.delivered (s.accepted.take s.delivered.length)
  kept : ∀ n frame, s.delivered.length ≤ n → s.accepted[n]? = some frame →
    (s.buf (slotOf n)).readEnable = true ∧ Stored frame (s.buf (slotOf n))
  served : ∀ count, s.reader = .testing count → s.delivered.length < s.accepted.length →
    (s.buf s.currentRead).readEnable = true
  exclusive : s.reader.Reads → s.writer.Writes → s.currentRead ≠ s.currentWrite

end BekenSdk.PingPong
