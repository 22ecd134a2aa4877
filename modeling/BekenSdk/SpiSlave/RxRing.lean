import BekenSdk.Base.Bytes
import BekenSdk.Base.DropOldest
import BekenSdk.Base.Machine
import Mathlib.Data.UInt
import Mathlib.Logic.Function.Basic

/-! The receive ring of the SPI slave (spi_slave.c, spi_slave_bk7231n.c). The receive interrupt fills it; the one task
that reads holds the mutex of `bk_spi_slave_xfer`, and interrupts are off only in its critical sections.
-/

set_option autoImplicit false

namespace BekenSdk.SpiSlave
open Base

def spiSlaveRxFifoLen : UInt16 := 512

structure SpiRxFifo where
  buffer : Cells
  putIndex : UInt16
  getIndex : UInt16
  isFull : Bool

/-- The ring that bk_spi_slave_init makes. -/
def initRxFifo : SpiRxFifo where
  buffer := fun _ => 0
  putIndex := 0
  getIndex := 0
  isFull := false

/-- `index += 1`, and 0 behind the last place. -/
def advanced (index : UInt16) : UInt16 := if index + 1 ≥ spiSlaveRxFifoLen then 0 else index + 1

def bkSpiSlaveGetRxFifo (rxFifo : SpiRxFifo) : UInt32 :=
  if rxFifo.putIndex ≥ rxFifo.getIndex then rxFifo.putIndex.toUInt32 - rxFifo.getIndex.toUInt32
  else spiSlaveRxFifoLen.toUInt32 - (rxFifo.getIndex.toUInt32 - rxFifo.putIndex.toUInt32)

/-- One round of the loop in the callback. -/
def putByte (rxFifo : SpiRxFifo) (ch : UInt8) : SpiRxFifo :=
  let buffer := Function.update rxFifo.buffer rxFifo.putIndex.toNat ch
  let putIndex := advanced rxFifo.putIndex
  if putIndex = rxFifo.getIndex then
    { buffer := buffer, putIndex := putIndex, getIndex := advanced rxFifo.getIndex, isFull := true }
  else { rxFifo with buffer := buffer, putIndex := putIndex }

/-- With the bytes that `spi_read_rxfifo` gives before it gives none. What is written to the transmit FIFO, and the
semaphore at the end, are left out. -/
def bkSpiSlaveSpiRxCallback (rxFifo : SpiRxFifo) (received : List UInt8) : SpiRxFifo := received.foldl putByte rxFifo

/-- The critical section of bk_spi_slave_get_rx_data: `ch` and the ring, or nothing for `break`. -/
def getByte (rxFifo : SpiRxFifo) : Option (UInt8 × SpiRxFifo) :=
  if rxFifo.getIndex = rxFifo.putIndex ∧ rxFifo.isFull = false then none
  else
    let ch := rxFifo.buffer rxFifo.getIndex.toNat
    let getIndex := advanced rxFifo.getIndex
    let isFull := if rxFifo.isFull = true then false else rxFifo.isFull
    some (ch, { rxFifo with getIndex := getIndex, isFull := isFull })

/-! ## The interrupt and the reader -/

/-- What keeps the bytes: what the callback, the critical section and bk_spi_slave_get_rx_fifo do with it. -/
structure Keeper (S : Type) where
  callback : S → List UInt8 → S
  critical : S → Option (UInt8 × S)
  rxFifo : S → UInt32

def rxRing : Keeper SpiRxFifo := ⟨bkSpiSlaveSpiRxCallback, getByte, bkSpiSlaveGetRxFifo⟩

/-- Where bk_spi_slave_get_rx_data is, with what it has written to `rx_buf`. -/
inductive Reader
  | idle
  | looking (written : List UInt8) (len size : Nat)
  | holding (written : List UInt8) (len size : Nat) (ch : UInt8)

inductive Reply
  /-- What was asked for, what the call returns, and what is in `rx_buf`. -/
  | rxData (len returned : Nat) (bytes : List UInt8)
  | rxFifo (rxLength : UInt32)

structure Slave (S : Type) where
  rx : S
  reader : Reader
  replies : List Reply

inductive Event
  | callback (received : List UInt8)
  | getRxFifo
  /-- A call, with whether `rx_buf` is there. -/
  | getRxData (rxBuf : Bool) (len : Nat)
  | critical
  /-- `ch` is written to `rx_buf`. -/
  | store

namespace Slave
variable {S : Type}

def init (rx : S) : Slave S := ⟨rx, .idle, []⟩

def reply (s : Slave S) (reply : Reply) : Slave S := { s with reader := .idle, replies := s.replies ++ [reply] }

/-- The head of the loop. -/
def loop (s : Slave S) (written : List UInt8) (len size : Nat) : Slave S :=
  if size = 0 then s.reply (.rxData len (len - size) written) else { s with reader := .looking written len size }

end Slave

/-- The callback may come at any time, between the critical sections. -/
def step {S : Type} (keeper : Keeper S) (event : Event) (s : Slave S) : Option (Slave S) :=
  match event, s.reader with
  | .callback received, _ => some { s with rx := keeper.callback s.rx received }
  | .getRxFifo, _ => some { s with replies := s.replies ++ [.rxFifo (keeper.rxFifo s.rx)] }
  | .getRxData rxBuf len, .idle =>
    if rxBuf = false then some (s.reply (.rxData len 0 [])) else some (s.loop [] len len)
  | .critical, .looking written len size =>
    match keeper.critical s.rx with
    | none => some (s.reply (.rxData len (len - size) written))
    | some (ch, rx) => some { s with rx := rx, reader := .holding written len size ch }
  | .store, .holding written len size ch => some (s.loop (written ++ [ch]) len (size - 1))
  | _, _ => none

/-- The bytes that came with the events, which are listed the latest first. -/
def received : List Event → List UInt8
  | [] => []
  | .callback bytes :: earlier => received earlier ++ bytes
  | _ :: earlier => received earlier

/-- The bytes that a reader has taken for the call that it is in. -/
def Reader.taken : Reader → List UInt8
  | .idle => []
  | .looking written _ _ => written
  | .holding written _ _ ch => written ++ [ch]

def Reply.bytes : Reply → List UInt8
  | .rxData _ _ bytes => bytes
  | .rxFifo _ => []

/-- The bytes returned by the reads, in order, and the ones that the reader has for the present one. -/
def Slave.returned {S : Type} (s : Slave S) : List UInt8 := s.replies.flatMap Reply.bytes ++ s.reader.taken

/-! ## What is to be refined -/

/-- A queue of bytes that drops its oldest one. -/
def dropOldest (capacity : Nat) : Keeper (DropOldest UInt8) where
  callback := DropOldest.arriveAll capacity
  critical := DropOldest.take
  rxFifo := fun queue => UInt32.ofNat queue.unread.length

end BekenSdk.SpiSlave
