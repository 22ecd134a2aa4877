import BekenSdk.Base.Machine
import Mathlib.Algebra.Group.Nat.Defs
import Mathlib.Logic.Function.Basic

/-! The SPI master in interrupt mode: spi.c with spi_master.c, and spi_bk7231n.c with spi_master_bk7231n.c. The block moves
on before every register access. It never overruns its receive FIFO, so the depth of that is left out.
-/

set_option autoImplicit false

namespace BekenSdk.SpiMaster

abbrev Byte := BitVec 8
abbrev Word := BitVec 32

inductive Generation where
  | spi
  | spiBk7231n
  deriving DecidableEq

/-- What the drivers do not decide, by the number of the register access. -/
structure Env where
  generation : Generation
  /-- What fits into the transmit FIFO. -/
  depth : Nat
  /-- How far the block gets. A byte goes from the FIFO into the shift register, and then one is received for it. -/
  progress : Nat → Nat
  /-- The bytes received since the start. -/
  incoming : Nat → Byte
  txint : Nat → Bool
  /-- RXINT, which is up at any rate while the receive FIFO has a byte. -/
  rxint : Nat → Bool
  csUp : Nat → Bool
  txFinishInt : Nat → Bool

structure Block where
  txFifo : List Byte
  shifting : Option Byte
  rxFifo : List Byte
  received : Nat

/-- bk_spi_dev. -/
structure Dev where
  txPtr : Nat
  txLen : Nat
  txSem : Nat
  rxPtr : Option Nat
  rxLen : Nat
  rxOffset : Nat
  rxDrop : Nat
  totalLen : Nat
  txFinishFlag : Bool

/-- With SPI_CTRL, and what has been written to SPI_DAT and how often the semaphore has been set in the last transfer. -/
structure Board where
  block : Block
  ctrl : Word
  access : Nat
  mem : Nat → Byte
  spiDev : Dev
  written : List Byte
  posts : Nat

/-! ## The block -/

namespace Block

def advance (env : Env) (block : Block) : Block :=
  match block.shifting, block.txFifo with
  | some _, _ =>
    { block with
      shifting := none
      rxFifo := block.rxFifo ++ [env.incoming block.received]
      received := block.received + 1 }
  | none, byte :: rest => { block with txFifo := rest, shifting := some byte }
  | none, [] => block

def advances (env : Env) : Nat → Block → Block
  | 0, block => block
  | k + 1, block => advances env k (block.advance env)

/-- The bytes that are still to be read. -/
def pending (block : Block) : Nat := block.txFifo.length + block.shifting.toList.length + block.rxFifo.length

end Block

/-- The bits of SPI_STAT that are looked at, of both generations. -/
structure Stat where
  txfifoEmpty : Bool
  txfifoFull : Bool
  rxfifoEmpty : Bool
  txfifoWrRead : Bool
  rxfifoRdRead : Bool
  txint : Bool
  rxint : Bool
  csUp : Bool
  txFinishInt : Bool

namespace Board
variable (env : Env) (board : Board)

/-- The board just before its next access. -/
def settle : Board :=
  { board with block := board.block.advances env (env.progress board.access), access := board.access + 1 }

def readStat : Stat × Board :=
  let found := board.settle env
  let block := found.block
  ({ txfifoEmpty := block.txFifo.isEmpty
     txfifoFull := decide (env.depth ≤ block.txFifo.length)
     rxfifoEmpty := block.rxFifo.isEmpty
     txfifoWrRead := decide (block.txFifo.length < env.depth)
     rxfifoRdRead := !block.rxFifo.isEmpty
     txint := env.txint board.access
     rxint := !block.rxFifo.isEmpty || env.rxint board.access
     csUp := env.csUp board.access
     txFinishInt := env.txFinishInt board.access }, found)

def readDat : Byte × Board :=
  let found := board.settle env
  (found.block.rxFifo.headD 0, { found with block := { found.block with rxFifo := found.block.rxFifo.tail } })

/-- What does not fit is lost. -/
def writeDat (data : Byte) : Board :=
  let found := board.settle env
  let fifo := if found.block.txFifo.length < env.depth then found.block.txFifo ++ [data] else found.block.txFifo
  { found with block := { found.block with txFifo := fifo }, written := found.written ++ [data] }

def modifyCtrl (change : Word → Word) : Board :=
  let board := (board.settle env).settle env
  { board with ctrl := change board.ctrl }

end Board

/-! ## spi.c and spi_bk7231n.c -/

def txintEnBit : Word := 0x01#32 <<< 6
def rxintEnBit : Word := 0x01#32 <<< 7
def nssmdPosi : Nat := 16
def nssmdMask : Word := 0x3
def ctrlNssmd3 : Word := 0x01#32 <<< 17
def bitWdth : Word := 0x01#32 <<< 18

section
variable (env : Env)

def spiTxintEnable (val : Byte) (board : Board) : Board :=
  board.modifyCtrl env fun value =>
    if val = 0 then value &&& ~~~txintEnBit else if val = 1 then value ||| txintEnBit else value

def spiRxintEnable (val : Byte) (board : Board) : Board :=
  board.modifyCtrl env fun value =>
    if val = 0 then value &&& ~~~rxintEnBit else if val = 1 then value ||| rxintEnBit else value

def spiSetNssmd (val : Byte) (board : Board) : Board :=
  board.modifyCtrl env fun value =>
    match env.generation with
    | .spi => (value &&& ~~~(nssmdMask <<< nssmdPosi)) ||| (val.setWidth 32 <<< nssmdPosi)
    | .spiBk7231n => (value &&& ~~~ctrlNssmd3) ||| (val.setWidth 32 <<< 17)

def spiReadRxfifo (board : Board) : Option Byte × Board :=
  let (value, board) := board.readStat env
  let ready := match env.generation with
    | .spi => !value.rxfifoEmpty
    | .spiBk7231n => value.rxfifoRdRead
  if ready then
    let (data, board) := board.readDat env
    (some data, board)
  else (none, board)

def spiWriteTxfifo (data : Byte) (board : Board) : Bool × Board :=
  let (value, board) := board.readStat env
  let ready := match env.generation with
    | .spi => !value.txfifoFull
    | .spiBk7231n => value.txfifoWrRead
  if ready then (true, board.writeDat env data) else (false, board)

/-- Without a callback the bytes are dropped. At most the pending ones come. -/
def spiRxfifoClr : Nat → Board → Board
  | 0, board => board
  | rounds + 1, board =>
    match spiReadRxfifo env board with
    | (none, board) => board
    | (some _, board) => spiRxfifoClr rounds board

end

/-! ## The callbacks

They keep the fields of the device in variables meanwhile, which nobody else could see.
-/

/-- A byte is dropped or goes to the buffer. -/
def Board.store (ch : Byte) (board : Board) : Board :=
  match board.spiDev.rxPtr with
  | none => board
  | some rxbuf =>
    if board.spiDev.rxDrop ≠ 0 then { board with spiDev := { board.spiDev with rxDrop := board.spiDev.rxDrop - 1 } }
    else if board.spiDev.rxOffset < board.spiDev.rxLen then
      { board with
        mem := Function.update board.mem (rxbuf + board.spiDev.rxOffset) ch
        spiDev := { board.spiDev with rxOffset := board.spiDev.rxOffset + 1 } }
    else board

section
variable (env : Env)

/-- The loop of `bk_spi_rx_callback`. -/
def rxLoop : Nat → Board → Board
  | 0, board => board
  | rounds + 1, board =>
    match spiReadRxfifo env board with
    | (none, board) => board
    | (some ch, board) => rxLoop rounds (board.store ch)

/-- The loop ends after the pending bytes at the latest. -/
def bkSpiRxCallback (board : Board) : Board := rxLoop env (board.block.pending + 1) board

/-- One write of `bk_spi_tx_needwrite_callback`, and whether it was accepted. -/
def writeNext (board : Board) : Bool × Board :=
  let dev := board.spiDev
  if dev.txLen ≠ 0 then
    let (txOk, board) := spiWriteTxfifo env (board.mem dev.txPtr) board
    if txOk then (true, { board with spiDev := { board.spiDev with txLen := dev.txLen - 1, txPtr := dev.txPtr + 1 } })
    else (false, board)
  else spiWriteTxfifo env 0xff board

/-- Received data is taken between the writes to prevent an overflow. -/
def checkRx (board : Board) : Board :=
  match spiReadRxfifo env board with
  | (none, board) => board
  | (some data, board) => board.store data

/-- The loop of `bk_spi_tx_needwrite_callback`, on `total_len`. -/
def txLoop : Nat → Board → Board
  | 0, board => board
  | totalLen + 1, board =>
    let (txOk, board) := writeNext env board
    let board := checkRx env board
    if txOk then
      let board := { board with spiDev := { board.spiDev with totalLen := totalLen } }
      if totalLen = 0 then spiTxintEnable env 0 board else txLoop totalLen board
    else board

def bkSpiTxNeedwriteCallback (board : Board) : Board := txLoop env board.spiDev.totalLen board

/-- The semaphore counts to one. -/
def bkSpiTxFinishCallback (board : Board) : Board :=
  if board.spiDev.totalLen = 0 ∧ board.spiDev.txFinishFlag = false then
    { board with spiDev := { board.spiDev with txFinishFlag := true, txSem := 1 }, posts := board.posts + 1 }
  else board

inductive Callback where
  | bkSpiRx
  | bkSpiTxNeedwrite
  | bkSpiTxFinish
  deriving DecidableEq

def Callback.call : Callback → Board → Board
  | .bkSpiRx => bkSpiRxCallback env
  | .bkSpiTxNeedwrite => bkSpiTxNeedwriteCallback env
  | .bkSpiTxFinish => bkSpiTxFinishCallback

end

/-- The last one is only there in spi_bk7231n.c. -/
structure Callbacks where
  spiReceive : Option Callback
  spiTxfifoNeedwr : Option Callback
  spiTxEnd : Option Callback
  spiTxFinish : Option Callback
  deriving DecidableEq

inductive CallbackCmd where
  | setRxCallback
  | setTxNeedWriteCallback
  | setTxFinishCallback
  | setTxFinishIntCallback

/-- The callback commands of `spi_ctrl`. -/
def spiCtrl (callback : Callback) (callbacks : Callbacks) : CallbackCmd → Callbacks
  | .setRxCallback => { callbacks with spiReceive := some callback }
  | .setTxNeedWriteCallback => { callbacks with spiTxfifoNeedwr := some callback }
  | .setTxFinishCallback => { callbacks with spiTxEnd := some callback }
  | .setTxFinishIntCallback => { callbacks with spiTxFinish := some callback }

/-- The callbacks of `bk_spi_configure`, which are the same in both generations. -/
def bkSpiConfigure (callbacks : Callbacks) : Callbacks :=
  let callbacks := spiCtrl .bkSpiRx callbacks .setRxCallback
  let callbacks := spiCtrl .bkSpiTxNeedwrite callbacks .setTxNeedWriteCallback
  spiCtrl .bkSpiTxFinish callbacks .setTxFinishCallback

/-! ## The interrupt -/

section
variable (env : Env) (callbacks : Callbacks)

def spiReceived (up : Bool) (board : Board) : Board :=
  if up then
    match callbacks.spiReceive with
    | some callback => callback.call env board
    | none => spiRxfifoClr env (board.block.pending + 1) board
  else board

def spiCalled (up : Bool) (callback : Option Callback) (board : Board) : Board :=
  if up then
    match callback with
    | some callback => callback.call env board
    | none => board
  else board

def spiIsr (board : Board) : Board :=
  let (status, board) := board.readStat env
  match env.generation with
  | .spi =>
    -- SPI_SLAVE_CTRL is read, and both registers are written back
    let slvCsUp := env.csUp board.access
    let board := ((board.settle env).settle env).settle env
    let board := spiReceived env callbacks (status.rxint || slvCsUp) board
    let board := spiCalled env status.txint callbacks.spiTxfifoNeedwr board
    spiCalled env status.txfifoEmpty callbacks.spiTxEnd board
  | .spiBk7231n =>
    let board := board.settle env
    let board := spiReceived env callbacks (status.rxint || status.csUp) board
    let board := spiCalled env status.txint callbacks.spiTxfifoNeedwr board
    let board := spiCalled env status.txFinishInt callbacks.spiTxFinish board
    if status.txFinishInt && callbacks.spiTxFinish.isSome then board.settle env else board

end

end BekenSdk.SpiMaster
