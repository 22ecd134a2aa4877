import BekenSdk.Base.Bytes
import BekenSdk.SdioSlave.Lists

/-! The channels of `sdio_slave_driver.c`. Each operation turns the interrupts off while it works on the lists, and
some call others while they are off; the level that each one found is to be put back.
-/

set_option autoImplicit false

namespace BekenSdk.SdioSlave
open Base

/-- The I and F bits of the status register: what `port_disable_interrupts_flag` returns. -/
structure Level where
  irqOff : Bool
  fiqOff : Bool
  deriving DecidableEq

def Level.off : Level := ⟨true, true⟩

/-- `sdio_chan_buf_t`, with the address of the callback. -/
structure ChanBuf where
  bufSize : UInt32
  freeList : SdioList
  ongoingList : SdioList
  transactionLen : UInt32
  finishList : SdioList
  cb : UInt32

structure Chan where
  txDirect : Bool
  rxDirect : Bool
  chanBuf : Nat → ChanBuf

/-- A word of the receive FIFO, as it lies in memory. -/
structure Word where
  b0 : UInt8
  b1 : UInt8
  b2 : UInt8
  b3 : UInt8
  deriving DecidableEq

def Word.bytes (w : Word) : List UInt8 := [w.b0, w.b1, w.b2, w.b3]

/-- What the driver works on: `s_sdio_driver`, the headers of the nodes, the bytes behind each header, the words that
the host has put into the FIFO, and the interrupt level. -/
structure Driver where
  chan : Nat → Chan
  nodes : Nodes
  data : NodePtr → Cells
  fifo : List Word
  level : Level

def chanTx : Nat := 0
def chanRx : Nat := 1
def chanPlatform : Nat := 0
def chanMaxCnt : Nat := 2

def rtosDisableInt (d : Driver) : Driver := { d with level := .off }
def rtosEnableInt (intLevel : Level) (d : Driver) : Driver := { d with level := intLevel }

namespace Driver

def chanBuf (d : Driver) (chanId index : Nat) : ChanBuf := (d.chan chanId).chanBuf index

def setChanBuf (d : Driver) (chanId index : Nat) (buf : ChanBuf) : Driver :=
  let chan := d.chan chanId
  { d with chan := Function.update d.chan chanId { chan with chanBuf := Function.update chan.chanBuf index buf } }

end Driver

section
-- CONFIG_SDIO_BIDIRECT_CHANNEL_EN, and what the application's callbacks do
variable (bidirect : Bool) (app : UInt32 → NodePtr → NodePtr → UInt32 → Driver → Driver)

def bufIndex (direct : Nat) : Nat := if bidirect then direct else 0

/-! ## The lists of a channel -/

def bkSdioChanPushFreeList (chanId direct : Nat) (headP tailP : NodePtr) (count : UInt32) (d : Driver) :
    BkErr × Driver :=
  if chanId ≥ chanMaxCnt then (.chanIdInvalid, d)
  else if direct > chanRx then (.directInvalid, d)
  else
    let intLevel := d.level
    let d := rtosDisableInt d
    let chanBufP := d.chanBuf chanId (bufIndex bidirect direct)
    let (_, list, nodes) := sdioListPushList d.nodes chanBufP.freeList headP tailP count
    let d := { d with nodes := nodes }.setChanBuf chanId (bufIndex bidirect direct) { chanBufP with freeList := list }
    (.ok, rtosEnableInt intLevel d)

/-- The node and the size are what `*node_p` and `*size_p` get, when they get something. -/
def bkSdioChanPopFreeNode (chanId direct : Nat) (nodeP : Bool) (d : Driver) :
    BkErr × Option (NodePtr × UInt32) × Driver :=
  if chanId ≥ chanMaxCnt then (.chanIdInvalid, none, d)
  else if direct > chanRx then (.directInvalid, none, d)
  else if nodeP = false then (.nullPointerParam, none, d)
  else
    let intLevel := d.level
    let d := rtosDisableInt d
    let chanBufP := d.chanBuf chanId (bufIndex bidirect direct)
    if chanBufP.freeList.count ≠ 0 then
      let (ret, tmpNodeP, list, nodes) := sdioListPopNode d.nodes chanBufP.freeList 0
      let d := { d with nodes := nodes }.setChanBuf chanId (bufIndex bidirect direct) { chanBufP with freeList := list }
      if ret ≠ .ok then (.noBuffer, none, rtosEnableInt intLevel d)
      else (.ok, some (tmpNodeP, chanBufP.bufSize), rtosEnableInt intLevel d)
    else (.noBuffer, some (0, 0), rtosEnableInt intLevel d)

def sdioChanPushOngoingNode (chanId direct : Nat) (headP tailP : NodePtr) (count : UInt32) (d : Driver) : Driver :=
  let intLevel := d.level
  let d := rtosDisableInt d
  let chanBufP := d.chanBuf chanId (bufIndex bidirect direct)
  let (_, list, nodes) := sdioListPushList d.nodes chanBufP.ongoingList headP tailP count
  let d := { d with nodes := nodes }.setChanBuf chanId (bufIndex bidirect direct) { chanBufP with ongoingList := list }
  rtosEnableInt intLevel d

def sdioChanPopOngoingNode (chanId direct : Nat) (nodeP : NodePtr) (d : Driver) : BkErr × NodePtr × Driver :=
  if chanId ≥ chanMaxCnt then (.chanIdInvalid, nodeP, d)
  else if direct > chanRx then (.directInvalid, nodeP, d)
  else
    let intLevel := d.level
    let d := rtosDisableInt d
    let chanBufP := d.chanBuf chanId (bufIndex bidirect direct)
    if chanBufP.ongoingList.count ≠ 0 then
      let (ret, tmpNodeP, list, nodes) := sdioListPopNode d.nodes chanBufP.ongoingList 0
      let d := { d with nodes := nodes }.setChanBuf chanId (bufIndex bidirect direct)
        { chanBufP with ongoingList := list }
      -- the interrupts stay off here
      if ret ≠ .ok then (.noTransactionFinishNode, nodeP, d)
      else (.ok, tmpNodeP, rtosEnableInt intLevel d)
    else (.fail, nodeP, rtosEnableInt intLevel d)

def sdioChanPushFinishList (chanId direct : Nat) (headP tailP : NodePtr) (count : UInt32) (d : Driver) :
    BkErr × Driver :=
  if chanId ≥ chanMaxCnt then (.chanIdInvalid, d)
  else if direct > chanRx then (.directInvalid, d)
  else
    let intLevel := d.level
    let d := rtosDisableInt d
    let chanBufP := d.chanBuf chanId (bufIndex bidirect direct)
    let (_, list, nodes) := sdioListPushList d.nodes chanBufP.finishList headP tailP count
    let d := { d with nodes := nodes }.setChanBuf chanId (bufIndex bidirect direct) { chanBufP with finishList := list }
    (.ok, rtosEnableInt intLevel d)

def sdioChanPopFinishNode (chanId direct : Nat) (nodeP : NodePtr) (d : Driver) : BkErr × NodePtr × Driver :=
  if chanId ≥ chanMaxCnt then (.chanIdInvalid, nodeP, d)
  else if direct > chanRx then (.directInvalid, nodeP, d)
  else
    let intLevel := d.level
    let d := rtosDisableInt d
    let chanBufP := d.chanBuf chanId (bufIndex bidirect direct)
    if chanBufP.finishList.count ≠ 0 then
      let (ret, tmpNodeP, list, nodes) := sdioListPopNode d.nodes chanBufP.finishList 0
      let d := { d with nodes := nodes }.setChanBuf chanId (bufIndex bidirect direct)
        { chanBufP with finishList := list }
      if ret ≠ .ok then (.noBuffer, nodeP, d)
      else (.ok, tmpNodeP, rtosEnableInt intLevel d)
    else (.ok, nodeP, rtosEnableInt intLevel d)

def sdioChanNotifyCb (chanId direct : Nat) (d : Driver) : Driver :=
  let chanBufP := d.chanBuf chanId (bufIndex bidirect direct)
  if chanBufP.cb ≠ 0 then
    app chanBufP.cb chanBufP.finishList.head chanBufP.finishList.tail chanBufP.finishList.count d
  else d

/-! ## Where the bytes go -/

/-- An address in the data of a node: the node, and the offset behind its header. -/
abbrev BufPtr := NodePtr × UInt32

def sdioSlaveGetValidOngoingRxBufPtr (chanId : Nat) (count : UInt32) (bufP : Option BufPtr) (d : Driver) :
    BkErr × Option BufPtr × Driver :=
  if chanId ≥ chanMaxCnt then (.chanIdInvalid, bufP, d)
  else if (d.chan chanId).rxDirect = false then (.directNotInit, bufP, d)
  else
    let intLevel := d.level
    let d := rtosDisableInt d
    let chanBufP := d.chanBuf chanId (bufIndex bidirect chanRx)
    if chanBufP.ongoingList.head = 0 then (.noBuffer, bufP, rtosEnableInt intLevel d)
    else if count > chanBufP.bufSize then (.fail, bufP, d)
    else
      let leftSize := chanBufP.bufSize - chanBufP.transactionLen
      if leftSize ≥ count then
        (.ok, some (chanBufP.ongoingList.head, chanBufP.transactionLen), rtosEnableInt intLevel d)
      else
        let (ret, headP, d) := sdioChanPopOngoingNode bidirect chanId chanRx 0 d
        if ret = .ok ∧ headP ≠ 0 then
          let (_, d) := sdioChanPushFinishList bidirect chanId chanRx headP headP 1 d
          let d := d.setChanBuf chanId (bufIndex bidirect chanRx)
            { d.chanBuf chanId (bufIndex bidirect chanRx) with transactionLen := 0 }
          (ret, some (headP, 0), rtosEnableInt intLevel d)
        else (ret, bufP, rtosEnableInt intLevel d)

/-- The length that is asked for is only logged. -/
def sdioSlaveGetValidOngoingTxBufPtr (chanId : Nat) (bufP : Option BufPtr) (d : Driver) :
    BkErr × Option BufPtr × Driver :=
  if chanId ≥ chanMaxCnt then (.chanIdInvalid, bufP, d)
  else if (d.chan chanId).txDirect = false then (.directNotInit, bufP, d)
  else
    let intLevel := d.level
    let d := rtosDisableInt d
    let chanBufP := d.chanBuf chanId (bufIndex bidirect chanTx)
    if chanBufP.ongoingList.head = 0 then (.fail, none, rtosEnableInt intLevel d)
    else
      let leftSize := (d.nodes chanBufP.ongoingList.head).len - chanBufP.transactionLen
      if leftSize ≥ 0 then
        (.ok, some (chanBufP.ongoingList.head, chanBufP.transactionLen), rtosEnableInt intLevel d)
      else (.ok, none, rtosEnableInt intLevel d)

def sdioSlaveAddOngoingBufTransLen (chanId direct : Nat) (transLen : UInt32) (d : Driver) : BkErr × Driver :=
  if chanId ≥ chanMaxCnt then (.chanIdInvalid, d)
  else if direct > chanRx then (.directInvalid, d)
  else
    let intLevel := d.level
    let d := rtosDisableInt d
    let chanBufP := d.chanBuf chanId (bufIndex bidirect direct)
    let d := d.setChanBuf chanId (bufIndex bidirect direct)
      { chanBufP with transactionLen := chanBufP.transactionLen + transLen }
    if chanBufP.transactionLen + transLen = chanBufP.bufSize then
      let (ret, headP, d) := sdioChanPopOngoingNode bidirect chanId direct 0 d
      if ret = .ok then
        let d := d.setChanBuf chanId (bufIndex bidirect direct)
          { d.chanBuf chanId (bufIndex bidirect direct) with transactionLen := 0 }
        let (_, d) := sdioChanPushFinishList bidirect chanId direct headP headP 1 d
        let d := sdioChanNotifyCb bidirect app chanId direct d
        let (_, _, d) := sdioChanPopFinishNode bidirect chanId direct headP d
        (ret, rtosEnableInt intLevel d)
      else (ret, rtosEnableInt intLevel d)
    else (.ok, rtosEnableInt intLevel d)

end

end BekenSdk.SdioSlave
