import Mathlib.Data.UInt
import Mathlib.Logic.Function.Basic

/-! The SDIO driver (sdio.c, sutil.c). A pool of nodes moves between lists while the
host's commands start transfers into and out of their buffers. `blk512` is
FOR_SDIO_BLK_512. The bytes of the frames are left out, except the header that
a transfer has brought.
-/

set_option autoImplicit false

namespace BekenSdk.SdioNodes

def cellCount : Nat := 64
def blockLen : UInt32 := 512 * 8
def cfgMsduResvHeadLen : Nat := 96
def cfgMsduResvTailLen : Nat := 16
def mallocMagicLen : Nat := 8
def maxContentCount : Nat := 15

def rxNodeOk : UInt16 := 0x1
def txNodeOk : UInt16 := 0x2
def rxNoNode : UInt16 := 0xA
def txNoNode : UInt16 := 0xB

def opcWrReg : UInt8 := 0xC5
def opcRdReg : UInt8 := 0x5C
def opcWrDtcm : UInt8 := 0xE3
def opcRdDtcm : UInt8 := 0x3E

def h2sRdSync : UInt32 := 1
def h2sWrSync : UInt32 := 2
def s2hRdSync : UInt32 := 3
def s2hWrSync : UInt32 := 4
def h2sRdSpecial : UInt32 := 5
def s2hWrSpecial : UInt32 := 6

def sdioCmdGetFreeNode : UInt32 := 0xBB
def sdioCmdPushFreeNode : UInt32 := 0xBD
def sdioCmdClearTxValid : UInt32 := 0xC0
def sdioCmdSetTxValid : UInt32 := 0xC1

/-- `MIN(x, y)`. -/
def minOf (x y : UInt32) : UInt32 := if x < y then x else y

/-- A command of the host, `SDIO_CMD_S` and `SDIO_DCMD_S` in one. -/
structure Cmd where
  opCode : UInt8
  len : UInt8
  dataLen : UInt16
  startLen : UInt16
  seq : UInt8
  totalSize : UInt16

/-- The header of a received frame, `_stm32_frame_hdr`. -/
structure FrameHdr where
  len : UInt16
  seq : UInt8

inductive Head where
  | freeNodes
  | txDat
  | txingList
  | rxDat
  | rxingList
  deriving DecidableEq

structure Sdio where
  rxStatus : UInt16
  txStatus : UInt16
  tcLen : UInt32
  rcLen : UInt32
  rxSeq : UInt8
  rxLen : UInt32
  txLen : UInt32
  rHdlLen : UInt32
  tHdlLen : UInt32
  txTransactionLen : UInt32
  rxTransactionLen : UInt32
  daHdErr : Bool
  txValid : Bool
  /-- The lengths of the nodes' buffers. -/
  length : Nat → UInt32
  list : Head → List Nat
  /-- The nodes that callers hold. -/
  held : List Nat

/-- What the command handler reaches. -/
inductive Access where
  /-- A transfer of `len` bytes at `start` of an allocated buffer. -/
  | dma (buffer start len : Nat)
  | content (index : Nat)
  | regVal (index : Nat)
  | reply (len : Nat)
  deriving DecidableEq

def Access.Inside : Access → Prop
  | dma buffer start len => start + len ≤ buffer
  | content index => index < maxContentCount
  | regVal index => index < 16
  | reply len => len ≤ 16 * 4

instance : DecidablePred Access.Inside
  | .dma buffer start len => inferInstanceAs (Decidable (start + len ≤ buffer))
  | .content index => inferInstanceAs (Decidable (index < maxContentCount))
  | .regVal index => inferInstanceAs (Decidable (index < 16))
  | .reply len => inferInstanceAs (Decidable (len ≤ 16 * 4))

/-- Nothing comes after a failed assertion, or after a node is given that nobody holds. -/
structure Outcome where
  accesses : List Access
  after : Option Sdio

namespace Sdio
variable (blk512 : Bool) (s : Sdio)

/-! ## sutil.c -/

def suPushNode (head : Head) (node : Nat) : Sdio :=
  { s with list := Function.update s.list head (s.list head ++ [node]) }

def suPopNode (head : Head) : Option Nat × Sdio :=
  match s.list head with
  | [] => (none, s)
  | node :: others => (some node, { s with list := Function.update s.list head others })

def suGetNodeCount (head : Head) : Nat := (s.list head).length

/-! ## Nodes -/

/-- `memory` is whether `os_malloc` has any. -/
def sdioAllocValidNode (bufSize : UInt32) (memory : Bool) : Option Nat × Sdio :=
  if bufSize = 0 then (none, s)
  else
    match s.suPopNode .freeNodes with
    | (some node, popped) =>
      if memory then (some node, { popped with length := Function.update s.length node bufSize })
      else (none, popped.suPushNode .freeNodes node)
    | (none, popped) => (none, popped)

def sdioFreeValidNode (node : Nat) : Sdio :=
  { s with length := Function.update s.length node 0 }.suPushNode .freeNodes node

/-- The bytes that were allocated for the node. -/
def buffer (node : Nat) : Nat := cfgMsduResvHeadLen + (s.length node).toNat + cfgMsduResvTailLen + mallocMagicLen

/-! ## The command handler -/

/-- The size of a new node for a frame, in the build with blocks of 512 bytes. -/
def mSize (totalSize : UInt16) : UInt32 :=
  if 1024 < totalSize ∧ totalSize ≤ 1536 then 1536
  else if 0 < totalSize ∧ totalSize ≤ 512 then 512
  else if 512 < totalSize ∧ totalSize ≤ 1024 then 1024
  else 2048

def newSize (cmd : Cmd) : UInt32 := if blk512 then mSize cmd.totalSize else cmd.dataLen.toUInt32

/-- The node of the transfer before, unless there is none or, in the build with blocks of
512 bytes, it is of another frame. -/
def wrNode (cmd : Cmd) (memory : Bool) : Option Nat × Sdio :=
  match s.suPopNode .rxingList with
  | (none, popped) => popped.sdioAllocValidNode (newSize blk512 cmd) memory
  | (some node, popped) =>
    if blk512 ∧ s.rxSeq ≠ cmd.seq then
      let (node, renewed) := (popped.sdioFreeValidNode node).sdioAllocValidNode (mSize cmd.totalSize) memory
      (node, { renewed with rxSeq := cmd.seq })
    else (some node, popped)

def setRxLen (cmd : Cmd) : Sdio :=
  if blk512 then { s with rxLen := cmd.totalSize.toUInt32 } else { s with rxLen := cmd.dataLen.toUInt32, rHdlLen := 0 }

/-- Where the frame goes on. -/
def setStart (cmd : Cmd) : Sdio :=
  if blk512 then
    let marked := if s.rxSeq ≠ cmd.seq ∧ cmd.startLen ≠ 0 then { s with daHdErr := true } else s
    if s.rcLen ≠ cmd.startLen.toUInt32 then
      { marked with rcLen := cmd.startLen.toUInt32, rHdlLen := cmd.startLen.toUInt32 }
    else marked
  else s

def rxTransaction (cmd : Cmd) : UInt32 :=
  if blk512 then cmd.dataLen.toUInt32 else minOf blockLen (s.rxLen - s.rHdlLen)

/-- `sdma_dma_start` of a node's buffer, which asserts the length. -/
def sdmaStart (node : Nat) (offset len : UInt32) : Outcome :=
  if len = 0 then ⟨[], none⟩
  else ⟨[.dma (s.buffer node) (cfgMsduResvHeadLen + offset.toNat) len.toNat], some s⟩

def opWrDtcm (cmd : Cmd) (memory : Bool) : Outcome :=
  let s := s.setRxLen blk512 cmd
  if blk512 ∧ 2 ≤ s.suGetNodeCount .rxingList then ⟨[], none⟩
  else
    let (node, taken) := s.wrNode blk512 cmd memory
    let s := taken.setStart blk512 cmd
    match node with
    | some node =>
      let started := { s with rxStatus := rxNodeOk, rxTransactionLen := s.rxTransaction blk512 cmd }
      (started.suPushNode .rxingList node).sdmaStart node (if blk512 then s.rcLen else 0) (s.rxTransaction blk512 cmd)
    | none => ⟨[], some { s with rxStatus := rxNoNode }⟩

def rdNode : Option Nat × Sdio :=
  match s.suPopNode .txingList with
  | (some node, popped) => (some node, popped)
  | (none, popped) => popped.suPopNode .txDat

def setTxLen (cmd : Cmd) : Sdio :=
  let cleared := if s.suGetNodeCount .txDat ≤ 1 then { s with txValid := false } else s
  { cleared with txLen := cmd.dataLen.toUInt32, tHdlLen := 0 }

def opRdDtcm (cmd : Cmd) : Outcome :=
  let s := s.setTxLen cmd
  let count := s.suGetNodeCount .txingList
  if blk512 ∧ (2 ≤ count ∨ count = 0 ∧ s.tcLen ≠ 0) then ⟨[], none⟩
  else
    match s.rdNode with
    | (some node, taken) =>
      let len := minOf blockLen (s.txLen - s.tHdlLen)
      let started := { taken with txStatus := txNodeOk, txTransactionLen := len }
      (started.suPushNode .txingList node).sdmaStart node (if blk512 then s.tcLen else 0) len
    | (none, taken) => ⟨[], some { taken with txStatus := txNoNode }⟩

/-- `(len - 4) >> shift` as a byte. -/
def regNumb (len : UInt8) (shift : Nat) : Nat := ((((len.toNat : Int) - 4) >>> shift) % 256).toNat

def opWrReg (cmd : Cmd) : Outcome :=
  let count := regNumb cmd.len 3
  ⟨(List.range count).flatMap fun i => [.content i, .content (i + count)], some s⟩

def opRdReg (cmd : Cmd) : Outcome :=
  let count := regNumb cmd.len 2
  let reads := (List.range count).flatMap fun i => [Access.content i, .regVal i]
  if count = 0 then ⟨reads, none⟩ else ⟨reads ++ [.reply (min 64 (count * 4))], some s⟩

def sdioCmdHandler (cmd : Cmd) (memory : Bool) : Outcome :=
  if cmd.opCode = opcWrDtcm then s.opWrDtcm blk512 cmd memory
  else if cmd.opCode = opcRdDtcm then s.opRdDtcm blk512 cmd
  else if cmd.opCode = opcWrReg then s.opWrReg cmd
  else if cmd.opCode = opcRdReg then s.opRdReg cmd
  else ⟨[], some s⟩

/-! ## The ends of the transfers -/

/-- The node was sent: it is freed, and all of the command must be handled. -/
def txDone (node : Nat) : Option Sdio :=
  if s.txLen - s.tHdlLen ≠ 0 then none else some { s.sdioFreeValidNode node with tcLen := 0 }

def sdioTxCb : Option Sdio :=
  match s.suPopNode .txingList with
  | (none, popped) =>
    if s.txStatus = txNoNode then
      let handled := if blk512 then popped.tHdlLen else popped.tHdlLen + popped.txTransactionLen
      some { popped with tHdlLen := handled, txStatus := txNodeOk }
    else none
  | (some node, popped) =>
    let s : Sdio := { popped with tHdlLen := popped.tHdlLen + popped.txTransactionLen }
    if blk512 then
      let s : Sdio := { s with tcLen := s.tcLen + s.txTransactionLen }
      if s.length node ≤ s.tcLen then s.txDone node else some (s.suPushNode .txingList node)
    else if s.txLen - s.tHdlLen ≠ 0 then none else some (s.sdioFreeValidNode node)

/-- The frame is whole: readers can get it, and all of the command must be handled. -/
def rxDone (node : Nat) : Option Sdio :=
  if s.rxLen - s.rHdlLen ≠ 0 then none else some (s.suPushNode .rxDat node)

def sdioRxCb (hdr : FrameHdr) : Option Sdio :=
  match s.suPopNode .rxingList with
  | (none, popped) =>
    if s.rxStatus = rxNoNode ∨ blk512 then
      let handled := if blk512 then popped.rHdlLen else popped.rHdlLen + popped.rxTransactionLen
      some { popped with rHdlLen := handled, rxStatus := rxNodeOk }
    else none
  | (some node, popped) =>
    let s : Sdio := { popped with rHdlLen := popped.rHdlLen + popped.rxTransactionLen }
    if blk512 then
      let s : Sdio := { s with rcLen := s.rcLen + s.rxTransactionLen, rxSeq := hdr.seq }
      if hdr.len.toUInt32 ≤ s.rcLen then
        if s.daHdErr then some { s.sdioFreeValidNode node with rcLen := 0, rHdlLen := 0, daHdErr := false }
        else (s.rxDone node).map fun s => { s with rcLen := 0, rHdlLen := 0 }
      else some (s.suPushNode .rxingList node)
    else s.rxDone node

/-! ## The calls -/

def hold (node : Nat) : Sdio := { s with held := node :: s.held }

def letGo (node : Nat) : Sdio := { s with held := s.held.erase node }

/-- The node at the front of a list is copied to the caller and freed. -/
def readSync (head : Head) : Sdio :=
  match s.suPopNode head with
  | (some node, popped) => popped.sdioFreeValidNode node
  | (none, popped) => popped

/-- `userBuf` is whether the caller gives a buffer. -/
def sdioRead (userBuf : Bool) (count opFlag : UInt32) : Sdio :=
  if opFlag = s2hRdSync then if userBuf ∧ count ≠ 0 then s.readSync .txDat else s
  else if opFlag = h2sRdSync then if userBuf ∧ count ≠ 0 then s.readSync .rxDat else s
  else if opFlag = h2sRdSpecial then
    match s.suPopNode .rxDat with
    | (some node, popped) => popped.hold node
    | (none, popped) => popped
  else s

def writeSync (head : Head) (count : UInt32) (memory : Bool) : Sdio :=
  match s.sdioAllocValidNode count memory with
  | (some node, taken) => taken.suPushNode head node
  | (none, left) => left

/-- `userBuf` is the caller's buffer or, in S2H_WR_SPECIAL, a node that the caller holds. -/
def sdioWrite (userBuf : Option Nat) (count opFlag : UInt32) (memory : Bool) : Option Sdio :=
  match userBuf with
  | none => some s
  | some node =>
    if count = 0 then some s
    else if opFlag = s2hWrSync then
      let valid := (s.sdioAllocValidNode count memory).1.isSome
      some { s.writeSync .txDat count memory with txValid := s.txValid || valid }
    else if opFlag = s2hWrSpecial then
      if node ∈ s.held then some { (s.letGo node).suPushNode .txDat node with txValid := true } else none
    else if opFlag = h2sWrSync then some (s.writeSync .rxDat count memory)
    else some s

/-- `param` is the node or, in SDIO_CMD_GET_FREE_NODE, what the pointer points to. -/
def sdioCtrl (cmd param : UInt32) (memory : Bool) : Option Sdio :=
  if cmd = sdioCmdPushFreeNode then
    if param.toNat ∈ s.held then some ((s.letGo param.toNat).sdioFreeValidNode param.toNat) else none
  else if cmd = sdioCmdGetFreeNode then
    match s.sdioAllocValidNode param memory with
    | (some node, taken) => some (taken.hold node)
    | (none, left) => some left
  else if cmd = sdioCmdClearTxValid then some { s with txValid := false }
  else if cmd = sdioCmdSetTxValid then some { s with txValid := true }
  else some s

end Sdio

/-- `sdio_init`, with every node free. -/
def sdioInit : Sdio where
  rxStatus := 0
  txStatus := 0
  tcLen := 0
  rcLen := 0
  rxSeq := 0
  rxLen := 0
  txLen := 0
  rHdlLen := 0
  tHdlLen := 0
  txTransactionLen := 0
  rxTransactionLen := 0
  daHdErr := false
  txValid := false
  length _ := 0
  list head := if head = .freeNodes then List.range cellCount else []
  held := []

inductive Event where
  | cmd (cmd : Cmd) (memory : Bool)
  | txCb
  | rxCb (hdr : FrameHdr)
  | read (userBuf : Bool) (count opFlag : UInt32)
  | write (userBuf : Option Nat) (count opFlag : UInt32) (memory : Bool)
  | ctrl (cmd param : UInt32) (memory : Bool)

/-- Only the command handler reaches buffers and registers. -/
def perform (blk512 : Bool) (s : Sdio) : Event → Outcome
  | .cmd cmd memory => s.sdioCmdHandler blk512 cmd memory
  | .txCb => ⟨[], s.sdioTxCb blk512⟩
  | .rxCb hdr => ⟨[], s.sdioRxCb blk512 hdr⟩
  | .read userBuf count opFlag => ⟨[], some (s.sdioRead userBuf count opFlag)⟩
  | .write userBuf count opFlag memory => ⟨[], s.sdioWrite userBuf count opFlag memory⟩
  | .ctrl cmd param memory => ⟨[], s.sdioCtrl cmd param memory⟩

end BekenSdk.SdioNodes
