import BekenSdk.Base.Machine
import BekenSdk.SdioSlave.Channel

/-! How the slave receives, without DMA: the application queues nodes, the host puts the words of a transfer into the
FIFO, the thread copies them into a node and later counts them.
-/

set_option autoImplicit false

namespace BekenSdk.SdioSlave
open Base

/-- One `*(uint32_t *)cur_p = sdio_hal_slave_read_data()`. The cores with this block store a word at any address. -/
structure Store where
  node : NodePtr
  offset : Nat
  word : Word

def Driver.store (d : Driver) (s : Store) : Driver :=
  { d with data := Function.update d.data s.node (storeBytes (d.data s.node) s.offset s.word.bytes) }

/-- Waits for a word and takes it; without one the wait has no end. -/
def sdioHalSlaveReadData (d : Driver) : Option (Word × Driver) :=
  match d.fifo with
  | [] => none
  | w :: rest => some (w, { d with fifo := rest })

/-- `for(i = 0; i < word_cnt; i = i + 4)`, with the offset of `cur_p` in the node. -/
def copyWords (wordCnt i : Nat) (node : NodePtr) (offset : Nat) (d : Driver) : Option (Nat × List Store × Driver) :=
  if i < wordCnt then
    match sdioHalSlaveReadData d with
    | none => none
    | some (w, d) =>
      match copyWords wordCnt (i + 4) node (offset + 4) (d.store ⟨node, offset, w⟩) with
      | none => none
      | some (last, stores, d) => some (last, ⟨node, offset, w⟩ :: stores, d)
  else some (offset, [], d)
  termination_by wordCnt - i

/-- `sdio_slave_rx_fifo_to_buf`, with the stores it makes. The message that it sends is `finishing` in the machine. -/
def sdioSlaveRxFifoToBuf (tarAddrP : BufPtr) (count : UInt32) (d : Driver) : Option (List Store × Driver) :=
  let byteCnt := count.toNat % 4
  let wordCnt := count.toNat / 4
  match copyWords wordCnt 0 tarAddrP.1 tarAddrP.2.toNat d with
  | none => none
  | some (curP, stores, d) =>
    if byteCnt ≠ 0 then
      match sdioHalSlaveReadData d with
      | none => none
      | some (w, d) => some (stores ++ [⟨tarAddrP.1, curP, w⟩], d.store ⟨tarAddrP.1, curP, w⟩)
    else some (stores, d)

section
variable (bidirect : Bool) (app : UInt32 → NodePtr → NodePtr → UInt32 → Driver → Driver)

def sdioSlaveRx (count : UInt32) (d : Driver) : Option (BkErr × List Store × Driver) :=
  match sdioSlaveGetValidOngoingRxBufPtr bidirect chanPlatform count none d with
  | (_, some tarAddrP, d) =>
    match sdioSlaveRxFifoToBuf tarAddrP count d with
    | none => none
    | some (stores, d) => some (.ok, stores, d)
  | (_, none, d) => some (.fail, [], d)

def bkSdioSlaveSyncRead (chanId : Nat) (headP tailP : NodePtr) (count : UInt32) (d : Driver) : BkErr × Driver :=
  if chanId ≥ chanMaxCnt then (.chanIdInvalid, d)
  else
    let intLevel := d.level
    let d := rtosDisableInt d
    let chanBufP := d.chanBuf chanId (bufIndex bidirect chanRx)
    let (ret, list, nodes) := sdioListPushList d.nodes chanBufP.ongoingList headP tailP count
    let d := { d with nodes := nodes }.setChanBuf chanId (bufIndex bidirect chanRx) { chanBufP with ongoingList := list }
    (ret, rtosEnableInt intLevel d)

/-! ## Runs -/

/-- The application links nodes to a list. -/
def linkNodes (nodes : Nodes) : List NodePtr → Nodes
  | [] => nodes
  | [n] => nodes.setNext n 0
  | n :: m :: rest => (linkNodes nodes (m :: rest)).setNext n m

/-- The driver, and the length of the packet for which `SDIO_READ_TO_MEMORY_FINISH` is in the queue. Until it has been
handled the host is kept from the next block. -/
structure Slave where
  driver : Driver
  finishing : Option UInt32

inductive Event
  /-- `bk_sdio_slave_sync_read` with a list of nodes. -/
  | syncRead (members : List NodePtr)
  /-- The host has put the words of a transfer into the FIFO: `SDIO_READ_TO_FIFO_FINISH`. -/
  | transfer (words : List Word) (count : UInt32)
  | memoryFinish
  /-- The FIFO is reset, as at a CMD52. -/
  | fifoReset

/-- What the thread does with a transfer. -/
def receive (words : List Word) (count : UInt32) (d : Driver) : Option (BkErr × List Store × Driver) :=
  sdioSlaveRx bidirect count { d with fifo := d.fifo ++ words }

def step : Event → Slave → Option Slave
  | .syncRead members, s =>
    let d := { s.driver with nodes := linkNodes s.driver.nodes members }
    let (_, d) := bkSdioSlaveSyncRead bidirect chanPlatform (members.headD 0) (lastOf members)
      (UInt32.ofNat members.length) d
    some { s with driver := d }
  | .transfer words count, s =>
    if s.finishing.isNone then
      match receive bidirect words count s.driver with
      | none => none
      | some (ret, _, d) => some ⟨d, if ret = .ok then some count else none⟩
    else none
  | .memoryFinish, s =>
    match s.finishing with
    | none => none
    | some packetLen =>
      some ⟨(sdioSlaveAddOngoingBufTransLen bidirect app chanPlatform chanRx packetLen s.driver).2, none⟩
  | .fifoReset, s => some { s with driver := { s.driver with fifo := [] } }

/-- The receive side of the channel. -/
def Driver.rx (d : Driver) : ChanBuf := d.chanBuf chanPlatform (bufIndex bidirect chanRx)

/-- A node that is queued is in no list, and a transfer has at most the bytes of a node, in as few words as can be. -/
def Allowed (s : Slave) : Event → Prop
  | .syncRead members =>
    members.Nodup ∧ (∀ n ∈ members, n ≠ 0) ∧
      ∀ queued, Lists s.driver.nodes (s.driver.rx bidirect).ongoingList queued → queued.Disjoint members
  | .transfer words count =>
    0 < count.toNat ∧ count ≤ (s.driver.rx bidirect).bufSize ∧ words.length = (count.toNat + 3) / 4
  | _ => True

/-- The channel after `bk_sdio_init_channel`, before anything is queued. -/
structure Initial (s : Slave) : Prop where
  opened : (s.driver.chan chanPlatform).rxDirect = true
  ongoing : (s.driver.rx bidirect).ongoingList = ⟨0, 0, 0⟩
  finish : (s.driver.rx bidirect).finishList = ⟨0, 0, 0⟩
  empty : (s.driver.rx bidirect).transactionLen = 0
  room : 0 < (s.driver.rx bidirect).bufSize.toNat
  idle : s.finishing = none

/-! ## What is claimed of a transfer -/

/-- The bytes of a transfer. -/
def payload (words : List Word) (count : UInt32) : List UInt8 := (words.flatMap Word.bytes).take count.toNat

/-- Words one behind the other in a node. -/
def placed (node : NodePtr) : Nat → List Word → List Store
  | _, [] => []
  | offset, w :: rest => ⟨node, offset, w⟩ :: placed node (offset + 4) rest

/-- What `sdio_list_init` allocates behind the header of a node. -/
def blockSize (bufSize : UInt32) : Nat := (bufSize.toNat + 3) / 4 * 4

/-- The transfer needs a node, or the next one, and none is queued. -/
def Lacking (d : Driver) (count : UInt32) : Prop :=
  Lists d.nodes (d.rx bidirect).ongoingList [] ∨
    ∃ n, Lists d.nodes (d.rx bidirect).ongoingList [n] ∧
      (d.rx bidirect).bufSize.toNat < (d.rx bidirect).transactionLen.toNat + count.toNat

/-- The bytes go, complete and in order, into the free space of one node that is still queued, and nothing else that
was received changes. -/
structure StoredWell (d : Driver) (words : List Word) (count : UInt32) (stores : List Store) (after : Driver) :
    Prop where
  well : ∃ node offset copied members, stores = placed node offset copied ∧
    (copied.flatMap Word.bytes).take count.toNat = payload words count ∧
    Lists after.nodes (after.rx bidirect).ongoingList members ∧ node ∈ members ∧
    (node = (d.rx bidirect).ongoingList.head → (d.rx bidirect).transactionLen.toNat ≤ offset) ∧
    offset + 4 * copied.length ≤ blockSize (d.rx bidirect).bufSize ∧
    ∀ p k, (p ≠ node ∨ k < offset) → after.data p k = d.data p k

def TransferMet (d : Driver) (words : List Word) (count : UInt32) (outcome : BkErr × List Store × Driver) : Prop :=
  (Lacking bidirect d count → outcome.1 ≠ .ok ∧ outcome.2.1 = [] ∧ outcome.2.2.data = d.data) ∧
    (¬Lacking bidirect d count → StoredWell bidirect d words count outcome.2.1 outcome.2.2)

/-- Nothing is queued; or nothing is left in the FIFO, there are fewer than eight bytes, and they fit behind those that
the node has, with the bytes that fill up the last word. -/
def Fits (d : Driver) (words : List Word) (count : UInt32) : Prop :=
  (d.rx bidirect).ongoingList.head = 0 ∨
    (d.fifo = [] ∧ count.toNat < 8 ∧
      (d.rx bidirect).transactionLen.toNat + count.toNat ≤ (d.rx bidirect).bufSize.toNat ∧
      (d.rx bidirect).transactionLen.toNat + 4 * words.length ≤ blockSize (d.rx bidirect).bufSize)

end

end BekenSdk.SdioSlave
