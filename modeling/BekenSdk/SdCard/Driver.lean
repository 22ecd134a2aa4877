import BekenSdk.Base.Machine
import Mathlib.Data.UInt

/-! Reads and writes of an SD card (`sd_card_driver.c` with `CONFIG_SDIO_V2P0`).
The driver leaves a transfer open after a call, and predicts from the calls alone
whether the next one continues it.
-/

set_option autoImplicit false

namespace BekenSdk.SdCard
open Base

def sdBlockSize : Nat := 512

instance : NeZero sdBlockSize := ⟨by decide⟩

abbrev Block := Fin sdBlockSize → UInt8

inductive Dir where
  | read
  | write
  deriving DecidableEq

/-- The card; its open transfer has a direction and a next block. -/
structure Card where
  sdhc : Bool
  blocks : Nat → Block
  transfer : Option (Dir × Nat)

/-- `sdcard_rw_ops_t` -/
inductive RwOps where
  | read
  | write
  | syncRw
  deriving DecidableEq

/-- `sdcard_rw_state_t` -/
inductive RwState where
  | initialized
  | reading
  | writing
  | ended
  deriving DecidableEq

def Dir.ops : Dir → RwOps
  | read => .read
  | write => .write

/-- The state in which a call of the direction continues. -/
def Dir.state : Dir → RwState
  | read => .reading
  | write => .writing

/-- What becomes of the commands of a call: `CMD12`, the wait for an idle card and
`CMD18` or `CMD25`, and how many blocks get through. -/
structure Outcome where
  stop : Bool
  idle : Bool
  start : Bool
  moved : Nat

/-- A call that came to move data: what it found, and what it said and did. -/
structure Record where
  dir : Dir
  blockAddr : UInt32
  blockNum : UInt32
  continued : Bool
  transfer : Option (Dir × Nat)
  ok : Bool
  before : Nat → Block
  after : Nat → Block
  data : Nat → Block

/-- The driver and the card. `lastEnd` is where the last call of `sd_card_check_continious_rw`
for a read or a write has led: the end of its blocks, if all of them got through. -/
structure Driver where
  mutexSdcard : Option Bool
  isInit : Bool
  cardTypeSdhc : Bool
  bakedState : RwState
  bakedAddr : UInt32
  card : Card
  lastEnd : Option Nat
  records : List Record

namespace Card

/-- The argument of `CMD18` and `CMD25` as the card takes it. -/
def blockOf (argument : UInt32) (card : Card) : Nat :=
  if card.sdhc then argument.toNat else argument.toNat / sdBlockSize

def setTransfer (transfer : Option (Dir × Nat)) (card : Card) : Card := { card with transfer := transfer }

/-- Blocks that the card sends, the rest of the buffer being left as it is. -/
def send (moved : Nat) (buffer : Nat → Block) (card : Card) : Card × (Nat → Block) :=
  match card.transfer with
  | some (.read, next) =>
    (card.setTransfer (some (.read, next + moved)), fun i => if i < moved then card.blocks (next + i) else buffer i)
  | _ => (card, buffer)

/-- Blocks with others in the place of some. -/
def overwrite (start num : Nat) (data blocks : Nat → Block) (b : Nat) : Block :=
  if start ≤ b ∧ b < start + num then data (b - start) else blocks b

/-- Blocks that the card takes. -/
def receive (moved : Nat) (data : Nat → Block) (card : Card) : Card :=
  match card.transfer with
  | some (.write, next) =>
    { card with blocks := overwrite next moved data card.blocks, transfer := some (.write, next + moved) }
  | _ => card

end Card

namespace Driver

def setCard (card : Card) (s : Driver) : Driver := { s with card := card }

def setBaked (state : RwState) (addr : UInt32) (s : Driver) : Driver :=
    { s with bakedState := state, bakedAddr := addr }

def setLastEnd (lastEnd : Option Nat) (s : Driver) : Driver := { s with lastEnd := lastEnd }

def unlock (s : Driver) : Driver := { s with mutexSdcard := some false }

def record (entry : Record) (s : Driver) : Driver := { s with records := entry :: s.records }

def sdCardCmdStopTransmission (ok : Bool) (s : Driver) : Driver :=
  if ok then s.setCard (s.card.setTransfer none) else s

/-- `CMD18` or `CMD25`. -/
def sdCardCmdMultipleBlock (dir : Dir) (argument : UInt32) (s : Driver) : Driver :=
  s.setCard (s.card.setTransfer (some (dir, s.card.blockOf argument)))

/-- The switch over `s_baked_state`. -/
def bake (ops : RwOps) (addr blkCnt : UInt32) (s : Driver) : RwState × Driver :=
  match s.bakedState, ops with
  | .initialized, .read => (.initialized, s.setBaked .reading (addr + blkCnt))
  | .initialized, .write => (.initialized, s.setBaked .writing (addr + blkCnt))
  | .initialized, .syncRw => (.initialized, s)
  | .reading, .read =>
    if s.bakedAddr = addr then (.reading, s.setBaked .reading (s.bakedAddr + blkCnt))
    else (.ended, s.setBaked .reading (addr + blkCnt))
  | .reading, .syncRw => (.ended, s.setBaked .initialized 0xffffffff)
  | .reading, .write => (.ended, s.setBaked .writing (addr + blkCnt))
  | .writing, .write =>
    if s.bakedAddr = addr then (.writing, s.setBaked .writing (s.bakedAddr + blkCnt))
    else (.ended, s.setBaked .writing (addr + blkCnt))
  | .writing, .syncRw => (.ended, s.setBaked .initialized 0xffffffff)
  | .writing, .read => (.ended, s.setBaked .reading (addr + blkCnt))
  | .ended, _ => (.initialized, s)

def sdCardCheckContiniousRw (ops : RwOps) (addr blkCnt : UInt32) (stopOk : Bool) (s : Driver) : RwState × Driver :=
  let baked := s.bake ops addr blkCnt
  (baked.1, if baked.1 = .ended then baked.2.sdCardCmdStopTransmission stopOk else baked.2)

def bkSdCardRwSync (stopOk : Bool) (s : Driver) : Driver := (s.sdCardCheckContiniousRw .syncRw 0 0 stopOk).2

/-- `data_len` in blocks. -/
def dataBlocks (blockNum : UInt32) : Nat := (UInt32.ofNat sdBlockSize * blockNum).toNat / sdBlockSize

/-- The loop that reads the FIFO takes a block before it looks at the size. -/
def blocksWanted (blockNum : UInt32) : Nat := max 1 (dataBlocks blockNum)

/-- The end of a call that moved `moved` of the blocks. -/
def endOf (blockAddr blockNum : UInt32) (moved : Nat) : Option Nat :=
  if moved = blockNum.toNat then some (blockAddr.toNat + moved) else none

/-- `bk_sdio_host_read_blks_fifo`, whose result is not used, and the return. -/
def readData (blockAddr blockNum : UInt32) (continued : Bool) (buffer : Nat → Block) (moved : Nat) (s : Driver) :
    Driver :=
  let moved := min moved (blocksWanted blockNum)
  let sent := s.card.send moved buffer
  let entry : Record :=
    { dir := .read, blockAddr := blockAddr, blockNum := blockNum, continued := continued
      transfer := s.card.transfer, ok := true, before := s.card.blocks, after := sent.1.blocks, data := sent.2 }
  (((s.setCard sent.1).setLastEnd (endOf blockAddr blockNum moved)).record entry).unlock

/-- `bk_sdio_host_write_fifo` and the return. -/
def writeData (blockAddr blockNum : UInt32) (continued : Bool) (data : Nat → Block) (moved : Nat) (s : Driver) :
    Driver :=
  let moved := if s.card.transfer.map Prod.fst = some .write then min moved (dataBlocks blockNum) else 0
  let entry : Record :=
    { dir := .write, blockAddr := blockAddr, blockNum := blockNum, continued := continued
      transfer := s.card.transfer, ok := decide (moved = dataBlocks blockNum), before := s.card.blocks
      after := (s.card.receive moved data).blocks, data := data }
  (((s.setCard (s.card.receive moved data)).setLastEnd (endOf blockAddr blockNum moved)).record entry).unlock

/-- What `addr *= 512` makes of the address. -/
def argumentOf (blockAddr : UInt32) (s : Driver) : UInt32 :=
  if s.cardTypeSdhc then blockAddr else blockAddr * UInt32.ofNat sdBlockSize

/-- The call finds the prediction that it continues. -/
def Continues (dir : Dir) (blockAddr : UInt32) (s : Driver) : Prop :=
  s.bakedState = dir.state ∧ s.bakedAddr = blockAddr

instance (dir : Dir) (blockAddr : UInt32) (s : Driver) : Decidable (s.Continues dir blockAddr) :=
  inferInstanceAs (Decidable (_ ∧ _))

/-- The last part of a call; without a new `CMD18` or `CMD25` it is a continued one. -/
def moveData (dir : Dir) (blockAddr blockNum : UInt32) (continued : Bool) (data : Nat → Block) (moved : Nat)
    (s : Driver) : Driver :=
  match dir with
  | .read => s.readData blockAddr blockNum continued data moved
  | .write => s.writeData blockAddr blockNum continued data moved

/-- `bk_sd_card_read_blocks` or `bk_sd_card_write_blocks`. -/
def rwBlocks (dir : Dir) (blockAddr blockNum : UInt32) (data : Nat → Block) (outcome : Outcome) (s : Driver) : Driver :=
  if s.isInit = false then s.unlock
  else
    let checked := s.sdCardCheckContiniousRw dir.ops blockAddr blockNum outcome.stop
    if checked.1 ≠ dir.state then
      if outcome.idle = false then (checked.2.setLastEnd none).unlock
      else if outcome.start = false then (checked.2.setLastEnd none).unlock
      else
        (checked.2.sdCardCmdMultipleBlock dir (checked.2.argumentOf blockAddr)).moveData dir blockAddr blockNum false data
          outcome.moved
    else checked.2.moveData dir blockAddr blockNum true data outcome.moved

/-- `hostOk` and `cardOk` say whether the steps of the initialisation succeed; in a
failed one the card may have been reset or not. -/
def bkSdCardInit (hostOk cardOk reset : Bool) (s : Driver) : Driver :=
  if s.isInit then s.unlock
  else if hostOk = false then s
  else if cardOk = false then (if reset then s.setCard (s.card.setTransfer none) else s).unlock
  else { s.setCard (s.card.setTransfer none) with isInit := true, cardTypeSdhc := s.card.sdhc, mutexSdcard := some false }

def bkSdCardDeinit (stopOk hostOk : Bool) (s : Driver) : Driver :=
  if s.isInit = false then s.unlock
  else
    let s := s.bkSdCardRwSync stopOk
    if hostOk = false then s else { s with isInit := false, cardTypeSdhc := false, mutexSdcard := some false }

/-- `rtos_lock_mutex`; nobody gets a lock that an earlier call has kept. -/
def lock (s : Driver) : Option Driver :=
  if s.mutexSdcard = some false then some { s with mutexSdcard := some true } else none

/-- The first call of `bk_sd_card_init` creates the lock. -/
def initMutex (s : Driver) : Driver := if s.mutexSdcard = none then s.unlock else s

end Driver

inductive Event where
  | init (mutexOk hostOk cardOk reset : Bool)
  | deinit (stopOk hostOk : Bool)
  | rwSync (stopOk : Bool)
  | rwBlocks (dir : Dir) (blockAddr blockNum : UInt32) (data : Nat → Block) (outcome : Outcome)

/-- A whole call; one that waits for ever for the lock is none. -/
def step (event : Event) (s : Driver) : Option Driver :=
  match event with
  | .init mutexOk hostOk cardOk reset =>
    if s.mutexSdcard = none ∧ !mutexOk then some s
    else s.initMutex.lock.map (Driver.bkSdCardInit hostOk cardOk reset)
  | .deinit stopOk hostOk =>
    if s.mutexSdcard = none then some s else s.lock.map (Driver.bkSdCardDeinit stopOk hostOk)
  | .rwSync stopOk => some (s.bkSdCardRwSync stopOk)
  | .rwBlocks dir blockAddr blockNum data outcome =>
    if s.mutexSdcard = none then some s
    else s.lock.map (Driver.rwBlocks dir blockAddr blockNum data outcome)

/-- The driver before its first call. -/
def Driver.start (card : Card) : Driver where
  mutexSdcard := none
  isInit := false
  cardTypeSdhc := false
  bakedState := .initialized
  bakedAddr := 0xffffffff
  card := card
  lastEnd := none
  records := []

end BekenSdk.SdCard
