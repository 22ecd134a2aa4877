import BekenSdk.Base.Bytes
import BekenSdk.Base.Loop

/-! The data phase of the SDIO host (sdio_host_driver.c with CONFIG_SDIO_V2P0), by the CPU and with the driver
initialised. What the block and the card do is up to the environment: when interrupts are served, and what each poll of
a FIFO finds.
-/

set_option autoImplicit false

namespace BekenSdk.SdioHost
open Base

def sdioBlockSize : UInt32 := 0x200

inductive BkErr
  | ok
  /-- kTimeoutErr of rtos_get_semaphore. -/
  | timeout
  | dataTimeout
  | dataCrcFail
  | readDataFail
  deriving DecidableEq

/-! ## Interrupts and semaphores -/

/-- The bits of `int_status` that the interrupt service looks at. -/
structure IntStatus where
  cmdRsp : Bool
  writeEnd : Bool
  recvEnd : Bool
  dataTimeout : Bool
  crcOk : Bool

/-- The counts of the two semaphores, which go up to one. -/
structure Semas where
  txSema : Nat
  rxSema : Nat

/-- With the write status of the card. Failures and time-outs of a receipt only clear their bits. -/
def sdioHostIsr (intStatus : IntStatus) (wrStatus : UInt32) (semas : Semas) : Semas :=
  if intStatus.cmdRsp then semas
  else if intStatus.writeEnd then
    if wrStatus ≠ 2 then semas else { semas with txSema := min (semas.txSema + 1) 1 }
  else if intStatus.recvEnd || intStatus.dataTimeout then
    if intStatus.crcOk then { semas with rxSema := min (semas.rxSema + 1) 1 } else semas
  else semas

/-- A count that goes up to one, after services of which some give it. -/
theorem served_count {S A : Type} (count : S → Nat) {serve : S → A → S} (gives : A → Prop) [DecidablePred gives]
    (serves : ∀ s a, count (serve s a) = if gives a then min (count s + 1) 1 else count s) (served : List A) {s : S}
    (atMostOne : count s ≤ 1) :
    count (served.foldl serve s) ≤ 1 ∧
      (count (served.foldl serve s) = 0 ↔ count s = 0 ∧ ∀ a ∈ served, ¬gives a) := by
  induction served generalizing s with
  | nil => simp [atMostOne]
  | cons a rest ih =>
    have first := serves s a
    by_cases given : gives a
    · rw [if_pos given] at first
      obtain ⟨bounded, none⟩ := ih (show count (serve s a) ≤ 1 by omega)
      refine ⟨bounded, none.trans ⟨fun nothing => absurd nothing.1 (by omega), fun nothing => ?_⟩⟩
      exact absurd given (nothing.2 a List.mem_cons_self)
    · rw [if_neg given] at first
      obtain ⟨bounded, none⟩ := ih (show count (serve s a) ≤ 1 by omega)
      refine ⟨bounded, none.trans ?_⟩
      rw [first, List.forall_mem_cons]
      simp only [given, not_false_eq_true, true_and]

/-- How the receipt of a block ends. -/
inductive RxEnd
  | crcOk
  | crcFail
  | timeout
  deriving DecidableEq

def RxEnd.intStatus : RxEnd → IntStatus
  | .crcOk => { cmdRsp := false, writeEnd := false, recvEnd := true, dataTimeout := false, crcOk := true }
  | .crcFail => { cmdRsp := false, writeEnd := false, recvEnd := true, dataTimeout := false, crcOk := false }
  | .timeout => { cmdRsp := false, writeEnd := false, recvEnd := false, dataTimeout := true, crcOk := false }

theorem sdioHostIsr_received (how : RxEnd) (semas : Semas) :
    (sdioHostIsr how.intStatus 0 semas).rxSema = if how = .crcOk then min (semas.rxSema + 1) 1 else semas.rxSema := by
  cases how <;> rfl

def writeEnded : IntStatus where
  cmdRsp := false
  writeEnd := true
  recvEnd := false
  dataTimeout := false
  crcOk := false

theorem sdioHostIsr_writeEnded (wrStatus : UInt32) (semas : Semas) :
    (sdioHostIsr writeEnded wrStatus semas).txSema =
      if wrStatus = 2 then min (semas.txSema + 1) 1 else semas.txSema := by
  by_cases acknowledged : wrStatus = 2
  · simp [sdioHostIsr, writeEnded, acknowledged]
  · simp [sdioHostIsr, writeEnded, acknowledged]

/-! ## Reading blocks -/

/-- What the card and the block do in a read. The number of a wait goes with what happens from the return of the one
before until it returns. -/
structure RxEnv where
  /-- The receipts that end, each with the number of its block. -/
  rxEnds : Nat → List (Nat × RxEnd)
  /-- What the polls find before a word is read, by the number of the attempt. -/
  rxReady : Nat → Nat → Bool
  /-- The words out of the FIFO. -/
  word : Nat → UInt32

/-- Where the read of the blocks is. -/
inductive RxPlace
  | wait
  | word
  | left
  deriving DecidableEq

structure RxState where
  place : RxPlace
  semas : Semas
  index : UInt32
  errorState : BkErr
  waits : Nat
  attempts : Nat
  taken : Nat
  /-- The stores to `data`, in order. -/
  stores : List (Nat × UInt8)

/-- SDIO_READ_FIFO_TIMEOUT -/
def sdioReadFifoTimeout : Nat := 400

/-- The loop of bk_sdio_host_read_fifo: whether the FIFO is ready at one of so many polls. -/
def rxPolls (ready : Nat → Bool) : Nat → Nat → Bool
  | 0, _ => false
  | left + 1, poll => if ready poll then true else rxPolls ready left (poll + 1)

/-- The bytes of a word, as they are stored. -/
def wordBytes (word : UInt32) : List UInt8 :=
  [(word &&& 0xff).toUInt8, ((word >>> 8) &&& 0xff).toUInt8, ((word >>> 16) &&& 0xff).toUInt8,
    ((word >>> 24) &&& 0xff).toUInt8]

namespace RxState
variable (env : RxEnv) (s : RxState)

/-- rtos_get_semaphore after the interrupts that come until it returns. -/
def bkSdioHostWaitReceiveData : BkErr × RxState :=
  let semas := (env.rxEnds s.waits).foldl (fun semas ended => sdioHostIsr ended.2.intStatus 0 semas) s.semas
  if semas.rxSema = 0 then (.timeout, { s with semas := semas, waits := s.waits + 1 })
  else (.ok, { s with semas := { semas with rxSema := semas.rxSema - 1 }, waits := s.waits + 1 })

/-- The word that is read, or an error. -/
def bkSdioHostReadFifo : Except BkErr UInt32 × RxState :=
  if rxPolls (env.rxReady s.attempts) sdioReadFifoTimeout 0 then
    (.ok (env.word s.taken), { s with attempts := s.attempts + 1, taken := s.taken + 1 })
  else (.error .readDataFail, { s with attempts := s.attempts + 1 })

/-- Four stores with `index++`. -/
def store (word : UInt32) : RxState :=
  let places := [s.index, s.index + 1, s.index + 2, s.index + 3]
  { s with stores := s.stores ++ (places.map UInt32.toNat).zip (wordBytes word), index := s.index + 4 }

/-- Behind the inner loop. -/
def next (dataSize : UInt32) : RxState :=
  if s.index ≥ dataSize then { s with place := .left } else { s with place := .wait }

/-- The two loops, from one wait or word to the next. -/
def round (dataSize : UInt32) : RxState :=
  match s.place with
  | .left => s
  | .wait =>
    match s.bkSdioHostWaitReceiveData env with
    | (.ok, s) => { s with place := .word }
    | (_, s) => { s with place := .left }
  | .word =>
    match s.bkSdioHostReadFifo env with
    | (.ok word, s) =>
      let s := { s.store word with errorState := .ok }
      if s.index % sdioBlockSize ≠ 0 then s else s.next dataSize
    | (.error errorState, s) => { s with errorState := errorState }.next dataSize

end RxState

def rxInit : RxState where
  place := .wait
  semas := ⟨0, 0⟩
  index := 0
  errorState := .ok
  waits := 0
  attempts := 0
  taken := 0
  stores := []

/-- bk_sdio_host_read_blks_fifo with what it returns, when so many rounds are enough. -/
def sdioHostCpuReadBlksFifo (env : RxEnv) (blkCnt : UInt32) (rounds : Nat) : Option (BkErr × RxState) :=
  let dataSize := blkCnt * 512
  (loop (·.place ≠ .left) (·.round env dataSize) rounds rxInit).map fun s =>
    (.ok, if s.index ≠ dataSize then { s with errorState := .dataCrcFail } else s)

/-! ## Writing blocks -/

/-- A write end that the card reports for a block. -/
structure TxEnd where
  block : Nat
  wrStatus : UInt32

/-- What the card and the block do in a write. No end comes before the last word of its block. -/
structure TxEnv where
  txEnds : Nat → List TxEnd
  /-- What the polls find before a word is written. -/
  txReady : Nat → Nat → Bool
  causal : ∀ n, ∀ ended ∈ txEnds n, ended.block ≤ n

structure TxState where
  semas : Semas
  index : UInt32
  i : UInt32
  errorState : BkErr
  started : Bool
  isTxBlocked : Bool
  waits : Nat
  /-- The words that were written, and whether the FIFO was ready for each. -/
  written : List UInt32
  accepted : List Bool

def txLimit : UInt32 := 0x1000000 * 8

/-- The loop before a word is written: whether the FIFO gets ready before `i` comes to the limit. -/
def txPolls (ready : Nat → Bool) : Nat → UInt32 → Nat → Bool × UInt32
  | 0, i, _ => (false, i)
  | left + 1, i, poll =>
    if ready poll then (true, i)
    else if i + 1 = txLimit then (false, i + 1)
    else txPolls ready left (i + 1) (poll + 1)

/-- Polls that are enough for every `i`. -/
def allPolls : Nat := 0x100000000

/-- The polls until `i` comes to the limit. It goes on from word to word, and around behind the limit. -/
def pollsLeft (i : UInt32) : Nat := (txLimit - 1 - i).toNat + 1

theorem pollsLeft_succ {i : UInt32} (more : i + 1 ≠ txLimit) : pollsLeft i = pollsLeft (i + 1) + 1 := by
  have apart : (i.toNat + 1) % 2 ^ 32 ≠ 0x8000000 := fun same => more (UInt32.toNat_inj.mp same)
  have small := i.toNat_lt
  have distance (j : UInt32) : (txLimit - 1 - j).toNat = (2 ^ 32 - j.toNat + 0x7FFFFFF) % 2 ^ 32 := by
    rw [UInt32.toNat_sub]
    rfl
  rw [pollsLeft, pollsLeft, distance, distance, UInt32.toNat_add, UInt32.toNat_one]
  omega

theorem txPolls_enough {ready : Nat → Bool} {left : Nat} {i : UInt32} {poll : Nat} (enough : pollsLeft i ≤ left) :
    txPolls ready left i poll = txPolls ready (pollsLeft i) i poll := by
  induction left generalizing i poll with
  | zero => exact absurd enough (by rw [pollsLeft]; omega)
  | succ left ih =>
    rw [pollsLeft, txPolls, txPolls]
    by_cases more : i + 1 = txLimit
    · simp only [if_pos more]
    · have one : pollsLeft i = pollsLeft (i + 1) + 1 := pollsLeft_succ more
      have same : (txLimit - 1 - i).toNat = pollsLeft (i + 1) := Nat.succ.inj one
      rw [same, ih (by omega)]

/-- The loop ends at the limit, not because no polls are left. -/
theorem txPolls_allPolls (ready : Nat → Bool) (i : UInt32) (poll : Nat) :
    txPolls ready allPolls i poll =
      if ready poll then (true, i)
      else if i + 1 = txLimit then (false, i + 1)
      else txPolls ready allPolls (i + 1) (poll + 1) := by
  have enough (i : UInt32) : pollsLeft i ≤ allPolls := (txLimit - 1 - i).toNat_lt
  rw [txPolls_enough (enough i), txPolls_enough (enough (i + 1)), pollsLeft, txPolls]
  by_cases more : i + 1 = txLimit
  · simp only [if_pos more]
  · have same : (txLimit - 1 - i).toNat = pollsLeft (i + 1) := Nat.succ.inj (pollsLeft_succ more)
    rw [same]

/-- The bytes of a word; on BK7256 the first is the highest. -/
def wordAt (bk7256xx : Bool) (writeData : Cells) (index : Nat) : UInt32 :=
  let byte (k : Nat) : UInt32 := (writeData (index + k)).toUInt32
  if bk7256xx then byte 0 <<< 24 ||| byte 1 <<< 16 ||| byte 2 <<< 8 ||| byte 3
  else byte 0 ||| byte 1 <<< 8 ||| byte 2 <<< 16 ||| byte 3 <<< 24

namespace TxState
variable (env : TxEnv) (s : TxState)

/-- The wait for the write end of a block. -/
def waitWriteEnd : TxState :=
  let semas := (env.txEnds s.waits).foldl (fun semas ended => sdioHostIsr writeEnded ended.wrStatus semas) s.semas
  if semas.txSema = 0 then { s with semas := semas, waits := s.waits + 1, errorState := .timeout, isTxBlocked := false }
  else
    { s with
      semas := { semas with txSema := semas.txSema - 1 }
      waits := s.waits + 1
      errorState := .ok
      isTxBlocked := true }

/-- The word goes to the FIFO, ready or not; with the first block the sending starts. -/
def writeFifo (polled : Bool × UInt32) (word : UInt32) : TxState :=
  { s with
    i := polled.2
    errorState := if polled.1 then s.errorState else .dataTimeout
    written := s.written ++ [word]
    accepted := s.accepted ++ [polled.1]
    index := s.index + 4
    started := s.started || s.index + 4 = sdioBlockSize }

/-- One round of the loop. -/
def round (bk7256xx : Bool) (writeData : Cells) (dataSize : UInt32) : TxState :=
  let polled := txPolls (env.txReady s.written.length) allPolls s.i 0
  let s := s.writeFifo polled (wordAt bk7256xx writeData s.index.toNat)
  if s.index % sdioBlockSize = 0 ∨ s.index = dataSize then s.waitWriteEnd env else s

end TxState

def txInit : TxState where
  semas := ⟨0, 0⟩
  index := 0
  i := 0
  errorState := .ok
  started := false
  isTxBlocked := false
  waits := 0
  written := []
  accepted := []

/-- sdio_host_cpu_write_fifo with what it returns, when so many rounds are enough. -/
def sdioHostCpuWriteFifo (env : TxEnv) (bk7256xx : Bool) (writeData : Cells) (dataSize : UInt32) (rounds : Nat) :
    Option (BkErr × TxState) :=
  (loop (·.index < dataSize) (·.round env bk7256xx writeData dataSize) rounds txInit).map fun s => (s.errorState, s)

end BekenSdk.SdioHost
