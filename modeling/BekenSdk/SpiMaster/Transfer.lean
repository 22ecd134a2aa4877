import BekenSdk.SpiMaster.Interrupts
import Mathlib.Data.List.Range

/-! Transfers of the SPI master: `bk_spi_master_xfer` beside the interrupts, and how far a transfer has come.
-/

set_option autoImplicit false

namespace BekenSdk.SpiMaster

/-! ## The task and the block -/

structure SpiMessage where
  sendBuf : Nat
  sendLen : Nat
  recvBuf : Option Nat
  recvLen : Nat
  sendWord : sendLen < 2 ^ 32
  recvWord : recvLen < 2 ^ 32

/-- A call of `bk_spi_master_xfer`, with the memory that it finds and the bytes received before. -/
structure Transfer where
  msg : SpiMessage
  mem : Nat → Byte
  base : Nat

/-- Where the task is in `bk_spi_master_xfer`. -/
inductive Phase where
  | idle
  | takingCs
  | enablingRx
  | enablingTx
  | waiting
  | disablingRx
  | disablingTx
  | releasingCs
  | clearing
  deriving DecidableEq

/-- The semaphore has not been got yet. -/
def Phase.asking : Phase → Bool
  | .takingCs | .enablingRx | .enablingTx | .waiting => true
  | .idle | .disablingRx | .disablingTx | .releasingCs | .clearing => false

/-- `current` is the last call. It has returned when the task is idle. -/
structure System where
  board : Board
  phase : Phase
  current : Option Transfer

inductive Event where
  /-- A call, with what the memory holds then. -/
  | xfer (msg : SpiMessage) (mem : Nat → Byte)
  | thread
  | interrupt
  /-- The block moves on between register accesses. -/
  | hardware

def noCallbacks : Callbacks := ⟨none, none, none, none⟩

/-- After `bk_spi_master_init`, as the first use of the block. -/
def start : System where
  board :=
    { block := ⟨[], none, [], 0⟩
      ctrl := 0
      access := 0
      mem := fun _ => 0
      spiDev := ⟨0, 0, 0, none, 0, 0, 0, 0, true⟩
      written := []
      posts := 0 }
  phase := .idle
  current := none

/-- The part of `bk_spi_master_xfer` with interrupts disabled, and the way past the rest if there is nothing to transfer. -/
def bkSpiMasterXfer (msg : SpiMessage) (mem : Nat → Byte) (board : Board) : System :=
  let totalSize := (msg.recvLen + msg.sendLen) % 2 ^ 32
  let board := { board with mem := mem, written := [], posts := 0 }
  if totalSize ≠ 0 then
    let dev :=
      { board.spiDev with
        txPtr := msg.sendBuf
        txLen := msg.sendLen
        rxPtr := msg.recvBuf
        rxLen := msg.recvLen
        rxOffset := 0
        rxDrop := msg.sendLen
        totalLen := totalSize
        txFinishFlag := false }
    ⟨{ board with spiDev := dev }, .takingCs, some ⟨msg, mem, board.block.received⟩⟩
  else ⟨board, .idle, some ⟨msg, mem, board.block.received⟩⟩

/-- What is left of the device when a transfer is over. -/
def Dev.cleared (dev : Dev) : Dev :=
  { dev with txPtr := 0, txLen := 0, rxPtr := none, rxLen := 0, totalLen := 0, txFinishFlag := true }

/-- The next action of the task. -/
def threadStep (env : Env) (board : Board) : Phase → Option (Phase × Board)
  | .idle => none
  | .takingCs => some (.enablingRx, spiSetNssmd env 2 board)
  | .enablingRx => some (.enablingTx, spiRxintEnable env 1 board)
  | .enablingTx => some (.waiting, spiTxintEnable env 1 board)
  | .waiting =>
    if board.spiDev.txSem = 0 then none
    else some (.disablingRx, { board with spiDev := { board.spiDev with txSem := board.spiDev.txSem - 1 } })
  | .disablingRx => some (.disablingTx, spiRxintEnable env 0 board)
  | .disablingTx => some (.releasingCs, spiTxintEnable env 0 board)
  | .releasingCs => some (.clearing, spiSetNssmd env 3 board)
  | .clearing => some (.idle, { board with spiDev := board.spiDev.cleared })

def step (env : Env) (event : Event) (s : System) : Option System :=
  match event with
  | .xfer msg mem => if s.phase = .idle then some (bkSpiMasterXfer msg mem s.board) else none
  | .thread => (threadStep env s.board s.phase).map fun (phase, board) => { s with phase := phase, board := board }
  | .interrupt => some { s with board := spiIsr env (bkSpiConfigure noCallbacks) s.board }
  | .hardware => some { s with board := { s.board with block := s.board.block.advance env } }

/-! ## The block -/

/-- Of the bytes after a base, some have been written and some of these have been read. -/
structure Carries (env : Env) (base wrote read : Nat) (block : Block) : Prop where
  moved : block.txFifo.length + block.shifting.toList.length + block.received = base + wrote
  fits : block.txFifo.length ≤ env.depth
  rx : block.rxFifo = (List.range' (base + read) block.rxFifo.length).map env.incoming
  taken : base + read + block.rxFifo.length = block.received

/-- Nothing is on its way. -/
structure Block.Still (block : Block) : Prop where
  txFifo : block.txFifo = []
  shifting : block.shifting = none

namespace Block
variable {env : Env} {block : Block} {base wrote read : Nat}

theorem advance_carries (carries : Carries env base wrote read block) :
    Carries env base wrote read (block.advance env) := by
  obtain ⟨moved, fits, rx, taken⟩ := carries
  obtain ⟨txFifo, shifting, rxFifo, received⟩ := block
  dsimp only at moved fits rx taken
  match shifting, txFifo, moved, fits with
  | some byte, txFifo, moved, fits =>
    refine ⟨?_, fits, ?_, ?_⟩
    · show txFifo.length + 0 + (received + 1) = _
      rw [← moved]
      show _ = txFifo.length + 1 + received
      omega
    · show rxFifo ++ [env.incoming received] = (List.range' (base + read) (rxFifo ++ [_]).length).map env.incoming
      rw [List.length_append, List.length_singleton, List.range'_concat, List.map_append, ← rx, Nat.one_mul, taken]
      rfl
    · show base + read + (rxFifo ++ [_]).length = received + 1
      rw [List.length_append, ← taken]
      rfl
  | none, byte :: rest, moved, fits =>
    refine ⟨?_, Nat.le_of_succ_le fits, rx, taken⟩
    rw [← moved]
    rfl
  | none, [], moved, fits => exact ⟨moved, fits, rx, taken⟩

theorem advances_carries {k : Nat} (carries : Carries env base wrote read block) :
    Carries env base wrote read (block.advances env k) := by
  induction k generalizing block with
  | zero => exact carries
  | succ k ih => exact ih (advance_carries carries)

theorem advance_lengths : (block.advance env).txFifo.length ≤ block.txFifo.length ∧
    block.rxFifo.length ≤ (block.advance env).rxFifo.length := by
  unfold advance
  split
  · exact ⟨Nat.le_refl _, by simp⟩
  next byte rest _ same =>
    rw [same]
    exact ⟨Nat.le_succ _, Nat.le_refl _⟩
  · exact ⟨Nat.le_refl _, Nat.le_refl _⟩

/-- Bytes leave the transmit FIFO, and they come into the receive FIFO. -/
theorem advances_lengths {k : Nat} : (block.advances env k).txFifo.length ≤ block.txFifo.length ∧
    block.rxFifo.length ≤ (block.advances env k).rxFifo.length := by
  induction k generalizing block with
  | zero => exact ⟨Nat.le_refl _, Nat.le_refl _⟩
  | succ k ih =>
    have first : _ ∧ _ := @advance_lengths env block
    have later : _ ∧ _ := @ih (block.advance env)
    exact ⟨Nat.le_trans later.1 first.1, Nat.le_trans first.2 later.2⟩

theorem advance_still (still : block.Still) : block.advance env = block := by
  obtain ⟨txFifo, shifting, rxFifo, received⟩ := block
  obtain ⟨rfl, rfl⟩ := still
  rfl

theorem advances_still {k : Nat} (still : block.Still) : block.advances env k = block := by
  induction k with
  | zero => rfl
  | succ k ih =>
    rw [advances, advance_still still]
    exact ih

theorem advance_pending : (block.advance env).pending = block.pending := by
  unfold advance
  split
  next byte _ same =>
    unfold pending
    rw [same, List.length_append]
    show block.txFifo.length + 0 + (block.rxFifo.length + 1) = block.txFifo.length + 1 + block.rxFifo.length
    omega
  next byte rest none same =>
    unfold pending
    rw [same, none]
    show rest.length + 1 + _ = rest.length + 1 + 0 + _
    rfl
  · rfl

theorem advances_pending {k : Nat} : (block.advances env k).pending = block.pending := by
  induction k generalizing block with
  | zero => rfl
  | succ k ih => exact ih.trans advance_pending

theorem push_carries {byte : Byte} (carries : Carries env base wrote read block)
    (room : block.txFifo.length < env.depth) :
    Carries env base (wrote + 1) read { block with txFifo := block.txFifo ++ [byte] } := by
  refine ⟨?_, ?_, carries.rx, carries.taken⟩
  · have moved := carries.moved
    dsimp only
    rw [List.length_append, List.length_singleton]
    omega
  · rw [List.length_append]
    exact room

theorem pop_carries (carries : Carries env base wrote read block) (ready : block.rxFifo ≠ []) :
    block.rxFifo.headD 0 = env.incoming (base + read) ∧
      Carries env base wrote (read + 1) { block with rxFifo := block.rxFifo.tail } := by
  obtain ⟨moved, fits, rx, taken⟩ := carries
  obtain ⟨txFifo, shifting, rxFifo, received⟩ := block
  cases rxFifo with
  | nil => exact absurd rfl ready
  | cons byte rest =>
    dsimp only at moved fits rx taken
    rw [List.length_cons, List.range'_succ, List.map_cons] at rx
    obtain ⟨rfl, tail⟩ := List.cons.inj rx
    refine ⟨rfl, moved, fits, tail, ?_⟩
    rw [← taken]
    show base + (read + 1) + rest.length = base + read + (rest.length + 1)
    omega

end Block

/-! ## What a transfer is to do -/

namespace Transfer

def total (t : Transfer) : Nat := t.msg.sendLen + t.msg.recvLen

/-- The bytes to be written. -/
def stream (t : Transfer) : List Byte :=
  ((List.range t.msg.sendLen).map fun i => t.mem (t.msg.sendBuf + i)) ++ List.replicate t.msg.recvLen 0xff

/-- The memory after some bytes have been read: those behind the first `sendLen` are in the buffer. -/
def filled (env : Env) (t : Transfer) (read : Nat) (a : Nat) : Byte :=
  match t.msg.recvBuf with
  | none => t.mem a
  | some rxbuf =>
    if rxbuf ≤ a ∧ a < rxbuf + (read - t.msg.sendLen) then env.incoming (t.base + t.msg.sendLen + (a - rxbuf)) else t.mem a

variable {env : Env} {t : Transfer} {wrote read : Nat}

theorem stream_length : t.stream.length = t.total := by
  rw [stream, List.length_append, List.length_map, List.length_range, List.length_replicate]
  rfl

theorem stream_send (sending : wrote < t.msg.sendLen) : t.stream[wrote]? = some (t.mem (t.msg.sendBuf + wrote)) := by
  rw [stream, List.getElem?_append_left (by rw [List.length_map, List.length_range]; exact sending), List.getElem?_map,
    List.getElem?_range sending]
  rfl

theorem stream_fill (sent : t.msg.sendLen ≤ wrote) (more : wrote < t.total) : t.stream[wrote]? = some 0xff := by
  have length : ((List.range t.msg.sendLen).map fun i => t.mem (t.msg.sendBuf + i)).length = t.msg.sendLen := by
    rw [List.length_map, List.length_range]
  unfold total at more
  rw [stream, List.getElem?_append_right (by rw [length]; exact sent), length, List.getElem?_replicate,
    if_pos (by omega)]

/-- Nothing is stored while bytes are dropped. -/
theorem filled_dropping (dropping : read ≤ t.msg.sendLen) : t.filled env read = t.mem := by
  funext a
  unfold filled
  split
  · rfl
  · exact if_neg (by omega)

theorem filled_succ {rxbuf : Nat} (buffer : t.msg.recvBuf = some rxbuf) (dropped : t.msg.sendLen ≤ read) :
    t.filled env (read + 1) =
      Function.update (t.filled env read) (rxbuf + (read - t.msg.sendLen)) (env.incoming (t.base + read)) := by
  funext a
  unfold filled
  rw [buffer, Function.update_apply]
  dsimp only
  by_cases last : a = rxbuf + (read - t.msg.sendLen)
  · rw [if_pos last, if_pos (by omega)]
    exact congrArg _ (by omega)
  · rw [if_neg last]
    exact if_congr (by omega) rfl rfl

end Transfer

/-! ## How far a transfer has come -/

/-- The bytes that were written and read so far, and what the device tells of them. -/
structure Going (env : Env) (t : Transfer) (wrote read : Nat) (board : Board) : Prop where
  block : Carries env t.base wrote read board.block
  within : wrote ≤ t.total
  written : board.written = t.stream.take wrote
  mem : board.mem = t.filled env read
  txPtr : wrote ≤ t.msg.sendLen → board.spiDev.txPtr = t.msg.sendBuf + wrote
  txLen : board.spiDev.txLen = t.msg.sendLen - wrote
  rxPtr : board.spiDev.rxPtr = t.msg.recvBuf
  rxLen : board.spiDev.rxLen = t.msg.recvLen
  rxDrop : t.msg.recvBuf ≠ none → board.spiDev.rxDrop = t.msg.sendLen - read
  rxOffset : t.msg.recvBuf ≠ none → board.spiDev.rxOffset = read - t.msg.sendLen

namespace Going
variable {env : Env} {t : Transfer} {wrote read : Nat} {board : Board}

theorem read_le (going : Going env t wrote read board) : read ≤ wrote := by
  have moved := going.block.moved
  have taken := going.block.taken
  omega

/-- Other fields do not matter, and the block may move on. -/
theorem congr {after : Board} (going : Going env t wrote read board)
    (block : Carries env t.base wrote read board.block → Carries env t.base wrote read after.block)
    (written : after.written = board.written) (mem : after.mem = board.mem) (spiDev : after.spiDev = board.spiDev) :
    Going env t wrote read after := by
  obtain ⟨carries, within, writtenAt, memAt, txPtr, txLen, rxPtr, rxLen, rxDrop, rxOffset⟩ := going
  refine ⟨block carries, within, written.trans writtenAt, mem.trans memAt, ?_, ?_, ?_, ?_, ?_, ?_⟩ <;> rw [spiDev] <;>
    assumption

theorem settle (going : Going env t wrote read board) : Going env t wrote read (board.settle env) :=
  going.congr Block.advances_carries rfl rfl rfl

theorem modifyCtrl {change : Word → Word} (going : Going env t wrote read board) :
    Going env t wrote read (board.modifyCtrl env change) :=
  going.settle.settle.congr id rfl rfl rfl

end Going

/-! ## The loops -/

section
variable {env : Env} {t : Transfer} {wrote read : Nat} {board after : Board} {ch : Byte}

/-- In both generations a byte is read if the FIFO has one. -/
theorem spiReadRxfifo_eq : spiReadRxfifo env board =
    if (board.settle env).block.rxFifo = [] then (none, board.settle env)
    else (some ((board.settle env).readDat env).1, ((board.settle env).readDat env).2) := by
  unfold spiReadRxfifo
  dsimp only [Board.readStat]
  cases env.generation <;> cases (board.settle env).block.rxFifo <;> rfl

theorem spiWriteTxfifo_eq {data : Byte} : spiWriteTxfifo env data board =
    if (board.settle env).block.txFifo.length < env.depth then (true, (board.settle env).writeDat env data)
    else (false, board.settle env) := by
  unfold spiWriteTxfifo
  dsimp only [Board.readStat]
  cases env.generation
  · by_cases room : (board.settle env).block.txFifo.length < env.depth
    · rw [decide_eq_false (Nat.not_le.mpr room)]
      exact (if_pos room).symm
    · rw [decide_eq_true (Nat.not_lt.mp room)]
      exact (if_neg room).symm
  · by_cases room : (board.settle env).block.txFifo.length < env.depth
    · rw [decide_eq_true room]
      exact (if_pos room).symm
    · rw [decide_eq_false room]
      exact (if_neg room).symm

theorem Going.nothing (going : Going env t wrote read board) (none : spiReadRxfifo env board = (none, after)) :
    Going env t wrote read after ∧ after = board.settle env ∧ after.block.rxFifo = [] := by
  rw [spiReadRxfifo_eq] at none
  split at none
  next empty =>
    obtain ⟨_, rfl⟩ := Prod.mk.inj none
    exact ⟨going.settle, rfl, empty⟩
  · cases none

/-- The next byte of the stream is dropped or goes to its place. -/
theorem Going.stored (going : Going env t wrote read board) (popped : Carries env t.base wrote (read + 1) after.block)
    (written : after.written = board.written) (mem : after.mem = board.mem) (spiDev : after.spiDev = board.spiDev) :
    Going env t wrote (read + 1) (after.store (env.incoming (t.base + read))) := by
  have more : read < t.total := by
    have moved := popped.moved
    have taken := popped.taken
    have within := going.within
    omega
  unfold Transfer.total at more
  have rxPtr := going.rxPtr
  unfold Board.store
  rw [spiDev, rxPtr]
  cases buffer : t.msg.recvBuf with
  | none =>
    have same : t.filled env (read + 1) = t.filled env read := by
      unfold Transfer.filled
      rw [buffer]
    refine ⟨popped, going.within, written.trans going.written, (mem.trans going.mem).trans same.symm, ?_, ?_, ?_, ?_,
      fun some => absurd buffer some, fun some => absurd buffer some⟩ <;> rw [spiDev]
    · exact going.txPtr
    · exact going.txLen
    · exact rxPtr
    · exact going.rxLen
  | some rxbuf =>
    have rxDrop := going.rxDrop (by rw [buffer]; exact Option.some_ne_none _)
    have rxOffset := going.rxOffset (by rw [buffer]; exact Option.some_ne_none _)
    have rxLen := going.rxLen
    dsimp only
    split
    next dropping =>
      have below : read < t.msg.sendLen := by omega
      have same : t.filled env (read + 1) = t.filled env read := by
        rw [Transfer.filled_dropping below, Transfer.filled_dropping (Nat.le_of_lt below)]
      refine ⟨popped, going.within, written.trans going.written, (mem.trans going.mem).trans same.symm, going.txPtr,
        going.txLen, rxPtr, rxLen, fun _ => ?_, fun _ => ?_⟩
      · show board.spiDev.rxDrop - 1 = _
        omega
      · show board.spiDev.rxOffset = _
        omega
    next dropped =>
      have behind : t.msg.sendLen ≤ read := by omega
      rw [if_pos (by omega)]
      refine ⟨popped, going.within, written.trans going.written, ?_, going.txPtr, going.txLen, rxPtr, rxLen,
        fun _ => ?_, fun _ => ?_⟩
      · show Function.update after.mem (rxbuf + board.spiDev.rxOffset) _ = _
        rw [mem, going.mem, rxOffset, Transfer.filled_succ buffer behind]
      · show board.spiDev.rxDrop = _
        omega
      · show board.spiDev.rxOffset + 1 = _
        omega

/-- A byte that is read is the next one of the stream. -/
theorem Going.took (going : Going env t wrote read board) (got : spiReadRxfifo env board = (some ch, after)) :
    Going env t wrote (read + 1) (after.store ch) := by
  rw [spiReadRxfifo_eq] at got
  split at got
  · cases got
  next found =>
    have ready : ((board.settle env).settle env).block.rxFifo ≠ [] := by
      have some := List.length_pos_of_ne_nil found
      have later : _ ∧ _ := @Block.advances_lengths env (board.settle env).block (env.progress (board.settle env).access)
      exact List.ne_nil_of_length_pos (Nat.lt_of_lt_of_le some later.2)
    obtain ⟨next, popped⟩ := Block.pop_carries going.settle.settle.block ready
    obtain ⟨byte, rfl⟩ := Prod.mk.inj got
    obtain rfl := Option.some.inj byte
    show Going env t wrote (read + 1) (Board.store (((board.settle env).settle env).block.rxFifo.headD 0) _)
    rw [next]
    exact going.settle.settle.stored popped rfl rfl rfl

/-- The FIFO has as much room as when its status was read. -/
theorem Going.pushed (going : Going env t wrote read board) (room : board.block.txFifo.length < env.depth)
    (next : t.stream[wrote]? = some ch) :
    Carries env t.base (wrote + 1) read (board.writeDat env ch).block ∧
      (board.writeDat env ch).written = t.stream.take (wrote + 1) := by
  have fewer : _ ∧ _ := @Block.advances_lengths env board.block (env.progress board.access)
  have still : (board.settle env).block.txFifo.length < env.depth := Nat.lt_of_le_of_lt fewer.1 room
  constructor
  · have pushed := @Block.push_carries env _ t.base wrote read ch going.settle.block still
    unfold Board.writeDat
    dsimp only
    rw [if_pos still]
    exact pushed
  · show board.written ++ [ch] = _
    rw [List.take_add_one, next, going.written]
    rfl

/-- The next byte is written while there is room. -/
theorem Going.writeNext (going : Going env t wrote read board) (more : wrote < t.total) :
    Going env t (if (writeNext env board).1 then wrote + 1 else wrote) read (SpiMaster.writeNext env board).2 := by
  have txLen := going.txLen
  unfold SpiMaster.writeNext
  dsimp only
  by_cases sending : wrote < t.msg.sendLen
  · have data : board.mem board.spiDev.txPtr = t.mem (t.msg.sendBuf + wrote) := by
      rw [going.mem, going.txPtr (Nat.le_of_lt sending),
        Transfer.filled_dropping (Nat.le_trans going.read_le (Nat.le_of_lt sending))]
    have left : board.spiDev.txLen ≠ 0 := by omega
    rw [if_pos left, data, spiWriteTxfifo_eq]
    by_cases room : (board.settle env).block.txFifo.length < env.depth
    · rw [if_pos room]
      obtain ⟨block, written⟩ := going.settle.pushed room (Transfer.stream_send sending)
      refine ⟨block, more, written, going.mem, fun _ => ?_, ?_, going.rxPtr, going.rxLen, going.rxDrop,
        going.rxOffset⟩
      · show board.spiDev.txPtr + 1 = _
        rw [going.txPtr (Nat.le_of_lt sending)]
        rfl
      · show board.spiDev.txLen - 1 = t.msg.sendLen - (wrote + 1)
        omega
    · rw [if_neg room]
      exact going.settle
  · have sent : t.msg.sendLen ≤ wrote := Nat.not_lt.mp sending
    have none : ¬board.spiDev.txLen ≠ 0 := by omega
    rw [if_neg none, spiWriteTxfifo_eq]
    by_cases room : (board.settle env).block.txFifo.length < env.depth
    · rw [if_pos room]
      obtain ⟨block, written⟩ := going.settle.pushed room (Transfer.stream_fill sent more)
      refine ⟨block, more, written, going.mem, fun fits : wrote + 1 ≤ _ => absurd fits (by omega), ?_, going.rxPtr,
        going.rxLen, going.rxDrop, going.rxOffset⟩
      show board.spiDev.txLen = t.msg.sendLen - (wrote + 1)
      omega
    · rw [if_neg room]
      exact going.settle

theorem Going.rxLoop {rounds : Nat} (going : Going env t wrote read board) :
    ∃ last, Going env t wrote last (SpiMaster.rxLoop env rounds board) := by
  induction rounds generalizing read board with
  | zero => exact ⟨read, going⟩
  | succ rounds ih =>
    rw [SpiMaster.rxLoop]
    split
    next none => exact ⟨read, (going.nothing none).1⟩
    next got => exact ih (going.took got)

theorem Going.checkRx (going : Going env t wrote read board) :
    ∃ last, Going env t wrote last (SpiMaster.checkRx env board) := by
  unfold SpiMaster.checkRx
  split
  next none => exact ⟨read, (going.nothing none).1⟩
  next got => exact ⟨read + 1, going.took got⟩

/-! ## What they leave alone -/

/-- The semaphore, and what decides when it is set, but for `total_len`. -/
def Board.marks (board : Board) : Nat × Bool × Nat := (board.posts, board.spiDev.txFinishFlag, board.spiDev.txSem)

/-- Neither of them is touched, nor is `total_len`. -/
structure Unmarked (board after : Board) : Prop where
  marks : after.marks = board.marks
  totalLen : after.spiDev.totalLen = board.spiDev.totalLen

theorem Unmarked.trans {middle : Board} (first : Unmarked board middle) (second : Unmarked middle after) :
    Unmarked board after :=
  ⟨second.marks.trans first.marks, second.totalLen.trans first.totalLen⟩

theorem store_unmarked : Unmarked board (board.store ch) := by
  unfold Board.store
  split
  · exact ⟨rfl, rfl⟩
  · split
    · exact ⟨rfl, rfl⟩
    · split <;> exact ⟨rfl, rfl⟩

theorem spiReadRxfifo_unmarked : Unmarked board (spiReadRxfifo env board).2 := by
  rw [spiReadRxfifo_eq]
  split <;> exact ⟨rfl, rfl⟩

theorem rxLoop_unmarked {rounds : Nat} : Unmarked board (rxLoop env rounds board) := by
  induction rounds generalizing board with
  | zero => exact ⟨rfl, rfl⟩
  | succ rounds ih =>
    have first := @spiReadRxfifo_unmarked env board
    rw [rxLoop]
    split
    next same =>
      rw [same] at first
      exact first
    next same =>
      rw [same] at first
      exact (first.trans store_unmarked).trans ih

theorem writeNext_unmarked : Unmarked board (writeNext env board).2 := by
  unfold writeNext
  dsimp only
  rw [spiWriteTxfifo_eq, spiWriteTxfifo_eq]
  by_cases room : (board.settle env).block.txFifo.length < env.depth
  · rw [if_pos room, if_pos room]
    split <;> exact ⟨rfl, rfl⟩
  · rw [if_neg room, if_neg room]
    split <;> exact ⟨rfl, rfl⟩

theorem checkRx_unmarked : Unmarked board (checkRx env board) := by
  have read := @spiReadRxfifo_unmarked env board
  unfold checkRx
  split
  next same =>
    rw [same] at read
    exact read
  next same =>
    rw [same] at read
    exact read.trans store_unmarked

theorem txLoop_marks {totalLen : Nat} : (txLoop env totalLen board).marks = board.marks := by
  induction totalLen generalizing board with
  | zero => rfl
  | succ totalLen ih =>
    have before : Unmarked board (checkRx env (writeNext env board).2) := writeNext_unmarked.trans checkRx_unmarked
    rw [txLoop]
    dsimp only
    split
    · split
      · exact before.marks
      · exact ih.trans before.marks
    · exact before.marks

/-- The bytes that are written come off `total_len`. -/
theorem Going.txLoop {totalLen : Nat} (going : Going env t wrote read board) (left : wrote + totalLen = t.total)
    (same : board.spiDev.totalLen = totalLen) :
    ∃ most last, Going env t most last (SpiMaster.txLoop env totalLen board) ∧
      most + (SpiMaster.txLoop env totalLen board).spiDev.totalLen = t.total := by
  induction totalLen generalizing wrote read board with
  | zero => exact ⟨wrote, read, going, (congrArg _ same).trans left⟩
  | succ totalLen ih =>
    have before : Unmarked board (SpiMaster.checkRx env (SpiMaster.writeNext env board).2) :=
      writeNext_unmarked.trans checkRx_unmarked
    obtain ⟨last, next⟩ := (going.writeNext (by omega)).checkRx
    rw [SpiMaster.txLoop]
    dsimp only
    by_cases txOk : (SpiMaster.writeNext env board).1 = true
    · rw [if_pos txOk] at next ⊢
      have less : Going env t (wrote + 1) last
          { SpiMaster.checkRx env (SpiMaster.writeNext env board).2 with
            spiDev := { (SpiMaster.checkRx env (SpiMaster.writeNext env board).2).spiDev with totalLen := totalLen } } :=
        ⟨next.block, next.within, next.written, next.mem, next.txPtr, next.txLen, next.rxPtr, next.rxLen, next.rxDrop,
          next.rxOffset⟩
      split
      next none => exact ⟨wrote + 1, last, less.modifyCtrl, by show wrote + 1 + totalLen = _; omega⟩
      · exact ih less (by omega) rfl
    · rw [if_neg txOk] at next ⊢
      exact ⟨wrote, last, next, by rw [before.totalLen, same]; exact left⟩

/-! ## When nothing is on its way -/

theorem store_block : (board.store ch).block = board.block := by
  unfold Board.store
  split
  · rfl
  · split
    · rfl
    · split <;> rfl

/-- Without bytes to come the callback empties the FIFO. -/
theorem rxLoop_still {rounds : Nat} (still : board.block.Still) (enough : board.block.rxFifo.length < rounds) :
    (rxLoop env rounds board).block = { board.block with rxFifo := [] } := by
  induction rounds generalizing board with
  | zero => exact absurd enough (Nat.not_lt_zero _)
  | succ rounds ih =>
    have settled : (board.settle env).block = board.block := Block.advances_still still
    rw [rxLoop, spiReadRxfifo_eq, settled]
    cases fifo : board.block.rxFifo with
    | nil =>
      rw [if_pos rfl]
      show (board.settle env).block = _
      rw [settled, ← fifo]
    | cons byte rest =>
      have popped : ((board.settle env).readDat env).2.block = { board.block with rxFifo := rest } := by
        show { ((board.settle env).settle env).block with rxFifo := ((board.settle env).settle env).block.rxFifo.tail } = _
        have twice : ((board.settle env).settle env).block = board.block :=
          (Block.advances_still (settled ▸ still)).trans settled
        rw [twice, fifo]
        rfl
      rw [if_neg (List.cons_ne_nil _ _)]
      dsimp only
      rw [fifo, List.length_cons] at enough
      rw [ih, store_block, popped]
      · rw [store_block, popped]
        exact ⟨still.txFifo, still.shifting⟩
      · rw [store_block, popped]
        exact Nat.lt_of_succ_lt_succ enough

/-- The loop of the callback has ended by itself when its rounds are over. -/
theorem rxLoop_enough {rounds more : Nat} (enough : board.block.pending < rounds) :
    rxLoop env (rounds + more) board = rxLoop env rounds board := by
  induction rounds generalizing board with
  | zero => exact absurd enough (Nat.not_lt_zero _)
  | succ rounds ih =>
    rw [Nat.succ_add, rxLoop, rxLoop, spiReadRxfifo_eq]
    by_cases empty : (board.settle env).block.rxFifo = []
    · rw [if_pos empty]
    · rw [if_neg empty]
      refine ih ?_
      rw [store_block]
      have some := List.length_pos_of_ne_nil empty
      have later : _ ∧ _ := @Block.advances_lengths env (board.settle env).block (env.progress (board.settle env).access)
      have fewer : 0 < ((board.settle env).settle env).block.rxFifo.length := Nat.lt_of_lt_of_le some later.2
      have pending : ((board.settle env).settle env).block.pending = board.block.pending :=
        Block.advances_pending.trans Block.advances_pending
      have one : ((board.settle env).readDat env).2.block.pending + 1 = ((board.settle env).settle env).block.pending := by
        unfold Block.pending Board.readDat
        dsimp only
        rw [List.length_tail]
        omega
      omega

end

end BekenSdk.SpiMaster
