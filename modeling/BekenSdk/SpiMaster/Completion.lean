import BekenSdk.SpiMaster.Transfer

/-! The end of a transfer: when `spi_isr` sets the semaphore, and what the caller of `bk_spi_master_xfer` finds.
-/

set_option autoImplicit false

namespace BekenSdk.SpiMaster
open Base

/-- The callbacks after `bk_spi_master_init`. -/
def configured : Callbacks := bkSpiConfigure noCallbacks

/-- The bytes that have left the transmit FIFO. -/
def Block.left (block : Block) : Nat := block.shifting.toList.length + block.received

/-! ## What is to hold -/

/-- Of the last call: what has been written is part of the stream, and nothing is stored outside the buffer. The semaphore
is set once at most, and not before all bytes are received and taken; when the call has returned, it was, and the buffer
has its part of the received bytes. -/
structure Right (env : Env) (t : Transfer) (s : System) : Prop where
  written : s.board.written <+: t.stream
  confined : ∀ a, (∀ rxbuf, t.msg.recvBuf = some rxbuf → a < rxbuf ∨ rxbuf + t.msg.recvLen ≤ a) → s.board.mem a = t.mem a
  once : s.board.posts ≤ 1
  last : s.board.posts = 1 →
    s.board.written = t.stream ∧ s.board.block.received = t.base + t.total ∧ s.board.block.rxFifo = []
  posted : s.phase.asking = false → t.total ≠ 0 → s.board.posts = 1
  filled : s.phase.asking = false → ∀ rxbuf, t.msg.recvBuf = some rxbuf → ∀ i, i < t.msg.recvLen →
    s.board.mem (rxbuf + i) = env.incoming (t.base + t.msg.sendLen + i)

/-- An interrupt that finds the transmit FIFO empty either finds that everything has been written and left the shift
register, or more is to be written than the FIFO takes until the interrupt is over. -/
def Timely (env : Env) (board : Board) : Prop :=
  (board.settle env).block.txFifo = [] →
    (board.spiDev.totalLen = 0 → (board.settle env).block.shifting = none) ∧
    (board.spiDev.totalLen ≠ 0 → env.txint board.access = true →
      env.depth + ((spiIsr env configured board).block.left - (board.settle env).block.left) < board.spiDev.totalLen)

/-- The length of a message fits, and interrupts are timely. -/
def Fine (env : Env) (s : System) : Event → Prop
  | .xfer msg _ => msg.sendLen + msg.recvLen < 2 ^ 32
  | .interrupt => Timely env s.board
  | .thread | .hardware => True

/-! ## The parts of the interrupt -/

section
variable {env : Env} {t : Transfer} {wrote read : Nat} {board : Board}

/-- After the status was read and written back, in spi.c. -/
def acknowledged (env : Env) (board : Board) : Board := (((board.settle env).settle env).settle env).settle env

def drained (env : Env) (board : Board) : Board :=
  let found := board.settle env
  spiReceived env configured ((!found.block.rxFifo.isEmpty || env.rxint board.access) || env.csUp (board.access + 1))
    (acknowledged env board)

def refilled (env : Env) (board : Board) : Board :=
  spiCalled env (env.txint board.access) (some .bkSpiTxNeedwrite) (drained env board)

theorem spiIsr_spi (spi : env.generation = .spi) : spiIsr env configured board =
    if (board.settle env).block.txFifo = [] then bkSpiTxFinishCallback (refilled env board) else refilled env board := by
  unfold spiIsr
  dsimp only [Board.readStat]
  rw [spi]
  show spiCalled env (board.settle env).block.txFifo.isEmpty (some .bkSpiTxFinish) (refilled env board) = _
  unfold spiCalled
  cases (board.settle env).block.txFifo <;> rfl

theorem drained_going (going : Going env t wrote read board) : ∃ last, Going env t wrote last (drained env board) := by
  have found : Going env t wrote read (acknowledged env board) := going.settle.settle.settle.settle
  unfold drained spiReceived
  dsimp only
  split
  · exact found.rxLoop
  · exact ⟨read, found⟩

theorem drained_unmarked : Unmarked board (drained env board) := by
  have found : Unmarked board (acknowledged env board) := ⟨rfl, rfl⟩
  unfold drained spiReceived
  dsimp only
  split
  · exact found.trans rxLoop_unmarked
  · exact found

theorem refilled_going (going : Going env t wrote read board) (left : wrote + board.spiDev.totalLen = t.total) :
    ∃ most last, Going env t most last (refilled env board) ∧ most + (refilled env board).spiDev.totalLen = t.total := by
  obtain ⟨last, drained⟩ := drained_going going
  have totalLen := (@drained_unmarked env board).totalLen
  unfold refilled spiCalled
  split
  · exact drained.txLoop (totalLen ▸ left) rfl
  · exact ⟨wrote, last, drained, totalLen ▸ left⟩

theorem refilled_marks : (refilled env board).marks = board.marks := by
  have before := (@drained_unmarked env board).marks
  unfold refilled spiCalled
  split
  · exact txLoop_marks.trans before
  · exact before

/-- When all bytes have been received, they are taken, and nothing else happens before the callback for the end. -/
theorem refilled_still (still : (board.settle env).block.Still) (none : board.spiDev.totalLen = 0) :
    refilled env board = drained env board ∧
      (drained env board).block = { (board.settle env).block with rxFifo := [] } := by
  have same : (acknowledged env board).block = (board.settle env).block := by
    have second : ((board.settle env).settle env).block = (board.settle env).block := Block.advances_still still
    have third : (((board.settle env).settle env).settle env).block = ((board.settle env).settle env).block :=
      Block.advances_still (second ▸ still)
    have last : (acknowledged env board).block = (((board.settle env).settle env).settle env).block :=
      Block.advances_still (third ▸ second ▸ still)
    exact last.trans (third.trans second)
  constructor
  · have totalLen := (@drained_unmarked env board).totalLen.trans none
    unfold refilled spiCalled
    split
    · show txLoop env (drained env board).spiDev.totalLen _ = _
      rw [totalLen]
      rfl
    · rfl
  · unfold drained spiReceived
    dsimp only
    split
    next =>
      have enough : (acknowledged env board).block.rxFifo.length < (acknowledged env board).block.pending + 1 :=
        Nat.lt_succ_of_le (Nat.le_add_left _ _)
      refine (rxLoop_still (same ▸ still) enough).trans ?_
      rw [same]
    next down =>
      have empty : (board.settle env).block.rxFifo = [] := by
        cases fifo : (board.settle env).block.rxFifo with
        | nil => rfl
        | cons byte rest =>
          rw [fifo] at down
          exact absurd rfl down
      rw [same, ← empty]

/-! ## The end of a transfer -/

/-- Everything has been written, received and taken. -/
structure Complete (env : Env) (t : Transfer) (board : Board) : Prop where
  still : board.block.Still
  rxFifo : board.block.rxFifo = []
  received : board.block.received = t.base + t.total
  written : board.written = t.stream
  mem : board.mem = t.filled env t.total
  totalLen : board.spiDev.totalLen = 0
  finished : board.spiDev.txFinishFlag = true

/-- What the driver has done when nothing is left to be written, nothing on its way, and nothing left to be taken. -/
theorem Going.complete (going : Going env t wrote read board) (all : wrote = t.total) (still : board.block.Still)
    (taken : board.block.rxFifo = []) : read = t.total ∧ board.block.received = t.base + t.total ∧
      board.written = t.stream ∧ board.mem = t.filled env t.total := by
  have moved := going.block.moved
  have count := going.block.taken
  rw [still.txFifo, still.shifting] at moved
  rw [taken] at count
  have received : board.block.received = t.base + t.total := by
    rw [← all, ← moved]
    exact (Nat.zero_add _).symm
  have read : read = t.total := by
    rw [received] at count
    exact Nat.add_left_cancel count
  refine ⟨read, received, ?_, read ▸ going.mem⟩
  rw [going.written, all, ← Transfer.stream_length, List.take_length]

/-- An interrupt in time goes on with the transfer, or it ends it when all is done. -/
theorem spiIsr_going (spi : env.generation = .spi) (going : Going env t wrote read board)
    (left : wrote + board.spiDev.totalLen = t.total) (marks : board.marks = (0, false, 0)) (timely : Timely env board) :
    (∃ most last, Going env t most last (spiIsr env configured board) ∧
      most + (spiIsr env configured board).spiDev.totalLen = t.total ∧
      (spiIsr env configured board).marks = (0, false, 0)) ∨
    (Complete env t (spiIsr env configured board) ∧ (spiIsr env configured board).marks = (1, true, 1)) := by
  obtain ⟨most, last, refill, rest⟩ := refilled_going going left
  have kept : (refilled env board).marks = (0, false, 0) := refilled_marks.trans marks
  have flag : (refilled env board).spiDev.txFinishFlag = false := congrArg (fun m : Nat × Bool × Nat => m.2.1) kept
  have posts : (refilled env board).posts = 0 := congrArg Prod.fst kept
  unfold Timely at timely
  rw [spiIsr_spi spi] at timely ⊢
  by_cases empty : (board.settle env).block.txFifo = []
  · obtain ⟨arrived, refills⟩ := timely empty
    rw [if_pos empty] at refills ⊢
    by_cases more : (refilled env board).spiDev.totalLen = 0
    · right
      have ended : bkSpiTxFinishCallback (refilled env board) = { refilled env board with
          spiDev := { (refilled env board).spiDev with txFinishFlag := true, txSem := 1 }
          posts := (refilled env board).posts + 1 } := if_pos ⟨more, flag⟩
      rw [ended] at refills ⊢
      have none : board.spiDev.totalLen = 0 := by
        apply Classical.byContradiction
        intro some
        by_cases up : env.txint board.access = true
        · -- what was written meanwhile is in the FIFO or has left it
          have room := refills some up
          have before := going.settle.block.moved
          have after := refill.block.moved
          have fits := refill.block.fits
          rw [empty, List.length_nil] at before
          unfold Block.left at room
          dsimp only at room
          omega
        · have skipped : refilled env board = drained env board := if_neg up
          rw [skipped, (@drained_unmarked env board).totalLen] at more
          exact some more
      have still : (board.settle env).block.Still := ⟨empty, arrived none⟩
      obtain ⟨same, emptied⟩ := refilled_still still none
      rw [← same] at emptied
      have quiet : (refilled env board).block.Still := by
        rw [emptied]
        exact ⟨still.txFifo, still.shifting⟩
      have taken : (refilled env board).block.rxFifo = [] := by
        rw [emptied]
      have all : most = t.total := by
        rw [more] at rest
        exact rest
      obtain ⟨_, received, written, mem⟩ := refill.complete all quiet taken
      refine ⟨⟨quiet, taken, received, written, mem, more, rfl⟩, ?_⟩
      show ((refilled env board).posts + 1, true, 1) = _
      rw [posts]
    · left
      have goesOn : bkSpiTxFinishCallback (refilled env board) = refilled env board := if_neg fun end_ => more end_.1
      rw [goesOn]
      exact ⟨most, last, refill, rest, kept⟩
  · left
    rw [if_neg empty]
    exact ⟨most, last, refill, rest, kept⟩

/-! ## Nothing to do -/

/-- No transfer is going on, or it is complete. -/
structure Quiet (board : Board) : Prop where
  still : board.block.Still
  rxFifo : board.block.rxFifo = []
  totalLen : board.spiDev.totalLen = 0
  finished : board.spiDev.txFinishFlag = true

theorem Complete.quiet (complete : Complete env t board) : Quiet board :=
  ⟨complete.still, complete.rxFifo, complete.totalLen, complete.finished⟩

theorem settle_still (still : board.block.Still) : board.settle env = { board with access := board.access + 1 } := by
  unfold Board.settle
  rw [Block.advances_still still]

theorem rxLoop_quiet {rounds : Nat} (still : board.block.Still) (empty : board.block.rxFifo = []) :
    ∃ access, rxLoop env rounds board = { board with access := access } := by
  cases rounds with
  | zero => exact ⟨board.access, rfl⟩
  | succ rounds =>
    refine ⟨board.access + 1, ?_⟩
    rw [rxLoop, spiReadRxfifo_eq, settle_still still, if_pos empty]

/-- Interrupts read registers then, and no more. -/
theorem spiIsr_quiet (spi : env.generation = .spi) (quiet : Quiet board) :
    ∃ access, spiIsr env configured board = { board with access := access } := by
  have still := quiet.still
  have found : acknowledged env board = { board with access := board.access + 1 + 1 + 1 + 1 } := by
    have first := @settle_still env board still
    have second := @settle_still env { board with access := board.access + 1 } still
    have third := @settle_still env { board with access := board.access + 1 + 1 } still
    have last := @settle_still env { board with access := board.access + 1 + 1 + 1 } still
    unfold acknowledged
    rw [first, second, third, last]
  have settled : (board.settle env).block.Still := by
    rw [settle_still still]
    exact still
  have ended : bkSpiTxFinishCallback (refilled env board) = refilled env board := by
    have flag : (refilled env board).spiDev.txFinishFlag = true :=
      (congrArg (fun m : Nat × Bool × Nat => m.2.1) refilled_marks).trans quiet.finished
    exact if_neg fun unfinished => Bool.noConfusion (flag.symm.trans unfinished.2)
  rw [spiIsr_spi spi, ended, ite_self, (refilled_still settled quiet.totalLen).1]
  unfold drained spiReceived
  dsimp only
  rw [found]
  split
  · exact rxLoop_quiet still quiet.rxFifo
  · exact ⟨_, rfl⟩

end

/-! ## Runs -/

/-- The states of a run of spi.c whose interrupts are timely. -/
inductive Sound (env : Env) : System → Prop
  | fresh {board : Board} (quiet : Quiet board) (sem : board.spiDev.txSem = 0) : Sound env ⟨board, .idle, none⟩
  | going {board : Board} {phase : Phase} {t : Transfer} {wrote read : Nat} (asking : phase.asking = true)
    (going : Going env t wrote read board) (left : wrote + board.spiDev.totalLen = t.total)
    (marks : board.marks = (0, false, 0)) : Sound env ⟨board, phase, some t⟩
  | posted {board : Board} {phase : Phase} {t : Transfer} (asking : phase.asking = true)
    (complete : Complete env t board) (marks : board.marks = (1, true, 1)) : Sound env ⟨board, phase, some t⟩
  | ended {board : Board} {phase : Phase} {t : Transfer} (got : phase.asking = false)
    (complete : Complete env t board) (sem : board.spiDev.txSem = 0) (once : board.posts ≤ 1)
    (posted : t.total ≠ 0 → board.posts = 1) : Sound env ⟨board, phase, some t⟩

section
variable {env : Env} {t : Transfer} {wrote read : Nat} {board : Board} {s after : System}

/-- Registers of the block other than its FIFOs do not matter. -/
theorem Complete.congr {later : Board} (complete : Complete env t board) (block : later.block = board.block)
    (written : later.written = board.written) (mem : later.mem = board.mem)
    (totalLen : later.spiDev.totalLen = 0) (finished : later.spiDev.txFinishFlag = true) : Complete env t later :=
  ⟨block ▸ complete.still, block ▸ complete.rxFifo, block ▸ complete.received, written.trans complete.written,
    mem.trans complete.mem, totalLen, finished⟩

theorem Complete.modifyCtrl {change : Word → Word} (complete : Complete env t board) :
    Complete env t (board.modifyCtrl env change) := by
  have first : (board.settle env).block = board.block := Block.advances_still complete.still
  have second : ((board.settle env).settle env).block = (board.settle env).block :=
    Block.advances_still (first ▸ complete.still)
  exact complete.congr (second.trans first) rfl rfl complete.totalLen complete.finished

theorem Sound.hardware (sound : Sound env s) :
    Sound env { s with board := { s.board with block := s.board.block.advance env } } := by
  have same {board : Board} (still : board.block.Still) : { board with block := board.block.advance env } = board := by
    rw [Block.advance_still still]
  cases sound with
  | fresh quiet sem =>
    rw [same quiet.still]
    exact .fresh quiet sem
  | going asking going left marks => exact .going asking (going.congr Block.advance_carries rfl rfl rfl) left marks
  | posted asking complete marks =>
    rw [same complete.still]
    exact .posted asking complete marks
  | ended got complete sem once posted =>
    rw [same complete.still]
    exact .ended got complete sem once posted

theorem Sound.interrupt (spi : env.generation = .spi) (sound : Sound env s) (timely : Timely env s.board) :
    Sound env { s with board := spiIsr env configured s.board } := by
  cases sound with
  | fresh quiet sem =>
    obtain ⟨access, same⟩ := spiIsr_quiet spi quiet
    rw [same]
    exact .fresh ⟨quiet.still, quiet.rxFifo, quiet.totalLen, quiet.finished⟩ sem
  | going asking going left marks =>
    rcases spiIsr_going spi going left marks timely with ⟨most, last, goesOn, rest, kept⟩ | ⟨complete, set⟩
    · exact .going asking goesOn rest kept
    · exact .posted asking complete set
  | posted asking complete marks =>
    obtain ⟨access, same⟩ := spiIsr_quiet spi complete.quiet
    rw [same]
    exact .posted asking (complete.congr rfl rfl rfl complete.totalLen complete.finished) marks
  | ended got complete sem once posted =>
    obtain ⟨access, same⟩ := spiIsr_quiet spi complete.quiet
    rw [same]
    exact .ended got (complete.congr rfl rfl rfl complete.totalLen complete.finished) sem once posted

/-- A transfer begins with nothing written, or it is over at once. -/
theorem bkSpiMasterXfer_sound {msg : SpiMessage} {mem : Nat → Byte} (quiet : Quiet board) (sem : board.spiDev.txSem = 0)
    (fits : msg.sendLen + msg.recvLen < 2 ^ 32) : Sound env (bkSpiMasterXfer msg mem board) := by
  have size : (msg.recvLen + msg.sendLen) % 2 ^ 32 = msg.sendLen + msg.recvLen := by
    rw [Nat.add_comm, Nat.mod_eq_of_lt fits]
  have begun {read : Nat} (dropping : read ≤ msg.sendLen) :
      mem = (⟨msg, mem, board.block.received⟩ : Transfer).filled env read :=
    (@Transfer.filled_dropping env ⟨msg, mem, board.block.received⟩ read dropping).symm
  unfold bkSpiMasterXfer
  dsimp only
  rw [size]
  split
  next some =>
    have carries : Carries env board.block.received 0 0 board.block := by
      refine ⟨?_, ?_, ?_, ?_⟩
      · rw [quiet.still.txFifo, quiet.still.shifting]
        exact Nat.zero_add _
      · rw [quiet.still.txFifo]
        exact Nat.zero_le _
      · rw [quiet.rxFifo]
        rfl
      · rw [quiet.rxFifo]
        rfl
    refine @Sound.going env _ _ _ 0 0 rfl ⟨carries, Nat.zero_le _, rfl, begun (Nat.zero_le _), fun _ => rfl, rfl, rfl,
      rfl, fun _ => rfl, fun _ => (Nat.zero_sub _).symm⟩ (Nat.zero_add _) ?_
    show (0, false, board.spiDev.txSem) = _
    rw [sem]
  next none =>
    have empty : msg.sendLen + msg.recvLen = 0 := Classical.not_not.mp none
    have nothing : (⟨msg, mem, board.block.received⟩ : Transfer).total = 0 := empty
    refine .ended rfl ⟨quiet.still, quiet.rxFifo, ?_, ?_, ?_, quiet.totalLen, quiet.finished⟩ sem (Nat.zero_le _)
      (fun some => absurd nothing some)
    · rw [nothing]
      rfl
    · exact (List.eq_nil_of_length_eq_zero (Transfer.stream_length.trans nothing)).symm
    · rw [nothing]
      exact begun (Nat.zero_le _)

theorem Sound.xfer {msg : SpiMessage} {mem : Nat → Byte} (sound : Sound env s) (idle : s.phase = .idle)
    (fits : msg.sendLen + msg.recvLen < 2 ^ 32) : Sound env (bkSpiMasterXfer msg mem s.board) := by
  cases sound with
  | fresh quiet sem => exact bkSpiMasterXfer_sound quiet sem fits
  | going asking =>
    cases idle
    cases asking
  | posted asking =>
    cases idle
    cases asking
  | ended got complete sem => exact bkSpiMasterXfer_sound complete.quiet sem fits

theorem Sound.thread {phase : Phase} {later : Board} (sound : Sound env s)
    (stepped : threadStep env s.board s.phase = some (phase, later)) :
    Sound env { s with phase := phase, board := later } := by
  cases sound with
  | fresh => cases stepped
  | @going board place t wrote read asking going left marks =>
    have sem : board.spiDev.txSem = 0 := congrArg (fun m : Nat × Bool × Nat => m.2.2) marks
    cases place with
    | takingCs | enablingRx | enablingTx =>
      obtain ⟨rfl, rfl⟩ := Prod.mk.inj (Option.some.inj stepped)
      exact .going rfl going.modifyCtrl left marks
    | waiting =>
      unfold threadStep at stepped
      dsimp only at stepped
      rw [if_pos sem] at stepped
      cases stepped
    | idle | disablingRx | disablingTx | releasingCs | clearing => cases asking
  | @posted board place t asking complete marks =>
    have sem : board.spiDev.txSem = 1 := congrArg (fun m : Nat × Bool × Nat => m.2.2) marks
    have posts : board.posts = 1 := congrArg Prod.fst marks
    cases place with
    | takingCs | enablingRx | enablingTx =>
      obtain ⟨rfl, rfl⟩ := Prod.mk.inj (Option.some.inj stepped)
      exact .posted rfl complete.modifyCtrl marks
    | waiting =>
      unfold threadStep at stepped
      dsimp only at stepped
      rw [if_neg (by rw [sem]; decide)] at stepped
      obtain ⟨rfl, rfl⟩ := Prod.mk.inj (Option.some.inj stepped)
      refine .ended rfl (complete.congr rfl rfl rfl complete.totalLen complete.finished) ?_ (Nat.le_of_eq posts)
        (fun _ => posts)
      show board.spiDev.txSem - 1 = 0
      rw [sem]
    | idle | disablingRx | disablingTx | releasingCs | clearing => cases asking
  | @ended board place t got complete sem once posted =>
    cases place with
    | takingCs | enablingRx | enablingTx | waiting => cases got
    | idle => cases stepped
    | disablingRx | disablingTx | releasingCs =>
      obtain ⟨rfl, rfl⟩ := Prod.mk.inj (Option.some.inj stepped)
      exact .ended rfl complete.modifyCtrl sem once posted
    | clearing =>
      obtain ⟨rfl, rfl⟩ := Prod.mk.inj (Option.some.inj stepped)
      exact .ended rfl (complete.congr rfl rfl rfl rfl rfl) sem once posted

theorem Sound.step {event : Event} (spi : env.generation = .spi) (sound : Sound env s) (fine : Fine env s event)
    (stepped : SpiMaster.step env event s = some after) : Sound env after := by
  cases event with
  | xfer msg mem =>
    unfold SpiMaster.step at stepped
    dsimp only at stepped
    split at stepped
    next idle =>
      obtain rfl := Option.some.inj stepped
      exact sound.xfer idle fine
    · cases stepped
  | thread =>
    obtain ⟨⟨phase, later⟩, moved, last⟩ := Option.map_eq_some_iff.mp stepped
    obtain rfl := last
    exact sound.thread moved
  | interrupt =>
    obtain rfl := Option.some.inj stepped
    exact sound.interrupt spi fine
  | hardware =>
    obtain rfl := Option.some.inj stepped
    exact sound.hardware

theorem filled_outside {a : Nat} (within : read ≤ t.total)
    (outside : ∀ rxbuf, t.msg.recvBuf = some rxbuf → a < rxbuf ∨ rxbuf + t.msg.recvLen ≤ a) :
    t.filled env read a = t.mem a := by
  unfold Transfer.total at within
  unfold Transfer.filled
  split
  · rfl
  next rxbuf buffer =>
    have away := outside rxbuf buffer
    exact if_neg (by omega)

theorem Complete.right {phase : Phase} (complete : Complete env t board) (once : board.posts ≤ 1)
    (posted : phase.asking = false → t.total ≠ 0 → board.posts = 1) : Right env t ⟨board, phase, some t⟩ where
  written := complete.written ▸ List.prefix_refl _
  confined a outside := (congrFun complete.mem a).trans (filled_outside (Nat.le_refl _) outside)
  once := once
  last _ := ⟨complete.written, complete.received, complete.rxFifo⟩
  posted := posted
  filled _ rxbuf buffer i inside := by
    have place : rxbuf ≤ rxbuf + i ∧ rxbuf + i < rxbuf + (t.total - t.msg.sendLen) := by
      unfold Transfer.total
      omega
    show board.mem (rxbuf + i) = _
    rw [complete.mem]
    unfold Transfer.filled
    rw [buffer]
    dsimp only
    rw [if_pos place, Nat.add_sub_cancel_left]

theorem Sound.right (sound : Sound env s) (current : s.current = some t) : Right env t s := by
  cases sound with
  | fresh => cases current
  | @going board place t wrote read asking going left marks =>
    cases current
    have posts : board.posts = 0 := congrArg Prod.fst marks
    refine ⟨?_, fun a outside => ?_, Nat.le_succ_of_le (Nat.le_of_eq posts), fun once => ?_, fun got => ?_, fun got => ?_⟩
    · exact going.written ▸ List.take_prefix _ _
    · exact (congrFun going.mem a).trans (filled_outside (Nat.le_trans going.read_le going.within) outside)
    · exact nomatch posts.symm.trans once
    · exact Bool.noConfusion (asking.symm.trans got)
    · exact Bool.noConfusion (asking.symm.trans got)
  | posted asking complete marks =>
    cases current
    have posts := congrArg Prod.fst marks
    exact complete.right (Nat.le_of_eq posts) fun _ _ => posts
  | ended got complete sem once posted =>
    cases current
    exact complete.right once fun _ => posted

end

/-! ## The other generation -/

section
variable {env : Env} {board : Board} {s after : System}

/-- In spi_bk7231n.c no interrupt calls the callback for the end. -/
theorem spiIsr_spiBk7231n (spiBk7231n : env.generation = .spiBk7231n) :
    (spiIsr env configured board).marks = board.marks := by
  have receive {up : Bool} {board : Board} : (spiReceived env configured up board).marks = board.marks := by
    unfold spiReceived
    split
    · exact rxLoop_unmarked.marks
    · rfl
  have needwr {up : Bool} {board : Board} :
      (spiCalled env up (some .bkSpiTxNeedwrite) board).marks = board.marks := by
    unfold spiCalled
    split
    · exact txLoop_marks
    · rfl
  have finish {up : Bool} {board : Board} : spiCalled env up configured.spiTxFinish board = board := ite_self board
  unfold spiIsr
  dsimp only [Board.readStat]
  rw [spiBk7231n]
  dsimp only
  rw [finish]
  have none : configured.spiTxFinish.isSome = false := rfl
  rw [none, Bool.and_false, if_neg Bool.false_ne_true]
  exact needwr.trans receive

/-- The semaphore is not set, and who waits for it goes on waiting. -/
structure Unposted (s : System) : Prop where
  posts : s.board.posts = 0
  sem : s.board.spiDev.txSem = 0
  place : s.phase.asking = true ∨ s.phase = .idle ∧ ∀ t, s.current = some t → t.total % 2 ^ 32 = 0

theorem Unposted.step {event : Event} (spiBk7231n : env.generation = .spiBk7231n) (unposted : Unposted s)
    (stepped : SpiMaster.step env event s = some after) : Unposted after := by
  obtain ⟨posts, sem, place⟩ := unposted
  cases event with
  | xfer msg mem =>
    unfold SpiMaster.step at stepped
    dsimp only at stepped
    split at stepped
    · obtain rfl := Option.some.inj stepped
      unfold bkSpiMasterXfer
      dsimp only
      split
      · exact ⟨rfl, sem, .inl rfl⟩
      next none =>
        refine ⟨rfl, sem, .inr ⟨rfl, fun t current => ?_⟩⟩
        obtain rfl := Option.some.inj current
        rw [Nat.add_comm] at none
        exact Classical.not_not.mp none
    · cases stepped
  | thread =>
    obtain ⟨⟨phase, later⟩, moved, last⟩ := Option.map_eq_some_iff.mp stepped
    obtain rfl := last
    rcases place with asking | ⟨idle, _⟩
    · obtain ⟨board, place, current⟩ := s
      cases place with
      | takingCs | enablingRx | enablingTx =>
        obtain ⟨rfl, rfl⟩ := Prod.mk.inj (Option.some.inj moved)
        exact ⟨posts, sem, .inl rfl⟩
      | waiting =>
        unfold threadStep at moved
        dsimp only at moved
        rw [if_pos sem] at moved
        cases moved
      | idle | disablingRx | disablingTx | releasingCs | clearing => cases asking
    · rw [idle] at moved
      cases moved
  | interrupt =>
    obtain rfl := Option.some.inj stepped
    have marks : (spiIsr env configured s.board).marks = s.board.marks := spiIsr_spiBk7231n spiBk7231n
    exact ⟨(congrArg Prod.fst marks).trans posts, (congrArg (fun m : Nat × Bool × Nat => m.2.2) marks).trans sem, place⟩
  | hardware =>
    obtain rfl := Option.some.inj stepped
    exact ⟨posts, sem, place⟩

end

/-! ## Transfers -/

instance (env : Env) (board : Board) : Decidable (Timely env board) := by
  unfold Timely
  infer_instance

instance (env : Env) (s : System) : (event : Event) → Decidable (Fine env s event)
  | .xfer msg _ => inferInstanceAs (Decidable (msg.sendLen + msg.recvLen < 2 ^ 32))
  | .interrupt => inferInstanceAs (Decidable (Timely env s.board))
  | .thread => inferInstanceAs (Decidable True)
  | .hardware => inferInstanceAs (Decidable True)

/-- TXINT is up in every interrupt, and the block only moves between them. -/
def sampleEnv (generation : Generation) (depth : Nat) : Env where
  generation := generation
  depth := depth
  progress _ := 0
  incoming k := BitVec.ofNat 8 (0x50 + k)
  txint _ := true
  rxint _ := false
  csUp _ := false
  txFinishInt _ := true

def sampleMessage : SpiMessage := ⟨0x10, 1, some 0x20, 2, by decide, by decide⟩

/-- With the latest event first: the first interrupt fills the FIFO, the second one finds it not empty, and the last one
comes when all three bytes have been received. -/
def sampleEvents : List Event :=
  List.replicate 5 .thread ++ [.interrupt] ++ List.replicate 5 .hardware ++ [.interrupt, .hardware, .interrupt] ++
    List.replicate 3 .thread ++ [.xfer sampleMessage fun a => if a = 0x10 then 7 else 0]

def sampleShown (s : System) : Bool :=
  s.phase == .idle && s.board.posts == 1 && s.board.written == [7, 0xff, 0xff] && s.board.mem 0x20 == 0x51 &&
    s.board.mem 0x21 == 0x52 && s.board.mem 0x22 == 0

/-- All bytes are exchanged and taken, and one more interrupt comes. -/
def stuckEvents : List Event :=
  [.interrupt] ++ List.replicate 6 .hardware ++ [.interrupt] ++ List.replicate 3 .thread ++
    [.xfer sampleMessage fun _ => 0]

def stuckShown (s : System) : Bool :=
  s.phase == .waiting && s.board.posts == 0 && s.board.spiDev.txSem == 0 && s.board.block.received == 3 &&
    s.board.mem 0x21 == 0x52 && s.board.ctrl &&& bitWdth != 0

/-- The message fits into the FIFO, and the call returns before a byte has been clocked out. -/
def earlyEvents : List Event :=
  List.replicate 5 .thread ++ [.interrupt] ++ List.replicate 3 .thread ++ [.xfer sampleMessage fun _ => 0]

def earlyShown (s : System) : Bool :=
  s.phase == .idle && s.board.posts == 1 && s.board.block.txFifo.length == 3 && s.board.block.received == 0 &&
    s.current.any fun t => t.base == 0 && t.total == 3

end BekenSdk.SpiMaster
