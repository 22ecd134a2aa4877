import BekenSdk.HwTimer.Operations

/-! The interrupt service of the timers (`bk_timer_isr`). Handlers work on the timers by the operations of the driver.
-/

set_option autoImplicit false

namespace BekenSdk.HwTimer

open BekenSdk.Base

def channelOf : Group → Nat → Nat
  | .timer0_2, index => index
  | .timer3_5, index => index + 3

/-- What the functions behind the numbers do for a channel. -/
abbrev Handlers := Nat → Nat → List Operation

def runAll (env : Env) (operations : List Operation) (board : Board) : Option Board :=
  operations.foldlM (fun board operation => operation.run env board) board

/-- The board after the handlers, and the channels whose handler has been run. -/
structure Served where
  board : Board
  ran : List Nat

/-- The turn of a channel in the loop over the channels of a group. -/
def serveOne (env : Env) (handlers : Handlers) (group : Group) (status : Word) (i : Nat) (served : Served) :
    Option Served :=
  if status &&& (1#32 <<< (i + timerctlIntPosi)) ≠ 0#32 then
    match served.board.intHandler (channelOf group i) with
    | some handler => (runAll env (handlers handler (channelOf group i)) served.board).map fun board =>
      ⟨board, channelOf group i :: served.ran⟩
    | none => some served
  else some served

/-- The loop up to a channel. -/
def serve (env : Env) (handlers : Handlers) (group : Group) (status : Word) (board : Board) : Nat → Option Served
  | 0 => some ⟨board, []⟩
  | i + 1 => (serve env handlers group status board i).bind (serveOne env handlers group status i)

/-- What is written for the status that was found. -/
def acknowledged (status reg : Word) : Word := (reg &&& ~~~(0x7#32 <<< timerctlIntPosi)) ||| status

/-- The loop until the found interrupts are down, with a bound on its rounds. -/
def clearLoop (env : Env) (group : Group) (status : Word) : Nat → Board → Option Board
  | 0, _ => none
  | rounds + 1, board =>
    let board := board.modifyCtl env group (acknowledged status)
    let board := board.settle env
    if board.ctl group &&& status &&& (0x7#32 <<< timerctlIntPosi) ≠ 0#32 then clearLoop env group status rounds board
    else some board

/-- One group of `bk_timer_isr`: the status that it found, and what it has served, with the board at its end. -/
structure Half where
  status : Word
  served : Served
  board : Board

/-- The interrupts that are found up. -/
def statusOf (env : Env) (group : Group) (board : Board) : Word :=
  (board.settle env).ctl group &&& (0x7#32 <<< timerctlIntPosi)

def isrHalf (env : Env) (handlers : Handlers) (group : Group) (rounds : Nat) (board : Board) : Option Half :=
  let status := statusOf env group board
  (serve env handlers group status (board.settle env) 3).bind fun served =>
    (clearLoop env group status rounds served.board).map fun board => ⟨status, served, board⟩

/-- The second group is asked when the first is done. -/
def bkTimerIsr (env : Env) (handlers : Handlers) (rounds0 rounds1 : Nat) (board : Board) : Option (Half × Half) :=
  (isrHalf env handlers .timer0_2 rounds0 board).bind fun first =>
    (isrHalf env handlers .timer3_5 rounds1 first.board).map fun second => (first, second)

/-! ## The handlers -/

/-- What an operation makes of p_TIMER_Int_Handler. -/
def Operation.registers (table : Nat → Option Nat) : Operation → Nat → Option Nat
  | .bkTimerCtrl (.timerInitParam param) =>
    if param.channel.toNat > 5 then table
    else fun other => if other = param.channel.toNat then param.tIntHandler else table other
  | .bkTimerCtrl (.timerInitParamUs param) =>
    if param.channel.toNat > 2 then table
    else fun other => if other = param.channel.toNat then param.tIntHandler else table other
  | _ => table

/-- The handlers when the turn of a channel comes, of those that were there first. -/
def handlersBefore (handlers : Handlers) (group : Group) (found : Nat → Bool) (table : Nat → Option Nat) :
    Nat → Nat → Option Nat
  | 0 => table
  | i + 1 =>
    let table := handlersBefore handlers group found table i
    if found i then
      match table (channelOf group i) with
      | some handler => (handlers handler (channelOf group i)).foldl Operation.registers table
      | none => table
    else table

section
variable {env : Env} {board after : Board} {group : Group} {status : Word}

theorem waitRead_intHandler {polls : Nat} (waited : Board.waitRead env polls board = some after) :
    after.intHandler = board.intHandler := by
  induction polls generalizing board with
  | zero => cases waited
  | succ polls ih =>
    rw [Board.waitRead] at waited
    dsimp only at waited
    split at waited
    · have same := ih waited
      exact same
    · obtain rfl := Option.some.inj waited
      rfl

theorem timer3Less_intHandler {polls : Nat} {less : Word} (found : board.timer3Less env polls = some (less, after)) :
    after.intHandler = board.intHandler := by
  rw [Board.timer3Less] at found
  dsimp only at found
  split at found
  · obtain ⟨_, rfl⟩ := Prod.mk.inj (Option.some.inj found)
    rfl
  · obtain ⟨waited, done, last⟩ := Option.map_eq_some_iff.mp found
    obtain ⟨_, rfl⟩ := Prod.mk.inj last
    have same := waitRead_intHandler done
    exact same

theorem Operation.run_intHandler {operation : Operation} (done : operation.run env board = some after) :
    after.intHandler = operation.registers board.intHandler := by
  cases operation with
  | bkTimerCtrl cmd =>
    obtain rfl := Option.some.inj done
    cases cmd with
    | timerUnitEnable channel =>
      show _ = board.intHandler
      rw [Board.bkTimerCtrl]
      split
      · rfl
      · split <;> rfl
    | timerUnitDisable channel =>
      show _ = board.intHandler
      rw [Board.bkTimerCtrl]
      split
      · rfl
      · split <;> rfl
    | timerInitParam param =>
      rw [Board.bkTimerCtrl, Board.initTimerParam, registers]
      split
      · rfl
      · split <;> rfl
    | timerInitParamUs param =>
      rw [Board.bkTimerCtrl, Board.initTimerParamUs, registers]
      split <;> rfl
  | bkTimerDisable channel =>
    obtain rfl := Option.some.inj done
    show _ = board.intHandler
    rw [Board.bkTimerDisable]
    split
    · rfl
    · split <;> rfl
  | bkTimerEnable channel delayMs =>
    obtain rfl := Option.some.inj done
    show _ = board.intHandler
    rw [Board.bkTimerEnable]
    split
    · rfl
    · split <;> rfl
  | psTimer02Disable channel =>
    obtain rfl := Option.some.inj done
    rfl
  | psTimer02Restore channel =>
    obtain rfl := Option.some.inj done
    rfl
  | psTimer3Enable period =>
    obtain rfl := Option.some.inj done
    show _ = board.intHandler
    rw [Board.psTimer3Enable]
    split <;> rfl
  | psTimer3Disable polls =>
    obtain ⟨⟨less, last⟩, stopped, rfl⟩ := Option.map_eq_some_iff.mp done
    obtain ⟨⟨counted, read⟩, found, eq⟩ := Option.map_eq_some_iff.mp stopped
    obtain ⟨_, rfl⟩ := Prod.mk.inj eq
    have same := timer3Less_intHandler found
    split <;> exact same

theorem runAll_intHandler {operations : List Operation} (done : runAll env operations board = some after) :
    after.intHandler = operations.foldl Operation.registers board.intHandler := by
  induction operations generalizing board with
  | nil =>
    obtain rfl := Option.some.inj done
    rfl
  | cons operation rest ih =>
    rw [runAll, List.foldlM_cons] at done
    obtain ⟨middle, first, later⟩ := Option.bind_eq_some_iff.mp done
    rw [ih later, Operation.run_intHandler first, List.foldl_cons]

end

/-! ## The loop over the channels -/

section
variable {env : Env} {handlers : Handlers} {board : Board} {group : Group} {status : Word}

/-- An interrupt bit of a status, as the loop asks for it. -/
def foundIn (status : Word) (i : Nat) : Bool := status.getLsbD (timerctlIntPosi + i)

theorem serveOne_spec {i : Nat} {before after : Served} (done : serveOne env handlers group status i before = some after)
    (small : i < 3) :
    after.board.intHandler = (if foundIn status i then
        match before.board.intHandler (channelOf group i) with
        | some handler => (handlers handler (channelOf group i)).foldl Operation.registers before.board.intHandler
        | none => before.board.intHandler
      else before.board.intHandler) ∧
      ∀ channel, channel ∈ after.ran ↔ channel ∈ before.ran ∨ (channel = channelOf group i ∧ foundIn status i = true ∧
        before.board.intHandler (channelOf group i) ≠ none) := by
  have bit : status &&& (1#32 <<< (i + timerctlIntPosi)) ≠ 0#32 ↔ foundIn status i = true := by
    rw [foundIn, Nat.add_comm]
    exact OneToClear.and_bit_ne_zero (by unfold timerctlIntPosi; omega)
  unfold serveOne at done
  split at done
  next up =>
    rw [if_pos (bit.mp up)]
    split at done
    next handler registered =>
      obtain ⟨last, ran, rfl⟩ := Option.map_eq_some_iff.mp done
      rw [registered]
      refine ⟨runAll_intHandler ran, fun channel => ?_⟩
      rw [List.mem_cons, or_comm]
      exact or_congr_right ⟨fun same => ⟨same, bit.mp up, Option.some_ne_none _⟩, fun hit => hit.1⟩
    next registered =>
      obtain rfl := Option.some.inj done
      rw [registered]
      exact ⟨rfl, fun channel => ⟨.inl, fun hit => hit.elim id fun new => absurd rfl new.2.2⟩⟩
  next down =>
    obtain rfl := Option.some.inj done
    have absent : ¬foundIn status i = true := fun up => down (bit.mpr up)
    rw [if_neg absent]
    exact ⟨rfl, fun channel => ⟨.inl, fun hit => hit.elim id fun new => absurd new.2.1 absent⟩⟩

/-- After the turns of some channels, the ones that have been run are those that were found and had a handler then. -/
theorem serve_spec {n : Nat} {served : Served} (done : serve env handlers group status board n = some served) (small : n ≤ 3) :
    served.board.intHandler = handlersBefore handlers group (foundIn status) board.intHandler n ∧
      ∀ channel, channel ∈ served.ran ↔ ∃ i < n, channel = channelOf group i ∧ foundIn status i = true ∧
        handlersBefore handlers group (foundIn status) board.intHandler i (channelOf group i) ≠ none := by
  induction n generalizing served with
  | zero =>
    obtain rfl := Option.some.inj done
    refine ⟨rfl, fun channel => iff_of_false List.not_mem_nil ?_⟩
    rintro ⟨i, below, _⟩
    exact absurd below (Nat.not_lt_zero i)
  | succ n ih =>
    obtain ⟨before, earlier, turn⟩ := Option.bind_eq_some_iff.mp done
    obtain ⟨table, ran⟩ := ih earlier (Nat.le_of_succ_le small)
    obtain ⟨table', ran'⟩ := serveOne_spec turn small
    rw [table] at table' ran'
    refine ⟨table', fun channel => ?_⟩
    rw [ran', ran]
    constructor
    · rintro (⟨i, below, hit⟩ | hit)
      · exact ⟨i, Nat.lt_succ_of_lt below, hit⟩
      · exact ⟨n, Nat.lt_succ_self n, hit⟩
    · rintro ⟨i, below, hit⟩
      by_cases last : i = n
      · subst last
        exact .inr hit
      · exact .inl ⟨i, by omega, hit⟩

/-! ## What the interrupt service writes -/

theorem acknowledged_getLsbD {i : Nat} (reg : Word) (small : i < 3) :
    (acknowledged status reg).getLsbD (timerctlIntPosi + i) = foundIn status i := by
  have inside : timerctlIntPosi + i < 32 := by unfold timerctlIntPosi; omega
  have bit : (0x7#32 <<< timerctlIntPosi).getLsbD (timerctlIntPosi + i) = true :=
    (intBits_getLsbD inside).trans (decide_eq_true (by unfold timerctlIntPosi; omega))
  rw [acknowledged, BitVec.getLsbD_or, BitVec.getLsbD_and, BitVec.getLsbD_not, bit, foundIn]
  simp

/-- Below the interrupt bits the register is written as it was read. -/
theorem acknowledged_low {k : Nat} (reg : Word) (low : k < 7)
    (found : ∀ j < 7, status.getLsbD j = false) : (acknowledged status reg).getLsbD k = reg.getLsbD k := by
  rw [acknowledged, BitVec.getLsbD_or, BitVec.getLsbD_and, BitVec.getLsbD_not, found k low]
  have mask : (0x7#32 <<< timerctlIntPosi).getLsbD k = false := intBits_low low
  rw [mask]
  have inside : k < 32 := by omega
  simp [inside]

/-- The channel whose interrupt the service was not asked for is left as it is. -/
theorem clearLoop_calm {rounds channel : Nat} {after : Board} (valid : channel < 6)
    (low : ∀ j < 7, status.getLsbD j = false)
    (other : groupOf channel = group → foundIn status (indexOf channel) = false)
    (done : clearLoop env group status rounds board = some after) : Calm env channel board after := by
  induction rounds generalizing board with
  | zero => cases done
  | succ rounds ih =>
    have small := indexOf_lt valid
    have once : Calm env channel board (board.modifyCtl env group (acknowledged status)) := by
      refine ⟨Board.modifyCtl_passes valid, Board.modifyCtl_framed valid fun _ => ⟨fun word => ?_, fun word k _ high => ?_⟩,
        Board.modifyCtl_quiet fun own word => ?_⟩
      · exact acknowledged_low word (by omega) low
      · exact acknowledged_low word (by omega) low
      · rw [acknowledged_getLsbD word small]
        exact other own
    have twice := once.trans (Board.settle_calm valid)
    rw [clearLoop] at done
    split at done
    · exact twice.trans (ih done)
    · obtain rfl := Option.some.inj done
      exact twice

end

/-! ## Isolation

Isolation of the timer channels.
-/

/-- The values that the service writes clear the interrupt of a channel of the group. -/
def Half.Clears (half : Half) (index : Nat) : Prop :=
  ∃ reg, (acknowledged half.status reg).getLsbD (timerctlIntPosi + index) = true

/-- The service clears only interrupts whose handlers it has run. -/
structure Half.ServedOnly (half : Half) (group : Group) : Prop where
  written : ∀ i < 3, half.Clears i → channelOf group i ∈ half.served.ran
  cleared : ∀ channel < 6, channel ∉ half.served.ran →
    half.board.cleared channel = half.served.board.cleared channel

/-- Every channel whose interrupt is found up has a handler when its turn comes. -/
def Answered (env : Env) (handlers : Handlers) (group : Group) (board : Board) : Prop :=
  ∀ i < 3, foundIn (statusOf env group board) i = true →
    handlersBefore handlers group (foundIn (statusOf env group board)) board.intHandler i (channelOf group i) ≠ none

section
variable {env : Env} {handlers : Handlers} {board : Board} {group : Group}

theorem channelOf_injective {i j : Nat} (same : channelOf group i = channelOf group j) : i = j := by
  cases group
  · exact same
  · exact Nat.add_right_cancel same

theorem channelOf_indexOf {channel : Nat} (own : groupOf channel = group) : channelOf group (indexOf channel) = channel := by
  subst own
  by_cases low : channel < 3
  · rw [Board.groupOf_low low, Board.indexOf_low low]
    rfl
  · rw [Board.groupOf_high low, Board.indexOf_high low]
    exact Nat.sub_add_cancel (Nat.not_lt.mp low)

theorem statusOf_low {j : Nat} (low : j < 7) : (statusOf env group board).getLsbD j = false := by
  have mask : (0x7#32 <<< timerctlIntPosi).getLsbD j = false := intBits_low low
  rw [statusOf, BitVec.getLsbD_and, mask, Bool.and_false]

theorem isrHalf_iff {rounds : Nat} {half : Half} (done : isrHalf env handlers group rounds board = some half) :
    half.ServedOnly group ↔ Answered env handlers group board := by
  obtain ⟨served, ran, last⟩ := Option.bind_eq_some_iff.mp done
  obtain ⟨after, cleared, rfl⟩ := Option.map_eq_some_iff.mp last
  have spec := (serve_spec ran (Nat.le_refl 3)).2
  have clears : ∀ i < 3, Half.Clears ⟨statusOf env group board, served, after⟩ i ↔
      foundIn (statusOf env group board) i = true := by
    intro i small
    exact ⟨fun ⟨reg, one⟩ => (acknowledged_getLsbD reg small).symm.trans one,
      fun up => ⟨0, (acknowledged_getLsbD 0 small).trans up⟩⟩
  constructor
  · intro only i small up
    obtain ⟨j, _, same, _, registered⟩ := (spec _).mp (only.written i small ((clears i small).mpr up))
    obtain rfl := channelOf_injective same
    exact registered
  · intro answered
    have run : ∀ i < 3, foundIn (statusOf env group board) i = true → channelOf group i ∈ served.ran := by
      intro i small up
      exact (spec _).mpr ⟨i, small, rfl, up, answered i small up⟩
    refine ⟨fun i small one => run i small ((clears i small).mp one), fun channel valid idle => ?_⟩
    refine (clearLoop_calm valid (fun j low => statusOf_low low) (fun own => ?_) cleared).same
    apply eq_false_of_ne_true
    intro up
    have member := run (indexOf channel) (indexOf_lt valid) up
    rw [channelOf_indexOf own] at member
    exact idle member

theorem bkTimerIsr_iff {rounds0 rounds1 : Nat} {first second : Half}
    (done : bkTimerIsr env handlers rounds0 rounds1 board = some (first, second)) :
    (first.ServedOnly .timer0_2 ∧ second.ServedOnly .timer3_5) ↔
      (Answered env handlers .timer0_2 board ∧ Answered env handlers .timer3_5 first.board) := by
  obtain ⟨half, early, rest⟩ := Option.bind_eq_some_iff.mp done
  obtain ⟨other, late, same⟩ := Option.map_eq_some_iff.mp rest
  obtain ⟨rfl, rfl⟩ := Prod.mk.inj same
  exact and_congr (isrHalf_iff early) (isrHalf_iff late)

end

/-- An operation on a channel leaves every other channel as it is if and only if its condition holds for each of them:
the functions that enable and disable a channel always do. The interrupt service clears only interrupts whose handlers
it has run if and only if every channel that it finds up, first in one group and then in the other, has a handler when
its turn comes. -/
theorem isolated_iff (env : Env) (handlers : Handlers) (board : Board) :
    (∀ (operation : Operation) (after : Board), operation.run env board = some after →
      ((∀ other < 6, other ≠ operation.channel → Undisturbed env other board after) ↔
        ∀ other < 6, other ≠ operation.channel → operation.Spares env board (after.access - 1) other)) ∧
    ∀ (rounds0 rounds1 : Nat) (first second : Half),
      bkTimerIsr env handlers rounds0 rounds1 board = some (first, second) →
        ((first.ServedOnly .timer0_2 ∧ second.ServedOnly .timer3_5) ↔
          (Answered env handlers .timer0_2 board ∧ Answered env handlers .timer3_5 first.board)) := by
  refine ⟨fun operation after done => ?_, fun _ _ _ _ done => bkTimerIsr_iff done⟩
  have each : ∀ other < 6, other ≠ operation.channel →
      (Undisturbed env other board after ↔ operation.Spares env board (after.access - 1) other) :=
    fun other valid different => operation.undisturbed_iff done valid different
  exact ⟨fun kept other valid different => (each other valid different).mp (kept other valid different),
    fun spares other valid different => (each other valid different).mpr (spares other valid different)⟩

/-! ## A channel that is initialised while another one is up -/

def still : Env := ⟨fun _ _ => 0, fun _ => false, fun _ => 0, 0⟩

/-- Timer 0 runs and has expired. -/
def timer0Up : Board where
  ctl := fun group => if group = .timer0_2 then 0x81 else 0
  cnt := fun _ => 26000
  readCtl := fun _ => 0
  intHandler := fun channel => if channel = 0 then some 0 else none
  timer02EnValue := 0
  access := 0
  cleared := fun _ => 0

theorem disable_spares : Undisturbed still 0 timer0Up (timer0Up.bkTimerDisable still 1).2 :=
  ((isolated_iff still (fun _ _ => []) timer0Up).1 (.bkTimerDisable 1) _ rfl).mpr (fun _ _ _ => trivial) 0 (by decide)
    (by decide)

/-- Timer 1 is initialised, and the interrupt of timer 0 is lost. -/
theorem initialise_disturbs : ∃ after,
    (Operation.bkTimerCtrl (.timerInitParam ⟨1, 1, 100, none⟩)).run still timer0Up = some after ∧
      timer0Up.pending 0 = true ∧ after.pending 0 = false ∧
      ¬∀ other < 6, other ≠ 1 → Undisturbed still other timer0Up after := by
  refine ⟨_, rfl, by decide, by decide, fun kept => ?_⟩
  have same := (kept 0 (by decide) (by decide)).cleared
  exact absurd same (by decide)

end BekenSdk.HwTimer
