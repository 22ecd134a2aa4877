import BekenSdk.HwTimer.Channels

/-! Timers while the chip sleeps (mcu_ps_timer.c). Timer 3 wakes it, or counts the ticks of the system; the timers of the
fast clock are stopped and taken up again.
-/

set_option autoImplicit false

namespace BekenSdk.HwTimer

open BekenSdk.Base

def timerctl3EnBit : Word := 0x01#32

def timerctl3IntBit : Word := 0x01#32 <<< 7

def timer3_5ReadOpBit : Word := 1

def timer3_5ReadIndexPosi : Nat := 2

def timer3_5ReadIndexMask : Word := 0x3

def timer3_5ReadIndex3 : Word := 0

def bkTimerId3 : Nat := 3

def fclkDurationMs : Word := 2

namespace Board
variable (env : Env) (board : Board)

/-- The read control register; hardware takes the operation bit back. -/
def readReadCtl (group : Group) : Word × Board :=
  let found := board.settle env
  (if env.reading board.access then found.readCtl group else found.readCtl group &&& ~~~timer3_5ReadOpBit, found)

def psTimer02Disable : Board :=
  let board := board.settle env
  let reg := board.ctl .timer0_2
  let board := { board with timer02EnValue := reg }
  board.writeCtl env .timer0_2 (reg &&& ~~~timerctlClkdivMask)

def psTimer02Restore : Board := board.writeCtl env .timer0_2 board.timer02EnValue

/-- Timer 3 is chosen for the count that is read out next. -/
def askTimer3 : Board :=
  let (reg, board) := board.readReadCtl env .timer3_5
  let reg := reg &&& ~~~(timer3_5ReadIndexMask <<< timer3_5ReadIndexPosi)
  let reg := reg ||| (timer3_5ReadIndex3 <<< timer3_5ReadIndexPosi)
  board.writeReadCtl env .timer3_5 reg

def psTimer3Enable (period : Word) : Board :=
  let board := board.askTimer3 env
  let board := if env.fclkGetTickId = bkTimerId3 then
    board.modifyCtl env .timer3_5 fun reg => reg &&& ~~~timerctl3EnBit else board
  let board := board.writeCnt env 3 period
  board.modifyCtl env .timer3_5 fun reg => reg ||| timerctl3EnBit

/-- The loop until the count is read out, with a bound on its rounds. -/
def waitRead : Nat → Board → Option Board
  | 0, _ => none
  | polls + 1, board =>
    let (reg, board) := board.readReadCtl env .timer3_5
    if reg &&& timer3_5ReadOpBit ≠ 0 then waitRead polls board else some board

/-- What timer 3 has counted: its period if it has expired. -/
def timer3Less (polls : Nat) : Option (Word × Board) :=
  let board := board.settle env
  if board.ctl .timer3_5 &&& timerctl3IntBit ≠ 0 then
    let board := board.settle env
    some (board.cnt 3, board)
  else (waitRead env polls board).map fun board => (env.readValue board.access, board.settle env)

def psTimer3Disable (polls : Nat) : Option (Word × Board) :=
  (board.timer3Less env polls).map fun (less, board) =>
    let board := board.modifyCtl env .timer3_5 fun reg =>
      (reg &&& ~~~timerctl3EnBit) &&& ~~~(0x7#32 <<< timerctlIntPosi)
    let board := if env.fclkGetTickId = bkTimerId3 then
      (board.writeCnt env 3 (fclkDurationMs * 32)).modifyCtl env .timer3_5 fun reg => reg ||| timerctl3EnBit else board
    (less / 32, board)

end Board

/-! ## Steps that leave a channel alone -/

structure Calm (env : Env) (channel : Nat) (board after : Board) : Prop extends Passes env channel board after,
    Framed channel board after where
  same : after.cleared channel = board.cleared channel

namespace Calm
variable {env : Env} {channel : Nat} {board middle after : Board}

theorem trans (first : Calm env channel board middle) (second : Calm env channel middle after) :
    Calm env channel board after :=
  ⟨first.toPasses.trans second.toPasses, first.toFramed.trans second.toFramed, second.same.trans first.same⟩

theorem undisturbed (calm : Calm env channel board after) : Undisturbed env channel board after :=
  (undisturbed_of_framed calm.toPasses calm.toFramed).mpr calm.same

end Calm

theorem Comes.mono {env : Env} {channel early late : Nat} {board : Board} (later : early ≤ late) :
    Comes env channel board early → Comes env channel board late :=
  Or.imp_right fun ⟨access, low, high, up⟩ => ⟨access, low, Nat.lt_of_lt_of_le high later, up⟩

namespace Board
variable {env : Env} {board after : Board} {channel : Nat}

theorem settle_calm (valid : channel < 6) : Calm env channel board (board.settle env) :=
  ⟨settle_passes valid, settle_framed valid, rfl⟩

theorem writeCnt_calm {other : Nat} {period : Word} (valid : channel < 6) (different : channel ≠ other) :
    Calm env channel board (board.writeCnt env other period) :=
  ⟨writeCnt_passes valid, writeCnt_framed valid different, rfl⟩

theorem writeReadCtl_calm {group : Group} {value : Word} (valid : channel < 6) :
    Calm env channel board (board.writeReadCtl env group value) :=
  ⟨writeReadCtl_passes valid, writeReadCtl_framed valid, rfl⟩

theorem modifyCtl_calm {change : Word → Word} {own : Nat} (confined : Confined (indexOf own) change) (inside : own < 6)
    (valid : channel < 6) (different : channel ≠ own) :
    Calm env channel board (board.modifyCtl env (groupOf own) change) := by
  have kept : Undisturbed env channel board _ := modifyCtl_confined confined inside valid different
  exact ⟨modifyCtl_passes valid, ⟨kept.enabled, kept.divider, kept.period⟩, kept.cleared⟩

theorem waitRead_calm {polls : Nat} (valid : channel < 6) (waited : waitRead env polls board = some after) :
    Calm env channel board after := by
  induction polls generalizing board with
  | zero => cases waited
  | succ polls ih =>
    rw [waitRead] at waited
    dsimp only at waited
    split at waited
    · exact (settle_calm valid).trans (ih waited)
    · obtain rfl := Option.some.inj waited
      exact settle_calm valid

theorem timer3Less_calm {polls : Nat} {less : Word} (valid : channel < 6)
    (found : board.timer3Less env polls = some (less, after)) : Calm env channel board after := by
  rw [timer3Less] at found
  dsimp only at found
  split at found
  · obtain ⟨_, rfl⟩ := Prod.mk.inj (Option.some.inj found)
    exact (settle_calm valid).trans (settle_calm valid)
  · obtain ⟨waited, done, last⟩ := Option.map_eq_some_iff.mp found
    obtain ⟨_, rfl⟩ := Prod.mk.inj last
    exact ((settle_calm valid).trans (waitRead_calm valid done)).trans (settle_calm valid)

/-- The last of some changes writes the interrupt bit back; when an earlier one has cleared it, it was up by then. -/
theorem writtenBack_cleared {group : Group} {change : Word → Word} {middle : Board} (valid : channel < 6)
    (own : groupOf channel = group) (back : ∀ word, (change word).getLsbD (timerctlIntPosi + indexOf channel) =
      word.getLsbD (timerctlIntPosi + indexOf channel)) (passes : Passes env channel board middle)
    (early : middle.cleared channel ≠ board.cleared channel → Comes env channel board middle.access) :
    (middle.modifyCtl env group change).cleared channel = board.cleared channel ↔
      ¬Comes env channel board (middle.access + 1) := by
  rw [passes.cleared_iff (modifyCtl_passes valid), modifyCtl_writtenBack valid own back]
  have settled : Passes env channel board (middle.settle env) := passes.trans (settle_passes valid)
  constructor
  · rintro ⟨kept, idle⟩ comes
    exact idle ((settled.comes kept).mpr comes)
  · intro idle
    have kept : middle.cleared channel = board.cleared channel := by
      apply Classical.byContradiction
      exact fun lost => idle ((early lost).mono (Nat.le_succ _))
    exact ⟨kept, fun up => idle ((settled.comes kept).mp up)⟩

/-! ## The timers of the fast clock -/

/-- The saved register is no part of what is left of a channel. -/
theorem undisturbed_saved {value : Word} :
    Undisturbed env channel board { after with timer02EnValue := value } ↔ Undisturbed env channel board after :=
  ⟨fun kept => ⟨kept.enabled, kept.divider, kept.period, kept.pending, kept.cleared⟩,
    fun kept => ⟨kept.enabled, kept.divider, kept.period, kept.pending, kept.cleared⟩⟩

theorem timerctlClkdivMask_getLsbD {k : Nat} (inside : k < 32) : timerctlClkdivMask.getLsbD k = decide (k < 3) := by
  have field : (timerctlClkdivMask <<< 0).getLsbD k = decide (0 ≤ k ∧ k < 0 + 3) :=
    @OneToClear.getLsbD_field 32 k 0 3 inside
  rw [BitVec.shiftLeft_zero] at field
  rw [field]
  simp

theorem masked_getLsbD {k : Nat} (word : Word) (inside : k < 32) :
    (word &&& ~~~timerctlClkdivMask).getLsbD k = (word.getLsbD k && !decide (k < 3)) := by
  rw [BitVec.getLsbD_and, BitVec.getLsbD_not, timerctlClkdivMask_getLsbD inside, decide_eq_true inside, Bool.true_and]

/-- The timers of the group are stopped, and what is found set of their interrupts is cleared. -/
theorem psTimer02Disable_undisturbed (valid : channel < 6) :
    Undisturbed env channel board (board.psTimer02Disable env) ↔
      (channel < 3 → board.enabled channel = false ∧ ¬Comes env channel board (board.access + 1)) := by
  have written : board.psTimer02Disable env =
      { board.modifyCtl env .timer0_2 fun reg => reg &&& ~~~timerctlClkdivMask with
        timer02EnValue := (board.settle env).ctl .timer0_2 } := rfl
  rw [written, undisturbed_saved]
  by_cases low : channel < 3
  · have own : groupOf channel = .timer0_2 := groupOf_low low
    have small := indexOf_lt valid
    have back : ∀ word : Word, (word &&& ~~~timerctlClkdivMask).getLsbD (timerctlIntPosi + indexOf channel) =
        word.getLsbD (timerctlIntPosi + indexOf channel) := by
      intro word
      rw [timerctlIntPosi, masked_getLsbD word (by omega), decide_eq_false (by omega)]
      exact Bool.and_true _
    have divider : (board.modifyCtl env .timer0_2 fun reg => reg &&& ~~~timerctlClkdivMask).divider channel =
        board.divider channel := by
      rw [modifyCtl_divider own, ← own]
      refine Eq.trans (divider_congr fun k from3 to6 => ?_) (@settle_divider env board channel)
      rw [masked_getLsbD _ (by omega), decide_eq_false (by omega)]
      exact Bool.and_true _
    rw [undisturbed_iff (modifyCtl_passes valid), modifyCtl_enabled own valid, masked_getLsbD _ (by omega), decide_eq_true small,
      writtenBack_cleared valid own back Passes.refl fun lost => absurd rfl lost]
    constructor
    · rintro ⟨stopped, _, _, idle⟩ _
      exact ⟨stopped.symm.trans (Bool.and_false _), idle⟩
    · intro spared
      exact ⟨(Bool.and_false _).trans (spared low).1.symm, divider, rfl, (spared low).2⟩
  · have other : groupOf channel ≠ .timer0_2 := by
      rw [groupOf_high low]
      decide
    obtain ⟨framed, cleared⟩ := (modifyCtl_other other valid : Framed channel board _ ∧ _)
    exact iff_of_true ((undisturbed_of_framed (modifyCtl_passes valid) framed).mpr cleared) fun yes => absurd yes low

/-- The saved register is written over the timers of the group. -/
theorem psTimer02Restore_undisturbed (valid : channel < 6) :
    Undisturbed env channel board (board.psTimer02Restore env) ↔
      (channel < 3 → board.timer02EnValue.getLsbD (indexOf channel) = board.enabled channel ∧
        board.timer02EnValue.extractLsb' timerctlClkdivPosi 3 = board.divider channel ∧
        ¬(Comes env channel board (board.access + 1) ∧
          board.timer02EnValue.getLsbD (timerctlIntPosi + indexOf channel) = true)) := by
  have passes : Passes env channel board (board.psTimer02Restore env) := writeCtl_passes valid
  rw [undisturbed_iff passes]
  have small := indexOf_lt valid
  by_cases low : channel < 3
  · have own : groupOf channel = .timer0_2 := groupOf_low low
    have enabled : (board.psTimer02Restore env).enabled channel = board.timer02EnValue.getLsbD (indexOf channel) := by
      rw [enabled, own]
      exact writeCtl_low (by omega)
    have divider : (board.psTimer02Restore env).divider channel =
        board.timer02EnValue.extractLsb' timerctlClkdivPosi 3 := by
      rw [divider, own]
      exact divider_congr fun _ _ high => writeCtl_low (by omega)
    have settled : (board.settle env).pending channel = true ↔ Comes env channel board (board.access + 1) :=
      (settle_passes valid).comes rfl
    have cleared : (board.psTimer02Restore env).cleared channel = board.cleared channel ↔ _ := writeCtl_cleared
    show (board.psTimer02Restore env).enabled channel = _ ∧ (board.psTimer02Restore env).divider channel = _ ∧ _ ∧
      (board.psTimer02Restore env).cleared channel = _ ↔ _
    rw [enabled, divider, cleared, settled]
    constructor
    · rintro ⟨same, sameDivider, _, kept⟩ _
      exact ⟨same, sameDivider, fun hit => kept ⟨own, hit⟩⟩
    · intro spared
      obtain ⟨same, sameDivider, kept⟩ := spared low
      exact ⟨same, sameDivider, rfl, fun hit => kept hit.2⟩
  · have other : groupOf channel ≠ .timer0_2 := by
      rw [groupOf_high low]
      decide
    obtain ⟨framed, cleared⟩ := (writeCtl_elsewhere other valid :
      Framed channel board (board.psTimer02Restore env) ∧ _)
    exact iff_of_true ⟨framed.enabled, framed.divider, framed.period, cleared⟩ fun yes => absurd yes low

/-! ## Timer 3 -/

theorem started_getLsbD {k : Nat} (word : Word) (other : k ≠ 0) :
    (word ||| timerctl3EnBit).getLsbD k = word.getLsbD k := by
  rw [BitVec.getLsbD_or, timerctl3EnBit, BitVec.getLsbD_one, decide_eq_false other]
  simp

theorem stopped_getLsbD {k : Nat} (word : Word) (inside : k < 32) (other : k ≠ 0) :
    (word &&& ~~~timerctl3EnBit).getLsbD k = word.getLsbD k := by
  rw [BitVec.getLsbD_and, BitVec.getLsbD_not, timerctl3EnBit, BitVec.getLsbD_one, decide_eq_false other]
  simp [inside]

/-- Timer 3 is the first of its group. -/
theorem indexOf_pos (high : ¬channel < 3) (different : channel ≠ 3) : indexOf channel ≠ 0 := by
  rw [indexOf_high high]
  omega

theorem started_framed (valid : channel < 6) (different : channel ≠ 3) :
    Framed channel board (board.modifyCtl env .timer3_5 fun reg => reg ||| timerctl3EnBit) := by
  refine modifyCtl_framed valid fun own => ⟨fun word => ?_, fun word k from3 _ => started_getLsbD word (by omega)⟩
  have high : ¬channel < 3 := fun low => nomatch (groupOf_low low).symm.trans own
  exact started_getLsbD word (indexOf_pos high different)

theorem stopped_framed (valid : channel < 6) (different : channel ≠ 3) :
    Framed channel board (board.modifyCtl env .timer3_5 fun reg => reg &&& ~~~timerctl3EnBit) := by
  refine modifyCtl_framed valid fun own =>
    ⟨fun word => ?_, fun word k from3 to6 => stopped_getLsbD word (by omega) (by omega)⟩
  have high : ¬channel < 3 := fun low => nomatch (groupOf_low low).symm.trans own
  have small := indexOf_lt valid
  exact stopped_getLsbD word (by omega) (indexOf_pos high different)

theorem started_cleared {middle : Board} (valid : channel < 6) (high : ¬channel < 3)
    (passes : Passes env channel board middle)
    (early : middle.cleared channel ≠ board.cleared channel → Comes env channel board middle.access) :
    (middle.modifyCtl env .timer3_5 fun reg => reg ||| timerctl3EnBit).cleared channel = board.cleared channel ↔
      ¬Comes env channel board (middle.access + 1) :=
  writtenBack_cleared valid (groupOf_high high)
    (fun word => started_getLsbD word (by unfold timerctlIntPosi; omega)) passes early

theorem stopped_cleared {middle : Board} (valid : channel < 6) (high : ¬channel < 3)
    (passes : Passes env channel board middle)
    (early : middle.cleared channel ≠ board.cleared channel → Comes env channel board middle.access) :
    (middle.modifyCtl env .timer3_5 fun reg => reg &&& ~~~timerctl3EnBit).cleared channel = board.cleared channel ↔
      ¬Comes env channel board (middle.access + 1) := by
  have small := indexOf_lt valid
  exact writtenBack_cleared valid (groupOf_high high) (fun word => stopped_getLsbD word
    (by unfold timerctlIntPosi; omega) (by unfold timerctlIntPosi; omega)) passes early

theorem askTimer3_calm (valid : channel < 6) : Calm env channel board (board.askTimer3 env) :=
  (settle_calm valid).trans (writeReadCtl_calm valid)

/-- Timer 3 gets a period and is started. What comes before has cleared only what was up by then. -/
theorem restarted_undisturbed {middle : Board} {period : Word} (valid : channel < 6) (different : channel ≠ 3)
    (passes : Passes env channel board middle) (framed : Framed channel board middle)
    (early : middle.cleared channel ≠ board.cleared channel → ¬channel < 3 ∧ Comes env channel board middle.access) :
    Undisturbed env channel board
        ((middle.writeCnt env 3 period).modifyCtl env .timer3_5 fun reg => reg ||| timerctl3EnBit) ↔
      (¬channel < 3 → ¬Comes env channel board (middle.access + 2)) := by
  have written : Calm env channel middle (middle.writeCnt env 3 period) := writeCnt_calm valid different
  have started := @started_framed env (middle.writeCnt env 3 period) channel valid different
  have passed : Passes env channel board (middle.writeCnt env 3 period) := passes.trans written.toPasses
  rw [undisturbed_of_framed (passed.trans (modifyCtl_passes valid)) ((framed.trans written.toFramed).trans started)]
  by_cases low : channel < 3
  · have other : groupOf channel ≠ .timer3_5 := by
      rw [groupOf_low low]
      decide
    have kept : middle.cleared channel = board.cleared channel := by
      apply Classical.byContradiction
      exact fun lost => (early lost).1 low
    refine iff_of_true ?_ fun no => absurd low no
    exact ((modifyCtl_other other valid).2.trans written.same).trans kept
  · have up : (middle.writeCnt env 3 period).cleared channel ≠ board.cleared channel →
        Comes env channel board (middle.writeCnt env 3 period).access := by
      intro lost
      rw [written.same] at lost
      exact (early lost).2.mono written.later
    rw [started_cleared valid low passed up]
    exact ⟨fun idle _ => idle, fun idle => idle low⟩

/-- Both ways through the function write back the interrupts of timers 4 and 5. -/
theorem psTimer3Enable_undisturbed {period : Word} (valid : channel < 6) (different : channel ≠ 3) :
    Undisturbed env channel board (board.psTimer3Enable env period) ↔
      (¬channel < 3 → ¬Comes env channel board ((board.psTimer3Enable env period).access - 1)) := by
  have asked : Calm env channel board (board.askTimer3 env) := askTimer3_calm valid
  unfold psTimer3Enable
  dsimp only
  split
  · refine restarted_undisturbed valid different (asked.toPasses.trans (modifyCtl_passes valid))
      (asked.toFramed.trans (stopped_framed valid different)) fun lost => ?_
    by_cases low : channel < 3
    · have other : groupOf channel ≠ .timer3_5 := by
        rw [groupOf_low low]
        decide
      exact absurd ((modifyCtl_other other valid).2.trans asked.same) lost
    · refine ⟨low, Classical.byContradiction fun idle => lost ?_⟩
      rw [stopped_cleared valid low asked.toPasses fun changed => absurd asked.same changed]
      exact fun comes => idle (comes.mono (Nat.le_succ _))
  · exact restarted_undisturbed valid different asked.toPasses asked.toFramed fun changed => absurd asked.same changed

/-- The change that stops timer 3 and writes no interrupt bit. -/
theorem stoppedQuietly_confined :
    Confined (indexOf 3) fun reg : Word => (reg &&& ~~~timerctl3EnBit) &&& ~~~(0x7#32 <<< timerctlIntPosi) := by
  refine Confined.of_masked (fun word k inside enable _ => ?_) (by decide)
  rw [BitVec.getLsbD_and, stopped_getLsbD word inside enable, BitVec.getLsbD_not, decide_eq_true inside, Bool.true_and,
    intBits]

/-- Timer 3 is stopped quietly, but when it counts the ticks it is started in the way of `psTimer3Enable`. -/
theorem psTimer3Disable_undisturbed {polls : Nat} {less : Word} (valid : channel < 6) (different : channel ≠ 3)
    (stopped : board.psTimer3Disable env polls = some (less, after)) :
    Undisturbed env channel board after ↔
      (¬channel < 3 → env.fclkGetTickId = bkTimerId3 → ¬Comes env channel board (after.access - 1)) := by
  obtain ⟨⟨counted, read⟩, found, last⟩ := Option.map_eq_some_iff.mp stopped
  have quiet : Calm env channel read (read.modifyCtl env .timer3_5 _) :=
    @modifyCtl_calm env read channel _ 3 stoppedQuietly_confined (by decide) valid different
  have calm := (timer3Less_calm valid found).trans quiet
  obtain ⟨_, rfl⟩ := Prod.mk.inj last
  split
  next tick =>
    rw [restarted_undisturbed valid different calm.toPasses calm.toFramed fun changed => absurd calm.same changed]
    exact ⟨fun idle high _ => idle high, fun idle high => idle high tick⟩
  next other => exact iff_of_true calm.undisturbed fun _ tick => absurd tick other

end Board

end BekenSdk.HwTimer
