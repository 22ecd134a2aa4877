import BekenSdk.HwTimer.Registers

/-! Operations on one timer channel (bk_timer.c, bk_timer_extense.c). CMD_TIMER_READ_CNT touches no register of another
channel and is left out.
-/

set_option autoImplicit false

namespace BekenSdk.HwTimer

open BekenSdk.Base

def bkTimerFailure : Word := 1

def bkTimerSuccess : Word := 0

/-- timer_param_t, with a number for the handler or NULL. -/
structure TimerParam where
  channel : BitVec 8
  div : BitVec 8
  period : Word
  tIntHandler : Option Nat

/-- The products and quotients are those of 32 bits; only the variable has 64. -/
def bkTimerCalEndvalue (ucChannel : Nat) (timeMs div : Word) : Word :=
  let div := if div = 0 then 1 else div
  -- 26m clock, 32k clock
  let value : BitVec 64 := (if ucChannel < 3 then timeMs * 26000 / div else timeMs * 32 / div).setWidth 64
  let value := if value > 0xffffffff then 0xffffffff else value
  value.setWidth 32

def bkTimerCalEndvalueUs (timeUs div : Word) : Word :=
  let div := if div = 0 then 1 else div
  let value : BitVec 64 := (timeUs * 26 / div).setWidth 64
  let value := if value > 0xffffffff then 0xffffffff else value
  value.setWidth 32

/-- `div - 1`, an int. -/
def clkdivField (div : BitVec 8) : Word := BitVec.ofInt 32 (Int.ofNat div.toNat - 1)

/-- The control register with the divider of the parameters and the channel enabled. -/
def initialised (div : BitVec 8) (index : Nat) (value : Word) : Word :=
  (value &&& ~~~(timerctlClkdivMask <<< timerctlClkdivPosi)) ||| (clkdivField div <<< timerctlClkdivPosi) |||
    (1#32 <<< index)

namespace Board
variable (env : Env)

def setHandler (ucChannel : Nat) (handler : Option Nat) (board : Board) : Board :=
  { board with intHandler := fun other => if other = ucChannel then handler else board.intHandler other }

def initTimerParam (param : TimerParam) (board : Board) : Word × Board :=
  let ucChannel := param.channel.toNat
  if ucChannel > 5 then (bkTimerFailure, board)
  else
    let board := board.setHandler ucChannel param.tIntHandler
    let board := board.writeCnt env ucChannel (bkTimerCalEndvalue ucChannel param.period (param.div.setWidth 32))
    if ucChannel < 3 then (bkTimerSuccess, board.modifyCtl env .timer0_2 (initialised param.div ucChannel))
    else (bkTimerSuccess, board.modifyCtl env .timer3_5 (initialised param.div (ucChannel - 3)))

def initTimerParamUs (param : TimerParam) (board : Board) : Word × Board :=
  let ucChannel := param.channel.toNat
  if ucChannel > 2 then (bkTimerFailure, board)
  else
    let board := board.setHandler ucChannel param.tIntHandler
    let board := board.writeCnt env ucChannel (bkTimerCalEndvalueUs param.period (param.div.setWidth 32))
    (bkTimerSuccess, board.modifyCtl env .timer0_2 (initialised param.div ucChannel))

end Board

inductive Cmd where
  | timerUnitEnable (ucChannel : Word)
  | timerUnitDisable (ucChannel : Word)
  | timerInitParam (param : TimerParam)
  | timerInitParamUs (param : TimerParam)

def unitEnabled (index : Nat) (value : Word) : Word :=
  let value := value ||| (1#32 <<< index)
  let value := value &&& ~~~(0x7#32 <<< timerctlIntPosi)
  value ||| (0x1#32 <<< (timerctlIntPosi + index))

def unitDisabled (index : Nat) (value : Word) : Word :=
  let value := value &&& ~~~(0x7#32 <<< timerctlIntPosi)
  let value := value &&& ~~~(1#32 <<< index)
  value ||| (0x1#32 <<< (timerctlIntPosi + index))

/-- The change of bk_timer_enable. -/
def timerEnabled (index : Nat) (value : Word) : Word :=
  let value := value &&& ~~~(0x7#32 <<< timerctlIntPosi)
  let value := value ||| (1#32 <<< index)
  value ||| (0x1#32 <<< (timerctlIntPosi + index))

namespace Board
variable (env : Env)

def bkTimerCtrl (cmd : Cmd) (board : Board) : Word × Board :=
  match cmd with
  | .timerUnitEnable channel =>
    let ucChannel := channel.toNat
    if ucChannel > 5 then (bkTimerFailure, board)
    else if ucChannel < 3 then (bkTimerSuccess, board.modifyCtl env .timer0_2 (unitEnabled ucChannel))
    else (bkTimerSuccess, board.modifyCtl env .timer3_5 (unitEnabled (ucChannel - 3)))
  | .timerUnitDisable channel =>
    let ucChannel := channel.toNat
    if ucChannel > 5 then (bkTimerFailure, board)
    else if ucChannel < 3 then (bkTimerSuccess, board.modifyCtl env .timer0_2 (unitDisabled ucChannel))
    else (bkTimerSuccess, board.modifyCtl env .timer3_5 (unitDisabled (ucChannel - 3)))
  | .timerInitParam param => board.initTimerParam env param
  | .timerInitParamUs param => board.initTimerParamUs env param

def bkTimerDisable (channel : Word) (board : Board) : Word × Board :=
  let ucChannel := channel.toNat
  if ucChannel > 5 then (bkTimerFailure, board)
  else if ucChannel < 3 then (bkTimerSuccess, board.modifyCtl env .timer0_2 (unitDisabled ucChannel))
  else (bkTimerSuccess, board.modifyCtl env .timer3_5 (unitDisabled (ucChannel - 3)))

def bkTimerEnable (channel delayMs : Word) (board : Board) : Word × Board :=
  let ucChannel := channel.toNat
  if ucChannel > 5 then (bkTimerFailure, board)
  else if ucChannel < 3 then
    let board := board.writeCnt env ucChannel (delayMs * 26000)
    (bkTimerSuccess, board.modifyCtl env .timer0_2 (timerEnabled ucChannel))
  else
    let board := board.writeCnt env ucChannel (delayMs * 32)
    (bkTimerSuccess, board.modifyCtl env .timer3_5 (timerEnabled (ucChannel - 3)))

end Board

/-! ## The changes of the control register -/

/-- A change that leaves what belongs to the other channels of the register, and writes zeros to their interrupt bits. -/
structure Confined (index : Nat) (change : Word → Word) : Prop where
  other : ∀ word k, k < 6 → k ≠ index → (change word).getLsbD k = word.getLsbD k
  quiet : ∀ word k, 7 ≤ k → k < 10 → k ≠ timerctlIntPosi + index → (change word).getLsbD k = false

/-- Away from the bits of its channel the change is a mask of the interrupt bits. -/
theorem Confined.of_masked {index : Nat} {change : Word → Word}
    (masked : ∀ word k, k < 32 → k ≠ index → k ≠ timerctlIntPosi + index →
      (change word).getLsbD k = (word.getLsbD k && !intBits.getLsbD k)) (small : index < 3) : Confined index change where
  other word k low different := by
    rw [masked word k (by omega) different (by unfold timerctlIntPosi; omega), intBits_low (by omega)]
    exact Bool.and_true _
  quiet word k low high different := by
    rw [masked word k (by omega) (by omega) different, intBits_getLsbD (by omega)]
    simp [low, high]

section
variable {index : Nat}

theorem unitEnabled_confined (small : index < 3) : Confined index (unitEnabled index) := by
  refine Confined.of_masked (fun word k inside enable int => ?_) small
  rw [unitEnabled, BitVec.getLsbD_or, BitVec.getLsbD_and, BitVec.getLsbD_or, BitVec.getLsbD_not,
    OneToClear.getLsbD_bit inside, OneToClear.getLsbD_bit inside]
  simp [inside, enable, int, intBits]

theorem unitDisabled_confined (small : index < 3) : Confined index (unitDisabled index) := by
  refine Confined.of_masked (fun word k inside enable int => ?_) small
  rw [unitDisabled, BitVec.getLsbD_or, BitVec.getLsbD_and, BitVec.getLsbD_and, BitVec.getLsbD_not, BitVec.getLsbD_not,
    OneToClear.getLsbD_bit inside, OneToClear.getLsbD_bit inside]
  simp [inside, enable, int, intBits]

theorem timerEnabled_confined (small : index < 3) : Confined index (timerEnabled index) := by
  refine Confined.of_masked (fun word k inside enable int => ?_) small
  rw [timerEnabled, BitVec.getLsbD_or, BitVec.getLsbD_or, BitVec.getLsbD_and, BitVec.getLsbD_not,
    OneToClear.getLsbD_bit inside, OneToClear.getLsbD_bit inside]
  simp [inside, enable, int, intBits]

end

/-- Channels of one group that differ have different places in it. -/
theorem indexOf_ne {channel other : Nat} (same : groupOf other = groupOf channel) (different : other ≠ channel) :
    indexOf other ≠ indexOf channel := by
  unfold groupOf at same
  unfold indexOf
  split at same <;> split at same
  · rwa [if_pos ‹other < 3›, if_pos ‹channel < 3›]
  · cases same
  · cases same
  · rw [if_neg ‹¬other < 3›, if_neg ‹¬channel < 3›]
    omega

namespace Board
variable {env : Env} {board : Board} {change : Word → Word} {channel other : Nat}

/-- A confined change on a channel does not disturb another. -/
theorem modifyCtl_confined (confined : Confined (indexOf channel) change) (own : channel < 6) (valid : other < 6)
    (different : other ≠ channel) : Undisturbed env other board (board.modifyCtl env (groupOf channel) change) := by
  have small := indexOf_lt valid
  have place := indexOf_lt own
  rw [undisturbed_of_framed (modifyCtl_passes valid)]
  · apply modifyCtl_quiet
    intro same word
    have apart := indexOf_ne same different
    exact confined.quiet word _ (by unfold timerctlIntPosi; omega) (by unfold timerctlIntPosi; omega) (by omega)
  · refine modifyCtl_framed valid fun same => ⟨fun word => ?_, fun word k low high => ?_⟩
    · exact confined.other word _ (by omega) (indexOf_ne same different)
    · exact confined.other word k high (by omega)

end Board

/-! ## What the parameters of a channel do to the others -/

/-- The interrupt of a channel is up by an access. -/
def Comes (env : Env) (channel : Nat) (board : Board) (last : Nat) : Prop :=
  board.pending channel = true ∨ env.Expires channel board.access last

theorem Passes.comes {env : Env} {channel : Nat} {board after : Board} (passes : Passes env channel board after)
    (kept : after.cleared channel = board.cleared channel) :
    after.pending channel = true ↔ Comes env channel board after.access :=
  passes.pending kept

theorem initialised_getLsbD {div : BitVec 8} {index k : Nat} (word : Word) (inside : k < 32) :
    (initialised div index word).getLsbD k = (word.getLsbD k && !decide (3 ≤ k ∧ k < 6) ||
      (!decide (k < 3) && (clkdivField div).getLsbD (k - 3)) || decide (k = index)) := by
  have field : (timerctlClkdivMask <<< timerctlClkdivPosi).getLsbD k = decide (3 ≤ k ∧ k < 6) :=
    @OneToClear.getLsbD_field 32 k 3 3 inside
  rw [initialised, BitVec.getLsbD_or, BitVec.getLsbD_or, BitVec.getLsbD_and, BitVec.getLsbD_not, field,
    OneToClear.getLsbD_bit inside, BitVec.getLsbD_shiftLeft, decide_eq_true inside, Bool.true_and, Bool.true_and,
    timerctlClkdivPosi]

/-- `div - 1` reaches the interrupt bit of a channel. -/
def Spills (div : BitVec 8) (channel : Nat) : Prop := (clkdivField div).getLsbD (4 + indexOf channel) = true

/-- The parameters leave another channel of the group: they bring the divider that it has, its interrupt is not up
when the control register is read, and does not come up where `div - 1` writes a one. -/
structure InitSpares (env : Env) (div : BitVec 8) (board : Board) (last other : Nat) : Prop where
  divider : board.divider other = (clkdivField div).setWidth 3
  idle : ¬Comes env other board last
  inside : ¬(env.Expires other last (last + 1) ∧ Spills div other)

namespace Board
variable {env : Env} {board : Board} {channel other : Nat} {div : BitVec 8}

theorem initialised_enabled (valid : other < 6) (same : groupOf other = groupOf channel)
    (different : other ≠ channel) :
    (board.modifyCtl env (groupOf channel) (initialised div (indexOf channel))).enabled other = board.enabled other := by
  have small := indexOf_lt valid
  rw [modifyCtl_enabled same valid, initialised_getLsbD _ (by omega), decide_eq_false (indexOf_ne same different),
    decide_eq_true small, decide_eq_false (by omega), ← same]
  simp only [Bool.not_false, Bool.and_true, Bool.not_true, Bool.false_and, Bool.or_false]
  exact settle_enabled valid

theorem initialised_divider (own : channel < 6) (same : groupOf other = groupOf channel) :
    (board.modifyCtl env (groupOf channel) (initialised div (indexOf channel))).divider other =
      (clkdivField div).setWidth 3 := by
  have place := indexOf_lt own
  rw [modifyCtl_divider same]
  apply BitVec.eq_of_getLsbD_eq
  intro k inside
  rw [BitVec.getLsbD_extractLsb', BitVec.getLsbD_setWidth, timerctlClkdivPosi, initialised_getLsbD _ (by omega),
    decide_eq_true inside, decide_eq_true (show 3 ≤ 3 + k ∧ 3 + k < 6 by omega), decide_eq_false (show ¬3 + k < 3 by omega),
    decide_eq_false (show ¬3 + k = indexOf channel by omega), Nat.add_sub_cancel_left]
  simp

theorem initialised_cleared (own : channel < 6) (valid : other < 6) (same : groupOf other = groupOf channel) :
    (board.modifyCtl env (groupOf channel) (initialised div (indexOf channel))).cleared other = board.cleared other ↔
      ¬(board.settle env).pending other = true ∧
        ¬(env.Expires other (board.access + 1) (board.access + 2) ∧ Spills div other) := by
  have small := indexOf_lt valid
  have place := indexOf_lt own
  have bit : ∀ word : Word, (initialised div (indexOf channel) word).getLsbD (timerctlIntPosi + indexOf other) =
      (word.getLsbD (timerctlIntPosi + indexOf other) || (clkdivField div).getLsbD (4 + indexOf other)) := by
    intro word
    have shifted : 7 + indexOf other - 3 = 4 + indexOf other := by omega
    rw [timerctlIntPosi, initialised_getLsbD _ (by omega), decide_eq_false (show ¬(_ ∧ 7 + indexOf other < 6) by omega),
      decide_eq_false (show ¬7 + indexOf other < 3 by omega), shifted,
      decide_eq_false (show ¬7 + indexOf other = indexOf channel by omega)]
    simp
  rw [modifyCtl_cleared, bit, settle_pending valid, Env.expires_one, Spills, ← same]
  show ¬(_ ∧ ((board.settle env).pending other || _) = true ∧ ((board.settle env).pending other || _) = true) ↔ _
  cases (board.settle env).pending other
  · simp [settle]
  · simp

/-- The registers part of both functions that initialise a channel. -/
def initialise (env : Env) (channel : Nat) (div : BitVec 8) (value : Word) (board : Board) : Board :=
  (board.writeCnt env channel value).modifyCtl env (groupOf channel) (initialised div (indexOf channel))

theorem initialise_passes {value : Word} (valid : other < 6) :
    Passes env other board (board.initialise env channel div value) :=
  (writeCnt_passes valid).trans (modifyCtl_passes valid)

theorem initialise_undisturbed {value : Word} (own : channel < 6) (valid : other < 6) (different : other ≠ channel) :
    Undisturbed env other board (board.initialise env channel div value) ↔
      (groupOf other = groupOf channel → InitSpares env div board (board.access + 2) other) := by
  have passes : Passes env other board (board.initialise env channel div value) := initialise_passes valid
  have written : Framed other board (board.writeCnt env channel value) := writeCnt_framed valid different
  by_cases same : groupOf other = groupOf channel
  · have idle : ((board.writeCnt env channel value).settle env).pending other = true ↔
        Comes env other board (board.access + 2) :=
      ((writeCnt_passes valid).trans (settle_passes valid)).comes rfl
    have divider : (board.initialise env channel div value).divider other = (clkdivField div).setWidth 3 :=
      initialised_divider own same
    have cleared : (board.initialise env channel div value).cleared other = board.cleared other ↔
        ¬((board.writeCnt env channel value).settle env).pending other = true ∧
          ¬(env.Expires other (board.access + 2) (board.access + 3) ∧ Spills div other) :=
      initialised_cleared own valid same
    rw [undisturbed_iff passes, divider, cleared, idle]
    constructor
    · rintro ⟨_, sameDivider, _, quiet, inside⟩ _
      exact ⟨sameDivider.symm, quiet, inside⟩
    · intro spares
      have spared := spares same
      exact ⟨(initialised_enabled valid same different).trans written.enabled, spared.divider.symm, written.period,
        spared.idle, spared.inside⟩
  · obtain ⟨framed, cleared⟩ := (modifyCtl_other same valid :
      Framed other (board.writeCnt env channel value) (board.initialise env channel div value) ∧ _)
    exact iff_of_true ((undisturbed_of_framed passes (written.trans framed)).mpr cleared) fun own => absurd own same

/-! ## The operations, on channels that they have -/

theorem groupOf_low (low : channel < 3) : groupOf channel = .timer0_2 := if_pos low

theorem groupOf_high (high : ¬channel < 3) : groupOf channel = .timer3_5 := if_neg high

theorem indexOf_low (low : channel < 3) : indexOf channel = channel := if_pos low

theorem indexOf_high (high : ¬channel < 3) : indexOf channel = channel - 3 := if_neg high

theorem initTimerParam_eq {param : TimerParam} (own : ¬param.channel.toNat > 5) :
    board.initTimerParam env param = (bkTimerSuccess, (board.setHandler param.channel.toNat param.tIntHandler).initialise env
      param.channel.toNat param.div (bkTimerCalEndvalue param.channel.toNat param.period (param.div.setWidth 32))) := by
  rw [initTimerParam, if_neg own, initialise]
  split
  next low => rw [groupOf_low low, indexOf_low low]
  next high => rw [groupOf_high high, indexOf_high high]

theorem initTimerParamUs_eq {param : TimerParam} (own : ¬param.channel.toNat > 2) :
    board.initTimerParamUs env param = (bkTimerSuccess, (board.setHandler param.channel.toNat param.tIntHandler).initialise
      env param.channel.toNat param.div (bkTimerCalEndvalueUs param.period (param.div.setWidth 32))) := by
  have low : param.channel.toNat < 3 := by omega
  rw [initTimerParamUs, if_neg own, initialise, groupOf_low low, indexOf_low low]

/-- The choice between the two control registers. -/
theorem modifyCtl_chosen {change : Nat → Word → Word} :
    (if channel < 3 then (bkTimerSuccess, board.modifyCtl env .timer0_2 (change channel))
      else (bkTimerSuccess, board.modifyCtl env .timer3_5 (change (channel - 3)))) =
      (bkTimerSuccess, board.modifyCtl env (groupOf channel) (change (indexOf channel))) := by
  split
  next low => rw [groupOf_low low, indexOf_low low]
  next high => rw [groupOf_high high, indexOf_high high]

end Board

end BekenSdk.HwTimer
