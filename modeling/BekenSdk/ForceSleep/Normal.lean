import BekenSdk.HwTimer.Sleep

/-! The normal sleep of force_mcu_ps.c with the functions of bk_timer_extense.c on timer 3, in builds other than BK7252N
without TOPTASK_BEACON_ALIGN. The sleep itself leaves the timer alone but for its expiry.
-/

set_option autoImplicit false

namespace BekenSdk.ForceSleep
open HwTimer

/-- CFG_LOW_VOLTAGE_PS, CFG_USE_TICK_CAL, and the tick length, which is 2 or, with RT-Thread, 1000 / RT_TICK_PER_SECOND. -/
structure Build where
  lowVoltagePs : Bool
  useTickCal : Bool
  fclkDurationMs : Nat
  pos : 0 < fclkDurationMs
  short : fclkDurationMs ≤ 1000

def bkTimer3 : Word := 3

section
variable (env : Env)

/-- The rate of a channel, by which its counts are divided. -/
def ticksPerMs (ucChannel : Nat) : Word := if ucChannel < 3 then 26000 else 32

/-- Of the functions with a pointer, what they write there, if anything. -/
def bkTimerGetEndTime (channel : Word) (board : Board) : Word × Option Word × Board :=
  let ucChannel := channel.toNat
  if ucChannel > 5 then (bkTimerFailure, none, board)
  else
    let board := board.settle env
    (bkTimerSuccess, some (board.cnt ucChannel / ticksPerMs ucChannel), board)

def bkTimerGetIntStatus (channel : Word) (board : Board) : Word × Option Word × Board :=
  let ucChannel := channel.toNat
  if ucChannel > 5 then (bkTimerFailure, none, board)
  else
    let board := board.settle env
    let value := board.ctl (groupOf ucChannel)
    (bkTimerSuccess, if value &&& (0x1#32 <<< (timerctlIntPosi + indexOf ucChannel)) ≠ 0 then some 1 else none, board)

def bkTimerPreMeasure (channel : Word) (board : Board) : Word × Board :=
  let ucChannel := channel.toNat
  if ucChannel > 5 then (bkTimerFailure, board)
  else
    let value := (BitVec.ofNat 32 (indexOf ucChannel) <<< timer3_5ReadIndexPosi) ||| timer3_5ReadOpBit
    (bkTimerSuccess, board.writeReadCtl env (groupOf ucChannel) value)

/-- The loop of `bk_timer_measure` with the rounds that are left, and whether it ends before they are used up. -/
def measureWait (group : Group) : Nat → Board → Bool × Board
  | 0, board => (false, board)
  | rounds + 1, board =>
    let (reg, board) := board.readReadCtl env group
    if reg &&& timer3_5ReadOpBit ≠ 0 then measureWait group rounds board else (true, board)

/-- The round with number 120 * 1000 + 1 is the last one. -/
def measureRounds : Nat := 120 * 1000 + 1

def bkTimerMeasure (channel : Word) (board : Board) : Word × Option Word × Board :=
  let ucChannel := channel.toNat
  if ucChannel > 5 then (bkTimerFailure, none, board)
  else
    let (done, board) := measureWait env (groupOf ucChannel) measureRounds board
    if done then
      (bkTimerSuccess, some (env.readValue board.access / ticksPerMs ucChannel), board.settle env)
    else (bkTimerFailure, none, board)

def forceMcuPsStartTickTimer (build : Build) (board : Board) : Board :=
  (board.bkTimerEnable env bkTimer3 (BitVec.ofNat 32 build.fclkDurationMs)).2

def forceMcuPsStopTickTimer (board : Board) : Board := (board.bkTimerDisable env bkTimer3).2

def forceMcuPsStartPsTimer (sleepUs : BitVec 64) (board : Board) : Board :=
  let sleepMs := (sleepUs / 1000).setWidth 32
  (board.bkTimerEnable env bkTimer3 sleepMs).2

/-- `stack` is what `sleep_ms` is before it is written. -/
def forceMcuPsMeasurePsTimer (stack : Word) (board : Board) : Word × Board :=
  let (ret, status, board) := bkTimerGetIntStatus env bkTimer3 board
  let hasFinish := status.getD 0
  let board := if ret = bkTimerSuccess ∧ hasFinish = 0 then (bkTimerPreMeasure env bkTimer3 board).2 else board
  let board := (board.bkTimerDisable env bkTimer3).2
  let (_, countMs, board) :=
    if ret = bkTimerSuccess ∧ hasFinish = 0 then bkTimerMeasure env bkTimer3 board
    else bkTimerGetEndTime env bkTimer3 board
  (countMs.getD stack * 1000, board)

/-- `mcu_ps_cal_increase_tick`: the ticks with the correction that is pending. -/
def mcuPsCalIncreaseTick (increaseTick lost : Word) : Word :=
  if lost.toInt ≤ 0 ∨ increaseTick = 0 then lost
  else if (lost + increaseTick).slt 0 then 0
  else lost + increaseTick

/-- The board when the timer has been started and when the sleep is over, and the ticks for `fclk_update_tick`. -/
structure Slept where
  started : Board
  after : Board
  sleepTick : Word

/-- `force_mcu_ps` in MCU_NORMAL_SLEEP. -/
def forceMcuPs (build : Build) (stack increaseTick : Word) (sleepUs : BitVec 64) (board : Board) : Slept :=
  let board := forceMcuPsStopTickTimer env board
  let started := forceMcuPsStartPsTimer env sleepUs board
  let (us, board) := forceMcuPsMeasurePsTimer env stack started
  let sleepUs : BitVec 64 := us.setWidth 64
  let board := forceMcuPsStartTickTimer env build board
  let sleepMs := (sleepUs / 1000).setWidth 32
  let sleepTick := sleepMs / BitVec.ofNat 32 build.fclkDurationMs
  let sleepTick :=
    if build.useTickCal && !build.lowVoltagePs then mcuPsCalIncreaseTick increaseTick sleepTick else sleepTick
  ⟨started, board, sleepTick⟩

/-- `bk_force_instant_lowvol_sleep` in MCU_NORMAL_SLEEP, with the sleep time in seconds. -/
def bkForceInstantLowvolSleep (build : Build) (stack increaseTick sleepTime : Word) (board : Board) : Slept :=
  let sleepUs : BitVec 64 := if sleepTime ≠ 0 then 1000 * 1000 * sleepTime.setWidth 64 else 0
  forceMcuPs env build stack increaseTick sleepUs board

end

/-! ## The slow-clock timer -/

def roscTimerIntStatusBit : Word := 1#32 <<< 8
def roscTimerEnableBit : Word := 1#32 <<< 0
def roscTimerPeriodPosi : Nat := 16
def roscTimerPeriodMask : Word := 0xFFFF
def roscTimerHPeriodPosi : Nat := 0
def roscTimerHPeriodMask : Word := 0xFFFF

/-- SCTRL_ROSC_TIMER, SCTRL_ROSC_TIMER_H, and whether fast and normal interrupts are enabled. -/
structure Slow where
  roscTimer : Word
  roscTimerH : Word
  fiq : Bool
  irq : Bool

/-- The division by 31.25 in floating point is exact enough below 2³² µs, where it is used. -/
def roscTicks (sleepUs : BitVec 64) : Word := BitVec.ofNat 32 (sleepUs.toNat * 4 / 125)

def mcuSleepSetRoscTimer (sleepUs : BitVec 64) (slow : Slow) : Slow :=
  let (fiqTmp, irqTmp) := (!slow.fiq, !slow.irq)
  let slow := { slow with fiq := false, irq := false }
  if sleepUs < 32 then slow
  else
    let value := roscTicks sleepUs
    let valueH := (value &&& 0xffff0000) >>> 16
    let valueL := value &&& 0x0000ffff
    let slow := { slow with roscTimer := slow.roscTimer ||| roscTimerIntStatusBit }
    let reg := slow.roscTimerH &&& ~~~(roscTimerHPeriodMask <<< roscTimerHPeriodPosi)
    let reg := reg ||| ((valueH &&& roscTimerHPeriodMask) <<< roscTimerHPeriodPosi)
    let slow := { slow with roscTimerH := reg }
    let reg := slow.roscTimer &&& ~~~(roscTimerPeriodMask <<< roscTimerPeriodPosi)
    let reg := reg ||| ((valueL &&& roscTimerPeriodMask) <<< roscTimerPeriodPosi)
    let reg := reg ||| roscTimerEnableBit
    let slow := { slow with roscTimer := reg }
    { slow with fiq := slow.fiq || !fiqTmp, irq := slow.irq || !irqTmp }

/-- `force_mcu_ps_set_wakeup_time` at a time of `rtos_get_time_us`. -/
def forceMcuPsSetWakeupTime (build : Build) (curTimeUs wakeupTimeUs : BitVec 64) (slow : Slow) : Word × Slow :=
  if build.lowVoltagePs then
    if curTimeUs ≥ wakeupTimeUs then (0, slow)
    else
      let sleepUs : Word := (wakeupTimeUs - curTimeUs).setWidth 32
      (1, mcuSleepSetRoscTimer (sleepUs.setWidth 64) slow)
  else (1, slow)

end BekenSdk.ForceSleep
