import Mathlib.Data.UInt
import BekenSdk.Base.Machine

/-! Temperature and voltage detection (temp_detect.c): a periodic timer, a task with a queue of messages, and the
interrupt of the ADC. What the samples are averaged to goes to the calibration and decides nothing here.
-/

set_option autoImplicit false

namespace BekenSdk.TempDetect

/-- The configuration that is compiled, and the flash that is found. -/
structure Build where
  /-- CFG_USE_TEMPERATURE_DETECT and CFG_USE_VOLTAGE_DETECT; the file is empty without one of them. -/
  temp : Bool
  volt : Bool
  some : temp = true ∨ volt = true
  /-- CFG_USE_MCU_PS without CFG_LOW_VOLTAGE_PS. -/
  mcuPs : Bool
  /-- flash_support_wide_voltage. -/
  wideVoltage : Bool
  /-- The samples that are dropped, and the one that is invalid besides 0. -/
  skip : Nat
  invalid : UInt16
  /-- ADC_TMEP_LSB_PER_10DEGREE. -/
  lsbPer10Degree : UInt16

namespace Build
variable (build : Build)

def detectIntvalInit : UInt16 := if build.temp && build.volt then 2 else 1

def detectIntvalChange : UInt32 := if build.temp && build.volt then 60 else 120

end Build

def adcTmepDetectIntval : UInt32 := 15

inductive Channel where
  | temp
  | volt
  deriving DecidableEq

inductive Msg where
  | pauseTimer
  | restartTimer
  | changeParam
  | tmpdTimerPoll
  | tmpdIntPoll
  | voltTimerPoll
  | voltIntPoll
  deriving DecidableEq

structure Detect where
  timerRunning : Bool
  /-- `tmp_detect_hdl` is valid. -/
  opened : Bool
  channel : Channel
  queue : List Msg
  detectIntval : UInt16
  detectThre : UInt16
  distInital : UInt16
  detectIntvalChange : UInt32
  /-- `center_bias_hold_state`. -/
  hold : UInt8
  /-- The measurements started, the results for which the hold was released, and whether the last of pausing and
  restarting was pausing. -/
  started : Nat
  released : Nat
  paused : Bool

def mcuPsCbHoldOn (type hold : UInt8) : UInt8 := if hold = 0 then type else hold

namespace Detect
variable (build : Build) (s : Detect)

/-- `room` is whether rtos_push_to_queue finds some. -/
def sendMsg (room : Bool) (msg : Msg) : Detect := if room then { s with queue := s.queue ++ [msg] } else s

/-- `opens` is whether the ADC is free and can be opened. -/
def enable (channel : Channel) (opens : Bool) : Bool × Detect :=
  if s.opened then (true, s)
  else
    let stopped := { s with timerRunning := false, channel }
    if opens then (true, { stopped with opened := true, started := s.started + 1 }) else (false, stopped)

/-- temp_detect_timer_poll and volt_detect_timer_poll. -/
def timerPoll (channel : Channel) (type : UInt8) (opens : Bool) : Detect :=
  match s.enable channel opens with
  | (false, s) => { s with timerRunning := true }
  | (true, s) => if build.mcuPs then { s with hold := mcuPsCbHoldOn type s.hold } else s

def release : Detect := if build.mcuPs then { s with hold := 0, released := s.released + 1 } else s

def tempPollingHandler (room : Bool) : Detect :=
  let s := { s with detectIntvalChange := s.detectIntvalChange + 1 }
  let s :=
    if s.detectIntvalChange = build.detectIntvalChange then s.sendMsg room .changeParam
    else if build.volt && build.wideVoltage then s.sendMsg room .voltTimerPoll
    else { s with timerRunning := true }
  s.release build

def voltPollingHandler : Detect := release build { s with timerRunning := true }

/-- temp_detect_change_configuration; the parameters are wider than the fields. -/
def changeConfiguration (intval thre dist : UInt32) : Detect :=
  let intval := if intval = 0 then adcTmepDetectIntval else intval
  let thre := if thre = 0 then build.lsbPer10Degree.toUInt32 else thre
  let s := { s with detectThre := thre.toUInt16, distInital := dist.toUInt16 }
  if s.detectIntval.toUInt32 ≠ intval then { s with detectIntval := intval.toUInt16, timerRunning := true } else s

/-- A message of the task's loop; what is not compiled is ignored. -/
def handle (opens room : Bool) : Msg → Detect
  | .pauseTimer => { s with timerRunning := false, paused := true }
  | .restartTimer => { s with timerRunning := true, paused := false }
  | .changeParam => s.changeConfiguration build adcTmepDetectIntval s.detectThre.toUInt32 0
  | .tmpdTimerPoll => if build.temp then s.timerPoll build .temp 1 opens else s
  | .tmpdIntPoll => if build.temp then s.tempPollingHandler build room else s
  | .voltTimerPoll => if build.volt then s.timerPoll build .volt 2 opens else s
  | .voltIntPoll => if build.volt then s.voltPollingHandler build else s

def timerHandler (room : Bool) : Detect := s.sendMsg room (if build.temp then .tmpdTimerPoll else .voltTimerPoll)

/-- A sample that goes into the average. -/
def isValid (sample : UInt16) : Bool := sample ≠ 0 ∧ sample ≠ build.invalid

/-- The interrupt with the last sample. -/
def detectHandler (pData : List UInt16) (room : Bool) : Detect :=
  if s.opened = false then s
  else
    let s := { s with opened := false }
    let count := (pData.drop build.skip).countP (isValid build)
    if count = 0 then s
    else s.sendMsg room (if s.channel = .volt then .voltIntPoll else .tmpdIntPoll)

def pauseTimer (room : Bool) : Detect := if s.timerRunning then s.sendMsg room .pauseTimer else s

def restartDetect (room : Bool) : Detect := if s.timerRunning then s else s.sendMsg room .restartTimer

/-- The start of temp_detect_main. -/
def start : Detect :=
  { timerRunning := true
    opened := false
    channel := .temp
    queue := []
    detectIntval := build.detectIntvalInit
    detectThre := build.lsbPer10Degree
    distInital := 0
    detectIntvalChange := 0
    hold := 0
    started := 0
    released := 0
    paused := false }

end Detect

inductive Event where
  | timerExpires (room : Bool)
  /-- The task takes its next message. -/
  | taken (opens room : Bool)
  | sampled (pData : List UInt16) (room : Bool)
  | configured (intval thre dist : UInt32)
  | pauseRequested (room : Bool)
  | restartRequested (room : Bool)

def step (build : Build) (event : Event) (s : Detect) : Option Detect :=
  match event with
  | .timerExpires room => if s.timerRunning then some (s.timerHandler build room) else none
  | .taken opens room =>
    match s.queue with
    | [] => none
    | msg :: rest => some ({ s with queue := rest }.handle build opens room msg)
  | .sampled pData room => some (s.detectHandler build pData room)
  | .configured intval thre dist => some (s.changeConfiguration build intval thre dist)
  | .pauseRequested room => some (s.pauseTimer room)
  | .restartRequested room => some (s.restartDetect room)

end BekenSdk.TempDetect
