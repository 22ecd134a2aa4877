import Mathlib.Data.UInt
import BekenSdk.Base.BackwardSort

/-! The elements that low-voltage sleep wakes up for (func/power_save/low_voltage_ps.c,
without CFG_LV_PS_WITH_IDLE_TICK and with Bluetooth). Every element has a callback:
`ps_lv_wifi_cb`, or one of the Bluetooth library. Clock readings and what other parts
answer are inputs; the arithmetic of beacons, which comes to some target time, is not modelled.
-/

set_option autoImplicit false

namespace BekenSdk.LvPs
open Base

/-- LV_TYPE_BT and LV_TYPE_WIFI. -/
inductive LvType where
  | bt
  | wifi
  deriving DecidableEq

/-- LV_PS_ELEMENT_ENV; `block` tells one allocation from the others. -/
structure LvElement where
  block : Nat
  lvType : LvType
  lvTargetTime : UInt64
  deriving DecidableEq

/-- PS_DEEP_WAKEUP_WAY, as far as it is used here. -/
inductive WakeUpWay where
  | null
  | gpio
  | rtc
  deriving DecidableEq

/-- What ends a sleep: a pin, the timer that was set for the element, or both at once. -/
inductive Wake where
  | gpio
  | rtc
  | both
  deriving DecidableEq

/-- The timer is looked at after the pins. -/
def Wake.way : Wake → WakeUpWay
  | .gpio => .gpio
  | .rtc | .both => .rtc

/-- Where a callback is called from. -/
inductive Route where
  /-- The element taken by lv_ps_sleep_check, after a sleep if there was one. -/
  | taken (slept : Option Wake)
  /-- The element behind it. -/
  | chained
  /-- lv_ps_element_check_pass. -/
  | passed
  deriving DecidableEq

/-- A call of an element's callback. -/
structure Call where
  elem : LvElement
  time : UInt64
  route : Route
  deriving DecidableEq

structure State where
  lvElement : List LvElement
  lvPsWakeupWifi : UInt8
  lvPsWakeUpWay : WakeUpWay
  lvPsTargetTime : UInt64
  lvPsCurrentSleepDuration : UInt32
  mcuPsOn : Bool
  /-- How many elements have been allocated. -/
  allocated : Nat
  /-- The latest first, like `freed` and `deleted`. -/
  calls : List Call
  freed : List LvElement
  deleted : List LvElement
  deriving DecidableEq

def State.boot : State where
  lvElement := []
  lvPsWakeupWifi := 1
  lvPsWakeUpWay := .null
  lvPsTargetTime := 0
  lvPsCurrentSleepDuration := 0
  mcuPsOn := false
  allocated := 0
  calls := []
  freed := []
  deleted := []

def Earlier (i j : LvElement) : Prop := i.lvTargetTime ≤ j.lvTargetTime

instance : DecidableRel Earlier := fun i j => inferInstanceAs (Decidable (i.lvTargetTime ≤ j.lvTargetTime))

def insertionSort (head : List LvElement) : List LvElement := backwardSort Earlier head

def mcuSleepDurationMin : UInt64 := 4

/-- `diff` is what is left of the difference in 32 bits. -/
def Passed (elem : LvElement) (now : UInt64) : Prop :=
  let diff := (elem.lvTargetTime - now).toUInt32.toInt32
  elem.lvType = .bt ∧ diff < 5000 ∨ elem.lvType = .wifi ∧ diff < 0

instance (elem : LvElement) (now : UInt64) : Decidable (Passed elem now) :=
  inferInstanceAs (Decidable (_ ∨ _))

/-- What a call of lv_ps_sleep_check meets. -/
structure SleepCheck where
  /-- Whether there is a station. -/
  roleSta : Bool
  gotAnchorPoint : Bool
  /-- peri_busy_count and mcu_prevent are both 0. -/
  periIdle : Bool
  mcuCanSleep : Bool
  bleThreadIsUp : Bool
  /-- What the next beacon's element is made for. -/
  wifiTarget : UInt64
  roscNow : UInt64
  durationNow : UInt64
  wake : Wake
  exitNow : UInt64
  passNow : UInt64

namespace State

/-! ## The list -/

def lvPsPushElement (s : State) (elem : LvElement) : State :=
  match s.lvElement with
  | [] => { s with lvElement := [elem] }
  | node :: rest =>
    if node.lvTargetTime < elem.lvTargetTime then { s with lvElement := insertionSort (node :: rest ++ [elem]) }
    else { s with lvElement := insertionSort (elem :: node :: rest) }

def lvPsPopElement (s : State) : Option LvElement × State :=
  match s.lvElement with
  | [] => (none, s)
  | node :: rest => (some node, { s with lvElement := rest })

/-- `none` is LV_TYPE_NONE. -/
def lvPsElementNext (s : State) : Option LvType := s.lvElement.head?.map LvElement.lvType

def osMalloc (s : State) (lvType : LvType) (target : UInt64) : LvElement × State :=
  (⟨s.allocated, lvType, target⟩, { s with allocated := s.allocated + 1 })

def osFree (s : State) (elem : LvElement) : State := { s with freed := elem :: s.freed }

/-- The Bluetooth library's callback leaves this state as it is. -/
def objectCb (s : State) (elem : LvElement) (time : UInt64) (route : Route) : State :=
  { s with
    calls := ⟨elem, time, route⟩ :: s.calls
    lvPsWakeupWifi := match elem.lvType with
      | .wifi => 1
      | .bt => s.lvPsWakeupWifi }

def lvPsElementBtDel (s : State) : State :=
  let bt := s.lvElement.filter (·.lvType = .bt)
  { s with lvElement := s.lvElement.filter (·.lvType ≠ .bt), freed := bt ++ s.freed, deleted := bt ++ s.deleted }

def lvPsElementCheckPass (s : State) (now : UInt64) : State :=
  match s.lvElement with
  | [] => s
  | node :: rest =>
    if Passed node now then ({ s with lvElement := rest }.objectCb node now .passed).osFree node else s

/-! ## Going to sleep -/

def lvPsCalcSleepDuration (s : State) (target : UInt64) : State :=
  if s.mcuPsOn then
    let (elem, s) := s.osMalloc .wifi target
    s.lvPsPushElement elem
  else s

def lvPsGetSleepDuration (s : State) (mcuWakeupOffset : UInt32) : UInt32 :=
  if s.lvPsCurrentSleepDuration > mcuWakeupOffset then s.lvPsCurrentSleepDuration - mcuWakeupOffset else 0

/-- The clock is read twice. -/
def lvPsCalcRoscPeriod (s : State) (mcuWakeupOffset : UInt32) (now durationNow : UInt64) : UInt32 × State :=
  if now > s.lvPsTargetTime - mcuSleepDurationMin * 1000 then (0, s)
  else
    let s := { s with lvPsCurrentSleepDuration := (32 * (s.lvPsTargetTime - durationNow) / 1000).toUInt32 }
    let sleepTime := s.lvPsGetSleepDuration mcuWakeupOffset
    if sleepTime < mcuSleepDurationMin.toUInt32 * 32 then (0, s) else (sleepTime, s)

/-- A pin also switches MCU power save off. -/
def lvPsSleep (s : State) (wake : Wake) : State :=
  { s with lvPsWakeUpWay := wake.way, mcuPsOn := s.mcuPsOn && wake = .rtc }

/-- What check_exit does with the element that was taken. -/
def giveBack (s : State) (elem : LvElement) (slept : Option Wake) (now : UInt64) : State :=
  if elem.lvType = .wifi ∧ s.lvPsWakeUpWay = .gpio then s.lvPsPushElement elem
  else (s.objectCb elem now (.taken slept)).osFree elem

/-- The Bluetooth element behind a Wi-Fi element. -/
def chain (s : State) (elem : LvElement) (now : UInt64) : State :=
  if elem.lvType = .wifi ∧ s.lvPsElementNext = some .bt then
    match s.lvPsPopElement with
    | (some next, s) => (s.objectCb next now .chained).osFree next
    | (none, s) => s
  else s

def checkExit (s : State) (elem : Option LvElement) (slept : Option Wake) (input : SleepCheck) : State :=
  match elem with
  | some elem =>
    let s := s.giveBack elem slept input.exitNow
    (s.chain elem input.exitNow).lvPsElementCheckPass input.passNow
  | none => s.lvPsElementCheckPass input.passNow

/-- lv_ps_sleep_check from where the target time is set. -/
def sleepFor (s : State) (mcuWakeupOffset : UInt32) (elem : Option LvElement) (target : UInt64) (input : SleepCheck) :
    State :=
  match { s with lvPsTargetTime := target }.lvPsCalcRoscPeriod mcuWakeupOffset input.roscNow input.durationNow with
  | (period, s) =>
    if period = 0 then s.checkExit elem none input
    else (s.lvPsSleep input.wake).checkExit elem (some input.wake) input

/-- The Wi-Fi element of lv_ps_sleep_check. -/
def prepareWifi (s : State) (input : SleepCheck) : State :=
  if input.roleSta ∧ s.lvPsWakeupWifi ≠ 0 then
    { s.lvPsCalcSleepDuration input.wifiTarget with lvPsWakeupWifi := 0 }
  else s

def lvPsSleepCheck (s : State) (mcuWakeupOffset : UInt32) (input : SleepCheck) : State :=
  if input.roleSta ∧ ¬input.gotAnchorPoint then s.checkExit none none input
  else if ¬(s.mcuPsOn ∧ input.periIdle) then s.checkExit none none input
  else if ¬input.mcuCanSleep then s.checkExit none none input
  else
    match (s.prepareWifi input).lvPsPopElement with
    | (some elem, s) => s.sleepFor mcuWakeupOffset (some elem) elem.lvTargetTime input
    | (none, s) =>
      if ¬input.bleThreadIsUp ∧ ¬input.roleSta then s.sleepFor mcuWakeupOffset none (-1) input
      else s.checkExit none none input

/-! ## Start -/

def lvPsInit (s : State) : State :=
  { s with lvPsCurrentSleepDuration := 0, lvPsWakeupWifi := 1, lvPsWakeUpWay := .null }

def mcuPsInit (s : State) (lvPsEnabled bleThreadIsUp : Bool) : State :=
  if s.mcuPsOn then s
  else
    let s := { s with mcuPsOn := true }
    if lvPsEnabled then
      if bleThreadIsUp then s.lvPsInit.lvPsElementBtDel else s.lvPsInit
    else s

end State

end BekenSdk.LvPs
