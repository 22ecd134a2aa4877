import Mathlib.Data.UInt

/-! How the Wi-Fi part is put to sleep and woken (power_save.c), with the radio as
sys_ctrl.c drives it. What is left of a call when it ends is modelled: registers of
the MAC itself, timers and messages are not. `soc7252n` is whether the chip is BK7252N,
`lvPs` whether low-voltage power save is built in and enabled.
-/

set_option autoImplicit false

namespace BekenSdk.PowerSave

inductive PsMode where
  | noPsMode
  | standbyPsMode
  | mcuPsMode
  | dtimPsMode
  | dtimPsOpening
  | dtimPsClosing
  deriving DecidableEq

/-- PS_ARM_WAKEUP_WAY. -/
inductive WakeupWay where
  | none
  | rw
  | dtimPeri
  | pwm
  | user
  | uping
  deriving DecidableEq

/-- The ways above PS_ARM_WAKEUP_NONE up to PS_ARM_WAKEUP_USER. -/
def WakeupWay.Wakes : WakeupWay → Prop
  | .none | .uping => False
  | _ => True

instance (way : WakeupWay) : Decidable way.Wakes :=
  match way with
  | .none | .uping => .isFalse id
  | .rw | .dtimPeri | .pwm | .user => .isTrue trivial

/-- PS_STA_BEACON_STATE. -/
inductive BeaconState where
  | getInit
  | getTrue
  | getFalse
  | getTimeout
  deriving DecidableEq

/-! ## The radio -/

structure Radio where
  /-- The radio controller's register. -/
  rcCntlStat : UInt32
  rfHoldStatus : UInt32
  rfSleeped : Bool
  staRfSleeped : Bool
  lvPsRfPrePwrDown : UInt8
  deriving DecidableEq

def rfHoldByStaBit : UInt32 := (1 : UInt32) <<< 0
def rfHoldByApBit : UInt32 := (1 : UInt32) <<< 3

namespace Radio
variable (lvPs : Bool) (radio : Radio)

def rcCntlStatSet (value : UInt32) : Radio := { radio with rcCntlStat := value }

def sctrlRfSleep : Radio :=
  if radio.rfSleeped then radio
  else if lvPs ∧ radio.lvPsRfPrePwrDown = 1 then { radio with lvPsRfPrePwrDown := 0, rfSleeped := true }
  else { radio.rcCntlStatSet 0 with rfSleeped := true }

def sctrlRfWakeup : Radio :=
  if radio.rfSleeped then { radio.rcCntlStatSet 0x09 with rfSleeped := false } else radio

def rfHoldBitSet (bits : UInt32) : Radio :=
  let held : Radio := { radio with rfHoldStatus := radio.rfHoldStatus ||| bits }
  if held.rfHoldStatus ≠ 0 then held.sctrlRfWakeup else held

def rfHoldBitClr (bits : UInt32) : Radio :=
  let held : Radio := { radio with rfHoldStatus := radio.rfHoldStatus &&& ~~~bits }
  if held.rfHoldStatus = 0 then held.sctrlRfSleep lvPs else held

/-- `apSleeps` is what ap_if_ap_rf_sleep answers. -/
def sctrlStaRfSleep (canSleep apSleeps : Bool) : Radio :=
  if canSleep ∧ apSleeps ∧ ¬radio.staRfSleeped then { radio.rfHoldBitClr lvPs rfHoldByStaBit with staRfSleeped := true }
  else radio

def sctrlStaRfWakeup : Radio :=
  if radio.staRfSleeped then { radio.rfHoldBitSet rfHoldByStaBit with staRfSleeped := false } else radio

/-- Before the MAC is put to sleep. -/
def prePwrDown : Radio := if lvPs then { radio.rcCntlStatSet 0 with lvPsRfPrePwrDown := 1 } else radio

/-- When the MAC could not be put to sleep. -/
def prePwrUp : Radio := if lvPs then { radio.rcCntlStatSet 0x09 with lvPsRfPrePwrDown := 0 } else radio

end Radio

/-! ## The state -/

/-- What `bk_ps_info` has about sleeping. -/
structure StaPsInfo where
  armWakeupWay : WakeupWay
  realSleep : UInt8
  canSleep : UInt8
  waitedBeacon : BeaconState
  deriving DecidableEq

structure StaPs where
  bkPsMode : PsMode
  info : StaPsInfo
  psLock : UInt8
  /-- ICU_INTERRUPT_ENABLE. -/
  intEnable : UInt32
  intEnableRegSave : UInt32
  /-- ICU_ARM_WAKEUP_EN. -/
  armWakeupEn : UInt32
  radio : Radio
  /-- The MAC has been put to sleep by `rwnxl_sleep` and not been woken by `rwnxl_wakeup`. -/
  macSlept : Bool
  deriving DecidableEq

def fiqMacWakeup : UInt32 := (1 : UInt32) <<< 26
def fiqMacGeneral : UInt32 := (1 : UInt32) <<< 22
def fiqMacProtTrigger : UInt32 := (1 : UInt32) <<< 21
def fiqMacTxTrigger : UInt32 := (1 : UInt32) <<< 20
def fiqMacRxTrigger : UInt32 := (1 : UInt32) <<< 19
def fiqMacTxRxMisc : UInt32 := (1 : UInt32) <<< 18
def fiqMacTxRxTimer : UInt32 := (1 : UInt32) <<< 17
def macArmWakeupEnBit : UInt32 := (1 : UInt32) <<< 26

/-- The interrupts that may not be pending. -/
def macPending : UInt32 := fiqMacTxRxMisc ||| fiqMacTxRxTimer ||| fiqMacRxTrigger ||| fiqMacTxTrigger ||| fiqMacProtTrigger

/-- The interrupts that are off while the MAC sleeps. -/
def macInterrupts : UInt32 :=
  fiqMacTxRxMisc ||| fiqMacTxRxTimer ||| fiqMacRxTrigger ||| fiqMacTxTrigger ||| fiqMacGeneral ||| fiqMacProtTrigger

/-- After the start of a station: the radio is on. -/
def start (intEnable intEnableRegSave armWakeupEn rfHoldStatus : UInt32) : StaPs where
  bkPsMode := .noPsMode
  info := ⟨.none, 0, 0, .getInit⟩
  psLock := 1
  intEnable := intEnable
  intEnableRegSave := intEnableRegSave
  armWakeupEn := armWakeupEn
  radio := ⟨0x09, rfHoldStatus, false, false, 0⟩
  macSlept := false

/-- What power_save_sleep finds outside. -/
structure SleepInput where
  bleSwitchMacSleeped : Bool
  netIfIsUp : Bool
  staRole : Bool
  /-- `rwnxl_get_status_in_doze`. -/
  inDoze : Bool
  /-- The interrupts that are pending. -/
  pending : UInt32
  /-- What `rwnxl_sleep` answers. -/
  rwnxlSleep : Bool
  /-- `ap_if_ap_rf_sleep`. -/
  apRfSleep : Bool

/-- What a call of power_save_sleep answers and leaves; `errorPs` is whether it ends with "error ps". -/
structure Slept where
  ret : Bool
  errorPs : Bool
  after : StaPs

namespace StaPs
variable (soc7252n lvPs : Bool) (s : StaPs)

/-- PS_STA_DTIM_CAN_SLEEP. -/
def StaDtimCanSleep (input : SleepInput) : Prop :=
  (s.bkPsMode = .dtimPsMode ∧ input.netIfIsUp ∧ input.staRole) ∧
    (s.info.waitedBeacon = .getTrue ∨ s.info.armWakeupWay = .user) ∧ s.info.canSleep = 1

instance (input : SleepInput) : Decidable (s.StaDtimCanSleep input) := inferInstanceAs (Decidable (_ ∧ _))

def powerSaveSleepStatusSet : StaPs := { s with info := { s.info with realSleep := 1, armWakeupWay := .none } }

def powerSaveSleep (input : SleepInput) : Slept :=
  if s.info.realSleep = 1 ∨ input.bleSwitchMacSleeped then ⟨false, false, s⟩
  else if ¬s.StaDtimCanSleep input then ⟨false, false, s⟩
  else if input.inDoze then ⟨false, false, s⟩
  else if input.pending &&& macPending ≠ 0 then ⟨false, false, s⟩
  else
    let masked : StaPs :=
      { s with
        intEnableRegSave := s.intEnable
        intEnable := s.intEnable &&& ~~~macInterrupts
        radio := s.radio.prePwrDown lvPs }
    if ¬input.rwnxlSleep then
      ⟨false, false, { masked with radio := masked.radio.prePwrUp lvPs, intEnable := masked.intEnableRegSave }⟩
    else if masked.psLock = 0 then ⟨true, true, { masked with macSlept := true }⟩
    else
      let slept := { masked with macSlept := true, psLock := masked.psLock - 1 }.powerSaveSleepStatusSet
      ⟨true, false,
        { slept with
          -- the station's part of the radio can sleep: ps_real_sleep has just been set
          radio := slept.radio.sctrlStaRfSleep lvPs true input.apRfSleep
          intEnable := slept.intEnable ||| (if soc7252n then fiqMacGeneral else fiqMacWakeup) }⟩

/-- `none` when the assertion on the lock fails. -/
def powerSaveWakeup : Option StaPs :=
  let radio := if lvPs ∧ s.radio.lvPsRfPrePwrDown = 1 then s.radio.prePwrUp lvPs else s.radio
  let enabled := s.intEnable ||| macInterrupts
  if s.psLock = 0 then
    some
      { s with
        info := { s.info with waitedBeacon := .getFalse }
        radio := radio.sctrlStaRfWakeup
        armWakeupEn := if soc7252n then s.armWakeupEn else s.armWakeupEn &&& ~~~macArmWakeupEnBit
        macSlept := false
        intEnable := if soc7252n then enabled else enabled &&& ~~~fiqMacWakeup
        psLock := s.psLock + 1 }
  else none

def powerSaveIeeeDtimWakeup : Option StaPs :=
  if s.info.armWakeupWay.Wakes ∧ s.info.realSleep ≠ 0 then
    (s.powerSaveWakeup soc7252n lvPs).map fun woken =>
      { woken with info := { woken.info with realSleep := 0, canSleep := 1 } }
  else some (if soc7252n then { s with info := { s.info with armWakeupWay := .none } } else s)

def setWay (way : WakeupWay) : StaPs := { s with info := { s.info with armWakeupWay := way } }

/-- The MAC's wake-up interrupt is off, on the chips that have it. -/
def wakeupIntOff : StaPs := if soc7252n then s else { s with intEnable := s.intEnable &&& ~~~fiqMacWakeup }

def powerSaveDtimWake (status : UInt32) : Option StaPs :=
  if s.bkPsMode = .dtimPsMode ∧ s.info.armWakeupWay = .none then
    if status &&& (if soc7252n then fiqMacGeneral else macArmWakeupEnBit) ≠ 0 then
      ((s.wakeupIntOff soc7252n).setWay .rw).powerSaveIeeeDtimWakeup soc7252n lvPs
    else some s
  else some s

/-- `apIdle` is whether there is an access point that saves power. -/
def powerSaveRfDtimManualDoWakeup (apIdle bleSwitchMacSleeped : Bool) : Option StaPs :=
  let s := if apIdle then { s with radio := s.radio.rfHoldBitSet rfHoldByApBit } else s
  if bleSwitchMacSleeped then some s
  else if s.bkPsMode = .dtimPsMode ∧ (s.info.armWakeupWay = .none ∨ s.info.armWakeupWay = .uping) ∧
    s.info.realSleep = 1 then
    let way := if s.info.armWakeupWay = .uping then .rw else .user
    ((s.setWay way).wakeupIntOff soc7252n).powerSaveIeeeDtimWakeup soc7252n lvPs
  else some s

def powerSaveDtimPsInit : StaPs := { s with info := { s.info with canSleep := 1 } }

def powerSaveDtimPsExit : StaPs :=
  { s with info := { s.info with waitedBeacon := .getInit, canSleep := 0, realSleep := 0 } }

def powerSaveDtimEnableHandler (connected : Bool) : StaPs :=
  if connected then { s.powerSaveDtimPsInit with bkPsMode := .dtimPsMode } else s

def powerSaveDtimDisableHandler : StaPs := { s with bkPsMode := .noPsMode }.powerSaveDtimPsExit

def powerSaveBeaconStateSet (state : BeaconState) : StaPs := { s with info := { s.info with waitedBeacon := state } }

end StaPs

end BekenSdk.PowerSave
