import Mathlib.Data.UInt
import BekenSdk.Base.Machine

/-! The task that polls the ADC objects (saradc_intf.c), with the parts of saradc.c and drv_model.c that open, sample and
close the ADC. Other users open the same device; all objects share one descriptor, one buffer and one semaphore.
-/

set_option autoImplicit false

namespace BekenSdk.SaradcIntf
open Base

/-- What differs between the chips. -/
structure Chip where
  /-- ADC_TEMP_BUFFER_SIZE. -/
  bufferSize : Nat
  large : 5 ≤ bufferSize
  /-- SARADC_ADC_CHNL_MAX. -/
  channelMax : UInt8
  /-- Whether `saradc_isr` closes the ADC with the last sample, or pauses it. -/
  closesInIsr : Bool
  /-- `saradc_format_data`, or the shift by `saradc_check_accuracy`, with the registers as `saradc_open` writes them for
  the channel. -/
  format : UInt8 → UInt32 → UInt32
  /-- `saradc_calculate` in mV, or the value itself, by `adctest_flag`. -/
  mv : UInt16 → Int

/-- An ADC_OBJ by its address; `cb` is whether there is a callback. -/
structure AdcObj where
  channel : UInt32
  cb : Bool

/-- Whose descriptor `saradc_desc` points to. -/
inductive Owner where
  | own
  | other
  deriving DecidableEq

/-- The fields of `adc_cfg` that change, with `adc_data`. -/
structure Desc where
  channel : UInt8
  currentSampleDataCnt : Nat
  pData : List UInt16

/-- The variables of saradc.c with the hardware: whether it converts, on which channel, and for which opening. -/
structure Saradc where
  isBusy : Bool
  enabled : Bool
  desc : Owner
  channel : UInt8
  opening : Nat

/-- The entry of the device in `drv_dev_tbl`; 2³² handles, which would bring `use_cnt` round, are not opened. -/
structure Dev where
  opened : Bool
  useCnt : Nat

/-- A handle that was opened for an object: the visit of the object, the channel that was set, the samples that the
hardware took for it, and how often it was closed. -/
structure Opening where
  obj : Nat
  visit : Nat
  channel : UInt8
  samples : List UInt16
  closed : Nat

/-- A callback: the object, the poll and the visit that it was made in, its channel then, and the value. -/
structure Callback where
  obj : Nat
  poll : Nat
  visit : Nat
  channel : UInt32
  newMv : Int

/-- Where the task is: between two polls, before an object, in the loop that opens the ADC (with `ret`), or waiting for
the semaphore. `rest` are the objects to come. -/
inductive Task where
  | idle
  | next (rest : List Nat)
  | opening (obj : Nat) (ret : Nat) (rest : List Nat)
  | waiting (obj : Nat) (rest : List Nat)

structure State where
  objs : Nat → AdcObj
  adcObjList : List Nat
  /-- `adc_handle`, as the number of the opening. -/
  adcHandle : Option Nat
  adcCfg : Desc
  semaWaitEnd : Bool
  saradc : Saradc
  dev : Dev
  /-- The handles that other users have open. -/
  others : Nat
  task : Task
  opens : Nat
  openings : Nat → Opening
  polls : Nat
  visits : Nat
  callbacks : List Callback

/-- The state before the first poll, with some objects in memory. -/
def State.initial (objs : Nat → AdcObj) : State :=
  { objs
    adcObjList := []
    adcHandle := none
    adcCfg := ⟨0, 0, []⟩
    semaWaitEnd := false
    saradc := ⟨false, false, .other, 0, 0⟩
    dev := ⟨false, 0⟩
    others := 0
    task := .idle
    opens := 0
    openings := fun _ => ⟨0, 0, 0, [], 0⟩
    polls := 0
    visits := 0
    callbacks := [] }

namespace State

/-- `adc_obj_stop`; the mutex keeps it out of a poll. -/
def adcObjStop (handle : Nat) (s : State) : State :=
  { s with adcObjList := s.adcObjList.filter fun entry => entry ≠ handle }

def adcObjInit (handle : Nat) (obj : AdcObj) (s : State) : State :=
  { s.adcObjStop handle with objs := Function.update s.objs handle obj }

def adcObjStart (handle : Nat) (s : State) : State :=
  if handle ∈ s.adcObjList then s else { s with adcObjList := handle :: s.adcObjList }

/-- `saradc_close`. -/
def saradcClose (s : State) : State := { s with saradc := { s.saradc with isBusy := false, enabled := false } }

/-- `saradc_open` with the descriptor of `owner`; of the opening that it is for, the hardware keeps the number. -/
def saradcOpen (chip : Chip) (owner : Owner) (channel : UInt8) (s : State) : State :=
  if channel > chip.channelMax ∨ s.saradc.isBusy then s
  else { s with saradc := ⟨true, true, owner, channel, s.opens⟩ }

/-- `ddev_open`; the device's `open` is called when it is closed, and its result is not looked at. -/
def ddevOpen (chip : Chip) (owner : Owner) (channel : UInt8) (s : State) : State :=
  if s.dev.opened then { s with dev := { s.dev with useCnt := s.dev.useCnt + 1 } }
  else { s.saradcOpen chip owner channel with dev := ⟨true, 1⟩ }

/-- `ddev_close` of a valid handle. -/
def ddevClose (s : State) : State :=
  if s.dev.useCnt = 1 then { s.saradcClose with dev := ⟨false, 0⟩ }
  else { s with dev := { s.dev with useCnt := s.dev.useCnt - 1 } }

section
variable (chip : Chip)

/-- The average of the second to the fifth sample, as it is put in the place of the first. -/
def valueOf (channel : UInt8) (samples : List UInt16) : UInt16 :=
  let sum1 := (samples.getD 1 0).toUInt32 + (samples.getD 2 0).toUInt32
  let sum2 := (samples.getD 3 0).toUInt32 + (samples.getD 4 0).toUInt32
  (chip.format channel ((sum1 / 2 + sum2 / 2) / 2)).toUInt16

/-- Closes the handle, counting it with its opening. -/
def closeHandle (s : State) : State :=
  match s.adcHandle with
  | none => s
  | some k =>
    { s.ddevClose with
      openings := Function.update s.openings k { s.openings k with closed := (s.openings k).closed + 1 } }

/-- `sadc_detect_handler`. -/
def sadcDetectHandler (s : State) : State :=
  if s.adcCfg.currentSampleDataCnt ≥ chip.bufferSize then
    let s := { s.closeHandle with adcHandle := none }
    -- `saradc_ensure_close`
    let s := s.saradcClose
    let value := valueOf chip s.saradc.channel s.adcCfg.pData
    { s with adcCfg := { s.adcCfg with pData := s.adcCfg.pData.set 0 value }, semaWaitEnd := true }
  else s

/-- One sample of the FIFO in `saradc_isr`. -/
def takeSample (s : State) (dacVal : UInt16) : State :=
  if s.adcCfg.currentSampleDataCnt < chip.bufferSize then
    let cnt := s.adcCfg.currentSampleDataCnt + 1
    let opening := s.openings s.saradc.opening
    let s := { s with
      adcCfg := { s.adcCfg with
        pData := s.adcCfg.pData.set s.adcCfg.currentSampleDataCnt dacVal
        currentSampleDataCnt := cnt }
      openings := Function.update s.openings s.saradc.opening { opening with samples := opening.samples ++ [dacVal] } }
    if cnt = chip.bufferSize then
      -- `saradc_close` or `saradc_pause`
      if chip.closesInIsr then s.saradcClose else { s with saradc := { s.saradc with enabled := false } }
    else s
  else s

/-- `saradc_isr` with the samples in the FIFO, for the task's descriptor. -/
def saradcIsr (fifo : List UInt16) (s : State) : State := (fifo.foldl (takeSample chip) s).sadcDetectHandler chip

/-- `tadc_obj_handler` up to the loop. -/
def adcConfigInit (obj : Nat) (s : State) : State :=
  { s with adcCfg := ⟨(s.objs obj).channel.toUInt8, 0, List.replicate chip.bufferSize 0⟩ }

/-- The loop's body, with the interrupts off, and the 5 ms after it. -/
def tryOpen (obj ret : Nat) (rest : List Nat) (s : State) : State :=
  if s.saradc.isBusy then
    if ret + 1 < 5 then { s with task := .opening obj (ret + 1) rest } else { s with task := .next rest }
  else
    let opening : Opening := ⟨obj, s.visits, s.adcCfg.channel, [], 0⟩
    { s.ddevOpen chip .own s.adcCfg.channel with
      adcHandle := some s.opens
      opens := s.opens + 1
      openings := Function.update s.openings s.opens opening
      task := .waiting obj rest }

/-- The semaphore is taken, and the object gets its callback. -/
def taken (obj : Nat) (rest : List Nat) (s : State) : State :=
  let callback : Callback :=
    ⟨obj, s.polls, s.visits, (s.objs obj).channel, chip.mv (s.adcCfg.pData.getD 0 0)⟩
  { s with
    semaWaitEnd := false
    callbacks := if (s.objs obj).cb then callback :: s.callbacks else s.callbacks
    task := .next rest }

end

end State

inductive Event where
  | init (handle : Nat) (obj : AdcObj)
  | start (handle : Nat)
  | stop (handle : Nat)
  /-- The message TADC_TIMER_POLL. -/
  | poll
  /-- The task comes to the next object, or to the end of the list. -/
  | visit
  | tryOpen
  /-- `rtos_get_semaphore` comes back with the semaphore, or without. -/
  | taken
  | timeout
  /-- The interrupt of a conversion for the task. -/
  | isr (fifo : List UInt16)
  /-- Another user opens the ADC when it is not busy, has its last sample, or closes its handle and ensures that. -/
  | otherOpen (channel : UInt8)
  | otherDone
  | otherClose

open State in
def step (chip : Chip) : Event → State → Option State
  | .init handle obj, s =>
    match s.task with
    | .idle => some (s.adcObjInit handle obj)
    | _ => none
  | .start handle, s =>
    match s.task with
    | .idle => some (s.adcObjStart handle)
    | _ => none
  | .stop handle, s =>
    match s.task with
    | .idle => some (s.adcObjStop handle)
    | _ => none
  | .poll, s =>
    match s.task with
    | .idle => some { s with task := .next s.adcObjList, polls := s.polls + 1 }
    | _ => none
  | .visit, s =>
    match s.task with
    | .next [] => some { s with task := .idle }
    | .next (obj :: rest) => some { s.adcConfigInit chip obj with visits := s.visits + 1, task := .opening obj 0 rest }
    | _ => none
  | .tryOpen, s =>
    match s.task with
    | .opening obj ret rest => some (s.tryOpen chip obj ret rest)
    | _ => none
  | .taken, s =>
    match s.task with
    | .waiting obj rest => if s.semaWaitEnd then some (s.taken chip obj rest) else none
    | _ => none
  | .timeout, s =>
    match s.task with
    | .waiting _ rest => if s.semaWaitEnd then none else some { s with task := .next rest }
    | _ => none
  | .isr fifo, s => if s.saradc.enabled ∧ s.saradc.desc = .own then some (s.saradcIsr chip fifo) else none
  | .otherOpen channel, s =>
    if s.saradc.isBusy then none else some { s.ddevOpen chip .other channel with others := s.others + 1 }
  | .otherDone, s =>
    if s.saradc.enabled ∧ s.saradc.desc = .other then
      some (if chip.closesInIsr then s.saradcClose else { s with saradc := { s.saradc with enabled := false } })
    else none
  | .otherClose, s => if 0 < s.others then some { s.ddevClose.saradcClose with others := s.others - 1 } else none

end BekenSdk.SaradcIntf
