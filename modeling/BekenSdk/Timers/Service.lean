import Mathlib.Data.UInt
import BekenSdk.Base.RingBuffer

/-! The FreeRTOS timer task (timers.c, with configTIMER_STATE). A timer is the number of its
creation, so memory that is used again is a new timer; one that has been freed has no control
block any more. The task goes in steps, between which others post commands.
-/

set_option autoImplicit false

namespace BekenSdk.Timers
open Base

/-! ## Timers and commands -/

inductive TimerState where
  | init
  | running
  | stopped
  deriving DecidableEq

structure Timer where
  /-- `pvContainer` of the list item is not NULL. -/
  listed : Bool
  xItemValue : UInt32
  xTimerPeriodInTicks : UInt32
  uxAutoReload : Bool
  /-- `pvTimerID` is not NULL. -/
  hasId : Bool
  state : TimerState

inductive CommandId where
  | startDontTrace
  | start
  | reset
  | stop
  | changePeriod
  | delete
  | skip
  | startFromIsr
  | resetFromIsr
  | stopFromIsr
  | changePeriodFromIsr
  deriving DecidableEq

structure Message where
  xMessageID : CommandId
  xMessageValue : UInt32
  pxTimer : Nat

def configTIMER_QUEUE_LENGTH : Nat := 16

/-- What the timer task does next. -/
inductive Task where
  /-- prvGetNextExpireTime and prvProcessTimerOrBlockTask. -/
  | top
  /-- The next message of prvProcessReceivedCommands. -/
  | commands
  | command (m : Message)
  /-- An autoreload timer that has expired before it was started. -/
  | restart (pxTimer : Nat) (next : UInt32)
  /-- prvClearQueuedMsg, behind `pxMsg`. -/
  | clearing (pxTimer : Nat) (pxMsg : Option Nat)
  | cleared (pxTimer : Nat)
  | freeing (pxTimer : Nat)
  /-- prvSwitchTimerLists, and the command that it was called for. -/
  | switching (m : Option Message)
  | reloading (pxTimer : Nat) (xNextExpireTime : UInt32) (m : Option Message)

structure State where
  xTimerQueue : RingBuffer Message
  blocks : Nat → Option Timer
  created : Nat
  currentList : List Nat
  overflowList : List Nat
  xTickCount : UInt32
  xLastTime : UInt32
  task : Task
  /-- Memory of a freed timer has been used. -/
  wild : Bool

def boot : State where
  xTimerQueue := .empty configTIMER_QUEUE_LENGTH ⟨.skip, 0, 0⟩
  blocks := fun _ => none
  created := 0
  currentList := []
  overflowList := []
  xTickCount := 0
  xLastTime := 0
  task := .top
  wild := false

namespace State

/-- The handle of a timer that has been created and not freed. -/
def Lives (s : State) (pxTimer : Nat) : Prop := (s.blocks pxTimer).isSome

instance (s : State) (pxTimer : Nat) : Decidable (s.Lives pxTimer) := inferInstanceAs (Decidable (_ = true))

def put (s : State) (pxTimer : Nat) (timer : Timer) : State :=
  { s with blocks := Function.update s.blocks pxTimer (some timer) }

/-! ## Queue -/

/-- Nothing when the queue is full. -/
def xTimerGenericCommand (s : State) (pxTimer : Nat) (id : CommandId) (value : UInt32) : State :=
  if s.xTimerQueue.waiting < configTIMER_QUEUE_LENGTH then
    { s with xTimerQueue := s.xTimerQueue.send configTIMER_QUEUE_LENGTH ⟨id, value, pxTimer⟩ }
  else s

def xQueuePickNext (s : State) (pvCur : Option Nat) : Option Nat :=
  if s.xTimerQueue.waiting > 0 then
    let pcRead := RingBuffer.following configTIMER_QUEUE_LENGTH (pvCur.getD s.xTimerQueue.readFrom)
    if pcRead ≠ s.xTimerQueue.writeTo then some pcRead else none
  else none

/-! ## Lists; `none` is an access to a control block that has been freed. -/

/-- The links of the neighbours are in the control blocks of the same list. -/
def uxListRemove (s : State) (pxTimer : Nat) : Option State :=
  (s.blocks pxTimer).map fun timer =>
    { s with
      currentList := s.currentList.erase pxTimer
      overflowList := s.overflowList.erase pxTimer }.put pxTimer { timer with listed := false }

/-- Behind the items with at most that value. -/
def insertItem (s : State) (pxTimer : Nat) (value : UInt32) : List Nat → Option (List Nat)
  | [] => some [pxTimer]
  | e :: rest => (s.blocks e).bind fun timer =>
    if timer.xItemValue ≤ value then (s.insertItem pxTimer value rest).map (e :: ·) else some (pxTimer :: e :: rest)

/-- The item has its value, and comes into the list. -/
def insertCurrent (s : State) (pxTimer : Nat) (timer : Timer) : Option State :=
  (s.insertItem pxTimer timer.xItemValue s.currentList).map fun list =>
    { s with currentList := list }.put pxTimer { timer with listed := true }

def insertOverflow (s : State) (pxTimer : Nat) (timer : Timer) : Option State :=
  (s.insertItem pxTimer timer.xItemValue s.overflowList).map fun list =>
    { s with overflowList := list }.put pxTimer { timer with listed := true }

def prvInsertTimerInActiveList (s : State) (pxTimer : Nat) (xNextExpiryTime xTimeNow xCommandTime : UInt32) :
    Option (Bool × State) :=
  (s.blocks pxTimer).bind fun timer =>
    let timer := { timer with xItemValue := xNextExpiryTime }
    if xNextExpiryTime ≤ xTimeNow then
      if xTimeNow - xCommandTime ≥ timer.xTimerPeriodInTicks then some (true, s.put pxTimer timer)
      else (s.insertOverflow pxTimer timer).map fun s => (false, s)
    else if xTimeNow < xCommandTime ∧ xNextExpiryTime ≥ xCommandTime then some (true, s.put pxTimer timer)
    else (s.insertCurrent pxTimer timer).map fun s => (false, s)

/-! ## Expiry -/

/-- `pxCallbackFunction`; what it posts are events of their own. -/
def callback (s : State) (pxTimer : Nat) : Option State := (s.blocks pxTimer).map fun _ => s

def prvProcessExpiredTimer (s : State) (pxTimer : Nat) (xNextExpireTime xTimeNow : UInt32) : Option State :=
  (s.uxListRemove pxTimer).bind fun s =>
  (s.blocks pxTimer).bind fun timer =>
  let reload : Option State :=
    if timer.uxAutoReload then
      (s.prvInsertTimerInActiveList pxTimer (xNextExpireTime + timer.xTimerPeriodInTicks) xTimeNow xNextExpireTime).map
        fun (now, s) => if now then s.xTimerGenericCommand pxTimer .startDontTrace xNextExpireTime else s
    else some s
  reload.bind fun s => if timer.state = .running then s.callback pxTimer else some s

/-- The task blocks until the next expiry or a command when there is nothing to do. -/
def processTop (s : State) : Option State :=
  match s.currentList with
  | [] =>
    some { s with
      xLastTime := s.xTickCount
      task := if s.xTickCount < s.xLastTime then .switching none else .commands }
  | head :: _ => (s.blocks head).bind fun timer =>
    if s.xTickCount < s.xLastTime then some { s with xLastTime := s.xTickCount, task := .switching none }
    else
      let s := { s with xLastTime := s.xTickCount, task := .commands }
      if timer.xItemValue ≤ s.xTickCount then s.prvProcessExpiredTimer head timer.xItemValue s.xTickCount else some s

/-- A round of the loop of prvSwitchTimerLists, or its end. -/
def prvSwitchTimerLists (s : State) (m : Option Message) : Option State :=
  match s.currentList with
  | [] => some { s with
      currentList := s.overflowList
      overflowList := []
      task := m.elim .commands .command }
  | head :: _ => (s.blocks head).bind fun timer => (s.uxListRemove head).bind fun s => (s.callback head).map fun s =>
    if timer.uxAutoReload then { s with task := .reloading head timer.xItemValue m } else s

def reload (s : State) (pxTimer : Nat) (xNextExpireTime : UInt32) (m : Option Message) : Option State :=
  (s.blocks pxTimer).bind fun timer =>
    let xReloadTime := xNextExpireTime + timer.xTimerPeriodInTicks
    let s := { s with task := .switching m }
    if xReloadTime > xNextExpireTime then s.insertCurrent pxTimer { timer with xItemValue := xReloadTime }
    else some (s.xTimerGenericCommand pxTimer .startDontTrace xNextExpireTime)

/-! ## Commands -/

/-- A message is received, its timer is taken off its list, and the time is read. -/
def receiveCommand (s : State) : Option State :=
  match s.xTimerQueue.receive configTIMER_QUEUE_LENGTH with
  | none => some { s with task := .top }
  | some (m, queue) => (s.blocks m.pxTimer).bind fun timer =>
    let s := { s with xTimerQueue := queue }
    let removed := if timer.listed then s.uxListRemove m.pxTimer else some s
    removed.map fun s =>
      { s with
        xLastTime := s.xTickCount
        task := if s.xTickCount < s.xLastTime then .switching (some m) else .command m }

def startTimer (s : State) (m : Message) : Option State :=
  (s.blocks m.pxTimer).bind fun timer =>
    if m.xMessageID = .startDontTrace ∧ timer.state = .stopped then some s
    else
      let s := s.put m.pxTimer { timer with state := .running }
      let next := m.xMessageValue + timer.xTimerPeriodInTicks
      (s.prvInsertTimerInActiveList m.pxTimer next s.xLastTime m.xMessageValue).bind fun (now, s) =>
        if now then (s.callback m.pxTimer).map fun s =>
          if timer.uxAutoReload then { s with task := .restart m.pxTimer next } else s
        else some s

def changePeriod (s : State) (m : Message) : Option State :=
  (s.blocks m.pxTimer).bind fun timer =>
    let s := s.put m.pxTimer { timer with xTimerPeriodInTicks := m.xMessageValue }
    if timer.state = .stopped then some s
    else (s.prvInsertTimerInActiveList m.pxTimer (s.xLastTime + m.xMessageValue) s.xLastTime s.xLastTime).map Prod.snd

/-- `xLastTime` is `xTimeNow`. -/
def processCommand (s : State) (m : Message) : Option State :=
  let s := { s with task := .commands }
  match m.xMessageID with
  | .start | .startFromIsr | .reset | .resetFromIsr | .startDontTrace => s.startTimer m
  | .stop | .stopFromIsr => (s.blocks m.pxTimer).map fun timer => s.put m.pxTimer { timer with state := .stopped }
  | .changePeriod | .changePeriodFromIsr => s.changePeriod m
  | .delete => some { s with task := .clearing m.pxTimer none }
  | .skip => some s

/-- A round of the loop of prvClearQueuedMsg, or its end. -/
def prvClearQueuedMsg (s : State) (pxTimer : Nat) (pxMsg : Option Nat) : Option State :=
  match s.xQueuePickNext pxMsg with
  | none => some { s with task := .cleared pxTimer }
  | some slot =>
    let s := { s with task := .clearing pxTimer (some slot) }
    if (s.xTimerQueue.slots slot).pxTimer = pxTimer then
      -- the state is printed
      (s.blocks pxTimer).map fun _ =>
        { s with xTimerQueue := s.xTimerQueue.modify slot fun m => { m with xMessageID := .skip } }
    else some s

def notifyDeleted (s : State) (pxTimer : Nat) : Option State :=
  (s.blocks pxTimer).bind fun timer =>
    let s := { s with task := .freeing pxTimer }
    if timer.hasId then s.callback pxTimer else some s

def freeTimer (s : State) (pxTimer : Nat) : Option State :=
  (s.blocks pxTimer).map fun _ => { s with task := .commands, blocks := Function.update s.blocks pxTimer none }

/-! ## Steps -/

def timerTask (s : State) : Option State :=
  match s.task with
  | .top => s.processTop
  | .commands => s.receiveCommand
  | .command m => s.processCommand m
  | .restart pxTimer next => some { s.xTimerGenericCommand pxTimer .startDontTrace next with task := .commands }
  | .clearing pxTimer pxMsg => s.prvClearQueuedMsg pxTimer pxMsg
  | .cleared pxTimer => s.notifyDeleted pxTimer
  | .freeing pxTimer => s.freeTimer pxTimer
  | .switching m => s.prvSwitchTimerLists m
  | .reloading pxTimer next m => s.reload pxTimer next m

def xTimerCreate (s : State) (period : UInt32) (uxAutoReload hasId : Bool) : State :=
  { s with created := s.created + 1 }.put s.created ⟨false, 0, period, uxAutoReload, hasId, .init⟩

end State

inductive Event where
  | create (period : UInt32) (uxAutoReload hasId : Bool)
  /-- A command gets into the queue, also of a sender that has waited for it. -/
  | post (pxTimer : Nat) (id : CommandId) (value : UInt32)
  | tick
  /-- The timer task goes on. -/
  | timer

def step (event : Event) (s : State) : Option State :=
  -- no state is known behind an access to freed memory
  if s.wild then none
  else
    match event with
    | .create period uxAutoReload hasId => some (s.xTimerCreate period uxAutoReload hasId)
    | .post pxTimer id value =>
      if pxTimer < s.created ∧ id ≠ .startDontTrace ∧
        id ≠ .skip then some (s.xTimerGenericCommand pxTimer id value) else none
    | .tick => some { s with xTickCount := s.xTickCount + 1 }
    | .timer => some (s.timerTask.getD { s with wild := true })

end BekenSdk.Timers
