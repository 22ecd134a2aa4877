import BekenSdk.Base.Machine
import Mathlib.Logic.Function.Basic

/-! The one-shot timers of rtos_pub.c (beken2_timer_t) over the timers of the timer task. Of timers.c the order of commands,
the active lists and the deletion are here; when a timer expires is up to the environment. The calls on one object follow
each other, and a sender of a command waits for room.
The deinit waits for an answer of the callback. It clears the magic word of the object first, and without that the
callback returns before it could answer.
-/

set_option autoImplicit false

namespace BekenSdk.OsTimers
open Base

/-! ## Objects -/

inductive BekenTimerState
  | init
  | deleting
  | deleted
  deriving DecidableEq

/-- A user function with its arguments. -/
structure Call where
  function : Nat
  leftArg : Nat
  rightArg : Nat

/-- beken2_timer_t -/
structure Object where
  handle : Option Nat
  function : Option Nat
  leftArg : Nat
  rightArg : Nat
  /-- `beken_magic` is BEKEN_MAGIC_WORD. -/
  magic : Bool
  state : BekenTimerState

def Object.timerCallback2 (object : Object) : Option Call × Object :=
  if !object.magic then (none, object)
  else if object.state = .deleting then (none, { object with state := .deleted })
  else if object.handle = none then (none, object)
  else (object.function.map fun function => ⟨function, object.leftArg, object.rightArg⟩, object)

/-! ## The timer task -/

structure Native where
  /-- `pvTimerID` -/
  timerId : Option Nat
  /-- In an active list. -/
  active : Bool

inductive Command
  /-- Also the reset of rtos_oneshot_reload_timer. -/
  | start
  | stop
  | delete

/-- Where the calls on an object are. -/
inductive Place
  /-- Not initialised, or the deinit has returned. -/
  | out
  | inUse
  /-- WAIT_BEKEN_TIMER_DELETED -/
  | waiting
  /-- The id is about to be cleared. -/
  | clearing
  | finishing
  deriving DecidableEq

structure State where
  objects : Nat → Object
  /-- The timers that have been created and not freed. -/
  natives : Nat → Option Native
  created : Nat
  queue : List (Command × Nat)
  places : Nat → Place
  /-- The user functions that have been called, the latest first. -/
  calls : List Call
  /-- A NULL id was followed, or freed memory was used. -/
  wild : Bool

/-- Whatever is in the objects. -/
def boot (objects : Nat → Object) : State where
  objects := objects
  natives _ := none
  created := 0
  queue := []
  places _ := .out
  calls := []
  wild := false

inductive Event
  | init (timer : Nat) (function : Option Nat) (leftArg rightArg : Nat) (memory : Bool)
  | start (timer : Nat)
  | stop (timer : Nat)
  | deinit (timer : Nat) (block : Bool)
  /-- The wait ends: the state is DELETED, or the time is over, or the task must not wait. -/
  | waited (timer : Nat)
  | clearId (timer : Nat)
  | finish (timer : Nat)
  /-- The timer task takes the next command. -/
  | command
  /-- A timer in an active list expires. -/
  | expire (native : Nat)

namespace State
variable (s : State)

def setObject (timer : Nat) (object : Object) : State :=
  { s with objects := Function.update s.objects timer object }

def setPlace (timer : Nat) (place : Place) : State :=
  { s with places := Function.update s.places timer place }

def setNative (n : Nat) (native : Option Native) : State :=
  { s with natives := Function.update s.natives n native }

def send (command : Command) (n : Nat) : State := { s with queue := s.queue ++ [(command, n)] }

def broken : State := { s with wild := true }

/-! ## Calls -/

/-- rtos_init_oneshot_timer, with memory for the timer or without. -/
def init (timer : Nat) (function : Option Nat) (leftArg rightArg : Nat) (memory : Bool) : State :=
  if memory then
    { s with
      objects := Function.update s.objects timer ⟨some s.created, function, leftArg, rightArg, true, .init⟩
      natives := Function.update s.natives s.created (some ⟨some timer, false⟩)
      created := s.created + 1
      places := Function.update s.places timer .inUse }
  else s.setObject timer ⟨none, function, leftArg, rightArg, true, .init⟩

/-- The first part of deinit_oneshot_timer. -/
def deinit (timer : Nat) (n : Nat) : State :=
  (s.send .delete n).setObject timer { s.objects timer with
    state := .deleting
    function := none
    leftArg := 0
    rightArg := 0
    magic := false }

/-- The last part. -/
def finish (timer : Nat) : State :=
  (s.setObject timer { s.objects timer with handle := none, state := .deleted }).setPlace timer .out

/-- vTimerSetTimerID with NULL. -/
def clearId (n : Nat) : State :=
  match s.natives n with
  | none => s.broken
  | some native => s.setNative n (some { native with timerId := none })

/-! ## Steps of the timer task -/

/-- A NULL id has no object behind it. -/
def callback (native : Native) : State :=
  match native.timerId with
  | none => s.broken
  | some timer =>
    let (call, object) := (s.objects timer).timerCallback2
    { s.setObject timer object with calls := call.toList ++ s.calls }

/-- The callback runs once more. What is queued for the timer is skipped later. -/
def delete (n : Nat) (native : Native) : State :=
  let s := { s with queue := s.queue.filter (·.2 ≠ n) }
  (if native.timerId = none then s else s.callback native).setNative n none

/-- prvProcessReceivedCommands for one message, which takes the timer off its list. -/
def process (command : Command) (n : Nat) : State :=
  match s.natives n with
  | none => s.broken
  | some native =>
    match command with
    | .start => s.setNative n (some { native with active := true })
    | .stop => s.setNative n (some { native with active := false })
    | .delete => s.delete n native

/-- An active timer is taken off its list. -/
def expire (n : Nat) (native : Native) : State :=
  (s.setNative n (some { native with active := false })).callback native

end State

/-- Nothing when the event is not possible there. -/
def step (event : Event) (s : State) : Option State :=
  if s.wild then none
  else
    match event with
    | .init timer function leftArg rightArg memory =>
      if s.places timer = .out then some (s.init timer function leftArg rightArg memory) else none
    | .start timer =>
      if s.places timer = .inUse then (s.objects timer).handle.map (s.send .start) else none
    | .stop timer =>
      if s.places timer = .inUse then (s.objects timer).handle.map (s.send .stop) else none
    | .deinit timer block =>
      if s.places timer = .inUse then
        (s.objects timer).handle.map fun n => (s.deinit timer n).setPlace timer (if block then .waiting else .finishing)
      else none
    | .waited timer =>
      if s.places timer = .waiting then
        some (s.setPlace timer (if (s.objects timer).state = .deleting then .clearing else .finishing))
      else none
    | .clearId timer =>
      if s.places timer = .clearing then
        (s.objects timer).handle.map fun n => (s.clearId n).setPlace timer .finishing
      else none
    | .finish timer => if s.places timer = .finishing then some (s.finish timer) else none
    | .command =>
      match s.queue with
      | [] => none
      | (command, n) :: queue => some ({ s with queue := queue }.process command n)
    | .expire n =>
      match s.natives n with
      | some native => if native.active then some (s.expire n native) else none
      | none => none

/-! ## The wait for an answer -/

/-- What waits for its callback is an object without the magic word. -/
def Unanswered (s : State) : Prop :=
  ∀ timer, s.places timer = .waiting → (s.objects timer).state = .deleting ∧ (s.objects timer).magic = false

namespace Unanswered
variable {s t : State} {timer n : Nat} {native : Native} {place : Place} {object : Object} {event : Event}

/-- Places and objects stay. -/
theorem frame (unanswered : Unanswered s) (places : t.places = s.places) (objects : t.objects = s.objects) :
    Unanswered t := by
  intro timer here
  rw [objects]
  exact unanswered timer (places ▸ here)

/-- An object changes that nobody waits for. -/
theorem setObject (unanswered : Unanswered s) (idle : s.places timer ≠ .waiting) :
    Unanswered (s.setObject timer object) := by
  intro other here
  have apart : other ≠ timer := fun same => idle (same ▸ here)
  simp only [State.setObject, Function.update_of_ne apart]
  exact unanswered other here

theorem setPlace (unanswered : Unanswered s) (idle : place ≠ .waiting) : Unanswered (s.setPlace timer place) := by
  intro other here
  by_cases same : other = timer
  · simp only [same, State.setPlace, Function.update_self] at here
    exact absurd here idle
  · simp only [State.setPlace, Function.update_of_ne same] at here
    exact unanswered other here

/-- Without the magic word a callback does nothing. -/
theorem callback (unanswered : Unanswered s) : Unanswered (s.callback native) := by
  unfold State.callback
  split
  · exact unanswered.frame rfl rfl
  next timer _ =>
    by_cases waits : s.places timer = .waiting
    · have quiet : (s.objects timer).timerCallback2 = (none, s.objects timer) := by
        rw [Object.timerCallback2, (unanswered timer waits).2]
        rfl
      rw [quiet]
      exact unanswered.frame rfl (Function.update_eq_self _ _)
    · exact (unanswered.setObject waits).frame rfl rfl

theorem init {function : Option Nat} {leftArg rightArg : Nat} {memory : Bool} (unanswered : Unanswered s)
    (out : s.places timer = .out) : Unanswered (s.init timer function leftArg rightArg memory) := by
  have idle : s.places timer ≠ .waiting := by
    rw [out]
    exact nofun
  unfold State.init
  split
  · have placed : Unanswered ((s.setObject timer ⟨some s.created, function, leftArg, rightArg, true, .init⟩).setPlace
        timer .inUse) := (unanswered.setObject idle).setPlace nofun
    exact placed.frame rfl rfl
  · exact unanswered.setObject idle

theorem deinit (unanswered : Unanswered s) : Unanswered ((s.deinit timer n).setPlace timer place) := by
  intro other here
  by_cases same : other = timer
  · subst same
    change (Function.update s.objects other _ other).state = _ ∧ (Function.update s.objects other _ other).magic = _
    rw [Function.update_self]
    exact ⟨rfl, rfl⟩
  · simp only [State.setPlace, Function.update_of_ne same] at here
    have kept : (s.deinit timer n).objects other = s.objects other := Function.update_of_ne same _ _
    simp only [State.setPlace, kept]
    exact unanswered other here

theorem clearId (unanswered : Unanswered s) : Unanswered (s.clearId n) := by
  unfold State.clearId
  split <;> exact unanswered.frame rfl rfl

theorem delete (unanswered : Unanswered s) : Unanswered (s.delete n native) := by
  have skipped : Unanswered { s with queue := s.queue.filter (·.2 ≠ n) } := unanswered.frame rfl rfl
  unfold State.delete
  dsimp only
  split
  · exact skipped.frame rfl rfl
  · exact skipped.callback.frame rfl rfl

theorem process {command : Command} (unanswered : Unanswered s) : Unanswered (s.process command n) := by
  unfold State.process
  split
  · exact unanswered.frame rfl rfl
  · cases command with
    | start | stop => exact unanswered.frame rfl rfl
    | delete => exact unanswered.delete

theorem step (unanswered : Unanswered s) (taken : step event s = some t) : Unanswered t := by
  unfold OsTimers.step at taken
  split at taken
  · cases taken
  cases event with
  | init timer function leftArg rightArg memory =>
    obtain ⟨out, taken⟩ := Option.ite_none_right_eq_some.mp taken
    exact Option.some.inj taken ▸ unanswered.init out
  | start timer | stop timer =>
    obtain ⟨_, taken⟩ := Option.ite_none_right_eq_some.mp taken
    obtain ⟨n, _, rfl⟩ := Option.map_eq_some_iff.mp taken
    exact unanswered.frame rfl rfl
  | deinit timer block =>
    obtain ⟨_, taken⟩ := Option.ite_none_right_eq_some.mp taken
    obtain ⟨n, _, rfl⟩ := Option.map_eq_some_iff.mp taken
    exact unanswered.deinit
  | waited timer =>
    obtain ⟨_, taken⟩ := Option.ite_none_right_eq_some.mp taken
    refine Option.some.inj taken ▸ unanswered.setPlace ?_
    split <;> exact nofun
  | clearId timer =>
    obtain ⟨_, taken⟩ := Option.ite_none_right_eq_some.mp taken
    obtain ⟨n, _, rfl⟩ := Option.map_eq_some_iff.mp taken
    exact unanswered.clearId.setPlace nofun
  | finish timer =>
    obtain ⟨finishing, taken⟩ := Option.ite_none_right_eq_some.mp taken
    have idle : s.places timer ≠ .waiting := by
      rw [finishing]
      exact nofun
    exact Option.some.inj taken ▸ (unanswered.setObject idle).setPlace nofun
  | command =>
    dsimp only at taken
    split at taken
    · cases taken
    · have popped {queue : List (Command × Nat)} : Unanswered { s with queue := queue } := unanswered.frame rfl rfl
      exact Option.some.inj taken ▸ popped.process
  | expire n =>
    dsimp only at taken
    split at taken
    · obtain ⟨_, taken⟩ := Option.ite_none_right_eq_some.mp taken
      have off {native : Native} : Unanswered (s.setNative n (some native)) := unanswered.frame rfl rfl
      exact Option.some.inj taken ▸ off.callback
    · cases taken

end Unanswered

/-- Over all runs, the blocking deinit of a one-shot timer never finds the state DELETED: it gives up, and clears the
id of a timer that may have been freed. -/
theorem oneshot_unanswered {objects : Nat → Object} {moments : List (Moment State Event)} {final : State}
    (run : Run (Machine.Step step) (boot objects) moments final) : Machine.Always Unanswered moments final :=
  @Machine.always_of_invariant State Event step _ _ _ Unanswered (fun _ _ => True) run nofun
    (fun unanswered _ taken => unanswered.step taken) fun _ _ => trivial

theorem single_unanswered : ∃ moments final,
    Run (Machine.Step step) (boot fun _ => ⟨none, none, 0, 0, false, .init⟩) moments final ∧
    moments.map Moment.event = [.command, .deinit 0 true, .init 0 (some 3) 4 5 true] ∧
    final.places 0 = .waiting ∧ (final.natives 0).isNone = true ∧ Machine.Always Unanswered moments final := by
  have found : (Machine.replay step (boot fun _ => ⟨none, none, 0, 0, false, .init⟩)
      [.command, .deinit 0 true, .init 0 (some 3) 4 5 true]).any
      (fun s => decide (s.places 0 = .waiting ∧ (s.natives 0).isNone = true)) = true := by decide
  obtain ⟨moments, final, run, same, shown⟩ := Machine.run_of_any found
  obtain ⟨waiting, freed⟩ := of_decide_eq_true shown
  exact ⟨moments, final, run, same, waiting, freed, oneshot_unanswered run⟩

end BekenSdk.OsTimers
