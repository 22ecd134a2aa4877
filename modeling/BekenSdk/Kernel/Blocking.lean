import BekenSdk.Base.Machine
import BekenSdk.Kernel.Deque

/-! Tasks and interrupts at a queue (xQueueGenericSend and xQueueGenericReceive with all their critical
sections, the functions for interrupts and xQueueGenericReset). A call that does not get
through at once suspends the scheduler, locks the queue and goes on the event list; interrupts
come between any two of its steps.
-/

set_option autoImplicit false

namespace BekenSdk.Kernel
open Base

/-! ## States -/

inductive Request where
  | send (item : List UInt8) (position : CopyPosition)
  | receive
  | peek

def Request.sends : Request → Bool
  | .send _ _ => true
  | .receive | .peek => false

/-- Where a call stands while its task leaves the scheduler alone. -/
inductive Place where
  /-- The top of the loop. -/
  | attempting
  /-- vTaskSuspendAll. -/
  | suspending
  /-- Behind xTaskResumeAll, until the task is off the event list. -/
  | sleeping
  /-- prvIsQueueEmpty at the end of the time to wait. -/
  | expired
  deriving DecidableEq

structure Pending where
  request : Request
  /-- `xTicksToWait` is not 0. -/
  waits : Bool
  place : Place

inductive Outcome where
  | sleep
  | retry
  | expire
  deriving DecidableEq

/-- What the task that has suspended the scheduler does next. -/
inductive Stage where
  | locking
  /-- xTaskCheckForTimeOut. -/
  | timing
  /-- prvIsQueueFull or prvIsQueueEmpty. -/
  | testing
  /-- vTaskPlaceOnEventList. -/
  | placing
  /-- The two halves of prvUnlockQueue. -/
  | unlockingTx (outcome : Outcome)
  | unlockingRx (outcome : Outcome)
  | resuming (outcome : Outcome)
  deriving DecidableEq

structure Window where
  task : Nat
  call : Pending
  stage : Stage

structure State where
  queue : Queue
  tasks : Nat → Option Pending
  /-- The task that has suspended the scheduler. -/
  window : Option Window
  /-- Tasks that are ready, or pending ready, since they came off an event list. -/
  wokenSenders : List Nat
  wokenReceivers : List Nat
  /-- What has got through, the latest first. -/
  log : List (Call × Reply)

def boot (uxQueueLength uxItemSize : Nat) (storage : Cells) : State where
  queue := Queue.xQueueGenericCreate uxQueueLength uxItemSize storage
  tasks := fun _ => none
  window := none
  wokenSenders := []
  wokenReceivers := []
  log := []

inductive Event where
  /-- A task calls xQueueGenericSend or xQueueGenericReceive. -/
  | call (task : Nat) (request : Request) (waits : Bool)
  /-- The next step of a call; whether its time is over then, should it look. -/
  | run (task : Nat) (timeOut : Bool)
  /-- A tick ends the sleep of a task. -/
  | tick (task : Nat)
  | sendFromISR (item : List UInt8) (position : CopyPosition)
  | giveFromISR
  | receiveFromISR
  | peekFromISR
  | reset

/-! ## Locks and event lists -/

namespace Queue

def prvLockQueue (q : Queue) : Queue :=
  { q with
    cRxLock := if q.cRxLock = queueUNLOCKED then queueLOCKED_UNMODIFIED else q.cRxLock
    cTxLock := if q.cTxLock = queueUNLOCKED then queueLOCKED_UNMODIFIED else q.cTxLock }

/-- The loops of prvUnlockQueue: the tasks that are woken, and those that wait on. -/
def wakeFor : Nat → List Nat → List Nat × List Nat
  | 0, waiting => ([], waiting)
  | _ + 1, [] => ([], [])
  | lock + 1, task :: waiting =>
    let (woken, left) := wakeFor lock waiting
    (task :: woken, left)

def unlockTx (q : Queue) : List Nat × Queue :=
  let (woken, left) := wakeFor q.cTxLock.toInt.toNat q.xTasksWaitingToReceive
  (woken, { q with xTasksWaitingToReceive := left, cTxLock := queueUNLOCKED })

def unlockRx (q : Queue) : List Nat × Queue :=
  let (woken, left) := wakeFor q.cRxLock.toInt.toNat q.xTasksWaitingToSend
  (woken, { q with xTasksWaitingToSend := left, cRxLock := queueUNLOCKED })

end Queue

/-- Behind the tasks of at least its priority. -/
def vTaskPlaceOnEventList (priority : Nat → Nat) (task : Nat) : List Nat → List Nat
  | [] => [task]
  | other :: rest =>
    if priority task ≤ priority other then other :: vTaskPlaceOnEventList priority task rest
    else task :: other :: rest

/-! ## Steps -/

namespace State

def put (s : State) (task : Nat) (call : Option Pending) : State :=
  { s with tasks := Function.update s.tasks task call }

/-- The rest of the first critical section when the queue is full, or empty. -/
def refused (s : State) (task : Nat) (call : Pending) : State :=
  s.put task (if call.waits then some { call with place := .suspending } else none)

/-- The first critical section. -/
def attempt (s : State) (task : Nat) (call : Pending) : State :=
  match call.request with
  | .send item position =>
    let s := { s with wokenSenders := s.wokenSenders.erase task }
    match s.queue.sendAttempt item position with
    | some (woken, queue) =>
      { s with
        queue := queue
        wokenReceivers := s.wokenReceivers ++ woken.toList
        log := (.send item position, .passed) :: s.log }.put task none
    | none => s.refused task call
  | .receive =>
    let s := { s with wokenReceivers := s.wokenReceivers.erase task }
    match s.queue.receiveAttempt false with
    | some (item, woken, queue) =>
      { s with
        queue := queue
        wokenSenders := s.wokenSenders ++ woken.toList
        log := (.receive, .item item) :: s.log }.put task none
    | none => s.refused task call
  | .peek =>
    let s := { s with wokenReceivers := s.wokenReceivers.erase task }
    match s.queue.receiveAttempt true with
    | some (item, woken, queue) =>
      { s with
        queue := queue
        wokenReceivers := s.wokenReceivers ++ woken.toList
        log := (.peek, .item item) :: s.log }.put task none
    | none => s.refused task call

def woken (s : State) (request : Request) : List Nat :=
  if request.sends then s.wokenSenders else s.wokenReceivers

/-- A step of a task that leaves the scheduler alone. -/
def taskStep (s : State) (task : Nat) (call : Pending) : Option State :=
  match call.place with
  | .attempting => some (s.attempt task call)
  | .suspending => some { s.put task none with window := some ⟨task, call, .locking⟩ }
  | .sleeping => if task ∈ s.woken call.request then some (s.attempt task call) else none
  | .expired =>
    if s.queue.prvIsQueueEmpty then some (s.put task none)
    else some (s.put task (some { call with place := .attempting }))

def enter (s : State) (w : Window) (stage : Stage) : State := { s with window := some { w with stage := stage } }

/-- A step of the task that has suspended the scheduler. -/
def windowStep (priority : Nat → Nat) (s : State) (w : Window) (timeOut : Bool) : State :=
  match w.stage with
  | .locking => { s with queue := s.queue.prvLockQueue }.enter w .timing
  | .timing => s.enter w (if timeOut then .unlockingTx .expire else .testing)
  | .testing =>
    let blocked := if w.call.request.sends then s.queue.prvIsQueueFull else s.queue.prvIsQueueEmpty
    s.enter w (if blocked then .placing else .unlockingTx .retry)
  | .placing =>
    if w.call.request.sends then
      { s with queue.xTasksWaitingToSend :=
          vTaskPlaceOnEventList priority w.task s.queue.xTasksWaitingToSend }.enter w (.unlockingTx .sleep)
    else
      { s with queue.xTasksWaitingToReceive :=
          vTaskPlaceOnEventList priority w.task s.queue.xTasksWaitingToReceive }.enter w (.unlockingTx .sleep)
  | .unlockingTx outcome =>
    let (woken, queue) := s.queue.unlockTx
    { s with queue := queue, wokenReceivers := s.wokenReceivers ++ woken }.enter w (.unlockingRx outcome)
  | .unlockingRx outcome =>
    let (woken, queue) := s.queue.unlockRx
    { s with queue := queue, wokenSenders := s.wokenSenders ++ woken }.enter w (.resuming outcome)
  | .resuming outcome =>
    { s with window := none }.put w.task
      (match outcome with
        | .sleep => some { w.call with place := .sleeping }
        | .retry => some { w.call with place := .attempting }
        -- Only a receiver looks at the queue once more.
        | .expire => if w.call.request.sends then none else some { w.call with place := .expired })

def tickStep (s : State) (task : Nat) : Option State :=
  if task ∈ s.queue.xTasksWaitingToReceive then
    some { s with
      queue.xTasksWaitingToReceive := s.queue.xTasksWaitingToReceive.erase task
      wokenReceivers := s.wokenReceivers ++ [task] }
  else if task ∈ s.queue.xTasksWaitingToSend then
    some { s with
      queue.xTasksWaitingToSend := s.queue.xTasksWaitingToSend.erase task
      wokenSenders := s.wokenSenders ++ [task] }
  else none

def isrStep (s : State) (call : Call) (result : Option (Option Nat × Queue)) : State :=
  match result with
  | some (woken, queue) =>
    { s with
      queue := queue
      wokenReceivers := s.wokenReceivers ++ woken.toList
      log := (call, .passed) :: s.log }
  | none => s

end State

/-- Ticks are pended, and only one task runs, while the scheduler is suspended. -/
def step (priority : Nat → Nat) (event : Event) (s : State) : Option State :=
  match event with
  | .call task request waits =>
    if s.window.isNone ∧ s.tasks task = none then some (s.put task (some ⟨request, waits, .attempting⟩)) else none
  | .run task timeOut =>
    match s.window with
    | some w => if w.task = task then some (s.windowStep priority w timeOut) else none
    | none => (s.tasks task).bind (s.taskStep task)
  | .tick task => if s.window.isNone then s.tickStep task else none
  | .sendFromISR item position =>
    some (s.isrStep (.sendFromISR item position) (s.queue.xQueueGenericSendFromISR item position))
  | .giveFromISR => some (s.isrStep .giveFromISR s.queue.xQueueGiveFromISR)
  | .receiveFromISR =>
    match s.queue.xQueueReceiveFromISR with
    | some (item, woken, queue) =>
      some { s with
        queue := queue
        wokenSenders := s.wokenSenders ++ woken.toList
        log := (.receiveFromISR, .item item) :: s.log }
    | none => some s
  | .peekFromISR =>
    match s.queue.xQueuePeekFromISR with
    | some (item, queue) => some { s with queue := queue, log := (.peekFromISR, .item item) :: s.log }
    | none => some s
  | .reset =>
    if s.window.isNone then
      let (woken, queue) := s.queue.xQueueGenericReset false
      some { s with
        queue := queue
        wokenSenders := s.wokenSenders ++ woken.toList
        log := (.reset, .passed) :: s.log }
    else none

/-! ## What a step does with the queue

A step either leaves what is stored, or is one call of the queue that gets through.
-/

def Request.call : Request → Call
  | .send item position => .send item position
  | .receive => .receive
  | .peek => .peek

def Event.call? : Event → Option Call
  | .sendFromISR item position => some (.sendFromISR item position)
  | .giveFromISR => some .giveFromISR
  | .receiveFromISR => some .receiveFromISR
  | .peekFromISR => some .peekFromISR
  | .reset => some .reset
  | .call .. | .run .. | .tick .. => none

/-- A call that has not returned. -/
def State.Holds (s : State) (request : Request) : Prop :=
  (∃ task call, s.tasks task = some call ∧ call.request = request) ∨
    ∃ w, s.window = some w ∧ w.call.request = request

def Queue.SameData (q after : Queue) : Prop :=
  ∃ rx tx senders receivers, after = { q with
    cRxLock := rx
    cTxLock := tx
    xTasksWaitingToSend := senders
    xTasksWaitingToReceive := receivers }

theorem Queue.SameData.refl {q : Queue} : q.SameData q := ⟨_, _, _, _, rfl⟩

/-- Nothing stored changes, or the call does what it does to the queue. -/
inductive Effect (s next : State) : Option Call → Prop where
  | quiet : next.log = s.log → s.queue.SameData next.queue → Effect s next none
  | served {call : Call} : next.log = (call, (s.queue.answer call).1) :: s.log →
      (s.queue.answer call).2.SameData next.queue → Effect s next (some call)

namespace State
variable {priority : Nat → Nat} {s next : State} {task : Nat} {call : Pending} {w : Window} {timeOut : Bool}

theorem attempt_effect : Effect s (s.attempt task call) none ∨ Effect s (s.attempt task call) (some call.request.call) := by
  unfold attempt
  cases call.request with
  | send item position | receive | peek =>
    dsimp only
    split
    next passed =>
      refine Or.inr (.served ?_ ?_)
      · simp only [Request.call, Queue.answer, passed]
        rfl
      · simp only [Request.call, Queue.answer, passed]
        exact .refl
    · exact Or.inl (.quiet rfl .refl)

theorem taskStep_effect (taken : s.taskStep task call = some next) :
    Effect s next none ∨ Effect s next (some call.request.call) := by
  unfold taskStep at taken
  cases place : call.place with
  | attempting =>
    simp only [place, Option.some.injEq] at taken
    exact taken ▸ attempt_effect
  | suspending =>
    simp only [place, Option.some.injEq] at taken
    exact taken ▸ Or.inl (.quiet rfl .refl)
  | sleeping =>
    simp only [place] at taken
    split at taken
    · exact Option.some.inj taken ▸ attempt_effect
    · cases taken
  | expired =>
    simp only [place] at taken
    split at taken <;> exact Option.some.inj taken ▸ Or.inl (.quiet rfl .refl)

theorem windowStep_effect : Effect s (s.windowStep priority w timeOut) none := by
  unfold windowStep
  cases w.stage with
  | locking => exact .quiet rfl ⟨_, _, _, _, rfl⟩
  | timing | testing | resuming outcome => exact .quiet rfl .refl
  | placing =>
    dsimp only
    split <;> exact .quiet rfl ⟨_, _, _, _, rfl⟩
  | unlockingTx outcome | unlockingRx outcome => exact .quiet rfl ⟨_, _, _, _, rfl⟩

theorem tickStep_effect (taken : s.tickStep task = some next) : Effect s next none := by
  unfold tickStep at taken
  split at taken
  · exact Option.some.inj taken ▸ .quiet rfl ⟨_, _, _, _, rfl⟩
  · split at taken
    · exact Option.some.inj taken ▸ .quiet rfl ⟨_, _, _, _, rfl⟩
    · cases taken

end State

/-- One lemma for all steps. -/
theorem step_effect {priority : Nat → Nat} {event : Event} {s next : State}
    (taken : step priority event s = some next) :
    ∃ called, Effect s next called ∧ ∀ call ∈ called, (∃ request, s.Holds request ∧ request.call = call) ∨
      event.call? = some call := by
  have none_called {called : Option Call} (nothing : called = none) :
      ∀ call ∈ called, (∃ request, s.Holds request ∧ request.call = call) ∨ event.call? = some call := by
    subst nothing
    exact fun call member => by cases member
  have own {call : Call} (same : event.call? = some call) : ∀ call' ∈ some call,
      (∃ request, s.Holds request ∧ request.call = call') ∨ event.call? = some call' := by
    rintro _ ⟨⟩
    exact Or.inr same
  cases event with
  | call task request waits =>
    simp only [step] at taken
    split at taken
    · exact ⟨none, Option.some.inj taken ▸ .quiet rfl .refl, none_called rfl⟩
    · cases taken
  | run task timeOut =>
    simp only [step] at taken
    cases window : s.window with
    | some w =>
      simp only [window] at taken
      split at taken
      · exact ⟨none, Option.some.inj taken ▸ State.windowStep_effect, none_called rfl⟩
      · cases taken
    | none =>
      simp only [window] at taken
      obtain ⟨call, held, taken⟩ := Option.bind_eq_some_iff.mp taken
      rcases State.taskStep_effect taken with quiet | served
      · exact ⟨none, quiet, none_called rfl⟩
      · refine ⟨_, served, ?_⟩
        rintro _ ⟨⟩
        exact Or.inl ⟨call.request, Or.inl ⟨task, call, held, rfl⟩, rfl⟩
  | tick task =>
    simp only [step] at taken
    split at taken
    · exact ⟨none, State.tickStep_effect taken, none_called rfl⟩
    · cases taken
  | sendFromISR item position | giveFromISR =>
    obtain rfl := Option.some.inj taken
    unfold State.isrStep
    split
    next passed =>
      refine ⟨some _, .served ?_ ?_, own rfl⟩
      · simp only [Queue.answer, passed]
      · simp only [Queue.answer, passed]
        exact .refl
    · exact ⟨none, .quiet rfl .refl, none_called rfl⟩
  | receiveFromISR | peekFromISR =>
    simp only [step] at taken
    split at taken
    next passed =>
      obtain rfl := Option.some.inj taken
      refine ⟨some _, .served ?_ ?_, own rfl⟩
      · simp only [Queue.answer, passed]
      · simp only [Queue.answer, passed]
        exact .refl
    · exact ⟨none, Option.some.inj taken ▸ .quiet rfl .refl, none_called rfl⟩
  | reset =>
    simp only [step] at taken
    split at taken
    · exact ⟨some .reset, Option.some.inj taken ▸ .served rfl .refl, own rfl⟩
    · cases taken

/-! ## Calls that have not returned -/

namespace State
variable {priority : Nat → Nat} {s next : State} {task : Nat} {call : Pending} {after : Option Pending} {w : Window}
  {timeOut : Bool} {request : Request}

theorem holds_update (tasks : next.tasks = Function.update s.tasks task after) (window : next.window = s.window)
    (held : next.Holds request) : s.Holds request ∨ ∃ call, after = some call ∧ call.request = request := by
  unfold Holds at held
  rw [tasks, window] at held
  rcases held with ⟨other, call, here, same⟩ | inside
  · by_cases own : other = task
    · rw [own, Function.update_self] at here
      exact Or.inr ⟨call, here, same⟩
    · rw [Function.update_of_ne own] at here
      exact Or.inl (Or.inl ⟨other, call, here, same⟩)
  · exact Or.inl (Or.inr inside)

theorem put_holds (held : (s.put task after).Holds request) :
    s.Holds request ∨ ∃ call, after = some call ∧ call.request = request :=
  @holds_update s (s.put task after) task after request rfl rfl held

theorem put_none_holds (held : (s.put task none).Holds request) : s.Holds request := by
  rcases put_holds held with before | ⟨call, none_put, _⟩
  · exact before
  · cases none_put

/-- An attempt ends a call, or leaves it in front of the scheduler. -/
theorem attempt_put : ∃ after, (s.attempt task call).tasks = Function.update s.tasks task after ∧
    (s.attempt task call).window = s.window ∧ ∀ later ∈ after, later = { call with place := .suspending } := by
  have kept : ∀ later ∈ (if call.waits then some { call with place := .suspending } else none),
      later = { call with place := .suspending } := by
    split
    · rintro _ ⟨⟩
      rfl
    · exact nofun
  unfold attempt
  split
  all_goals
    dsimp only
    split
    · exact ⟨_, rfl, rfl, nofun⟩
    · exact ⟨_, rfl, rfl, kept⟩

theorem attempt_holds (held : (s.attempt task call).Holds request) : s.Holds request ∨ call.request = request := by
  obtain ⟨after, tasks, window, left⟩ := @attempt_put s task call
  rcases holds_update tasks window held with before | ⟨later, kept, same⟩
  · exact Or.inl before
  · rw [left later kept] at same
    exact Or.inr same

theorem taskStep_holds (taken : s.taskStep task call = some next) (held : next.Holds request) :
    s.Holds request ∨ call.request = request := by
  unfold taskStep at taken
  cases place : call.place with
  | attempting =>
    simp only [place, Option.some.injEq] at taken
    subst taken
    exact attempt_holds held
  | suspending =>
    simp only [place, Option.some.injEq] at taken
    subst taken
    rcases held with tasks | ⟨_, ⟨⟩, same⟩
    · exact Or.inl (put_none_holds (Or.inl tasks))
    · exact Or.inr same
  | sleeping =>
    simp only [place] at taken
    split at taken
    · obtain rfl := Option.some.inj taken
      exact attempt_holds held
    · cases taken
  | expired =>
    simp only [place] at taken
    split at taken
    · obtain rfl := Option.some.inj taken
      exact Or.inl (put_none_holds held)
    · obtain rfl := Option.some.inj taken
      rcases put_holds held with before | ⟨_, ⟨⟩, same⟩
      · exact Or.inl before
      · exact Or.inr same

theorem enter_holds {stage : Stage} (held : (s.enter w stage).Holds request) :
    s.Holds request ∨ w.call.request = request := by
  rcases held with tasks | ⟨_, ⟨⟩, same⟩
  · exact Or.inl (Or.inl tasks)
  · exact Or.inr same

theorem windowStep_holds (held : (s.windowStep priority w timeOut).Holds request) :
    s.Holds request ∨ w.call.request = request := by
  unfold windowStep at held
  cases stage : w.stage with
  | locking | timing | testing | unlockingTx outcome | unlockingRx outcome =>
    simp only [stage] at held
    exact enter_holds held
  | placing =>
    simp only [stage] at held
    split at held
    · exact enter_holds held
    · exact enter_holds held
  | resuming outcome =>
    simp only [stage] at held
    rcases put_holds held with (tasks | ⟨_, ⟨⟩, _⟩) | ⟨after, kept, same⟩
    · exact Or.inl (Or.inl tasks)
    · cases outcome with
      | sleep | retry =>
        obtain rfl := Option.some.inj kept
        exact Or.inr same
      | expire =>
        dsimp only at kept
        split at kept
        · cases kept
        · obtain rfl := Option.some.inj kept
          exact Or.inr same

end State

theorem step_holds {priority : Nat → Nat} {event : Event} {s next : State} {request : Request}
    (taken : step priority event s = some next) (held : next.Holds request) :
    s.Holds request ∨ ∃ task waits, event = .call task request waits := by
  cases event with
  | call task asked waits =>
    simp only [step] at taken
    split at taken
    · obtain rfl := Option.some.inj taken
      rcases State.put_holds held with before | ⟨_, ⟨⟩, rfl⟩
      · exact Or.inl before
      · exact Or.inr ⟨task, waits, rfl⟩
    · cases taken
  | run task timeOut =>
    simp only [step] at taken
    cases window : s.window with
    | some w =>
      simp only [window] at taken
      split at taken
      · obtain rfl := Option.some.inj taken
        exact Or.inl ((State.windowStep_holds held).elim id fun same => Or.inr ⟨w, window, same⟩)
      · cases taken
    | none =>
      simp only [window] at taken
      obtain ⟨call, here, taken⟩ := Option.bind_eq_some_iff.mp taken
      exact Or.inl ((State.taskStep_holds taken held).elim id fun same => Or.inl ⟨task, call, here, same⟩)
  | tick task =>
    simp only [step, State.tickStep] at taken
    split at taken
    · split at taken
      · obtain rfl := Option.some.inj taken
        exact Or.inl held
      · split at taken
        · obtain rfl := Option.some.inj taken
          exact Or.inl held
        · cases taken
    · cases taken
  | sendFromISR item position | giveFromISR =>
    obtain rfl := Option.some.inj taken
    unfold State.isrStep at held
    split at held <;> exact Or.inl held
  | receiveFromISR | peekFromISR =>
    simp only [step] at taken
    split at taken
    all_goals
      obtain rfl := Option.some.inj taken
      exact Or.inl held
  | reset =>
    simp only [step] at taken
    split at taken
    · obtain rfl := Option.some.inj taken
      exact Or.inl held
    · cases taken

/-! ## Every interleaving is a list -/

/-- The arguments of a call are as its function asserts. -/
def Event.Fits (length size : Nat) : Event → Prop
  | .call _ request _ => request.call.Fits length size
  | event => ∀ call ∈ event.call?, call.Fits length size

instance (length size : Nat) : DecidablePred (Event.Fits length size) := fun event =>
  match event with
  | .call _ request _ => inferInstanceAs (Decidable (request.call.Fits length size))
  | .run _ _ | .tick _ | .sendFromISR _ _ | .giveFromISR | .receiveFromISR | .peekFromISR | .reset =>
    inferInstanceAs (Decidable (∀ call ∈ Event.call? _, call.Fits length size))

theorem Queue.SameData.keeps {start q after : Queue} (same : q.SameData after) (kept : start.Keeps q) :
    start.Keeps after ∧ after.items = q.items := by
  obtain ⟨_, _, _, _, rfl⟩ := same
  exact ⟨kept.lists, rfl⟩

theorem serve_append {S : Type} {answer : S → Call → Reply × S} {s : S} {calls : List Call} {call : Call} :
    serve answer s (calls ++ [call]) = ((serve answer s calls).1 ++ [(answer (serve answer s calls).2 call).1],
      (answer (serve answer s calls).2 call).2) := by
  induction calls generalizing s with
  | nil => rfl
  | cons first rest ih =>
    simp only [List.cons_append, serve]
    rw [ih]

/-- What has got through are calls of the list, one after the other. -/
structure Linear (length size : Nat) (storage : Cells) (s : State) : Prop where
  kept : (Queue.xQueueGenericCreate length size storage).Keeps s.queue
  fits : ∀ request, s.Holds request → request.call.Fits length size
  history : serve (Deque.answer length) [] (s.log.reverse.map Prod.fst) = (s.log.reverse.map Prod.snd, s.queue.items)

theorem boot_linear {length size : Nat} {storage : Cells} (positive : 0 < length) (small : length * size < 2 ^ 32) :
    Linear length size storage (boot length size storage) := by
  have created : (Queue.xQueueGenericCreate length size storage).Sound ∧ _ := Queue.create_sound positive small
  refine ⟨.refl created.1, ?_, ?_⟩
  · rintro request (⟨_, _, ⟨⟩, _⟩ | ⟨_, ⟨⟩, _⟩)
  · change ([], []) = ([], (Queue.xQueueGenericCreate length size storage).items)
    rw [created.2]

theorem Linear.step {priority : Nat → Nat} {length size : Nat} {storage : Cells} {event : Event} {s next : State}
    (linear : Linear length size storage s) (small : length * size < 2 ^ 32) (fits : event.Fits length size)
    (taken : step priority event s = some next) : Linear length size storage next := by
  have still : ∀ request, next.Holds request → request.call.Fits length size := by
    intro request held
    rcases step_holds taken held with before | ⟨task, waits, rfl⟩
    · exact linear.fits request before
    · exact fits
  obtain ⟨called, effect, source⟩ := step_effect taken
  cases effect with
  | quiet log data =>
    obtain ⟨kept, items⟩ := data.keeps linear.kept
    exact ⟨kept, still, by rw [log, items]; exact linear.history⟩
  | @served call log data =>
    have call_fits : call.Fits length size := by
      rcases source call rfl with ⟨request, held, rfl⟩ | own
      · exact linear.fits request held
      · cases event with
        | call | run | tick => cases own
        | sendFromISR | giveFromISR | receiveFromISR | peekFromISR | reset => exact fits call own
    have length_kept : s.queue.uxLength = length := linear.kept.length
    have size_kept : s.queue.uxItemSize = size := linear.kept.size
    obtain ⟨answered, same⟩ := Queue.answer_follows linear.kept.sound (by rwa [length_kept, size_kept])
      (by rwa [length_kept, size_kept])
    rw [length_kept] at same
    obtain ⟨kept, items⟩ := data.keeps answered
    refine ⟨⟨kept.sound, kept.length.trans length_kept, kept.size.trans size_kept, fun a beyond => ?_⟩, still, ?_⟩
    · have beyond_now : s.queue.uxLength * s.queue.uxItemSize ≤ a := by
        rw [length_kept, size_kept]
        exact beyond
      exact (kept.outside a beyond_now).trans (linear.kept.outside a beyond)
    · rw [log, List.reverse_cons, List.map_append, List.map_append, List.map_singleton, List.map_singleton, serve_append,
        linear.history, items]
      dsimp only
      rw [same]

/-- A receiver that goes to sleep, and an interrupt that sends to it. -/
def sentToSleeper : List Event :=
  .run 1 false :: .sendFromISR [7] .sendToBack :: List.replicate 9 (.run 1 false) ++ [.call 1 .receive true]

end BekenSdk.Kernel
