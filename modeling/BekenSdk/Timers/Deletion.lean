import BekenSdk.Base.Machine
import BekenSdk.Timers.Lists

/-! A timer that has been deleted is not touched again, unless the timer task takes another of its
commands from the queue; being changed to tmrCOMMAND_SKIP does not help that one.
-/

set_option autoImplicit false

namespace BekenSdk.Timers
open Base State

/-! ## What is claimed -/

/-- No freed control block has been accessed, for a callback neither, and no timer without one is on a list. -/
structure Untouched (s : State) : Prop where
  tame : s.wild = false
  listed : ∀ t ∈ s.currentList ++ s.overflowList, s.Lives t

/-- The message that the task takes is of a timer that has not been freed. -/
def Fresh (s : State) (event : Event) : Prop :=
  match event, s.task with
  | .timer, .commands => ∀ m ∈ (s.xTimerQueue.receive configTIMER_QUEUE_LENGTH).map Prod.fst, s.Lives m.pxTimer
  | _, _ => True

/-- No command of a freed timer gets into the queue, and when a timer is freed none of its commands is there. -/
def Unqueued (s : State) (event : Event) : Prop :=
  match event, s.task with
  | .post pxTimer _ _, _ => s.Lives pxTimer
  | .timer, .freeing pxTimer =>
    ∀ i < s.xTimerQueue.waiting,
      (s.xTimerQueue.slots (s.xTimerQueue.place configTIMER_QUEUE_LENGTH i)).pxTimer ≠ pxTimer
  | _, _ => True

instance (s : State) (event : Event) : Decidable (Fresh s event) := by
  unfold Fresh
  split <;> infer_instance

instance (s : State) (event : Event) : Decidable (Unqueued s event) := by
  unfold Unqueued
  split <;> infer_instance

/-! ## The timer task -/

/-- The timers that the task works with. -/
def Task.timers : Task → List Nat
  | .top => []
  | .commands => []
  | .command m => [m.pxTimer]
  | .restart pxTimer _ => [pxTimer]
  | .clearing pxTimer _ => [pxTimer]
  | .cleared pxTimer => [pxTimer]
  | .freeing pxTimer => [pxTimer]
  | .switching m => m.toList.map Message.pxTimer
  | .reloading pxTimer _ m => pxTimer :: m.toList.map Message.pxTimer

def Inv (s : State) : Prop := Listing s.task.timers s

/-- The task gets on. -/
def Arrives (s : State) (result : Option State) : Prop :=
  ∃ s', result = some s' ∧ Inv s' ∧ Kept { s with task := s'.task } s'

section
variable {s s' : State} {t : Nat} {m : Message} {next : UInt32} {waiting : Option Message} {pxMsg : Option Nat}

theorem arrives_of_goes {result : Option State} (goes : Goes s'.task.timers s' result)
    (kept : Kept { s with task := s'.task } s') :
    Arrives s result := by
  obtain ⟨s'', eq, listing, more⟩ := goes
  refine ⟨s'', eq, ?_, ?_⟩
  · unfold Inv
    rwa [more.task]
  · rw [more.task]
    exact kept.trans more

theorem Listing.later {held : List Nat} (listing : Listing held s) (task : Task) (time : UInt32) :
    Listing held { s with task := task, xLastTime := time } := { listing with }

theorem expired_goes (listing : Listing [] s) (member : t ∈ s.currentList) (now : UInt32) :
    Goes [] s (s.prvProcessExpiredTimer t next now) := by
  obtain ⟨s₁, removed, listing₁, kept₁⟩ :=
    remove_goes listing (listing.lives (List.mem_append_left _ member)) List.not_mem_nil
  obtain ⟨lives₁, -⟩ := listing₁.off t List.mem_cons_self
  obtain ⟨timer, block⟩ := lives_iff.mp lives₁
  unfold State.prvProcessExpiredTimer
  rw [removed]
  dsimp only [Option.bind_some]
  rw [block]
  dsimp only [Option.bind_some]
  have called : ∀ s₂, Listing [] s₂ → Kept s₁ s₂ →
      Goes [] s (if timer.state = .running then s₂.callback t else some s₂) := by
    intro s₂ listing₂ kept₂
    split
    · exact ⟨s₂, callback_eq ((kept₂.lives t).mpr lives₁), listing₂, kept₁.trans kept₂⟩
    · exact ⟨s₂, rfl, listing₂, kept₁.trans kept₂⟩
  by_cases reloads : timer.uxAutoReload
  · -- the timer is on a list again, or the command that will put it there is in the queue
    obtain ⟨expired, s₂, inserted, listing₂, kept₂⟩ :=
      @insertActive_goes s₁ [] t (next + timer.xTimerPeriodInTicks) now next listing₁
    rw [if_pos reloads, inserted]
    cases expired with
    | true =>
      exact called _ (command_listing listing₂.of_expired) (kept₂.trans (command_kept ((kept₂.lives t).mpr lives₁)))
    | false => exact called _ listing₂.of_expired kept₂
  · rw [if_neg reloads]
    exact called s₁ listing₁.drop .refl

theorem processTop_arrives (listing : Listing [] s) : Arrives s s.processTop := by
  unfold State.processTop
  split
  · refine ⟨_, rfl, ?_, fun _ _ holding => holding, fun _ => Iff.rfl, rfl⟩
    unfold Inv
    dsimp only
    split
    · exact listing.later _ _
    · exact listing.later _ _
  next head rest list =>
    have member : head ∈ s.currentList := by
      rw [list]
      exact List.mem_cons_self
    obtain ⟨timer, block⟩ := lives_iff.mp (listing.lives (List.mem_append_left _ member))
    rw [block]
    dsimp only [Option.bind_some]
    split
    · exact ⟨_, rfl, listing.later _ _, fun _ _ holding => holding, fun _ => Iff.rfl, rfl⟩
    · split
      · refine @arrives_of_goes s { s with xLastTime := s.xTickCount, task := .commands } _ ?_
          ⟨fun _ _ holding => holding, fun _ => Iff.rfl, rfl⟩
        exact expired_goes (listing.later .commands s.xTickCount) member _
      · exact ⟨_, rfl, listing.later _ _, fun _ _ holding => holding, fun _ => Iff.rfl, rfl⟩

theorem switch_arrives (switching : s.task = .switching waiting) (inv : Inv s) :
    Arrives s (s.prvSwitchTimerLists waiting) := by
  have listing : Listing (waiting.toList.map Message.pxTimer) s := by
    unfold Inv at inv
    rwa [switching] at inv
  unfold State.prvSwitchTimerLists
  split
  next empty =>
    refine ⟨_, rfl, ?_, fun _ _ holding => holding, fun _ => Iff.rfl, rfl⟩
    have swapped (task : Task) : Listing (waiting.toList.map Message.pxTimer)
        { s with currentList := s.overflowList, overflowList := [], task := task } := {
      tame := listing.tame
      listed := fun t member => listing.listed t (by rw [empty]; simpa using member)
      current := listing.overflow
      overflow := List.nodup_nil
      off := fun t member => ⟨(listing.off t member).1,
        fun inside => (listing.off t member).2 (by rw [empty]; simpa using inside)⟩
      distinct := listing.distinct
      fresh := listing.fresh }
    cases waiting with
    | none => exact swapped .commands
    | some m => exact swapped (.command m)
  next head rest list =>
    have member : head ∈ s.currentList ++ s.overflowList := by
      rw [list]
      exact List.mem_append_left _ List.mem_cons_self
    obtain ⟨timer, block⟩ := lives_iff.mp (listing.lives member)
    have other : head ∉ waiting.toList.map Message.pxTimer := fun held => (listing.off head held).2 member
    obtain ⟨s₁, removed, listing₁, kept₁⟩ := remove_goes listing (listing.lives member) other
    rw [block]
    dsimp only [Option.bind_some]
    rw [removed]
    dsimp only [Option.bind_some]
    rw [callback_eq (listing₁.off head List.mem_cons_self).1]
    refine ⟨_, rfl, ?_, ?_⟩
    · split
      · exact listing₁.later (.reloading head timer.xItemValue waiting) s₁.xLastTime
      · unfold Inv
        rw [kept₁.task, switching]
        exact listing₁.drop
    · split
      · exact ⟨kept₁.queue, kept₁.lives, rfl⟩
      · exact ⟨kept₁.queue, kept₁.lives, rfl⟩

theorem reload_arrives (reloading : s.task = .reloading t next waiting) (inv : Inv s) :
    Arrives s (s.reload t next waiting) := by
  have listing : Listing (t :: waiting.toList.map Message.pxTimer) s := by
    unfold Inv at inv
    rwa [reloading] at inv
  have later : Listing (t :: waiting.toList.map Message.pxTimer) { s with task := .switching waiting } :=
    listing.later (.switching waiting) s.xLastTime
  obtain ⟨lives, -⟩ := listing.off t List.mem_cons_self
  obtain ⟨timer, block⟩ := lives_iff.mp lives
  unfold State.reload
  rw [block]
  dsimp only [Option.bind_some]
  split
  · exact arrives_of_goes (insertCurrent_goes later) .refl
  · exact @arrives_of_goes s { s with task := .switching waiting } _ ⟨_, rfl, command_listing later.drop,
      command_kept lives⟩ .refl

/-- The command of a timer that lives. -/
theorem receive_arrives (commands : s.task = .commands) (inv : Inv s)
    (fresh : ∀ m ∈ (s.xTimerQueue.receive configTIMER_QUEUE_LENGTH).map Prod.fst, s.Lives m.pxTimer) :
    Arrives s s.receiveCommand := by
  have listing : Listing [] s := by
    unfold Inv at inv
    rwa [commands] at inv
  unfold State.receiveCommand
  split
  · exact ⟨_, rfl, listing.later .top s.xLastTime, fun _ _ holding => holding, fun _ => Iff.rfl, rfl⟩
  next m queue received =>
    have lives : s.Lives m.pxTimer := by
      apply fresh
      rw [received]
      rfl
    obtain ⟨timer, block⟩ := lives_iff.mp lives
    rw [block]
    dsimp only [Option.bind_some]
    have taken : Listing [] { s with xTimerQueue := queue } := { listing with }
    obtain ⟨s₁, removed, listing₁, kept₁⟩ : Goes [m.pxTimer] { s with xTimerQueue := queue }
        (if timer.listed then { s with xTimerQueue := queue }.uxListRemove m.pxTimer else some { s with xTimerQueue := queue }) := by
      split
      · exact remove_goes taken lives List.not_mem_nil
      next unlisted =>
        refine ⟨_, rfl, taken.hold lives (fun member => ?_) List.not_mem_nil, .refl⟩
        obtain ⟨timer', block', marked⟩ := listing.listed _ member
        obtain rfl := Option.some.inj (block.symm.trans block')
        exact unlisted marked
    rw [removed]
    refine ⟨_, rfl, ?_, fun ok alive holding => kept₁.queue ok alive (holding.receive received).2, kept₁.lives, rfl⟩
    unfold Inv
    dsimp only
    split
    · exact listing₁.later _ _
    · exact listing₁.later _ _

theorem start_arrives (listing : Listing [m.pxTimer] s) (commands : s.task = .commands) :
    Arrives s (s.startTimer m) := by
  obtain ⟨lives, off⟩ := listing.off m.pxTimer List.mem_cons_self
  obtain ⟨timer, block⟩ := lives_iff.mp lives
  unfold State.startTimer
  rw [block]
  dsimp only [Option.bind_some]
  split
  · refine ⟨_, rfl, ?_, .refl⟩
    unfold Inv
    rw [commands]
    exact listing.drop
  · have running := @Listing.put s [m.pxTimer] m.pxTimer { timer with state := .running } listing lives
      fun member => absurd member off
    obtain ⟨expired, s₁, inserted, listing₁, kept₁⟩ := @insertActive_goes _ [] m.pxTimer
      (m.xMessageValue + timer.xTimerPeriodInTicks) s.xLastTime m.xMessageValue running
    have kept := (put_kept lives).trans kept₁
    have lives₁ := (kept.lives m.pxTimer).mpr lives
    have idle : s₁.task = .commands := kept.task.trans commands
    change Arrives s ((State.prvInsertTimerInActiveList _ m.pxTimer _ s.xLastTime _).bind _)
    rw [inserted]
    dsimp only [Option.bind_some]
    cases expired with
    | true =>
      rw [if_pos rfl, callback_eq lives₁]
      refine ⟨_, rfl, ?_, ?_⟩
      · split
        · exact listing₁.later (.restart m.pxTimer _) s₁.xLastTime
        · unfold Inv
          rw [idle]
          exact listing₁.of_expired
      · split
        · exact ⟨kept.queue, kept.lives, rfl⟩
        · exact ⟨kept.queue, kept.lives, rfl⟩
    | false =>
      refine ⟨s₁, rfl, ?_, kept.queue, kept.lives, rfl⟩
      unfold Inv
      rw [idle]
      exact listing₁.of_expired

theorem changePeriod_arrives (listing : Listing [m.pxTimer] s) (commands : s.task = .commands) :
    Arrives s (s.changePeriod m) := by
  obtain ⟨lives, off⟩ := listing.off m.pxTimer List.mem_cons_self
  obtain ⟨timer, block⟩ := lives_iff.mp lives
  have changed := @Listing.put s [m.pxTimer] m.pxTimer { timer with xTimerPeriodInTicks := m.xMessageValue } listing lives
    fun member => absurd member off
  unfold State.changePeriod
  rw [block]
  dsimp only [Option.bind_some]
  split
  · refine ⟨_, rfl, ?_, (put_kept lives).queue, (put_kept lives).lives, rfl⟩
    unfold Inv
    change Listing s.task.timers _
    rw [commands]
    exact changed.drop
  · obtain ⟨expired, s₁, inserted, listing₁, kept₁⟩ := @insertActive_goes _ [] m.pxTimer
      (s.xLastTime + m.xMessageValue) s.xLastTime s.xLastTime changed
    have kept := (put_kept lives).trans kept₁
    change Arrives s ((State.prvInsertTimerInActiveList _ m.pxTimer (s.xLastTime + m.xMessageValue) s.xLastTime s.xLastTime).map _)
    rw [inserted]
    refine ⟨s₁, rfl, ?_, kept.queue, kept.lives, rfl⟩
    unfold Inv
    rw [kept.task, commands]
    exact listing₁.of_expired

theorem stop_arrives (listing : Listing [m.pxTimer] s) (commands : s.task = .commands) :
    Arrives s ((s.blocks m.pxTimer).map fun timer => s.put m.pxTimer { timer with state := .stopped }) := by
  obtain ⟨lives, off⟩ := listing.off m.pxTimer List.mem_cons_self
  obtain ⟨timer, block⟩ := lives_iff.mp lives
  rw [block]
  refine ⟨_, rfl, ?_, (put_kept lives).queue, (put_kept lives).lives, rfl⟩
  unfold Inv
  change Listing s.task.timers _
  rw [commands]
  exact listing.drop.put lives fun member => absurd member off

theorem command_arrives (command : s.task = .command m) (inv : Inv s) : Arrives s (s.processCommand m) := by
  have listing : Listing [m.pxTimer] { s with task := .commands } := by
    unfold Inv at inv
    rw [command] at inv
    exact inv.later .commands s.xLastTime
  have idle {result : Option State} (arrives : Arrives { s with task := .commands } result) : Arrives s result :=
    arrives
  unfold State.processCommand
  dsimp only
  split
  · exact idle (start_arrives listing rfl)
  · exact idle (start_arrives listing rfl)
  · exact idle (start_arrives listing rfl)
  · exact idle (start_arrives listing rfl)
  · exact idle (start_arrives listing rfl)
  · exact idle (stop_arrives listing rfl)
  · exact idle (stop_arrives listing rfl)
  · exact idle (changePeriod_arrives listing rfl)
  · exact idle (changePeriod_arrives listing rfl)
  · exact ⟨_, rfl, listing.later (.clearing m.pxTimer none) s.xLastTime, .refl⟩
  · exact ⟨_, rfl, listing.drop, .refl⟩

theorem clear_arrives (clearing : s.task = .clearing t pxMsg) (inv : Inv s) :
    Arrives s (s.prvClearQueuedMsg t pxMsg) := by
  have listing : Listing [t] s := by
    unfold Inv at inv
    rwa [clearing] at inv
  obtain ⟨timer, block⟩ := lives_iff.mp (listing.off t List.mem_cons_self).1
  unfold State.prvClearQueuedMsg
  split
  · exact ⟨_, rfl, listing.later (.cleared t) s.xLastTime, .refl⟩
  next slot _ =>
    dsimp only
    split
    · rw [block]
      refine ⟨_, rfl, { listing with }, fun ok _ holding => ?_, fun _ => Iff.rfl, rfl⟩
      exact @RingBuffer.Holding.modify _ _ slot _ _ (fun m => { m with xMessageID := .skip }) holding fun _ good => good
    · exact ⟨_, rfl, listing.later (.clearing t (some slot)) s.xLastTime, .refl⟩

theorem notify_arrives (cleared : s.task = .cleared t) (inv : Inv s) : Arrives s (s.notifyDeleted t) := by
  have listing : Listing [t] s := by
    unfold Inv at inv
    rwa [cleared] at inv
  have lives := (listing.off t List.mem_cons_self).1
  obtain ⟨timer, block⟩ := lives_iff.mp lives
  have freeing : Arrives s (some { s with task := .freeing t }) :=
    ⟨_, rfl, listing.later (.freeing t) s.xLastTime, .refl⟩
  unfold State.notifyDeleted
  rw [block]
  dsimp only [Option.bind_some]
  split
  · rwa [callback_eq (s := { s with task := .freeing t }) lives]
  · exact freeing

/-- What is freed is on no list. -/
theorem free_eq (freeing : s.task = .freeing t) (inv : Inv s) :
    s.freeTimer t = some { s with task := .commands, blocks := Function.update s.blocks t none } ∧
      Inv { s with task := .commands, blocks := Function.update s.blocks t none } := by
  have listing : Listing [t] s := by
    unfold Inv at inv
    rwa [freeing] at inv
  obtain ⟨lives, off⟩ := listing.off t List.mem_cons_self
  obtain ⟨timer, block⟩ := lives_iff.mp lives
  refine ⟨by rw [State.freeTimer, block]; rfl, ?_⟩
  exact {
    tame := listing.tame
    listed := fun u member => by
      have other : u ≠ t := fun same => off (same ▸ member)
      obtain ⟨timer', block', marked⟩ := listing.listed u member
      exact ⟨timer', (Function.update_of_ne other ..).trans block', marked⟩
    current := listing.current
    overflow := listing.overflow
    off := fun u member => absurd member List.not_mem_nil
    distinct := List.nodup_nil
    fresh := fun u alive => by
      by_cases same : u = t
      · exact listing.fresh u (same ▸ lives)
      · unfold State.Lives at alive
        dsimp only at alive
        rw [Function.update_of_ne same] at alive
        exact listing.fresh u alive }

theorem restart_arrives (restart : s.task = .restart t next) (inv : Inv s) :
    Arrives s (some { s.xTimerGenericCommand t .startDontTrace next with task := .commands }) := by
  have listing : Listing [t] s := by
    unfold Inv at inv
    rwa [restart] at inv
  have lives := (listing.off t List.mem_cons_self).1
  have kept := @command_kept s t .startDontTrace next lives
  refine ⟨_, rfl, ?_, kept.queue, kept.lives, rfl⟩
  exact Listing.later (command_listing listing.drop) .commands _

/-! ## Steps -/

theorem command_task {id : CommandId} {value : UInt32} : (s.xTimerGenericCommand t id value).task = s.task := by
  unfold State.xTimerGenericCommand
  split <;> rfl

/-- All of the task but the freeing. -/
theorem timerTask_arrives (inv : Inv s) (fresh : Fresh s .timer) (keeping : ∀ t, s.task ≠ .freeing t) :
    Arrives s s.timerTask := by
  unfold State.timerTask
  split
  next top =>
    apply processTop_arrives
    unfold Inv at inv
    rwa [top] at inv
  next commands =>
    unfold Fresh at fresh
    rw [commands] at fresh
    exact receive_arrives commands inv fresh
  next m command => exact command_arrives command inv
  next t next restart => exact restart_arrives restart inv
  next t pxMsg clearing => exact clear_arrives clearing inv
  next t cleared => exact notify_arrives cleared inv
  next t freeing => exact absurd freeing (keeping t)
  next m switching => exact switch_arrives switching inv
  next t next m reloading => exact reload_arrives reloading inv

/-- The messages that wait are of timers that live. -/
def Queued (s : State) : Prop := s.xTimerQueue.Holding configTIMER_QUEUE_LENGTH fun m => s.Lives m.pxTimer

theorem create_inv (inv : Inv s) {period : UInt32} {auto hasId : Bool} :
    Inv (s.xTimerCreate period auto hasId) ∧ ∀ t, s.Lives t → (s.xTimerCreate period auto hasId).Lives t := by
  have new {t : Nat} (lives : s.Lives t) : t ≠ s.created := Nat.ne_of_lt (Listing.fresh inv t lives)
  have still {t : Nat} (lives : s.Lives t) : (s.xTimerCreate period auto hasId).blocks t = s.blocks t :=
    put_other (new lives)
  have lives' {t : Nat} (lives : s.Lives t) : (s.xTimerCreate period auto hasId).Lives t := by
    unfold State.Lives
    rwa [still lives]
  refine ⟨?_, fun t lives => lives' lives⟩
  exact {
    tame := inv.tame
    listed := fun t member => by
      obtain ⟨timer, block, marked⟩ := inv.listed t member
      exact ⟨timer, (still (lives_iff.mpr ⟨timer, block⟩)).trans block, marked⟩
    current := inv.current
    overflow := inv.overflow
    off := fun t member => ⟨lives' (inv.off t member).1, (inv.off t member).2⟩
    distinct := inv.distinct
    fresh := fun t alive => by
      by_cases same : t = s.created
      · rw [same]
        exact Nat.lt_succ_self _
      · have before : (s.xTimerCreate period auto hasId).blocks t = s.blocks t := put_other same
        unfold State.Lives at alive
        rw [before] at alive
        exact Nat.lt_succ_of_lt (inv.fresh t alive) }

theorem step_inv {event : Event} (inv : Inv s) (fresh : Fresh s event) (taken : step event s = some s') : Inv s' := by
  unfold step at taken
  rw [if_neg (by rw [inv.tame]; decide)] at taken
  cases event with
  | create period auto hasId =>
    obtain rfl := Option.some.inj taken
    exact (create_inv inv).1
  | post t id value =>
    dsimp only at taken
    split at taken
    · obtain rfl := Option.some.inj taken
      unfold Inv
      rw [command_task]
      exact command_listing inv
    · cases taken
  | tick =>
    obtain rfl := Option.some.inj taken
    exact { inv with }
  | timer =>
    obtain rfl := Option.some.inj taken
    by_cases freeing : ∃ t, s.task = .freeing t
    · obtain ⟨t, freeing⟩ := freeing
      obtain ⟨eq, after⟩ := free_eq freeing inv
      have task : s.timerTask = s.freeTimer t := by
        unfold State.timerTask
        rw [freeing]
      rw [task, eq]
      exact after
    · obtain ⟨s', eq, after, -⟩ := timerTask_arrives inv fresh fun t same => freeing ⟨t, same⟩
      rw [eq]
      exact after

/-- A message of a freed timer is looked at like any other. -/
theorem stale_wild {event : Event} (inv : Inv s) (stale : ¬Fresh s event) (taken : step event s = some s') :
    s'.wild = true := by
  unfold Fresh at stale
  split at stale
  next commands =>
    push Not at stale
    obtain ⟨m, first, freed⟩ := stale
    obtain ⟨⟨m', queue⟩, received, rfl⟩ := Option.map_eq_some_iff.mp first
    have gone : s.blocks m'.pxTimer = none := Option.not_isSome_iff_eq_none.mp freed
    have lost : s.timerTask = none := by
      unfold State.timerTask
      rw [commands]
      dsimp only
      unfold State.receiveCommand
      rw [received]
      dsimp only
      rw [gone]
      rfl
    unfold step at taken
    rw [if_neg (by rw [inv.tame]; decide)] at taken
    dsimp only at taken
    rw [lost] at taken
    obtain rfl := Option.some.inj taken
    rfl
  next => exact absurd trivial stale

theorem fresh_of_queued {event : Event} (queued : Queued s) : Fresh s event := by
  unfold Fresh
  split
  · intro m first
    obtain ⟨⟨m', queue⟩, received, rfl⟩ := Option.map_eq_some_iff.mp first
    exact (queued.receive received).1
  · trivial

theorem step_queued {event : Event} (inv : Inv s) (queued : Queued s) (unqueued : Unqueued s event)
    (taken : step event s = some s') : Queued s' := by
  have fresh : Fresh s event := fresh_of_queued queued
  unfold step at taken
  rw [if_neg (by rw [inv.tame]; decide)] at taken
  cases event with
  | create period auto hasId =>
    obtain rfl := Option.some.inj taken
    exact queued.mono fun m lives => (create_inv inv).2 _ lives
  | post t id value =>
    dsimp only at taken
    split at taken
    · obtain rfl := Option.some.inj taken
      have lives : s.Lives t := unqueued
      have kept := @command_kept s t id value lives
      exact kept.queue _ (fun u alive => (kept.lives u).mpr alive) (queued.mono fun _ alive => (kept.lives _).mpr alive)
    · cases taken
  | tick =>
    obtain rfl := Option.some.inj taken
    exact queued
  | timer =>
    obtain rfl := Option.some.inj taken
    by_cases freeing : ∃ t, s.task = .freeing t
    · obtain ⟨t, freeing⟩ := freeing
      obtain ⟨eq, -⟩ := free_eq freeing inv
      have task : s.timerTask = s.freeTimer t := by
        unfold State.timerTask
        rw [freeing]
      unfold Unqueued at unqueued
      rw [freeing] at unqueued
      rw [task, eq]
      refine { queued with all := fun i less => ?_ }
      have lives := queued.all i less
      have other := unqueued i less
      unfold State.Lives at lives ⊢
      exact (congrArg Option.isSome (Function.update_of_ne other ..)).trans lives
    · obtain ⟨s', eq, -, kept⟩ := timerTask_arrives inv fresh fun t same => freeing ⟨t, same⟩
      rw [eq]
      exact kept.queue _ (fun u alive => (kept.lives u).mpr alive) (queued.mono fun _ alive => (kept.lives _).mpr alive)

theorem untouched_of_inv (inv : Inv s) : Untouched s := ⟨inv.tame, fun _ member => Listing.lives inv member⟩

theorem boot_inv : Inv boot where
  tame := rfl
  listed := fun _ member => absurd member List.not_mem_nil
  current := List.nodup_nil
  overflow := List.nodup_nil
  off := fun _ member => absurd member List.not_mem_nil
  distinct := List.nodup_nil
  fresh := fun _ lives => absurd lives Bool.false_ne_true

theorem boot_queued : Queued boot := RingBuffer.empty_holding (by decide)

end

/-! ## Results -/

/-- In a run no deleted timer is touched if and only if no command of one is taken from the queue. That is so when
none is in the queue at the deletion and none comes in later. -/
theorem deleted_untouched {moments : List (Moment State Event)} {final : State}
    (run : Run (Machine.Step step) boot moments final) :
    (Machine.Always Untouched moments final ↔ ∀ moment ∈ moments, Fresh moment.before moment.event) ∧
    ((∀ moment ∈ moments, Unqueued moment.before moment.event) → Machine.Always Untouched moments final) := by
  constructor
  · exact @Machine.always_iff_of_invariant _ _ _ _ _ _ Inv Untouched (fun _ _ => True) Fresh run boot_inv
      (fun _ => untouched_of_inv) (fun inv _ fresh taken => step_inv inv fresh taken)
      (fun inv _ stale taken good => absurd (good.tame.symm.trans (stale_wild inv stale taken)) (by decide))
      (fun _ _ => trivial)
  · intro unqueued
    have always := @Machine.always_of_invariant _ _ _ _ _ _ (fun s => Inv s ∧
      Queued s) Unqueued run ⟨boot_inv, boot_queued⟩
      (fun inv unqueued taken =>
        ⟨step_inv inv.1 (fresh_of_queued inv.2) taken, step_queued inv.1 inv.2 unqueued taken⟩) unqueued
    exact always.mono fun _ inv => untouched_of_inv inv.1

/-- A timer is started, expires, and is deleted. -/
theorem deleted_untouched_expiry :
    ∃ moments final, Run (Machine.Step step) boot moments final ∧
      moments.map Moment.event = [.timer, .timer, .timer, .timer, .timer, .post 0 .delete 0, .timer, .tick, .tick,
        .timer, .timer,
        .timer, .timer, .post 0 .start 0, .create 2 false true] ∧
      (final.created = 1 ∧ ¬final.Lives 0) ∧ Machine.Always Untouched moments final := by
  obtain ⟨moments, final, run, events, fine, shown⟩ := @Machine.run_of_fine _ _ step boot Unqueued _
    [.timer, .timer, .timer, .timer, .timer, .post 0 .delete 0, .timer, .tick, .tick, .timer, .timer,
      .timer, .timer, .post 0 .start 0, .create 2 false true]
    (fun s => s.created = 1 ∧ ¬s.Lives 0) (by decide)
  exact ⟨moments, final, run, events, of_decide_eq_true shown, (deleted_untouched run).2 fine⟩

/-- A stop behind the delete is changed to tmrCOMMAND_SKIP, and is taken from the queue after the control block was freed. -/
theorem skipped_touches :
    ∃ moments final, Run (Machine.Step step) boot moments final ∧
      moments.map Moment.event = [.timer, .timer, .timer, .timer, .timer, .timer, .timer, .timer, .post 0 .stop 0,
        .post 0 .delete 0, .create 2 false true] ∧ ¬Machine.Always Untouched moments final := by
  obtain ⟨moments, final, run, events, shown⟩ := @Machine.run_of_any _ _ step boot
    [.timer, .timer, .timer, .timer, .timer, .timer, .timer, .timer, .post 0 .stop 0, .post 0 .delete 0,
      .create 2 false true]
    (fun s => s.wild) (by decide)
  exact ⟨moments, final, run, events, fun always => absurd (always.2.tame.symm.trans shown) (by decide)⟩

end BekenSdk.Timers
