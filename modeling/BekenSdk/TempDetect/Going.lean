import BekenSdk.TempDetect.Detect

/-! The chain of timer, messages and measurements goes on, and every hold is released, over runs in which no link
of it is lost.
-/

set_option autoImplicit false

namespace BekenSdk.TempDetect
open Base

/-! ## What is claimed -/

/-- The message comes from the interrupt and stands for a measurement. -/
def Msg.isIntPoll : Msg → Bool
  | .tmpdIntPoll | .voltIntPoll => true
  | _ => false

/-- Handling the message starts the timer or opens the ADC. -/
def Rearms (build : Build) (intval : UInt16) : Msg → Prop
  | .pauseTimer => False
  | .restartTimer => True
  | .changeParam => intval.toUInt32 ≠ adcTmepDetectIntval
  | .tmpdTimerPoll | .tmpdIntPoll => build.temp = true
  | .voltTimerPoll | .voltIntPoll => build.volt = true

instance (build : Build) (intval : UInt16) (msg : Msg) : Decidable (Rearms build intval msg) := by
  cases msg <;> unfold Rearms <;> infer_instance

namespace Detect
variable {build : Build} {s t : Detect}

def PauseAsked (s : Detect) : Prop := s.paused = true ∨ .pauseTimer ∈ s.queue

/-- The detection does not stall. -/
def Going (build : Build) (s : Detect) : Prop :=
  s.PauseAsked ∨ s.timerRunning = true ∨ s.opened = true ∨ ∃ msg ∈ s.queue, Rearms build s.detectIntval msg

/-- The release of a hold is still to come, and each measurement started has released it once or will. -/
structure Booked (s : Detect) : Prop where
  ends : s.hold ≠ 0 → s.opened = true ∨ ∃ msg ∈ s.queue, msg.isIntPoll = true
  once : s.started = s.released + (if s.opened then 1 else 0) + s.queue.countP Msg.isIntPoll

structure Right (build : Build) (s : Detect) : Prop where
  going : s.Going build
  booked : build.mcuPs = true → s.Booked

instance (s : Detect) : Decidable (s.Going build) := by
  unfold Going PauseAsked
  infer_instance

/-- No link is lost: a measurement has a valid sample and room for its message, and so has the message that follows it;
the change of the interval changes it; or something else keeps the detection going and no hold is at stake. -/
def Fine (build : Build) (s : Detect) : Event → Prop
  | .sampled pData room =>
    s.opened = true →
      (0 < (pData.drop build.skip).countP (isValid build) ∧ room = true) ∨
        (build.mcuPs = false ∧ { s with opened := false }.Going build)
  | .taken _ room =>
    s.queue.head? = some .tmpdIntPoll →
      { s with queue := s.queue.tail }.Going build ∨
        if s.detectIntvalChange + 1 = build.detectIntvalChange then room = true ∧
          s.detectIntval.toUInt32 ≠ adcTmepDetectIntval
        else (build.volt && build.wideVoltage) = true → room = true
  | _ => True

/-! ## Invariant -/

/-- What is measured is what was compiled. -/
def Built (build : Build) : Channel → Prop
  | .temp => build.temp = true
  | .volt => build.volt = true

def Msg.Answered (build : Build) : Msg → Prop
  | .tmpdIntPoll => build.temp = true
  | .voltIntPoll => build.volt = true
  | _ => True

structure Sound (build : Build) (s : Detect) : Prop where
  right : s.Right build
  channel : s.opened = true → Built build s.channel
  answered : ∀ msg ∈ s.queue, Msg.Answered build msg

theorem start_sound : (start build).Sound build := by
  constructor
  · constructor
    · exact .inr (.inl rfl)
    · intro _
      constructor
      · intro held
        exact absurd rfl held
      · rfl
  · intro opened
    cases opened
  · intro msg member
    cases member

/-- A message that starts nothing can be taken off the queue. -/
theorem Going.tail {msg : Msg} {rest : List Msg} (going : s.Going build) (queue : s.queue = msg :: rest)
    (other : msg ≠ .pauseTimer) (idle : ¬ Rearms build s.detectIntval msg) : { s with queue := rest }.Going build := by
  rcases going with (paused | asked) | running | opened | ⟨next, member, rearms⟩
  · exact .inl (.inl paused)
  · rw [queue, List.mem_cons] at asked
    exact .inl (.inr (asked.resolve_left fun same => other same.symm))
  · exact .inr (.inl running)
  · exact .inr (.inr (.inl opened))
  · rw [queue, List.mem_cons] at member
    refine .inr (.inr (.inr ⟨next, member.resolve_left ?_, rearms⟩))
    rintro rfl
    exact idle rearms

theorem Booked.tail {msg : Msg} {rest : List Msg} (booked : s.Booked) (queue : s.queue = msg :: rest)
    (other : msg.isIntPoll = false) : { s with queue := rest }.Booked := by
  constructor
  · intro held
    rcases booked.ends held with opened | ⟨next, member, poll⟩
    · exact .inl opened
    · rw [queue, List.mem_cons] at member
      refine .inr ⟨next, member.resolve_left ?_, poll⟩
      rintro rfl
      rw [other] at poll
      cases poll
  · have once := booked.once
    rw [queue, List.countP_cons, other] at once
    exact once

theorem Going.sendMsg (going : s.Going build) (room : Bool) (msg : Msg) : (s.sendMsg room msg).Going build := by
  cases room with
  | false => exact going
  | true =>
    rcases going with (paused | asked) | running | opened | ⟨next, member, rearms⟩
    · exact .inl (.inl paused)
    · exact .inl (.inr (List.mem_append_left _ asked))
    · exact .inr (.inl running)
    · exact .inr (.inr (.inl opened))
    · exact .inr (.inr (.inr ⟨next, List.mem_append_left _ member, rearms⟩))

theorem Booked.sendMsg (booked : s.Booked) (room : Bool) (msg : Msg) (other : msg.isIntPoll = false) :
    (s.sendMsg room msg).Booked := by
  cases room with
  | false => exact booked
  | true =>
    constructor
    · intro held
      rcases booked.ends held with opened | ⟨next, member, poll⟩
      · exact .inl opened
      · exact .inr ⟨next, List.mem_append_left _ member, poll⟩
    · show s.started = s.released + (if s.opened then 1 else 0) + (s.queue ++ [msg]).countP Msg.isIntPoll
      rw [List.countP_append, List.countP_singleton, other]
      exact booked.once

/-! ## The handlers -/

theorem timerPoll_going (channel : Channel) (type : UInt8) (opens : Bool) :
    (s.timerPoll build channel type opens).Going build := by
  unfold timerPoll enable
  cases opened : s.opened with
  | true =>
    simp only [if_true]
    split
    · exact .inr (.inr (.inl opened))
    · exact .inr (.inr (.inl opened))
  | false =>
    simp only [Bool.false_eq_true, if_false]
    cases opens with
    | true =>
      simp only [if_true]
      split
      · exact .inr (.inr (.inl rfl))
      · exact .inr (.inr (.inl rfl))
    | false => exact .inr (.inl rfl)

theorem timerPoll_booked (booked : s.Booked) (channel : Channel) (type : UInt8) (opens : Bool)
    (mcuPs : build.mcuPs = true) :
    (s.timerPoll build channel type opens).Booked := by
  have once := booked.once
  unfold timerPoll enable
  cases opened : s.opened with
  | true =>
    simp only [if_true, mcuPs]
    exact ⟨fun _ => .inl opened, once⟩
  | false =>
    simp only [opened, Bool.false_eq_true, if_false] at once ⊢
    cases opens with
    | true =>
      simp only [if_true, mcuPs]
      refine ⟨fun _ => .inl rfl, ?_⟩
      simp only [if_true]
      omega
    | false =>
      refine ⟨?_, ?_⟩
      · intro held
        exact (booked.ends held).imp (fun there => absurd there (by simp [opened])) id
      · simp only [Bool.false_eq_true, if_false]
        exact once

theorem timerPoll_queue (channel : Channel) (type : UInt8) (opens : Bool) :
    (s.timerPoll build channel type opens).queue = s.queue ∧
      ((s.timerPoll build channel type opens).opened = true → s.opened = true ∧
        (s.timerPoll build channel type opens).channel = s.channel ∨
          (s.timerPoll build channel type opens).channel = channel) := by
  unfold timerPoll enable
  cases opened : s.opened <;> cases opens <;> cases build.mcuPs <;> simp

/-- A released hold is the one of the message that was taken. -/
theorem release_booked (mcuPs : build.mcuPs = true)
    (once : s.started = s.released + 1 + (if s.opened then 1 else 0) + s.queue.countP Msg.isIntPoll) :
    (s.release build).Booked := by
  unfold release
  rw [if_pos mcuPs]
  refine ⟨fun held => absurd rfl held, ?_⟩
  exact once

theorem release_fields :
    (s.release build).queue = s.queue ∧ (s.release build).opened = s.opened ∧ (s.release build).channel = s.channel ∧
      (s.release build).timerRunning = s.timerRunning ∧ (s.release build).paused = s.paused ∧
      (s.release build).detectIntval = s.detectIntval := by
  unfold release
  split <;> exact ⟨rfl, rfl, rfl, rfl, rfl, rfl⟩

theorem release_going : (s.release build).Going build ↔ s.Going build := by
  obtain ⟨queue, opened, -, running, paused, intval⟩ := @release_fields build s
  unfold Going PauseAsked
  rw [queue, opened, running, paused, intval]

theorem changeConfiguration_going (going : s.Going build) (intval thre dist : UInt32) :
    (s.changeConfiguration build intval thre dist).Going build := by
  unfold changeConfiguration
  generalize (if intval = 0 then adcTmepDetectIntval else intval) = wanted
  simp only
  split
  · exact .inr (.inl rfl)
  · exact going

theorem changeConfiguration_running (differs : s.detectIntval.toUInt32 ≠ adcTmepDetectIntval)
    (thre dist : UInt32) :
    (s.changeConfiguration build adcTmepDetectIntval thre dist).timerRunning = true := by
  unfold changeConfiguration
  rw [if_neg (by decide : adcTmepDetectIntval ≠ 0)]
  simp only
  rw [if_pos differs]

theorem changeConfiguration_fields (intval thre dist : UInt32) :
    (s.changeConfiguration build intval thre dist).queue = s.queue ∧
      (s.changeConfiguration build intval thre dist).opened = s.opened ∧
      (s.changeConfiguration build intval thre dist).channel = s.channel ∧
      (s.changeConfiguration build intval thre dist).hold = s.hold ∧
      (s.changeConfiguration build intval thre dist).started = s.started ∧
      (s.changeConfiguration build intval thre dist).released = s.released := by
  unfold changeConfiguration
  generalize (if intval = 0 then adcTmepDetectIntval else intval) = wanted
  simp only
  split <;> exact ⟨rfl, rfl, rfl, rfl, rfl, rfl⟩

theorem Booked.congr (booked : s.Booked) (queue : t.queue = s.queue) (opened : t.opened = s.opened)
    (hold : t.hold = s.hold)
    (started : t.started = s.started) (released : t.released = s.released) : t.Booked := by
  constructor
  · rw [hold, opened, queue]
    exact booked.ends
  · rw [started, released, opened, queue]
    exact booked.once

/-- The queue of a state after messages were sent that stand for no measurement. -/
theorem answered_sendMsg (answered : ∀ msg ∈ s.queue, Msg.Answered build msg) (room : Bool) (msg : Msg)
    (known : Msg.Answered build msg) : ∀ next ∈ (s.sendMsg room msg).queue, Msg.Answered build next := by
  cases room with
  | false => exact answered
  | true =>
    intro other member
    cases List.mem_append.1 member with
    | inl earlier => exact answered other earlier
    | inr last =>
      rw [List.mem_singleton.1 last]
      exact known

theorem Sound.sendMsg (sound : s.Sound build) (room : Bool) (msg : Msg) (other : msg.isIntPoll = false) :
    (s.sendMsg room msg).Sound build := by
  have known : Msg.Answered build msg := by
    cases msg <;> trivial
  refine ⟨⟨sound.right.going.sendMsg room msg, fun mcuPs => (sound.right.booked mcuPs).sendMsg room msg other⟩, ?_,
    answered_sendMsg sound.answered room msg known⟩
  cases room <;> exact sound.channel

/-! ## One event -/

/-- The message of a measurement is answered and starts something. -/
theorem intPoll_spec (channel : Channel) (built : Built build channel) (intval : UInt16) :
    Rearms build intval (if channel = .volt then .voltIntPoll else .tmpdIntPoll) ∧
      Msg.isIntPoll (if channel = .volt then .voltIntPoll else .tmpdIntPoll) = true ∧
      Msg.Answered build (if channel = .volt then .voltIntPoll else .tmpdIntPoll) := by
  cases channel with
  | temp => exact ⟨built, rfl, built⟩
  | volt => exact ⟨built, rfl, built⟩

/-- The interrupt with the last sample, when the message for the task is not lost. -/
theorem Sound.detectHandler (sound : s.Sound build) (pData : List UInt16) (room : Bool)
    (fine : s.Fine build (.sampled pData room)) : (s.detectHandler build pData room).Sound build := by
  unfold Detect.detectHandler
  cases opened : s.opened with
  | false => exact sound
  | true =>
    simp only [Bool.true_eq_false, if_false]
    obtain ⟨rearms, poll, known⟩ := intPoll_spec s.channel (sound.channel opened) s.detectIntval
    generalize (if s.channel = .volt then Msg.voltIntPoll else .tmpdIntPoll) = msg at rearms poll known
    have closed : { s with opened := false }.opened = true → Built build s.channel := by
      intro reopened
      cases reopened
    rcases fine opened with ⟨valid, rfl⟩ | ⟨mcuPs, going⟩
    · rw [if_neg (by omega)]
      refine ⟨⟨.inr (.inr (.inr ⟨msg, List.mem_append_right _ (List.mem_singleton_self _), rearms⟩)),
        fun mcuPs => ⟨?_, ?_⟩⟩,
        closed, answered_sendMsg sound.answered true msg known⟩
      · intro _
        exact .inr ⟨msg, List.mem_append_right _ (List.mem_singleton_self _), poll⟩
      · have once := (sound.right.booked mcuPs).once
        rw [opened] at once
        show s.started = s.released + 0 + (s.queue ++ [msg]).countP Msg.isIntPoll
        rw [List.countP_append, List.countP_singleton, poll, once]
        simp only [if_true]
        omega
    · have unbooked : build.mcuPs = true → False := by
        rw [mcuPs]
        intro impossible
        cases impossible
      split
      · exact ⟨⟨going, fun on => (unbooked on).elim⟩, closed, sound.answered⟩
      · exact ⟨⟨going.sendMsg room msg, fun on => (unbooked on).elim⟩, by cases room <;> exact closed,
          @answered_sendMsg build { s with opened := false } sound.answered room msg known⟩

theorem Going.sent (msg : Msg) (rearms : Rearms build s.detectIntval msg) : (s.sendMsg true msg).Going build :=
  .inr (.inr (.inr ⟨msg, List.mem_append_right _ (List.mem_singleton_self _), rearms⟩))

/-- The hold is released after the next message was sent. -/
theorem Sound.released (room : Bool) (msg : Msg) (going : (s.sendMsg room msg).Going build)
    (channel : s.opened = true → Built build s.channel) (answered : ∀ next ∈ s.queue, Msg.Answered build next)
    (other : msg.isIntPoll = false) (known : Msg.Answered build msg)
    (once : build.mcuPs = true →
      s.started = s.released + 1 + (if s.opened then 1 else 0) + s.queue.countP Msg.isIntPoll) :
    ((s.sendMsg room msg).release build).Sound build := by
  obtain ⟨queue, opened, measured, -⟩ := @release_fields build (s.sendMsg room msg)
  refine ⟨⟨release_going.2 going, fun mcuPs => release_booked mcuPs ?_⟩, ?_, ?_⟩
  · cases room with
    | false => exact once mcuPs
    | true =>
      show s.started = s.released + 1 + (if s.opened then 1 else 0) + (s.queue ++ [msg]).countP Msg.isIntPoll
      rw [List.countP_append, List.countP_singleton, other]
      exact once mcuPs
  · rw [opened, measured]
    cases room <;> exact channel
  · rw [queue]
    exact answered_sendMsg answered room msg known

/-- A handler that measures nothing and sends nothing. -/
theorem Sound.after (sound : s.Sound build) {msg : Msg} {rest : List Msg} (queue : s.queue = msg :: rest)
    (right : t.Right build) (kept : t.queue = rest) (opened : t.opened = s.opened) (channel : t.channel = s.channel) :
    t.Sound build := by
  refine ⟨right, ?_, ?_⟩
  · rw [opened, channel]
    exact sound.channel
  · rw [kept]
    intro next member
    exact sound.answered next (queue ▸ List.mem_cons_of_mem _ member)

/-- The measurement of a message that was taken is still to be released. -/
theorem Sound.polled (sound : s.Sound build) {msg : Msg} {rest : List Msg} (queue : s.queue = msg :: rest)
    (poll : msg.isIntPoll = true) (mcuPs : build.mcuPs = true) :
    s.started = s.released + 1 + (if s.opened then 1 else 0) + rest.countP Msg.isIntPoll := by
  have once := (sound.right.booked mcuPs).once
  rw [queue, List.countP_cons, poll] at once
  simp only [if_true] at once
  omega

/-- A result was polled: the hold is released, and the next link follows. -/
theorem Sound.tempPolled (sound : s.Sound build) (rest : List Msg) (queue : s.queue = .tmpdIntPoll :: rest)
    (room : Bool) (fine : { s with queue := rest }.Going build ∨
      if s.detectIntvalChange + 1 = build.detectIntvalChange then room = true ∧
        s.detectIntval.toUInt32 ≠ adcTmepDetectIntval
      else (build.volt && build.wideVoltage) = true → room = true) :
    ({ s with queue := rest }.tempPollingHandler build room).Sound build := by
  have answered : ∀ msg ∈ rest, Msg.Answered build msg := fun msg member =>
    sound.answered msg (queue ▸ List.mem_cons_of_mem _ member)
  have once := sound.polled queue rfl
  unfold tempPollingHandler
  simp only
  split
  next last =>
    rw [if_pos last] at fine
    refine Sound.released room .changeParam ?_ sound.channel answered rfl trivial once
    rcases fine with going | ⟨rfl, differs⟩
    · exact Going.sendMsg (s := { s with queue := rest, detectIntvalChange := s.detectIntvalChange + 1 }) going room .changeParam
    · exact Going.sent .changeParam differs
  next early =>
    rw [if_neg early] at fine
    split
    next wide =>
      refine Sound.released room .voltTimerPoll ?_ sound.channel answered rfl trivial once
      rcases fine with going | sent
      · exact Going.sendMsg (s := { s with queue := rest, detectIntvalChange := s.detectIntvalChange + 1 }) going room
          .voltTimerPoll
      · rw [sent wide]
        exact Going.sent .voltTimerPoll (Bool.and_eq_true_iff.1 wide).1
    next narrow =>
      obtain ⟨kept, opened, channel, -⟩ := @release_fields build
        { s with queue := rest, detectIntvalChange := s.detectIntvalChange + 1, timerRunning := true }
      exact sound.after queue ⟨release_going.2 (.inr (.inl rfl)),
        fun mcuPs => release_booked mcuPs (once mcuPs)⟩ kept opened
        channel

/-- The message of a poll by the timer opens the ADC or starts the timer. -/
theorem Sound.timerPolled (sound : s.Sound build) (msg : Msg) (rest : List Msg) (queue : s.queue = msg :: rest)
    (other : msg.isIntPoll = false) (channel : Channel) (type : UInt8) (opens : Bool) (built : Built build channel) :
    ({ s with queue := rest }.timerPoll build channel type opens).Sound build := by
  obtain ⟨kept, measured⟩ := @timerPoll_queue build { s with queue := rest } channel type opens
  refine ⟨⟨timerPoll_going channel type opens, fun mcuPs =>
    timerPoll_booked ((sound.right.booked mcuPs).tail queue other) channel type opens mcuPs⟩, ?_, ?_⟩
  · intro opened
    rcases measured opened with ⟨before, same⟩ | same
    · rw [same]
      exact sound.channel before
    · rw [same]
      exact built
  · rw [kept]
    intro next member
    exact sound.answered next (queue ▸ List.mem_cons_of_mem _ member)

/-- The message of a poll that is not compiled. -/
theorem Sound.ignored (sound : s.Sound build) (msg : Msg) (rest : List Msg) (queue : s.queue = msg :: rest)
    (other : msg.isIntPoll = false) (pause : msg ≠ .pauseTimer) (idle : ¬ Rearms build s.detectIntval msg) :
    { s with queue := rest }.Sound build :=
  ⟨⟨sound.right.going.tail queue pause idle, fun mcuPs => (sound.right.booked mcuPs).tail queue other⟩, sound.channel,
    fun next member => sound.answered next (queue ▸ List.mem_cons_of_mem _ member)⟩

theorem Sound.taken (sound : s.Sound build) (msg : Msg) (rest : List Msg) (queue : s.queue = msg :: rest)
    (opens room : Bool)
    (fine : s.Fine build (.taken opens room)) : ({ s with queue := rest }.handle build opens room msg).Sound build := by
  have answered : ∀ next ∈ rest, Msg.Answered build next := fun next member =>
    sound.answered next (queue ▸ List.mem_cons_of_mem _ member)
  cases msg with
  | pauseTimer =>
    exact ⟨⟨.inl (.inl rfl), fun mcuPs => ((sound.right.booked mcuPs).tail queue rfl).congr rfl rfl rfl rfl rfl⟩,
      sound.channel, answered⟩
  | restartTimer =>
    exact ⟨⟨.inr (.inl rfl), fun mcuPs => ((sound.right.booked mcuPs).tail queue rfl).congr rfl rfl rfl rfl rfl⟩,
      sound.channel, answered⟩
  | changeParam =>
    obtain ⟨kept, opened, channel, hold, started, released⟩ :=
      @changeConfiguration_fields build { s with queue := rest }
      adcTmepDetectIntval s.detectThre.toUInt32 0
    refine sound.after queue ⟨?_, fun mcuPs => ?_⟩ kept opened channel
    · by_cases differs : s.detectIntval.toUInt32 = adcTmepDetectIntval
      · exact changeConfiguration_going (sound.right.going.tail queue (by simp) fun rearms => rearms differs) _ _ _
      · exact .inr (.inl (@changeConfiguration_running build { s with queue := rest } differs _ _))
    · exact ((sound.right.booked mcuPs).tail queue rfl).congr kept opened hold started released
  | tmpdTimerPoll =>
    rw [handle]
    split
    next temp => exact sound.timerPolled _ rest queue rfl .temp 1 opens temp
    next missing => exact sound.ignored _ rest queue rfl (by simp) missing
  | tmpdIntPoll =>
    have temp : build.temp = true := sound.answered .tmpdIntPoll (queue ▸ List.mem_cons_self)
    rw [handle, if_pos temp]
    refine sound.tempPolled rest queue room ?_
    have known := fine (by rw [queue]; rfl)
    rwa [queue] at known
  | voltTimerPoll =>
    rw [handle]
    split
    next volt => exact sound.timerPolled _ rest queue rfl .volt 2 opens volt
    next missing => exact sound.ignored _ rest queue rfl (by simp) missing
  | voltIntPoll =>
    have volt : build.volt = true := sound.answered .voltIntPoll (queue ▸ List.mem_cons_self)
    rw [handle, if_pos volt]
    obtain ⟨kept, opened, channel, -⟩ := @release_fields build { s with queue := rest, timerRunning := true }
    exact sound.after queue ⟨release_going.2 (.inr (.inl rfl)), fun mcuPs =>
      release_booked mcuPs (sound.polled queue rfl mcuPs)⟩ kept opened channel

theorem step_sound (sound : s.Sound build) (event : Event) (fine : s.Fine build event)
    (taken : step build event s = some t) :
    t.Sound build := by
  cases event with
  | timerExpires room =>
    simp only [step, Option.ite_none_right_eq_some, Option.some.injEq] at taken
    obtain ⟨-, rfl⟩ := taken
    exact sound.sendMsg room _ (by split <;> rfl)
  | taken opens room =>
    simp only [step] at taken
    split at taken
    · cases taken
    next msg rest queue =>
      obtain rfl := Option.some.inj taken
      exact sound.taken msg rest queue opens room fine
  | sampled pData room =>
    obtain rfl := Option.some.inj taken
    exact sound.detectHandler pData room fine
  | configured intval thre dist =>
    obtain rfl := Option.some.inj taken
    obtain ⟨queue, opened, channel, hold, started, released⟩ := @changeConfiguration_fields build s intval thre dist
    refine ⟨⟨changeConfiguration_going sound.right.going intval thre dist, fun mcuPs =>
      (sound.right.booked mcuPs).congr queue opened hold started released⟩, ?_, ?_⟩
    · rw [opened, channel]
      exact sound.channel
    · rw [queue]
      exact sound.answered
  | pauseRequested room =>
    obtain rfl := Option.some.inj taken
    unfold pauseTimer
    split
    · exact sound.sendMsg room _ rfl
    · exact sound
  | restartRequested room =>
    obtain rfl := Option.some.inj taken
    unfold restartDetect
    split
    · exact sound
    · exact sound.sendMsg room _ rfl

/-! ## A lost link -/

/-- The interrupt closes the ADC, and the task is told nothing. -/
theorem detectHandler_lost (pData : List UInt16) (room : Bool) (opened : s.opened = true)
    (lost : ¬ (0 < (pData.drop build.skip).countP (isValid build) ∧ room = true)) :
    s.detectHandler build pData room = { s with opened := false } := by
  unfold Detect.detectHandler
  rw [if_neg (by simp [opened])]
  simp only
  split
  · rfl
  next valid =>
    have full : room = false := Bool.eq_false_iff.2 fun sent => lost ⟨by omega, sent⟩
    rw [full]
    rfl

theorem Sound.detectHandler_spoils (sound : s.Sound build) (pData : List UInt16) (room : Bool)
    (bad : ¬ s.Fine build (.sampled pData room)) : ¬ (s.detectHandler build pData room).Right build := by
  simp only [Fine, Classical.not_imp, not_or] at bad
  obtain ⟨opened, lost, stalls⟩ := bad
  rw [detectHandler_lost pData room opened lost]
  intro right
  cases mcuPs : build.mcuPs with
  | false => exact stalls ⟨mcuPs, right.going⟩
  | true =>
    -- one measurement more was started than is accounted for without the ADC
    have before := (sound.right.booked mcuPs).once
    have after := (right.booked mcuPs).once
    rw [opened] at before
    simp only [if_true, Bool.false_eq_true, if_false] at before after
    omega

/-- What keeps the detection going is not the message that was sent. -/
theorem Going.unsent {room : Bool} {msg : Msg} (other : msg ≠ .pauseTimer) (going : (s.sendMsg room msg).Going build) :
    s.Going build ∨ room = true ∧ Rearms build s.detectIntval msg := by
  cases room with
  | false => exact .inl going
  | true =>
    rcases going with (paused | asked) | running | opened | ⟨next, member, rearms⟩
    · exact .inl (.inl (.inl paused))
    · cases List.mem_append.1 asked with
      | inl earlier => exact .inl (.inl (.inr earlier))
      | inr last => exact absurd (List.mem_singleton.1 last).symm other
    · exact .inl (.inr (.inl running))
    · exact .inl (.inr (.inr (.inl opened)))
    · cases List.mem_append.1 member with
      | inl earlier => exact .inl (.inr (.inr (.inr ⟨next, earlier, rearms⟩)))
      | inr last => exact .inr ⟨rfl, List.mem_singleton.1 last ▸ rearms⟩

theorem tempPollingHandler_spoils (room : Bool) (stalls : ¬ s.Going build)
    (bad : ¬ if s.detectIntvalChange + 1 = build.detectIntvalChange then
        room = true ∧ s.detectIntval.toUInt32 ≠ adcTmepDetectIntval
      else (build.volt && build.wideVoltage) = true → room = true) :
    ¬ (s.tempPollingHandler build room).Going build := by
  unfold tempPollingHandler
  rw [release_going]
  simp only
  split
  next last =>
    rw [if_pos last] at bad
    intro going
    rcases Going.unsent (by simp) going with before | sent
    · exact stalls before
    · exact bad sent
  next early =>
    rw [if_neg early, Classical.not_imp] at bad
    rw [if_pos bad.1]
    intro going
    rcases Going.unsent (by simp) going with before | ⟨sent, -⟩
    · exact stalls before
    · exact bad.2 sent

theorem step_spoils (sound : s.Sound build) (event : Event) (bad : ¬ s.Fine build event)
    (taken : step build event s = some t) :
    ¬ t.Right build := by
  cases event with
  | sampled pData room =>
    obtain rfl := Option.some.inj taken
    exact sound.detectHandler_spoils pData room bad
  | taken opens room =>
    simp only [Fine, Classical.not_imp, not_or] at bad
    obtain ⟨head, stalls, link⟩ := bad
    simp only [step] at taken
    split at taken
    · cases taken
    next msg rest queue =>
      rw [queue] at head stalls
      obtain rfl := Option.some.inj head
      obtain rfl := Option.some.inj taken
      have temp : build.temp = true := sound.answered .tmpdIntPoll (queue ▸ List.mem_cons_self)
      rw [handle, if_pos temp]
      intro right
      exact @tempPollingHandler_spoils build { s with queue := rest } room stalls link right.going
  | timerExpires room => exact absurd trivial bad
  | configured intval thre dist => exact absurd trivial bad
  | pauseRequested room => exact absurd trivial bad
  | restartRequested room => exact absurd trivial bad

/-! ## Results -/

/-- The detection goes on and the holds are booked throughout a run if and only if it loses no link. -/
theorem detection_right_iff {moments : List (Moment Detect Event)} {final : Detect}
    (run : Run (Machine.Step (step build)) (start build) moments final) :
    Machine.Always (Right build) moments final ↔ ∀ moment ∈ moments, Fine build moment.before moment.event :=
  @Machine.always_iff_of_invariant _ _ _ _ _ _ (Sound build) (Right build) (fun _ _ => True) (Fine build) run start_sound
    (fun _ sound => sound.right) (fun sound _ fine taken => step_sound sound _ fine taken)
    (fun sound _ bad taken => step_spoils sound _ bad taken) (fun _ _ => trivial)

instance (s : Detect) (event : Event) : Decidable (s.Fine build event) := by
  cases event <;> unfold Fine <;> infer_instance

/-- Both are compiled, and the flash takes a wide range of voltages. -/
def bk7231n : Build where
  temp := true
  volt := true
  some := .inl rfl
  mcuPs := true
  wideVoltage := true
  skip := 5
  invalid := 2048
  lsbPer10Degree := 18

/-- The temperature is measured, then the voltage, and the timer runs again. -/
def oneRound : List Event :=
  [.taken true true, .sampled (List.replicate 10 900) true, .taken true true, .taken true true,
    .sampled (List.replicate 10 900) true, .taken true true, .timerExpires true]

theorem detection_right_sample :
    ∃ moments final, Run (Machine.Step (step bk7231n)) (start bk7231n) moments final ∧
      moments.map Moment.event = oneRound ∧ Machine.Always (Right bk7231n) moments final := by
  obtain ⟨moments, final, run, events, fine, -⟩ :=
    @Machine.run_of_fine _ _ (step bk7231n) (start bk7231n) (Fine bk7231n) _
    oneRound (fun state => state.timerRunning = true ∧ state.released = 2) (by decide)
  exact ⟨moments, final, run, events, (detection_right_iff run).2 fine⟩

/-- All samples are 0: nothing starts the timer or the ADC again, and the hold stays. -/
theorem zero_samples_stall :
    ∃ moments final, Run (Machine.Step (step bk7231n)) (start bk7231n) moments final ∧
      moments.map Moment.event = [.sampled (List.replicate 10 0) true, .taken true true, .timerExpires true] ∧
      ¬ final.Going bk7231n ∧ final.hold ≠ 0 ∧ ¬ Machine.Always (Right bk7231n) moments final := by
  obtain ⟨moments, final, run, events, shown⟩ := @Machine.run_of_any _ _ (step bk7231n) (start bk7231n)
    [.sampled (List.replicate 10 0) true, .taken true true, .timerExpires true]
    (fun state => ¬ state.Going bk7231n ∧ state.hold ≠ 0) (by decide)
  obtain ⟨stalls, held⟩ := of_decide_eq_true shown
  exact ⟨moments, final, run, events, stalls, held, fun always => stalls always.2.going⟩

end Detect

end BekenSdk.TempDetect
