import Mathlib.Data.List.Nodup
import BekenSdk.SaradcIntf.Poll

/-! Which samples an object's callback gets. As long as no wait for the semaphore times out, the ADC is closed once for
every opening before the task goes on, and what the semaphore stands for was sampled for the object that waits.
-/

set_option autoImplicit false

namespace BekenSdk.SaradcIntf
open Base

/-! ## What is claimed -/

/-- The callback has the value of a complete set of samples, taken on the object's channel after the ADC was opened for
it. -/
structure Delivers (chip : Chip) (opening : Opening) (callback : Callback) : Prop where
  obj : opening.obj = callback.obj
  visit : opening.visit = callback.visit
  channel : opening.channel.toUInt32 = callback.channel
  complete : opening.samples.length = chip.bufferSize
  value : callback.newMv = chip.mv (State.valueOf chip opening.channel opening.samples)

structure Good (chip : Chip) (s : State) : Prop where
  delivered : ∀ callback ∈ s.callbacks, ∃ k < s.opens, Delivers chip (s.openings k) callback
  once : (s.callbacks.map fun callback => (callback.obj, callback.poll)).Nodup
  /-- Each handle is closed once, the latest one no later than the task goes on. -/
  closed : ∀ k < s.opens, (s.openings k).closed = 1 ∨
    (s.openings k).closed = 0 ∧ k + 1 = s.opens ∧ ∃ obj rest, s.task = .waiting obj rest

/-- No wait times out, and the channel of an object that gets a callback fits into the descriptor. -/
def Fine (s : State) : Event → Prop
  | .timeout => False
  | .taken =>
    match s.task with
    | .waiting obj _ => (s.objs obj).cb → (s.objs obj).channel < 256
    | _ => True
  | _ => True

/-! ## The invariant -/

/-- The objects that the poll still has to come to. -/
def Task.objs : Task → List Nat
  | .idle => []
  | .next rest => rest
  | .opening obj _ rest => obj :: rest
  | .waiting obj rest => obj :: rest

/-- The hardware converts for the task's descriptor. -/
def State.Converting (s : State) : Prop := s.saradc.enabled = true ∧ s.saradc.desc = .own

/-- No handle is open, and no sample will come. -/
structure Quiet (s : State) : Prop where
  sema : s.semaWaitEnd = false
  handle : s.adcHandle = none
  still : ¬s.Converting
  closed : ∀ k < s.opens, (s.openings k).closed = 1

/-- The descriptor is set for the object. -/
structure Configured (chip : Chip) (obj : Nat) (s : State) : Prop where
  channel : s.adcCfg.channel = (s.objs obj).channel.toUInt8
  cnt : s.adcCfg.currentSampleDataCnt = 0
  size : s.adcCfg.pData.length = chip.bufferSize

/-- The latest opening is that of the object that waits. -/
structure Waiting (k waiter : Nat) (s : State) : Prop where
  opens : s.opens = k + 1
  obj : (s.openings k).obj = waiter
  visit : (s.openings k).visit = s.visits
  channel : (s.openings k).channel = (s.objs waiter).channel.toUInt8
  closed : ∀ j < k, (s.openings j).closed = 1

/-- The samples so far are those in the buffer. -/
structure Sampling (chip : Chip) (k : Nat) (s : State) : Prop where
  busy : s.saradc.isBusy = true
  alone : s.others = 0
  opening : s.saradc.opening = k
  channel : s.saradc.channel = (s.openings k).channel
  few : s.adcCfg.currentSampleDataCnt < chip.bufferSize
  size : s.adcCfg.pData.length = chip.bufferSize
  samples : (s.openings k).samples = s.adcCfg.pData.take s.adcCfg.currentSampleDataCnt

/-- The handle is open; the hardware may also not convert for it, when the device was open or the channel refused. -/
structure Pending (chip : Chip) (k : Nat) (s : State) : Prop where
  sema : s.semaWaitEnd = false
  handle : s.adcHandle = some k
  closed : (s.openings k).closed = 0
  sampling : s.Converting → Sampling chip k s

/-- All samples have come, and the semaphore stands for them. -/
structure Done (chip : Chip) (k : Nat) (s : State) : Prop where
  sema : s.semaWaitEnd = true
  handle : s.adcHandle = none
  closed : (s.openings k).closed = 1
  still : ¬s.Converting
  complete : (s.openings k).samples.length = chip.bufferSize
  value : s.adcCfg.pData.getD 0 0 = State.valueOf chip (s.openings k).channel (s.openings k).samples

def Phase (chip : Chip) (s : State) : Prop :=
  match s.task with
  | .idle => Quiet s
  | .next _ => Quiet s
  | .opening obj _ _ => Quiet s ∧ Configured chip obj s
  | .waiting obj _ => ∃ k, Waiting k obj s ∧ (Pending chip k s ∨ Done chip k s)

structure Inv (chip : Chip) (s : State) : Prop where
  listed : s.adcObjList.Nodup
  useCnt : s.dev.useCnt = s.others + if s.adcHandle.isSome then 1 else 0
  opened : s.dev.opened = true ↔ 0 < s.dev.useCnt
  delivered : ∀ callback ∈ s.callbacks, ∃ k < s.opens, Delivers chip (s.openings k) callback
  once : (s.callbacks.map fun callback => (callback.obj, callback.poll)).Nodup
  polled : ∀ callback ∈ s.callbacks, callback.poll ≤ s.polls
  coming : s.task.objs.Nodup
  ahead : ∀ callback ∈ s.callbacks, callback.poll = s.polls → callback.obj ∉ s.task.objs
  phase : Phase chip s

variable {chip : Chip} {s t : State}

theorem Inv.good (inv : Inv chip s) : Good chip s := by
  refine ⟨inv.delivered, inv.once, ?_⟩
  have phase := inv.phase
  rw [Phase] at phase
  split at phase
  · exact fun k small => Or.inl (phase.closed k small)
  · exact fun k small => Or.inl (phase.closed k small)
  · exact fun k small => Or.inl (phase.1.closed k small)
  next obj rest task =>
    obtain ⟨last, waiting, state⟩ := phase
    intro k small
    rw [waiting.opens] at small ⊢
    rcases Nat.lt_or_eq_of_le (Nat.le_of_lt_succ small) with before | rfl
    · exact Or.inl (waiting.closed k before)
    · rcases state with pending | done
      · exact Or.inr ⟨pending.closed, rfl, obj, rest, task⟩
      · exact Or.inl done.closed

theorem Inv.initial (objs : Nat → AdcObj) : Inv chip (State.initial objs) where
  listed := List.nodup_nil
  useCnt := rfl
  opened := ⟨fun opened => Bool.noConfusion opened, fun used => absurd used (Nat.lt_irrefl 0)⟩
  delivered _ member := absurd member List.not_mem_nil
  once := List.nodup_nil
  polled _ member := absurd member List.not_mem_nil
  coming := List.nodup_nil
  ahead _ member := absurd member List.not_mem_nil
  phase := ⟨rfl, rfl, fun converting => Bool.noConfusion converting.1, fun _ small => absurd small (Nat.not_lt_zero _)⟩

/-! ## The list and the poll -/

theorem Inv.objectsChanged (inv : Inv chip s) (idle : s.task = .idle) {objs : Nat → AdcObj} {list : List Nat}
    (nodup : list.Nodup) : Inv chip { s with objs := objs, adcObjList := list } where
  listed := nodup
  useCnt := inv.useCnt
  opened := inv.opened
  delivered := inv.delivered
  once := inv.once
  polled := inv.polled
  coming := inv.coming
  ahead := inv.ahead
  phase := by
    have quiet := inv.phase
    rw [Phase, idle] at quiet
    rw [Phase]
    dsimp only
    rw [idle]
    exact ⟨quiet.sema, quiet.handle, quiet.still, quiet.closed⟩

theorem Inv.poll (inv : Inv chip s) (idle : s.task = .idle) :
    Inv chip { s with task := .next s.adcObjList, polls := s.polls + 1 } where
  listed := inv.listed
  useCnt := inv.useCnt
  opened := inv.opened
  delivered := inv.delivered
  once := inv.once
  polled callback member := Nat.le_succ_of_le (inv.polled callback member)
  coming := inv.listed
  ahead callback member now := absurd (inv.polled callback member) (by rw [now]; exact Nat.not_succ_le_self _)
  phase := by
    have quiet := inv.phase
    rw [Phase, idle] at quiet
    exact ⟨quiet.sema, quiet.handle, quiet.still, quiet.closed⟩

/-- The task goes on to objects that are among those to come. -/
theorem Inv.goOn (inv : Inv chip s) {task : Task} (fewer : task.objs.Sublist s.task.objs)
    (phase : Phase chip { s with task := task }) : Inv chip { s with task := task } where
  listed := inv.listed
  useCnt := inv.useCnt
  opened := inv.opened
  delivered := inv.delivered
  once := inv.once
  polled := inv.polled
  coming := inv.coming.sublist fewer
  ahead callback member now found := inv.ahead callback member now (fewer.subset found)
  phase := phase

theorem Inv.visit (inv : Inv chip s) {obj : Nat} {rest : List Nat} (task : s.task = .next (obj :: rest)) :
    Inv chip { s.adcConfigInit chip obj with visits := s.visits + 1, task := .opening obj 0 rest } where
  listed := inv.listed
  useCnt := inv.useCnt
  opened := inv.opened
  delivered := inv.delivered
  once := inv.once
  polled := inv.polled
  coming := by
    have coming := inv.coming
    rw [task] at coming
    exact coming
  ahead := by
    have ahead := inv.ahead
    rw [task] at ahead
    exact ahead
  phase := by
    have quiet := inv.phase
    rw [Phase, task] at quiet
    exact ⟨⟨quiet.sema, quiet.handle, quiet.still, quiet.closed⟩, ⟨rfl, rfl, List.length_replicate⟩⟩

/-! ## Opening -/

/-- What opening the device for the task leaves. -/
theorem ddevOpen_own (channel : UInt8) :
    (s.dev.opened = true ∧ (s.ddevOpen chip .own channel).saradc = s.saradc ∨
      s.dev.opened = false ∧ ((s.ddevOpen chip .own channel).saradc = s.saradc ∨
        (s.ddevOpen chip .own channel).saradc = ⟨true, true, .own, channel, s.opens⟩)) := by
  rw [State.ddevOpen]
  cases opened : s.dev.opened with
  | true => exact Or.inl ⟨rfl, rfl⟩
  | false =>
    refine Or.inr ⟨rfl, ?_⟩
    rw [if_neg Bool.false_ne_true, State.saradcOpen]
    split
    · exact Or.inl rfl
    · exact Or.inr rfl

/-- The parts of the state that opening and closing the device leave. -/
structure SameBooks (s t : State) : Prop where
  objs : t.objs = s.objs
  list : t.adcObjList = s.adcObjList
  cfg : t.adcCfg = s.adcCfg
  handle : t.adcHandle = s.adcHandle
  sema : t.semaWaitEnd = s.semaWaitEnd
  task : t.task = s.task
  opens : t.opens = s.opens
  openings : t.openings = s.openings
  polls : t.polls = s.polls
  visits : t.visits = s.visits
  callbacks : t.callbacks = s.callbacks

theorem ddevOpen_same (owner : Owner) (channel : UInt8) : SameBooks s (s.ddevOpen chip owner channel) := by
  rw [State.ddevOpen]
  split
  · exact ⟨rfl, rfl, rfl, rfl, rfl, rfl, rfl, rfl, rfl, rfl, rfl⟩
  · rw [State.saradcOpen]
    split <;> exact ⟨rfl, rfl, rfl, rfl, rfl, rfl, rfl, rfl, rfl, rfl, rfl⟩

theorem ddevOpen_others (owner : Owner) (channel : UInt8) : (s.ddevOpen chip owner channel).others = s.others := by
  rw [State.ddevOpen]
  split
  · rfl
  · rw [State.saradcOpen]
    split <;> rfl

theorem ddevOpen_dev (owner : Owner) (channel : UInt8) (opened : s.dev.opened = true ↔ 0 < s.dev.useCnt) :
    (s.ddevOpen chip owner channel).dev = ⟨true, s.dev.useCnt + 1⟩ := by
  rw [State.ddevOpen]
  cases isOpen : s.dev.opened with
  | true =>
    rw [if_pos rfl]
    dsimp only
    rw [isOpen]
  | false =>
    have unused : s.dev.useCnt = 0 := by
      by_contra used
      rw [isOpen] at opened
      exact Bool.false_ne_true (opened.mpr (Nat.pos_of_ne_zero used))
    rw [if_neg Bool.false_ne_true, unused]

theorem ddevClose_same : SameBooks s s.ddevClose := by
  rw [State.ddevClose]
  split <;> exact ⟨rfl, rfl, rfl, rfl, rfl, rfl, rfl, rfl, rfl, rfl, rfl⟩

theorem ddevClose_dev (opened : s.dev.opened = true ↔ 0 < s.dev.useCnt) (used : 0 < s.dev.useCnt) :
    s.ddevClose.dev.useCnt = s.dev.useCnt - 1 ∧ (s.ddevClose.dev.opened = true ↔ 0 < s.dev.useCnt - 1) := by
  rw [State.ddevClose]
  split
  next last =>
    rw [last]
    exact ⟨rfl, fun opened => Bool.noConfusion opened, fun used => absurd used (Nat.lt_irrefl 0)⟩
  next more =>
    refine ⟨rfl, fun _ => by omega, fun _ => opened.mpr used⟩

theorem Inv.tryOpen_free (inv : Inv chip s) {obj ret : Nat} {rest : List Nat} (task : s.task = .opening obj ret rest)
    (free : s.saradc.isBusy = false) : Inv chip (s.tryOpen chip obj ret rest) := by
  have phase := inv.phase
  rw [Phase, task] at phase
  obtain ⟨quiet, configured⟩ := phase
  have same := @ddevOpen_same chip s .own s.adcCfg.channel
  have others := @ddevOpen_others chip s .own s.adcCfg.channel
  have dev := @ddevOpen_dev chip s .own s.adcCfg.channel inv.opened
  have hardware := @ddevOpen_own chip s s.adcCfg.channel
  have count := inv.useCnt
  rw [quiet.handle] at count
  rw [State.tryOpen, if_neg (by rw [free]; exact Bool.false_ne_true)]
  dsimp only
  generalize s.ddevOpen chip .own s.adcCfg.channel = d at same others dev hardware
  have other : ∀ k < s.opens, Function.update s.openings s.opens ⟨obj, s.visits, s.adcCfg.channel, [], 0⟩ k =
      s.openings k := fun k small => Function.update_of_ne (Nat.ne_of_lt small) _ _
  have latest : Function.update s.openings s.opens ⟨obj, s.visits, s.adcCfg.channel, [], 0⟩ s.opens =
      ⟨obj, s.visits, s.adcCfg.channel, [], 0⟩ := Function.update_self ..
  refine
    { listed := same.list ▸ inv.listed
      useCnt := ?_
      opened := ?_
      delivered := ?_
      once := same.callbacks ▸ inv.once
      polled := ?_
      coming := ?_
      ahead := ?_
      phase := ⟨s.opens, ⟨rfl, ?_, ?_, ?_, ?_⟩, Or.inl ⟨?_, rfl, ?_, ?_⟩⟩ }
  · show d.dev.useCnt = d.others + 1
    rw [dev, others, count]
    rfl
  · show d.dev.opened = true ↔ 0 < d.dev.useCnt
    rw [dev]
    exact iff_of_true rfl (Nat.succ_pos _)
  · intro callback member
    rw [same.callbacks] at member
    obtain ⟨k, small, delivers⟩ := inv.delivered callback member
    refine ⟨k, Nat.lt_succ_of_lt small, ?_⟩
    dsimp only
    rw [other k small]
    exact delivers
  · dsimp only
    rw [same.callbacks, same.polls]
    exact inv.polled
  · have coming := inv.coming
    rw [task] at coming
    exact coming
  · have ahead := inv.ahead
    rw [task] at ahead
    dsimp only
    rw [same.callbacks, same.polls]
    exact ahead
  · exact congrArg Opening.obj latest
  · exact (congrArg Opening.visit latest).trans same.visits.symm
  · refine (congrArg Opening.channel latest).trans ?_
    dsimp only
    rw [same.objs]
    exact configured.channel
  · intro k small
    exact (congrArg Opening.closed (other k small)).trans (quiet.closed k small)
  · exact same.sema.trans quiet.sema
  · exact congrArg Opening.closed latest
  · intro converting
    rcases hardware with ⟨-, left⟩ | ⟨closed, left | opened⟩
    · exact absurd (show s.Converting by rw [State.Converting, ← left]; exact converting) quiet.still
    · exact absurd (show s.Converting by rw [State.Converting, ← left]; exact converting) quiet.still
    · have alone : s.others = 0 := by
        by_contra others
        rw [if_neg (by decide)] at count
        exact absurd (inv.opened.mpr (by omega)) (by rw [closed]; exact Bool.false_ne_true)
      refine ⟨?_, others.trans alone, ?_, ?_, ?_, ?_, ?_⟩ <;> dsimp only
      · rw [opened]
      · rw [opened]
      · rw [opened, latest]
      · rw [same.cfg, configured.cnt]
        exact Nat.lt_of_lt_of_le (by decide) chip.large
      · rw [same.cfg]
        exact configured.size
      · rw [latest, same.cfg, configured.cnt, List.take_zero]

theorem Inv.tryOpen (inv : Inv chip s) {obj ret : Nat} {rest : List Nat} (task : s.task = .opening obj ret rest) :
    Inv chip (s.tryOpen chip obj ret rest) := by
  cases busy : s.saradc.isBusy with
  | false => exact inv.tryOpen_free task busy
  | true =>
    have phase := inv.phase
    rw [Phase, task] at phase
    obtain ⟨quiet, configured⟩ := phase
    have quiet : ∀ task : Task, Quiet { s with task := task } := fun _ =>
      ⟨quiet.sema, quiet.handle, quiet.still, quiet.closed⟩
    rw [State.tryOpen, if_pos busy]
    split
    · refine inv.goOn (by rw [task]; exact List.Sublist.refl _) ⟨quiet _, ?_⟩
      exact ⟨configured.channel, configured.cnt, configured.size⟩
    · exact inv.goOn (by rw [task]; exact List.sublist_cons_self _ _) (quiet _)

/-! ## Other users -/

/-- Where the hardware does not convert for the task, only its books count. -/
theorem Phase.of_same (phase : Phase chip s) (same : SameBooks s t) (still : ¬t.Converting) : Phase chip t := by
  have quiet : Quiet s → Quiet t := fun quiet =>
    ⟨same.sema.trans quiet.sema, same.handle.trans quiet.handle, still, by
      rw [same.opens, same.openings]
      exact quiet.closed⟩
  rw [Phase] at phase ⊢
  rw [same.task]
  split at phase
  · exact quiet phase
  · exact quiet phase
  · obtain ⟨before, configured⟩ := phase
    refine ⟨quiet before, ?_, ?_, ?_⟩
    · rw [same.cfg, same.objs]
      exact configured.channel
    · rw [same.cfg]
      exact configured.cnt
    · rw [same.cfg]
      exact configured.size
  · obtain ⟨k, waiting, state⟩ := phase
    refine ⟨k, ⟨same.opens.trans waiting.opens, ?_, ?_, ?_, ?_⟩, ?_⟩
    · rw [same.openings]
      exact waiting.obj
    · rw [same.openings, same.visits]
      exact waiting.visit
    · rw [same.openings, same.objs]
      exact waiting.channel
    · rw [same.openings]
      exact waiting.closed
    · rcases state with pending | done
      · refine Or.inl ⟨same.sema.trans pending.sema, same.handle.trans pending.handle, ?_, fun converting =>
          absurd converting still⟩
        rw [same.openings]
        exact pending.closed
      · refine Or.inr ⟨same.sema.trans done.sema, same.handle.trans done.handle, ?_, still, ?_, ?_⟩
        · rw [same.openings]
          exact done.closed
        · rw [same.openings]
          exact done.complete
        · rw [same.cfg, same.openings]
          exact done.value

theorem Inv.of_same (inv : Inv chip s) (same : SameBooks s t)
    (useCnt : t.dev.useCnt = t.others + if t.adcHandle.isSome then 1 else 0)
    (opened : t.dev.opened = true ↔ 0 < t.dev.useCnt) (still : ¬t.Converting) : Inv chip t where
  listed := same.list ▸ inv.listed
  useCnt := useCnt
  opened := opened
  delivered := by
    rw [same.callbacks, same.opens, same.openings]
    exact inv.delivered
  once := same.callbacks ▸ inv.once
  polled := by
    rw [same.callbacks, same.polls]
    exact inv.polled
  coming := same.task ▸ inv.coming
  ahead := by
    rw [same.callbacks, same.polls, same.task]
    exact inv.ahead
  phase := inv.phase.of_same same still

/-- While it converts for the task, the ADC is busy, and no other user has a handle. -/
theorem Inv.converting (inv : Inv chip s) (converting : s.Converting) :
    ∃ k obj rest, s.task = .waiting obj rest ∧ Waiting k obj s ∧ Pending chip k s ∧ Sampling chip k s := by
  have phase := inv.phase
  rw [Phase] at phase
  split at phase
  · exact absurd converting phase.still
  · exact absurd converting phase.still
  · exact absurd converting phase.1.still
  next obj rest task =>
    obtain ⟨k, waiting, pending | done⟩ := phase
    · exact ⟨k, obj, rest, task, waiting, pending, pending.sampling converting⟩
    · exact absurd converting done.still

theorem Inv.still_of_free (inv : Inv chip s) (free : s.saradc.isBusy = false) : ¬s.Converting := by
  intro converting
  obtain ⟨_, _, _, _, _, _, sampling⟩ := inv.converting converting
  exact Bool.false_ne_true (free.symm.trans sampling.busy)

theorem Inv.otherOpen (inv : Inv chip s) (free : s.saradc.isBusy = false) (channel : UInt8) :
    Inv chip { s.ddevOpen chip .other channel with others := s.others + 1 } := by
  have same := @ddevOpen_same chip s .other channel
  have dev := @ddevOpen_dev chip s .other channel inv.opened
  refine inv.of_same { same with } ?_ ?_ ?_
  · dsimp only
    rw [dev, same.handle, inv.useCnt, Nat.add_right_comm]
  · dsimp only
    rw [dev]
    exact iff_of_true rfl (Nat.succ_pos _)
  · intro converting
    have before := inv.still_of_free free
    rw [State.Converting, State.ddevOpen] at converting
    split at converting
    · exact before converting
    · rw [State.saradcOpen] at converting
      split at converting
      · exact before converting
      · exact Owner.noConfusion converting.2

theorem Inv.otherDone (inv : Inv chip s) : Inv chip (if chip.closesInIsr then s.saradcClose
    else { s with saradc := { s.saradc with enabled := false } }) := by
  split
  · exact inv.of_same ⟨rfl, rfl, rfl, rfl, rfl, rfl, rfl, rfl, rfl, rfl, rfl⟩ inv.useCnt inv.opened
      fun converting => Bool.noConfusion converting.1
  · exact inv.of_same ⟨rfl, rfl, rfl, rfl, rfl, rfl, rfl, rfl, rfl, rfl, rfl⟩ inv.useCnt inv.opened
      fun converting => Bool.noConfusion converting.1

theorem Inv.otherClose (inv : Inv chip s) (others : 0 < s.others) :
    Inv chip { s.ddevClose.saradcClose with others := s.others - 1 } := by
  have count := inv.useCnt
  have used : 0 < s.dev.useCnt := by omega
  obtain ⟨useCnt, opened⟩ := ddevClose_dev inv.opened used
  refine inv.of_same { @ddevClose_same s with } ?_ ?_ fun converting => Bool.noConfusion converting.1
  · show s.ddevClose.dev.useCnt = s.others - 1 + if s.ddevClose.adcHandle.isSome then 1 else 0
    rw [useCnt, ddevClose_same.handle]
    omega
  · show s.ddevClose.dev.opened = true ↔ 0 < s.ddevClose.dev.useCnt
    rw [useCnt]
    exact opened

/-! ## The interrupt -/

/-- The parts of the state that samples for an opening leave. -/
structure Receives (k : Nat) (s t : State) : Prop where
  objs : t.objs = s.objs
  list : t.adcObjList = s.adcObjList
  task : t.task = s.task
  opens : t.opens = s.opens
  other : ∀ j, j ≠ k → t.openings j = s.openings j
  obj : (t.openings k).obj = (s.openings k).obj
  visit : (t.openings k).visit = (s.openings k).visit
  channel : (t.openings k).channel = (s.openings k).channel
  polls : t.polls = s.polls
  visits : t.visits = s.visits
  callbacks : t.callbacks = s.callbacks

theorem Receives.refl (k : Nat) (s : State) : Receives k s s :=
  ⟨rfl, rfl, rfl, rfl, fun _ _ => rfl, rfl, rfl, rfl, rfl, rfl, rfl⟩

theorem Receives.trans {k : Nat} {u : State} (first : Receives k s t) (second : Receives k t u) : Receives k s u where
  objs := second.objs.trans first.objs
  list := second.list.trans first.list
  task := second.task.trans first.task
  opens := second.opens.trans first.opens
  other j differ := (second.other j differ).trans (first.other j differ)
  obj := second.obj.trans first.obj
  visit := second.visit.trans first.visit
  channel := second.channel.trans first.channel
  polls := second.polls.trans first.polls
  visits := second.visits.trans first.visits
  callbacks := second.callbacks.trans first.callbacks

theorem Waiting.of_receives {k waiter : Nat} (waiting : Waiting k waiter s) (received : Receives k s t) :
    Waiting k waiter t where
  opens := received.opens.trans waiting.opens
  obj := received.obj.trans waiting.obj
  visit := received.visit.trans (waiting.visit.trans received.visits.symm)
  channel := by
    rw [received.channel, received.objs]
    exact waiting.channel
  closed j small := by
    rw [received.other j (Nat.ne_of_lt small)]
    exact waiting.closed j small

/-- Samples for an opening that is not complete yet change nothing that was delivered. -/
theorem Inv.of_receives (inv : Inv chip s) {k obj : Nat} {rest : List Nat} (task : s.task = .waiting obj rest)
    (waiting : Waiting k obj s) (sampling : Sampling chip k s) (received : Receives k s t)
    (useCnt : t.dev.useCnt = t.others + if t.adcHandle.isSome then 1 else 0)
    (opened : t.dev.opened = true ↔ 0 < t.dev.useCnt) (state : Pending chip k t ∨ Done chip k t) : Inv chip t where
  listed := received.list ▸ inv.listed
  useCnt := useCnt
  opened := opened
  delivered := by
    intro callback member
    rw [received.callbacks] at member
    obtain ⟨j, small, delivers⟩ := inv.delivered callback member
    have differ : j ≠ k := by
      rintro rfl
      have complete := delivers.complete
      rw [sampling.samples, List.length_take, sampling.size] at complete
      have := sampling.few
      omega
    rw [received.opens]
    exact ⟨j, small, received.other j differ ▸ delivers⟩
  once := received.callbacks ▸ inv.once
  polled := by
    rw [received.callbacks, received.polls]
    exact inv.polled
  coming := received.task ▸ inv.coming
  ahead := by
    rw [received.callbacks, received.polls, received.task]
    exact inv.ahead
  phase := by
    rw [Phase, received.task, task]
    exact ⟨k, waiting.of_receives received, state⟩

/-- The last sample is in the buffer, and the hardware is off. -/
structure Filled (chip : Chip) (k : Nat) (s : State) : Prop where
  enabled : s.saradc.enabled = false
  channel : s.saradc.channel = (s.openings k).channel
  full : s.adcCfg.currentSampleDataCnt = chip.bufferSize
  size : s.adcCfg.pData.length = chip.bufferSize
  samples : (s.openings k).samples = s.adcCfg.pData

theorem take_set (values : List UInt16) {n : Nat} (small : n < values.length) (value : UInt16) :
    (values.set n value).take (n + 1) = values.take n ++ [value] := by
  rw [List.take_succ_eq_append_getElem (by rw [List.length_set]; exact small), List.getElem_set_self,
    List.take_set_of_le (Nat.le_refl n)]

/-- The rest of the state, apart from the device. -/
structure SameRest (s t : State) : Prop where
  dev : t.dev = s.dev
  others : t.others = s.others
  handle : t.adcHandle = s.adcHandle
  sema : t.semaWaitEnd = s.semaWaitEnd

theorem takeSample_spec {k : Nat} (sampling : Sampling chip k s) (converting : s.Converting) (dacVal : UInt16) :
    Receives k s (s.takeSample chip dacVal) ∧ SameRest s (s.takeSample chip dacVal) ∧
      ((s.takeSample chip dacVal).openings k).closed = (s.openings k).closed ∧
      (Sampling chip k (s.takeSample chip dacVal) ∧ (s.takeSample chip dacVal).Converting ∨
        Filled chip k (s.takeSample chip dacVal)) := by
  have inside : s.adcCfg.currentSampleDataCnt < s.adcCfg.pData.length := sampling.size.symm ▸ sampling.few
  have next := take_set s.adcCfg.pData inside dacVal
  rw [State.takeSample, if_pos sampling.few, sampling.opening]
  dsimp only
  have self : Function.update s.openings k { s.openings k with samples := (s.openings k).samples ++ [dacVal] } k =
      { s.openings k with samples := (s.openings k).samples ++ [dacVal] } := Function.update_self ..
  have other : ∀ j, j ≠ k → Function.update s.openings k
      { s.openings k with samples := (s.openings k).samples ++ [dacVal] } j = s.openings j := fun j differ =>
    Function.update_of_ne differ _ _
  generalize Function.update s.openings k { s.openings k with samples := (s.openings k).samples ++ [dacVal] } = openings
    at self other
  have obj : (openings k).obj = (s.openings k).obj := by rw [self]
  have visit : (openings k).visit = (s.openings k).visit := by rw [self]
  have set : (openings k).channel = (s.openings k).channel := by rw [self]
  have closed : (openings k).closed = (s.openings k).closed := by rw [self]
  have received : ∀ (cfg : Desc) (saradc : Saradc), Receives k s
      { s with adcCfg := cfg, openings := openings, saradc := saradc } := fun _ _ =>
    ⟨rfl, rfl, rfl, rfl, other, obj, visit, set, rfl, rfl, rfl⟩
  have samples : (openings k).samples = (s.adcCfg.pData.set s.adcCfg.currentSampleDataCnt dacVal).take
      (s.adcCfg.currentSampleDataCnt + 1) := by
    rw [self, next, sampling.samples]
  have channel : s.saradc.channel = (openings k).channel := by
    rw [self]
    exact sampling.channel
  have size : (s.adcCfg.pData.set s.adcCfg.currentSampleDataCnt dacVal).length = chip.bufferSize := by
    rw [List.length_set, sampling.size]
  split
  next last =>
    rw [last, ← size, List.take_length] at samples
    split
    · exact ⟨received _ _, ⟨rfl, rfl, rfl, rfl⟩, closed, Or.inr ⟨rfl, channel, last, size, samples⟩⟩
    · exact ⟨received _ _, ⟨rfl, rfl, rfl, rfl⟩, closed, Or.inr ⟨rfl, channel, last, size, samples⟩⟩
  next more =>
    have few := sampling.few
    refine ⟨received _ s.saradc, ⟨rfl, rfl, rfl, rfl⟩, closed, Or.inl ⟨?_, converting⟩⟩
    exact ⟨sampling.busy, sampling.alone, sampling.opening, channel, by dsimp only; omega, size, samples⟩

theorem takeSample_filled {k : Nat} (filled : Filled chip k s) (dacVal : UInt16) : s.takeSample chip dacVal = s := by
  rw [State.takeSample, filled.full, if_neg (Nat.lt_irrefl _)]

theorem SameRest.trans {u : State} (first : SameRest s t) (second : SameRest t u) : SameRest s u :=
  ⟨second.dev.trans first.dev, second.others.trans first.others, second.handle.trans first.handle,
    second.sema.trans first.sema⟩

/-- The samples of the FIFO: the set is not complete yet, or it has become so. -/
theorem takeSamples_spec {k : Nat} (sampling : Sampling chip k s) (converting : s.Converting) (fifo : List UInt16) :
    Receives k s (fifo.foldl (State.takeSample chip) s) ∧ SameRest s (fifo.foldl (State.takeSample chip) s) ∧
      ((fifo.foldl (State.takeSample chip) s).openings k).closed = (s.openings k).closed ∧
      (Sampling chip k (fifo.foldl (State.takeSample chip) s) ∨ Filled chip k (fifo.foldl (State.takeSample chip) s)) := by
  have filled : ∀ (fifo : List UInt16) (t : State), Filled chip k t → fifo.foldl (State.takeSample chip) t = t := by
    intro fifo
    induction fifo with
    | nil => exact fun _ _ => rfl
    | cons dacVal fifo ih =>
      intro t filled
      rw [List.foldl_cons, takeSample_filled filled, ih t filled]
  induction fifo generalizing s with
  | nil => exact ⟨.refl k s, ⟨rfl, rfl, rfl, rfl⟩, rfl, Or.inl sampling⟩
  | cons dacVal fifo ih =>
    obtain ⟨received, same, closed, state⟩ := takeSample_spec sampling converting dacVal
    rw [List.foldl_cons]
    rcases state with ⟨more, still⟩ | full
    · obtain ⟨receivedRest, sameRest, closedRest, state⟩ := ih more still
      exact ⟨received.trans receivedRest, same.trans sameRest, closedRest.trans closed, state⟩
    · rw [filled fifo _ full]
      exact ⟨received, same, closed, Or.inr full⟩

theorem Inv.isr (inv : Inv chip s) (converting : s.Converting) (fifo : List UInt16) :
    Inv chip (s.saradcIsr chip fifo) := by
  obtain ⟨k, obj, rest, task, waiting, pending, sampling⟩ := inv.converting converting
  obtain ⟨received, same, closed, state⟩ := takeSamples_spec sampling converting fifo
  have count := inv.useCnt
  rw [pending.handle, sampling.alone] at count
  have count : s.dev.useCnt = 1 := count
  rw [State.saradcIsr]
  generalize fifo.foldl (State.takeSample chip) s = t at received same closed state
  rw [State.sadcDetectHandler]
  rcases state with few | filled
  · rw [if_neg (Nat.not_le.mpr few.few)]
    refine inv.of_receives task waiting sampling received ?_ ?_ (Or.inl ?_)
    · rw [same.dev, same.others, same.handle]
      exact inv.useCnt
    · rw [same.dev]
      exact inv.opened
    · exact ⟨same.sema.trans pending.sema, same.handle.trans pending.handle, closed.trans pending.closed, fun _ => few⟩
  · rw [if_pos (Nat.le_of_eq filled.full.symm)]
    have handle : t.adcHandle = some k := same.handle.trans pending.handle
    have used : t.dev.useCnt = 1 := by
      rw [same.dev]
      exact count
    simp only [State.closeHandle, handle, State.ddevClose, if_pos used, State.saradcClose]
    have self : Function.update t.openings k { t.openings k with closed := (t.openings k).closed + 1 } k =
        { t.openings k with closed := (t.openings k).closed + 1 } := Function.update_self ..
    have other : ∀ j, j ≠ k → Function.update t.openings k
        { t.openings k with closed := (t.openings k).closed + 1 } j = t.openings j := fun j differ =>
      Function.update_of_ne differ _ _
    generalize Function.update t.openings k { t.openings k with closed := (t.openings k).closed + 1 } = openings
      at self other
    have obj : (openings k).obj = (t.openings k).obj := by rw [self]
    have visit : (openings k).visit = (t.openings k).visit := by rw [self]
    have set : (openings k).channel = (t.openings k).channel := by rw [self]
    have samples : (openings k).samples = t.adcCfg.pData := by
      rw [self]
      exact filled.samples
    refine inv.of_receives task waiting sampling (received.trans ⟨rfl, rfl, rfl, rfl, other, obj, visit, set, rfl, rfl, rfl⟩)
      ?_ ?_ (Or.inr ⟨rfl, rfl, ?_, fun converting => Bool.noConfusion converting.1, ?_, ?_⟩)
    · show 0 = t.others + 0
      rw [same.others, sampling.alone]
    · exact ⟨fun opened => Bool.noConfusion opened, fun used => absurd used (Nat.lt_irrefl 0)⟩
    · show (openings k).closed = 1
      rw [self, closed, pending.closed]
    · show (openings k).samples.length = chip.bufferSize
      rw [samples, filled.size]
    · show (t.adcCfg.pData.set 0 (State.valueOf chip t.saradc.channel t.adcCfg.pData)).getD 0 0 =
        State.valueOf chip (openings k).channel (openings k).samples
      have some_ : 0 < t.adcCfg.pData.length := by
        rw [filled.size]
        exact Nat.lt_of_lt_of_le (by decide) chip.large
      rw [samples, set, ← filled.channel, List.getD_eq_getElem?_getD, List.getElem?_set_self some_, Option.getD_some]

/-! ## The callback -/

theorem Inv.taken (inv : Inv chip s) {obj : Nat} {rest : List Nat} (task : s.task = .waiting obj rest)
    (posted : s.semaWaitEnd = true) (fits : (s.objs obj).cb = true → (s.objs obj).channel < 256) :
    Inv chip (s.taken chip obj rest) := by
  have phase := inv.phase
  rw [Phase, task] at phase
  obtain ⟨k, waiting, pending | done⟩ := phase
  · exact absurd (posted.symm.trans pending.sema) (by decide)
  have coming := inv.coming
  have ahead := inv.ahead
  rw [task] at coming ahead
  obtain ⟨passed, restNodup⟩ := List.nodup_cons.mp coming
  have quiet : Quiet (s.taken chip obj rest) := by
    refine ⟨rfl, done.handle, done.still, fun j small => ?_⟩
    have small : j < k + 1 := waiting.opens ▸ small
    rcases Nat.lt_or_eq_of_le (Nat.le_of_lt_succ small) with before | rfl
    · exact waiting.closed j before
    · exact done.closed
  cases called : (s.objs obj).cb with
  | false =>
    have same : (s.taken chip obj rest).callbacks = s.callbacks := by
      rw [State.taken, called]
      rfl
    exact
      { listed := inv.listed
        useCnt := inv.useCnt
        opened := inv.opened
        delivered := same ▸ inv.delivered
        once := same ▸ inv.once
        polled := same ▸ inv.polled
        coming := restNodup
        ahead := fun callback member now found =>
          ahead callback (same ▸ member) now (List.mem_cons_of_mem _ found)
        phase := quiet }
  | true =>
    have same : (s.taken chip obj rest).callbacks =
        ⟨obj, s.polls, s.visits, (s.objs obj).channel, chip.mv (s.adcCfg.pData.getD 0 0)⟩ :: s.callbacks := by
      rw [State.taken, called]
      rfl
    have channel : (s.objs obj).channel.toUInt8.toUInt32 = (s.objs obj).channel := by
      have small := UInt32.lt_iff_toNat_lt.mp (fits called)
      apply UInt32.toNat_inj.mp
      rw [UInt8.toNat_toUInt32, UInt32.toNat_toUInt8]
      exact Nat.mod_eq_of_lt small
    refine
      { listed := inv.listed
        useCnt := inv.useCnt
        opened := inv.opened
        delivered := ?_
        once := ?_
        polled := ?_
        coming := restNodup
        ahead := ?_
        phase := quiet }
    · rw [same]
      refine List.forall_mem_cons.mpr ⟨⟨k, waiting.opens ▸ Nat.lt_succ_self k, ?_⟩, inv.delivered⟩
      refine ⟨waiting.obj, waiting.visit, ?_, done.complete, congrArg chip.mv done.value⟩
      exact (congrArg UInt8.toUInt32 waiting.channel).trans channel
    · rw [same, List.map_cons]
      refine List.nodup_cons.mpr ⟨fun found => ?_, inv.once⟩
      obtain ⟨callback, member, key⟩ := List.mem_map.mp found
      obtain ⟨sameObj, samePoll⟩ := Prod.mk.inj key
      exact ahead callback member samePoll (sameObj ▸ List.mem_cons_self)
    · rw [same]
      exact List.forall_mem_cons.mpr ⟨Nat.le_refl _, inv.polled⟩
    · rw [same]
      exact List.forall_mem_cons.mpr ⟨fun _ found => passed found, fun callback member now found =>
        ahead callback member now (List.mem_cons_of_mem _ found)⟩

/-! ## Runs -/

theorem Inv.step {event : Event} (inv : Inv chip s) (fine : Fine s event) (stepped : step chip event s = some t) :
    Inv chip t := by
  cases event with
  | init handle obj =>
    rw [SaradcIntf.step] at stepped
    split at stepped
    next idle =>
      obtain rfl := Option.some.inj stepped
      exact inv.objectsChanged idle (inv.listed.filter _)
    · cases stepped
  | start handle =>
    rw [SaradcIntf.step] at stepped
    split at stepped
    next idle =>
      obtain rfl := Option.some.inj stepped
      rw [State.adcObjStart]
      split
      · exact inv
      next absent => exact @Inv.objectsChanged _ _ inv idle s.objs _ (List.nodup_cons.mpr ⟨absent, inv.listed⟩)
    · cases stepped
  | stop handle =>
    rw [SaradcIntf.step] at stepped
    split at stepped
    next idle =>
      obtain rfl := Option.some.inj stepped
      exact @Inv.objectsChanged _ _ inv idle s.objs _ (inv.listed.filter _)
    · cases stepped
  | poll =>
    rw [SaradcIntf.step] at stepped
    split at stepped
    next idle =>
      obtain rfl := Option.some.inj stepped
      exact inv.poll idle
    · cases stepped
  | visit =>
    rw [SaradcIntf.step] at stepped
    split at stepped
    next task =>
      obtain rfl := Option.some.inj stepped
      have quiet := inv.phase
      rw [Phase, task] at quiet
      exact inv.goOn (List.nil_sublist _) ⟨quiet.sema, quiet.handle, quiet.still, quiet.closed⟩
    next task =>
      obtain rfl := Option.some.inj stepped
      exact inv.visit task
    · cases stepped
  | tryOpen =>
    rw [SaradcIntf.step] at stepped
    split at stepped
    next task =>
      obtain rfl := Option.some.inj stepped
      exact inv.tryOpen task
    · cases stepped
  | taken =>
    rw [SaradcIntf.step] at stepped
    split at stepped
    next obj rest task =>
      split at stepped
      next posted =>
        obtain rfl := Option.some.inj stepped
        rw [Fine, task] at fine
        exact inv.taken task posted fine
      · cases stepped
    · cases stepped
  | timeout => exact absurd fine id
  | isr fifo =>
    rw [SaradcIntf.step] at stepped
    split at stepped
    next converting =>
      obtain rfl := Option.some.inj stepped
      exact inv.isr converting fifo
    · cases stepped
  | otherOpen channel =>
    rw [SaradcIntf.step] at stepped
    split at stepped
    · cases stepped
    next free =>
      obtain rfl := Option.some.inj stepped
      exact inv.otherOpen (Bool.eq_false_iff.mpr free) channel
  | otherDone =>
    rw [SaradcIntf.step] at stepped
    split at stepped
    · obtain rfl := Option.some.inj stepped
      exact inv.otherDone
    · cases stepped
  | otherClose =>
    rw [SaradcIntf.step] at stepped
    split at stepped
    next others =>
      obtain rfl := Option.some.inj stepped
      exact inv.otherClose others
    · cases stepped

/-- A wait that times out leaves a handle open; a wider channel is sampled by its low byte. -/
theorem Inv.spoiled {event : Event} (inv : Inv chip s) (bad : ¬Fine s event)
    (stepped : SaradcIntf.step chip event s = some t) :
    ¬Good chip t := by
  intro good
  cases event with
  | timeout =>
    rw [SaradcIntf.step] at stepped
    split at stepped
    next obj rest task =>
      split at stepped
      · cases stepped
      next empty =>
        obtain rfl := Option.some.inj stepped
        have phase := inv.phase
        rw [Phase, task] at phase
        obtain ⟨k, waiting, pending | done⟩ := phase
        · rcases good.closed k (waiting.opens ▸ Nat.lt_succ_self k) with closed | ⟨-, -, _, _, still⟩
          · exact absurd (closed.symm.trans pending.closed) (by decide)
          · exact Task.noConfusion still
        · exact empty done.sema
    · cases stepped
  | taken =>
    rw [SaradcIntf.step] at stepped
    split at stepped
    next obj rest task =>
      split at stepped
      · obtain rfl := Option.some.inj stepped
        rw [Fine, task] at bad
        obtain ⟨called, wide⟩ := Classical.not_imp.mp bad
        have member : (⟨obj, s.polls, s.visits, (s.objs obj).channel, chip.mv (s.adcCfg.pData.getD 0 0)⟩ : Callback) ∈
            (s.taken chip obj rest).callbacks := by
          rw [State.taken, called]
          exact List.mem_cons_self
        obtain ⟨k, -, delivers⟩ := good.delivered _ member
        have channel := congrArg UInt32.toNat delivers.channel
        have small := UInt8.toNat_lt ((s.taken chip obj rest).openings k).channel
        rw [UInt8.toNat_toUInt32] at channel
        refine wide (UInt32.lt_iff_toNat_lt.mpr ?_)
        show (s.objs obj).channel.toNat < 256
        rw [← channel]
        exact small
      · cases stepped
    · cases stepped
  | init => exact bad trivial
  | start => exact bad trivial
  | stop => exact bad trivial
  | poll => exact bad trivial
  | visit => exact bad trivial
  | tryOpen => exact bad trivial
  | isr => exact bad trivial
  | otherOpen => exact bad trivial
  | otherDone => exact bad trivial
  | otherClose => exact bad trivial

/-- In a run, every callback has samples of its object, an object has one in a poll, and each handle is closed once
before the task goes on, if and only if no wait times out and no callback is for a channel that does not fit. -/
theorem credited_iff {objs : Nat → AdcObj} {moments : List (Moment State Event)} {final : State}
    (run : Run (Machine.Step (step chip)) (State.initial objs) moments final) :
    Machine.Always (Good chip) moments final ↔ ∀ moment ∈ moments, Fine moment.before moment.event :=
  @Machine.always_iff_of_invariant _ _ _ _ _ _ (Inv chip) (Good chip) (fun _ _ => True) Fine run (Inv.initial objs)
    (fun _ inv => inv.good) (fun inv _ fine stepped => inv.step fine stepped)
    (fun inv _ bad stepped => inv.spoiled bad stepped) (fun _ _ => trivial)

def sampleChip : Chip :=
  { bufferSize := 5
    large := Nat.le_refl 5
    channelMax := 12
    closesInIsr := false
    format := fun _ sum => sum
    mv := fun value => value.toNat }

/-- Object 0 on channel 1, the others on channel 2. -/
def sampleObjs (obj : Nat) : AdcObj := if obj = 0 then ⟨1, true⟩ else ⟨2, true⟩

/-- Both objects are measured. -/
def sampleEvents : List Event :=
  [.visit, .taken, .isr [20, 21, 22, 23, 24], .tryOpen, .visit, .taken, .isr [12, 13, 14], .isr [10, 11], .tryOpen,
    .visit, .poll, .start 0, .start 1]

def sampleShown (s : State) : Bool := s.callbacks.map (fun callback => (callback.obj, callback.newMv)) = [(1, 22), (0, 12)]

theorem sample_credited : ∃ moments final, Run (Machine.Step (step sampleChip)) (State.initial sampleObjs) moments final ∧
    moments.map Moment.event = sampleEvents ∧ sampleShown final = true ∧
    (Machine.Always (Good sampleChip) moments final ↔ ∀ moment ∈ moments, Fine moment.before moment.event) := by
  have found : (Machine.replay (step sampleChip) (State.initial sampleObjs) sampleEvents).any sampleShown = true := by
    decide
  obtain ⟨moments, final, run, events, shown⟩ := Machine.run_of_any found
  exact ⟨moments, final, run, events, shown, credited_iff run⟩

/-- The wait for object 0 times out; its samples come while the task tries to open the ADC for object 1. -/
def lateEvents : List Event :=
  [.taken, .tryOpen, .isr [10, 10, 10, 10, 10], .tryOpen, .visit, .timeout, .tryOpen, .visit, .poll, .start 0, .start 1]

def lateShown (s : State) : Bool :=
  s.callbacks.map (fun callback => (callback.obj, callback.newMv)) = [(1, 10)] && s.opens = 2 && (s.openings 0).obj = 0 &&
    (s.openings 0).samples = [10, 10, 10, 10, 10] && (s.openings 1).samples = []

/-- Object 1 gets a callback with the value of object 0. -/
theorem late_samples_miscredited : ∃ moments final,
    Run (Machine.Step (step sampleChip)) (State.initial sampleObjs) moments final ∧
    moments.map Moment.event = lateEvents ∧ lateShown final = true ∧ ¬Good sampleChip final := by
  have found : (Machine.replay (step sampleChip) (State.initial sampleObjs) lateEvents).any lateShown = true := by decide
  obtain ⟨moments, final, run, events, shown⟩ := Machine.run_of_any found
  refine ⟨moments, final, run, events, shown, fun good => ?_⟩
  simp only [lateShown, Bool.and_eq_true, decide_eq_true_eq] at shown
  obtain ⟨⟨⟨⟨callbacks, opens⟩, first⟩, -⟩, second⟩ := shown
  obtain ⟨callback, rest, split⟩ : ∃ callback rest, final.callbacks = callback :: rest := by
    cases list : final.callbacks with
    | nil =>
      rw [list] at callbacks
      cases callbacks
    | cons callback rest => exact ⟨callback, rest, rfl⟩
  rw [split, List.map_cons] at callbacks
  have called : callback.obj = 1 := (Prod.mk.inj (List.cons.inj callbacks).1).1
  obtain ⟨k, small, delivers⟩ := good.delivered callback (split ▸ List.mem_cons_self)
  rw [opens] at small
  obtain rfl | rfl : k = 0 ∨ k = 1 := by omega
  · exact absurd (first.symm.trans (delivers.obj.trans called)) (by decide)
  · have complete := delivers.complete
    rw [second] at complete
    exact absurd complete (by decide)

end BekenSdk.SaradcIntf
