import BekenSdk.Kernel.Blocking

/-! No task sleeps over what it waits for. The tasks that sleep in a call are those on its event list and those that
have been woken from it. While tasks wait to receive, the messages are no more than the woken
receivers; while a task keeps the queue locked, its lock count stands for those that it has still
to wake. The same holds of senders and free places, unless a reset of the queue frees more places than
it wakes senders.
-/

set_option autoImplicit false

namespace BekenSdk.Kernel
open Base

/-! ## One side of a queue

Who waits, who of them has been woken, and what there is for them; `late` says that the task which has
locked the queue is about to wait itself.
-/

/-- Each task that sleeps, once. -/
def Census (waiting woken : List Nat) (asleep : Nat → Prop) : Prop :=
  (waiting ++ woken).Nodup ∧ ∀ task, task ∈ waiting ++ woken ↔ asleep task

structure Side (fair : Prop) (locked : Bool) (late : Prop) (asleep : Nat → Prop) (waiting woken : List Nat) (there : Nat)
    (lock : Int8) : Prop where
  free : locked = false → lock = queueUNLOCKED
  held : locked = true → 0 ≤ lock.toInt
  early : late → locked = true
  covered : fair → waiting ≠ [] ∨ late → there ≤ woken.length + lock.toInt.toNat
  census : Census waiting woken asleep

theorem Census.perm {waiting woken left after : List Nat} {asleep : Nat → Prop} (census : Census waiting woken asleep)
    (same : (left ++ after).Perm (waiting ++ woken)) : Census left after asleep :=
  ⟨same.nodup_iff.mpr census.1, fun task => same.mem_iff.trans (census.2 task)⟩

/-- Nobody runs who waits. -/
theorem Census.out {waiting woken : List Nat} {asleep : Nat → Prop} {task : Nat} (census : Census waiting woken asleep)
    (up : asleep task → task ∈ woken) : task ∉ waiting := fun listed =>
  (List.nodup_append.mp census.1).2.2 task listed task
    (up ((census.2 task).mp (List.mem_append_left _ listed))) rfl

/-- The first ones are woken. -/
theorem Census.wake {waiting woken front left : List Nat} {asleep : Nat → Prop} (census : Census waiting woken asleep)
    (split : waiting = front ++ left) : Census left (woken ++ front) asleep := by
  refine census.perm ?_
  rw [split, ← List.append_assoc, List.append_assoc front]
  exact List.perm_append_comm

theorem wakeFor_eq (lock : Nat) (waiting : List Nat) :
    Queue.wakeFor lock waiting = (waiting.take lock, waiting.drop lock) := by
  induction lock generalizing waiting with
  | zero => rfl
  | succ lock ih =>
    cases waiting with
    | nil => rfl
    | cons task waiting => simp only [Queue.wakeFor, ih, List.take_succ_cons, List.drop_succ_cons]

theorem place_perm (priority : Nat → Nat) (task : Nat) (waiting : List Nat) :
    (vTaskPlaceOnEventList priority task waiting).Perm (task :: waiting) := by
  induction waiting with
  | nil => exact .refl _
  | cons first rest ih =>
    unfold vTaskPlaceOnEventList
    split
    · exact (ih.cons first).trans (.swap task first rest)
    · exact .refl _

theorem lock_up {lock : Int8} (low : 0 ≤ lock.toInt) (high : lock.toInt < 127) : (lock + 1).toInt = lock.toInt + 1 := by
  rw [Int8.toInt_add, show (1 : Int8).toInt = 1 from rfl, Int.bmod_eq_of_le] <;> omega

namespace Side
variable {fair : Prop} {locked other : Bool} {late later : Prop} {asleep : Nat → Prop} {waiting woken : List Nat}
  {there more task : Nat} {lock : Int8}

theorem le (side : Side fair locked late asleep waiting woken there lock) (less : more ≤ there) :
    Side fair locked late asleep waiting woken more lock :=
  ⟨side.free, side.held, side.early, fun is_fair someone => less.trans (side.covered is_fair someone), side.census⟩

/-- A task runs that has been woken, or did not sleep; it takes one unless there was none. -/
theorem take (side : Side fair locked late asleep waiting woken there lock) (out : task ∉ waiting)
    (less : more ≤ there - 1) :
    Side fair locked late (fun t => asleep t ∧ t ≠ task) waiting (woken.erase task) more lock := by
  obtain ⟨once, same⟩ := side.census
  obtain ⟨once_waiting, once_woken, apart⟩ := List.nodup_append.mp once
  refine ⟨side.free, side.held, side.early, fun is_fair someone => ?_, ?_, fun t => ?_⟩
  · have := side.covered is_fair someone
    rw [List.length_erase]
    split <;> omega
  · exact List.nodup_append.mpr ⟨once_waiting, once_woken.erase task, fun t listed u kept =>
      apart t listed u (List.mem_of_mem_erase kept)⟩
  · show _ ↔ asleep t ∧ t ≠ task
    rw [← same t, List.mem_append, List.mem_append, once_woken.mem_erase_iff]
    constructor
    · rintro (listed | ⟨differ, member⟩)
      · exact ⟨Or.inl listed, fun own => out (own ▸ listed)⟩
      · exact ⟨Or.inr member, differ⟩
    · rintro ⟨listed | member, differ⟩
      · exact Or.inl listed
      · exact Or.inr ⟨differ, member⟩

/-- A task runs that does not belong here. -/
theorem apart (side : Side fair locked late asleep waiting woken there lock) (no : ¬asleep task) :
    Side fair locked late (fun t => asleep t ∧ t ≠ task) waiting woken there lock :=
  ⟨side.free, side.held, side.early, side.covered, side.census.1, fun t => (side.census.2 t).trans
    ⟨fun is_asleep => ⟨is_asleep, fun own => no (own ▸ is_asleep)⟩, And.left⟩⟩

theorem moved (side : Side fair locked late asleep waiting woken there lock) (same : other = locked)
    (no : ¬later) : Side fair other later asleep waiting woken there lock :=
  ⟨same ▸ side.free, same ▸ side.held, (absurd · no), fun is_fair someone =>
    side.covered is_fair (Or.inl (someone.resolve_right no)), side.census⟩

/-- One more to have: the first of those who wait is woken, or counted. -/
theorem post (side : Side fair locked late asleep waiting woken there lock) (one : more ≤ there + 1)
    (high : lock.toInt < 127) :
    if lock = queueUNLOCKED then Side fair locked late asleep waiting.tail (woken ++ waiting.head?.toList) more lock
    else Side fair locked late asleep waiting woken more (lock + 1) := by
  by_cases free : locked = false
  · rw [if_pos (side.free free)]
    refine ⟨side.free, side.held, side.early, fun is_fair someone => ?_, side.census.wake ?_⟩
    · have rest := someone.resolve_right fun is_late => absurd (free.symm.trans (side.early is_late)) (by decide)
      cases waiting with
      | nil => exact absurd rfl rest
      | cons task waiting =>
        have := side.covered is_fair (Or.inl (List.cons_ne_nil _ _))
        rw [List.length_append, List.head?_cons, Option.toList_some, List.length_singleton]
        omega
    · cases waiting <;> rfl
  · have held : locked = true := Bool.not_eq_false _ ▸ free
    have low := side.held held
    have counted : lock ≠ queueUNLOCKED := by
      rintro rfl
      exact absurd low (by decide)
    have up := lock_up low high
    rw [if_neg counted]
    refine ⟨fun now => absurd now free, fun _ => by omega, side.early, fun is_fair someone => ?_, side.census⟩
    have := side.covered is_fair someone
    rw [up, Int.toNat_add low (by decide), show (1 : Int).toNat = 1 from rfl]
    omega

/-- A task finds nothing while it has the queue locked, and is about to wait. -/
theorem wait (side : Side fair locked late asleep waiting woken there lock) (held : locked = true)
    (none_there : there = 0) : Side fair true later asleep waiting woken there lock :=
  ⟨nofun, fun _ => side.held held, fun _ => rfl, fun _ _ => by omega, side.census⟩

/-- It goes on the event list. -/
theorem place {priority : Nat → Nat} (side : Side fair locked late asleep waiting woken there lock) (is_late : late)
    (no : ¬later) (up : ¬asleep task) : Side fair true later (fun t => asleep t ∨ t = task)
      (vTaskPlaceOnEventList priority task waiting) woken there lock := by
  have grown : (vTaskPlaceOnEventList priority task waiting ++ woken).Perm (task :: (waiting ++ woken)) :=
    (place_perm priority task waiting).append_right woken
  refine ⟨nofun, fun _ => side.held (side.early is_late), fun is_later => absurd is_later no,
    fun is_fair _ => side.covered is_fair (Or.inr is_late), ?_, fun t => ?_⟩
  · exact grown.nodup_iff.mpr (List.nodup_cons.mpr ⟨mt (side.census.2 task).mp up, side.census.1⟩)
  · rw [grown.mem_iff, List.mem_cons, side.census.2 t, or_comm]

theorem lockUp (side : Side fair false late asleep waiting woken there lock) (no : ¬later) :
    Side fair true later asleep waiting woken there queueLOCKED_UNMODIFIED := by
  refine ⟨nofun, fun _ => by decide, fun _ => rfl, fun is_fair someone => ?_, side.census⟩
  have := side.covered is_fair (Or.inl (someone.resolve_right no))
  rwa [side.free rfl] at this

/-- As many tasks are woken as were still to be. -/
theorem unlock (side : Side fair true late asleep waiting woken there lock) (no : ¬later) :
    Side fair false later asleep (waiting.drop lock.toInt.toNat) (woken ++ waiting.take lock.toInt.toNat) there
      queueUNLOCKED := by
  refine ⟨fun _ => rfl, nofun, fun is_late => absurd is_late no, fun is_fair someone => ?_,
    side.census.wake (List.take_append_drop _ _).symm⟩
  have left := List.length_pos_iff.mpr (someone.resolve_right no)
  rw [List.length_drop] at left
  have some_waiting : waiting ≠ [] := List.length_pos_iff.mp (by omega)
  have := side.covered is_fair (Or.inl some_waiting)
  rw [List.length_append, List.length_take_of_le (by omega)]
  omega

/-- A tick wakes a task. -/
theorem tick (side : Side fair locked late asleep waiting woken there lock) (listed : task ∈ waiting) :
    Side fair locked late asleep (waiting.erase task) (woken ++ [task]) there lock := by
  refine ⟨side.free, side.held, side.early, fun is_fair someone => ?_, side.census.perm ?_⟩
  · have some_waiting : waiting ≠ [] ∨ late := someone.imp_left fun _ => List.ne_nil_of_mem listed
    have := side.covered is_fair some_waiting
    rw [List.length_append]
    omega
  · have front := (List.perm_cons_erase listed).append_right woken
    refine List.Perm.trans ?_ front.symm
    rw [← List.append_assoc]
    exact List.perm_append_comm

end Side

/-! ## Counts of the queue -/

namespace Queue
variable {q after : Queue} {item : List UInt8} {position : CopyPosition}

/-- The event lists, the locks and the length stay. -/
structure SameLists (q after : Queue) : Prop where
  length : after.uxLength = q.uxLength
  rx : after.cRxLock = q.cRxLock
  tx : after.cTxLock = q.cTxLock
  senders : after.xTasksWaitingToSend = q.xTasksWaitingToSend
  receivers : after.xTasksWaitingToReceive = q.xTasksWaitingToReceive

theorem copied_to : q.SameLists (q.prvCopyDataToQueue item position) ∧
    q.uxMessagesWaiting ≤ (q.prvCopyDataToQueue item position).uxMessagesWaiting ∧
      (q.prvCopyDataToQueue item position).uxMessagesWaiting ≤ q.uxMessagesWaiting + 1 := by
  unfold prvCopyDataToQueue
  split
  · exact ⟨⟨rfl, rfl, rfl, rfl, rfl⟩, Nat.le_succ _, le_rfl⟩
  · split
    · exact ⟨⟨rfl, rfl, rfl, rfl, rfl⟩, Nat.le_succ _, le_rfl⟩
    · refine ⟨⟨rfl, rfl, rfl, rfl, rfl⟩, ?_⟩
      dsimp only
      split <;> omega

theorem copied_count (adds : position ≠ .overwrite) :
    (q.prvCopyDataToQueue item position).uxMessagesWaiting = q.uxMessagesWaiting + 1 := by
  unfold prvCopyDataToQueue
  split
  · rfl
  · split
    · rfl
    · exact congrArg (· + 1) (if_neg fun both => adds both.1)

theorem copied_some : 1 ≤ (q.prvCopyDataToQueue item position).uxMessagesWaiting := by
  unfold prvCopyDataToQueue
  split
  · exact Nat.succ_pos _
  · split <;> exact Nat.succ_pos _

theorem taken_lists : q.SameLists { q.prvCopyDataFromQueue.2 with uxMessagesWaiting := q.uxMessagesWaiting - 1 } := by
  unfold prvCopyDataFromQueue
  split <;> exact ⟨rfl, rfl, rfl, rfl, rfl⟩

end Queue

/-! ## The accounts of a state -/

namespace Window

def locksTx (w : Window) : Bool :=
  match w.stage with
  | .timing | .testing | .placing | .unlockingTx _ => true
  | .locking | .unlockingRx _ | .resuming _ => false

def locksRx (w : Window) : Bool :=
  match w.stage with
  | .timing | .testing | .placing | .unlockingTx _ | .unlockingRx _ => true
  | .locking | .resuming _ => false

/-- Its task has been put on the event list. -/
def leaves (w : Window) : Bool :=
  match w.stage with
  | .unlockingTx .sleep | .unlockingRx .sleep | .resuming .sleep => true
  | _ => false

end Window

/-- A task has found the queue full, or empty, and goes on the event list next. -/
def Late (window : Option Window) (sends : Bool) : Prop :=
  ∃ w, window = some w ∧ w.stage = .placing ∧ w.call.request.sends = sends

/-- Senders are in it as far as resets are fair to them. -/
structure Accounts (fair : Prop) (window : Option Window) (asleep : Bool → Nat → Prop) (q : Queue)
    (wokenSenders wokenReceivers : List Nat) : Prop where
  receivers : Side True (window.any Window.locksTx) (Late window false) (asleep false) q.xTasksWaitingToReceive
    wokenReceivers q.uxMessagesWaiting q.cTxLock
  senders : Side fair (window.any Window.locksRx) (Late window true) (asleep true) q.xTasksWaitingToSend
    wokenSenders (q.uxLength - q.uxMessagesWaiting) q.cRxLock

namespace Accounts
variable {fair : Prop} {window other : Option Window} {w : Window} {asleep : Bool → Nat → Prop} {q after : Queue}
  {wokenSenders wokenReceivers : List Nat} {task : Nat}

theorem late_none {sends : Bool} : ¬Late none sends := by
  rintro ⟨w, none_there, _⟩
  cases none_there

theorem not_late {stage : Stage} {sends : Bool} (stays : stage ≠ .placing) : ¬Late (some { w with stage := stage }) sends := by
  rintro ⟨_, ⟨⟩, placing, _⟩
  exact stays placing

/-- A window that opens, goes on or closes with the same locks. -/
theorem moved (accounts : Accounts fair window asleep q wokenSenders wokenReceivers)
    (tx : other.any Window.locksTx = window.any Window.locksTx) (rx : other.any Window.locksRx = window.any Window.locksRx)
    (stays : ∀ sends, ¬Late other sends) : Accounts fair other asleep q wokenSenders wokenReceivers :=
  ⟨accounts.receivers.moved tx (stays _), accounts.senders.moved rx (stays _)⟩

/-- An interrupt has sent. -/
theorem post (accounts : Accounts fair window asleep q wokenSenders wokenReceivers) (same : q.SameLists after)
    (more : q.uxMessagesWaiting ≤ after.uxMessagesWaiting) (one : after.uxMessagesWaiting ≤ q.uxMessagesWaiting + 1)
    (high : q.cTxLock.toInt < 127) :
    Accounts fair window asleep after.postFromISR.2 wokenSenders (wokenReceivers ++ after.postFromISR.1.toList) := by
  have posted := accounts.receivers.post one high
  have senders := accounts.senders.le
    (show after.uxLength - after.uxMessagesWaiting ≤ _ by rw [same.length]; omega)
  rw [← same.receivers, ← same.tx] at posted
  rw [← same.senders, ← same.rx] at senders
  unfold Queue.postFromISR
  split
  next unlocked =>
    rw [if_pos unlocked] at posted
    exact ⟨posted, senders⟩
  next locked =>
    rw [if_neg locked] at posted
    exact ⟨by rw [Option.toList_none, List.append_nil]; exact posted, senders⟩

/-- An interrupt has received. -/
theorem release (accounts : Accounts fair window asleep q wokenSenders wokenReceivers) (same : q.SameLists after)
    (taken : after.uxMessagesWaiting = q.uxMessagesWaiting - 1) (high : q.cRxLock.toInt < 127) :
    if q.cRxLock = queueUNLOCKED then
      Accounts fair window asleep after.wakeSender.2 (wokenSenders ++ after.wakeSender.1.toList) wokenReceivers
    else Accounts fair window asleep { after with cRxLock := q.cRxLock + 1 } wokenSenders wokenReceivers := by
  have receivers := accounts.receivers.le (taken ▸ Nat.sub_le _ _)
  have senders := accounts.senders.post
    (show after.uxLength - after.uxMessagesWaiting ≤ _ by rw [same.length]; omega) high
  rw [← same.receivers, ← same.tx] at receivers
  rw [← same.senders] at senders
  split
  next unlocked =>
    rw [if_pos unlocked, ← same.rx] at senders
    exact ⟨receivers, senders⟩
  next locked =>
    rw [if_neg locked] at senders
    exact ⟨receivers, senders⟩

/-- A task has sent. -/
theorem send {item : List UInt8} {position : CopyPosition}
    (accounts : Accounts fair none asleep q wokenSenders wokenReceivers) (one : position = .overwrite → q.uxLength = 1)
    (out : task ∉ q.xTasksWaitingToSend) (only : ¬asleep false task) :
    Accounts fair none (fun sends t => asleep sends t ∧ t ≠ task) (q.prvCopyDataToQueue item position).wakeReceiver.2
      (wokenSenders.erase task) (wokenReceivers ++ (q.prvCopyDataToQueue item position).wakeReceiver.1.toList) := by
  obtain ⟨same, _, more⟩ := @Queue.copied_to q item position
  have count := @Queue.copied_count q item position
  have filled := @Queue.copied_some q item position
  generalize q.prvCopyDataToQueue item position = after at same more count filled ⊢
  have unlocked : q.cTxLock = queueUNLOCKED := accounts.receivers.free rfl
  have posted := (accounts.receivers.apart only).post more (by rw [unlocked]; decide)
  have less : after.uxLength - after.uxMessagesWaiting ≤ q.uxLength - q.uxMessagesWaiting - 1 := by
    rw [same.length]
    by_cases replaces : position = .overwrite
    · rw [one replaces]
      omega
    · rw [count replaces]
      omega
  have senders := accounts.senders.take out less
  rw [if_pos unlocked, ← same.receivers, ← same.tx] at posted
  rw [← same.senders, ← same.rx] at senders
  exact ⟨posted, senders⟩

/-- A task has received. -/
theorem receive (accounts : Accounts fair none asleep q wokenSenders wokenReceivers) (same : q.SameLists after)
    (taken : after.uxMessagesWaiting = q.uxMessagesWaiting - 1) (out : task ∉ q.xTasksWaitingToReceive)
    (only : ¬asleep true task) :
    Accounts fair none (fun sends t => asleep sends t ∧ t ≠ task) after.wakeSender.2
      (wokenSenders ++ after.wakeSender.1.toList) (wokenReceivers.erase task) := by
  have unlocked : q.cRxLock = queueUNLOCKED := accounts.senders.free rfl
  have receivers := accounts.receivers.take out taken.le
  have posted := (accounts.senders.apart only).post
    (show after.uxLength - after.uxMessagesWaiting ≤ _ by rw [same.length]; omega) (by rw [unlocked]; decide)
  rw [← same.receivers, ← same.tx] at receivers
  rw [if_pos unlocked, ← same.senders, ← same.rx] at posted
  exact ⟨receivers, posted⟩

/-- A task has looked, and wakes the next one that waits for a message. -/
theorem look (accounts : Accounts fair none asleep q wokenSenders wokenReceivers) (out : task ∉ q.xTasksWaitingToReceive)
    (only : ¬asleep true task) :
    Accounts fair none (fun sends t => asleep sends t ∧ t ≠ task) q.wakeReceiver.2 wokenSenders
      (wokenReceivers.erase task ++ q.wakeReceiver.1.toList) := by
  have unlocked : q.cTxLock = queueUNLOCKED := accounts.receivers.free rfl
  have posted := (accounts.receivers.take out le_rfl).post (show q.uxMessagesWaiting ≤ _ by omega)
    (by rw [unlocked]; decide)
  rw [if_pos unlocked] at posted
  exact ⟨posted, accounts.senders.apart only⟩

/-- There was no place for a sender. -/
theorem full (accounts : Accounts fair window asleep q wokenSenders wokenReceivers)
    (full : q.uxLength ≤ q.uxMessagesWaiting) (out : task ∉ q.xTasksWaitingToSend) (only : ¬asleep false task) :
    Accounts fair window (fun sends t => asleep sends t ∧ t ≠ task) q (wokenSenders.erase task) wokenReceivers :=
  ⟨accounts.receivers.apart only, accounts.senders.take out (by omega)⟩

/-- There was no message for a receiver. -/
theorem empty (accounts : Accounts fair window asleep q wokenSenders wokenReceivers)
    (none_there : q.uxMessagesWaiting = 0) (out : task ∉ q.xTasksWaitingToReceive) (only : ¬asleep true task) :
    Accounts fair window (fun sends t => asleep sends t ∧ t ≠ task) q wokenSenders (wokenReceivers.erase task) :=
  ⟨accounts.receivers.take out (by omega), accounts.senders.apart only⟩

/-! ## A window -/

theorem locked (accounts : Accounts fair (some w) asleep q wokenSenders wokenReceivers) (stage : w.stage = .locking) :
    Accounts fair (some { w with stage := .timing }) asleep q.prvLockQueue wokenSenders wokenReceivers := by
  have tx : (some w).any Window.locksTx = false := by rw [Option.any_some, Window.locksTx, stage]
  have rx : (some w).any Window.locksRx = false := by rw [Option.any_some, Window.locksRx, stage]
  obtain ⟨receivers, senders⟩ := accounts
  rw [tx] at receivers
  rw [rx] at senders
  unfold Queue.prvLockQueue
  rw [if_pos (receivers.free rfl), if_pos (senders.free rfl)]
  exact ⟨receivers.lockUp (not_late (by decide)), senders.lockUp (not_late (by decide))⟩

/-- The queue was full, or empty, when the task looked. -/
theorem blocked (accounts : Accounts fair (some w) asleep q wokenSenders wokenReceivers) (stage : w.stage = .testing)
    (found : if w.call.request.sends then q.uxLength ≤ q.uxMessagesWaiting else q.uxMessagesWaiting = 0) :
    Accounts fair (some { w with stage := .placing }) asleep q wokenSenders wokenReceivers := by
  have tx : w.locksTx = true := by rw [Window.locksTx, stage]
  have rx : w.locksRx = true := by rw [Window.locksRx, stage]
  obtain ⟨receivers, senders⟩ := accounts
  have no {sends : Bool} (differ : w.call.request.sends ≠ sends) : ¬Late (some { w with stage := .placing }) sends := by
    rintro ⟨_, ⟨⟩, _, same⟩
    exact differ same
  by_cases sends : w.call.request.sends = true
  · rw [if_pos sends] at found
    exact ⟨receivers.moved tx.symm (no (by rw [sends]; decide)), senders.wait rx (Nat.sub_eq_zero_of_le found)⟩
  · rw [if_neg sends] at found
    exact ⟨receivers.wait tx found, senders.moved rx.symm (no sends)⟩

/-- Whoever goes on the list was about to, and is asleep from now on. -/
theorem placed {priority : Nat → Nat} {outcome : Outcome}
    (accounts : Accounts fair (some w) asleep q wokenSenders wokenReceivers) (stage : w.stage = .placing)
    (up : ∀ sends, ¬asleep sends w.task) :
    Accounts fair (some { w with stage := .unlockingTx outcome })
      (fun sends t => asleep sends t ∨ (t = w.task ∧ w.call.request.sends = sends))
      (if w.call.request.sends then
        { q with xTasksWaitingToSend := vTaskPlaceOnEventList priority w.task q.xTasksWaitingToSend }
      else
        { q with xTasksWaitingToReceive := vTaskPlaceOnEventList priority w.task q.xTasksWaitingToReceive })
      wokenSenders wokenReceivers := by
  have tx : w.locksTx = true := by rw [Window.locksTx, stage]
  have rx : w.locksRx = true := by rw [Window.locksRx, stage]
  have no {sends : Bool} : ¬Late (some { w with stage := .unlockingTx outcome }) sends := not_late (by simp)
  have joined (sends : Bool) : (fun t => asleep sends t ∨ t = w.task) =
      fun t => asleep sends t ∨ (t = w.task ∧ sends = sends) := by simp
  have apart {sends other : Bool} (differ : sends ≠ other) :
      asleep other = fun t => asleep other t ∨ (t = w.task ∧ sends = other) := by simp [differ]
  obtain ⟨receivers, senders⟩ := accounts
  cases kind : w.call.request.sends with
  | true =>
    have placed := @Side.place _ _ _ _ _ _ _ _ _ _ priority senders ⟨w, rfl, stage, kind⟩ (@no true) (up true)
    have kept := receivers.moved tx.symm (@no false)
    rw [joined] at placed
    rw [apart (by decide : true ≠ false)] at kept
    exact ⟨kept, placed⟩
  | false =>
    have placed := @Side.place _ _ _ _ _ _ _ _ _ _ priority receivers ⟨w, rfl, stage, kind⟩ (@no false) (up false)
    have kept := senders.moved rx.symm (@no true)
    rw [joined] at placed
    rw [apart (by decide : false ≠ true)] at kept
    exact ⟨placed, kept⟩

theorem unlockedTx {outcome : Outcome} (accounts : Accounts fair (some w) asleep q wokenSenders wokenReceivers)
    (stage : w.stage = .unlockingTx outcome) :
    Accounts fair (some { w with stage := .unlockingRx outcome }) asleep q.unlockTx.2 wokenSenders
      (wokenReceivers ++ q.unlockTx.1) := by
  have tx : (some w).any Window.locksTx = true := by rw [Option.any_some, Window.locksTx, stage]
  have rx : w.locksRx = true := by rw [Window.locksRx, stage]
  obtain ⟨receivers, senders⟩ := accounts
  rw [tx] at receivers
  simp only [Queue.unlockTx, wakeFor_eq]
  exact ⟨receivers.unlock (not_late (by simp)), senders.moved rx.symm (not_late (by simp))⟩

theorem unlockedRx {outcome : Outcome} (accounts : Accounts fair (some w) asleep q wokenSenders wokenReceivers)
    (stage : w.stage = .unlockingRx outcome) :
    Accounts fair (some { w with stage := .resuming outcome }) asleep q.unlockRx.2 (wokenSenders ++ q.unlockRx.1)
      wokenReceivers := by
  have tx : w.locksTx = false := by rw [Window.locksTx, stage]
  have rx : (some w).any Window.locksRx = true := by rw [Option.any_some, Window.locksRx, stage]
  obtain ⟨receivers, senders⟩ := accounts
  rw [rx] at senders
  simp only [Queue.unlockRx, wakeFor_eq]
  exact ⟨receivers.moved tx.symm (not_late (by simp)), senders.unlock (not_late (by simp))⟩

/-- A reset that wakes the only sender, or as many as there are places. -/
theorem reset (accounts : Accounts fair none asleep q wokenSenders wokenReceivers)
    (enough : fair → q.xTasksWaitingToSend.length ≤ 1 ∨ q.uxLength ≤ wokenSenders.length + 1) :
    Accounts fair none asleep (q.xQueueGenericReset false).2
      (wokenSenders ++ (q.xQueueGenericReset false).1.toList) wokenReceivers := by
  refine ⟨⟨fun _ => rfl, nofun, (absurd · late_none), fun _ _ => Nat.zero_le _, accounts.receivers.census⟩,
    ⟨fun _ => rfl, nofun, (absurd · late_none), fun is_fair someone => ?_, accounts.senders.census.wake ?_⟩⟩
  · have rest : q.xTasksWaitingToSend.tail ≠ [] := someone.resolve_right late_none
    change q.uxLength - 0 ≤ (wokenSenders ++ q.xTasksWaitingToSend.head?.toList).length + _
    cases waiting : q.xTasksWaitingToSend with
    | nil => rw [waiting] at rest; exact absurd rfl rest
    | cons task others =>
      have either := enough is_fair
      rw [waiting, List.tail_cons] at rest
      rw [waiting, List.length_cons] at either
      have more := List.length_pos_iff.mpr rest
      rw [List.length_append, List.head?_cons, Option.toList_some, List.length_singleton]
      omega
  · change _ = q.xTasksWaitingToSend.head?.toList ++ q.xTasksWaitingToSend.tail
    cases q.xTasksWaitingToSend <;> rfl

end Accounts

/-! ## Steps -/

namespace State

/-- In a call on that side: its task has been put on the event list and has not run since. -/
def Asleep (s : State) (sends : Bool) (task : Nat) : Prop :=
  (∃ call, s.tasks task = some call ∧ call.place = .sleeping ∧ call.request.sends = sends) ∨
    ∃ w, s.window = some w ∧ w.leaves = true ∧ w.task = task ∧ w.call.request.sends = sends

structure Awake (fair : Prop) (s : State) : Prop where
  accounts : Accounts fair s.window s.Asleep s.queue s.wokenSenders s.wokenReceivers
  away : ∀ w, s.window = some w → s.tasks w.task = none

variable {fair : Prop} {priority : Nat → Nat} {s next : State} {task other : Nat} {call : Pending} {w : Window}
  {timeOut sends : Bool} {after : Option Pending}

/-- A task goes on that does not sleep then. -/
theorem asleep_put (tasks : next.tasks = Function.update s.tasks task after)
    (up : ∀ call, after = some call → call.place ≠ .sleeping) (closed : ∀ w, next.window = some w → w.leaves = false)
    (own : ∀ w, s.window = some w → w.leaves = true → w.task = task) :
    next.Asleep sends other ↔ s.Asleep sends other ∧ other ≠ task := by
  unfold Asleep
  rw [tasks]
  constructor
  · rintro (⟨call, here, asleep, kind⟩ | ⟨w, here, leaves, _⟩)
    · by_cases same : other = task
      · rw [same, Function.update_self] at here
        exact absurd asleep (up call here)
      · rw [Function.update_of_ne same] at here
        exact ⟨Or.inl ⟨call, here, asleep, kind⟩, same⟩
    · rw [closed w here] at leaves
      cases leaves
  · rintro ⟨⟨call, here, asleep, kind⟩ | ⟨w, here, leaves, same, _⟩, apart⟩
    · exact Or.inl ⟨call, by rwa [Function.update_of_ne apart], asleep, kind⟩
    · exact absurd (same.symm.trans (own w here leaves)) apart

theorem asleep_same (tasks : next.tasks = Function.update s.tasks task after)
    (up : ∀ call, after = some call → call.place ≠ .sleeping) (closed : ∀ w, next.window = some w → w.leaves = false)
    (own : ∀ w, s.window = some w → w.leaves = false) (before : ∀ sends, ¬s.Asleep sends task) :
    next.Asleep = s.Asleep := by
  funext sends other
  refine propext ((asleep_put tasks up closed fun w here leaves => ?_).trans
    (and_iff_left_of_imp fun asleep same => before sends (same ▸ asleep)))
  rw [own w here] at leaves
  cases leaves

theorem asleep_inside (inside : s.window = some w) : s.Asleep sends other ↔
    (∃ call, s.tasks other = some call ∧ call.place = .sleeping ∧ call.request.sends = sends) ∨
      w.leaves = true ∧ w.task = other ∧ w.call.request.sends = sends := by
  unfold Asleep
  rw [inside]
  simp only [Option.some.injEq, exists_eq_left']

theorem attempt_awake (awake : s.Awake fair) (alone : s.window = none)
    (one : ∀ item, call.request = .send item .overwrite → s.queue.uxLength = 1)
    (out : task ∉ if call.request.sends then s.queue.xTasksWaitingToSend else s.queue.xTasksWaitingToReceive)
    (only : ∀ sends, call.request.sends ≠ sends → ¬s.Asleep sends task) : (s.attempt task call).Awake fair := by
  obtain ⟨after, tasks, window, left⟩ := @attempt_put s task call
  have up (later : Pending) (kept : after = some later) : later.place ≠ .sleeping := by
    rw [left later kept]
    rintro ⟨⟩
  have nobody (w : Window) : s.window ≠ some w := by
    rw [alone]
    rintro ⟨⟩
  have asleep : (s.attempt task call).Asleep = fun sends other => s.Asleep sends other ∧ other ≠ task := by
    funext sends other
    exact propext (asleep_put tasks up (fun w here => absurd (window ▸ here) (nobody w)) fun w here =>
      absurd here (nobody w))
  have accounts := awake.accounts
  rw [alone] at accounts
  refine ⟨?_, fun w here => absurd (window ▸ here) (nobody w)⟩
  rw [asleep, window, alone]
  unfold attempt
  cases asked : call.request with
  | send item position =>
    rw [asked] at out only
    have apart : ¬s.Asleep false task := only false (by rintro ⟨⟩)
    dsimp only
    by_cases room : s.queue.uxMessagesWaiting < s.queue.uxLength ∨ position = .overwrite
    · rw [Queue.sendAttempt, if_pos room]
      exact accounts.send (fun replaces => one item (replaces ▸ asked)) out apart
    · rw [Queue.sendAttempt, if_neg room]
      exact accounts.full (Nat.not_lt.mp fun free => room (Or.inl free)) out apart
  | receive =>
    rw [asked] at out only
    dsimp only
    by_cases some_waiting : s.queue.uxMessagesWaiting > 0
    · rw [Queue.receiveAttempt, if_pos some_waiting]
      exact accounts.receive Queue.taken_lists rfl out (only true (by decide))
    · rw [Queue.receiveAttempt, if_neg some_waiting]
      exact accounts.empty (Nat.eq_zero_of_not_pos some_waiting) out (only true (by decide))
  | peek =>
    rw [asked] at out only
    dsimp only
    by_cases some_waiting : s.queue.uxMessagesWaiting > 0
    · rw [Queue.receiveAttempt, if_pos some_waiting]
      simp only [if_true, Queue.copied_from_back]
      exact accounts.look out (only true (by decide))
    · rw [Queue.receiveAttempt, if_neg some_waiting]
      exact accounts.empty (Nat.eq_zero_of_not_pos some_waiting) out (only true (by decide))

theorem asleep_alone (alone : s.window = none) (here : s.tasks task = some call) :
    s.Asleep sends task ↔ call.place = .sleeping ∧ call.request.sends = sends := by
  unfold Asleep
  simp [alone, here]

theorem taskStep_awake (awake : s.Awake fair) (alone : s.window = none) (here : s.tasks task = some call)
    (one : ∀ item, call.request = .send item .overwrite → s.queue.uxLength = 1)
    (taken : s.taskStep task call = some next) : next.Awake fair := by
  have nobody (w : Window) : s.window ≠ some w := by
    rw [alone]
    exact nofun
  have before (sends : Bool) : s.Asleep sends task ↔ call.place = .sleeping ∧ call.request.sends = sends :=
    asleep_alone alone here
  have only (sends : Bool) (differ : call.request.sends ≠ sends) : ¬s.Asleep sends task :=
    fun asleep => differ ((before sends).mp asleep).2
  have moves {after : Option Pending} (stands : call.place ≠ .sleeping)
      (up : ∀ call, after = some call → call.place ≠ .sleeping) : (s.put task after).Awake fair := by
    refine ⟨?_, fun w here => absurd here (nobody w)⟩
    have asleep : (s.put task after).Asleep = s.Asleep :=
      asleep_same rfl up (fun w here => absurd here (nobody w)) (fun w here => absurd here (nobody w))
        fun sends asleep => stands ((before sends).mp asleep).1
    rw [asleep]
    exact awake.accounts
  have out (up : call.place = .sleeping → task ∈ s.woken call.request) :
      task ∉ if call.request.sends then s.queue.xTasksWaitingToSend else s.queue.xTasksWaitingToReceive := by
    unfold woken at up
    split
    next sends =>
      rw [if_pos sends] at up
      exact awake.accounts.senders.census.out fun asleep => up ((before true).mp asleep).1
    next receives =>
      rw [if_neg receives] at up
      exact awake.accounts.receivers.census.out fun asleep => up ((before false).mp asleep).1
  unfold taskStep at taken
  cases place : call.place with
  | attempting =>
    simp only [place, Option.some.injEq] at taken
    refine taken ▸ attempt_awake awake alone one (out fun asleep => ?_) only
    rw [place] at asleep
    cases asleep
  | suspending =>
    simp only [place, Option.some.injEq] at taken
    subst taken
    have accounts := awake.accounts
    rw [alone] at accounts
    have asleep : State.Asleep { s.put task none with window := some ⟨task, call, .locking⟩ } = s.Asleep := by
      refine asleep_same rfl nofun ?_ (fun w here => absurd here (nobody w)) fun sends asleep => ?_
      · rintro _ ⟨⟩
        rfl
      · have sleeping := ((before sends).mp asleep).1
        rw [place] at sleeping
        cases sleeping
    refine ⟨?_, ?_⟩
    · rw [asleep]
      refine accounts.moved rfl rfl ?_
      rintro _ ⟨_, ⟨⟩, placing, _⟩
      cases placing
    · rintro _ ⟨⟩
      exact Function.update_self _ _ _
  | sleeping =>
    simp only [place] at taken
    split at taken
    next woken => exact Option.some.inj taken ▸ attempt_awake awake alone one (out fun _ => woken) only
    · cases taken
  | expired =>
    have stands : call.place ≠ .sleeping := by
      rw [place]
      exact nofun
    simp only [place] at taken
    split at taken
    · exact Option.some.inj taken ▸ moves stands nofun
    · refine Option.some.inj taken ▸ moves stands ?_
      rintro _ ⟨⟩
      exact nofun

/-- The window goes on, and its task stays as it is. -/
theorem enter_awake {stage : Stage} (awake : s.Awake fair) (inside : s.window = some w)
    (same : { w with stage := stage }.leaves = w.leaves) (tasks : next.tasks = s.tasks)
    (window : next.window = some { w with stage := stage })
    (accounts : Accounts fair (some { w with stage := stage }) s.Asleep next.queue next.wokenSenders next.wokenReceivers) :
    next.Awake fair := by
  have asleep : next.Asleep = s.Asleep := by
    funext sends other
    rw [asleep_inside inside, asleep_inside window, same, tasks]
  refine ⟨by rwa [asleep, window], fun inner here => ?_⟩
  rw [window] at here
  obtain rfl := Option.some.inj here
  exact tasks ▸ awake.away w inside

theorem windowStep_awake (awake : s.Awake fair) (inside : s.window = some w) :
    (s.windowStep priority w timeOut).Awake fair := by
  have away := awake.away w inside
  have up (stays : w.leaves = false) (sends : Bool) : ¬s.Asleep sends w.task := by
    rw [asleep_inside inside, away, stays]
    rintro (⟨_, ⟨⟩, _⟩ | ⟨⟨⟩, _⟩)
  have accounts := awake.accounts
  rw [inside] at accounts
  have goes {stage : Stage} (tx : { w with stage := stage }.locksTx = w.locksTx)
      (rx : { w with stage := stage }.locksRx = w.locksRx) (leaves : { w with stage := stage }.leaves = w.leaves)
      (stays : stage ≠ .placing) : (s.enter w stage).Awake fair :=
    enter_awake awake inside leaves rfl rfl (accounts.moved tx rx fun _ => Accounts.not_late stays)
  have locks (stage : w.stage = .timing ∨ w.stage = .testing) :
      w.locksTx = true ∧ w.locksRx = true ∧ w.leaves = false := by
    unfold Window.locksTx Window.locksRx Window.leaves
    rcases stage with stage | stage <;> simp [stage]
  unfold windowStep
  cases stage : w.stage with
  | locking => exact enter_awake awake inside (by rw [Window.leaves, Window.leaves, stage]) rfl rfl (accounts.locked stage)
  | timing =>
    obtain ⟨tx, rx, leaves⟩ := locks (Or.inl stage)
    cases timeOut <;> exact goes tx.symm rx.symm leaves.symm (by decide)
  | testing =>
    obtain ⟨tx, rx, leaves⟩ := locks (Or.inr stage)
    dsimp only
    by_cases found : (if w.call.request.sends then s.queue.prvIsQueueFull else s.queue.prvIsQueueEmpty) = true
    · rw [if_pos found]
      refine enter_awake awake inside ?_ rfl rfl (accounts.blocked stage ?_)
      · exact leaves.symm
      split
      next sends =>
        rw [if_pos sends] at found
        exact (of_decide_eq_true found).ge
      next receives =>
        rw [if_neg receives] at found
        exact of_decide_eq_true found
    · rw [if_neg found]
      exact goes tx.symm rx.symm leaves.symm (by decide)
  | placing =>
    have leaves : w.leaves = false := by rw [Window.leaves, stage]
    have placed := @Accounts.placed _ _ _ _ _ _ priority .sleep accounts stage (up leaves)
    have asleep {queue : Queue} : (enter { s with queue := queue } w (.unlockingTx .sleep)).Asleep =
        fun sends t => s.Asleep sends t ∨ (t = w.task ∧ w.call.request.sends = sends) := by
      funext sends other
      rw [asleep_inside rfl, asleep_inside inside, leaves]
      simp only [Bool.false_eq_true, false_and, or_false, eq_comm (a := w.task)]
      simp only [Window.leaves, true_and]
      rfl
    dsimp only
    by_cases sends : w.call.request.sends = true
    · rw [if_pos sends] at placed ⊢
      exact ⟨by rw [asleep]; exact placed, by rintro _ ⟨⟩; exact away⟩
    · rw [if_neg sends] at placed ⊢
      exact ⟨by rw [asleep]; exact placed, by rintro _ ⟨⟩; exact away⟩
  | unlockingTx outcome =>
    refine enter_awake awake inside ?_ rfl rfl (accounts.unlockedTx stage)
    rw [Window.leaves, Window.leaves, stage]
    cases outcome <;> rfl
  | unlockingRx outcome =>
    refine enter_awake awake inside ?_ rfl rfl (accounts.unlockedRx stage)
    rw [Window.leaves, Window.leaves, stage]
    cases outcome <;> rfl
  | resuming outcome =>
    have tx : w.locksTx = false := by rw [Window.locksTx, stage]
    have rx : w.locksRx = false := by rw [Window.locksRx, stage]
    have closed : Accounts fair none s.Asleep s.queue s.wokenSenders s.wokenReceivers :=
      accounts.moved tx.symm rx.symm fun _ => Accounts.late_none
    have wakes {after : Option Pending} (leaves : w.leaves = false)
        (up_after : ∀ call, after = some call → call.place ≠ .sleeping) :
        (put { s with window := none } w.task after).Awake fair := by
      have asleep : (put { s with window := none } w.task after).Asleep = s.Asleep :=
        asleep_same rfl up_after nofun (fun v here => Option.some.inj (inside.symm.trans here) ▸ leaves) (up leaves)
      exact ⟨by rw [asleep]; exact closed, nofun⟩
    cases outcome with
    | sleep =>
      refine ⟨?_, nofun⟩
      have asleep : (put { s with window := none } w.task (some { w.call with place := .sleeping })).Asleep =
          s.Asleep := by
        funext sends other
        rw [asleep_inside inside, Window.leaves, stage]
        by_cases own : other = w.task
        · subst own
          rw [asleep_alone rfl (Function.update_self _ _ _), away]
          simp
        · simp only [Asleep, put, Function.update_of_ne own]
          simp [Ne.symm own]
      dsimp only
      rw [asleep]
      exact closed
    | retry =>
      refine wakes (by rw [Window.leaves, stage]) ?_
      rintro _ ⟨⟩
      exact nofun
    | expire =>
      refine wakes (by rw [Window.leaves, stage]) fun call kept => ?_
      dsimp only at kept
      split at kept
      · cases kept
      · obtain rfl := Option.some.inj kept
        exact nofun

theorem tickStep_awake (awake : s.Awake fair) (taken : s.tickStep task = some next) : next.Awake fair := by
  obtain ⟨receivers, senders⟩ := awake.accounts
  unfold tickStep at taken
  split at taken
  next listed =>
    obtain rfl := Option.some.inj taken
    exact ⟨⟨receivers.tick listed, senders⟩, awake.away⟩
  · split at taken
    next listed =>
      obtain rfl := Option.some.inj taken
      exact ⟨⟨receivers, senders.tick listed⟩, awake.away⟩
    · cases taken

end State

/-- No more than 127 items go through interrupts while a task keeps the queue locked: the counts have eight bits. -/
def Modest (s : State) : Event → Prop
  | .sendFromISR _ _ | .giveFromISR => s.queue.cTxLock.toInt < 127
  | .receiveFromISR => s.queue.cRxLock.toInt < 127
  | _ => True

/-- A reset wakes one sender. -/
def FairReset (s : State) : Event → Prop
  | .reset => s.queue.xTasksWaitingToSend.length ≤ 1 ∨ s.queue.uxLength ≤ s.wokenSenders.length + 1
  | _ => True

/-- The arguments are as asserted, and interrupts are modest. -/
def Proper (length size : Nat) (s : State) (event : Event) : Prop := event.Fits length size ∧ Modest s event

instance (s : State) : DecidablePred (Modest s) := fun event =>
  match event with
  | .sendFromISR _ _ | .giveFromISR => inferInstanceAs (Decidable (s.queue.cTxLock.toInt < 127))
  | .receiveFromISR => inferInstanceAs (Decidable (s.queue.cRxLock.toInt < 127))
  | .call .. | .run .. | .tick .. | .peekFromISR | .reset => inferInstanceAs (Decidable True)

instance (length size : Nat) (s : State) (event : Event) : Decidable (Proper length size s event) :=
  inferInstanceAs (Decidable (_ ∧ _))

section
variable {fair : Prop} {priority : Nat → Nat} {length size : Nat} {storage : Cells} {event : Event} {s next final : State}
  {moments : List (Moment State Event)}

theorem isrStep_awake {call : Call} {after : Queue} (awake : s.Awake fair) (same : s.queue.SameLists after)
    (more : s.queue.uxMessagesWaiting ≤ after.uxMessagesWaiting)
    (one : after.uxMessagesWaiting ≤ s.queue.uxMessagesWaiting + 1) (modest : s.queue.cTxLock.toInt < 127) :
    (s.isrStep call (some after.postFromISR)).Awake fair :=
  ⟨awake.accounts.post same more one modest, awake.away⟩

theorem receiveFromISR_awake (awake : s.Awake fair) (modest : s.queue.cRxLock.toInt < 127)
    (taken : step priority .receiveFromISR s = some next) : next.Awake fair := by
  simp only [step, Queue.xQueueReceiveFromISR] at taken
  by_cases some_waiting : s.queue.uxMessagesWaiting > 0
  · have released := awake.accounts.release Queue.taken_lists rfl modest
    rw [if_pos some_waiting] at taken
    by_cases unlocked : s.queue.cRxLock = queueUNLOCKED
    · rw [if_pos unlocked] at released
      simp only [if_pos unlocked, Option.some.injEq] at taken
      exact taken ▸ ⟨released, awake.away⟩
    · rw [if_neg unlocked] at released
      simp only [if_neg unlocked, Option.some.injEq] at taken
      subst taken
      refine ⟨?_, awake.away⟩
      rw [Option.toList_none, List.append_nil]
      exact released
  · simp only [if_neg some_waiting, Option.some.injEq] at taken
    exact taken ▸ awake

theorem step_awake (linear : Linear length size storage s) (awake : s.Awake fair) (modest : Modest s event)
    (enough : fair → FairReset s event) (taken : step priority event s = some next) : next.Awake fair := by
  cases event with
  | call task request waits =>
    simp only [step] at taken
    split at taken
    next free =>
      obtain rfl := Option.some.inj taken
      have nobody (w : Window) : s.window ≠ some w := by
        rw [Option.isNone_iff_eq_none.mp free.1]
        rintro ⟨⟩
      have asleep : (s.put task (some ⟨request, waits, .attempting⟩)).Asleep = s.Asleep := by
        refine State.asleep_same rfl ?_ (fun w here => absurd here (nobody w)) (fun w here => absurd here (nobody w)) ?_
        · rintro _ ⟨⟩ ⟨⟩
        · rintro sends (⟨_, here, _⟩ | ⟨w, here, _⟩)
          · cases free.2.symm.trans here
          · exact nobody w here
      exact ⟨by rw [asleep]; exact awake.accounts, fun w here => absurd here (nobody w)⟩
    · cases taken
  | run task timeOut =>
    simp only [step] at taken
    cases window : s.window with
    | some w =>
      simp only [window] at taken
      split at taken
      · exact Option.some.inj taken ▸ State.windowStep_awake awake window
      · cases taken
    | none =>
      simp only [window] at taken
      obtain ⟨call, here, taken⟩ := Option.bind_eq_some_iff.mp taken
      refine State.taskStep_awake awake window here (fun item asked => ?_) taken
      have fits := linear.fits call.request (Or.inl ⟨task, call, here, rfl⟩)
      rw [asked] at fits
      exact linear.kept.length.trans (fits.2 rfl).1
  | tick task =>
    simp only [step] at taken
    split at taken
    · exact State.tickStep_awake awake taken
    · cases taken
  | sendFromISR item position =>
    obtain rfl := Option.some.inj taken
    unfold Queue.xQueueGenericSendFromISR
    obtain ⟨same, more, one⟩ := @Queue.copied_to s.queue item position
    split
    · exact isrStep_awake awake same more one modest
    · exact awake
  | giveFromISR =>
    obtain rfl := Option.some.inj taken
    unfold Queue.xQueueGiveFromISR
    split
    · exact isrStep_awake awake ⟨rfl, rfl, rfl, rfl, rfl⟩ (Nat.le_succ _) le_rfl modest
    · exact awake
  | receiveFromISR => exact receiveFromISR_awake awake modest taken
  | peekFromISR =>
    simp only [step, Queue.xQueuePeekFromISR] at taken
    by_cases some_waiting : s.queue.uxMessagesWaiting > 0
    · simp only [if_pos some_waiting, Queue.copied_from_back, Option.some.injEq] at taken
      exact taken ▸ ⟨awake.accounts, awake.away⟩
    · simp only [if_neg some_waiting, Option.some.injEq] at taken
      exact taken ▸ awake
  | reset =>
    simp only [step] at taken
    split at taken
    next alone =>
      obtain rfl := Option.some.inj taken
      have none_there := Option.isNone_iff_eq_none.mp alone
      have accounts := awake.accounts
      rw [none_there] at accounts
      refine ⟨?_, awake.away⟩
      change Accounts fair s.window s.Asleep _ _ _
      rw [none_there]
      exact accounts.reset enough
    · cases taken

/-! ## Every run -/

theorem boot_awake : (boot length size storage).Awake fair := by
  have census (sends : Bool) : Census [] [] ((boot length size storage).Asleep sends) := by
    refine ⟨List.nodup_nil, fun task => iff_of_false List.not_mem_nil ?_⟩
    rintro (⟨_, ⟨⟩, _⟩ | ⟨_, ⟨⟩, _⟩)
  refine ⟨⟨⟨fun _ => rfl, nofun, (absurd · Accounts.late_none), fun _ _ => Nat.zero_le _, census _⟩,
    ⟨fun _ => rfl, nofun, (absurd · Accounts.late_none), fun _ someone => ?_, census _⟩⟩, nofun⟩
  exact absurd rfl (someone.resolve_right Accounts.late_none)

def State.ReceiversAwake (s : State) : Prop :=
  s.queue.cTxLock = queueUNLOCKED → s.queue.xTasksWaitingToReceive ≠ [] →
    s.queue.uxMessagesWaiting ≤ s.wokenReceivers.length

def State.SendersAwake (s : State) : Prop :=
  s.queue.cRxLock = queueUNLOCKED → s.queue.xTasksWaitingToSend ≠ [] →
    s.queue.uxLength - s.queue.uxMessagesWaiting ≤ s.wokenSenders.length

theorem always_awake (positive : 0 < length) (small : length * size < 2 ^ 32)
    (run : Run (Machine.Step (step priority)) (boot length size storage) moments final)
    (all : ∀ moment ∈ moments, Proper length size moment.before moment.event) :
    Machine.Always (State.Awake False) moments final := by
  have initial : Linear length size storage (boot length size storage) ∧ (boot length size storage).Awake False :=
    ⟨boot_linear positive small, boot_awake⟩
  have preserved {s next : State} {event : Event} (inv : Linear length size storage s ∧ s.Awake False)
      (ok : Proper length size s event) (taken : step priority event s = some next) :
      Linear length size storage next ∧ next.Awake False :=
    ⟨inv.1.step small ok.1 taken, step_awake inv.1 inv.2 ok.2 False.elim taken⟩
  exact (Machine.always_of_invariant run initial preserved all).mono fun _ => And.right

/-- In whatever order tasks, interrupts, ticks and resets come: while somebody waits to receive, every
message in the queue is one that a woken receiver has still to look for. -/
theorem receivers_awake (positive : 0 < length) (small : length * size < 2 ^ 32)
    (run : Run (Machine.Step (step priority)) (boot length size storage) moments final)
    (all : ∀ moment ∈ moments, Proper length size moment.before moment.event) :
    Machine.Always State.ReceiversAwake moments final := by
  refine (always_awake positive small run all).mono fun s awake unlocked someone => ?_
  have covered := awake.accounts.receivers.covered trivial (Or.inl someone)
  rwa [unlocked] at covered

/-- No task is lost: those that sleep in a call are on its event list or have been woken from there, each once, and
whoever has been woken can run. -/
theorem sleepers_right (positive : 0 < length) (small : length * size < 2 ^ 32)
    (run : Run (Machine.Step (step priority)) (boot length size storage) moments final)
    (all : ∀ moment ∈ moments, Proper length size moment.before moment.event) :
    Census final.queue.xTasksWaitingToSend final.wokenSenders (final.Asleep true) ∧
      Census final.queue.xTasksWaitingToReceive final.wokenReceivers (final.Asleep false) ∧
      (final.window = none → ∀ task ∈ final.wokenSenders ++ final.wokenReceivers, ∀ timeOut,
        (step priority (.run task timeOut) final).isSome) := by
  have awake := (always_awake positive small run all).2
  have senders := awake.accounts.senders.census
  have receivers := awake.accounts.receivers.census
  refine ⟨senders, receivers, fun alone task woken timeOut => ?_⟩
  have runs {sends : Bool} (asleep : final.Asleep sends task)
      (member : task ∈ if sends then final.wokenSenders else final.wokenReceivers) :
      (step priority (.run task timeOut) final).isSome := by
    rcases asleep with ⟨call, here, place, rfl⟩ | ⟨w, inside, _⟩
    · have listed : task ∈ final.woken call.request := member
      simp only [step, alone, here, Option.bind_some, State.taskStep, place, if_pos listed, Option.isSome_some]
    · cases alone.symm.trans inside
  rcases List.mem_append.mp woken with sender | receiver
  · exact runs ((senders.2 task).mp (List.mem_append_right _ sender)) sender
  · exact runs ((receivers.2 task).mp (List.mem_append_right _ receiver)) receiver

/-- While somebody waits to send, every free place is one that a woken sender has still to look for; this
holds all along a run if and only if no reset empties the queue for more senders than it wakes. -/
theorem senders_awake_iff (positive : 0 < length) (small : length * size < 2 ^ 32)
    (run : Run (Machine.Step (step priority)) (boot length size storage) moments final)
    (all : ∀ moment ∈ moments, Proper length size moment.before moment.event) :
    Machine.Always State.SendersAwake moments final ↔ ∀ moment ∈ moments, FairReset moment.before moment.event := by
  have initial : Linear length size storage (boot length size storage) ∧ (boot length size storage).Awake True :=
    ⟨boot_linear positive small, boot_awake⟩
  have preserved {s next : State} {event : Event} (inv : Linear length size storage s ∧ s.Awake True)
      (ok : Proper length size s event) (enough : FairReset s event) (taken : step priority event s = some next) :
      Linear length size storage next ∧ next.Awake True :=
    ⟨inv.1.step small ok.1 taken, step_awake inv.1 inv.2 ok.2 (fun _ => enough) taken⟩
  refine Machine.always_iff_of_invariant run initial (fun s inv unlocked someone => ?_) preserved
    (fun {s next event} inv _ unfair taken good => ?_) all
  · have covered := inv.2.accounts.senders.covered trivial (Or.inl someone)
    rwa [unlocked] at covered
  · cases event with
    | reset =>
      obtain ⟨many, few⟩ := not_or.mp unfair
      simp only [step] at taken
      split at taken
      · obtain rfl := Option.some.inj taken
        have rest : s.queue.xTasksWaitingToSend.tail ≠ [] := by
          rw [← List.length_pos_iff, List.length_tail]
          omega
        have enough : s.queue.uxLength - 0 ≤ (s.wokenSenders ++ s.queue.xTasksWaitingToSend.head?.toList).length :=
          good rfl rest
        rw [List.length_append] at enough
        have one := Option.length_toList_le (o := s.queue.xTasksWaitingToSend.head?)
        omega
      · cases taken
    | call | run | tick | sendFromISR | giveFromISR | receiveFromISR | peekFromISR => exact unfair trivial

/-- The steps with which a task falls asleep in a call that finds nothing to do. -/
def asleep (task : Nat) (request : Request) : List Event :=
  List.replicate 9 (.run task false) ++ [.call task request true]

/-- An interrupt sends while a receiver is about to go on the event list. -/
def lateSend : List Event :=
  List.replicate 5 (.run 1 false) ++ .sendFromISR [7] .sendToBack :: (asleep 1 .receive).drop 4

theorem lateSend_receivers_awake : ∃ moments final,
    Run (Machine.Step (step id)) (boot 2 1 fun _ => 0) moments final ∧ moments.map Moment.event = lateSend ∧
      final.log.length = 2 ∧ Machine.Always State.ReceiversAwake moments final := by
  have found : (Machine.replay (Machine.guarded (Proper 2 1) (step id)) (boot 2 1 fun _ => 0) lateSend).any
      (fun s => s.log.length = 2) = true := by decide
  obtain ⟨moments, final, run, same, proper, shown⟩ := Machine.run_of_fine found
  exact ⟨moments, final, run, same, of_decide_eq_true shown, receivers_awake (by decide) (by decide) run proper⟩

/-- Two senders wait when a full queue is reset. -/
def twoSenders : List Event :=
  .reset :: asleep 2 (.send [4] .sendToBack) ++ asleep 1 (.send [3] .sendToBack) ++
    [.sendFromISR [2] .sendToBack, .sendFromISR [1] .sendToBack]

theorem twoSenders_awake_iff : ∃ moments final,
    Run (Machine.Step (step id)) (boot 2 1 fun _ => 0) moments final ∧ moments.map Moment.event = twoSenders ∧
      ¬∀ moment ∈ moments, FairReset moment.before moment.event := by
  have found : (Machine.replay (Machine.guarded (Proper 2 1) (step id)) (boot 2 1 fun _ => 0) twoSenders).any
      (fun s => decide (s.queue.cRxLock = queueUNLOCKED ∧ s.queue.xTasksWaitingToSend ≠ [] ∧
        s.wokenSenders.length < s.queue.uxLength - s.queue.uxMessagesWaiting)) = true := by decide
  obtain ⟨moments, final, run, same, proper, shown⟩ := Machine.run_of_fine found
  obtain ⟨unlocked, someone, short⟩ := of_decide_eq_true shown
  refine ⟨moments, final, run, same, ?_⟩
  rw [← senders_awake_iff (by decide) (by decide) run proper]
  exact fun always => absurd (always.2 unlocked someone) (Nat.not_le.mpr short)

theorem asleep_sleepers_right : ∃ moments final,
    Run (Machine.Step (step id)) (boot 2 1 fun _ => 0) moments final ∧
      moments.map Moment.event = .sendFromISR [7] .sendToBack :: asleep 2 .peek ++ asleep 1 .receive ∧
      final.queue.xTasksWaitingToReceive = [1] ∧ final.wokenReceivers = [2] ∧
      Census [1] [2] (final.Asleep false) ∧ (step id (.run 2 false) final).isSome := by
  have found : (Machine.replay (Machine.guarded (Proper 2 1) (step id)) (boot 2 1 fun _ => 0)
      (.sendFromISR [7] .sendToBack :: asleep 2 .peek ++ asleep 1 .receive)).any
      (fun s => decide (s.queue.xTasksWaitingToReceive = [1] ∧ s.wokenReceivers = [2] ∧ s.window.isNone = true)) = true := by
    decide
  obtain ⟨moments, final, run, same, proper, shown⟩ := Machine.run_of_fine found
  obtain ⟨waiting, woken, alone⟩ := of_decide_eq_true shown
  obtain ⟨_, receivers, runs⟩ := sleepers_right (by decide) (by decide) run proper
  rw [waiting, woken] at receivers
  exact ⟨moments, final, run, same, waiting, woken, receivers,
    runs (Option.isNone_iff_eq_none.mp alone) 2 (by rw [woken]; exact List.mem_append_right _ (by decide)) false⟩

end

end BekenSdk.Kernel
