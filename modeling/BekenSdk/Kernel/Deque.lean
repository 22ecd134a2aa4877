import BekenSdk.Kernel.Queue

/-! What the queues are for: a list with a bound, that takes items at both ends and gives them from
the front. Calls that do not wait get the replies of the list, from a task or an interrupt, and
stay inside the storage; and xQueuePickNext walks along the list.
-/

set_option autoImplicit false

namespace BekenSdk.Kernel
open Base

/-! ## Calls -/

inductive Call where
  | send (item : List UInt8) (position : CopyPosition)
  | receive
  | peek
  | sendFromISR (item : List UInt8) (position : CopyPosition)
  | giveFromISR
  | receiveFromISR
  | peekFromISR
  | reset
  | messagesWaiting
  | spacesAvailable

inductive Reply where
  | passed
  | failed
  | item (bytes : List UInt8)
  | count (n : Nat)

/-- What the functions assert of their arguments: an item has its size, only a queue of
one item is overwritten, and items without bytes are given. -/
def Call.Fits (length size : Nat) : Call → Prop
  | .send item position | .sendFromISR item position =>
    item.length = size ∧ (position = .overwrite → length = 1 ∧ size ≠ 0)
  | .giveFromISR => size = 0
  | _ => True

instance (length size : Nat) : DecidablePred (Call.Fits length size) := fun call =>
  match call with
  | .send _ _ | .sendFromISR _ _ => inferInstanceAs (Decidable (_ ∧ _))
  | .giveFromISR => inferInstanceAs (Decidable (_ = _))
  | .receive | .peek | .receiveFromISR | .peekFromISR | .reset | .messagesWaiting | .spacesAvailable =>
    inferInstanceAs (Decidable True)

@[simp] def Queue.answer (q : Queue) : Call → Reply × Queue
  | .send item position =>
    match q.sendAttempt item position with
    | some (_, after) => (.passed, after)
    | none => (.failed, q)
  | .receive =>
    match q.receiveAttempt false with
    | some (item, _, after) => (.item item, after)
    | none => (.failed, q)
  | .peek =>
    match q.receiveAttempt true with
    | some (item, _, after) => (.item item, after)
    | none => (.failed, q)
  | .sendFromISR item position =>
    match q.xQueueGenericSendFromISR item position with
    | some (_, after) => (.passed, after)
    | none => (.failed, q)
  | .giveFromISR =>
    match q.xQueueGiveFromISR with
    | some (_, after) => (.passed, after)
    | none => (.failed, q)
  | .receiveFromISR =>
    match q.xQueueReceiveFromISR with
    | some (item, _, after) => (.item item, after)
    | none => (.failed, q)
  | .peekFromISR =>
    match q.xQueuePeekFromISR with
    | some (item, after) => (.item item, after)
    | none => (.failed, q)
  | .reset => (.passed, (q.xQueueGenericReset false).2)
  | .messagesWaiting => (.count q.uxQueueMessagesWaiting, q)
  | .spacesAvailable => (.count q.uxQueueSpacesAvailable, q)

/-! ## The list -/

namespace Deque

def send (length : Nat) (items : List (List UInt8)) (item : List UInt8) :
    CopyPosition → Reply × List (List UInt8)
  | .sendToBack => if items.length < length then (.passed, items ++ [item]) else (.failed, items)
  | .sendToFront => if items.length < length then (.passed, item :: items) else (.failed, items)
  | .overwrite => (.passed, [item])

def receive : List (List UInt8) → Reply × List (List UInt8)
  | [] => (.failed, [])
  | item :: rest => (.item item, rest)

def peek : List (List UInt8) → Reply × List (List UInt8)
  | [] => (.failed, [])
  | item :: rest => (.item item, item :: rest)

@[simp] def answer (length : Nat) (items : List (List UInt8)) : Call → Reply × List (List UInt8)
  | .send item position | .sendFromISR item position => send length items item position
  | .giveFromISR => send length items [] .sendToBack
  | .receive | .receiveFromISR => receive items
  | .peek | .peekFromISR => peek items
  | .reset => (.passed, [])
  | .messagesWaiting => (.count items.length, items)
  | .spacesAvailable => (.count (length - items.length), items)

end Deque

/-- The calls one after the other. -/
def serve {S : Type} (answer : S → Call → Reply × S) (s : S) : List Call → List Reply × S
  | [] => ([], s)
  | call :: rest =>
    let (reply, next) := answer s call
    let (replies, final) := serve answer next rest
    (reply :: replies, final)

/-! ## One call -/

namespace Queue
variable {q after : Queue} {item : List UInt8} {position : CopyPosition} {call : Call}

/-- What a call leaves of a queue: its sizes, and the memory behind the storage. -/
structure Keeps (q after : Queue) : Prop where
  sound : after.Sound
  length : after.uxLength = q.uxLength
  size : after.uxItemSize = q.uxItemSize
  outside : ∀ a, q.uxLength * q.uxItemSize ≤ a → after.storage a = q.storage a

theorem Keeps.refl (sound : q.Sound) : q.Keeps q := ⟨sound, rfl, rfl, fun _ _ => rfl⟩

/-- A slot ends inside the storage. -/
theorem slot_inside {slot length size a : Nat} (inside : slot < length) (beyond : length * size ≤ a) :
    slot * size + size ≤ a := by
  have := Nat.mul_le_mul_right size (Nat.succ_le_of_lt inside)
  rw [Nat.succ_mul] at this
  omega

theorem copied_outside (sound : q.Sound) (sized : item.length = q.uxItemSize) {a : Nat}
    (beyond : q.uxLength * q.uxItemSize ≤ a) :
    (q.prvCopyDataToQueue item position).storage a = q.storage a := by
  unfold prvCopyDataToQueue
  split
  · rfl
  next nonzero =>
    have aligned := sound.aligned nonzero
    have write : q.pcWriteTo / q.uxItemSize < q.uxLength := by
      have := aligned.holding.write
      change q.pcWriteTo / q.uxItemSize = _ % q.uxLength at this
      rw [this]
      exact Nat.mod_lt _ sound.positive
    split
    · apply storeBytes_outside
      have := slot_inside write beyond
      rw [Nat.div_mul_cancel aligned.write] at this
      exact Or.inr (by omega)
    · apply storeBytes_outside
      have read : q.pcReadFrom / q.uxItemSize < q.uxLength := aligned.holding.read
      have := slot_inside read beyond
      rw [Nat.div_mul_cancel aligned.read] at this
      exact Or.inr (by omega)

theorem copied_sizes : (q.prvCopyDataToQueue item position).uxLength = q.uxLength ∧
    (q.prvCopyDataToQueue item position).uxItemSize = q.uxItemSize := by
  unfold prvCopyDataToQueue
  split
  · exact ⟨rfl, rfl⟩
  · split <;> exact ⟨rfl, rfl⟩

/-- An item that has room comes to its end of the list. -/
theorem copied_right (sound : q.Sound) (sized : item.length = q.uxItemSize)
    (one : position = .overwrite → q.uxLength = 1 ∧ q.uxItemSize ≠ 0)
    (room : q.uxMessagesWaiting < q.uxLength ∨ position = .overwrite) :
    q.Keeps (q.prvCopyDataToQueue item position) ∧
      Deque.send q.uxLength q.items item position = (.passed, (q.prvCopyDataToQueue item position).items) := by
  suffices (q.prvCopyDataToQueue item position).Sound ∧
      Deque.send q.uxLength q.items item position = (.passed, (q.prvCopyDataToQueue item position).items) from
    ⟨⟨this.1, copied_sizes.1, copied_sizes.2, fun _ beyond => copied_outside sound sized beyond⟩, this.2⟩
  have count : q.items.length = q.uxMessagesWaiting := items_length
  cases position with
  | sendToBack =>
    have free : q.uxMessagesWaiting < q.uxLength := room.resolve_right (by decide)
    obtain ⟨held, items⟩ := sound.sendToBack free sized
    exact ⟨held, by rw [Deque.send, if_pos (count ▸ free), items]⟩
  | sendToFront =>
    have free : q.uxMessagesWaiting < q.uxLength := room.resolve_right (by decide)
    obtain ⟨held, items⟩ := sound.sendToFront free sized
    exact ⟨held, by rw [Deque.send, if_pos (count ▸ free), items]⟩
  | overwrite =>
    obtain ⟨single, nonzero⟩ := one rfl
    obtain ⟨held, items⟩ := sound.overwrite single nonzero sized
    exact ⟨held, by rw [Deque.send, items]⟩

theorem send_full (full : ¬(q.uxMessagesWaiting < q.uxLength ∨ position = .overwrite)) :
    Deque.send q.uxLength q.items item position = (.failed, q.items) := by
  have count : q.items.length = q.uxMessagesWaiting := items_length
  have less : ¬q.items.length < q.uxLength := fun free => full (Or.inl (count ▸ free))
  cases position with
  | sendToBack | sendToFront => exact if_neg less
  | overwrite => exact absurd (Or.inr rfl) full

/-- The first item leaves. -/
theorem taken_right (sound : q.Sound) (some_waiting : q.uxMessagesWaiting > 0) :
    q.Keeps { q.prvCopyDataFromQueue.2 with uxMessagesWaiting := q.uxMessagesWaiting - 1 } ∧
      Deque.receive q.items = (.item q.prvCopyDataFromQueue.1,
        { q.prvCopyDataFromQueue.2 with uxMessagesWaiting := q.uxMessagesWaiting - 1 }.items) := by
  obtain ⟨held, items⟩ := sound.receive some_waiting
  refine ⟨⟨held, ?_, ?_, fun a _ => ?_⟩, by rw [items]; rfl⟩
  all_goals
    unfold prvCopyDataFromQueue
    split <;> rfl

/-- The position goes back to where it was. -/
theorem copied_from_back : { q.prvCopyDataFromQueue.2 with pcReadFrom := q.pcReadFrom } = q := by
  unfold prvCopyDataFromQueue
  split <;> rfl

theorem looked_right (sound : q.Sound) (some_waiting : q.uxMessagesWaiting > 0) :
    Deque.peek q.items = (.item q.prvCopyDataFromQueue.1, q.items) := by
  obtain ⟨_, items⟩ := sound.receive some_waiting
  rw [items]
  rfl

theorem items_none (none_waiting : ¬q.uxMessagesWaiting > 0) : q.items = [] := by
  apply List.length_eq_zero_iff.mp
  rw [items_length]
  omega

theorem Keeps.lists {rx tx : Int8} {senders receivers : List Nat} (kept : q.Keeps after) :
    q.Keeps { after with
      cRxLock := rx
      cTxLock := tx
      xTasksWaitingToSend := senders
      xTasksWaitingToReceive := receivers } :=
  ⟨kept.sound.lists, kept.length, kept.size, kept.outside⟩

/-- The queue goes on as the list does. -/
def Follows (q : Queue) (call : Call) : Prop :=
  q.Keeps (q.answer call).2 ∧ Deque.answer q.uxLength q.items call = ((q.answer call).1, (q.answer call).2.items)

theorem send_follows (sound : q.Sound) (fits : (Call.send item position).Fits q.uxLength q.uxItemSize) :
    q.Follows (.send item position) := by
  unfold Follows
  simp only [answer, sendAttempt, Deque.answer]
  by_cases room : q.uxMessagesWaiting < q.uxLength ∨ position = .overwrite
  · obtain ⟨kept, sent⟩ := copied_right sound fits.1 fits.2 room
    rw [if_pos room]
    exact ⟨kept.lists, sent⟩
  · rw [if_neg room]
    exact ⟨.refl sound, send_full room⟩

theorem posted (kept : q.Keeps after) : q.Keeps after.postFromISR.2 ∧ after.postFromISR.2.items = after.items := by
  unfold postFromISR
  split <;> exact ⟨kept.lists, rfl⟩

theorem sendFromISR_follows (sound : q.Sound)
    (fits : (Call.sendFromISR item position).Fits q.uxLength q.uxItemSize) : q.Follows (.sendFromISR item position) := by
  unfold Follows
  simp only [answer, xQueueGenericSendFromISR, Deque.answer]
  by_cases room : q.uxMessagesWaiting < q.uxLength ∨ position = .overwrite
  · obtain ⟨kept, sent⟩ := copied_right sound fits.1 fits.2 room
    obtain ⟨after, same⟩ := posted kept
    rw [if_pos room]
    exact ⟨after, by rw [same]; exact sent⟩
  · rw [if_neg room]
    exact ⟨.refl sound, send_full room⟩

theorem giveFromISR_follows (sound : q.Sound) (fits : Call.giveFromISR.Fits q.uxLength q.uxItemSize) :
    q.Follows .giveFromISR := by
  have empty : q.uxItemSize = 0 := fits
  have other : CopyPosition.sendToBack ≠ .overwrite := by decide
  unfold Follows
  simp only [answer, xQueueGiveFromISR, Deque.answer]
  by_cases room : q.uxMessagesWaiting < q.uxLength
  · have blank : ([] : List UInt8).length = q.uxItemSize := empty.symm
    obtain ⟨kept, sent⟩ := copied_right sound blank (absurd · other) (Or.inl room)
    have copied : q.prvCopyDataToQueue [] .sendToBack = { q with uxMessagesWaiting := q.uxMessagesWaiting + 1 } :=
      if_pos empty
    rw [copied] at kept sent
    obtain ⟨after, same⟩ := posted kept
    rw [if_pos room]
    exact ⟨after, by rw [same]; exact sent⟩
  · rw [if_neg room]
    exact ⟨.refl sound, send_full fun either => either.elim room other⟩

theorem receive_follows (sound : q.Sound) : q.Follows .receive := by
  unfold Follows
  simp only [answer, receiveAttempt, Deque.answer]
  by_cases some_waiting : q.uxMessagesWaiting > 0
  · obtain ⟨kept, taken⟩ := taken_right sound some_waiting
    rw [if_pos some_waiting]
    exact ⟨kept.lists, taken⟩
  · rw [if_neg some_waiting, items_none some_waiting]
    exact ⟨.refl sound, rfl⟩

theorem receiveFromISR_follows (sound : q.Sound) : q.Follows .receiveFromISR := by
  unfold Follows
  simp only [answer, xQueueReceiveFromISR, Deque.answer]
  by_cases some_waiting : q.uxMessagesWaiting > 0
  · obtain ⟨kept, taken⟩ := taken_right sound some_waiting
    rw [if_pos some_waiting]
    by_cases unlocked : q.cRxLock = queueUNLOCKED
    · simp only [if_pos unlocked]
      exact ⟨kept.lists, taken⟩
    · simp only [if_neg unlocked]
      exact ⟨kept.lists, taken⟩
  · rw [if_neg some_waiting, items_none some_waiting]
    exact ⟨.refl sound, rfl⟩

theorem peek_follows (sound : q.Sound) : q.Follows .peek := by
  unfold Follows
  simp only [answer, receiveAttempt, Deque.answer]
  by_cases some_waiting : q.uxMessagesWaiting > 0
  · rw [if_pos some_waiting]
    simp only [if_true, copied_from_back]
    exact ⟨(Keeps.refl sound).lists, looked_right sound some_waiting⟩
  · rw [if_neg some_waiting, items_none some_waiting]
    exact ⟨.refl sound, rfl⟩

theorem peekFromISR_follows (sound : q.Sound) : q.Follows .peekFromISR := by
  unfold Follows
  simp only [answer, xQueuePeekFromISR, Deque.answer]
  by_cases some_waiting : q.uxMessagesWaiting > 0
  · rw [if_pos some_waiting]
    simp only [copied_from_back]
    exact ⟨.refl sound, looked_right sound some_waiting⟩
  · rw [if_neg some_waiting, items_none some_waiting]
    exact ⟨.refl sound, rfl⟩

theorem reset_follows (sound : q.Sound) (small : q.uxLength * q.uxItemSize < 2 ^ 32) : q.Follows .reset := by
  obtain ⟨held, none_left⟩ := Sound.reset sound.positive small
  exact ⟨⟨held, rfl, rfl, fun _ _ => rfl⟩, by rw [Deque.answer]; exact Prod.ext rfl none_left.symm⟩

theorem count_follows (sound : q.Sound) : q.Follows .messagesWaiting ∧ q.Follows .spacesAvailable := by
  refine ⟨⟨.refl sound, ?_⟩, ⟨.refl sound, ?_⟩⟩ <;> simp only [Deque.answer, answer, items_length] <;> rfl

theorem answer_follows (sound : q.Sound) (small : q.uxLength * q.uxItemSize < 2 ^ 32)
    (fits : call.Fits q.uxLength q.uxItemSize) : q.Follows call := by
  cases call with
  | send item position => exact send_follows sound fits
  | receive => exact receive_follows sound
  | peek => exact peek_follows sound
  | sendFromISR item position => exact sendFromISR_follows sound fits
  | giveFromISR => exact giveFromISR_follows sound fits
  | receiveFromISR => exact receiveFromISR_follows sound
  | peekFromISR => exact peekFromISR_follows sound
  | reset => exact reset_follows sound small
  | messagesWaiting => exact (count_follows sound).1
  | spacesAvailable => exact (count_follows sound).2

/-! ## Every call -/

theorem serve_follows {calls : List Call} (sound : q.Sound) (small : q.uxLength * q.uxItemSize < 2 ^ 32)
    (fit : ∀ call ∈ calls, call.Fits q.uxLength q.uxItemSize) :
    q.Keeps (serve answer q calls).2 ∧
      serve (Deque.answer q.uxLength) q.items calls = ((serve answer q calls).1, (serve answer q calls).2.items) := by
  induction calls generalizing q with
  | nil => exact ⟨.refl sound, rfl⟩
  | cons call rest ih =>
    obtain ⟨kept, same⟩ := answer_follows sound small (fit call List.mem_cons_self)
    have later := fun call member => fit call (List.mem_cons_of_mem _ member)
    have ⟨more, final⟩ := ih kept.sound (by rwa [kept.length, kept.size]) (by rwa [kept.length, kept.size])
    rw [kept.length] at final
    refine ⟨⟨more.sound, more.length.trans kept.length, more.size.trans kept.size, fun a beyond => ?_⟩, ?_⟩
    · have beyond_after : (q.answer call).2.uxLength * (q.answer call).2.uxItemSize ≤ a := by
        rwa [kept.length, kept.size]
      exact (more.outside a beyond_after).trans (kept.outside a beyond)
    · simp only [serve, same, final]

theorem create_sound {length size : Nat} {storage : Cells} (positive : 0 < length) (small : length * size < 2 ^ 32) :
    (xQueueGenericCreate length size storage).Sound ∧ (xQueueGenericCreate length size storage).items = [] :=
  Sound.reset (q := ⟨length, size, storage, 0, 0, 0, 0, 0, 0, [], []⟩) positive small

def sampleCalls : List Call := [.send [1, 2] .sendToBack, .sendFromISR [3, 4] .sendToFront, .receive]

/-- What xQueuePickNext shows, from `pvCur` on. -/
def picked (q : Queue) : Nat → Option Nat → List (List UInt8)
  | 0, _ => []
  | fuel + 1, pvCur =>
    match q.xQueuePickNext pvCur with
    | none => []
    | some pcRead => readBytes q.storage pcRead q.uxItemSize :: q.picked fuel (some pcRead)

/-- One step on from an item, or from before the first one. -/
theorem pickNext_eq {pvCur : Option Nat} {i : Nat} (aligned : q.Aligned) (nonzero : q.uxItemSize ≠ 0)
    (some_waiting : q.uxMessagesWaiting > 0)
    (here : pvCur.getD q.pcReadFrom = (q.ring.readFrom + i) % q.uxLength * q.uxItemSize) :
    q.xQueuePickNext pvCur =
      if q.ring.place q.uxLength i ≠ q.ring.place q.uxLength q.uxMessagesWaiting then
        some (q.ring.place q.uxLength i * q.uxItemSize)
      else none := by
  have positive := Nat.pos_of_ne_zero nonzero
  have inside : (q.ring.readFrom + i) % q.uxLength < q.uxLength :=
    Nat.mod_lt _ (Nat.zero_lt_of_lt aligned.holding.read)
  have next : RingBuffer.following q.uxLength ((q.ring.readFrom + i) % q.uxLength) = q.ring.place q.uxLength i := by
    rw [RingBuffer.following_eq inside, Nat.mod_add_mod, RingBuffer.place, Nat.add_right_comm]
  have write : q.pcWriteTo = q.ring.place q.uxLength q.uxMessagesWaiting * q.uxItemSize := by
    have held : q.pcWriteTo / q.uxItemSize = q.ring.place q.uxLength q.uxMessagesWaiting := aligned.holding.write
    rw [← held, Nat.div_mul_cancel aligned.write]
  unfold xQueuePickNext
  rw [if_pos ⟨some_waiting, nonzero⟩]
  simp only [here, aligned.tail, position_following positive, next, write, ne_eq, Nat.mul_left_inj nonzero]

theorem picked_from {fuel i : Nat} {pvCur : Option Nat} (aligned : q.Aligned) (nonzero : q.uxItemSize ≠ 0)
    (some_waiting : q.uxMessagesWaiting > 0) (room : q.uxMessagesWaiting < q.uxLength) (old : i ≤ q.uxMessagesWaiting)
    (enough : q.uxMessagesWaiting < fuel + i)
    (here : pvCur.getD q.pcReadFrom = (q.ring.readFrom + i) % q.uxLength * q.uxItemSize) :
    q.picked fuel pvCur = q.items.drop i := by
  induction fuel generalizing i pvCur with
  | zero => omega
  | succ fuel ih =>
    rw [picked, pickNext_eq aligned nonzero some_waiting here]
    rcases Nat.lt_or_eq_of_le old with more | rfl
    · have apart := RingBuffer.place_ne (r := q.ring) room more
      have inside : i < q.items.length := by rwa [items_length]
      have entry : q.items[i] = readBytes q.storage (q.ring.place q.uxLength i * q.uxItemSize) q.uxItemSize := by
        simp only [items_ring nonzero, RingBuffer.contents, List.getElem_map, List.getElem_range]
        rfl
      have after : (some (q.ring.place q.uxLength i * q.uxItemSize)).getD q.pcReadFrom =
          (q.ring.readFrom + (i + 1)) % q.uxLength * q.uxItemSize := by
        rw [Option.getD_some, RingBuffer.place, Nat.add_assoc, Nat.add_comm 1]
      rw [if_pos apart, List.drop_eq_getElem_cons inside, entry]
      dsimp only
      rw [ih more (by omega) after]
    · rw [if_neg (not_not.mpr rfl), List.drop_of_length_le (by rw [items_length])]

/-- The walk sees the items in their order; of a full queue it sees none, since its first place
is then the next one to write. -/
theorem picked_eq {fuel : Nat} (sound : q.Sound) (nonzero : q.uxItemSize ≠ 0) (enough : q.uxLength ≤ fuel) :
    q.picked fuel none = if q.uxMessagesWaiting < q.uxLength then q.items else [] := by
  have aligned := sound.aligned nonzero
  have here : (none : Option Nat).getD q.pcReadFrom = (q.ring.readFrom + 0) % q.uxLength * q.uxItemSize := by
    have read : q.pcReadFrom / q.uxItemSize < q.uxLength := aligned.holding.read
    change q.pcReadFrom = (q.pcReadFrom / q.uxItemSize + 0) % q.uxLength * q.uxItemSize
    rw [Nat.add_zero, Nat.mod_eq_of_lt read, Nat.div_mul_cancel aligned.read]
  by_cases some_waiting : q.uxMessagesWaiting > 0
  · by_cases room : q.uxMessagesWaiting < q.uxLength
    · rw [if_pos room, picked_from aligned nonzero some_waiting room (Nat.zero_le _) (by omega) here, List.drop_zero]
    · have full : q.uxMessagesWaiting = q.uxLength := Nat.le_antisymm sound.fits (Nat.not_lt.mp room)
      have met : q.ring.place q.uxLength 0 = q.ring.place q.uxLength q.uxMessagesWaiting := by
        rw [full, RingBuffer.place, RingBuffer.place, Nat.add_mod_right, Nat.add_zero]
      obtain ⟨n, rfl⟩ := Nat.exists_eq_succ_of_ne_zero (n := fuel) (by omega)
      rw [if_neg room, picked, pickNext_eq aligned nonzero some_waiting here, if_neg (not_not.mpr met)]
  · have blank := items_none some_waiting
    have nothing : q.xQueuePickNext none = none := if_neg fun both => some_waiting both.1
    rw [blank, ite_self]
    cases fuel with
    | zero => rfl
    | succ fuel => rw [picked, nothing]

/-- After any calls the walk shows the list, or nothing when the list is full. -/
theorem picked_right {length size fuel : Nat} {storage : Cells} {calls : List Call} (positive : 0 < length)
    (small : length * size < 2 ^ 32) (nonzero : size ≠ 0) (fit : ∀ call ∈ calls, call.Fits length size)
    (enough : length ≤ fuel) :
    (serve answer (xQueueGenericCreate length size storage) calls).2.picked fuel none =
      if (serve (Deque.answer length) [] calls).2.length < length then (serve (Deque.answer length) [] calls).2
      else [] := by
  have created : (xQueueGenericCreate length size storage).Sound ∧ _ := create_sound positive small
  obtain ⟨kept, same⟩ := serve_follows created.1 small fit
  rw [created.2] at same
  have list : serve (Deque.answer length) [] calls = _ := same
  have long : (serve answer (xQueueGenericCreate length size storage) calls).2.uxLength ≤ fuel := by
    rw [kept.length]
    exact enough
  rw [picked_eq kept.sound (by rw [kept.size]; exact nonzero) long, kept.length, list, items_length]
  rfl

theorem sample_picked_right : (serve answer (xQueueGenericCreate 3 2 fun _ => 0) (sampleCalls.take 2)).2.picked 3 none =
    [[3, 4], [1, 2]] :=
  picked_right (by decide) (by decide) (by decide) (by decide) le_rfl

end Queue

end BekenSdk.Kernel
