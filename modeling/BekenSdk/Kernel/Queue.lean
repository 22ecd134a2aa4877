import BekenSdk.Base.Bytes
import BekenSdk.Base.RingBuffer

/-! The queues of FreeRTOS (queue.c; no queue sets, and mutexes without their holders). What a queue
stores is a list of items with room at both ends: the storage is a ring of slots, and the
ring is that list. Semaphores are queues whose items have no bytes.
-/

set_option autoImplicit false

namespace BekenSdk.Kernel
open Base

/-! ## Queues -/

inductive CopyPosition where
  | sendToBack
  | sendToFront
  | overwrite
  deriving DecidableEq

/-- Queue_t. Positions count from `pcHead`, where the storage begins; tasks are numbers. -/
structure Queue where
  uxLength : Nat
  uxItemSize : Nat
  storage : Cells
  pcTail : Nat
  pcWriteTo : Nat
  pcReadFrom : Nat
  uxMessagesWaiting : Nat
  cRxLock : Int8
  cTxLock : Int8
  xTasksWaitingToSend : List Nat
  xTasksWaitingToReceive : List Nat

def queueUNLOCKED : Int8 := -1

def queueLOCKED_UNMODIFIED : Int8 := 0

namespace Queue

/-- xTaskRemoveFromEventList for a list that may be empty: the task in front goes on. -/
def wakeSender (q : Queue) : Option Nat × Queue :=
  (q.xTasksWaitingToSend.head?, { q with xTasksWaitingToSend := q.xTasksWaitingToSend.tail })

def wakeReceiver (q : Queue) : Option Nat × Queue :=
  (q.xTasksWaitingToReceive.head?, { q with xTasksWaitingToReceive := q.xTasksWaitingToReceive.tail })

def xQueueGenericReset (q : Queue) (xNewQueue : Bool) : Option Nat × Queue :=
  let emptied := { q with
    pcTail := q.uxLength * q.uxItemSize % 2 ^ 32
    uxMessagesWaiting := 0
    pcWriteTo := 0
    pcReadFrom := (q.uxLength - 1) * q.uxItemSize % 2 ^ 32
    cRxLock := queueUNLOCKED
    cTxLock := queueUNLOCKED }
  if xNewQueue then (none, { emptied with xTasksWaitingToSend := [], xTasksWaitingToReceive := [] })
  else emptied.wakeSender

/-- Memory that was allocated contains anything. -/
def xQueueGenericCreate (uxQueueLength uxItemSize : Nat) (storage : Cells) : Queue :=
  (xQueueGenericReset ⟨uxQueueLength, uxItemSize, storage, 0, 0, 0, 0, 0, 0, [], []⟩ true).2

def prvCopyDataToQueue (q : Queue) (pvItemToQueue : List UInt8) (xPosition : CopyPosition) : Queue :=
  if q.uxItemSize = 0 then { q with uxMessagesWaiting := q.uxMessagesWaiting + 1 }
  else if xPosition = .sendToBack then
    let pcWriteTo := q.pcWriteTo + q.uxItemSize
    { q with
      storage := storeBytes q.storage q.pcWriteTo pvItemToQueue
      pcWriteTo := if pcWriteTo ≥ q.pcTail then 0 else pcWriteTo
      uxMessagesWaiting := q.uxMessagesWaiting + 1 }
  else
    { q with
      storage := storeBytes q.storage q.pcReadFrom pvItemToQueue
      -- The position one item lower may lie before `pcHead`.
      pcReadFrom := if q.pcReadFrom < q.uxItemSize then q.pcTail - q.uxItemSize else q.pcReadFrom - q.uxItemSize
      uxMessagesWaiting :=
        (if xPosition = .overwrite ∧ q.uxMessagesWaiting > 0 then q.uxMessagesWaiting - 1 else q.uxMessagesWaiting) + 1 }

def prvCopyDataFromQueue (q : Queue) : List UInt8 × Queue :=
  if q.uxItemSize ≠ 0 then
    let pcReadFrom := if q.pcReadFrom + q.uxItemSize ≥ q.pcTail then 0 else q.pcReadFrom + q.uxItemSize
    (readBytes q.storage pcReadFrom q.uxItemSize, { q with pcReadFrom := pcReadFrom })
  else ([], q)

/-! ## Sending and receiving. `none` says that the queue was full, or empty. -/

/-- The first critical section of xQueueGenericSend. -/
def sendAttempt (q : Queue) (pvItemToQueue : List UInt8) (xCopyPosition : CopyPosition) : Option (Option Nat × Queue) :=
  if q.uxMessagesWaiting < q.uxLength ∨ xCopyPosition = .overwrite then
    some (q.prvCopyDataToQueue pvItemToQueue xCopyPosition).wakeReceiver
  else none

/-- The first critical section of xQueueGenericReceive. -/
def receiveAttempt (q : Queue) (xJustPeeking : Bool) : Option (List UInt8 × Option Nat × Queue) :=
  if q.uxMessagesWaiting > 0 then
    let (item, moved) := q.prvCopyDataFromQueue
    if xJustPeeking then some (item, { moved with pcReadFrom := q.pcReadFrom }.wakeReceiver)
    else some (item, { moved with uxMessagesWaiting := q.uxMessagesWaiting - 1 }.wakeSender)
  else none

/-- While the queue is locked the event lists stay as they are, and the lock counts. -/
def postFromISR (q : Queue) : Option Nat × Queue :=
  if q.cTxLock = queueUNLOCKED then q.wakeReceiver else (none, { q with cTxLock := q.cTxLock + 1 })

def xQueueGenericSendFromISR (q : Queue) (pvItemToQueue : List UInt8) (xCopyPosition : CopyPosition) :
    Option (Option Nat × Queue) :=
  if q.uxMessagesWaiting < q.uxLength ∨ xCopyPosition = .overwrite then
    some (q.prvCopyDataToQueue pvItemToQueue xCopyPosition).postFromISR
  else none

def xQueueGiveFromISR (q : Queue) : Option (Option Nat × Queue) :=
  if q.uxMessagesWaiting < q.uxLength then
    some { q with uxMessagesWaiting := q.uxMessagesWaiting + 1 }.postFromISR
  else none

def xQueueReceiveFromISR (q : Queue) : Option (List UInt8 × Option Nat × Queue) :=
  if q.uxMessagesWaiting > 0 then
    let (item, moved) := q.prvCopyDataFromQueue
    let taken := { moved with uxMessagesWaiting := q.uxMessagesWaiting - 1 }
    if q.cRxLock = queueUNLOCKED then some (item, taken.wakeSender)
    else some (item, none, { taken with cRxLock := q.cRxLock + 1 })
  else none

def xQueuePeekFromISR (q : Queue) : Option (List UInt8 × Queue) :=
  if q.uxMessagesWaiting > 0 then
    let (item, moved) := q.prvCopyDataFromQueue
    some (item, { moved with pcReadFrom := q.pcReadFrom })
  else none

def uxQueueMessagesWaiting (q : Queue) : Nat := q.uxMessagesWaiting

def uxQueueSpacesAvailable (q : Queue) : Nat := q.uxLength - q.uxMessagesWaiting

def prvIsQueueEmpty (q : Queue) : Bool := q.uxMessagesWaiting = 0

def prvIsQueueFull (q : Queue) : Bool := q.uxMessagesWaiting = q.uxLength

/-- The position of the item behind `pvCur`, or of the first one. -/
def xQueuePickNext (q : Queue) (pvCur : Option Nat) : Option Nat :=
  if q.uxMessagesWaiting > 0 ∧ q.uxItemSize ≠ 0 then
    let pcRead := pvCur.getD q.pcReadFrom + q.uxItemSize
    let pcRead := if pcRead ≥ q.pcTail then 0 else pcRead
    if pcRead ≠ q.pcWriteTo then some pcRead else none
  else none

/-! ## Slots -/

/-- The storage as a ring of slots. -/
def ring (q : Queue) : RingBuffer (List UInt8) where
  slots := fun slot => readBytes q.storage (slot * q.uxItemSize) q.uxItemSize
  readFrom := q.pcReadFrom / q.uxItemSize
  writeTo := q.pcWriteTo / q.uxItemSize
  waiting := q.uxMessagesWaiting

def items (q : Queue) : List (List UInt8) :=
  if q.uxItemSize = 0 then List.replicate q.uxMessagesWaiting [] else q.ring.contents q.uxLength

/-- The positions are those of slots. -/
structure Aligned (q : Queue) : Prop where
  tail : q.pcTail = q.uxLength * q.uxItemSize
  read : q.uxItemSize ∣ q.pcReadFrom
  write : q.uxItemSize ∣ q.pcWriteTo
  holding : q.ring.Holding q.uxLength fun _ => True

structure Sound (q : Queue) : Prop where
  positive : 0 < q.uxLength
  fits : q.uxMessagesWaiting ≤ q.uxLength
  aligned : q.uxItemSize ≠ 0 → q.Aligned

variable {q moved : Queue} {item : List UInt8} {position : CopyPosition}

@[simp] theorem items_length : q.items.length = q.uxMessagesWaiting := by
  unfold items
  split
  · exact List.length_replicate
  · exact RingBuffer.contents_length

/-- One slot changes. -/
theorem slots_store {cells : Cells} {size slot : Nat} (sized : item.length = size) :
    (fun k => readBytes (storeBytes cells (slot * size) item) (k * size) size) =
      Function.update (fun k => readBytes cells (k * size) size) slot item := by
  funext k
  by_cases same : k = slot
  · rw [same, Function.update_self]
    exact (holds_storeBytes cells (slot * size) item).read_of_length sized
  · rw [Function.update_of_ne same]
    apply readBytes_congr
    intro a low high
    apply storeBytes_outside
    rcases Nat.lt_or_gt_of_ne same with apart | apart
    all_goals
      have := Nat.mul_le_mul_right size (Nat.succ_le_of_lt apart)
      rw [Nat.succ_mul] at this
      omega

/-- One item further, round the ring. -/
theorem position_following {size slot length : Nat} (positive : 0 < size) :
    (if slot * size + size ≥ length * size then 0 else slot * size + size) =
      RingBuffer.following length slot * size := by
  have reached : slot * size + size ≥ length * size ↔ slot + 1 ≥ length := by
    rw [← Nat.succ_mul]
    exact Nat.mul_le_mul_right_iff positive
  unfold RingBuffer.following
  by_cases last : slot + 1 ≥ length
  · rw [if_pos (reached.mpr last), if_pos last, Nat.zero_mul]
  · rw [if_neg (reached.not.mpr last), if_neg last, Nat.succ_mul]

theorem position_preceding {size slot length : Nat} (positive : 0 < size) :
    (if slot * size < size then length * size - size else slot * size - size) =
      RingBuffer.preceding length slot * size := by
  have first : slot * size < size ↔ slot < 1 := by
    conv_lhs => rw [← Nat.one_mul size, ← Nat.mul_assoc, Nat.mul_one]
    exact Nat.mul_lt_mul_right positive
  unfold RingBuffer.preceding
  by_cases before : slot < 1
  · rw [if_pos (first.mpr before), if_pos before, Nat.sub_one_mul]
  · rw [if_neg (first.not.mpr before), if_neg before, Nat.sub_one_mul]

theorem ring_sendToBack (aligned : q.Aligned) (positive : 0 < q.uxItemSize) (sized : item.length = q.uxItemSize) :
    (q.prvCopyDataToQueue item .sendToBack).ring = q.ring.send q.uxLength item ∧
      q.uxItemSize ∣ (q.prvCopyDataToQueue item .sendToBack).pcWriteTo := by
  obtain ⟨slot, place⟩ := aligned.write
  rw [Nat.mul_comm] at place
  have copied : q.prvCopyDataToQueue item .sendToBack =
      { q with
        storage := storeBytes q.storage (slot * q.uxItemSize) item
        pcWriteTo := RingBuffer.following q.uxLength slot * q.uxItemSize
        uxMessagesWaiting := q.uxMessagesWaiting + 1 } := by
    unfold prvCopyDataToQueue
    rw [if_neg positive.ne', if_pos rfl]
    simp only [place, aligned.tail, position_following positive]
  rw [copied]
  refine ⟨?_, Nat.dvd_mul_left _ _⟩
  have before : q.pcWriteTo / q.uxItemSize = slot := by rw [place, Nat.mul_div_cancel _ positive]
  simp only [ring, RingBuffer.send, before, slots_store sized, Nat.mul_div_cancel _ positive]

/-- What overwrites does not count as one more. -/
theorem ring_sendToFront (aligned : q.Aligned) (positive : 0 < q.uxItemSize) (sized : item.length = q.uxItemSize)
    (front : position ≠ .sendToBack) :
    (q.prvCopyDataToQueue item position).ring =
      { q.ring.sendFront q.uxLength item with
        waiting := (q.prvCopyDataToQueue item position).uxMessagesWaiting } ∧
      q.uxItemSize ∣ (q.prvCopyDataToQueue item position).pcReadFrom := by
  obtain ⟨slot, place⟩ := aligned.read
  rw [Nat.mul_comm] at place
  have copied : q.prvCopyDataToQueue item position =
      { q with
        storage := storeBytes q.storage (slot * q.uxItemSize) item
        pcReadFrom := RingBuffer.preceding q.uxLength slot * q.uxItemSize
        uxMessagesWaiting := (if position = .overwrite ∧ q.uxMessagesWaiting > 0 then q.uxMessagesWaiting - 1
          else q.uxMessagesWaiting) + 1 } := by
    unfold prvCopyDataToQueue
    rw [if_neg positive.ne', if_neg front]
    simp only [place, aligned.tail, position_preceding positive]
  rw [copied]
  refine ⟨?_, Nat.dvd_mul_left _ _⟩
  have before : q.pcReadFrom / q.uxItemSize = slot := by rw [place, Nat.mul_div_cancel _ positive]
  simp only [ring, RingBuffer.sendFront, before, slots_store sized, Nat.mul_div_cancel _ positive]

theorem copied_from (aligned : q.Aligned) (positive : 0 < q.uxItemSize) :
    q.prvCopyDataFromQueue =
      (q.ring.slots (RingBuffer.following q.uxLength q.ring.readFrom),
        { q with pcReadFrom := RingBuffer.following q.uxLength q.ring.readFrom * q.uxItemSize }) := by
  obtain ⟨slot, place⟩ := aligned.read
  rw [Nat.mul_comm] at place
  have before : q.pcReadFrom / q.uxItemSize = slot := by rw [place, Nat.mul_div_cancel _ positive]
  unfold prvCopyDataFromQueue
  rw [if_pos positive.ne']
  simp only [place, aligned.tail, position_following positive, ring, Nat.mul_div_cancel _ positive]

/-! ## Items -/

theorem items_semaphore (empty : q.uxItemSize = 0) : q.items = List.replicate q.uxMessagesWaiting [] := if_pos empty

theorem items_counted {n : Nat} (empty : q.uxItemSize = 0) :
    { q with uxMessagesWaiting := n }.items = List.replicate n [] := if_pos empty

theorem items_ring (nonzero : q.uxItemSize ≠ 0) : q.items = q.ring.contents q.uxLength := if_neg nonzero

/-- A queue is sound when its positions and counts are, whoever waits for it. -/
theorem Sound.of_semaphore (empty : q.uxItemSize = 0) (positive : 0 < q.uxLength)
    (fits : q.uxMessagesWaiting ≤ q.uxLength) : q.Sound :=
  ⟨positive, fits, fun nonzero => absurd empty nonzero⟩

/-- One more item, at either end. -/
theorem Sound.sent {after : Queue} (sound : q.Sound) (room : q.uxMessagesWaiting < q.uxLength)
    (size : after.uxItemSize = q.uxItemSize) (length : after.uxLength = q.uxLength) (tail : after.pcTail = q.pcTail)
    (count : after.uxMessagesWaiting = q.uxMessagesWaiting + 1) (read : q.uxItemSize ∣ after.pcReadFrom)
    (write : q.uxItemSize ∣ after.pcWriteTo) (aligned : q.Aligned)
    (holding : after.ring.Holding q.uxLength fun _ => True) : after.Sound := by
  refine ⟨length ▸ sound.positive, by rw [count, length]; exact room, fun _ => ⟨?_, ?_, ?_, length ▸ holding⟩⟩
  · rw [tail, length, size]
    exact aligned.tail
  · rwa [size]
  · rwa [size]

theorem Sound.sendToBack (sound : q.Sound) (room : q.uxMessagesWaiting < q.uxLength)
    (sized : item.length = q.uxItemSize) :
    (q.prvCopyDataToQueue item .sendToBack).Sound ∧
      (q.prvCopyDataToQueue item .sendToBack).items = q.items ++ [item] := by
  by_cases empty : q.uxItemSize = 0
  · have copied : q.prvCopyDataToQueue item .sendToBack = { q with uxMessagesWaiting := q.uxMessagesWaiting + 1 } :=
      if_pos empty
    have blank : item = [] := List.length_eq_zero_iff.mp (sized.trans empty)
    rw [copied]
    refine ⟨.of_semaphore empty sound.positive room, ?_⟩
    rw [items_semaphore empty, items_counted empty, blank]
    exact List.replicate_succ'
  · have aligned := sound.aligned empty
    obtain ⟨same, write⟩ := ring_sendToBack aligned (Nat.pos_of_ne_zero empty) sized
    have held := aligned.holding.send room (a := item) trivial
    rw [← same] at held
    rw [prvCopyDataToQueue, if_neg empty, if_pos rfl] at same write held ⊢
    refine ⟨sound.sent room rfl rfl rfl rfl aligned.read write aligned held, ?_⟩
    rw [items_ring empty, ← RingBuffer.contents_send aligned.holding room, ← same]
    exact items_ring empty

theorem Sound.sendToFront (sound : q.Sound) (room : q.uxMessagesWaiting < q.uxLength)
    (sized : item.length = q.uxItemSize) :
    (q.prvCopyDataToQueue item .sendToFront).Sound ∧
      (q.prvCopyDataToQueue item .sendToFront).items = item :: q.items := by
  by_cases empty : q.uxItemSize = 0
  · have copied : q.prvCopyDataToQueue item .sendToFront = { q with uxMessagesWaiting := q.uxMessagesWaiting + 1 } :=
      if_pos empty
    have blank : item = [] := List.length_eq_zero_iff.mp (sized.trans empty)
    rw [copied]
    refine ⟨.of_semaphore empty sound.positive room, ?_⟩
    rw [items_semaphore empty, items_counted empty, blank]
    rfl
  · have aligned := sound.aligned empty
    have other : CopyPosition.sendToFront ≠ .sendToBack := by decide
    obtain ⟨same, read⟩ := ring_sendToFront aligned (Nat.pos_of_ne_zero empty) sized other
    have held : (q.ring.sendFront q.uxLength item).Holding q.uxLength fun _ => True := aligned.holding.sendFront room
    rw [prvCopyDataToQueue, if_neg empty, if_neg other] at same read ⊢
    have front : _ = q.ring.sendFront q.uxLength item := same
    rw [← front] at held
    refine ⟨sound.sent room rfl rfl rfl rfl read aligned.write aligned held, ?_⟩
    rw [items_ring empty, ← RingBuffer.contents_sendFront aligned.holding room, ← front]
    exact items_ring empty

/-- Overwriting is for queues of one item. -/
theorem Sound.overwrite (sound : q.Sound) (one : q.uxLength = 1) (nonzero : q.uxItemSize ≠ 0)
    (sized : item.length = q.uxItemSize) :
    (q.prvCopyDataToQueue item .overwrite).Sound ∧ (q.prvCopyDataToQueue item .overwrite).items = [item] := by
  have aligned := sound.aligned nonzero
  have other : CopyPosition.overwrite ≠ .sendToBack := by decide
  obtain ⟨same, read⟩ := ring_sendToFront aligned (Nat.pos_of_ne_zero nonzero) sized other
  generalize sent : q.prvCopyDataToQueue item .overwrite = after at same read ⊢
  have kept : after.uxLength = 1 ∧ after.uxItemSize = q.uxItemSize ∧ after.pcTail = q.pcTail ∧
      after.pcWriteTo = q.pcWriteTo ∧ after.uxMessagesWaiting = 1 := by
    have fits := sound.fits
    rw [← sent, prvCopyDataToQueue, if_neg nonzero, if_neg other]
    refine ⟨one, rfl, rfl, rfl, ?_⟩
    dsimp only
    by_cases full : q.uxMessagesWaiting > 0
    · rw [if_pos ⟨rfl, full⟩]
      omega
    · rw [if_neg fun both => full both.2]
      omega
  obtain ⟨length, size, tail, write, count⟩ := kept
  -- With one slot every position is the first one.
  have front : after.ring = { q.ring.sendFront 1 item with waiting := 1 } := by rw [same, count, one]
  have only : q.ring.readFrom = 0 := by
    have := aligned.holding.read
    omega
  have place (i : Nat) : (q.ring.sendFront 1 item).place 1 i = 0 := Nat.mod_one _
  refine ⟨⟨by omega, by omega, fun _ => ⟨?_, ?_, ?_, ?_⟩⟩, ?_⟩
  · rw [tail, length, size, ← one]; exact aligned.tail
  · rw [size]; exact read
  · rw [size, write]; exact aligned.write
  · rw [front, length]
    refine ⟨?_, ?_, le_rfl, fun _ _ => trivial⟩
    · change RingBuffer.preceding 1 q.ring.readFrom < 1
      rw [only]
      decide
    · change q.ring.writeTo = _ % 1
      have held := aligned.holding.write
      rw [one] at held
      rw [held]
      exact (Nat.mod_one _).trans (Nat.mod_one _).symm
  · rw [items_ring (by rwa [size]), front, length]
    change [Function.update q.ring.slots q.ring.readFrom item ((q.ring.sendFront 1 item).place 1 0)] = [item]
    rw [place, only, Function.update_self]

theorem Sound.receive (sound : q.Sound) (some_waiting : 0 < q.uxMessagesWaiting) :
    { q.prvCopyDataFromQueue.2 with uxMessagesWaiting := q.uxMessagesWaiting - 1 }.Sound ∧
      q.items = q.prvCopyDataFromQueue.1 ::
        { q.prvCopyDataFromQueue.2 with uxMessagesWaiting := q.uxMessagesWaiting - 1 }.items := by
  have fits := sound.fits
  by_cases empty : q.uxItemSize = 0
  · have copied : q.prvCopyDataFromQueue = ([], q) := if_neg (not_not.mpr empty)
    rw [copied]
    refine ⟨.of_semaphore empty sound.positive (Nat.le_trans (Nat.sub_le _ _) fits), ?_⟩
    rw [items_semaphore empty, items_counted empty]
    obtain ⟨n, more⟩ := Nat.exists_eq_succ_of_ne_zero some_waiting.ne'
    rw [more]
    rfl
  · have aligned := sound.aligned empty
    have positive := Nat.pos_of_ne_zero empty
    rw [copied_from aligned positive]
    have taken : q.ring.receive q.uxLength =
        some (q.ring.slots (RingBuffer.following q.uxLength q.ring.readFrom),
          { q.ring with
            readFrom := RingBuffer.following q.uxLength q.ring.readFrom
            waiting := q.ring.waiting - 1 }) := if_neg some_waiting.ne'
    have same : { q with
        pcReadFrom := RingBuffer.following q.uxLength q.ring.readFrom * q.uxItemSize
        uxMessagesWaiting := q.uxMessagesWaiting - 1 }.ring =
        { q.ring with
          readFrom := RingBuffer.following q.uxLength q.ring.readFrom
          waiting := q.ring.waiting - 1 } := by
      simp only [ring, Nat.mul_div_cancel _ positive]
    refine ⟨⟨sound.positive, Nat.le_trans (Nat.sub_le _ _) fits, fun _ =>
      ⟨aligned.tail, Nat.dvd_mul_left _ _, aligned.write, ?_⟩⟩, ?_⟩
    · rw [same]
      exact (aligned.holding.receive taken).2
    · have later : { q with
          pcReadFrom := RingBuffer.following q.uxLength q.ring.readFrom * q.uxItemSize
          uxMessagesWaiting := q.uxMessagesWaiting - 1 }.items = _ := items_ring empty
      rw [later, same, items_ring empty]
      exact RingBuffer.contents_receive aligned.holding.read taken

/-- Who waits for the queue, and its locks, say nothing about the items. -/
theorem Sound.lists {rx tx : Int8} {senders receivers : List Nat} (sound : q.Sound) :
    { q with
      cRxLock := rx
      cTxLock := tx
      xTasksWaitingToSend := senders
      xTasksWaitingToReceive := receivers }.Sound :=
  ⟨sound.positive, sound.fits, fun nonzero =>
    have aligned := sound.aligned nonzero
    ⟨aligned.tail, aligned.read, aligned.write, aligned.holding⟩⟩

/-- An empty queue, with the first item for slot 0. -/
theorem Sound.reset {new : Bool} (positive : 0 < q.uxLength) (small : q.uxLength * q.uxItemSize < 2 ^ 32) :
    (q.xQueueGenericReset new).2.Sound ∧ (q.xQueueGenericReset new).2.items = [] := by
  have below : (q.uxLength - 1) * q.uxItemSize < 2 ^ 32 :=
    Nat.lt_of_le_of_lt (Nat.mul_le_mul_right _ (Nat.sub_le _ _)) small
  have reset : { q with
      pcTail := q.uxLength * q.uxItemSize % 2 ^ 32
      uxMessagesWaiting := 0
      pcWriteTo := 0
      pcReadFrom := (q.uxLength - 1) * q.uxItemSize % 2 ^ 32 }.Sound := by
    refine ⟨positive, Nat.zero_le _, fun nonzero => ⟨Nat.mod_eq_of_lt small, ?_, Nat.dvd_zero _, ?_⟩⟩
    · dsimp only
      rw [Nat.mod_eq_of_lt below]
      exact Nat.dvd_mul_left _ _
    · have last : (q.uxLength - 1) * q.uxItemSize % 2 ^ 32 / q.uxItemSize = q.uxLength - 1 := by
        rw [Nat.mod_eq_of_lt below, Nat.mul_div_cancel _ (Nat.pos_of_ne_zero nonzero)]
      simp only [ring, last, Nat.zero_div]
      refine ⟨Nat.sub_lt positive Nat.one_pos, ?_, Nat.zero_le _, fun _ _ => trivial⟩
      simp only [RingBuffer.place, Nat.sub_add_cancel positive, Nat.add_zero, Nat.mod_self]
  have none_left : (q.xQueueGenericReset new).2.items.length = 0 := by
    rw [items_length]
    cases new <;> rfl
  refine ⟨?_, List.length_eq_zero_iff.mp none_left⟩
  cases new <;> exact reset.lists

end Queue

end BekenSdk.Kernel
