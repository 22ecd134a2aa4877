import BekenSdk.Base.Circular
import BekenSdk.Base.Machine
import BekenSdk.SpiSlave.RxRing

/-! The receive ring is a queue of 511 bytes that drops its oldest one. -/

set_option autoImplicit false

namespace BekenSdk.SpiSlave
open Base

/-- The unread bytes are the ones from the reader's index to the writer's, and the flag is up only when there are 511. -/
structure Holds (rxFifo : SpiRxFifo) (unread : List UInt8) : Prop where
  get : rxFifo.getIndex.toNat < 512
  put : rxFifo.putIndex.toNat = (rxFifo.getIndex.toNat + unread.length) % 512
  bytes : readRing rxFifo.buffer 512 rxFifo.getIndex.toNat unread.length = unread
  bounded : unread.length ≤ 511
  full : rxFifo.isFull = true → unread.length = 511

variable {rxFifo : SpiRxFifo} {unread rest : List UInt8} {ch : UInt8} {queue : DropOldest UInt8}

theorem advanced_toNat {index : UInt16} (inside : index.toNat < 512) :
    (advanced index).toNat = (index.toNat + 1) % 512 := by
  have sum : (index + 1).toNat = index.toNat + 1 := by
    rw [UInt16.toNat_add]
    show (index.toNat + 1) % 2 ^ 16 = index.toNat + 1
    omega
  unfold advanced
  split
  next last =>
    have reached : 512 ≤ (index + 1).toNat := UInt16.le_iff_toNat_le.mp last
    have same : index.toNat + 1 = 512 := by omega
    rw [same]
    rfl
  next more =>
    have below : ¬512 ≤ (index + 1).toNat := fun reached => more (UInt16.le_iff_toNat_le.mpr reached)
    rw [sum, Nat.mod_eq_of_lt (by omega)]

namespace Holds

theorem putIndex_eq_iff (holds : Holds rxFifo unread) : rxFifo.putIndex = rxFifo.getIndex ↔ unread = [] := by
  have get := holds.get
  have bounded := holds.bounded
  rw [← UInt16.toNat_inj, holds.put, ← List.length_eq_zero_iff]
  omega

theorem advanced_put (holds : Holds rxFifo unread) :
    (advanced rxFifo.putIndex).toNat = (rxFifo.getIndex.toNat + (unread.length + 1)) % 512 := by
  have inside : rxFifo.putIndex.toNat < 512 := holds.put ▸ Nat.mod_lt _ (by decide)
  rw [advanced_toNat inside, holds.put, ← Nat.add_assoc]
  omega

/-- The byte that is put comes behind the unread ones. -/
theorem bytes_put (holds : Holds rxFifo unread) :
    readRing (Function.update rxFifo.buffer rxFifo.putIndex.toNat ch) 512 rxFifo.getIndex.toNat (unread.length + 1) =
      unread ++ [ch] := by
  have bounded := holds.bounded
  have apart : ∀ c ∈ ringCells 512 rxFifo.getIndex.toNat unread.length, c ≠ rxFifo.putIndex.toNat := by
    intro c inside same
    have free := @ringCells_apart 512 (rxFifo.getIndex.toNat + unread.length) 1 _ _ c rfl (by omega) inside
    rw [same, holds.put] at free
    exact free List.mem_cons_self
  have old : readRing (Function.update rxFifo.buffer rxFifo.putIndex.toNat ch) 512 rxFifo.getIndex.toNat unread.length =
      readRing rxFifo.buffer 512 rxFifo.getIndex.toNat unread.length :=
    List.map_congr_left fun c inside => Function.update_of_ne (apart c inside) _ _
  rw [readRing_add, old, holds.bytes, readRing_one, holds.put, Function.update_self]

theorem advanced_get (holds : Holds rxFifo unread) :
    (advanced rxFifo.getIndex).toNat = (rxFifo.getIndex.toNat + 1) % 512 := advanced_toNat holds.get

/-- A byte comes in as in the queue. -/
theorem putByte (holds : Holds rxFifo queue.unread) : Holds (putByte rxFifo ch) (queue.arrive 511 ch).unread := by
  have get := holds.get
  have bounded := holds.bounded
  have put := holds.advanced_put
  have bytes := @bytes_put _ _ ch holds
  unfold SpiSlave.putByte
  dsimp only
  split
  next met =>
    -- the indices meet when 511 bytes are unread
    have all : queue.unread.length = 511 := by
      rw [met] at put
      omega
    have left : (queue.unread.tail ++ [ch]).length = 511 := by
      rw [List.length_append, List.length_tail, all]
      rfl
    have some_byte : queue.unread ≠ [] := List.ne_nil_of_length_pos (by omega)
    rw [DropOldest.arrive_full (by decide) all]
    refine ⟨?_, ?_, ?_, left.le, fun _ => left⟩
    · rw [holds.advanced_get]
      exact Nat.mod_lt _ (by decide)
    · rw [put, holds.advanced_get, left, all]
      omega
    · have later := congrArg List.tail bytes
      rw [← List.drop_one, readRing_drop (by omega), all, List.tail_append_of_ne_nil some_byte] at later
      rw [left, holds.advanced_get, readRing_modEq (Nat.mod_modEq _ _)]
      exact later
  next apart =>
    have room : queue.unread.length ≠ 511 := by
      intro all
      apply apart
      rw [← UInt16.toNat_inj, put, all]
      omega
    have more : (queue.unread ++ [ch]).length = queue.unread.length + 1 := List.length_append
    rw [DropOldest.arrive_room room]
    refine ⟨get, ?_, ?_, by omega, fun up => absurd (holds.full up) room⟩
    · rw [more]
      exact put
    · rw [more]
      exact bytes

/-- A byte is taken as from the queue, and none when there is none. -/
theorem getByte_none (holds : Holds rxFifo []) : getByte rxFifo = none := by
  refine if_pos ⟨(holds.putIndex_eq_iff.mpr rfl).symm, ?_⟩
  cases up : rxFifo.isFull with
  | false => rfl
  | true => exact absurd (holds.full up) (by decide)

theorem getByte_some (holds : Holds rxFifo (ch :: rest)) : ∃ left, getByte rxFifo = some (ch, left) ∧ Holds left rest := by
  have bounded := holds.bounded
  have put := holds.put
  rw [List.length_cons] at bounded put
  have some_byte : rxFifo.getIndex ≠ rxFifo.putIndex := fun same =>
    absurd (holds.putIndex_eq_iff.mp same.symm) (List.cons_ne_nil _ _)
  have split : readRing rxFifo.buffer 512 rxFifo.getIndex.toNat (1 + rest.length) = ch :: rest := by
    rw [Nat.add_comm]
    exact holds.bytes
  rw [readRing_add, readRing_one, Nat.mod_eq_of_lt holds.get] at split
  obtain ⟨taken, later⟩ := List.cons.inj split
  unfold getByte
  rw [if_neg fun both => some_byte both.1]
  dsimp only
  rw [taken]
  refine ⟨_, rfl, ?_, ?_, ?_, by omega, ?_⟩
  · rw [holds.advanced_get]
    exact Nat.mod_lt _ (by decide)
  · rw [holds.advanced_get, put]
    omega
  · rw [holds.advanced_get, readRing_modEq (Nat.mod_modEq _ _)]
    exact later
  · cases rxFifo.isFull <;> exact nofun

theorem bkSpiSlaveGetRxFifo (holds : Holds rxFifo unread) : (bkSpiSlaveGetRxFifo rxFifo).toNat = unread.length := by
  have get := holds.get
  have put := holds.put
  have bounded := holds.bounded
  unfold SpiSlave.bkSpiSlaveGetRxFifo
  split
  next behind =>
    have before : rxFifo.getIndex.toNat ≤ rxFifo.putIndex.toNat := UInt16.le_iff_toNat_le.mp behind
    simp only [UInt32.toNat_sub, UInt16.toNat_toUInt32]
    omega
  next wrapped =>
    have after : rxFifo.putIndex.toNat < rxFifo.getIndex.toNat :=
      Nat.lt_of_not_le fun le => wrapped (UInt16.le_iff_toNat_le.mpr le)
    have len : spiSlaveRxFifoLen.toUInt32.toNat = 512 := rfl
    simp only [UInt32.toNat_sub, UInt16.toNat_toUInt32, len]
    omega

theorem init : Holds initRxFifo [] := ⟨by decide, rfl, rfl, by decide, nofun⟩

theorem bkSpiSlaveSpiRxCallback {received : List UInt8} (holds : Holds rxFifo queue.unread) :
    Holds (bkSpiSlaveSpiRxCallback rxFifo received) (queue.arriveAll 511 received).unread := by
  induction received generalizing rxFifo queue with
  | nil => exact holds
  | cons ch rest ih => exact ih holds.putByte

end Holds

/-! ## The ring does what the queue does -/

structure Related (s : Slave SpiRxFifo) (t : Slave (DropOldest UInt8)) : Prop where
  rx : Holds s.rx t.rx.unread
  reader : t.reader = s.reader
  replies : t.replies = s.replies

variable {s next : Slave SpiRxFifo} {t : Slave (DropOldest UInt8)} {event : Event}

theorem Related.critical (related : Related s t) (done : step rxRing .critical s = some next) :
    ∃ after, step (dropOldest 511) .critical t = some after ∧ Related next after := by
  obtain ⟨⟨gone, unread⟩, reader, replies⟩ := t
  obtain ⟨rx, _, _⟩ := s
  obtain ⟨holds, rfl, rfl⟩ := related
  cases reader with
  | idle => cases done
  | holding => cases done
  | looking written len size =>
    cases unread with
    | nil =>
      have none : rxRing.critical rx = none := holds.getByte_none
      simp only [step, none, Option.some.injEq] at done
      subst done
      exact ⟨_, rfl, holds, rfl, rfl⟩
    | cons ch rest =>
      obtain ⟨left, some_byte, kept⟩ := holds.getByte_some
      have found : rxRing.critical rx = some (ch, left) := some_byte
      simp only [step, found, Option.some.injEq] at done
      subst done
      exact ⟨_, rfl, kept, rfl, rfl⟩

theorem Related.loop (related : Related s t) (written : List UInt8) (len size : Nat) :
    Related (s.loop written len size) (t.loop written len size) := by
  unfold Slave.loop
  split
  · exact ⟨related.rx, rfl, congrArg (· ++ _) related.replies⟩
  · exact ⟨related.rx, rfl, related.replies⟩

theorem Related.matched (related : Related s t) (done : step rxRing event s = some next) :
    ∃ after, step (dropOldest 511) event t = some after ∧ Related next after := by
  cases event with
  | critical => exact related.critical done
  | callback received =>
    obtain rfl := Option.some.inj done
    exact ⟨_, rfl, related.rx.bkSpiSlaveSpiRxCallback, related.reader, related.replies⟩
  | getRxFifo =>
    obtain rfl := Option.some.inj done
    have counted : UInt32.ofNat t.rx.unread.length = bkSpiSlaveGetRxFifo s.rx := by
      rw [← related.rx.bkSpiSlaveGetRxFifo, UInt32.ofNat_toNat]
    refine ⟨_, rfl, related.rx, related.reader, ?_⟩
    show t.replies ++ [.rxFifo (UInt32.ofNat t.rx.unread.length)] = s.replies ++ [.rxFifo (bkSpiSlaveGetRxFifo s.rx)]
    rw [related.replies, counted]
  | getRxData rxBuf len =>
    cases place : s.reader with
    | idle =>
      have free := related.reader.trans place
      simp only [step, place] at done
      simp only [step, free]
      cases rxBuf with
      | false =>
        obtain rfl := Option.some.inj done
        exact ⟨_, rfl, related.rx, rfl, congrArg (· ++ [_]) related.replies⟩
      | true =>
        obtain rfl := Option.some.inj done
        exact ⟨_, rfl, related.loop [] len len⟩
    | looking => simp only [step, place, reduceCtorEq] at done
    | holding => simp only [step, place, reduceCtorEq] at done
  | store =>
    cases place : s.reader with
    | idle => simp only [step, place, reduceCtorEq] at done
    | looking => simp only [step, place, reduceCtorEq] at done
    | holding written len size ch =>
      have same := related.reader.trans place
      simp only [step, place, Option.some.injEq] at done
      simp only [step, same]
      subst done
      exact ⟨_, rfl, related.loop (written ++ [ch]) len (size - 1)⟩

/-! ## What the queue returns -/

/-- A call returns as many bytes as it has written. -/
def Reply.Whole : Reply → Prop
  | .rxData len returned bytes => returned = bytes.length ∧ returned ≤ len
  | .rxFifo _ => True

/-- A call has written what it is to return when it stops. -/
def Reader.Sized : Reader → Prop
  | .idle => True
  | .looking written len size => written.length + size = len ∧ 0 < size
  | .holding written len size _ => written.length + size = len ∧ 0 < size

/-- What holds of the queue and the reader after some events. -/
structure Faithful (capacity : Nat) (events : List Event) (s : Slave (DropOldest UInt8)) : Prop where
  arrived : s.rx.received = received events
  returned : s.returned = s.rx.taken
  bounded : s.rx.unread.length ≤ capacity
  sized : s.reader.Sized
  whole : ∀ reply ∈ s.replies, reply.Whole

section
variable {capacity : Nat} {events : List Event} {q after : Slave (DropOldest UInt8)}

theorem returned_reply (reply : Reply) : (q.reply reply).returned = q.replies.flatMap Reply.bytes ++ reply.bytes := by
  simp [Slave.returned, Slave.reply, Reader.taken]

theorem Faithful.reply (faithful : Faithful capacity events q) {reply : Reply} (bytes : reply.bytes = q.reader.taken)
    (whole : reply.Whole) : Faithful capacity events (q.reply reply) where
  arrived := faithful.arrived
  returned := by
    rw [returned_reply, bytes]
    exact faithful.returned
  bounded := faithful.bounded
  sized := trivial
  whole := by
    intro other member
    cases List.mem_append.mp member with
    | inl earlier => exact faithful.whole other earlier
    | inr last => exact List.mem_singleton.mp last ▸ whole

theorem Faithful.loop (faithful : Faithful capacity events q) {written : List UInt8} {len size : Nat}
    (bytes : written = q.reader.taken) (sized : written.length + size = len) :
    Faithful capacity events (q.loop written len size) := by
  unfold Slave.loop
  split
  next through =>
    refine faithful.reply bytes ⟨?_, Nat.sub_le _ _⟩
    omega
  next more =>
    refine ⟨faithful.arrived, ?_, faithful.bounded, ⟨sized, Nat.pos_of_ne_zero more⟩, faithful.whole⟩
    rw [← faithful.returned, Slave.returned, Slave.returned, bytes]
    rfl

/-- Only the bytes that came with the events matter. -/
theorem Faithful.of_events {later : List Event} (faithful : Faithful capacity events q)
    (same : received later = received events) : Faithful capacity later q :=
  { faithful with arrived := faithful.arrived.trans same.symm }

theorem Faithful.critical (faithful : Faithful capacity events q)
    (done : step (dropOldest capacity) .critical q = some after) : Faithful capacity events after := by
  obtain ⟨queue, reader, replies⟩ := q
  cases reader with
  | idle => cases done
  | holding => cases done
  | looking written len size =>
    obtain ⟨counted, more⟩ := faithful.sized
    cases found : queue.take with
    | none =>
      have none : (dropOldest capacity).critical queue = none := found
      simp only [step, none, Option.some.injEq] at done
      subst done
      refine faithful.reply rfl ⟨?_, Nat.sub_le _ _⟩
      omega
    | some pair =>
      obtain ⟨ch, left⟩ := pair
      have some_byte : (dropOldest capacity).critical queue = some (ch, left) := found
      simp only [step, some_byte, Option.some.injEq] at done
      subst done
      refine ⟨(DropOldest.take_received found).trans faithful.arrived, ?_, ?_, ⟨counted, more⟩, faithful.whole⟩
      · have before := faithful.returned
        rw [DropOldest.take_taken found, ← before, Slave.returned, Slave.returned, List.append_assoc]
        rfl
      · have fewer := faithful.bounded
        dsimp only at fewer
        rw [DropOldest.take_unread found] at fewer
        exact Nat.le_of_succ_le fewer

theorem Faithful.kept (positive : 0 < capacity) (faithful : Faithful capacity events q)
    (done : step (dropOldest capacity) event q = some after) : Faithful capacity (event :: events) after := by
  cases event with
  | callback bytes =>
    obtain rfl := Option.some.inj done
    refine ⟨?_, ?_, DropOldest.arriveAll_bounded positive faithful.bounded, faithful.sized, faithful.whole⟩
    · exact DropOldest.arriveAll_received.trans (congrArg (· ++ bytes) faithful.arrived)
    · exact faithful.returned.trans DropOldest.arriveAll_taken.symm
  | getRxFifo =>
    obtain rfl := Option.some.inj done
    refine ⟨faithful.arrived, ?_, faithful.bounded, faithful.sized, ?_⟩
    · rw [← faithful.returned, Slave.returned, Slave.returned, List.flatMap_append]
      simp [Reply.bytes]
    · intro other member
      cases List.mem_append.mp member with
      | inl earlier => exact faithful.whole other earlier
      | inr last => exact List.mem_singleton.mp last ▸ trivial
  | getRxData rxBuf len =>
    obtain ⟨queue, reader, replies⟩ := q
    cases reader with
    | idle =>
      cases rxBuf with
      | false =>
        obtain rfl := Option.some.inj done
        exact Faithful.of_events (@Faithful.reply _ _ _ faithful (.rxData len 0 []) rfl ⟨rfl, Nat.zero_le _⟩) rfl
      | true =>
        obtain rfl := Option.some.inj done
        exact (faithful.loop rfl (Nat.zero_add len)).of_events rfl
    | looking => cases done
    | holding => cases done
  | critical => exact (faithful.critical done).of_events rfl
  | store =>
    obtain ⟨queue, reader, replies⟩ := q
    cases reader with
    | idle => cases done
    | looking => cases done
    | holding written len size ch =>
      obtain rfl := Option.some.inj done
      obtain ⟨counted, more⟩ := faithful.sized
      have longer : (written ++ [ch]).length = written.length + 1 := List.length_append
      refine (faithful.loop rfl ?_).of_events rfl
      show (written ++ [ch]).length + (size - 1) = len
      omega

end

/-- A call that ends at the head of the loop returns what was asked for. -/
theorem loop_whole {written bytes : List UInt8} {wanted size len returned : Nat}
    (replied : (s.loop written wanted size).replies = s.replies ++ [.rxData len returned bytes]) : returned = len := by
  unfold Slave.loop at replied
  split at replied
  next through =>
    injection List.append_cancel_left replied with last
    injection last with asked given
    rw [← asked, ← given, through, Nat.sub_zero]
  · exact absurd (List.self_eq_append_right.mp replied) (List.cons_ne_nil _ _)

/-- A call that returns less has found no unread byte. -/
theorem short_read {bytes : List UInt8} {len returned : Nat} (holds : Holds s.rx unread)
    (buffer : event ≠ .getRxData false len) (done : step rxRing event s = some next)
    (replied : next.replies = s.replies ++ [.rxData len returned bytes]) (short : returned < len) : unread = [] := by
  obtain ⟨rx, reader, replies⟩ := s
  have silent : replies ≠ replies ++ [.rxData len returned bytes] := fun same =>
    List.cons_ne_nil _ _ (List.self_eq_append_right.mp same)
  cases event with
  | callback =>
    obtain rfl := Option.some.inj done
    exact absurd replied silent
  | getRxFifo =>
    obtain rfl := Option.some.inj done
    injection List.append_cancel_left replied with last
    cases last
  | getRxData rxBuf wanted =>
    cases reader with
    | idle =>
      cases rxBuf with
      | false =>
        obtain rfl := Option.some.inj done
        injection List.append_cancel_left replied with last
        injection last with asked
        exact absurd (congrArg (Event.getRxData false) asked) buffer
      | true =>
        obtain rfl := Option.some.inj done
        exact absurd (loop_whole replied) (Nat.ne_of_lt short)
    | looking => cases done
    | holding => cases done
  | critical =>
    cases unread with
    | nil => rfl
    | cons ch rest =>
      obtain ⟨left, some_byte, -⟩ := holds.getByte_some
      have found : rxRing.critical rx = some (ch, left) := some_byte
      cases reader with
      | idle => cases done
      | holding => cases done
      | looking written wanted size =>
        simp only [step, found, Option.some.injEq] at done
        subst done
        exact absurd replied silent
  | store =>
    cases reader with
    | idle => cases done
    | looking => cases done
    | holding written wanted size ch =>
      obtain rfl := Option.some.inj done
      exact absurd (loop_whole replied) (Nat.ne_of_lt short)

/-- In every run the ring gives the replies of a queue of 511 bytes that drops its oldest one. What the reads have
returned is what was taken from the queue, the number of unread bytes is the length of the queue, and a read of a buffer
that is there returns fewer bytes than were asked for only when the queue is empty. -/
theorem rx_ring_refines {moments : List (Moment (Slave SpiRxFifo) Event)} {final : Slave SpiRxFifo}
    (run : Run (Machine.Step (step rxRing)) (.init initRxFifo) moments final) :
    ∃ others queued, Run (Machine.Step (step (dropOldest 511))) (.init .empty) others queued ∧
      others.map Moment.event = moments.map Moment.event ∧ queued.replies = final.replies ∧
      queued.rx.received = received (moments.map Moment.event) ∧ queued.rx.taken = final.returned ∧
      queued.rx.unread.length ≤ 511 ∧ (bkSpiSlaveGetRxFifo final.rx).toNat = queued.rx.unread.length ∧
      (∀ reply ∈ final.replies, reply.Whole) ∧
      ∀ event next len returned bytes, event ≠ .getRxData false len → step rxRing event final = some next →
        next.replies = final.replies ++ [.rxData len returned bytes] → returned < len → queued.rx.unread = [] := by
  have initial : Related (.init initRxFifo) (.init .empty) := ⟨Holds.init, rfl, rfl⟩
  obtain ⟨others, queued, run', same, related⟩ := Machine.simulated run initial fun related done => related.matched done
  have faithful : Faithful 511 (others.map Moment.event) queued := by
    clear related same
    induction run' with
    | nil => exact ⟨rfl, rfl, by decide, trivial, fun _ none => absurd none List.not_mem_nil⟩
    | next _ last ih => exact ih.kept (by decide) last.2
  refine ⟨others, queued, run', same, related.replies, ?_, ?_, faithful.bounded, related.rx.bkSpiSlaveGetRxFifo, ?_, ?_⟩
  · rw [← same]
    exact faithful.arrived
  · rw [← faithful.returned, Slave.returned, Slave.returned, related.replies, related.reader]
  · rw [← related.replies]
    exact faithful.whole
  · intro event next len returned bytes buffer done replied short
    exact short_read related.rx buffer done replied short

/-- Two bytes come, and a read of three takes them; the latest event is first. -/
def readOfThree : List Event :=
  [.critical, .store, .critical, .store, .critical, .getRxData true 3, .callback [7, 8]]

theorem readOfThree_refines : ∃ queued : Slave (DropOldest UInt8),
    queued.replies = [.rxData 3 2 [7, 8]] ∧ queued.rx.received = [7, 8] ∧ queued.rx.taken = [7, 8] := by
  have shown : (Machine.replay (step rxRing) (.init initRxFifo) readOfThree).map (fun s => (s.replies, s.returned)) =
      some ([.rxData 3 2 [7, 8]], [7, 8]) := rfl
  obtain ⟨final, replayed, last⟩ := Option.map_eq_some_iff.mp shown
  obtain ⟨lastReplies, lastReturned⟩ := Prod.mk.inj last
  obtain ⟨moments, run, same⟩ := Machine.run_of_replay replayed
  obtain ⟨-, queued, -, -, replies, arrived, taken, -⟩ := rx_ring_refines run
  exact ⟨queued, replies.trans lastReplies, arrived.trans (congrArg received same), taken.trans lastReturned⟩

end BekenSdk.SpiSlave
