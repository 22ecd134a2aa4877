import BekenSdk.Audio.Copies
import BekenSdk.Base.Machine
import BekenSdk.Base.Queue

/-! The ring buffer of the audio driver. As long as no length wraps, it is a queue that keeps
the safety interval free; a length that wraps passes the test of the room.
-/

set_option autoImplicit false

namespace BekenSdk.Audio
open Base

/-- `RB_ST`; the memory is counted from its address. -/
structure Rb where
  address : Cells
  capacity : UInt32
  wp : UInt32
  rp : UInt32

namespace Rb

def rbInit (addr : Cells) (capacity : UInt32) : Rb where
  address := addr
  capacity := capacity
  wp := 0
  rp := 0

/-- How many bytes were read, the buffer of the caller, and the ring buffer. -/
def rbRead (rb : Rb) (buffer : Cells) (size count : UInt32) : UInt32 × Cells × Rb :=
  let required := size * count
  if required = 0 then (0, buffer, rb)
  else
    let (read, copies, rp) := readCopies rb.capacity rb.wp rb.rp required
    (read, storeBytes buffer 0 ((cellsOf copies).map rb.address), { rb with rp })

/-- How many bytes were written, and the ring buffer. -/
def rbWrite (rb : Rb) (buffer : Cells) (size count : UInt32) : UInt32 × Rb :=
  let writeBytes := size * count
  if writeBytes = 0 then (0, rb)
  else
    match writeCopies rb.capacity rb.wp rb.rp writeBytes with
    | none => (0, rb)
    | some (copies, wp) =>
      let address := storeEach rb.address ((cellsOf copies).zip (readBytes buffer 0 writeBytes.toNat))
      (writeBytes, { rb with address, wp := wrapped rb.capacity rb.rp wp })

def rbGetFillSize (rb : Rb) : UInt32 := fillSize rb.capacity rb.wp rb.rp

def rbGetFreeSize (rb : Rb) : UInt32 := freeSize rb.capacity rb.wp rb.rp

/-- The bytes that wait, the oldest first. -/
def content (rb : Rb) : List UInt8 := readRing rb.address rb.capacity.toNat rb.rp.toNat rb.rbGetFillSize.toNat

/-! ## Operations -/

/-- What every operation keeps. -/
structure Sound (rb : Rb) : Prop where
  placed : Placed rb.capacity rb.wp rb.rp
  interval : rb.rbGetFillSize.toNat + 4 ≤ rb.capacity.toNat

variable {rb : Rb} {buffer addr : Cells} {capacity size count : UInt32}

@[simp] theorem content_length : rb.content.length = rb.rbGetFillSize.toNat := readRing_length

theorem rbInit_sound (big : 4 < capacity.toNat) : (rbInit addr capacity).Sound := by
  have placed : Placed capacity 0 0 := ⟨Nat.zero_lt_of_lt big, Nat.zero_le _⟩
  refine ⟨placed, ?_⟩
  have none_waiting : (rbInit addr capacity).rbGetFillSize.toNat = 0 := placed.fill_unique placed.write rfl
  rw [none_waiting]
  exact big.le

theorem rbInit_content (positive : 0 < capacity.toNat) : (rbInit addr capacity).content = [] := by
  have placed : Placed capacity 0 0 := ⟨positive, Nat.zero_le _⟩
  rw [← List.length_eq_zero_iff, content_length]
  exact placed.fill_unique positive rfl

theorem rbRead_address : (rb.rbRead buffer size count).2.2.address = rb.address := by
  unfold rbRead
  dsimp only
  split <;> rfl

theorem rbRead_capacity : (rb.rbRead buffer size count).2.2.capacity = rb.capacity := by
  unfold rbRead
  dsimp only
  split <;> rfl

theorem Sound.rbRead_spec (sound : rb.Sound) :
    (rb.rbRead buffer size count).2.2.Sound ∧
      (rb.rbRead buffer size count).2.2.content = rb.content.drop (size * count).toNat ∧
      readBytes (rb.rbRead buffer size count).2.1 0 (rb.rbRead buffer size count).1.toNat =
        rb.content.take (size * count).toNat := by
  unfold rbRead
  simp only
  split
  next nothing =>
    rw [nothing]
    exact ⟨sound, rfl, rfl⟩
  next some_required =>
    have place := sound.placed
    have interval := sound.interval
    obtain ⟨got, cells, inside, behind⟩ := @Placed.read_spec rb.capacity rb.wp rb.rp (size * count) place
    rw [← rbGetFillSize] at got cells behind
    obtain ⟨fill, left⟩ := @Placed.moved _ _ _ _ rb.address _ place inside behind
    refine ⟨⟨⟨place.write, inside⟩, ?_⟩, left, ?_⟩
    · change (fillSize _ _ _).toNat + 4 ≤ rb.capacity.toNat
      rw [fill]
      rw [rbGetFillSize] at interval
      omega
    · rw [cells, content, readRing_take]
      apply (holds_storeBytes _ _ _).read_of_length
      rw [List.length_map, ringCells_length, got]

/-- A write that fits puts all its bytes behind those that wait. -/
theorem Sound.rbWrite_spec (sound : rb.Sound) (positive : size * count ≠ 0)
    (fits : (size * count).toNat + 4 ≤ (roomSize rb.capacity rb.wp rb.rp).toNat) :
    (rb.rbWrite buffer size count).1 = size * count ∧ (rb.rbWrite buffer size count).2.Sound ∧
      (rb.rbWrite buffer size count).2.capacity = rb.capacity ∧
      (rb.rbWrite buffer size count).2.content = rb.content ++ readBytes buffer 0 (size * count).toNat ∧
      ∀ i, rb.capacity.toNat ≤ i → (rb.rbWrite buffer size count).2.address i = rb.address i := by
  have place := sound.placed
  obtain ⟨copies, next, written, cells, inside, free, behind⟩ := place.write_spec fits
  have room := place.room_eq
  rw [← rbGetFillSize] at room
  have length := readBytes_length buffer 0 (size * count).toNat
  have stored : storeEach rb.address ((cellsOf copies).zip (readBytes buffer 0 (size * count).toNat)) =
      storeRing rb.address rb.capacity.toNat rb.wp.toNat (readBytes buffer 0 (size * count).toNat) := by
    rw [cells, ← storeEach_ringCells place.write.le (by omega), length]
  have result : rb.rbWrite buffer size count = (size * count, { rb with
      address := storeRing rb.address rb.capacity.toNat rb.wp.toNat (readBytes buffer 0 (size * count).toNat),
      wp := wrapped rb.capacity rb.rp next }) := by
    simp only [rbWrite, if_neg positive, written, stored]
  obtain ⟨before, same⟩ := wrapped_spec (Nat.zero_lt_of_lt place.write) inside free
  have after : Placed rb.capacity (wrapped rb.capacity rb.rp next) rb.rp := ⟨before, place.read⟩
  have fill : (fillSize rb.capacity (wrapped rb.capacity rb.rp next) rb.rp).toNat =
      rb.rbGetFillSize.toNat + (size * count).toNat := by
    apply after.fill_unique (by omega)
    rw [← Nat.add_assoc]
    exact (place.behind.add_right _).trans (behind.symm.trans same.symm)
  rw [result]
  refine ⟨rfl, ⟨after, ?_⟩, rfl, ?_, fun i beyond => storeRing_beyond place.write.le (by omega) beyond⟩
  · change (fillSize _ _ _).toNat + 4 ≤ rb.capacity.toNat
    rw [fill]
    omega
  · change readRing _ _ _ (fillSize _ _ _).toNat = _
    have ring := @readRing_storeRing rb.address rb.capacity.toNat rb.wp.toNat
      (readBytes buffer 0 (size * count).toNat) rb.rp.toNat rb.rbGetFillSize.toNat place.write.le place.behind (by omega)
    rw [length] at ring
    rw [fill]
    exact ring

theorem rbWrite_refused (refused : Refused rb.capacity rb.wp rb.rp (size * count)) :
    rb.rbWrite buffer size count = (0, rb) := by
  unfold rbWrite
  simp only
  split
  · rfl
  next positive => rw [writeCopies_eq_none.2 (refused.resolve_left positive)]

theorem rbWrite_accepted (accepted : ¬ Refused rb.capacity rb.wp rb.rp (size * count)) :
    (rb.rbWrite buffer size count).1 = size * count := by
  obtain ⟨positive, room⟩ := not_or.1 accepted
  unfold rbWrite
  simp only [if_neg positive]
  split
  next refused => exact absurd (writeCopies_eq_none.1 refused) room
  next => rfl

/-! ## Runs -/

/-- The ring buffer with the calls so far, the latest first. -/
structure Recorded where
  rb : Rb
  calls : List (Queue.Call UInt8)

inductive Event where
  | write (buffer : Cells) (size count : UInt32)
  | read (buffer : Cells) (size count : UInt32)

/-- A write is asked to take `size * count` bytes, however many these are. -/
def step : Event → Recorded → Option Recorded
  | .write buffer size count, s =>
    let result := s.rb.rbWrite buffer size count
    some ⟨result.2, .put (size.toNat * count.toNat) (readBytes buffer 0 result.1.toNat) :: s.calls⟩
  | .read buffer size count, s =>
    let result := s.rb.rbRead buffer size count
    some ⟨result.2.2, .get (size * count).toNat (readBytes result.2.1 0 result.1.toNat) :: s.calls⟩

def start (addr : Cells) (capacity : UInt32) : Recorded := ⟨rbInit addr capacity, []⟩

/-- The calls are those of a bounded queue, and the sizes tell what is in it. -/
structure Right (addr : Cells) (capacity : UInt32) (s : Recorded) : Prop where
  queue : ∃ queue, Run (Queue.Step (AllOrNothing capacity.toNat)) [] s.calls queue ∧
    queue.length = s.rb.rbGetFillSize.toNat ∧ Queue.taken s.calls = Queue.given s.calls ++ queue
  sizes : s.rb.rbGetFillSize.toNat + s.rb.rbGetFreeSize.toNat = capacity.toNat - 4
  write : s.rb.wp.toNat ≤ capacity.toNat
  read : s.rb.rp.toNat ≤ capacity.toNat
  beyond : ∀ i, capacity.toNat ≤ i → s.rb.address i = addr i

/-- The write is refused, or the length does not wrap with the interval added. -/
def Fine (s : Recorded) : Event → Prop
  | .write _ size count =>
    Refused s.rb.capacity s.rb.wp s.rb.rp (size * count) ∨ size.toNat * count.toNat + 4 < 4294967296
  | .read _ _ _ => True

instance (s : Recorded) (event : Event) : Decidable (Fine s event) := by
  cases event <;> unfold Fine <;> infer_instance

structure Kept (addr : Cells) (capacity : UInt32) (s : Recorded) : Prop where
  sound : s.rb.Sound
  same : s.rb.capacity = capacity
  run : Run (Queue.Step (AllOrNothing capacity.toNat)) [] s.calls s.rb.content
  beyond : ∀ i, capacity.toNat ≤ i → s.rb.address i = addr i

variable {s t : Recorded} {event : Event}

theorem start_kept (big : 4 < capacity.toNat) : Kept addr capacity (start addr capacity) where
  sound := rbInit_sound big
  same := rfl
  run := by
    rw [start, rbInit_content (Nat.zero_lt_of_lt big)]
    exact .nil
  beyond := fun _ _ => rfl

theorem Kept.right (kept : Kept addr capacity s) : Right addr capacity s := by
  have placed := kept.sound.placed
  have interval := kept.sound.interval
  have same := kept.same
  have free := placed.free_eq
  rw [← rbGetFillSize, ← rbGetFreeSize] at free
  refine ⟨⟨_, kept.run, content_length, Queue.conserved kept.run⟩, ?_, same ▸ placed.write.le, same ▸ placed.read,
    kept.beyond⟩
  rw [← same]
  omega

theorem Kept.step (kept : Kept addr capacity s) (fine : Fine s event) (taken : step event s = some t) :
    Kept addr capacity t := by
  have sound := kept.sound
  have same := kept.same
  cases event with
  | read buffer size count =>
    obtain rfl := Option.some.inj taken
    obtain ⟨after, content, bytes⟩ := @Sound.rbRead_spec s.rb buffer size count sound
    refine ⟨after, rbRead_capacity.trans same, .next kept.run ⟨bytes, content⟩, fun i beyond => ?_⟩
    exact (congrFun rbRead_address i).trans (kept.beyond i beyond)
  | write buffer size count =>
    obtain rfl := Option.some.inj taken
    have room := sound.placed.room_eq
    rw [← rbGetFillSize] at room
    by_cases refused : Refused s.rb.capacity s.rb.wp s.rb.rp (size * count)
    · have none_accepted := sound.placed.refused refused
      rw [← rbGetFillSize, same, ← content_length] at none_accepted
      simp only [rbWrite_refused refused]
      exact ⟨sound, same, .next kept.run ⟨none_accepted, (List.append_nil _).symm⟩, kept.beyond⟩
    · obtain ⟨whole, fits⟩ := accepted_whole refused (fine.resolve_left refused)
      obtain ⟨all, after, unchanged, content, beyond⟩ :=
        @Sound.rbWrite_spec s.rb buffer size count sound (not_or.1 refused).1 fits
      refine ⟨after, unchanged.trans same, .next kept.run ⟨?_, ?_⟩, fun i outside => ?_⟩
      · rw [readBytes_length, all, content_length, AllOrNothing, ← whole, if_pos]
        rw [← same]
        omega
      · rw [all]
        exact content
      · exact (beyond i (same ▸ outside)).trans (kept.beyond i outside)

/-- A length that wraps is accepted although the queue has no room for it. -/
theorem step_spoils (same : s.rb.capacity = capacity) (bad : ¬ Fine s event) (taken : step event s = some t) :
    ¬ Right addr capacity t := by
  cases event with
  | read buffer size count => exact absurd trivial bad
  | write buffer size count =>
    obtain rfl := Option.some.inj taken
    obtain ⟨accepted, long⟩ := not_or.1 bad
    intro right
    obtain ⟨queue, run, -, -⟩ := right.queue
    cases run with
    | next before last =>
      have length := last.1
      rw [readBytes_length, rbWrite_accepted accepted, ← same] at length
      exact long_spoils accepted long length

/-! ## Results -/

/-- The ring buffer is a bounded queue throughout a run if and only if no length wraps past the test of the room. -/
theorem rb_refines_fifo_iff (addr : Cells) {capacity : UInt32} (big : 4 < capacity.toNat)
    {moments : List (Moment Recorded Event)} {final : Recorded}
    (run : Run (Machine.Step step) (start addr capacity) moments final) :
    Machine.Always (Right addr capacity) moments final ↔ ∀ moment ∈ moments, Fine moment.before moment.event :=
  @Machine.always_iff_of_invariant _ _ _ _ _ _ (Kept addr capacity) (Right addr capacity) (fun _ _ => True) Fine run
    (start_kept big) (fun _ kept => kept.right) (fun kept _ fine taken => kept.step fine taken)
    (fun kept _ bad taken => step_spoils kept.same bad taken) (fun _ _ => trivial)

/-- Twelve bytes go through a buffer of twelve: the read pointer comes to rest at its end. -/
theorem round_the_end :
    ∃ moments final, Run (Machine.Step step) (start (fun _ => 0) 12) moments final ∧
      moments.map Moment.event = [.read (fun _ => 0) 4 1, .write (fun i => i.toUInt8) 2 2, .read (fun _ => 0) 4 2,
        .write (fun i => i.toUInt8) 4 2] ∧
      Machine.Always (Right (fun _ => 0) 12) moments final := by
  obtain ⟨moments, final, run, events, fine, -⟩ := @Machine.run_of_fine _ _ step (start (fun _ => 0) 12) Fine _
    [.read (fun _ => 0) 4 1, .write (fun i => i.toUInt8) 2 2, .read (fun _ => 0) 4 2, .write (fun i => i.toUInt8) 4 2]
    (fun state => state.rb.rp = 12 ∧ state.rb.wp = 0) (by decide)
  exact ⟨moments, final, run, events, (rb_refines_fifo_iff _ (by decide) run).2 fine⟩

/-- A write of 2^32 - 4 bytes is accepted by an empty buffer of sixteen. -/
theorem huge_write_accepted :
    ∃ moments final, Run (Machine.Step step) (start (fun _ => 0) 16) moments final ∧
      moments.map Moment.event = [.write (fun _ => 0) 1 4294967292] ∧
      ((start (fun _ => 0) 16).rb.rbWrite (fun _ => 0) 1 4294967292).1 = 4294967292 ∧
      ¬ Machine.Always (Right (fun _ => 0) 16) moments final := by
  have run : Run (Machine.Step step) (start (fun _ => 0) 16) [⟨_, .write (fun _ => 0) 1 4294967292⟩] _ :=
    .next .nil ⟨rfl, rfl⟩
  refine ⟨_, _, run, rfl, rbWrite_accepted (by decide), fun always => ?_⟩
  exact @step_spoils _ _ (start (fun _ => 0) 16) _ (.write (fun _ => 0) 1 4294967292) rfl (by decide) rfl always.2

end Rb

end BekenSdk.Audio
