import BekenSdk.Audio.Engine
import BekenSdk.Base.Machine
import BekenSdk.Base.Queue

/-! The ring buffer that the program writes and the DMA engine reads. The engine is a queue's
reader as long as every clear finds it at the beginning of the buffer: a clear moves neither
its place nor its pause address.
-/

set_option autoImplicit false

namespace BekenSdk.Audio
open Base

/-- `RB_DMA_RD_ST` with the registers of its channel. The memory and the registers are counted from the
address of the buffer. -/
structure RbDmaRd where
  address : Cells
  capacity : UInt32
  wp : UInt32
  rp : UInt32
  srcReadAddr : UInt32
  srcPauseAddr : UInt32

namespace RbDmaRd

/-- The engine is enabled and disabled once, which sets it to the start of the buffer. -/
def rbInitDmaRead (addr : Cells) (capacity : UInt32) : RbDmaRd where
  address := addr
  capacity := capacity
  wp := 0
  rp := 0
  srcReadAddr := 0
  srcPauseAddr := 0

def rbClearDmaRead (rb : RbDmaRd) : RbDmaRd := { rb with wp := 0, rp := 0 }

/-- The engine goes on: what it fetches. -/
def advance (rb : RbDmaRd) (steps : Nat) : List UInt8 × RbDmaRd :=
  let last := passed rb.capacity rb.srcPauseAddr steps rb.srcReadAddr
  (last.1.map rb.address, { rb with srcReadAddr := last.2 })

/-- How many bytes were written, what the engine fetched meanwhile, and the ring buffer. `moves` are
the steps of the engine, from the moment its place is read to that of the new pause address. -/
def rbWriteDmaRead (rb : RbDmaRd) (buffer : Cells) (size count : UInt32) (moves : List Nat) :
    UInt32 × List UInt8 × RbDmaRd :=
  let writeBytes := size * count
  if writeBytes = 0 then (0, [], rb)
  else
    let rp := rb.srcReadAddr
    match writeCopies rb.capacity rb.wp rp writeBytes with
    | none => (0, [], { rb with rp })
    | some (copies, wp) =>
      let stores := (cellsOf copies).zip (readBytes buffer 0 writeBytes.toNat)
      let copied := copyIn rb.capacity rb.srcPauseAddr stores moves rb.address rb.srcReadAddr
      let wp := wrapped rb.capacity rp wp
      (writeBytes, copied.1,
        { rb with address := copied.2.1, wp, rp, srcReadAddr := copied.2.2, srcPauseAddr := wp })

def rbGetFillSizeDmaRead (rb : RbDmaRd) : UInt32 := fillSize rb.capacity rb.wp rb.srcReadAddr

def rbGetFreeSizeDmaRead (rb : RbDmaRd) : UInt32 := freeSize rb.capacity rb.wp rb.srcReadAddr

/-- The bytes between the engine and the write pointer. -/
def content (rb : RbDmaRd) : List UInt8 :=
  readRing rb.address rb.capacity.toNat rb.srcReadAddr.toNat rb.rbGetFillSizeDmaRead.toNat

/-- The engine stops where the program writes, or there is nothing between them. -/
structure Sound (rb : RbDmaRd) : Prop where
  write : rb.wp.toNat < rb.capacity.toNat
  place : rb.srcReadAddr.toNat < rb.capacity.toNat
  pause : rb.srcPauseAddr.toNat < rb.capacity.toNat
  interval : rb.rbGetFillSizeDmaRead.toNat + 4 ≤ rb.capacity.toNat
  stops : rb.srcPauseAddr = rb.wp ∨ rb.srcReadAddr = rb.wp

variable {rb : RbDmaRd} {buffer addr : Cells} {capacity size count : UInt32} {moves : List Nat} {steps : Nat}

@[simp] theorem content_length : rb.content.length = rb.rbGetFillSizeDmaRead.toNat := readRing_length

theorem Sound.placed (sound : rb.Sound) : Placed rb.capacity rb.wp rb.srcReadAddr := ⟨sound.write, sound.place.le⟩

/-! ## The engine -/

/-- It passes the bytes that wait, unless the pause address is left from before a clear. -/
theorem Sound.passed_waiting (sound : rb.Sound) (ok : rb.srcPauseAddr = rb.wp ∨ steps = 0) :
    (passed rb.capacity rb.srcPauseAddr steps rb.srcReadAddr).1 =
        ringCells rb.capacity.toNat rb.srcReadAddr.toNat (min steps rb.rbGetFillSizeDmaRead.toNat) ∧
      (passed rb.capacity rb.srcPauseAddr steps rb.srcReadAddr).2.toNat < rb.capacity.toNat ∧
      (passed rb.capacity rb.srcPauseAddr steps rb.srcReadAddr).2.toNat ≡
        rb.srcReadAddr.toNat + min steps rb.rbGetFillSizeDmaRead.toNat [MOD rb.capacity.toNat] := by
  rcases ok with same | none_made
  · rw [same]
    exact sound.placed.passed_spec sound.place
  · rw [none_made, Nat.zero_min]
    exact ⟨rfl, sound.place, rfl⟩

theorem Sound.advance_spec (sound : rb.Sound) (ok : rb.srcPauseAddr = rb.wp ∨ steps = 0) :
    (rb.advance steps).2.Sound ∧ (rb.advance steps).1 = rb.content.take steps ∧
      (rb.advance steps).2.content = rb.content.drop steps := by
  obtain ⟨cells, inside, behind⟩ := sound.passed_waiting ok
  obtain ⟨fill, left⟩ := @Placed.moved _ _ _ _ rb.address _ sound.placed inside.le behind
  refine ⟨⟨sound.write, inside, sound.pause, ?_, ?_⟩, ?_, left⟩
  · have interval := sound.interval
    rw [rbGetFillSizeDmaRead] at interval
    change (fillSize rb.capacity rb.wp (passed rb.capacity rb.srcPauseAddr steps rb.srcReadAddr).2).toNat + 4 ≤
      rb.capacity.toNat
    rw [fill]
    omega
  · rcases ok with same | none_made
    · exact .inl same
    · subst none_made
      exact sound.stops
  · rw [advance, content, readRing_take, readRing, cells]

/-- A pause address that is left from before a clear lets the engine run into old bytes. -/
theorem Sound.stale_empty (sound : rb.Sound) (stale : rb.srcPauseAddr ≠ rb.wp) : rb.content = [] := by
  have met := sound.stops.resolve_left stale
  rw [← List.length_eq_zero_iff, content_length]
  apply sound.placed.fill_unique (Nat.zero_lt_of_lt sound.write)
  rw [met]
  rfl

theorem Sound.runs (sound : rb.Sound) (stale : rb.srcPauseAddr ≠ rb.wp) : rb.srcReadAddr ≠ rb.srcPauseAddr :=
  fun paused => stale (paused ▸ sound.stops.resolve_left stale)

/-! ## Writes -/

theorem rbWriteDmaRead_refused (refused : Refused rb.capacity rb.wp rb.srcReadAddr (size * count)) :
    ∃ rp, rb.rbWriteDmaRead buffer size count moves = (0, [], { rb with rp }) := by
  unfold rbWriteDmaRead
  simp only
  split
  · exact ⟨rb.rp, rfl⟩
  next positive => exact ⟨rb.srcReadAddr, by rw [writeCopies_eq_none.2 (refused.resolve_left positive)]⟩

theorem rbWriteDmaRead_accepted (accepted : ¬ Refused rb.capacity rb.wp rb.srcReadAddr (size * count)) :
    (rb.rbWriteDmaRead buffer size count moves).1 = size * count ∧
      (rb.rbWriteDmaRead buffer size count moves).2.1.length =
        (passed rb.capacity rb.srcPauseAddr moves.sum rb.srcReadAddr).1.length := by
  obtain ⟨positive, room⟩ := not_or.1 accepted
  unfold rbWriteDmaRead
  simp only [if_neg positive]
  split
  next refused => exact absurd (writeCopies_eq_none.1 refused) room
  next => exact ⟨rfl, copyIn_length⟩

/-- The bytes come behind those that wait, of which the engine fetches some meanwhile. -/
theorem Sound.rbWriteDmaRead_spec (sound : rb.Sound) (positive : size * count ≠ 0)
    (fits : (size * count).toNat + 4 ≤ (roomSize rb.capacity rb.wp rb.srcReadAddr).toNat)
    (ok : rb.srcPauseAddr = rb.wp ∨ moves.sum = 0) :
    (rb.rbWriteDmaRead buffer size count moves).2.2.Sound ∧
      (rb.rbWriteDmaRead buffer size count moves).2.2.capacity = rb.capacity ∧
      (rb.rbWriteDmaRead buffer size count moves).2.1 = rb.content.take moves.sum ∧
      (rb.rbWriteDmaRead buffer size count moves).2.2.content =
        rb.content.drop moves.sum ++ readBytes buffer 0 (size * count).toNat := by
  have place := sound.placed
  obtain ⟨copies, next, written, cells, inside, free, behind⟩ := place.write_spec fits
  have room := place.room_eq
  obtain ⟨before, same⟩ := @wrapped_spec rb.capacity next rb.srcReadAddr (Nat.zero_lt_of_lt sound.write) inside free
  obtain ⟨fetched, last_lt, last_same⟩ := @Sound.passed_waiting rb moves.sum sound ok
  obtain ⟨fill, left⟩ := @Placed.moved _ _ _ _ rb.address _ place last_lt.le last_same
  have length := readBytes_length buffer 0 (size * count).toNat
  rw [rbGetFillSizeDmaRead] at fetched last_same
  have stored : storeEach rb.address ((cellsOf copies).zip (readBytes buffer 0 (size * count).toNat)) =
      storeRing rb.address rb.capacity.toNat rb.wp.toNat (readBytes buffer 0 (size * count).toNat) := by
    rw [cells, ← storeEach_ringCells place.write.le (by omega), length]
  have apart : ∀ store ∈ (cellsOf copies).zip (readBytes buffer 0 (size * count).toNat),
      store.1 ∉ (passed rb.capacity rb.srcPauseAddr moves.sum rb.srcReadAddr).1 := by
    intro store member
    have there := (List.of_mem_zip member).1
    rw [cells] at there
    rw [fetched, ← ringCells_take]
    intro here
    exact ringCells_apart place.behind (by omega) (List.mem_of_mem_take here) there
  have result : rb.rbWriteDmaRead buffer size count moves = (size * count, rb.content.take moves.sum, { rb with
      address := storeRing rb.address rb.capacity.toNat rb.wp.toNat (readBytes buffer 0 (size * count).toNat),
      wp := wrapped rb.capacity rb.srcReadAddr next, rp := rb.srcReadAddr,
      srcReadAddr := (passed rb.capacity rb.srcPauseAddr moves.sum rb.srcReadAddr).2,
      srcPauseAddr := wrapped rb.capacity rb.srcReadAddr next }) := by
    have bytes : (passed rb.capacity rb.srcPauseAddr moves.sum rb.srcReadAddr).1.map rb.address =
        rb.content.take moves.sum := by
      rw [fetched, content, readRing_take, readRing]
      rfl
    simp only [rbWriteDmaRead, if_neg positive, written, copyIn_memory, copyIn_fetched apart, stored, bytes]
  generalize (passed rb.capacity rb.srcPauseAddr moves.sum rb.srcReadAddr).2 = last at *
  generalize wrapped rb.capacity rb.srcReadAddr next = wp at *
  have after : Placed rb.capacity wp last := ⟨before, last_lt.le⟩
  -- what is left of the old bytes ends where the new ones were stored
  have old_end : last.toNat + ((fillSize rb.capacity rb.wp rb.srcReadAddr).toNat - moves.sum) ≡ rb.wp.toNat
      [MOD rb.capacity.toNat] := by
    rw [← fill]
    exact (Placed.mk sound.write last_lt.le).behind
  have filled : (fillSize rb.capacity wp last).toNat =
      (fillSize rb.capacity rb.wp rb.srcReadAddr).toNat - moves.sum + (size * count).toNat := by
    apply after.fill_unique (by omega)
    rw [← Nat.add_assoc]
    exact (old_end.add_right _).trans (behind.symm.trans same.symm)
  rw [result]
  refine ⟨⟨before, last_lt, before, ?_, .inl rfl⟩, rfl, rfl, ?_⟩
  · change (fillSize _ _ _).toNat + 4 ≤ rb.capacity.toNat
    rw [filled]
    omega
  · change readRing _ _ _ (fillSize _ _ _).toNat = _
    have ring := @readRing_storeRing rb.address rb.capacity.toNat rb.wp.toNat
      (readBytes buffer 0 (size * count).toNat) last.toNat _ place.write.le old_end (by omega)
    rw [length, ← fill, left] at ring
    rw [filled, ← fill]
    exact ring

/-! ## Runs -/

/-- The ring buffer with the calls since the last clear; what the engine fetches is a `get`. -/
structure Recorded where
  rb : RbDmaRd
  calls : List (Queue.Call UInt8)

inductive Event where
  | write (buffer : Cells) (size count : UInt32) (moves : List Nat)
  | clear
  | advance (steps : Nat)

/-- The engine has gone on before a write is over; one that is refused is over at once. -/
def step : Event → Recorded → Option Recorded
  | .write buffer size count moves, s =>
    let result := s.rb.rbWriteDmaRead buffer size count moves
    let fetched := Queue.Call.get (if result.1 = 0 then 0 else moves.sum) result.2.1
    some ⟨result.2.2, .put (size.toNat * count.toNat) (readBytes buffer 0 result.1.toNat) :: fetched :: s.calls⟩
  | .clear, s => some ⟨s.rb.rbClearDmaRead, []⟩
  | .advance steps, s => some ⟨(s.rb.advance steps).2, .get steps (s.rb.advance steps).1 :: s.calls⟩

def start (addr : Cells) (capacity : UInt32) : Recorded := ⟨rbInitDmaRead addr capacity, []⟩

/-- The engine fetched the bytes that were accepted since the last clear, in order, and those that it did not
fetch yet are what is in the buffer. -/
structure Right (capacity : UInt32) (s : Recorded) : Prop where
  queue : ∃ queue, Run (Queue.Step (AllOrNothing capacity.toNat)) [] s.calls queue ∧
    queue.length = s.rb.rbGetFillSizeDmaRead.toNat ∧ Queue.taken s.calls = Queue.given s.calls ++ queue
  cleared : s.calls = [] → s.rb.rbGetFillSizeDmaRead = 0

/-- A clear finds the engine at the beginning. The engine stands still while its pause address is from before
the clear, and an accepted length does not wrap. -/
def Fine (s : Recorded) : Event → Prop
  | .write _ size count moves =>
    Refused s.rb.capacity s.rb.wp s.rb.srcReadAddr (size * count) ∨
      size.toNat * count.toNat + 4 < 4294967296 ∧ (s.rb.srcPauseAddr = s.rb.wp ∨ moves.sum = 0)
  | .clear => s.rb.srcReadAddr = 0
  | .advance steps => s.rb.srcPauseAddr = s.rb.wp ∨ steps = 0

instance (s : Recorded) (event : Event) : Decidable (Fine s event) := by
  cases event <;> unfold Fine <;> infer_instance

structure Kept (capacity : UInt32) (s : Recorded) : Prop where
  sound : s.rb.Sound
  same : s.rb.capacity = capacity
  run : Run (Queue.Step (AllOrNothing capacity.toNat)) [] s.calls s.rb.content

variable {s t : Recorded} {event : Event}

theorem start_kept (big : 4 < capacity.toNat) : Kept capacity (start addr capacity) := by
  have placed : Placed capacity 0 0 := ⟨Nat.zero_lt_of_lt big, Nat.zero_le _⟩
  have empty : (rbInitDmaRead addr capacity).rbGetFillSizeDmaRead.toNat = 0 := placed.fill_unique placed.write rfl
  have nothing : (rbInitDmaRead addr capacity).content = [] := List.length_eq_zero_iff.1 (content_length.trans empty)
  refine ⟨⟨placed.write, placed.write, placed.write, ?_, .inl rfl⟩, rfl, ?_⟩
  · change (rbInitDmaRead addr capacity).rbGetFillSizeDmaRead.toNat + 4 ≤ capacity.toNat
    omega
  · change Run _ [] [] (rbInitDmaRead addr capacity).content
    rw [nothing]
    exact .nil

theorem Kept.right (kept : Kept capacity s) : Right capacity s := by
  refine ⟨⟨_, kept.run, content_length, Queue.conserved kept.run⟩, fun none_made => ?_⟩
  have run := kept.run
  rw [none_made] at run
  have nothing := content_length.symm.trans (congrArg List.length run.final_of_nil)
  exact UInt32.toNat_inj.1 nothing

theorem Kept.step (kept : Kept capacity s) (fine : Fine s event) (taken : step event s = some t) : Kept capacity t := by
  have sound := kept.sound
  have same := kept.same
  cases event with
  | clear =>
    obtain rfl := Option.some.inj taken
    have placed : Placed s.rb.capacity 0 0 := ⟨Nat.zero_lt_of_lt sound.write, Nat.zero_le _⟩
    have empty : s.rb.rbClearDmaRead.rbGetFillSizeDmaRead.toNat = 0 := by
      change (fillSize s.rb.capacity 0 s.rb.srcReadAddr).toNat = 0
      rw [show s.rb.srcReadAddr = 0 from fine]
      exact placed.fill_unique placed.write rfl
    have nothing : s.rb.rbClearDmaRead.content = [] := List.length_eq_zero_iff.1 (content_length.trans empty)
    refine ⟨⟨placed.write, sound.place, sound.pause, ?_, .inr fine⟩, same, ?_⟩
    · rw [empty]
      exact (Nat.le_add_left 4 _).trans sound.interval
    · rw [nothing]
      exact .nil
  | advance steps =>
    obtain rfl := Option.some.inj taken
    obtain ⟨after, fetched, left⟩ := sound.advance_spec fine
    exact ⟨after, same, .next kept.run ⟨fetched, left⟩⟩
  | write buffer size count moves =>
    obtain rfl := Option.some.inj taken
    by_cases refused : Refused s.rb.capacity s.rb.wp s.rb.srcReadAddr (size * count)
    · have none_accepted := sound.placed.refused refused
      rw [← rbGetFillSizeDmaRead, same, ← content_length] at none_accepted
      obtain ⟨rp, result⟩ := @rbWriteDmaRead_refused s.rb buffer size count moves refused
      simp only [result]
      exact ⟨⟨sound.write, sound.place, sound.pause, sound.interval, sound.stops⟩, same,
        .next (.next kept.run ⟨rfl, rfl⟩) ⟨none_accepted, (List.append_nil _).symm⟩⟩
    · obtain ⟨short, ok⟩ := fine.resolve_left refused
      obtain ⟨whole, fits⟩ := accepted_whole refused short
      obtain ⟨after, unchanged, fetched, content⟩ :=
        @Sound.rbWriteDmaRead_spec s.rb buffer size count moves sound (not_or.1 refused).1 fits ok
      obtain ⟨all, -⟩ := @rbWriteDmaRead_accepted s.rb buffer size count moves refused
      have room := sound.placed.room_eq
      refine ⟨after, unchanged.trans same, .next (.next kept.run ⟨?_, rfl⟩) ⟨?_, ?_⟩⟩
      · rw [fetched, if_neg]
        rw [all]
        exact (not_or.1 refused).1
      · rw [readBytes_length, all, if_neg (not_or.1 refused).1, List.length_drop, content_length, AllOrNothing, ← whole,
          if_pos]
        rw [← same]
        change _ ≤ _ - ((fillSize s.rb.capacity s.rb.wp s.rb.srcReadAddr).toNat - _) - 4
        omega
      · rw [all, if_neg (not_or.1 refused).1]
        exact content

/-- What the engine fetches while its pause address is from before a clear was not written since. -/
theorem Kept.stale_fetch (kept : Kept capacity s) (stale : s.rb.srcPauseAddr ≠ s.rb.wp) {wanted : Nat}
    {bytes : List UInt8} {queue : List UInt8} (some_fetched : bytes ≠ []) :
    ¬ Run (Queue.Step (AllOrNothing capacity.toNat)) [] (.get wanted bytes :: s.calls) queue := by
  intro run
  cases run with
  | next before last =>
    obtain rfl := Queue.run_unique before kept.run
    rw [kept.sound.stale_empty stale] at last
    exact some_fetched (last.1.trans List.take_nil)

theorem step_spoils (kept : Kept capacity s) (bad : ¬ Fine s event) (taken : step event s = some t) :
    ¬ Right capacity t := by
  have sound := kept.sound
  cases event with
  | clear =>
    obtain rfl := Option.some.inj taken
    intro right
    apply bad
    have placed : Placed s.rb.capacity 0 s.rb.srcReadAddr := ⟨Nat.zero_lt_of_lt sound.write, sound.place.le⟩
    have empty := congrArg UInt32.toNat (right.cleared rfl)
    change (fillSize s.rb.capacity 0 s.rb.srcReadAddr).toNat = 0 at empty
    have behind := placed.behind
    rw [empty] at behind
    exact UInt32.toNat_inj.1 (behind.eq_of_lt_of_lt sound.place placed.write)
  | advance steps =>
    obtain rfl := Option.some.inj taken
    obtain ⟨stale, moves⟩ := not_or.1 bad
    intro right
    obtain ⟨queue, run, -, -⟩ := right.queue
    refine kept.stale_fetch stale ?_ run
    exact fun nothing => passed_ne_nil (sound.runs stale) moves (List.map_eq_nil_iff.1 nothing)
  | write buffer size count moves =>
    obtain rfl := Option.some.inj taken
    obtain ⟨accepted, wrong⟩ := not_or.1 bad
    obtain ⟨all, fetched⟩ := @rbWriteDmaRead_accepted s.rb buffer size count moves accepted
    intro right
    obtain ⟨queue, run, -, -⟩ := right.queue
    cases run with
    | next before last =>
      have length := last.1
      rw [readBytes_length, all, ← kept.same] at length
      by_cases long : ¬ size.toNat * count.toNat + 4 < 4294967296
      · exact long_spoils accepted long length
      · obtain ⟨stale, some_moves⟩ := not_or.1 fun ok => wrong ⟨Classical.not_not.1 long, ok⟩
        refine kept.stale_fetch stale (fun nothing => ?_) before
        rw [nothing] at fetched
        exact passed_ne_nil (sound.runs stale) some_moves (List.length_eq_zero_iff.1 fetched.symm)

/-- The engine is a reader of a bounded queue throughout a run if and only if every step is fine. -/
theorem always_right_iff (big : 4 < capacity.toNat) {moments : List (Moment Recorded Event)} {final : Recorded}
    (run : Run (Machine.Step step) (start addr capacity) moments final) :
    Machine.Always (Right capacity) moments final ↔ ∀ moment ∈ moments, Fine moment.before moment.event :=
  @Machine.always_iff_of_invariant _ _ _ _ _ _ (Kept capacity) (Right capacity) (fun _ _ => True) Fine run
    (start_kept big) (fun _ kept => kept.right) (fun kept _ fine taken => kept.step fine taken)
    (fun kept _ bad taken => step_spoils kept bad taken) (fun _ _ => trivial)

end RbDmaRd

end BekenSdk.Audio
