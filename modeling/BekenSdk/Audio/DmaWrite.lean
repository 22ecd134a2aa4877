import BekenSdk.Audio.DmaRead

/-! The ring buffer that the DMA engine writes and the program reads. The pause address is the
safety interval before the read pointer, so that no unread byte is overwritten. The engine is a
queue's writer as long as every clear finds it at the beginning of the buffer.
-/

set_option autoImplicit false

namespace BekenSdk.Audio
open Base

/-- `RB_DMA_WR_ST` with the registers of its channel. The memory and the registers are counted from the
address of the buffer. -/
structure RbDmaWr where
  address : Cells
  capacity : UInt32
  wp : UInt32
  rp : UInt32
  dstWriteAddr : UInt32
  dstPauseAddr : UInt32

namespace RbDmaWr

/-- The channel is configured to start at the beginning of the buffer. -/
def rbInitDmaWrite (addr : Cells) (capacity : UInt32) : RbDmaWr where
  address := addr
  capacity := capacity
  wp := 0
  rp := 0
  dstWriteAddr := 0
  dstPauseAddr := capacity - rwpSafeInterval

def rbClearDmaWrite (rb : RbDmaWr) : RbDmaWr :=
  { rb with wp := 0, rp := 0, dstPauseAddr := rb.capacity - rwpSafeInterval }

/-- The engine goes on: what it stores of the bytes that come in. -/
def arrive (rb : RbDmaWr) (bytes : List UInt8) : List UInt8 × RbDmaWr :=
  let stored := deposit rb.capacity rb.dstPauseAddr bytes rb.address rb.dstWriteAddr
  (stored.1, { rb with address := stored.2.1, dstWriteAddr := stored.2.2 })

def pauseBefore (capacity rp : UInt32) : UInt32 :=
  if rp ≥ rwpSafeInterval then rp - rwpSafeInterval else capacity + rp - rwpSafeInterval

/-- How many bytes were read, the buffer of the caller, what the engine stored meanwhile, and the ring buffer.
`arrivals` come from the moment the place of the engine is read to that of the new pause address. -/
def rbReadDmaWrite (rb : RbDmaWr) (buffer : Cells) (size count : UInt32) (arrivals : List (List UInt8)) :
    UInt32 × Cells × List UInt8 × RbDmaWr :=
  let required := size * count
  if required = 0 then (0, buffer, [], rb)
  else
    let wp := rb.dstWriteAddr
    let (read, copies, rp) := readCopies rb.capacity wp rb.rp required
    let copied := copyOut rb.capacity rb.dstPauseAddr (cellsOf copies) arrivals rb.address rb.dstWriteAddr
    (read, storeBytes buffer 0 copied.1, copied.2.1, { rb with
      address := copied.2.2.1
      wp
      rp
      dstWriteAddr := copied.2.2.2
      dstPauseAddr := pauseBefore rb.capacity rp })

def rbGetFillSizeDmaWrite (rb : RbDmaWr) : UInt32 := fillSize rb.capacity rb.dstWriteAddr rb.rp

def rbGetFreeSizeDmaWrite (rb : RbDmaWr) : UInt32 := freeSize rb.capacity rb.dstWriteAddr rb.rp

/-- The bytes between the read pointer and the engine. -/
def content (rb : RbDmaWr) : List UInt8 :=
  readRing rb.address rb.capacity.toNat rb.rp.toNat rb.rbGetFillSizeDmaWrite.toNat

structure Sound (rb : RbDmaWr) : Prop where
  place : rb.dstWriteAddr.toNat < rb.capacity.toNat
  read : rb.rp.toNat ≤ rb.capacity.toNat
  interval : rb.rbGetFillSizeDmaWrite.toNat + 4 ≤ rb.capacity.toNat
  pause : rb.dstPauseAddr = pauseBefore rb.capacity rb.rp

variable {rb : RbDmaWr} {buffer addr : Cells} {capacity size count rp : UInt32} {bytes : List UInt8}
  {arrivals : List (List UInt8)}

@[simp] theorem content_length : rb.content.length = rb.rbGetFillSizeDmaWrite.toNat := readRing_length

theorem Sound.placed (sound : rb.Sound) : Placed rb.capacity rb.dstWriteAddr rb.rp := ⟨sound.place, sound.read⟩

/-! ## The engine -/

theorem pauseBefore_spec (big : 4 ≤ capacity.toNat) (inside : rp.toNat ≤ capacity.toNat) :
    (pauseBefore capacity rp).toNat < capacity.toNat ∧
      (pauseBefore capacity rp).toNat + 4 ≡ rp.toNat [MOD capacity.toNat] := by
  have small := capacity.toNat_lt
  have reached : rp ≥ rwpSafeInterval ↔ 4 ≤ rp.toNat := ge_iff
  unfold pauseBefore
  by_cases far : 4 ≤ rp.toNat
  · have place : (rp - rwpSafeInterval).toNat = rp.toNat - 4 := sub_toNat far
    rw [if_pos (reached.2 far), place]
    refine ⟨by omega, ?_⟩
    rw [Nat.sub_add_cancel far]
  · have place : (capacity + rp - rwpSafeInterval).toNat = capacity.toNat + rp.toNat - 4 := by
      simp only [rwpSafeInterval, UInt32.toNat_sub, UInt32.toNat_add, show UInt32.toNat 4 = 4 from rfl]
      omega
    rw [if_neg (mt reached.1 far), place]
    refine ⟨by omega, ?_⟩
    rw [Nat.sub_add_cancel (by omega)]
    exact Nat.add_mod_left _ _

/-- The engine may store as many bytes as are free, the safety interval apart. -/
theorem Sound.room (sound : rb.Sound) : Placed rb.capacity rb.dstPauseAddr rb.dstWriteAddr ∧
    (fillSize rb.capacity rb.dstPauseAddr rb.dstWriteAddr).toNat =
      rb.capacity.toNat - 4 - rb.rbGetFillSizeDmaWrite.toNat := by
  have interval := sound.interval
  obtain ⟨inside, before⟩ := pauseBefore_spec (by omega) sound.read
  rw [← sound.pause] at inside before
  have placed : Placed rb.capacity rb.dstPauseAddr rb.dstWriteAddr := ⟨inside, sound.place.le⟩
  refine ⟨placed, placed.fill_unique (by omega) ?_⟩
  have waiting := sound.placed.behind.add_right (rb.capacity.toNat - 4 - rb.rbGetFillSizeDmaWrite.toNat)
  have total : rb.rp.toNat + rb.rbGetFillSizeDmaWrite.toNat +
      (rb.capacity.toNat - 4 - rb.rbGetFillSizeDmaWrite.toNat) = rb.rp.toNat + (rb.capacity.toNat - 4) := by omega
  have round : rb.dstPauseAddr.toNat + 4 + (rb.capacity.toNat - 4) = rb.dstPauseAddr.toNat + rb.capacity.toNat := by
    omega
  have around_pause := before.add_right (rb.capacity.toNat - 4)
  rw [round] at around_pause
  rw [← rbGetFillSizeDmaWrite, total] at waiting
  exact waiting.symm.trans (around_pause.symm.trans (Nat.add_mod_right _ _))

theorem Sound.passed_free (sound : rb.Sound) :
    (passed rb.capacity rb.dstPauseAddr bytes.length rb.dstWriteAddr).1 = ringCells rb.capacity.toNat
        rb.dstWriteAddr.toNat (min bytes.length (rb.capacity.toNat - 4 - rb.rbGetFillSizeDmaWrite.toNat)) ∧
      (passed rb.capacity rb.dstPauseAddr bytes.length rb.dstWriteAddr).2.toNat < rb.capacity.toNat ∧
      (passed rb.capacity rb.dstPauseAddr bytes.length rb.dstWriteAddr).2.toNat ≡ rb.dstWriteAddr.toNat +
        min bytes.length (rb.capacity.toNat - 4 - rb.rbGetFillSizeDmaWrite.toNat) [MOD rb.capacity.toNat] := by
  obtain ⟨placed, room⟩ := sound.room
  rw [← room]
  exact placed.passed_spec sound.place

/-- What the engine stores comes behind the bytes that wait. -/
theorem Sound.arrive_spec (sound : rb.Sound) :
    (rb.arrive bytes).2.Sound ∧
      (rb.arrive bytes).1.length ≤ bytes.length ∧
      rb.rbGetFillSizeDmaWrite.toNat + (rb.arrive bytes).1.length + 4 ≤ rb.capacity.toNat ∧
      (rb.arrive bytes).2.rbGetFillSizeDmaWrite.toNat =
        rb.rbGetFillSizeDmaWrite.toNat + (rb.arrive bytes).1.length ∧
      (rb.arrive bytes).2.content = rb.content ++ (rb.arrive bytes).1 := by
  have interval := sound.interval
  obtain ⟨cells, inside, behind⟩ := @Sound.passed_free rb bytes sound
  generalize stored : min bytes.length (rb.capacity.toNat - 4 - rb.rbGetFillSizeDmaWrite.toNat) = k at cells behind
  have length : (bytes.take k).length = k := by
    rw [List.length_take]
    omega
  have memory : storeEach rb.address ((ringCells rb.capacity.toNat rb.dstWriteAddr.toNat k).zip bytes) =
      storeRing rb.address rb.capacity.toNat rb.dstWriteAddr.toNat (bytes.take k) := by
    rw [← storeEach_ringCells sound.place.le (by omega), length]
    conv_lhs => rw [← List.take_append_drop k bytes]
    rw [zip_append_of_le]
    rw [ringCells_length, length]
  have result : rb.arrive bytes = (bytes.take k, { rb with
      address := storeRing rb.address rb.capacity.toNat rb.dstWriteAddr.toNat (bytes.take k)
      dstWriteAddr := (passed rb.capacity rb.dstPauseAddr bytes.length rb.dstWriteAddr).2 }) := by
    simp only [arrive, deposit, cells, ringCells_length, memory]
  generalize (passed rb.capacity rb.dstPauseAddr bytes.length rb.dstWriteAddr).2 = last at *
  have after : Placed rb.capacity last rb.rp := ⟨inside, sound.read⟩
  have filled : (fillSize rb.capacity last rb.rp).toNat = rb.rbGetFillSizeDmaWrite.toNat + k := by
    apply after.fill_unique (by omega)
    rw [← Nat.add_assoc]
    exact (sound.placed.behind.add_right k).trans behind.symm
  rw [result]
  refine ⟨⟨inside, sound.read, ?_, sound.pause⟩, ?_, ?_, ?_, ?_⟩
  · change (fillSize rb.capacity last rb.rp).toNat + 4 ≤ rb.capacity.toNat
    omega
  · rw [length]
    omega
  · rw [length]
    omega
  · rw [length]
    exact filled
  · change readRing _ _ _ (fillSize rb.capacity last rb.rp).toNat = _
    have ring := @readRing_storeRing rb.address rb.capacity.toNat rb.dstWriteAddr.toNat (bytes.take k) rb.rp.toNat
      rb.rbGetFillSizeDmaWrite.toNat sound.place.le sound.placed.behind (by omega)
    rw [length] at ring
    rw [filled]
    exact ring

/-! ## Reads -/

theorem rbReadDmaWrite_nothing (nothing : size * count = 0) :
    rb.rbReadDmaWrite buffer size count arrivals = (0, buffer, [], rb) := by
  simp only [rbReadDmaWrite, if_pos nothing]

/-- A read gets the bytes that waited when it looked; what the engine stores meanwhile is left. -/
theorem Sound.rbReadDmaWrite_spec (sound : rb.Sound) (positive : size * count ≠ 0) :
    (rb.rbReadDmaWrite buffer size count arrivals).2.2.2.Sound ∧
      (rb.rbReadDmaWrite buffer size count arrivals).2.2.2.capacity = rb.capacity ∧
      readBytes (rb.rbReadDmaWrite buffer size count arrivals).2.1 0
        (rb.rbReadDmaWrite buffer size count arrivals).1.toNat = rb.content.take (size * count).toNat ∧
      (rb.rbReadDmaWrite buffer size count arrivals).2.2.1 = (rb.arrive arrivals.flatten).1 ∧
      (rb.rbReadDmaWrite buffer size count arrivals).2.2.2.content =
        rb.content.drop (size * count).toNat ++ (rb.arrive arrivals.flatten).1 := by
  have interval := sound.interval
  obtain ⟨got, cells, inside, behind⟩ :=
    @Placed.read_spec rb.capacity rb.dstWriteAddr rb.rp (size * count) sound.placed
  obtain ⟨kept, short, spared, filled, arrived⟩ := @Sound.arrive_spec rb arrivals.flatten sound
  obtain ⟨free, -, -⟩ := @Sound.passed_free rb arrivals.flatten sound
  have apart : ∀ cell ∈ cellsOf (readCopies rb.capacity rb.dstWriteAddr rb.rp (size * count)).2.1,
      cell ∉ (passed rb.capacity rb.dstPauseAddr arrivals.flatten.length rb.dstWriteAddr).1 := by
    intro cell member
    rw [cells, ← ringCells_take] at member
    rw [free]
    exact ringCells_apart sound.placed.behind (by change rb.rbGetFillSizeDmaWrite.toNat + _ ≤ _; omega)
      (List.mem_of_mem_take member)
  have bytes : (cellsOf (readCopies rb.capacity rb.dstWriteAddr rb.rp (size * count)).2.1).map rb.address =
      rb.content.take (size * count).toNat := by
    rw [cells, content, readRing_take, readRing]
    rfl
  have result : rb.rbReadDmaWrite buffer size count arrivals =
      ((readCopies rb.capacity rb.dstWriteAddr rb.rp (size * count)).1,
        storeBytes buffer 0 (rb.content.take (size * count).toNat), (rb.arrive arrivals.flatten).1,
        { (rb.arrive arrivals.flatten).2 with
          wp := rb.dstWriteAddr
          rp := (readCopies rb.capacity rb.dstWriteAddr rb.rp (size * count)).2.2
          dstPauseAddr := pauseBefore rb.capacity
            (readCopies rb.capacity rb.dstWriteAddr rb.rp (size * count)).2.2 }) := by
    simp only [rbReadDmaWrite, if_neg positive, copyOut_memory, copyOut_read apart, bytes, arrive]
  generalize (readCopies rb.capacity rb.dstWriteAddr rb.rp (size * count)).2.2 = rp at *
  -- the read pointer moves on over bytes that waited before the engine stored more
  rw [← rbGetFillSizeDmaWrite] at got behind
  have moved : rp.toNat ≡ rb.rp.toNat + min (min (size * count).toNat rb.rbGetFillSizeDmaWrite.toNat)
      (rb.arrive arrivals.flatten).2.rbGetFillSizeDmaWrite.toNat [MOD rb.capacity.toNat] := by
    rw [filled, Nat.min_eq_left (by omega)]
    exact behind
  obtain ⟨fill, left⟩ := @Placed.moved _ _ _ _ (rb.arrive arrivals.flatten).2.address _ kept.placed inside moved
  rw [result]
  refine ⟨⟨kept.place, inside, ?_, rfl⟩, rfl, ?_, rfl, ?_⟩
  · change (fillSize rb.capacity (rb.arrive arrivals.flatten).2.dstWriteAddr rp).toNat + 4 ≤ rb.capacity.toNat
    have after := kept.interval
    change (fillSize rb.capacity (rb.arrive arrivals.flatten).2.dstWriteAddr rb.rp).toNat + 4 ≤ rb.capacity.toNat at after
    change (fillSize rb.capacity (rb.arrive arrivals.flatten).2.dstWriteAddr rp).toNat =
      (fillSize rb.capacity (rb.arrive arrivals.flatten).2.dstWriteAddr rb.rp).toNat - _ at fill
    omega
  · apply (holds_storeBytes _ _ _).read_of_length
    rw [List.length_take, content_length, got]
  · refine left.trans ?_
    change (rb.arrive arrivals.flatten).2.content.drop _ = _
    rw [arrived, List.drop_append_of_le_length]
    · congr 1
      rcases Nat.le_total (size * count).toNat rb.rbGetFillSizeDmaWrite.toNat with some_left | all
      · rw [Nat.min_eq_left some_left]
      · rw [Nat.min_eq_right all, List.drop_of_length_le content_length.le,
          List.drop_of_length_le (content_length.trans_le all)]
    · rw [content_length]
      exact Nat.min_le_right _ _

/-! ## Runs -/

/-- The ring buffer with the calls since the last clear; what the engine stores is a `put`. -/
structure Recorded where
  rb : RbDmaWr
  calls : List (Queue.Call UInt8)

inductive Event where
  | read (buffer : Cells) (size count : UInt32) (arrivals : List (List UInt8))
  | clear
  | arrive (bytes : List UInt8)

def step : Event → Recorded → Option Recorded
  | .read buffer size count arrivals, s =>
    let result := s.rb.rbReadDmaWrite buffer size count arrivals
    some ⟨result.2.2.2, .put arrivals.flatten.length result.2.2.1 ::
      .get (size * count).toNat (readBytes result.2.1 0 result.1.toNat) :: s.calls⟩
  | .clear, s => some ⟨s.rb.rbClearDmaWrite, []⟩
  | .arrive bytes, s => some ⟨(s.rb.arrive bytes).2, .put bytes.length (s.rb.arrive bytes).1 :: s.calls⟩

def start (addr : Cells) (capacity : UInt32) : Recorded := ⟨rbInitDmaWrite addr capacity, []⟩

/-- What the engine stores leaves the safety interval and the unread bytes. -/
def Spared (capacity used offered taken : Nat) : Prop := taken ≤ offered ∧ used + taken + 4 ≤ capacity

/-- The reads got the bytes that the engine stored since the last clear, in order, and those that were not read
yet are what is in the buffer. -/
structure Right (capacity : UInt32) (s : Recorded) : Prop where
  queue : ∃ queue, Run (Queue.Step (Spared capacity.toNat)) [] s.calls queue ∧
    queue.length = s.rb.rbGetFillSizeDmaWrite.toNat ∧ queue = s.rb.content ∧
    Queue.taken s.calls = Queue.given s.calls ++ queue
  cleared : s.calls = [] → s.rb.rbGetFillSizeDmaWrite = 0

/-- A clear finds the engine at the beginning. -/
def Fine (s : Recorded) : Event → Prop
  | .clear => s.rb.dstWriteAddr = 0
  | .read _ _ _ _ | .arrive _ => True

instance (s : Recorded) (event : Event) : Decidable (Fine s event) := by
  cases event <;> unfold Fine <;> infer_instance

structure Kept (capacity : UInt32) (s : Recorded) : Prop where
  sound : s.rb.Sound
  same : s.rb.capacity = capacity
  run : Run (Queue.Step (Spared capacity.toNat)) [] s.calls s.rb.content

variable {s t : Recorded} {event : Event}

/-- With both at the beginning nothing waits. -/
theorem beginning (big : 4 < rb.capacity.toNat) (place : rb.dstWriteAddr = 0) (read : rb.rp = 0)
    (pause : rb.dstPauseAddr = rb.capacity - rwpSafeInterval) : rb.Sound ∧ rb.content = [] := by
  have placed : Placed rb.capacity 0 0 := ⟨Nat.zero_lt_of_lt big, Nat.zero_le _⟩
  have empty : rb.rbGetFillSizeDmaWrite.toNat = 0 := by
    rw [rbGetFillSizeDmaWrite, place, read]
    exact placed.fill_unique placed.write rfl
  refine ⟨⟨?_, ?_, by omega, ?_⟩, List.length_eq_zero_iff.1 (content_length.trans empty)⟩
  · rw [place]
    exact placed.write
  · rw [read]
    exact Nat.zero_le _
  · rw [pause, read, pauseBefore, if_neg (by decide), UInt32.add_zero]

theorem start_kept (big : 4 < capacity.toNat) : Kept capacity (start addr capacity) := by
  obtain ⟨sound, nothing⟩ := @beginning (rbInitDmaWrite addr capacity) big rfl rfl rfl
  refine ⟨sound, rfl, ?_⟩
  change Run _ [] [] (rbInitDmaWrite addr capacity).content
  rw [nothing]
  exact .nil

theorem Kept.right (kept : Kept capacity s) : Right capacity s := by
  refine ⟨⟨_, kept.run, content_length, rfl, Queue.conserved kept.run⟩, fun none_made => ?_⟩
  have run := kept.run
  rw [none_made] at run
  have nothing := content_length.symm.trans (congrArg List.length run.final_of_nil)
  exact UInt32.toNat_inj.1 nothing

theorem Kept.step (big : 4 < capacity.toNat) (kept : Kept capacity s) (fine : Fine s event)
    (taken : step event s = some t) : Kept capacity t := by
  have sound := kept.sound
  have same := kept.same
  cases event with
  | clear =>
    obtain rfl := Option.some.inj taken
    obtain ⟨after, nothing⟩ := @beginning s.rb.rbClearDmaWrite (same ▸ big) fine rfl rfl
    refine ⟨after, same, ?_⟩
    rw [nothing]
    exact .nil
  | arrive bytes =>
    obtain rfl := Option.some.inj taken
    obtain ⟨after, short, spared, -, content⟩ := @Sound.arrive_spec s.rb bytes sound
    refine ⟨after, same, .next kept.run ⟨⟨short, ?_⟩, content⟩⟩
    rw [content_length, ← same]
    exact spared
  | read buffer size count arrivals =>
    obtain rfl := Option.some.inj taken
    have interval := sound.interval
    by_cases nothing : size * count = 0
    · simp only [rbReadDmaWrite_nothing nothing, nothing]
      refine ⟨sound, same, .next (.next kept.run ⟨rfl, rfl⟩) ⟨⟨Nat.zero_le _, ?_⟩, (List.append_nil _).symm⟩⟩
      rw [← same]
      change s.rb.content.length + 0 + 4 ≤ _
      rw [content_length]
      exact interval
    · obtain ⟨after, unchanged, bytes, stored, content⟩ :=
        @Sound.rbReadDmaWrite_spec s.rb buffer size count arrivals sound nothing
      obtain ⟨-, short, spared, -, -⟩ := @Sound.arrive_spec s.rb arrivals.flatten sound
      refine ⟨after, unchanged.trans same, .next (.next kept.run ⟨bytes, rfl⟩) ⟨⟨?_, ?_⟩, ?_⟩⟩
      · rw [stored]
        exact short
      · rw [stored, List.length_drop, content_length, ← same]
        omega
      · rw [stored]
        exact content

/-- After a clear the engine's place is what the fill size tells. -/
theorem step_spoils (kept : Kept capacity s) (bad : ¬ Fine s event) (taken : step event s = some t) :
    ¬ Right capacity t := by
  have sound := kept.sound
  cases event with
  | read buffer size count arrivals => exact absurd trivial bad
  | arrive bytes => exact absurd trivial bad
  | clear =>
    obtain rfl := Option.some.inj taken
    intro right
    apply bad
    have placed : Placed s.rb.capacity s.rb.dstWriteAddr 0 := ⟨sound.place, Nat.zero_le _⟩
    have empty := congrArg UInt32.toNat (right.cleared rfl)
    change (fillSize s.rb.capacity s.rb.dstWriteAddr 0).toNat = 0 at empty
    have behind := placed.behind
    rw [empty] at behind
    exact UInt32.toNat_inj.1 (behind.eq_of_lt_of_lt (Nat.zero_lt_of_lt sound.place) sound.place).symm

/-- The engine is a writer of a bounded queue throughout a run if and only if every step is fine. -/
theorem always_right_iff (big : 4 < capacity.toNat) {moments : List (Moment Recorded Event)} {final : Recorded}
    (run : Run (Machine.Step step) (start addr capacity) moments final) :
    Machine.Always (Right capacity) moments final ↔ ∀ moment ∈ moments, Fine moment.before moment.event :=
  @Machine.always_iff_of_invariant _ _ _ _ _ _ (Kept capacity) (Right capacity) (fun _ _ => True) Fine run
    (start_kept big) (fun _ kept => kept.right) (fun kept _ fine taken => kept.step big fine taken)
    (fun kept _ bad taken => step_spoils kept bad taken) (fun _ _ => trivial)

end RbDmaWr

/-! ## Results -/

/-- In both directions the buffer is a bounded queue throughout a run if and only if every step of the run is fine. -/
theorem dma_rings_refine_fifo_iff (addr : Cells) (capacity : UInt32) (big : 4 < capacity.toNat) :
    (∀ (moments : List (Moment RbDmaRd.Recorded RbDmaRd.Event)) (final : RbDmaRd.Recorded),
      Run (Machine.Step RbDmaRd.step) (RbDmaRd.start addr capacity) moments final →
        (Machine.Always (RbDmaRd.Right capacity) moments final ↔
          ∀ moment ∈ moments, RbDmaRd.Fine moment.before moment.event)) ∧
      ∀ (moments : List (Moment RbDmaWr.Recorded RbDmaWr.Event)) (final : RbDmaWr.Recorded),
        Run (Machine.Step RbDmaWr.step) (RbDmaWr.start addr capacity) moments final →
          (Machine.Always (RbDmaWr.Right capacity) moments final ↔
            ∀ moment ∈ moments, RbDmaWr.Fine moment.before moment.event) :=
  ⟨fun _ _ run => RbDmaRd.always_right_iff big run, fun _ _ run => RbDmaWr.always_right_iff big run⟩

/-- Eight bytes are stored while the engine fetches the last two that wait; then it reads up to the end. -/
def readingRound : List RbDmaRd.Event :=
  [.advance 20, .write (fun i => i.toUInt8) 4 2 [0, 1, 0, 1], .advance 6, .write (fun i => i.toUInt8) 8 1 [],
    .clear, .advance 1]

/-- The engine stores while four bytes are read, and is stopped. -/
def writingRound : List RbDmaWr.Event :=
  [.read (fun _ => 0) 9 1 [], .read (fun _ => 0) 4 1 [[7], [8, 9], [10]], .arrive [1, 2, 3, 4, 5, 6], .clear]

theorem dma_rings_sample :
    (∃ moments final, Run (Machine.Step RbDmaRd.step) (RbDmaRd.start (fun _ => 0) 16) moments final ∧
      moments.map Moment.event = readingRound ∧ Machine.Always (RbDmaRd.Right 16) moments final) ∧
      ∃ moments final, Run (Machine.Step RbDmaWr.step) (RbDmaWr.start (fun _ => 0) 12) moments final ∧
        moments.map Moment.event = writingRound ∧ Machine.Always (RbDmaWr.Right 12) moments final := by
  constructor
  · obtain ⟨moments, final, run, events, fine, -⟩ := @Machine.run_of_fine _ _ RbDmaRd.step
      (RbDmaRd.start (fun _ => 0) 16) RbDmaRd.Fine _ readingRound (fun state => state.rb.srcReadAddr = 0) (by decide)
    exact ⟨moments, final, run, events, ((dma_rings_refine_fifo_iff _ 16 (by decide)).1 _ _ run).2 fine⟩
  · obtain ⟨moments, final, run, events, fine, -⟩ := @Machine.run_of_fine _ _ RbDmaWr.step
      (RbDmaWr.start (fun _ => 0) 12) RbDmaWr.Fine _ writingRound (fun state => state.rb.rp = 8) (by decide)
    exact ⟨moments, final, run, events, ((dma_rings_refine_fifo_iff _ 12 (by decide)).2 _ _ run).2 fine⟩

/-- The engine has fetched four of eight bytes when the buffer is cleared: twelve bytes seem to wait. -/
theorem clear_leaves_engine :
    ∃ moments final, Run (Machine.Step RbDmaRd.step) (RbDmaRd.start (fun _ => 0) 16) moments final ∧
      moments.map Moment.event = [.clear, .advance 4, .write (fun i => i.toUInt8) 8 1 []] ∧
      final.rb.rbGetFillSizeDmaRead = 12 ∧ ¬ Machine.Always (RbDmaRd.Right 16) moments final := by
  obtain ⟨moments, final, run, events, shown⟩ := @Machine.run_of_any _ _ RbDmaRd.step (RbDmaRd.start (fun _ => 0) 16)
    [.clear, .advance 4, .write (fun i => i.toUInt8) 8 1 []]
    (fun state => state.rb.rbGetFillSizeDmaRead = 12 ∧ state.calls.length = 0) (by decide)
  obtain ⟨fill, none_made⟩ := of_decide_eq_true shown
  refine ⟨moments, final, run, events, fill, fun always => ?_⟩
  have empty := always.2.cleared (List.length_eq_zero_iff.1 none_made)
  rw [fill] at empty
  exact absurd empty (by decide)

end BekenSdk.Audio
