import BekenSdk.HttpOta.Content

/-! What is written of a stream of the length of the partition at most. The full blocks are in
flash and the rest is in the write buffer, but the block that ends with the partition is not written.
-/

set_option autoImplicit false

namespace BekenSdk.HttpOta
open Base

/-- The blocks that are in flash. -/
structure Kept (pt : Partition) (kept : List UInt8) (h : HttpData) : Prop where
  address : h.flashAddress = pt.startAddr + kept.length
  whole : kept.length % httpFlashWrBufMax = 0
  inside : kept.length < pt.length
  holds : Holds h.flash pt.startAddr kept
  ahead : Ahead flashSectorSize h.flash h.flashAddress

structure Staged (pt : Partition) (stream : List UInt8) (h : HttpData) : Prop where
  short : h.wrBuf.length < httpFlashWrBufMax
  kept : ∃ kept, Kept pt kept h ∧ stream = kept ++ h.wrBuf

/-- The stream is as long as the partition, and its last block did not get in. -/
structure Filled (pt : Partition) (stream : List UInt8) (h : HttpData) : Prop where
  empty : h.wrBuf = []
  length : stream.length = pt.length
  kept : ∃ kept last, Kept pt kept h ∧ stream = kept ++ last ∧ last.length = httpFlashWrBufMax

section
variable {pt : Partition} {h : HttpData} {stream page kept block : List UInt8}

theorem sector_size : flashSectorSize = 4096 := rfl

theorem block_size : httpFlashWrBufMax = 1024 := rfl

theorem Kept.fits (state : Kept pt kept h) (short : block.length ≤ httpFlashWrBufMax) :
    h.flashAddress % flashSectorSize + block.length ≤ flashSectorSize := by
  have aligned := pt.aligned
  have whole := state.whole
  rw [state.address]
  rw [sector_size] at aligned ⊢
  rw [block_size] at whole short
  omega

/-- The block gets in when it ends before the partition does. -/
theorem httpFlashWr_inside (state : Kept pt kept h) (low : kept.length + block.length < pt.length) :
    h.httpFlashWr pt block =
      { h with flash := putPiece flashSectorSize h.flash h.flashAddress block, flashAddress := h.flashAddress + block.length } := by
  have address := state.address
  unfold HttpData.httpFlashWr
  exact if_pos ⟨by simp only [address]; omega, by simp only [address]; omega⟩

theorem httpFlashWr_outside (state : Kept pt kept h) (high : pt.length ≤ kept.length + block.length)
    (within : kept.length % flashSectorSize ≠ 0) : h.httpFlashWr pt block = h := by
  have address := state.address
  have same : erasedAt flashSectorSize h.flash h.flashAddress = h.flash := by
    apply if_neg
    have aligned := pt.aligned
    rw [address]
    rw [sector_size] at aligned within ⊢
    omega
  unfold HttpData.httpFlashWr
  rw [same]
  exact if_neg fun inside => by
    have last := inside.2
    simp only [address] at last
    omega

theorem Kept.putPiece_holds (state : Kept pt kept h) (short : block.length ≤ httpFlashWrBufMax) :
    Holds (putPiece flashSectorSize h.flash h.flashAddress block) pt.startAddr (kept ++ block) := by
  rw [holds_append]
  constructor
  · exact state.holds.putPiece (Nat.le_of_eq state.address.symm)
  · rw [← state.address]
    exact state.ahead.putPiece_holds (state.fits short)

/-- A full block, and where that leads. -/
theorem Kept.httpFlashWr (state : Kept pt kept h) (full : block.length = httpFlashWrBufMax)
    (low : kept.length + block.length < pt.length) :
    Kept pt (kept ++ block) (h.httpFlashWr pt block) := by
  have whole := state.whole
  rw [httpFlashWr_inside state low]
  constructor
  · rw [List.length_append, ← Nat.add_assoc, ← state.address]
  · rw [List.length_append, full]
    rw [block_size] at whole ⊢
    omega
  · rw [List.length_append]
    exact low
  · exact state.putPiece_holds (Nat.le_of_eq full)
  · exact state.ahead.putPiece (by decide) (state.fits (Nat.le_of_eq full))

theorem last_block (ends : kept.length + httpFlashWrBufMax = pt.length) : kept.length % flashSectorSize ≠ 0 := by
  have whole := pt.whole
  rw [sector_size] at whole ⊢
  rw [block_size] at ends
  omega

theorem Kept.of_same {other : HttpData} (state : Kept pt kept h) (address : other.flashAddress = h.flashAddress)
    (flash : other.flash = h.flash) :
    Kept pt kept other where
  address := address.trans state.address
  whole := state.whole
  inside := state.inside
  holds := by
    rw [flash]
    exact state.holds
  ahead := by
    rw [flash, address]
    exact state.ahead

/-- What the stream has come to. -/
def Written (pt : Partition) (stream : List UInt8) (h : HttpData) : Prop :=
  stream.length < pt.length ∧ Staged pt stream h ∨ Filled pt stream h

theorem Written.of_same {other : HttpData} (state : Written pt stream h) (buffer : other.wrBuf = h.wrBuf)
    (address : other.flashAddress = h.flashAddress) (flash : other.flash = h.flash) : Written pt stream other := by
  rcases state with ⟨low, short, kept, below, split⟩ | ⟨empty, total, kept, last, below, split⟩
  · left
    rw [← buffer] at short split
    exact ⟨low, short, kept, below.of_same address flash, split⟩
  · right
    rw [← buffer] at empty
    exact ⟨empty, total, kept, last, below.of_same address flash, split⟩

/-! ## Rounds -/

theorem Staged.wrRound {piece : List UInt8} (state : Staged pt stream h) (some_bytes : piece ≠ [])
    (room : h.wrBuf.length + piece.length ≤ httpFlashWrBufMax) (fits : stream.length + piece.length ≤ pt.length) :
    Written pt (stream ++ piece) (h.wrRound pt piece) := by
  obtain ⟨short, kept, below, rfl⟩ := state
  have positive := List.length_pos_of_ne_nil some_bytes
  have multiple := below.whole
  have sectors := pt.whole
  rw [block_size] at multiple room short
  rw [sector_size] at sectors
  rw [List.length_append] at fits
  unfold HttpData.wrRound
  dsimp only
  split
  next full =>
    have size : (h.wrBuf ++ piece).length = httpFlashWrBufMax := by
      rw [List.length_append, block_size] at full ⊢
      omega
    have before : Kept pt kept { h with wrBuf := h.wrBuf ++ piece } := below.of_same rfl rfl
    have total : (kept ++ h.wrBuf ++ piece).length = kept.length + (h.wrBuf ++ piece).length := by
      rw [List.append_assoc, List.length_append]
    by_cases low : kept.length + (h.wrBuf ++ piece).length < pt.length
    · left
      refine ⟨total ▸ low, ⟨Nat.zero_lt_succ _, kept ++ (h.wrBuf ++ piece), ?_, ?_⟩⟩
      · exact (before.httpFlashWr size low).of_same rfl rfl
      · rw [List.append_nil, List.append_assoc]
    · right
      have ends : kept.length + httpFlashWrBufMax = pt.length := by
        rw [List.length_append] at low size
        rw [block_size] at size ⊢
        omega
      rw [httpFlashWr_outside before (Nat.le_of_not_lt low) (last_block ends)]
      refine ⟨rfl, ?_, kept, h.wrBuf ++ piece, before.of_same rfl rfl, List.append_assoc _ _ _, size⟩
      rw [total, size, ends]
  next partly =>
    left
    rw [List.length_append, block_size] at partly
    refine ⟨?_, ?_, kept, below.of_same rfl rfl, List.append_assoc _ _ _⟩
    · -- the partition does not end within a block
      rw [List.length_append, List.length_append]
      omega
    · rw [List.length_append, block_size]
      omega

theorem Staged.wrRounds (rounds : Nat) (state : Staged pt stream h) (low : stream.length < pt.length)
    (enough : page.length ≤ rounds)
    (fits : stream.length + page.length ≤ pt.length) : Written pt (stream ++ page) (h.wrRounds pt rounds page) := by
  induction rounds generalizing stream page h with
  | zero =>
    rw [List.eq_nil_of_length_eq_zero (Nat.le_zero.mp enough), List.append_nil]
    exact .inl ⟨low, state⟩
  | succ rounds ih =>
    unfold HttpData.wrRounds
    split
    next empty =>
      rw [empty, List.append_nil]
      exact .inl ⟨low, state⟩
    next some_bytes =>
      have positive := List.length_pos_of_ne_nil some_bytes
      have short := state.short
      dsimp only
      generalize wL_eq : min page.length (httpFlashWrBufMax - h.wrBuf.length) = wL
      have taken : (page.take wL).length = wL := by
        rw [List.length_take]
        omega
      have left : (page.drop wL).length = page.length - wL := List.length_drop
      have first : Written pt (stream ++ page.take wL) (h.wrRound pt (page.take wL)) := by
        apply state.wrRound
        · apply List.ne_nil_of_length_pos
          omega
        · omega
        · omega
      rcases first with ⟨still_low, staged⟩ | filled
      · have rest : Written pt (stream ++ page.take wL ++ page.drop wL) ((h.wrRound pt (page.take wL)).wrRounds pt rounds (page.drop wL)) := by
          apply ih staged still_low
          · omega
          · rw [List.length_append]
            omega
        rw [List.append_assoc, List.take_append_drop] at rest
        exact rest
      · have full := filled.length
        have none_left : page.drop wL = [] := by
          apply List.eq_nil_of_length_eq_zero
          rw [List.length_append] at full
          omega
        have all : page.take wL = page := by
          have whole := List.take_append_drop wL page
          rw [none_left, List.append_nil] at whole
          exact whole
        rw [none_left, all]
        rw [all] at filled
        right
        cases rounds with
        | zero => exact filled
        | succ rounds => exact filled

theorem Written.httpWrToFlash (state : Written pt stream h) (fits : stream.length + page.length ≤ pt.length) :
    Written pt (stream ++ page) (h.httpWrToFlash pt page) := by
  rcases state with ⟨low, staged⟩ | filled
  · exact staged.wrRounds page.length low (Nat.le_refl _) fits
  · have full := filled.length
    have empty : page = [] := List.eq_nil_of_length_eq_zero (by omega)
    subst empty
    rw [List.append_nil]
    exact .inr filled

theorem written_init : Written pt [] (h.httpFlashInit pt) := by
  refine .inl ⟨pt.room, Nat.zero_lt_succ _, [], ?_, rfl⟩
  exact ⟨rfl, rfl, pt.room, trivial, fun within => absurd pt.aligned within⟩

/-! ## The last block -/

theorem Staged.flush (state : Staged pt stream h) (low : stream.length < pt.length) :
    Holds (h.httpFlashWr pt h.wrBuf).flash pt.startAddr stream := by
  obtain ⟨short, kept, below, rfl⟩ := state
  rw [List.length_append] at low
  rw [httpFlashWr_inside below low]
  exact below.putPiece_holds (Nat.le_of_lt short)

/-- The cells of the last block stay blank. -/
theorem Filled.flush_iff (state : Filled pt stream h) :
    Holds (h.httpFlashWr pt h.wrBuf).flash pt.startAddr stream ↔
      stream.drop (pt.length - httpFlashWrBufMax) = blank httpFlashWrBufMax := by
  obtain ⟨empty, total, kept, last, below, rfl, size⟩ := state
  rw [List.length_append, size] at total
  have within := last_block total
  have unwritten : (h.httpFlashWr pt h.wrBuf).flash = putPiece flashSectorSize h.flash h.flashAddress [] := by
    rw [empty, httpFlashWr_inside below (by rw [List.length_nil]; exact below.inside)]
  have blank_here : Holds (putPiece flashSectorSize h.flash h.flashAddress []) (pt.startAddr + kept.length) (blank httpFlashWrBufMax) := by
    apply holds_of_blank
    intro a low high
    have address := below.address
    have room := @Kept.fits pt h kept (blank httpFlashWrBufMax) below (Nat.le_of_eq (blank_length _))
    have split := Nat.div_add_mod h.flashAddress flashSectorSize
    rw [blank_length] at room
    rw [putPiece, programBytes_after _ _ _ (by rw [address]; exact low)]
    apply below.ahead.erasedAt_blank
    · omega
    · apply Nat.div_eq_of_lt_le
      · rw [Nat.mul_comm]
        omega
      · rw [Nat.succ_mul, Nat.mul_comm]
        omega
  have start : pt.length - httpFlashWrBufMax = kept.length := by omega
  rw [unwritten, holds_append, start, List.drop_left]
  constructor
  · intro held
    rw [← held.2.read_of_length size, ← blank_here.read_of_length (blank_length _)]
  · intro same
    rw [same]
    exact ⟨below.holds.putPiece (Nat.le_of_eq below.address.symm), blank_here⟩

theorem Written.flush_iff (state : Written pt stream h) :
    Holds (h.httpFlashWr pt h.wrBuf).flash pt.startAddr stream ↔
      (stream.length = pt.length → stream.drop (pt.length - httpFlashWrBufMax) = blank httpFlashWrBufMax) := by
  rcases state with ⟨low, staged⟩ | filled
  · exact iff_of_true (staged.flush low) fun full => absurd full (Nat.ne_of_lt low)
  · exact filled.flush_iff.trans ⟨fun same _ => same, fun same => same filled.length⟩

/-! ## The other fields -/

theorem wrRound_same (pt : Partition) (piece : List UInt8) (h : HttpData) :
    (h.wrRound pt piece).doData = h.doData ∧ (h.wrRound pt piece).httpTotal = h.httpTotal := by
  unfold HttpData.wrRound HttpData.httpFlashWr
  dsimp only
  split
  · split <;> exact ⟨rfl, rfl⟩
  · exact ⟨rfl, rfl⟩

theorem wrRounds_same (pt : Partition) (rounds : Nat) (page : List UInt8) (h : HttpData) :
    (h.wrRounds pt rounds page).doData = h.doData ∧ (h.wrRounds pt rounds page).httpTotal = h.httpTotal := by
  induction rounds generalizing page h with
  | zero => exact ⟨rfl, rfl⟩
  | succ rounds ih =>
    unfold HttpData.wrRounds
    split
    · exact ⟨rfl, rfl⟩
    · dsimp only
      generalize min page.length (httpFlashWrBufMax - h.wrBuf.length) = wL
      have first := wrRound_same pt (page.take wL) h
      have rest := ih (page.drop wL) (h.wrRound pt (page.take wL))
      exact ⟨rest.1.trans first.1, rest.2.trans first.2⟩

end

end BekenSdk.HttpOta
