import BekenSdk.Heap.Tiles

/-! What malloc, free and realloc do to a region that is sound.
-/

set_option autoImplicit false

namespace BekenSdk.Heap
open Base Region

/-- The blocks tile the region, the counter is that of the free blocks, and those in use are large enough. -/
structure Sound (low high : Nat) (r : Region) : Prop where
  tiled : Tiled low [] r
  ends : r.pxEnd = high
  counted : r.xFreeBytesRemaining = totalSize r.free
  served : ∀ x ∈ r.live, x.wanted + xHeapStructSize ≤ x.block.size

section
variable {r s : Region} {low high : Nat} {pending before after : List Extent} {b pxBlock : Extent} {x : Live} {w : UInt32}

theorem blockSize_aligned (wanted : Nat) : blockSize wanted % 8 = 0 := by
  unfold blockSize
  split
  · exact Nat.mul_mod_left _ _
  · rfl

theorem blockSize_enough {wanted : Nat} (positive : 0 < blockSize wanted) :
    wanted + xHeapStructSize ≤ blockSize wanted := by
  unfold blockSize at positive ⊢
  split
  next => omega
  next none_wanted =>
    rw [if_neg none_wanted] at positive
    exact absurd positive (Nat.lt_irrefl 0)

/-! ## malloc -/

/-- The block goes out of the free list; what is left of it goes back. -/
theorem Tiled.take (tiled : Tiled low [] r) (found : r.free = before ++ pxBlock :: after) {size : Nat}
    (enough : xHeapStructSize ≤ size) (fits : size ≤ pxBlock.size) (aligned : size % 8 = 0) :
    let s := (split pxBlock size).2.toList.foldl prvInsertBlockIntoFreeList (r.unlink before after)
    Tiled low [(split pxBlock size).1] s ∧ size ≤ (split pxBlock size).1.size ∧
      ∃ mem, s = { r with free := before ++ (split pxBlock size).2.toList ++ after, mem := mem } := by
  intro s
  have unlinked := tiled.unlink found
  obtain ⟨mem, eq⟩ := @unlink_eq r before after
  have ordered := tiled.ordered
  rw [found] at ordered
  obtain ⟨-, early, late⟩ := ordered.taken
  unfold s split
  split
  next some_left =>
    have struct : heapMinimumBlockSize = 16 := rfl
    have header : xHeapStructSize = 8 := rfl
    have position := (tiled.inside (mem_blocks.mpr (.inr (.inl (found ▸ List.mem_append_right _ List.mem_cons_self))))).2
    refine ⟨(unlinked.cut (by omega) enough aligned).insert, Nat.le_refl _, ?_⟩
    have within : pxBlock.start + size ≤ (r.unlink before after).pxEnd := by
      rw [eq]
      unfold Extent.stop at position
      dsimp only
      omega
    obtain ⟨mem', eq'⟩ := @insert_eq (r.unlink before after) ⟨pxBlock.start + size, pxBlock.size - size⟩ within
    have free : coalesce ⟨pxBlock.start + size, pxBlock.size - size⟩ (before ++ after) =
        before ++ ⟨pxBlock.start + size, pxBlock.size - size⟩ :: after := by
      apply coalesce_between
      · intro e member
        have less := early e member
        dsimp only
        omega
      · intro e member
        have less := late e member
        unfold Extent.stop at less ⊢
        dsimp only
        omega
    refine ⟨mem', ?_⟩
    change (r.unlink before after).prvInsertBlockIntoFreeList _ = _
    rw [eq', eq]
    dsimp only [Option.toList]
    rw [free, List.append_assoc, List.singleton_append]
  next =>
    refine ⟨unlinked, fits, mem, ?_⟩
    change r.unlink before after = _
    rw [eq]
    dsimp only [Option.toList]
    rw [List.append_nil]

theorem totalSize_rest (size : Nat) :
    (split pxBlock size).1.size + totalSize (split pxBlock size).2.toList =
    max pxBlock.size (split pxBlock size).1.size := by
  unfold split
  split
  next some_left =>
    dsimp only [Option.toList]
    rw [totalSize_cons]
    change size + (pxBlock.size - size + 0) = max pxBlock.size size
    omega
  next =>
    change pxBlock.size + 0 = max pxBlock.size pxBlock.size
    omega

theorem split_size_le {size : Nat} (fits : size ≤ pxBlock.size) : (split pxBlock size).1.size ≤ pxBlock.size := by
  unfold split
  split
  · exact fits
  · exact Nat.le_refl _

@[simp] theorem split_start (size : Nat) : (split pxBlock size).1.start = pxBlock.start := by
  unfold split
  split
  · rfl
  · rfl

/-- The region after a block was taken. -/
def taken (r : Region) (before : List Extent) (pxBlock : Extent) (after : List Extent) (wanted : Nat) : Region :=
  let (b, rest) := split pxBlock (blockSize wanted)
  (rest.toList.foldl prvInsertBlockIntoFreeList (r.unlink before after)).handOut b wanted

/-- Either there is nothing to take, or the first block that is large enough is taken. -/
theorem malloc_cases (r : Region) (w : UInt32) :
    r.mallocWithoutLock w = (none, r) ∨
      ∃ before pxBlock after, w.toNat < xBlockAllocatedBit ∧ 0 < blockSize w.toNat ∧
        firstFit (blockSize w.toNat) r.free = some (before, pxBlock, after) ∧
        r.mallocWithoutLock w = (some (split pxBlock (blockSize w.toNat)).1, taken r before pxBlock after w.toNat) := by
  unfold mallocWithoutLock
  dsimp only
  split
  next fits =>
    split
    · exact .inl rfl
    next before pxBlock after found => exact .inr ⟨before, pxBlock, after, fits.1, fits.2.1, found, rfl⟩
  · exact .inl rfl

theorem Sound.taken (sound : Sound low high r) (positive : 0 < blockSize w.toNat)
    (found : firstFit (blockSize w.toNat) r.free = some (before, pxBlock, after)) :
    Sound low high (taken r before pxBlock after w.toNat) ∧
      w.toNat + xHeapStructSize ≤ (split pxBlock (blockSize w.toNat)).1.size ∧
      ∃ mem remaining least, Heap.taken r before pxBlock after w.toNat =
        { r with
          free := before ++ (split pxBlock (blockSize w.toNat)).2.toList ++ after
          xFreeBytesRemaining := remaining
          xMinimumEverFreeBytesRemaining := least
          mem := mem
          live := ⟨(split pxBlock (blockSize w.toNat)).1, w.toNat⟩ :: r.live } := by
  obtain ⟨here, fits⟩ := firstFit_some found
  have enough := blockSize_enough positive
  have large : xHeapStructSize ≤ blockSize w.toNat := by omega
  obtain ⟨tiled, size, mem, eq⟩ := sound.tiled.take here large fits (blockSize_aligned _)
  have sizes := @totalSize_rest pxBlock (blockSize w.toNat)
  have most := split_size_le fits
  generalize unfolded : Heap.taken r before pxBlock after w.toNat = t
  unfold Heap.taken at unfolded
  dsimp only at unfolded tiled eq
  generalize split pxBlock (blockSize w.toNat) = parts at *
  obtain ⟨b, rest⟩ := parts
  dsimp only at *
  refine ⟨?_, Nat.le_trans enough size, ?_⟩
  · rw [← unfolded]
    refine ⟨tiled.handOut _, ?_, ?_, ?_⟩
    · rw [eq]
      exact sound.ends
    · rw [eq]
      change r.xFreeBytesRemaining - b.size = totalSize (before ++ rest.toList ++ after)
      rw [sound.counted, here]
      simp only [totalSize_append, totalSize_cons]
      omega
    · intro x member
      rw [eq] at member
      rcases List.mem_cons.mp member with rfl | old
      · exact Nat.le_trans enough size
      · exact sound.served x old
  · rw [← unfolded, eq]
    exact ⟨_, _, _, rfl⟩

theorem Sound.malloc (sound : Sound low high r) : Sound low high (r.mallocWithoutLock w).2 := by
  rcases malloc_cases r w with nothing | ⟨before, pxBlock, after, -, positive, found, eq⟩
  · rwa [nothing]
  · rw [eq]
    exact (sound.taken positive found).1

/-! ## free -/

theorem addFree_eq (inside : b.start ≤ r.pxEnd) :
    ∃ mem, r.addFree b =
      { r with free := coalesce b r.free, xFreeBytesRemaining := r.xFreeBytesRemaining + b.size, mem := mem } :=
  @insert_eq { r with xFreeBytesRemaining := r.xFreeBytesRemaining + b.size } b inside

theorem mem_blocks_of_live (member : x ∈ r.live) : x.block ∈ r.blocks [] :=
  mem_blocks.mpr (.inr (.inr (List.mem_map_of_mem member)))

/-- A block goes back to the free list. -/
theorem Sound.release (sound : Sound low high r) (member : x ∈ r.live) :
    Sound low high ((r.unmark x).addFree x.block) := by
  have position := (sound.tiled.inside (mem_blocks_of_live member)).2
  have within : x.block.start ≤ (r.unmark x).pxEnd := Nat.le_trans (Nat.le_add_right _ _) position
  have marked := sound.tiled.unmark member
  have inserted : Tiled low [] ((r.unmark x).addFree x.block) :=
    Tiled.insert (r := { r.unmark x with xFreeBytesRemaining := (r.unmark x).xFreeBytesRemaining + x.block.size })
      ⟨marked.tame, marked.ordered, marked.tiles, marked.whole⟩
  obtain ⟨mem, eq⟩ := addFree_eq within
  rw [eq] at inserted ⊢
  refine ⟨inserted, sound.ends, ?_, fun y other => sound.served y (List.mem_of_mem_erase other)⟩
  change r.xFreeBytesRemaining + x.block.size = totalSize (coalesce x.block r.free)
  rw [totalSize_coalesce, sound.counted, Nat.add_comm]

/-! ## realloc -/

theorem cutOut_attach {rest : List Extent} (previous : Option Extent) (sizes : ∀ e ∈ rest, 0 < e.size) :
    (cutOut b previous (attach b rest)).1 = rest := by
  have self {others : List Extent} : (cutOut b previous (b :: others)).1 = others := by
    rw [cutOut, if_neg (Nat.lt_irrefl _), if_pos rfl, if_neg (Nat.lt_irrefl _)]
  cases rest with
  | nil => exact self
  | cons next rest =>
    rw [attach]
    split
    next touch =>
      have positive := sizes next List.mem_cons_self
      rw [cutOut]
      dsimp only
      rw [if_neg (Nat.lt_irrefl _), if_pos rfl, if_pos (by omega), Nat.add_sub_cancel_left]
      have same : b.start + b.size = next.start := touch
      rw [same]
    next => exact self

/-- The search goes on behind a block that ends before. -/
theorem cutOut_behind {it : Extent} {rest : List Extent} (previous : Option Extent) (positive : 0 < b.size)
    (sized : 0 < it.size) (behind : it.stop ≤ b.start) :
    (cutOut b previous (it :: rest)).1 = it :: (cutOut b (some it) rest).1 := by
  unfold Extent.stop at behind
  rw [cutOut, if_neg (by omega), if_neg (by omega), if_neg (by unfold Extent.stop; omega),
    if_neg (by unfold Extent.stop; omega)]

theorem cutOut_attachTo {it : Extent} {rest : List Extent} (previous : Option Extent) (positive : 0 < b.size)
    (sizes : ∀ e ∈ it :: rest, 0 < e.size) (behind : it.stop ≤ b.start) :
    (cutOut b previous (attachTo it b rest)).1 = it :: rest := by
  obtain ⟨sized, sizesRest⟩ := List.forall_mem_cons.mp sizes
  rw [attachTo]
  split
  next touch =>
    have touch : it.start + it.size = b.start := touch
    -- the block that both are in now
    have ends {others : List Extent} : (cutOut b previous (⟨it.start, it.size + b.size⟩ :: others)).1 =
      it :: others := by
      have stop : (⟨it.start, it.size + b.size⟩ : Extent).stop = b.stop := by
        unfold Extent.stop
        dsimp only
        omega
      rw [cutOut, if_neg (by dsimp only; omega), if_neg (by dsimp only; omega), if_pos stop]
      dsimp only
      rw [Nat.add_sub_cancel]
    cases rest with
    | nil => exact ends
    | cons next rest =>
      rw [attach]
      split
      next touch' =>
        have positive' := sizesRest next List.mem_cons_self
        have touch' : it.start + (it.size + b.size) = next.start := touch'
        have beyond : (⟨it.start, it.size + b.size + next.size⟩ : Extent).stop > b.stop := by
          unfold Extent.stop
          dsimp only
          omega
        rw [cutOut, if_neg (by dsimp only; omega), if_neg (by dsimp only; omega), if_neg (Nat.ne_of_gt beyond),
          if_pos beyond]
        have first : b.start - it.start = it.size := by omega
        have second : b.stop = next.start := by
          unfold Extent.stop
          omega
        have rest' : it.start + (it.size + b.size + next.size) - next.start = next.size := by omega
        dsimp only [Extent.stop] at second ⊢
        rw [first, second, rest']
      next => exact ends
  next =>
    rw [cutOut_behind previous positive sized behind, cutOut_attach (some it) sizesRest]

theorem cutOut_coalesceAfter {it : Extent} {rest : List Extent} (previous : Option Extent) (positive : 0 < b.size)
    (sizes : ∀ e ∈ it :: rest, 0 < e.size) (apart : ∀ e ∈ it :: rest, b.Apart e) (behind : it.start < b.start) :
    (cutOut b previous (coalesceAfter b it rest)).1 = it :: rest := by
  have itBehind : it.stop ≤ b.start := by
    have meets := apart it List.mem_cons_self
    unfold Extent.Apart Extent.stop at *
    omega
  induction rest generalizing it previous with
  | nil => exact cutOut_attachTo previous positive sizes itBehind
  | cons next rest ih =>
    obtain ⟨sized, sizesRest⟩ := List.forall_mem_cons.mp sizes
    obtain ⟨-, apartRest⟩ := List.forall_mem_cons.mp apart
    rw [coalesceAfter]
    split
    next later =>
      have nextBehind : next.stop ≤ b.start := by
        have meets := apartRest next List.mem_cons_self
        unfold Extent.Apart Extent.stop at *
        omega
      rw [cutOut_behind previous positive sized itBehind, ih (some it) sizesRest apartRest later nextBehind]
    next => exact cutOut_attachTo previous positive sizes itBehind

/-- Cutting a block out again undoes its insertion. -/
theorem cutOut_coalesce {free : List Extent} (previous : Option Extent) (positive : 0 < b.size)
    (sizes : ∀ e ∈ free, 0 < e.size) (apart : ∀ e ∈ free, b.Apart e) :
    (cutOut b previous (coalesce b free)).1 = free := by
  cases free with
  | nil => exact @cutOut_attach b [] previous sizes
  | cons next rest =>
    rw [coalesce]
    split
    next later => exact cutOut_coalesceAfter previous positive sizes apart later
    next => exact cutOut_attach previous sizes

theorem takeBack_fields (s : Region) (x : Live) :
    ∃ mem, s.takeBack x =
      { s with
        free := (cutOut x.block none s.free).1
        xFreeBytesRemaining := s.xFreeBytesRemaining - x.block.size
        mem := mem
        live := x :: s.live } := by
  unfold takeBack
  generalize cutOut x.block none s.free = result
  obtain ⟨free, written⟩ := result
  obtain ⟨mem, eq⟩ := foldl_writeLink written { s with free := free }
  dsimp only at eq ⊢
  rw [eq]
  exact ⟨_, rfl⟩

/-- The blocks are as they were before realloc; the one block is the first of those in use now. -/
theorem takeBack_eq (sound : Sound low high r) (member : x ∈ r.live) :
    ∃ mem, ((r.unmark x).addFree x.block).takeBack x = { r with mem := mem, live := x :: r.live.erase x } := by
  have inside := mem_blocks_of_live member
  have position := (sound.tiled.inside inside).2
  have within : x.block.start ≤ (r.unmark x).pxEnd := Nat.le_trans (Nat.le_add_right _ _) position
  have marked := sound.tiled.unmark member
  have inFree {e : Extent} (free : e ∈ r.free) : e ∈ (r.unmark x).blocks [] := mem_blocks.mpr (.inr (.inl free))
  have restored := @cutOut_coalesce x.block r.free none (sound.tiled.size_pos inside)
    (fun e free => marked.size_pos (List.mem_cons_of_mem _ (inFree free)))
    (fun e free => marked.apart_of_cons (inFree free))
  obtain ⟨mem, eq⟩ := addFree_eq within
  obtain ⟨mem', eq'⟩ := takeBack_fields ((r.unmark x).addFree x.block) x
  refine ⟨mem', ?_⟩
  rw [eq', eq]
  change { r with
    free := (cutOut x.block none (coalesce x.block r.free)).1
    xFreeBytesRemaining := r.xFreeBytesRemaining + x.block.size - x.block.size
    mem := mem'
    live := x :: r.live.erase x } = _
  rw [restored, Nat.add_sub_cancel]

theorem Sound.of_mem (sound : Sound low high r) (mem : Cells) : Sound low high { r with mem := mem } :=
  ⟨sound.tiled.of_mem mem, sound.ends, sound.counted, sound.served⟩

theorem Sound.of_perm (sound : Sound low high r) (mem : Cells) {live : List Live} (perm : live.Perm r.live) :
    Sound low high { r with mem := mem, live := live } := by
  have blocks : ({ r with mem := mem, live := live } : Region).blocks [] = r.free ++ live.map Live.block := rfl
  have same : (r.free ++ live.map Live.block).Perm (r.blocks []) := (perm.map Live.block).append_left r.free
  refine ⟨⟨sound.tiled.tame, sound.tiled.ordered, fun a => ?_, fun e member => ?_⟩, sound.ends, sound.counted,
    fun x member => sound.served x (perm.mem_iff.mp member)⟩
  · rw [blocks]
    exact (same.countP_eq _).trans (sound.tiled.tiles a)
  · exact sound.tiled.whole e (same.mem_iff.mp member)

theorem Sound.realloc (memcpy : Memcpy) (sound : Sound low high r) (member : x ∈ r.live) :
    Sound low high (r.realloc memcpy x w).2 := by
  unfold Region.realloc
  split
  · exact sound
  · have released := sound.release member
    have after := @Sound.malloc _ low high w released
    have cases := malloc_cases ((r.unmark x).addFree x.block) w
    split
    next b s eq =>
      rw [eq] at after
      dsimp only at after ⊢
      split
      · exact after.of_perm _ (List.Perm.refl _)
      · exact after
    next s eq =>
      rcases cases with nothing | ⟨_, _, _, -, -, -, something⟩
      · rw [eq] at nothing
        obtain rfl : s = _ := congrArg Prod.snd nothing
        obtain ⟨mem, back⟩ := takeBack_eq sound member
        dsimp only
        rw [back]
        exact sound.of_perm mem (List.perm_cons_erase member).symm
      · rw [eq] at something
        cases something

/-! ## prvHeapInit -/

/-- A region with room for a block. -/
theorem init_sound {ucHeap xTotalHeapSize : Nat} (mem : Cells) (room : 32 ≤ xTotalHeapSize) :
    Sound (alignedHeap ucHeap) (endMarker ucHeap xTotalHeapSize) (init ucHeap xTotalHeapSize mem) := by
  have struct : xHeapStructSize = 8 := rfl
  have large : 8 ≤ endMarker ucHeap xTotalHeapSize - alignedHeap ucHeap := by
    unfold endMarker alignedHeap
    omega
  have start : alignedHeap ucHeap % 8 = 0 := Nat.mul_mod_left _ _
  have finish : endMarker ucHeap xTotalHeapSize % 8 = 0 := Nat.mul_mod_left _ _
  generalize low : alignedHeap ucHeap = low' at *
  refine ⟨⟨rfl, List.pairwise_singleton _ _, fun a => ?_, ?_⟩, rfl, rfl, fun _ member => absurd member List.not_mem_nil⟩
  · change cover a [⟨alignedHeap ucHeap, endMarker ucHeap xTotalHeapSize - alignedHeap ucHeap⟩] =
      if low' ≤ a ∧ a < endMarker ucHeap xTotalHeapSize then 1 else 0
    rw [cover_cons, low]
    generalize endMarker ucHeap xTotalHeapSize = pxEnd at large
    have covers : Extent.Covers ⟨low', pxEnd - low'⟩ a ↔ low' ≤ a ∧ a < pxEnd := by
      unfold Extent.Covers Extent.stop
      dsimp only
      omega
    by_cases inside : low' ≤ a ∧ a < pxEnd
    · rw [if_pos inside, if_pos (covers.mpr inside)]
      rfl
    · rw [if_neg inside, if_neg (mt covers.mp inside)]
      rfl
  · have sizes : (endMarker ucHeap xTotalHeapSize - low') % 8 = 0 := by omega
    have whole : Whole ⟨alignedHeap ucHeap, endMarker ucHeap xTotalHeapSize - alignedHeap ucHeap⟩ := by
      rw [low]
      exact ⟨large, start, sizes⟩
    exact List.forall_mem_singleton.mpr whole

end

end BekenSdk.Heap
