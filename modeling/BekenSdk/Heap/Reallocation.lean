import BekenSdk.Heap.Integrity
import BekenSdk.Heap.Payloads

/-! pvPortRealloc and psram_realloc free the block, allocate, and copy the payload to what they got.
The payload is still there then, but for a header in the middle of it or a copy onto itself.
-/

set_option autoImplicit false

namespace BekenSdk.Heap
open Base Region

/-! ## What is claimed -/

/-- What realloc may do with a region. -/
inductive Kept (r : Region) (x : Live) (w : UInt32) : Option Nat → Region → Prop where
  | given {s : Region} (y : Live) (enough : w.toNat ≤ y.payloadSize) (live : s.live.Perm (y :: r.live.erase x))
      (tiles : ∀ a, cover a (s.free ++ s.live.map Live.block) = cover a (r.free ++ r.live.map Live.block))
      (same : ∀ i < min x.payloadSize w.toNat, s.mem (y.pv + i) = r.mem (x.pv + i))
      (others : ∀ z ∈ r.live.erase x, ∀ i < z.payloadSize, s.mem (z.pv + i) = r.mem (z.pv + i)) :
      Kept r x w (some y.pv) s
  | refused {s : Region} (free : s.free = r.free) (counted : s.xFreeBytesRemaining = r.xFreeBytesRemaining)
      (live : s.live.Perm r.live) (payloads : ∀ z ∈ r.live, ∀ i < z.payloadSize, s.mem (z.pv + i) = r.mem (z.pv + i)) :
      Kept r x w none s

/-- The application may have anything in its payloads. -/
def Rewritten (r s : Region) : Prop :=
  ∃ mem, s = { r with mem := mem } ∧ ∀ a, (∀ z ∈ r.live, a < z.pv ∨ z.block.stop ≤ a) → mem a = r.mem a

/-! ## When it is so -/

/-- The free block that the new one is cut from, with the old one merged in. -/
def origin (r : Region) (x : Live) (w : UInt32) : Option Extent :=
  if w.toNat < xBlockAllocatedBit then (firstFit (blockSize w.toNat) (coalesce x.block r.free)).map (·.2.1) else none

/-- The header of what is left comes into the old payload. -/
def Clobbers (r : Region) (x : Live) (w : UInt32) : Prop :=
  ∃ b ∈ origin r x w, b.size - blockSize w.toNat > heapMinimumBlockSize ∧
    x.block.start < b.start + blockSize w.toNat ∧ b.start + blockSize w.toNat < x.block.stop

/-- The copy begins before the old payload and reaches into it. -/
def Overlaps (r : Region) (x : Live) (w : UInt32) : Prop :=
  ∃ b ∈ origin r x w, b.start < x.block.start ∧ x.block.start < b.start + x.payloadSize

def Safe (r : Region) (x : Live) (w : UInt32) : Prop :=
  w.toNat ≤ x.payloadSize ∨ ¬Clobbers r x w ∧ ¬Overlaps r x w

instance (r : Region) (x : Live) (w : UInt32) : Decidable (Clobbers r x w) := by
  unfold Clobbers
  infer_instance

instance (r : Region) (x : Live) (w : UInt32) : Decidable (Overlaps r x w) := by
  unfold Overlaps
  infer_instance

instance (r : Region) (x : Live) (w : UInt32) : Decidable (Safe r x w) := by
  unfold Safe
  infer_instance

/-! ## Headers -/

/-- Where headers are before the block is cut. -/
def places (r : Region) (x : Live) (h : Nat) : Prop := h = x.block.start ∨ ∃ e ∈ r.free, e.start = h

section
variable {r s : Region} {x z : Live} {w : UInt32} {low high h i : Nat} {before after : List Extent} {pxBlock : Extent}
  {mem : Cells}

theorem live_apart_free (sound : Sound low high r) (member : z ∈ r.live) {e : Extent} (free : e ∈ r.free) :
    z.block.Apart e :=
  (sound.tiled.unmark member).apart_of_cons (mem_blocks.mpr (.inr (.inl free)))

theorem places_spare (sound : Sound low high r) (member : x ∈ r.live) (other : z ∈ r.live) (place : places r x h) :
    h ≤ z.block.start ∨ z.block.stop ≤ h := by
  rcases place with rfl | ⟨e, free, rfl⟩
  · by_cases same : z = x
    · rw [same]
      exact .inl (Nat.le_refl _)
    · have inErase : z ∈ (r.unmark x).live := (List.mem_erase_of_ne same).mpr other
      rcases (sound.tiled.unmark member).apart_of_cons (mem_blocks_of_live inErase) with first | last
      · exact .inl (Nat.le_trans (Nat.le_add_right _ _) first)
      · exact .inr last
  · rcases live_apart_free sound other free with first | last
    · exact .inr first
    · exact .inl (Nat.le_trans (Nat.le_add_right _ _) last)

/-- The merged list has one block around the old one; the others are apart from it. -/
theorem around_or_apart {b : Extent} {free : List Extent} (positive : 0 < b.size) (apart : ∀ e ∈ free, b.Apart e) :
    ∀ e ∈ coalesce b free, (e.start ≤ b.start ∧ b.stop ≤ e.stop) ∨ b.Apart e := by
  apply forall_coalesce
  · intro c d around around' touch
    unfold Extent.Apart Extent.stop at *
    dsimp only
    omega
  · exact .inl ⟨Nat.le_refl _, Nat.le_refl _⟩
  · exact fun e member => .inr (apart e member)

/-! ## The block that is given -/

theorem released_fields (sound : Sound low high r) (member : x ∈ r.live) :
    ∃ mem, (r.unmark x).addFree x.block =
      { r with
        free := coalesce x.block r.free
        xFreeBytesRemaining := r.xFreeBytesRemaining + x.block.size
        mem := mem
        live := r.live.erase x } :=
  addFree_eq (Nat.le_trans (Nat.le_add_right _ _) (sound.tiled.inside (mem_blocks_of_live member)).2)

theorem blockSize_pos (larger : x.payloadSize < w.toNat) : 0 < blockSize w.toNat := by
  have some_wanted : 0 < w.toNat := Nat.lt_of_le_of_lt (Nat.zero_le _) larger
  unfold blockSize
  rw [if_pos some_wanted]
  omega

/-- Where the new block comes from. -/
structure Found (r : Region) (x : Live) (w : UInt32) (before : List Extent) (pxBlock : Extent) (after : List Extent) :
    Prop where
  small : w.toNat < xBlockAllocatedBit
  first : firstFit (blockSize w.toNat) (coalesce x.block r.free) = some (before, pxBlock, after)

theorem Found.origin (found : Found r x w before pxBlock after) : origin r x w = some pxBlock := by
  unfold Heap.origin
  rw [if_pos found.small, found.first]
  rfl

theorem found_of_origin (there : origin r x w = some pxBlock) : ∃ before after, Found r x w before pxBlock after := by
  unfold origin at there
  split at there
  next small =>
    obtain ⟨⟨before, b, after⟩, first, rfl⟩ := Option.map_eq_some_iff.mp there
    exact ⟨before, after, small, first⟩
  · cases there

/-- The region after the cut, before the copy. -/
def cut (r : Region) (x : Live) (before : List Extent) (pxBlock : Extent) (after : List Extent) (w : UInt32) : Region :=
  taken ((r.unmark x).addFree x.block) before pxBlock after w.toNat

theorem realloc_given (memcpy : Memcpy) (sound : Sound low high r) (member : x ∈ r.live)
    (larger : x.payloadSize < w.toNat)
    (found : Found r x w before pxBlock after) :
    r.realloc memcpy x w = (some (pxBlock.start + xHeapStructSize),
      if pxBlock.start + xHeapStructSize ≠ x.pv then
        { cut r x before pxBlock after w with
          mem := memcpy.run (cut r x before pxBlock after w).mem (pxBlock.start + xHeapStructSize) x.pv x.payloadSize }
      else cut r x before pxBlock after w) := by
  have released := sound.release member
  obtain ⟨mem, eq⟩ := released_fields sound member
  have free : ((r.unmark x).addFree x.block).free = coalesce x.block r.free := by rw [eq]
  obtain ⟨here, fits⟩ := firstFit_some found.first
  have enough : blockSize w.toNat ≤ ((r.unmark x).addFree x.block).xFreeBytesRemaining := by
    rw [released.counted, free, here, totalSize_append, totalSize_cons]
    omega
  have served : ((r.unmark x).addFree x.block).mallocWithoutLock w =
      (some (split pxBlock (blockSize w.toNat)).1, cut r x before pxBlock after w) := by
    unfold mallocWithoutLock
    dsimp only
    rw [if_pos ⟨found.small, blockSize_pos larger, enough⟩, free, found.first]
    rfl
  unfold realloc
  rw [if_neg (Nat.not_le.mpr larger), served]
  dsimp only
  rw [split_start]

/-- Without such a block there is none to give. -/
theorem realloc_refused (memcpy : Memcpy) (sound : Sound low high r) (member : x ∈ r.live)
    (larger : x.payloadSize < w.toNat)
    (none_found : origin r x w = none) :
    r.realloc memcpy x w = (none, ((r.unmark x).addFree x.block).takeBack x) := by
  obtain ⟨mem, eq⟩ := released_fields sound member
  have free : ((r.unmark x).addFree x.block).free = coalesce x.block r.free := by rw [eq]
  have nothing : ((r.unmark x).addFree x.block).mallocWithoutLock w = (none, (r.unmark x).addFree x.block) := by
    rcases malloc_cases ((r.unmark x).addFree x.block) w with nothing | ⟨before, pxBlock, after, small, -, first, -⟩
    · exact nothing
    · rw [free] at first
      have found : Found r x w before pxBlock after := ⟨small, first⟩
      exact absurd (found.origin.symm.trans none_found) (Option.some_ne_none _)
  unfold realloc
  rw [if_neg (Nat.not_le.mpr larger), nothing]

/-- What the cut gives: a block large enough, apart from the others. -/
theorem cut_fields (sound : Sound low high r) (member : x ∈ r.live) (larger : x.payloadSize < w.toNat)
    (found : Found r x w before pxBlock after) :
    ∃ y : Live, y.block.start = pxBlock.start ∧ y.block.stop ≤ pxBlock.stop ∧ w.toNat ≤ y.payloadSize ∧
      (cut r x before pxBlock after w).live = y :: r.live.erase x ∧
      Sound low high (cut r x before pxBlock after w) := by
  have released := sound.release member
  obtain ⟨mem, eq⟩ := released_fields sound member
  have free : ((r.unmark x).addFree x.block).free = coalesce x.block r.free := by rw [eq]
  have first := found.first
  rw [← free] at first
  obtain ⟨after_cut, enough, mem', remaining, least, fields⟩ := released.taken (blockSize_pos larger) first
  have most := split_size_le (firstFit_some first).2
  refine ⟨⟨(split pxBlock (blockSize w.toNat)).1, w.toNat⟩, split_start _, ?_, Nat.le_sub_of_add_le enough, ?_,
    after_cut⟩
  · unfold Extent.stop
    rw [split_start]
    exact Nat.add_le_add_left most _
  · unfold cut
    rw [fields, eq]

/-! ## Payloads after the cut -/

theorem mem_released (sound : Sound low high r) (member : x ∈ r.live) (found : Found r x w before pxBlock after) :
    pxBlock ∈ ((r.unmark x).addFree x.block).free ∧ blockSize w.toNat ≤ pxBlock.size := by
  obtain ⟨mem, eq⟩ := released_fields sound member
  obtain ⟨here, fits⟩ := firstFit_some found.first
  rw [eq]
  dsimp only
  rw [here]
  exact ⟨List.mem_append_right _ List.mem_cons_self, fits⟩

/-- Those places, and that of what is left of the block. -/
def cutPlaces (r : Region) (x : Live) (w : UInt32) (pxBlock : Extent) (h : Nat) : Prop :=
  places r x h ∨ pxBlock.size - blockSize w.toNat > heapMinimumBlockSize ∧ h = pxBlock.start + blockSize w.toNat

theorem cut_only (sound : Sound low high r) (member : x ∈ r.live) (found : Found r x w before pxBlock after) :
    HeadersOnly (cutPlaces r x w pxBlock) r.mem (cut r x before pxBlock after w).mem := by
  have released := sound.release member
  obtain ⟨there, fits⟩ := mem_released sound member found
  have position := (released.tiled.inside (mem_blocks.mpr (.inr (.inl there)))).2
  obtain ⟨mem, eq⟩ := released_fields sound member
  have free : ((r.unmark x).addFree x.block).free = coalesce x.block r.free := by rw [eq]
  have within := Nat.le_trans (Nat.le_add_right _ _) (sound.tiled.inside (mem_blocks_of_live member)).2
  apply HeadersOnly.trans
  · exact release_only within (.inl (.inl rfl)) fun e inFree => .inl (.inr ⟨e, inFree, rfl⟩)
  · apply taken_only
    · rw [free]
      exact (firstFit_some found.first).1
    · rw [free]
      exact @coalesce_starts (cutPlaces r x w pxBlock) _ _ (.inl (.inl rfl)) fun e inFree => .inl (.inr ⟨e, inFree,
        rfl⟩)
    · unfold Extent.stop at position
      omega
    · exact fun left => .inr ⟨left, rfl⟩

/-- The block that is cut is apart from the blocks in use. -/
theorem cut_payload_other (sound : Sound low high r) (member : x ∈ r.live) (found : Found r x w before pxBlock after)
    (other : z ∈ r.live.erase x) (inside : i < z.payloadSize) :
    (cut r x before pxBlock after w).mem (z.pv + i) = r.mem (z.pv + i) := by
  refine (cut_only sound member found).payload (fun h place => ?_) inside
  rcases place with early | ⟨-, rfl⟩
  · exact places_spare sound member (List.mem_of_mem_erase other) early
  · obtain ⟨there, fits⟩ := mem_released sound member found
    obtain ⟨mem, eq⟩ := released_fields sound member
    have live : ((r.unmark x).addFree x.block).live = r.live.erase x := by rw [eq]
    have apart := live_apart_free (sound.release member) (live ▸ other) there
    unfold Extent.Apart Extent.stop at apart
    unfold Extent.stop
    omega

/-- The block that is cut is around the old one or apart from it. -/
theorem found_around_or_apart (sound : Sound low high r) (member : x ∈ r.live)
    (found : Found r x w before pxBlock after) :
    (pxBlock.start ≤ x.block.start ∧ x.block.stop ≤ pxBlock.stop) ∨ x.block.Apart pxBlock := by
  apply around_or_apart (sound.tiled.size_pos (mem_blocks_of_live member)) (fun e free => live_apart_free sound member free)
  rw [(firstFit_some found.first).1]
  exact List.mem_append_right _ List.mem_cons_self

theorem cut_payload_self (sound : Sound low high r) (member : x ∈ r.live) (found : Found r x w before pxBlock after)
    (unclobbered : ¬Clobbers r x w) (inside : i < x.payloadSize) :
    (cut r x before pxBlock after w).mem (x.pv + i) = r.mem (x.pv + i) := by
  refine (cut_only sound member found).payload (fun h place => ?_) inside
  rcases place with early | ⟨left, rfl⟩
  · exact places_spare sound member member early
  · by_contra hit
    exact unclobbered ⟨pxBlock, found.origin, left, by omega, by omega⟩

/-! ## The copy -/

theorem copied_inside {out source n : Nat} (inside : i < n) : copied mem out source n (out + i) = mem (source + i) := by
  unfold copied
  rw [if_pos (by omega), Nat.add_sub_cancel_left]

theorem copied_outside {out source n a : Nat} (outside : a < out ∨ out + n ≤ a) : copied mem out source n a = mem a :=
  if_neg (by omega)

/-- Source and destination of the copy are apart, unless the new block begins in front of the old one and is too near. -/
theorem copy_apart (sound : Sound low high r) (member : x ∈ r.live) (larger : x.payloadSize < w.toNat)
    (found : Found r x w before pxBlock after) (moved : pxBlock.start + xHeapStructSize ≠ x.pv)
    (disjoint : ¬Overlaps r x w) :
    pxBlock.start + xHeapStructSize + x.payloadSize ≤ x.pv ∨
      x.pv + x.payloadSize ≤ pxBlock.start + xHeapStructSize := by
  have header := (sound.tiled.whole x.block (mem_blocks_of_live member)).1
  have fits := (mem_released sound member found).2
  have enough := blockSize_enough (blockSize_pos larger)
  have clear : ¬(pxBlock.start < x.block.start ∧ x.block.start < pxBlock.start + x.payloadSize) := fun meets =>
    disjoint ⟨pxBlock, found.origin, meets⟩
  have place := found_around_or_apart sound member found
  unfold Live.pv Live.payloadSize Extent.Apart Extent.stop at *
  omega

/-! ## Results for a region -/

theorem kept_of_safe (memcpy : Memcpy) (sound : Sound low high r) (member : x ∈ r.live) (safe : Safe r x w) :
    Kept r x w (r.realloc memcpy x w).1 (r.realloc memcpy x w).2 := by
  by_cases larger : x.payloadSize < w.toNat
  swap
  · unfold realloc
    rw [if_pos (Nat.not_lt.mp larger)]
    exact .given x (Nat.not_lt.mp larger) (List.perm_cons_erase member) (fun _ => rfl) (fun _ _ => rfl) (fun _ _ _ _ => rfl)
  obtain ⟨unclobbered, disjoint⟩ := safe.resolve_left (Nat.not_le.mpr larger)
  have size : min x.payloadSize w.toNat = x.payloadSize := Nat.min_eq_left (Nat.le_of_lt larger)
  cases there : origin r x w with
  | none =>
    rw [realloc_refused memcpy sound member larger there]
    obtain ⟨mem, eq⟩ := takeBack_eq sound member
    have within := Nat.le_trans (Nat.le_add_right _ _) (sound.tiled.inside (mem_blocks_of_live member)).2
    have only : HeadersOnly (places r x) r.mem (((r.unmark x).addFree x.block).takeBack x).mem := by
      apply HeadersOnly.trans
      · exact release_only within (.inl rfl) fun e inFree => .inr ⟨e, inFree, rfl⟩
      · apply takeBack_only (.inl rfl)
        obtain ⟨mem', fields⟩ := takeBack_fields ((r.unmark x).addFree x.block) x
        have back : (((r.unmark x).addFree x.block).takeBack x).free = r.free := by rw [eq]
        rw [fields] at back
        dsimp only at back
        rw [back]
        exact fun e inFree => .inr ⟨e, inFree, rfl⟩
    refine .refused (by rw [eq]) (by rw [eq]) (by rw [eq]; exact (List.perm_cons_erase member).symm) fun z other i inside => ?_
    exact only.payload (fun h place => places_spare sound member other place) inside
  | some pxBlock =>
    obtain ⟨before, after, found⟩ := found_of_origin there
    obtain ⟨y, start, stop, enough, live, after_cut⟩ := cut_fields sound member larger found
    have pv : y.pv = pxBlock.start + xHeapStructSize := congrArg (· + xHeapStructSize) start
    have tiles (a : Nat) : cover a ((cut r x before pxBlock after w).free ++ (cut r x before pxBlock after w).live.map Live.block) =
        cover a (r.free ++ r.live.map Live.block) := by
      refine (after_cut.tiled.tiles a).trans ?_
      rw [after_cut.ends, ← sound.ends]
      exact (sound.tiled.tiles a).symm
    rw [realloc_given memcpy sound member larger found, ← pv]
    dsimp only
    by_cases moved : y.pv ≠ x.pv
    · rw [if_pos moved]
      have clear := copy_apart sound member larger found (pv ▸ moved) disjoint
      rw [memcpy.apart _ _ _ _ (pv ▸ clear)]
      refine .given y enough (by rw [live]) tiles (fun i inside => ?_) fun z other i inside => ?_
      · rw [size] at inside
        exact (copied_inside inside).trans (cut_payload_self sound member found unclobbered inside)
      · refine Eq.trans (copied_outside ?_) (cut_payload_other sound member found other inside)
        -- the copy stays within the new block
        have apart := (List.pairwise_cons.mp (live ▸ live_apart after_cut)).1 z other
        unfold Live.payloadSize Live.pv Extent.Apart Extent.stop at *
        omega
    · rw [if_neg moved]
      have same : y.pv = x.pv := Decidable.not_not.mp moved
      refine .given y enough (by rw [live]) tiles (fun i inside => ?_) fun z other i inside => ?_
      · rw [size] at inside
        rw [same]
        exact cut_payload_self sound member found unclobbered inside
      · exact cut_payload_other sound member found other inside

/-! A payload that is not safe is lost if it is of bytes that the damage has not. -/

/-- The byte throughout the payload. -/
def filled (r : Region) (x : Live) (byte : UInt8) : Region :=
  { r with mem := fun a => if x.pv ≤ a ∧ a < x.block.stop then byte else r.mem a }

theorem filled_rewritten (member : x ∈ r.live) (byte : UInt8) : Rewritten r (filled r x byte) := by
  refine ⟨_, rfl, fun a outside => if_neg fun inside => ?_⟩
  have away := outside x member
  omega

theorem filled_sound (sound : Sound low high r) (byte : UInt8) : Sound low high (filled r x byte) := sound.of_mem _

theorem filled_payload {byte : UInt8} (inside : i < x.payloadSize) : (filled r x byte).mem (x.pv + i) = byte := by
  apply if_pos
  unfold Live.payloadSize at inside
  unfold Live.pv Extent.stop
  omega

theorem Kept.bytes {pv : Nat} (kept : Kept r x w (some pv) s) (inside : i < min x.payloadSize w.toNat) :
    s.mem (pv + i) = r.mem (x.pv + i) := by
  generalize given : some pv = result at kept
  cases kept with
  | given y _ _ _ same _ =>
    rw [Option.some.inj given]
    exact same i inside
  | refused => cases given

/-- A memcpy that makes nothing of areas that overlap. -/
def careless : Memcpy where
  run mem out source n := if out + n ≤ source ∨ source + n ≤ out then copied mem out source n else fun _ => 0
  apart _ _ _ _ clear := if_pos clear

theorem lost_of_overlaps (sound : Sound low high r) (member : x ∈ r.live) (larger : x.payloadSize < w.toNat)
    (overlaps : Overlaps r x w) :
    ¬Kept (filled r x 1) x w ((filled r x 1).realloc careless x w).1 ((filled r x 1).realloc careless x w).2 := by
  obtain ⟨pxBlock, there, front, reach⟩ := overlaps
  obtain ⟨before, after, found⟩ := found_of_origin (r := filled r x 1) there
  have moved : pxBlock.start + xHeapStructSize ≠ x.pv := by
    unfold Live.pv
    omega
  have near : ¬(pxBlock.start + xHeapStructSize + x.payloadSize ≤ x.pv ∨
      x.pv + x.payloadSize ≤ pxBlock.start + xHeapStructSize) := by
    unfold Live.pv
    omega
  rw [realloc_given careless (filled_sound sound 1) member larger found, if_pos moved]
  intro kept
  have positive : 0 < x.payloadSize := by omega
  have same := @Kept.bytes _ _ x w 0 _ kept (by omega)
  rw [filled_payload positive] at same
  have zero : careless.run (cut (filled r x 1) x before pxBlock after w).mem (pxBlock.start + xHeapStructSize) x.pv
      x.payloadSize = fun _ => 0 := if_neg near
  dsimp only at same
  rw [zero] at same
  have zero_one : (0 : UInt8) = 1 := same
  exact absurd zero_one (by decide)

/-- The header of what is left does not depend on memory. -/
theorem cut_header (sound : Sound low high r) (member : x ∈ r.live) (larger : x.payloadSize < w.toNat)
    (found : Found r x w before pxBlock after) (left : pxBlock.size - blockSize w.toNat > heapMinimumBlockSize) :
    (cut r x before pxBlock after w).mem (pxBlock.start + blockSize w.toNat) =
      UInt8.ofNat (({ r with
        free := before ++ ⟨pxBlock.start + blockSize w.toNat,
          pxBlock.size - blockSize w.toNat⟩ :: after } : Region).following
          ⟨pxBlock.start + blockSize w.toNat, pxBlock.size - blockSize w.toNat⟩) := by
  have released := sound.release member
  obtain ⟨there, fits⟩ := mem_released sound member found
  have position := (released.tiled.inside (mem_blocks.mpr (.inr (.inl there)))).2
  obtain ⟨mem, eq⟩ := released_fields sound member
  have free : ((r.unmark x).addFree x.block).free = before ++ pxBlock :: after := by
    rw [eq]
    exact (firstFit_some found.first).1
  have ordered := released.tiled.ordered
  rw [free] at ordered
  obtain ⟨-, early, late⟩ := ordered.taken
  have enough := blockSize_enough (blockSize_pos larger)
  obtain ⟨mem', eq'⟩ := @unlink_eq ((r.unmark x).addFree x.block) before after
  have two : split pxBlock (blockSize w.toNat) = (⟨pxBlock.start, blockSize w.toNat⟩,
      some ⟨pxBlock.start + blockSize w.toNat, pxBlock.size - blockSize w.toNat⟩) := if_pos left
  unfold cut taken
  rw [two]
  refine Eq.trans (@writeHeader_only (· = pxBlock.start) _ pxBlock.start _ _ rfl _ ?_) ?_
  · rintro h rfl
    omega
  · refine Eq.trans (@insert_header (((r.unmark x).addFree x.block).unlink before after) before after
      ⟨pxBlock.start + blockSize w.toNat, pxBlock.size - blockSize w.toNat⟩ ?_ ?_ ?_ ?_ ?_) ?_
    · rw [eq']
    · rw [eq']
      unfold Extent.stop at position
      dsimp only
      omega
    · intro e inFront
      have behind := early e inFront
      dsimp only
      omega
    · intro e behind
      have ahead := late e behind
      unfold Extent.stop at ahead ⊢
      dsimp only
      omega
    · intro e inFront
      have inFree : e ∈ ((r.unmark x).addFree x.block).free := free ▸ List.mem_append_left _ inFront
      exact (released.tiled.whole e (mem_blocks.mpr (.inr (.inl inFree)))).1
    · rw [eq', eq]
      rfl

theorem lost_of_clobbers (memcpy : Memcpy) (sound : Sound low high r) (member : x ∈ r.live)
    (larger : x.payloadSize < w.toNat)
    (clobbers : Clobbers r x w) (disjoint : ¬Overlaps r x w) :
    ∃ byte, ¬Kept (filled r x byte) x w ((filled r x byte).realloc memcpy x w).1 ((filled r x byte).realloc memcpy x w).2 := by
  obtain ⟨pxBlock, there, left, beyond, within⟩ := clobbers
  obtain ⟨before, after, found⟩ := found_of_origin there
  have enough := blockSize_enough (blockSize_pos larger)
  obtain ⟨inFree, fits⟩ := mem_released sound member found
  have header : xHeapStructSize = 8 := rfl
  -- the place of the header is aligned, and so behind the old header
  have aligned := ((sound.release member).tiled.whole pxBlock (mem_blocks.mpr (.inr (.inl inFree)))).2.1
  have alignedSize := blockSize_aligned w.toNat
  have alignedOld := (sound.tiled.whole x.block (mem_blocks_of_live member)).2.1
  have place := found_around_or_apart sound member found
  obtain ⟨i, here⟩ : ∃ i, pxBlock.start + blockSize w.toNat = x.pv + i := by
    apply Nat.exists_eq_add_of_le
    unfold Live.pv
    omega
  have inside : i < x.payloadSize := by
    unfold Live.pv at here
    unfold Live.payloadSize
    unfold Extent.stop at within
    omega
  have front : pxBlock.start < x.block.start := by
    unfold Extent.Apart Extent.stop at *
    unfold Live.payloadSize at larger
    omega
  have moved : pxBlock.start + xHeapStructSize ≠ x.pv := by
    unfold Live.pv
    omega
  have clear := copy_apart sound member larger found moved disjoint
  obtain ⟨damage, written⟩ : ∃ damage, ∀ byte,
      (cut (filled r x byte) x before pxBlock after w).mem (pxBlock.start + blockSize w.toNat) = damage :=
    ⟨UInt8.ofNat (({ r with
        free := before ++ ⟨pxBlock.start + blockSize w.toNat,
          pxBlock.size - blockSize w.toNat⟩ :: after } : Region).following
          ⟨pxBlock.start + blockSize w.toNat, pxBlock.size - blockSize w.toNat⟩),
      fun byte => @cut_header (filled r x byte) x w low high before after pxBlock (filled_sound sound byte) member larger
      ⟨found.small, found.first⟩ left⟩
  refine ⟨damage + 1, fun kept => ?_⟩
  have found' : Found (filled r x (damage + 1)) x w before pxBlock after := ⟨found.small, found.first⟩
  rw [realloc_given memcpy (filled_sound sound _) member larger found', if_pos moved,
    memcpy.apart _ _ _ _ clear] at kept
  have same := kept.bytes (i := i) (by omega)
  rw [filled_payload inside] at same
  dsimp only at same
  rw [copied_inside inside, ← here, written] at same
  have differ := congrArg UInt8.toNat same
  rw [UInt8.toNat_add] at differ
  have one : (1 : UInt8).toNat = 1 := rfl
  have size := damage.toNat_lt
  omega

theorem safe_of_kept (sound : Sound low high r) (member : x ∈ r.live)
    (kept : ∀ memcpy s, Rewritten r s → Kept s x w (s.realloc memcpy x w).1 (s.realloc memcpy x w).2) : Safe r x w := by
  by_contra unsafe_here
  have larger : x.payloadSize < w.toNat := Nat.not_le.mp fun enough => unsafe_here (.inl enough)
  by_cases overlaps : Overlaps r x w
  · exact lost_of_overlaps sound member larger overlaps (kept careless _ (filled_rewritten member 1))
  · have clobbers : Clobbers r x w := by
      by_contra unclobbered
      exact unsafe_here (.inr ⟨unclobbered, overlaps⟩)
    obtain ⟨byte, lost⟩ := lost_of_clobbers careless sound member larger clobbers overlaps
    exact lost (kept careless _ (filled_rewritten member byte))

theorem kept_iff_safe (sound : Sound low high r) (member : x ∈ r.live) :
    (∀ memcpy s, Rewritten r s → Kept s x w (s.realloc memcpy x w).1 (s.realloc memcpy x w).2) ↔ Safe r x w := by
  constructor
  · exact safe_of_kept sound member
  · rintro safe memcpy s ⟨mem, rfl, -⟩
    exact kept_of_safe memcpy (sound.of_mem mem) member safe

end

/-! ## Both regions -/

inductive Place where
  | ram
  | psram

def Heaps.region (h : Heaps) : Place → Region
  | .ram => h.ram
  | .psram => h.psram

def Heaps.put (h : Heaps) (r : Region) : Place → Heaps
  | .ram => { h with ram := r }
  | .psram => { h with psram := r }

/-- Whatever is in the payloads, and whatever memcpy does with areas that overlap. -/
def Preserves (realloc : Memcpy → Nat → UInt32 → Heaps → Option Nat × Heaps) (place : Place) (h : Heaps) (x : Live)
    (w : UInt32) : Prop :=
  ∀ memcpy r, Rewritten (h.region place) r → ∃ pvReturn s,
    realloc memcpy x.pv w (h.put r place) = (pvReturn, h.put s place) ∧ Kept r x w pvReturn s

section
variable {l : Layout} {memcpy : Memcpy} {h : Heaps} {r : Region} {x : Live} {w : UInt32} {low high : Nat} {place : Place}

/-- A pointer belongs to one block. -/
theorem findLive_of_live (sound : Sound low high r) (member : x ∈ r.live) : r.findLive x.pv = some x := by
  cases found : r.findLive x.pv with
  | none =>
    have absent : r.live.find? (·.pv = x.pv) = none := found
    exact absurd (decide_eq_true rfl) (List.find?_eq_none.mp absent x member)
  | some y =>
    obtain ⟨other, same⟩ := findLive_some found
    have start : y.block.start = x.block.start := Nat.add_right_cancel same
    by_contra differ
    have inErase : y ∈ (r.unmark x).live := (List.mem_erase_of_ne fun eq => differ (congrArg some eq)).mpr other
    have apart := (sound.tiled.unmark member).apart_of_cons (mem_blocks_of_live inErase)
    have size := sound.tiled.size_pos (mem_blocks_of_live member)
    have size' := sound.tiled.size_pos (mem_blocks_of_live other)
    unfold Extent.Apart Extent.stop at apart
    omega

theorem pv_ne_zero : x.pv ≠ 0 := Nat.ne_of_gt (Nat.add_pos_right _ (by decide))

theorem psramRealloc_eq (psram : Sound low high h.psram) (member : x ∈ h.psram.live) :
    h.psramRealloc l memcpy x.pv w =
      ((h.psram.realloc memcpy x w).1, { h with psram := (h.psram.realloc memcpy x w).2 }) := by
  unfold Heaps.psramRealloc
  rw [if_neg pv_ne_zero, findLive_of_live psram member]

theorem pvPortRealloc_psram (both : BothSound l h) (member : x ∈ h.psram.live) :
    h.pvPortRealloc l memcpy x.pv w =
      ((h.psram.realloc memcpy x w).1, { h with psram := (h.psram.realloc memcpy x w).2 }) := by
  have first := (live_inside both.psram member).1
  rw [alignedHeap_psram] at first
  have inPsram : x.pv > psramUcHeap l.soc := Nat.lt_of_le_of_lt first (Nat.lt_add_of_pos_right (by decide))
  unfold Heaps.pvPortRealloc
  rw [if_pos inPsram, psramRealloc_eq both.psram member]

theorem pvPortRealloc_ram (fits : l.Fits) (both : BothSound l h) (member : x ∈ h.ram.live) :
    h.pvPortRealloc l memcpy x.pv w = ((h.ram.realloc memcpy x w).1,
      { h with ram := (h.ram.realloc memcpy x w).2 }) := by
  have last := (live_inside both.ram member).2
  have header := (both.ram.tiled.whole x.block (mem_blocks_of_live member)).1
  have finish := @endMarker_le l.ucHeap l.xTotalHeapSize fits.room
  have below := fits.below
  have inRam : ¬x.pv > psramUcHeap l.soc := by
    unfold Live.pv
    unfold Extent.stop at last
    omega
  unfold Heaps.pvPortRealloc
  rw [if_neg inRam, if_neg pv_ne_zero, findLive_of_live both.ram member]

theorem put_inj {s : Region} (same : h.put r place = h.put s place) : r = s := by
  cases place with
  | ram => exact congrArg Heaps.ram same
  | psram => exact congrArg Heaps.psram same

theorem preserves_iff (place : Place) {realloc : Memcpy → Nat → UInt32 → Heaps → Option Nat × Heaps}
    (sound : Sound low high (h.region place)) (member : x ∈ (h.region place).live)
    (inPlace : ∀ memcpy r, Rewritten (h.region place) r →
      realloc memcpy x.pv w (h.put r place) = ((r.realloc memcpy x w).1, h.put (r.realloc memcpy x w).2 place)) :
    Preserves realloc place h x w ↔ Safe (h.region place) x w := by
  refine Iff.trans ?_ (kept_iff_safe sound member)
  constructor
  · intro preserves memcpy r rewritten
    obtain ⟨pvReturn, s, eq, kept⟩ := preserves memcpy r rewritten
    rw [inPlace memcpy r rewritten] at eq
    obtain ⟨rfl, same⟩ := Prod.mk.inj eq
    rwa [put_inj same]
  · exact fun kept memcpy r rewritten => ⟨_, _, inPlace memcpy r rewritten, kept memcpy r rewritten⟩

end

/-! ## Results -/

/-- In every heap that is reached, realloc keeps the payload or changes nothing if and only if no header and no copy
comes into the old payload. -/
theorem realloc_preserves {l : Layout} {memcpy : Memcpy} (fits : l.Fits) {ramMem psramMem : Cells}
    {moments : List (Moment Heaps Call)} {final : Heaps}
    (run : Run (Machine.Step (step l memcpy)) (Heaps.boot ramMem psramMem) moments final)
    (tame : ¬(final.ram.wild ∨ final.psram.wild)) (w : UInt32) :
    (∀ place, ∀ x ∈ (final.region place).live,
      Preserves (fun memcpy pv w h => h.pvPortRealloc l memcpy pv w) place final x w ↔ Safe (final.region place) x w) ∧
    ∀ x ∈ final.psram.live,
      Preserves (fun memcpy pv w h => h.psramRealloc l memcpy pv w) .psram final x w ↔ Safe final.psram x w := by
  have inv := inv_of_tame fits run tame
  refine ⟨fun place x member => ?_, fun x member => ?_⟩
  · cases place with
    | ram =>
      have both := inv.sound (inv.set_of_live (List.mem_append_left _ member))
      refine preserves_iff .ram both.ram member fun memcpy r rewritten => ?_
      obtain ⟨mem, rfl, -⟩ := rewritten
      exact @pvPortRealloc_ram l memcpy (final.put { final.ram with mem := mem } .ram) x w fits
        ⟨both.ram.of_mem mem, both.psram⟩ member
    | psram =>
      have both := inv.sound (inv.set_of_live (List.mem_append_right _ member))
      refine preserves_iff .psram both.psram member fun memcpy r rewritten => ?_
      obtain ⟨mem, rfl, -⟩ := rewritten
      exact @pvPortRealloc_psram l memcpy (final.put { final.psram with mem := mem } .psram) x w
        ⟨both.ram, both.psram.of_mem mem⟩ member
  · have both := inv.sound (inv.set_of_live (List.mem_append_right _ member))
    refine preserves_iff .psram both.psram member fun memcpy r rewritten => ?_
    obtain ⟨mem, rfl, -⟩ := rewritten
    exact @psramRealloc_eq l memcpy (final.put { final.psram with mem := mem } .psram) x w _ _ (both.psram.of_mem mem) member

/-- The block grows into the free memory behind it, and what comes in front of it is in use. -/
theorem realloc_preserves_grown :
    ∃ moments final, Run (Machine.Step (step bk7252n memmove)) blank moments final ∧
      moments.map Moment.event = [.pvPortMalloc 96, .pvPortMalloc 40] ∧
      ⟨⟨0x00400130, 104⟩, 96⟩ ∈ final.ram.live ∧
      Preserves (fun memcpy pv w h => h.pvPortRealloc bk7252n memcpy pv w) .ram final ⟨⟨0x00400130, 104⟩, 96⟩ 200 := by
  obtain ⟨moments, final, run, events, shown⟩ := @Machine.run_of_any _ _ (step bk7252n memmove) blank
    [.pvPortMalloc 96, .pvPortMalloc 40]
    (fun h => ¬(h.ram.wild ∨ h.psram.wild) ∧ ⟨⟨0x00400130, 104⟩, 96⟩ ∈ h.ram.live ∧
      Safe h.ram ⟨⟨0x00400130, 104⟩, 96⟩ 200)
    (by decide)
  obtain ⟨tame, member, safe⟩ := of_decide_eq_true shown
  exact ⟨moments, final, run, events, member,
    ((realloc_preserves ⟨by decide, by decide⟩ run tame 200).1 .ram _ member).mpr safe⟩

/-- Two blocks of 96 bytes, the first is freed and the second is to have 100: what is left of the merged block begins
where the second payload does. -/
theorem payload_clobbered :
    ∃ moments final, Run (Machine.Step (step bk7252n memmove)) blank moments final ∧
      moments.map Moment.event = [.vPortFree 0x00400108, .pvPortMalloc 96, .pvPortMalloc 96] ∧
      ⟨⟨0x00400168, 104⟩, 96⟩ ∈ final.ram.live ∧
      ¬Preserves (fun memcpy pv w h => h.pvPortRealloc bk7252n memcpy pv w) .ram final ⟨⟨0x00400168, 104⟩, 96⟩ 100 := by
  obtain ⟨moments, final, run, events, shown⟩ := @Machine.run_of_any _ _ (step bk7252n memmove) blank
    [.vPortFree 0x00400108, .pvPortMalloc 96, .pvPortMalloc 96]
    (fun h => ⟨⟨0x00400168, 104⟩, 96⟩ ∈ h.ram.live ∧
      ((h.put (filled h.ram ⟨⟨0x00400168, 104⟩, 96⟩ 1) .ram).pvPortRealloc bk7252n memmove 0x00400170 100).1 =
      some 0x00400108 ∧
      ((h.put (filled h.ram ⟨⟨0x00400168, 104⟩,
        96⟩ 1) .ram).pvPortRealloc bk7252n memmove 0x00400170 100).2.ram.mem 0x00400108 ≠ 1)
    (by decide)
  obtain ⟨member, given, lost⟩ := of_decide_eq_true shown
  refine ⟨moments, final, run, events, member, fun preserves => ?_⟩
  obtain ⟨pvReturn, s, eq, kept⟩ := preserves memmove _ (filled_rewritten member 1)
  have eq : (final.put (filled final.ram ⟨⟨0x00400168, 104⟩, 96⟩ 1) .ram).pvPortRealloc bk7252n memmove 0x00400170 100 =
    (pvReturn, final.put s .ram) := eq
  rw [eq] at given lost
  obtain rfl : pvReturn = some 0x00400108 := given
  exact lost (@Kept.bytes _ _ _ _ 0 _ kept (by decide))

end BekenSdk.Heap
