import BekenSdk.Base.Bytes
import BekenSdk.Base.CData
import BekenSdk.Base.FreeList

/-! One region of the heap (FreeRTOS heap_4.c as it is here, without CFG_MEM_DEBUG). The
functions for RAM and for PSRAM are the same but for the variables that they use. The list from
`xStart` to `pxEnd` is a list of extents, and a header in use is an entry of `live`; what is
written into headers also goes to memory. Addresses and sizes are far from the end of 32 bits.
-/

set_option autoImplicit false

namespace BekenSdk.Heap
open Base

/-- sizeof( BlockLink_t ) is a multiple of portBYTE_ALIGNMENT. -/
def xHeapStructSize : Nat := 8

def heapMinimumBlockSize : Nat := xHeapStructSize * 2

def xBlockAllocatedBit : Nat := 2 ^ 31

/-- A block in use, and what it was asked for. -/
structure Live where
  block : Extent
  wanted : Nat
  deriving DecidableEq

/-- What malloc returned. -/
def Live.pv (x : Live) : Nat := x.block.start + xHeapStructSize

def Live.payloadSize (x : Live) : Nat := x.block.size - xHeapStructSize

structure Region where
  free : List Extent
  pxEnd : Nat
  xFreeBytesRemaining : Nat
  xMinimumEverFreeBytesRemaining : Nat
  mem : Cells
  live : List Live
  /-- A walk over the list has gone on behind the end marker. -/
  wild : Bool

namespace Region

/-! ## Headers in memory -/

def writeHeader (r : Region) (addr next size : Nat) : Region :=
  { r with mem := storeBytes r.mem addr (le32 next ++ le32 size) }

/-- `pxNextFreeBlock` of a free block. -/
def following (r : Region) (e : Extent) : Nat := (r.free.find? (e.start < ·.start)).elim r.pxEnd Extent.start

def writeLink (r : Region) (e : Extent) : Region := r.writeHeader e.start (r.following e) e.size

/-! ## The free list -/

/-- The block that was inserted and the one whose `pxNextFreeBlock` leads to it, or the one that it was merged into. -/
def relinked (b : Extent) (free : List Extent) : List Extent :=
  match (free.filter (·.start ≤ b.start)).reverse with
  | it :: previous :: _ => if it.start = b.start then [it, previous] else [it]
  | its => its

def prvInsertBlockIntoFreeList (r : Region) (b : Extent) : Region :=
  if (∀ e ∈ r.free, e.start < b.start) ∧ r.pxEnd < b.start then
    -- the iterator comes to pxEnd and to NULL
    { r with wild := true }
  else
    let r := { r with free := coalesce b r.free }
    (relinked b r.free).foldl writeLink r

/-! ## malloc -/

/-- The size with its header, aligned; 0 for 0. -/
def blockSize (wanted : Nat) : Nat := if 0 < wanted then (wanted + xHeapStructSize + 7) / 8 * 8 else 0

/-- The block belongs to the application. -/
def handOut (r : Region) (b : Extent) (wanted : Nat) : Region :=
  let remaining := r.xFreeBytesRemaining - b.size
  { r.writeHeader b.start 0 (b.size + xBlockAllocatedBit) with
    xFreeBytesRemaining := remaining
    xMinimumEverFreeBytesRemaining := min remaining r.xMinimumEverFreeBytesRemaining
    live := ⟨b, wanted⟩ :: r.live }

/-- A block leaves the free list. -/
def unlink (r : Region) (before after : List Extent) : Region :=
  before.getLast?.toList.foldl writeLink { r with free := before ++ after }

/-- What is taken off the block, and what remains if that is enough for a block. -/
def split (b : Extent) (size : Nat) : Extent × Option Extent :=
  if b.size - size > heapMinimumBlockSize then (⟨b.start, size⟩, some ⟨b.start + size, b.size - size⟩) else (b, none)

def mallocWithoutLock (r : Region) (xWantedSize : UInt32) : Option Extent × Region :=
  let wanted := xWantedSize.toNat
  let size := blockSize wanted
  -- the top bit must be free
  if wanted < xBlockAllocatedBit ∧ 0 < size ∧ size ≤ r.xFreeBytesRemaining then
    match firstFit size r.free with
    | none => (none, r)
    | some (before, pxBlock, after) =>
      let (b, rest) := split pxBlock size
      let r := r.unlink before after
      let r := rest.toList.foldl prvInsertBlockIntoFreeList r
      (some b, r.handOut b wanted)
  else (none, r)

/-! ## free -/

def findLive (r : Region) (pv : Nat) : Option Live := r.live.find? (·.pv = pv)

/-- The header says that the block is free. -/
def unmark (r : Region) (x : Live) : Region :=
  { r.writeHeader x.block.start 0 x.block.size with live := r.live.erase x }

def addFree (r : Region) (b : Extent) : Region :=
  { r with xFreeBytesRemaining := r.xFreeBytesRemaining + b.size }.prvInsertBlockIntoFreeList b

/-! ## realloc -/

def copied (mem : Cells) (out source n : Nat) : Cells := fun a =>
  if out ≤ a ∧ a < out + n then mem (source + (a - out)) else mem a

/-- The C library's; what it does with areas that overlap is left open. -/
structure Memcpy where
  run : Cells → Nat → Nat → Nat → Cells
  apart : ∀ mem out source n, out + n ≤ source ∨ source + n ≤ out → run mem out source n = copied mem out source n

/-- The loop that looks for the block in the free list and cuts it out; the list, and the links written. -/
def cutOut (b : Extent) (previous : Option Extent) : List Extent → List Extent × List Extent
  | [] => ([], [])
  | it :: rest =>
    if it.start > b.start then (it :: rest, [])
    else if it.start = b.start then
      if it.size > b.size then
        let tmp : Extent := ⟨b.start + b.size, it.size - b.size⟩
        (tmp :: rest, tmp :: previous.toList)
      else (rest, previous.toList)
    else if it.stop = b.stop then (⟨it.start, it.size - b.size⟩ :: rest, [⟨it.start, it.size - b.size⟩])
    else if it.stop > b.stop then
      let first : Extent := ⟨it.start, b.start - it.start⟩
      let second : Extent := ⟨b.stop, it.stop - b.stop⟩
      (first :: second :: rest, [second, first])
    else
      let (rest, written) := cutOut b (some it) rest
      (it :: rest, written)

/-- There was no memory: the block is in use as before. -/
def takeBack (r : Region) (x : Live) : Region :=
  let (free, written) := cutOut x.block none r.free
  let r := written.foldl writeLink { r with free := free }
  { r.writeHeader x.block.start 0 (x.block.size + xBlockAllocatedBit) with
    xFreeBytesRemaining := r.xFreeBytesRemaining - x.block.size
    live := x :: r.live }

/-- pvPortRealloc of a block of the region. -/
def realloc (memcpy : Memcpy) (r : Region) (x : Live) (xWantedSize : UInt32) : Option Nat × Region :=
  if x.payloadSize ≥ xWantedSize.toNat then (some x.pv, r)
  else
    match ((r.unmark x).addFree x.block).mallocWithoutLock xWantedSize with
    | (some b, r) =>
      let pvReturn := b.start + xHeapStructSize
      (some pvReturn, if pvReturn ≠ x.pv then { r with mem := memcpy.run r.mem pvReturn x.pv x.payloadSize } else r)
    | (none, r) => (none, r.takeBack x)

/-! ## prvHeapInit -/

def alignedHeap (ucHeap : Nat) : Nat := (ucHeap + 7) / 8 * 8

def endMarker (ucHeap xTotalHeapSize : Nat) : Nat :=
  (alignedHeap ucHeap + (xTotalHeapSize - (alignedHeap ucHeap - ucHeap)) - xHeapStructSize) / 8 * 8

/-- `pxFirstFreeBlock` is the whole region without its end marker. -/
def init (ucHeap xTotalHeapSize : Nat) (mem : Cells) : Region :=
  let start := alignedHeap ucHeap
  let pxEnd := endMarker ucHeap xTotalHeapSize
  let r : Region := ⟨[⟨start, pxEnd - start⟩], pxEnd, pxEnd - start, pxEnd - start, mem, [], false⟩
  (r.writeHeader pxEnd 0 0).writeLink ⟨start, pxEnd - start⟩

end Region

/-! ## Tiles

The free blocks and those in use tile a region. Blocks on their way from one list to the
other count as well, so that each step of an operation can be looked at by itself.
-/

/-- The blocks of the region, with those that are in no list. -/
def Region.blocks (r : Region) (pending : List Extent) : List Extent := pending ++ (r.free ++ r.live.map Live.block)

def Whole (e : Extent) : Prop := xHeapStructSize ≤ e.size ∧ e.start % 8 = 0 ∧ e.size % 8 = 0

/-- Each address of the region is in one block. -/
structure Tiled (low : Nat) (pending : List Extent) (r : Region) : Prop where
  tame : r.wild = false
  ordered : Separated r.free
  tiles : ∀ a, cover a (r.blocks pending) = if low ≤ a ∧ a < r.pxEnd then 1 else 0
  whole : ∀ e ∈ r.blocks pending, Whole e

namespace Region
variable {r : Region} {low : Nat} {pending before after : List Extent} {b c : Extent} {x : Live}

/-! ## What memory does not change -/

theorem foldl_writeLink (written : List Extent) (r : Region) : ∃ mem, written.foldl writeLink r =
    { r with mem := mem } := by
  induction written generalizing r with
  | nil => exact ⟨r.mem, rfl⟩
  | cons e written ih => exact ih (r.writeLink e)

theorem insert_eq (inside : b.start ≤ r.pxEnd) :
    ∃ mem, r.prvInsertBlockIntoFreeList b = { r with free := coalesce b r.free, mem := mem } := by
  unfold prvInsertBlockIntoFreeList
  rw [if_neg fun past => Nat.not_lt.mpr inside past.2]
  exact foldl_writeLink _ _

theorem unlink_eq : ∃ mem, r.unlink before after = { r with free := before ++ after, mem := mem } := foldl_writeLink _ _

end Region

open Region

section
variable {r : Region} {low : Nat} {pending before after : List Extent} {b c : Extent} {x : Live}

/-- Only the lists and the end matter. -/
theorem Tiled.of_mem (tiled : Tiled low pending r) (mem : Cells) : Tiled low pending { r with mem := mem } :=
  ⟨tiled.tame, tiled.ordered, tiled.tiles, tiled.whole⟩

/-! ## Places -/

theorem blocks_cons : r.blocks (b :: pending) = b :: r.blocks pending := rfl

theorem mem_blocks {e : Extent} : e ∈ r.blocks pending ↔ e ∈ pending ∨ e ∈ r.free ∨ e ∈ r.live.map Live.block := by
  rw [blocks, List.mem_append, List.mem_append]

theorem Tiled.size_pos (tiled : Tiled low pending r) {e : Extent} (member : e ∈ r.blocks pending) : 0 < e.size :=
  Nat.lt_of_lt_of_le (by decide) (tiled.whole e member).1

/-- A block lies in the region. -/
theorem Tiled.inside (tiled : Tiled low pending r) {e : Extent} (member : e ∈ r.blocks pending) :
    low ≤ e.start ∧ e.stop ≤ r.pxEnd := by
  have positive := tiled.size_pos member
  have covered {a : Nat} (there : e.Covers a) : low ≤ a ∧ a < r.pxEnd := by
    have count := cover_pos member there
    rw [tiled.tiles] at count
    by_contra outside
    rw [if_neg outside] at count
    exact absurd count (Nat.lt_irrefl 0)
  have first := covered (a := e.start) ⟨Nat.le_refl _, Nat.lt_add_of_pos_right positive⟩
  have last := covered (a := e.stop - 1) (by unfold Extent.Covers Extent.stop; omega)
  refine ⟨first.1, ?_⟩
  unfold Extent.stop at last ⊢
  omega

/-- Two blocks of the region are apart. -/
theorem Tiled.apart_of_cons (tiled : Tiled low (b :: pending) r) {e : Extent} (member : e ∈ r.blocks pending) :
    b.Apart e := by
  have head : b ∈ r.blocks (b :: pending) := List.mem_cons_self
  apply apart_of_cover (tiled.size_pos head) _ member (tiled.size_pos (List.mem_cons_of_mem _ member))
  intro a there
  have count := tiled.tiles a
  rw [blocks_cons, cover_cons, if_pos there] at count
  split at count
  · omega
  · omega

/-! ## Moves between the lists -/

theorem Tiled.insert (tiled : Tiled low (b :: pending) r) : Tiled low pending (r.prvInsertBlockIntoFreeList b) := by
  have head : b ∈ r.blocks (b :: pending) := List.mem_cons_self
  have position := (tiled.inside head).2
  obtain ⟨mem, eq⟩ := @insert_eq r b (Nat.le_trans (Nat.le_add_right _ _) position)
  have inFree {e : Extent} (member : e ∈ r.free) : e ∈ r.blocks pending := mem_blocks.mpr (.inr (.inl member))
  rw [eq]
  apply Tiled.of_mem (r := { r with free := coalesce b r.free })
  refine ⟨tiled.tame, ?_, fun a => ?_, fun e member => ?_⟩
  · apply tiled.ordered.coalesce (tiled.size_pos head)
    · exact fun e member => tiled.size_pos (List.mem_cons_of_mem _ (inFree member))
    · exact fun e member => tiled.apart_of_cons (inFree member)
  · have count := tiled.tiles a
    rw [blocks_cons, cover_cons, blocks] at count
    refine Eq.trans ?_ count
    change cover a (pending ++ (coalesce b r.free ++ r.live.map Live.block)) = _
    simp only [cover_append, cover_coalesce]
    omega
  · have joined : ∀ c d : Extent, Whole c → Whole d → c.stop = d.start → Whole ⟨c.start, c.size + d.size⟩ := by
      intro c d wholeC wholeD _
      unfold Whole at *
      dsimp only
      omega
    rcases mem_blocks.mp member with early | free | live
    · exact tiled.whole e (List.mem_cons_of_mem _ (mem_blocks.mpr (.inl early)))
    · apply forall_coalesce joined (tiled.whole b head) _ e free
      exact fun f member => tiled.whole f (List.mem_cons_of_mem _ (inFree member))
    · exact tiled.whole e (List.mem_cons_of_mem _ (mem_blocks.mpr (.inr (.inr live))))

theorem Tiled.unlink (tiled : Tiled low pending r) (split : r.free = before ++ b :: after) :
    Tiled low (b :: pending) (r.unlink before after) := by
  obtain ⟨mem, eq⟩ := @unlink_eq r before after
  have ordered := tiled.ordered
  rw [split] at ordered
  rw [eq]
  apply Tiled.of_mem (r := { r with free := before ++ after })
  refine ⟨tiled.tame, ordered.taken.1, fun a => ?_, fun e member => ?_⟩
  · rw [← tiled.tiles a, blocks_cons, cover_cons, blocks, blocks, split]
    simp only [cover_append, cover_cons]
    omega
  · apply tiled.whole
    rw [mem_blocks, split, List.mem_append, List.mem_cons]
    rw [blocks_cons, List.mem_cons, mem_blocks, List.mem_append] at member
    tauto

/-- A block is cut in two. -/
theorem Tiled.cut (tiled : Tiled low (b :: pending) r) {size : Nat} (some_left : xHeapStructSize ≤ b.size - size)
    (enough : xHeapStructSize ≤ size) (aligned : size % 8 = 0) :
    Tiled low (⟨b.start + size, b.size - size⟩ :: ⟨b.start, size⟩ :: pending) r := by
  have whole := tiled.whole b List.mem_cons_self
  have struct : xHeapStructSize = 8 := rfl
  refine ⟨tiled.tame, tiled.ordered, fun a => ?_, fun e member => ?_⟩
  · have count := tiled.tiles a
    rw [blocks_cons, cover_cons] at count
    have two := @covers_joined a ⟨b.start, size⟩ ⟨b.start + size, b.size - size⟩ rfl
    have same : size + (b.size - size) = b.size := by omega
    dsimp only at two
    rw [same] at two
    rw [blocks_cons, blocks_cons, cover_cons, cover_cons, ← count, two]
    omega
  · unfold Whole at whole ⊢
    rcases List.mem_cons.mp member with rfl | others
    · dsimp only
      omega
    · rcases List.mem_cons.mp others with rfl | others
      · dsimp only
        omega
      · exact tiled.whole e (List.mem_cons_of_mem _ others)

theorem Tiled.handOut (tiled : Tiled low (b :: pending) r) (wanted : Nat) : Tiled low pending (r.handOut b wanted) := by
  refine ⟨tiled.tame, tiled.ordered, fun a => ?_, fun e member => ?_⟩
  · have count := tiled.tiles a
    rw [blocks_cons, cover_cons, blocks] at count
    refine Eq.trans ?_ count
    change cover a (pending ++ (r.free ++ b :: r.live.map Live.block)) = _
    simp only [cover_append, cover_cons]
    omega
  · apply tiled.whole
    rw [blocks_cons, List.mem_cons, mem_blocks]
    have split : e ∈ pending ∨ e ∈ r.free ∨ e ∈ b :: r.live.map Live.block := mem_blocks.mp member
    rw [List.mem_cons] at split
    tauto

/-- A block in use leaves the list of those. -/
theorem Tiled.unmark (tiled : Tiled low pending r) (member : x ∈ r.live) : Tiled low
    (x.block :: pending) (r.unmark x) := by
  have perm : (r.live.map Live.block).Perm (x.block :: (r.live.erase x).map Live.block) :=
    (List.perm_cons_erase member).map Live.block
  refine ⟨tiled.tame, tiled.ordered, fun a => ?_, fun e inside => ?_⟩
  · have same : cover a (r.live.map Live.block) = cover a (x.block :: (r.live.erase x).map Live.block) :=
      perm.countP_eq _
    have count := tiled.tiles a
    rw [blocks] at count
    refine Eq.trans ?_ count
    change cover a (x.block :: (pending ++ (r.free ++ (r.live.erase x).map Live.block))) = _
    simp only [cover_append, same, cover_cons]
    omega
  · apply tiled.whole
    rw [mem_blocks]
    have split : e ∈ x.block :: (pending ++ (r.free ++ (r.live.erase x).map Live.block)) := inside
    rw [List.mem_cons, List.mem_append, List.mem_append] at split
    have back : e = x.block ∨ e ∈ (r.live.erase x).map Live.block → e ∈ r.live.map Live.block := fun either =>
      perm.mem_iff.mpr (List.mem_cons.mpr either)
    tauto

end

end BekenSdk.Heap
