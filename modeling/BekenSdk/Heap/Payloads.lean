import BekenSdk.Heap.Operations

/-! What the operations write to memory: the headers of free blocks, and of the blocks that
they are given or hand out. Payloads lie between headers.
-/

set_option autoImplicit false

namespace BekenSdk.Heap
open Base Region

/-- Only headers at such places are written. -/
def HeadersOnly (places : Nat → Prop) (mem mem' : Cells) : Prop :=
  ∀ a, (∀ h, places h → a < h ∨ h + xHeapStructSize ≤ a) → mem' a = mem a

section
variable {places : Nat → Prop} {mem mem' mem'' : Cells} {r : Region} {free before after : List Extent}
  {b pxBlock : Extent} {x : Live} {low high : Nat} {w : UInt32}

theorem HeadersOnly.refl : HeadersOnly places mem mem := fun _ _ => rfl

theorem HeadersOnly.trans (first : HeadersOnly places mem mem') (second : HeadersOnly places mem' mem'') :
    HeadersOnly places mem mem'' := fun a outside => (second a outside).trans (first a outside)

/-- A payload that no header is in is as before. -/
theorem HeadersOnly.payload (only : HeadersOnly places mem mem')
    (spared : ∀ h, places h → h ≤ x.block.start ∨ x.block.stop ≤ h) {i : Nat} (inside : i < x.payloadSize) :
    mem' (x.pv + i) = mem (x.pv + i) := by
  apply only
  intro h place
  unfold Live.payloadSize at inside
  unfold Live.pv Extent.stop at *
  rcases spared h place with before | behind
  · right
    omega
  · left
    omega

theorem writeHeader_only {addr next size : Nat} (place : places addr) :
    HeadersOnly places r.mem (r.writeHeader addr next size).mem := by
  intro a outside
  apply storeBytes_outside
  have length : (le32 next ++ le32 size).length = xHeapStructSize := rfl
  rw [length]
  exact outside addr place

theorem writeHeader_first (addr next size : Nat) : (r.writeHeader addr next size).mem addr = UInt8.ofNat next := by
  have length : (le32 next ++ le32 size).length = xHeapStructSize := rfl
  change storeBytes r.mem addr (le32 next ++ le32 size) addr = _
  rw [storeBytes, if_pos ⟨Nat.le_refl _, by rw [length]; exact Nat.lt_add_of_pos_right (by decide)⟩, Nat.sub_self]
  rfl

theorem foldl_writeLink_only (written : List Extent) (there : ∀ e ∈ written, places e.start) :
    HeadersOnly places r.mem (written.foldl writeLink r).mem := by
  induction written generalizing r with
  | nil => exact .refl
  | cons e written ih =>
    obtain ⟨place, others⟩ := List.forall_mem_cons.mp there
    exact (writeHeader_only place).trans (@ih (r.writeLink e) others)

/-! ## Free blocks -/

theorem relinked_subset : ∀ e ∈ relinked b free, e ∈ free := by
  intro e member
  have all : ∀ f ∈ (free.filter (·.start ≤ b.start)).reverse, f ∈ free := fun f inside =>
    List.mem_of_mem_filter (List.mem_reverse.mp inside)
  unfold relinked at member
  split at member
  next it previous others eq =>
    rw [eq] at all
    obtain ⟨first, rest⟩ := List.forall_mem_cons.mp all
    obtain ⟨second, -⟩ := List.forall_mem_cons.mp rest
    split at member
    · rcases List.mem_cons.mp member with rfl | last
      · exact first
      · rwa [List.mem_singleton.mp last]
    · rwa [List.mem_singleton.mp member]
  next => exact all e member

/-- A block that was merged starts where one of its parts did. -/
theorem coalesce_starts (place : places b.start) (others : ∀ e ∈ free, places e.start) :
    ∀ e ∈ coalesce b free, places e.start :=
  @forall_coalesce b free (fun e => places e.start) (fun _ _ first _ _ => first) place others

theorem insert_only (inside : b.start ≤ r.pxEnd) (place : places b.start) (others : ∀ e ∈ r.free, places e.start) :
    HeadersOnly places r.mem (r.prvInsertBlockIntoFreeList b).mem := by
  unfold prvInsertBlockIntoFreeList
  rw [if_neg fun past => Nat.not_lt.mpr inside past.2]
  apply foldl_writeLink_only (r := { r with free := coalesce b r.free })
  exact fun e member => coalesce_starts place others e (relinked_subset e member)

theorem unlink_only (others : ∀ e ∈ before, places e.start) : HeadersOnly places r.mem (r.unlink before after).mem := by
  apply foldl_writeLink_only (r := { r with free := before ++ after })
  exact fun e member => others e (List.mem_of_getLast? (Option.mem_toList.mp member))

/-- A block that touches no other is linked in behind the one before it. -/
theorem relinked_between (early : ∀ e ∈ before, e.start < b.start) (late : ∀ e ∈ after, b.start < e.start) :
    relinked b (before ++ b :: after) = b :: before.getLast?.toList := by
  have up_to : (before ++ b :: after).filter (·.start ≤ b.start) = before ++ [b] := by
    have first : before.filter (·.start ≤ b.start) = before :=
      List.filter_eq_self.mpr fun e member => decide_eq_true (Nat.le_of_lt (early e member))
    have last : after.filter (·.start ≤ b.start) = [] := by
      apply List.filter_eq_nil_iff.mpr
      intro e member
      have behind := late e member
      simpa using behind
    have self : (b :: after).filter (·.start ≤ b.start) = b :: after.filter (·.start ≤ b.start) :=
      List.filter_cons_of_pos (decide_eq_true (Nat.le_refl _))
    rw [List.filter_append, self, first, last]
  unfold relinked
  rw [up_to, List.reverse_append, List.reverse_singleton, List.singleton_append, List.getLast?_eq_head?_reverse]
  cases before.reverse with
  | nil => rfl
  | cons previous others => exact if_pos rfl

/-- The first byte of the header of a block that touches no other. -/
theorem insert_header (free : r.free = before ++ after) (inside : b.start ≤ r.pxEnd)
    (early : ∀ e ∈ before, e.stop < b.start) (late : ∀ e ∈ after, b.stop < e.start)
    (sizes : ∀ e ∈ before, xHeapStructSize ≤ e.size) :
    (r.prvInsertBlockIntoFreeList b).mem b.start =
    UInt8.ofNat ({ r with free := before ++ b :: after }.following b) := by
  have order : relinked b (coalesce b r.free) = b :: before.getLast?.toList := by
    rw [free, coalesce_between early late]
    apply relinked_between
    · exact fun e member => Nat.lt_of_le_of_lt (Nat.le_add_right _ _) (early e member)
    · exact fun e member => Nat.lt_of_le_of_lt (Nat.le_add_right _ _) (late e member)
  unfold prvInsertBlockIntoFreeList
  rw [if_neg fun past => Nat.not_lt.mpr inside past.2]
  dsimp only
  rw [order, List.foldl_cons, free, coalesce_between early late]
  have others := @foldl_writeLink_only (fun h => ∃ e ∈ before, e.start = h)
    ({ r with free := before ++ b :: after }.writeLink b) before.getLast?.toList
    fun e member => ⟨e, List.mem_of_getLast? (Option.mem_toList.mp member), rfl⟩
  refine Eq.trans (others b.start ?_) (writeHeader_first _ _ _)
  rintro h ⟨e, member, rfl⟩
  have size := sizes e member
  have behind := early e member
  unfold Extent.stop at behind
  omega

/-! ## Operations -/

theorem release_only (inside : x.block.start ≤ r.pxEnd) (place : places x.block.start)
    (others : ∀ e ∈ r.free, places e.start) : HeadersOnly places r.mem ((r.unmark x).addFree x.block).mem :=
  (writeHeader_only place).trans
    (@insert_only places { r.unmark x with xFreeBytesRemaining := r.xFreeBytesRemaining + x.block.size } x.block
      inside place others)

/-- The place of what is left of the block is the only new one. -/
theorem taken_only {wanted : Nat} (found : r.free = before ++ pxBlock :: after) (others : ∀ e ∈ r.free, places e.start)
    (inside : pxBlock.start + blockSize wanted ≤ r.pxEnd)
    (place : pxBlock.size - blockSize wanted > heapMinimumBlockSize → places (pxBlock.start + blockSize wanted)) :
    HeadersOnly places r.mem (taken r before pxBlock after wanted).mem := by
  have self : places pxBlock.start := others pxBlock (found ▸ List.mem_append_right _ List.mem_cons_self)
  have early : ∀ e ∈ before, places e.start := fun e member => others e (found ▸ List.mem_append_left _ member)
  have late : ∀ e ∈ after, places e.start := fun e member =>
    others e (found ▸ List.mem_append_right _ (List.mem_cons_of_mem _ member))
  have unlinked := @unlink_only places r before after early
  obtain ⟨mem, eq⟩ := @unlink_eq r before after
  unfold taken
  by_cases left : pxBlock.size - blockSize wanted > heapMinimumBlockSize
  · have two : split pxBlock (blockSize wanted) = (⟨pxBlock.start, blockSize wanted⟩,
        some ⟨pxBlock.start + blockSize wanted, pxBlock.size - blockSize wanted⟩) := if_pos left
    rw [two]
    have rest := @insert_only places (r.unlink before after) ⟨pxBlock.start + blockSize wanted,
      pxBlock.size - blockSize wanted⟩
      (by rw [eq]; exact inside) (place left) (by rw [eq]; exact List.forall_mem_append.mpr ⟨early, late⟩)
    exact (unlinked.trans rest).trans (writeHeader_only self)
  · have one : split pxBlock (blockSize wanted) = (pxBlock, none) := if_neg left
    rw [one]
    exact unlinked.trans (writeHeader_only self)

/-- The links that are written are those of blocks that stay in the list. -/
theorem cutOut_written (previous : Option Extent) :
    ∀ e ∈ (cutOut b previous free).2, e ∈ previous ∨ e ∈ (cutOut b previous free).1 := by
  induction free generalizing previous with
  | nil => exact fun _ none => absurd none List.not_mem_nil
  | cons it rest ih =>
    intro e
    rw [cutOut]
    split
    · exact fun none => absurd none List.not_mem_nil
    · split
      · split
        · intro member
          rcases List.mem_cons.mp member with rfl | before
          · exact .inr List.mem_cons_self
          · exact .inl (Option.mem_toList.mp before)
        · exact fun before => .inl (Option.mem_toList.mp before)
      · split
        · exact fun member => .inr (List.mem_singleton.mp member ▸ List.mem_cons_self)
        · split
          · intro member
            right
            rcases List.mem_cons.mp member with rfl | last
            · exact List.mem_cons_of_mem _ List.mem_cons_self
            · exact List.mem_singleton.mp last ▸ List.mem_cons_self
          · intro member
            right
            rcases ih (some it) e member with before | kept
            · exact Option.some.inj before ▸ List.mem_cons_self
            · exact List.mem_cons_of_mem _ kept

theorem takeBack_only (place : places x.block.start) (others : ∀ e ∈ (cutOut x.block none r.free).1, places e.start) :
    HeadersOnly places r.mem (r.takeBack x).mem := by
  have written : ∀ e ∈ (cutOut x.block none r.free).2, places e.start := fun e member =>
    others e ((cutOut_written none e member).resolve_left (by simp))
  unfold takeBack
  generalize cutOut x.block none r.free = result at written
  obtain ⟨free, links⟩ := result
  exact (@foldl_writeLink_only places { r with free := free } links written).trans (writeHeader_only place)

end

end BekenSdk.Heap
